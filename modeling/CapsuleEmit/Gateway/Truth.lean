import CapsuleEmit.Gateway.Pairing

namespace CapsuleEmit
namespace Gateway

/-!
# When a chain tells the truth

A pairing is true when the planned call belongs to the response.  Each entry
of the queue is paired once, whatever the interleaving, so no plan is chained
to twice.  But the rule looks at the depth of the queue only: a response whose
own entry was dropped as overdue, or cleared by an ambiguous response, is
paired with whatever single call is pending by then.

Where that does not happen, every chain is true; and calls that are taken one
after another, each answered in time, are all chained.
-/

variable {κ : Type} {pendingTtl : Int}

/-- The outcome Capsule of a call is chained to the planned Capsule of an entry. -/
def Chained (s : State κ) (call : κ) (entry : Pending κ) : Prop :=
  ∃ outcome outcomeId plannedId, s.phase call = .done (some entry) outcome (some outcomeId) ∧
    outcome.confirms = some plannedId

/-- A chain leads to the plan that was sealed for the same call. -/
def Truthful (events : List (Event κ)) (s : State κ) : Prop :=
  ∀ call entry, Chained s call entry → entry.call = call ∧
    .sealPlan call entry.plan entry.plannedId ∈ events

/-- No plan is chained to by the outcomes of two calls. -/
def Unshared (s : State κ) : Prop :=
  ∀ call call' entry entry', Chained s call entry → Chained s call' entry' →
    entry.call = entry'.call → call = call'

/-- The own entry of a response still waits when it arrives, neither overdue
nor cleared, unless the number of calls that wait is not one. -/
def Kept (pendingTtl : Int) (s : State κ) : Event κ → Prop
  | .resolve call now _ =>
      (∃ entry ∈ expirePending pendingTtl now s.pending, entry.call = call) ∨
        (expirePending pendingTtl now s.pending).length ≠ 1
  | _ => True

theorem Chained.entry_eq {s : State κ} {call : κ} {entry : Pending κ}
    (chained : Chained s call entry) : (s.phase call).entry = some entry := by
  rcases chained with ⟨outcome, outcomeId, plannedId, phase, -⟩
  rw [phase]
  rfl

/-! ## Truth -/

/-- The plan of an entry was sealed for its call. -/
def Planned (events : List (Event κ)) (entry : Pending κ) : Prop :=
  .sealPlan entry.call entry.plan entry.plannedId ∈ events

/-- Every entry is of a plan that was sealed, and paired entries are of the
call they are paired with. -/
structure Honest (events : List (Event κ)) (s : State κ) : Prop where
  planned : ∀ call plan plannedId, s.phase call = .planned plan plannedId →
    .sealPlan call plan plannedId ∈ events
  pending : ∀ entry ∈ s.pending, Planned events entry
  paired : ∀ call entry, (s.phase call).entry = some entry →
    entry.call = call ∧ Planned events entry

theorem honest_start (events : List (Event κ)) : Honest events State.start where
  planned _ _ _ phase := by cases phase
  pending _ inside := by cases inside
  paired _ _ phase := by cases phase

variable [DecidableEq κ]

/-- Moving a call on keeps the pairs honest when its new phase is. -/
theorem Honest.move {events : List (Event κ)} {s : State κ} (honest : Honest events s) {call : κ}
    {phase : Phase κ}
    (planned : ∀ plan plannedId, phase = .planned plan plannedId →
      .sealPlan call plan plannedId ∈ events)
    (paired : ∀ entry, phase.entry = some entry → entry.call = call ∧ Planned events entry)
    {pending : List (Pending κ)} (queue : ∀ entry ∈ pending, Planned events entry) :
    Honest events { s.move call phase with pending := pending } where
  planned other plan plannedId is := by
    by_cases same : other = call
    · subst same
      exact planned plan plannedId ((move_phase_self s other phase).symm.trans is)
    · exact honest.planned other plan plannedId ((move_phase_of_ne s phase same).symm.trans is)
  pending := queue
  paired other entry is := by
    by_cases same : other = call
    · subst same
      exact paired entry ((congrArg Phase.entry (move_phase_self s other phase)).symm.trans is)
    · exact honest.paired other entry
        ((congrArg Phase.entry (move_phase_of_ne s phase same)).symm.trans is)

theorem honest_step {events : List (Event κ)} {s : State κ} {event : Event κ}
    (honest : Honest events s) (taken : event ∈ events) (kept : Kept pendingTtl s event) :
    Honest events (step pendingTtl s event).2 := by
  rcases step_cases pendingTtl s event with same |
    ⟨call, plan, plannedId, rfl, phase, same⟩ | ⟨call, now, plan, plannedId, rfl, phase, same⟩ |
    ⟨call, now, response, pairing, entry, rfl, phase, same, pairs⟩ |
    ⟨call, entry, pairing, response, outcomeId, rfl, phase, same⟩
  · rw [same]
    exact honest
  · rw [same]
    refine honest.move ?_ (fun _ is => by cases is) honest.pending
    intro plan' plannedId' is
    cases is
    exact taken
  · rw [same]
    refine honest.move (fun _ _ is => by cases is) (fun _ is => by cases is) ?_
    intro entry inside
    rcases List.mem_append.mp inside with inside | inside
    · exact honest.pending entry inside
    · rw [List.mem_singleton.mp inside]
      exact honest.planned call plan plannedId phase
  · rw [same]
    refine honest.move (fun _ _ is => by cases is) ?_ nofun
    intro e is
    change entry = some e at is
    rcases pairs with ⟨rfl, -⟩ | ⟨e', rfl, single⟩
    · cases is
    · cases is
      refine ⟨?_, honest.pending e (mem_of_single single)⟩
      -- the only call that waits is the response's own
      rcases kept with ⟨own, inside, belongs⟩ | several
      · rw [single] at inside
        rw [← List.mem_singleton.mp inside]
        exact belongs
      · exact absurd (by rw [single]; rfl) several
  · rw [same]
    refine honest.move (fun _ _ is => by cases is) ?_ honest.pending
    intro e is
    apply honest.paired call e
    rw [phase]
    exact is

theorem honest_after {events taken : List (Event κ)} {s : State κ} (honest : Honest events s)
    (inside : ∀ event ∈ taken, event ∈ events)
    (kept : Machine.Guarded (step pendingTtl) (Kept pendingTtl) s taken) :
    Honest events (Machine.after (step pendingTtl) s taken) := by
  induction taken generalizing s with
  | nil => exact honest
  | cons event taken ih =>
      exact ih (honest_step honest (inside event List.mem_cons_self) kept.1)
        (fun other later => inside other (List.mem_cons_of_mem event later)) kept.2

/-! ## Every entry is paired once -/

/-- Calls in the queue have joined it once, and a paired call has left it and is
paired with one response. -/
structure Once (s : State κ) : Prop where
  distinct : (s.pending.map Pending.call).Nodup
  joined : ∀ entry ∈ s.pending, (s.phase entry.call).joined = true
  left : ∀ call entry, (s.phase call).entry = some entry →
    (s.phase entry.call).joined = true ∧ ∀ other ∈ s.pending, other.call ≠ entry.call
  single : ∀ call call' entry entry', (s.phase call).entry = some entry →
    (s.phase call').entry = some entry' → entry.call = entry'.call → call = call'

omit [DecidableEq κ] in
theorem once_start : Once (State.start : State κ) where
  distinct := List.nodup_nil
  joined _ inside := by cases inside
  left _ _ is := by cases is
  single _ _ _ _ is := by cases is

/-- A call that has joined stays joined when another, or itself, moves on. -/
theorem joined_move {s : State κ} {call other : κ} {phase : Phase κ}
    (keeps : (s.phase call).joined = true → phase.joined = true)
    (joined : (s.phase other).joined = true) : ((s.move call phase).phase other).joined = true := by
  by_cases same : other = call
  · subst same
    rw [move_phase_self]
    exact keeps joined
  · rw [move_phase_of_ne s phase same]
    exact joined

/-- An entry a call is paired with after it moved on is new or was there. -/
theorem entry_move {s : State κ} {call other : κ} {phase : Phase κ} {entry : Pending κ}
    (is : ((s.move call phase).phase other).entry = some entry) :
    (other = call ∧ phase.entry = some entry) ∨ (s.phase other).entry = some entry := by
  by_cases same : other = call
  · subst same
    rw [move_phase_self] at is
    exact Or.inl ⟨rfl, is⟩
  · rw [move_phase_of_ne s phase same] at is
    exact Or.inr is

/-- A call may move on without touching the queue when its entry stays. -/
theorem Once.move {s : State κ} (once : Once s) {call : κ} {phase : Phase κ}
    (keeps : (s.phase call).joined = true → phase.joined = true)
    (stays : ∀ entry, phase.entry = some entry → (s.phase call).entry = some entry) :
    Once (s.move call phase) := by
  have was : ∀ other entry, ((s.move call phase).phase other).entry = some entry →
      (s.phase other).entry = some entry := by
    intro other entry is
    rcases entry_move is with ⟨same, new⟩ | old
    · rw [same]
      exact stays entry new
    · exact old
  refine ⟨once.distinct, fun entry inside => joined_move keeps (once.joined entry inside), ?_, ?_⟩
  · intro other entry is
    rcases once.left other entry (was other entry is) with ⟨joined, gone⟩
    exact ⟨joined_move keeps joined, gone⟩
  · intro first second entry entry' is is'
    exact once.single first second entry entry' (was _ _ is) (was _ _ is')

/-- A planned call joins the queue. -/
theorem Once.append {s : State κ} (once : Once s) (entry : Pending κ)
    (apart : (s.phase entry.call).joined = false) :
    Once { s.move entry.call .waiting with pending := s.pending ++ [entry] } := by
  have other : ∀ x : κ, (s.phase x).joined = true → x ≠ entry.call := by
    rintro x joined rfl
    rw [apart] at joined
    cases joined
  have waits : Once (s.move entry.call .waiting) :=
    once.move (fun _ => rfl) (fun _ is => by cases is)
  refine ⟨?_, ?_, ?_, waits.single⟩
  · rw [List.map_append, List.map_singleton]
    refine List.Nodup.append once.distinct (List.nodup_singleton _) ?_
    intro x inside single
    rcases List.mem_map.mp inside with ⟨old, member, rfl⟩
    exact other old.call (once.joined old member) (List.mem_singleton.mp single)
  · intro old inside
    rcases List.mem_append.mp inside with inside | inside
    · exact waits.joined old inside
    · rw [List.mem_singleton.mp inside]
      exact congrArg Phase.joined (move_phase_self s entry.call .waiting)
  · intro call paired is
    rcases waits.left call paired is with ⟨joined, gone⟩
    refine ⟨joined, fun old inside => ?_⟩
    rcases List.mem_append.mp inside with inside | inside
    · exact gone old inside
    · rw [List.mem_singleton.mp inside]
      rcases entry_move is with ⟨-, is⟩ | is
      · cases is
      · exact (other paired.call (once.left call paired is).1).symm

/-- A response empties the queue and takes at most one entry of it. -/
theorem Once.resolve {s : State κ} (once : Once s) {call : κ} {entry : Option (Pending κ)}
    {pairing : Pairing} {response : Response} (taken : ∀ e, entry = some e → e ∈ s.pending) :
    Once { s.move call (.resolved entry pairing response) with pending := [] } := by
  have paired : ∀ x e, ((s.move call (.resolved entry pairing response)).phase x).entry = some e →
      (x = call ∧ e ∈ s.pending) ∨ (s.phase x).entry = some e := by
    intro x e is
    rcases entry_move is with ⟨same, is⟩ | is
    · exact Or.inl ⟨same, taken e is⟩
    · exact Or.inr is
  refine ⟨List.nodup_nil, nofun, fun x e is => ⟨?_, nofun⟩, ?_⟩
  · apply joined_move (fun _ => rfl)
    rcases paired x e is with ⟨-, inside⟩ | is
    · exact once.joined e inside
    · exact (once.left x e is).1
  · intro first second e e' is is' same
    rcases paired first e is with ⟨rfl, inside⟩ | was
    · rcases paired second e' is' with ⟨rfl, -⟩ | was'
      · rfl
      · exact absurd same ((once.left second e' was').2 e inside)
    · rcases paired second e' is' with ⟨rfl, inside'⟩ | was'
      · exact absurd same.symm ((once.left first e was).2 e' inside')
      · exact once.single first second e e' was was' same

theorem once_step {s : State κ} (once : Once s) (event : Event κ) :
    Once (step pendingTtl s event).2 := by
  rcases step_cases pendingTtl s event with same |
    ⟨call, plan, plannedId, rfl, phase, same⟩ | ⟨call, now, plan, plannedId, rfl, phase, same⟩ |
    ⟨call, now, response, pairing, entry, rfl, phase, same, pairs⟩ |
    ⟨call, entry, pairing, response, outcomeId, rfl, phase, same⟩
  · rw [same]
    exact once
  · rw [same]
    refine once.move (fun joined => ?_) (fun _ is => by cases is)
    rw [phase] at joined
    cases joined
  · rw [same]
    exact once.append ⟨call, plannedId, plan, now⟩ (congrArg Phase.joined phase)
  · rw [same]
    refine once.resolve fun e is => ?_
    rcases pairs with ⟨rfl, -⟩ | ⟨e', rfl, single⟩
    · cases is
    · cases is
      exact mem_of_single single
  · rw [same]
    refine once.move (fun _ => rfl) (fun e is => ?_)
    rw [phase]
    exact is

/-! ## Calls one after another -/

/-- A round trip with nothing in between. -/
structure Round (κ : Type) where
  call : κ
  plan : Plan
  plannedId : Option String
  asked : Int
  answered : Int
  response : Response
  outcomeId : Option String

def Round.events (round : Round κ) : List (Event κ) :=
  [.sealPlan round.call round.plan round.plannedId, .append round.call round.asked,
    .resolve round.call round.answered round.response, .sealOutcome round.call round.outcomeId]

/-- The entry of a round trip while it waits. -/
def Round.entry (round : Round κ) : Pending κ :=
  ⟨round.call, round.plannedId, round.plan, round.asked⟩

/-- What a round trip records: its outcome is chained to its own plan. -/
def Round.record (round : Round κ) : Phase κ :=
  .done (some round.entry) (outcome (some round.entry) .paired round.response) round.outcomeId

/-- A round trip over an empty queue that is answered in time is paired. -/
theorem after_round {s : State κ} {round : Round κ} (empty : s.pending = [])
    (new : s.phase round.call = .idle) (inTime : round.answered - round.asked ≤ pendingTtl) :
    Machine.after (step pendingTtl) s round.events = s.move round.call round.record := by
  have fresh : expirePending pendingTtl round.answered [round.entry] = [round.entry] := by
    have current : ¬ pendingTtl < round.answered - round.entry.at' := Int.not_lt.mpr inTime
    simp [expirePending, current]
  have paired : resolve pendingTtl round.answered [round.entry] =
      (some round.entry, .paired, []) := by
    rw [resolve, fresh]
  have entry : (⟨round.call, round.plannedId, round.plan, round.asked⟩ : Pending κ) =
      round.entry := rfl
  simp only [Round.events, Machine.after_cons, Machine.after_nil, step, new, State.move,
    Function.update_self, empty, List.nil_append, entry, paired, Function.update_idem]
  rw [← empty]
  rfl

/-- Round trips taken one after another, each answered in time, all record what
they should, and no other call is touched. -/
theorem after_rounds {s : State κ} {rounds : List (Round κ)} (empty : s.pending = [])
    (new : ∀ round ∈ rounds, s.phase round.call = .idle)
    (distinct : (rounds.map Round.call).Nodup)
    (inTime : ∀ round ∈ rounds, round.answered - round.asked ≤ pendingTtl) :
    (∀ round ∈ rounds, (Machine.after (step pendingTtl) s
      (rounds.flatMap Round.events)).phase round.call = round.record) ∧
    ∀ call, (∀ round ∈ rounds, round.call ≠ call) → (Machine.after (step pendingTtl) s
      (rounds.flatMap Round.events)).phase call = s.phase call := by
  induction rounds generalizing s with
  | nil => exact ⟨nofun, fun _ _ => rfl⟩
  | cons round rounds ih =>
      rw [List.map_cons, List.nodup_cons] at distinct
      have apart : ∀ other ∈ rounds, other.call ≠ round.call :=
        fun other inside same => distinct.1 (same ▸ List.mem_map_of_mem inside)
      have first := after_round empty (new round List.mem_cons_self)
        (inTime round List.mem_cons_self)
      have idle : ∀ other ∈ rounds, (s.move round.call round.record).phase other.call = .idle := by
        intro other inside
        rw [move_phase_of_ne s _ (apart other inside)]
        exact new other (List.mem_cons_of_mem round inside)
      have later : ∀ other ∈ rounds, other.answered - other.asked ≤ pendingTtl :=
        fun other inside => inTime other (List.mem_cons_of_mem round inside)
      have queue : (s.move round.call round.record).pending = [] := empty
      rcases ih queue idle distinct.2 later with ⟨records, frame⟩
      rw [List.flatMap_cons, Machine.after_append, first]
      constructor
      · intro other inside
        rcases List.mem_cons.mp inside with rfl | inside
        · rw [frame other.call apart, move_phase_self]
        · exact records other inside
      · intro call others
        rw [frame call (fun other inside => others other (List.mem_cons_of_mem round inside))]
        exact move_phase_of_ne s _ (others round List.mem_cons_self).symm

/-! ## The pairing -/

/-- In every interleaving in which no response meets a single foreign call after
its own entry was dropped or cleared, every chain leads to the plan of the same
call.  In every interleaving at all, no plan is chained to twice; and calls
taken one after another, each answered in time, are chained to their plans. -/
theorem pairing_never_guesses {events : List (Event κ)}
    (kept : Machine.Guarded (step pendingTtl) (Kept pendingTtl) State.start events) :
    Truthful events (Machine.after (step pendingTtl) State.start events) ∧
    (∀ events, Unshared (Machine.after (step pendingTtl) (State.start : State κ) events)) ∧
    ∀ rounds : List (Round κ), (rounds.map Round.call).Nodup →
      (∀ round ∈ rounds, round.answered - round.asked ≤ pendingTtl) →
      ∀ round ∈ rounds, ∀ plannedId outcomeId, round.plannedId = some plannedId →
        round.outcomeId = some outcomeId →
          Chained (Machine.after (step pendingTtl) State.start (rounds.flatMap Round.events))
            round.call round.entry := by
  refine ⟨?_, ?_, ?_⟩
  · intro call entry chained
    have honest := honest_after (honest_start events) (fun _ inside => inside) kept
    have paired := honest.paired call entry chained.entry_eq
    exact ⟨paired.1, paired.1 ▸ paired.2⟩
  · intro events call call' entry entry' chained chained' same
    have keep : ∀ s event, Once s → Once (step pendingTtl s event).2 :=
      fun (_ : State κ) event once => once_step once event
    have once := Machine.invariant keep once_start events
    exact once.single call call' entry entry' chained.entry_eq chained'.entry_eq same
  · intro rounds distinct inTime round inside plannedId outcomeId sealed recorded
    have new : ∀ round ∈ rounds, (State.start : State κ).phase round.call = .idle :=
      fun _ _ => rfl
    have phase := (after_rounds rfl new distinct inTime).1 round inside
    refine ⟨outcome (some round.entry) .paired round.response, outcomeId, plannedId, ?_, sealed⟩
    rw [phase, Round.record, recorded]

/-! ## A late response -/

def someCall (name : String) : Plan := ⟨name, .object [], .object [], []⟩

def someResponse : Response := ⟨[], [], .object []⟩

/-- The second call is planned once the entry of the first is overdue, and the
first response arrives before the second. -/
def overtaken : List (Event Nat) :=
  [.sealPlan 1 (someCall "first") (some "p1"), .append 1 0,
    .sealPlan 2 (someCall "second") (some "p2"), .append 2 130, .resolve 1 131 someResponse,
    .sealOutcome 1 (some "o1")]

theorem overtaken_untrue :
    ¬ Truthful overtaken (Machine.after (step 120) State.start overtaken) := by
  intro truthful
  have chained : Chained (Machine.after (step 120) State.start overtaken) 1
      ⟨2, some "p2", someCall "second", 130⟩ := ⟨_, "o1", "p2", rfl, rfl⟩
  exact absurd (truthful 1 _ chained).1 (by decide)

/-- One call, answered in time. -/
def prompt : List (Event Nat) :=
  [.sealPlan 1 (someCall "first") (some "p1"), .append 1 0, .resolve 1 1 someResponse,
    .sealOutcome 1 (some "o1")]

theorem prompt_true : Truthful prompt (Machine.after (step 120) State.start prompt) := by
  have kept : Machine.Guarded (step 120) (Kept 120) State.start prompt :=
    ⟨trivial, trivial, Or.inl ⟨_, List.mem_singleton_self _, rfl⟩, trivial, trivial⟩
  exact (pairing_never_guesses kept).1

end Gateway
end CapsuleEmit
