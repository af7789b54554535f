import CapsuleEmit.Foundation.Sections
import CapsuleEmit.Holds.Conservation

namespace CapsuleEmit
namespace Holds

/-!
# Interleaved calls

Calls of several threads share one engine and one ledger.  A lifecycle call
reads the ledger once before it takes a lock, to find the record it cites; the
section then takes the lock of its scope, reads the ledger again, decides, and
appends.  Nothing orders sections of different scopes.

Whatever the order, the ledger stays sound: the record of a hold is immutable,
so every call on it uses the same lock, and a class-scoped exposure is moved
only by sections under the lock of that class.
-/

open Sections

variable (packages : Packages) (engine : HoldEngine)

/-- The sections of an engine under their scope locks. -/
def protocol : Protocol Section ScopeKey Decided Capsule where
  key := Section.scope
  plan := fun sec records => sec.decide packages engine records
  entry := Prod.fst
  write := fun records c => (appendToLedger records c).toOption

abbrev Shared := Sections.State Section ScopeKey Decided Capsule

/-- What a thread does next: start a call, or go on with the one it is in. -/
inductive Event where
  | call (t : Nat) (env : Env) (request : Call)
  | acquire (t : Nat)
  | read (t : Nat)
  | append (t : Nat)

/-- What an event does to the shared state.  A call that answers at once and a
call on a busy thread do nothing to it. -/
def Event.effect (state : Shared) : Holds.Event → Option (Sections.Event Section Capsule)
  | .call t env request =>
      match state.thread t with
      | .idle =>
          match request.outset packages env state.log with
          | .answer _ => none
          | .post decided => some (.post decided.1)
          | .enter sec => some (.enter t sec)
      | _ => none
  | .acquire t => some (.acquire t)
  | .read t => some (.read t)
  | .append t => some (.write t)

/-- The answer an event gives to the caller of its thread. -/
def Event.answer (state : Shared) : Holds.Event → Option (Except LedgerError HoldDecision)
  | .call t env request =>
      match state.thread t with
      | .idle =>
          match request.outset packages env state.log with
          | .answer decision => some (.ok decision)
          | .post decided => some (record state.log decided).1
          | .enter _ => none
      | _ => none
  | .append t =>
      match state.thread t with
      | .ready _ decided => some (record state.log decided).1
      | _ => none
  | _ => none

/-- The engine and its threads as a machine. -/
def interleave (state : Shared) (event : Holds.Event) :
    Option (Except LedgerError HoldDecision) × Shared :=
  (event.answer packages state,
    match event.effect packages state with
    | none => state
    | some effect => (protocol packages engine).step state effect)

variable {packages engine}

/-! ## Uninterrupted calls -/

theorem written_eq (packages : Packages) (engine : HoldEngine) (records : List Capsule)
    (decided : Decided) :
    (protocol packages engine).written records decided.1 = (record records decided).2 := by
  simp only [Protocol.written, protocol, record]
  cases appendToLedger records decided.1 <;> rfl

/-- A call whose events follow each other is the sequential call. -/
theorem after_uninterrupted (state : Shared) {t : Nat} (idle : state.thread t = .idle)
    (free : ∀ key, state.owner key = none) (env : Env) (call : Call) :
    Machine.after (interleave packages engine) state
        [.call t env call, .acquire t, .read t, .append t] =
      { state with log := (call.run packages engine env state.log).2 } := by
  cases begun : call.outset packages env state.log with
  | answer decision =>
      simp [Machine.after, interleave, Event.effect, idle, begun, Protocol.step, Call.run]
  | post decided =>
      simp [Machine.after, interleave, Event.effect, idle, begun, Protocol.step, Call.run,
        written_eq]
  | enter sec =>
      have same : Function.update state.thread t .idle = state.thread := by
        rw [← idle, Function.update_eq_self]
      have freed : Function.update state.owner ((protocol packages engine).key sec) none =
          state.owner := by
        rw [← free ((protocol packages engine).key sec), Function.update_eq_self]
      simp only [Machine.after, interleave, Event.effect, idle, begun, Protocol.step,
        Function.update_self, free, Function.update_idem, same, freed, Call.run]
      exact congrArg (fun log => { state with log := log }) (written_eq _ _ _ _)

/-! ## Exposures of a longer ledger -/

variable {records : List Capsule}

/-- A record keeps its class when the ledger grows. -/
theorem Sound.recordActionClass_concat (sound : Sound packages records) {c r : Capsule}
    (fresh : ∀ r ∈ records, r.capsuleId ≠ c.capsuleId) (member : r ∈ records)
    (hold : r.isHold = true) :
    recordActionClass (records ++ [c]) r = recordActionClass records r := by
  rcases sound.of_isHold member hold with ⟨opened, _⟩ | ⟨_, id, closed⟩
  · rw [recordActionClass_of_isReserve opened, recordActionClass_of_isReserve opened]
  · obtain ⟨_, _, _, p, cited, same, _⟩ := sound.of_closed member closed
    have parent : r.chain = some ⟨p.capsuleId, supersedes⟩ := by
      have closing := closes_iff.mpr closed
      simp only [closes, Bool.and_eq_true, decide_eq_true_eq] at closing
      rw [closing.1, same]
    rw [recordActionClass, recordActionClass, parent, Option.bind_some, Option.bind_some,
      reserveActionClassById_concat_of_ne (fresh p cited).symm]

/-- An exposure grows by the amount of a new record that counts for it. -/
theorem Sound.activeExposureMinor_concat (sound : Sound packages records) {c : Capsule}
    (fresh : ∀ r ∈ records, r.capsuleId ≠ c.capsuleId) (subject : String)
    (actionClass : Option String) :
    activeExposureMinor (records ++ [c]) subject actionClass =
      activeExposureMinor records subject actionClass +
        if counts (records ++ [c]) subject actionClass c then c.amount else 0 := by
  have old : records.filter (counts (records ++ [c]) subject actionClass) =
      records.filter (counts records subject actionClass) := by
    refine List.filter_congr (fun r member => ?_)
    by_cases hold : r.isHold = true
    · exact counts_congr (sound.recordActionClass_concat fresh member hold) _ _
    · simp [counts, hold]
  rw [activeExposureMinor, List.filter_append, Settlement.total_append, old, activeExposureMinor]
  cases counted : counts (records ++ [c]) subject actionClass c with
  | true => simp [counted]
  | false => simp [counted]

/-! ## Plans and the appends of other scopes -/

theorem isReserve_closeLocked {p : Capsule} {closing : Closing} {reason : Option String}
    {env : Env} :
    (closeLocked packages env p closing reason records).1.isReserve = false := by
  simp only [closeLocked]
  split
  · cases closing <;>
      simp [Capsule.isReserve, buildHoldReleaseCapsule, buildHoldExpireCapsule,
        (newActionId_terminal env (show holdRelease ∈ terminalVerbs by decide)).2.2.2,
        (newActionId_terminal env (show holdExpire ∈ terminalVerbs by decide)).2.2.2]
  · exact (refused_denyTerminal _ _ _ _).isReserve_eq_false

theorem isReserve_reconcileLocked {p : Capsule} {executed : Int} {execution : Option String}
    {env : Env} :
    (reconcileLocked packages engine env p executed execution records).1.isReserve = false := by
  simp only [reconcileLocked]
  split
  · split
    · simp [Capsule.isReserve, buildHoldReconcileCapsule,
        (newActionId_terminal env (show holdReconcile ∈ terminalVerbs by decide)).2.2.2]
    · exact (refused_buildHoldDecisionCapsule _ _ _ _ _).isReserve_eq_false
  · exact (refused_denyTerminal _ _ _ _).isReserve_eq_false

/-- The scope a record counts in. -/
def Capsule.scopeKey (c : Capsule) : ScopeKey := (c.actionClass.getD "", c.developer)

/-- A reservation is decided under the lock of its own scope. -/
theorem scope_of_isReserve {sec : Section}
    (opened : (sec.decide packages engine records).1.isReserve = true) :
    sec.scope = (sec.decide packages engine records).1.scopeKey := by
  cases sec with
  | reserve env action =>
      simp only [Section.decide, evaluateAndReserveLocked] at opened ⊢
      split at opened
      · split at opened
        · simp [(refused_denied _ _ _ _).isReserve_eq_false] at opened
        · next within => rw [if_neg within]; rfl
      · rfl
  | close env p closing reason => simp [Section.decide, isReserve_closeLocked] at opened
  | reconcile env p executed execution => simp [Section.decide, isReserve_reconcileLocked] at opened

/-- A section on a record uses the lock of that record's scope. -/
theorem scope_of_cited {sec : Section} {p : Capsule} (cites : sec.cited = some p) :
    sec.scope = p.scopeKey := by
  cases sec with
  | reserve env action => exact absurd cites (by simp [Section.cited])
  | close env q closing reason => rw [← Option.some.inj cites]; rfl
  | reconcile env q executed execution => rw [← Option.some.inj cites]; rfl

/-- A plan that is as good as a fresh one: the ledger still justifies its
record, and the record belongs to the scope of the section. -/
structure Planned (packages : Packages) (sec : Section) (decided : Decided)
    (records : List Capsule) : Prop where
  justified : Justified packages records decided.1
  opens : decided.1.isReserve = true → sec.scope = decided.1.scopeKey
  closes : ∀ id, decided.1.closed = some id → ∃ p, sec.cited = some p ∧ id = p.capsuleId

theorem planned_decide {sec : Section} (fits : sec.Fits records) :
    Planned packages sec (sec.decide packages engine records) records where
  justified := justified_decide fits
  opens := scope_of_isReserve
  closes := fun _ closed =>
    let ⟨p, cites, same, _⟩ := closed_decide closed
    ⟨p, cites, same⟩

/-- A record that neither closes the same hold nor moves the exposure of the
reservation's class leaves a justified record justified. -/
theorem Justified.concat (sound : Sound packages records) {c d : Capsule}
    (justified : Justified packages records d) (fresh : ∀ r ∈ records, r.capsuleId ≠ c.capsuleId)
    (apart : ∀ id, d.closed = some id → c.closed ≠ some id)
    (still : d.isReserve = true → d.actionClass.isSome = true →
      counts (records ++ [c]) d.developer d.actionClass c = false) :
    Justified packages (records ++ [c]) d := by
  cases justified with
  | reserve opened alone amount cited capped =>
      have same : d.actionClass.isSome = true →
          activeExposureMinor (records ++ [c]) d.developer d.actionClass =
            activeExposureMinor records d.developer d.actionClass := by
        intro classed
        rw [sound.activeExposureMinor_concat fresh, still opened classed]
        simp
      refine .reserve opened alone amount (fun actionClass named => ?_) (fun cap limited => ?_)
      · rw [same (by simp [named])]
        exact cited actionClass named
      · obtain ⟨classed, within⟩ := capped cap limited
        exact ⟨classed, by rw [same classed]; exact within⟩
  | closing p member closed active hold other developer amount unexecuted scopeless =>
      refine .closing p (List.mem_append_left _ member) closed ?_ hold other developer amount
        unexecuted scopeless
      obtain ⟨⟨r, found, verified⟩, unclosed⟩ := holdStatus_active_iff.mp active
      refine holdStatus_active_iff.mpr ⟨⟨r, ?_, verified⟩, ?_⟩
      · rw [byId_concat_of_ne (fresh p member).symm]
        exact found
      · have open' : closes p.capsuleId c = false := by
          rw [Bool.eq_false_iff]
          exact fun closing => apart _ closed (closes_iff.mp closing)
        rw [List.find?_append, unclosed]
        simp [open']
  | refusal refused => exact .refusal refused

/-- What a section of another scope appends leaves a plan as good as fresh. -/
theorem Planned.write (sound : Sound packages records) {sec sec' : Section}
    {decided decided' : Decided} (other : sec'.scope ≠ sec.scope)
    (fits : sec.Fits records) (planned : Planned packages sec decided records)
    (fits' : sec'.Fits records) (planned' : Planned packages sec' decided' records)
    {records' : List Capsule} (appended : appendToLedger records decided.1 = .ok records') :
    Planned packages sec' decided' records' := by
  rcases appendToLedger_cases appended with same | ⟨same, named, fresh⟩
  · exact same ▸ planned'
  · subst same
    refine ⟨planned'.justified.concat sound fresh (fun id closed' closed => ?_)
      (fun opened classed => ?_), planned'.opens, planned'.closes⟩
    · obtain ⟨p, cites, same⟩ := planned.closes id closed
      obtain ⟨p', cites', same'⟩ := planned'.closes id closed'
      have equal : p = p' := sound.eq_of_id (fits p cites) (fits' p' cites') (same.symm.trans same')
      exact other (by rw [scope_of_cited cites, scope_of_cited cites', equal])
    · rw [Bool.eq_false_iff]
      intro counted
      obtain ⟨developer, hold, scope⟩ := counts_iff.mp counted
      have scope := scope.resolve_left (by simpa using Option.isSome_iff_ne_none.mp classed)
      have grown : Sound packages (records ++ [decided.1]) :=
        .concat sound planned.justified named fresh
      rcases grown.of_isHold (List.mem_append_right _ List.mem_cons_self) hold with
        ⟨opened', _⟩ | ⟨_, id, closed⟩
      · rw [recordActionClass_of_isReserve opened'] at scope
        refine other ?_
        rw [planned.opens opened', planned'.opens opened, Capsule.scopeKey, Capsule.scopeKey,
          scope, developer]
      · obtain ⟨p, cites, same⟩ := planned.closes id closed
        have inside : p ∈ records ++ [decided.1] := List.mem_append_left _ (fits p cites)
        rw [same] at closed
        have last : decided.1 ∈ records ++ [decided.1] :=
          List.mem_append_right _ List.mem_cons_self
        rw [grown.recordActionClass_eq last inside closed] at scope
        obtain ⟨_, _, _, q, cited, sameId, _, developer', _⟩ := grown.of_closed last closed
        rw [grown.eq_of_id cited inside sameId] at developer'
        refine other ?_
        rw [scope_of_cited cites, planned'.opens opened, Capsule.scopeKey, Capsule.scopeKey,
          scope, ← developer', developer]

/-- A refusal leaves every plan as good as fresh. -/
theorem Planned.post (sound : Sound packages records) {sec : Section} {decided : Decided}
    (planned : Planned packages sec decided records) {c : Capsule} (refused : Refused c)
    {records' : List Capsule} (appended : appendToLedger records c = .ok records') :
    Planned packages sec decided records' := by
  rcases appendToLedger_cases appended with same | ⟨same, named, fresh⟩
  · exact same ▸ planned
  · subst same
    refine ⟨planned.justified.concat sound fresh (fun id _ => by simp [refused.apart])
      (fun _ _ => by simp [counts, refused.isHold_eq_false]), planned.opens, planned.closes⟩

theorem Section.Fits.mono {sec : Section} (fits : sec.Fits records) {c : Capsule}
    {records' : List Capsule} (appended : appendToLedger records c = .ok records') :
    sec.Fits records' := by
  intro p cites
  rcases appendToLedger_cases appended with same | ⟨same, _, _⟩
  · exact same ▸ fits p cites
  · exact same ▸ List.mem_append_left _ (fits p cites)

/-! ## Where the records of a run come from -/

variable (packages engine)

/-- A record of a ledger that an admitted section decided, on a record of the
ledger if it needed one, or that refuses an attempt. -/
def Origin (admitted : Section → Prop) (records : List Capsule) (c : Capsule) : Prop :=
  Refused c ∨ ∃ sec before, admitted sec ∧ sec.Fits records ∧
    c = (sec.decide packages engine before).1

/-- A sound ledger in which every record has an origin. -/
def Traced (admitted : Section → Prop) (records : List Capsule) : Prop :=
  Sound packages records ∧ ∀ c ∈ records, Origin packages engine admitted records c

/-- A call on the state enters admitted sections only. -/
def Admits (admitted : Section → Prop) (state : Shared) : Holds.Event → Prop
  | .call _ env request => ∀ sec, request.outset packages env state.log = .enter sec →
      admitted sec
  | _ => True

/-- The effects that calls have: they enter sections with a record of the
ledger, and post refusals. -/
def Effect (admitted : Section → Prop) (state : Shared) :
    Sections.Event Section Capsule → Prop
  | .enter _ sec => sec.Fits state.log ∧ admitted sec
  | .post c => Refused c
  | _ => True

variable {packages engine}

theorem effect_of_admits {admitted : Section → Prop} {state : Shared} {event : Holds.Event}
    (admits : Admits packages admitted state event)
    {effect : Sections.Event Section Capsule} (does : event.effect packages state = some effect) :
    Effect admitted state effect := by
  cases event with
  | call t env request =>
      simp only [Event.effect] at does
      split at does
      · split at does
        · exact absurd does (by simp)
        · next posted => rw [← Option.some.inj does]; exact refused_post posted
        · next sec entered =>
            rw [← Option.some.inj does]
            exact ⟨fits_enter entered, admits sec entered⟩
      · exact absurd does (by simp)
  | acquire t => rw [← Option.some.inj does]; trivial
  | read t => rw [← Option.some.inj does]; trivial
  | append t => rw [← Option.some.inj does]; trivial

theorem Origin.mono {admitted : Section → Prop} {c d : Capsule}
    (origin : Origin packages engine admitted records d) {records' : List Capsule}
    (appended : appendToLedger records c = .ok records') :
    Origin packages engine admitted records' d := by
  rcases origin with refused | ⟨sec, before, ok, fits, same⟩
  · exact .inl refused
  · exact .inr ⟨sec, before, ok, fits.mono appended, same⟩

/-- Appending a justified record with an origin keeps a ledger traced. -/
theorem Traced.append {admitted : Section → Prop}
    (traced : Traced packages engine admitted records) {c : Capsule}
    (justified : Justified packages records c)
    (origin : Origin packages engine admitted records c) {records' : List Capsule}
    (appended : appendToLedger records c = .ok records') :
    Traced packages engine admitted records' := by
  refine ⟨traced.1.append justified appended, fun d member => ?_⟩
  rcases appendToLedger_cases appended with same | ⟨same, _, _⟩
  · exact (traced.2 d (same ▸ member)).mono appended
  · rw [same] at member
    rcases List.mem_append.mp member with member | last
    · exact (traced.2 d member).mono appended
    · rw [List.mem_singleton.mp last]
      exact origin.mono appended

theorem toOption_eq_some {c : Capsule} {records' : List Capsule}
    (written : (protocol packages engine).write records c = some records') :
    appendToLedger records c = .ok records' := by
  simp only [protocol] at written
  cases outcome : appendToLedger records c with
  | error e => rw [outcome] at written; exact absurd written (by simp [Except.toOption])
  | ok other => rw [outcome] at written; exact congrArg Except.ok (Option.some.inj written)

/-- The rule of plans, for a traced ledger. -/
theorem traced_rules (admitted : Section → Prop) :
    (protocol packages engine).Rules (Traced packages engine admitted)
      (fun sec records => sec.Fits records ∧ admitted sec)
      (fun sec decided records => Planned packages sec decided records ∧
        ∃ before, decided = sec.decide packages engine before)
      (Effect admitted) where
  enter := fun _ _ _ allowed => allowed
  plan := fun _ records _ fits => ⟨planned_decide fits.1, records, rfl⟩
  fits := fun _ _ _ _ written fits => ⟨fits.1.mono (toOption_eq_some written), fits.2⟩
  write_inv := fun sec _ _ _ traced fits valid written =>
    let ⟨planned, before, same⟩ := valid
    traced.append planned.justified (.inr ⟨sec, before, fits.2, fits.1, congrArg Prod.fst same⟩)
      (toOption_eq_some written)
  write_valid := fun _ _ _ _ _ _ _ _ _ other traced fits valid fits' valid' _ written =>
    ⟨valid.1.write traced.1 other fits.1 fits'.1 valid'.1 (toOption_eq_some written), valid'.2⟩
  post_inv := fun _ _ _ refused traced written =>
    traced.append (.refusal refused) (.inl refused) (toOption_eq_some written)
  post_valid := fun _ _ _ _ _ refused traced _ valid written =>
    ⟨valid.1.post traced.1 refused (toOption_eq_some written), valid.2⟩

/-- The state of an engine on a ledger with no call under way. -/
def started (records : List Capsule) : Shared := State.initial records

/-- The ledger after a run of threads on a new ledger. -/
def ledgerAfter (packages : Packages) (engine : HoldEngine) (events : List Holds.Event) :
    List Capsule :=
  (Machine.after (interleave packages engine) (started []) events).log

/-! ## Sequential calls as runs -/

/-- The events of a call of thread zero that nothing interrupts. -/
def uninterrupted (op : Operation) : List Holds.Event :=
  [.call 0 op.env op.call, .acquire 0, .read 0, .append 0]

theorem after_started (packages : Packages) (engine : HoldEngine) (records : List Capsule)
    (op : Operation) :
    Machine.after (interleave packages engine) (started records) (uninterrupted op) =
      started (step packages engine records op).2 :=
  after_uninterrupted (started records) rfl (fun _ => rfl) op.env op.call

/-- The sequential engine is the interleaved one, one call at a time. -/
theorem after_sequential (packages : Packages) (engine : HoldEngine) (records : List Capsule)
    (ops : List Operation) :
    Machine.after (interleave packages engine) (started records) (ops.flatMap uninterrupted) =
      started (Machine.after (step packages engine) records ops) := by
  induction ops generalizing records with
  | nil => rfl
  | cons op ops ih => rw [List.flatMap_cons, Machine.after_append, after_started, ih]; rfl

theorem ledgerAfter_sequential (packages : Packages) (engine : HoldEngine)
    (ops : List Operation) : ledgerAfter packages engine (ops.flatMap uninterrupted) =
      Machine.after (step packages engine) [] ops := by
  rw [ledgerAfter, after_sequential]
  rfl

/-- A condition on calls alone can be checked on the sequential engine. -/
theorem guarded_sequential {guard : Shared → Holds.Event → Prop}
    (others : ∀ state t, guard state (.acquire t) ∧ guard state (.read t) ∧
      guard state (.append t)) {records : List Capsule} {ops : List Operation}
    (calls : Machine.Guarded (step packages engine)
      (fun records op => guard (started records) (.call 0 op.env op.call)) records ops) :
    Machine.Guarded (interleave packages engine) guard (started records)
      (ops.flatMap uninterrupted) := by
  induction ops generalizing records with
  | nil => trivial
  | cons op ops ih =>
      rw [List.flatMap_cons, Machine.guarded_append, after_started]
      exact ⟨⟨calls.1, (others _ 0).1, (others _ 0).2.1, (others _ 0).2.2, trivial⟩, ih calls.2⟩

/-! ## Runs of admitted sections -/

/-- Every run whose calls enter admitted sections leaves a traced ledger, with
the locks exclusive and every plan as good as fresh. -/
theorem good_of_admits {admitted : Section → Prop} {events : List Holds.Event}
    (guarded : Machine.Guarded (interleave packages engine) (Admits packages admitted)
      (started []) events) :
    (protocol packages engine).Good (Traced packages engine admitted)
      (fun sec records => sec.Fits records ∧ admitted sec)
      (fun sec decided records => Planned packages sec decided records ∧
        ∃ before, decided = sec.decide packages engine before)
      (Machine.after (interleave packages engine) (started []) events) := by
  refine Machine.invariant_of_guarded (fun state event good admits => ?_)
    (Protocol.good_initial ⟨Sound.nil, by simp⟩) guarded
  simp only [interleave]
  split
  · exact good
  · next effect does =>
      exact Protocol.good_step (traced_rules admitted) good (effect_of_admits admits does)

end Holds
end CapsuleEmit
