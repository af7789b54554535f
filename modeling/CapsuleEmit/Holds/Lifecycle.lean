import CapsuleEmit.Holds.Interleaving

namespace CapsuleEmit
namespace Holds

/-!
# The life of a hold

A hold is closed once.  In every interleaving at most one accepted record
closes a given record, and a closed hold keeps its status.  What the engine
does not see to is that the closed record is a reservation: it is one in every
run whose lifecycle calls cite accepted reservations, or ids that are not in
the ledger.
-/

variable {packages : Packages} {engine : HoldEngine} {records : List Capsule}

/-- An accepted record with a terminal verb. -/
def Capsule.isTerminal (c : Capsule) : Bool :=
  c.disposition.decision = accept && (terminalStatus c.verb).isSome

/-- A status that closes a hold. -/
def HoldStatus.isClosed : HoldStatus → Bool
  | .released => true
  | .expired => true
  | .reconciled => true
  | _ => false

/-- Every accepted terminal record names an accepted reservation that was
active when it was appended, and no reservation has two of them. -/
structure Lifecycle (packages : Packages) (records : List Capsule) : Prop where
  cites : ∀ front c back, records = front ++ c :: back → c.isTerminal = true →
    ∃ p ∈ front, p.isReserve = true ∧ c.chain = some ⟨p.capsuleId, supersedes⟩ ∧
      (holdStatus packages front p.capsuleId).1 = .active
  once : ∀ r ∈ records, r.isReserve = true →
    (records.filter (fun c => c.isTerminal &&
      c.chain.any (fun chain => chain.parentCapsuleId = r.capsuleId))).length ≤ 1

/-- A lifecycle call cites an id that is not in the ledger, or an accepted
reservation. -/
def CitesReserve (state : Shared) : Event → Prop
  | .call _ _ request => ∀ p, request.cited.bind (byId state.log) = some p → p.isReserve = true
  | _ => True

/-! ## Closed holds -/

/-- A terminal record that a ledger justifies closes an active record of it. -/
theorem Justified.of_isTerminal {c : Capsule} (justified : Justified packages records c)
    (terminal : c.isTerminal = true) :
    ∃ p ∈ records, c.closed = some p.capsuleId ∧
      c.chain = some ⟨p.capsuleId, supersedes⟩ ∧
      (holdStatus packages records p.capsuleId).1 = .active := by
  simp only [Capsule.isTerminal, Bool.and_eq_true, decide_eq_true_eq] at terminal
  cases justified with
  | reserve opened =>
      simp only [Capsule.isReserve, Bool.and_eq_true] at opened
      rw [Capsule.verb, verbOf_of_startsWith (by decide) opened.2] at terminal
      exact absurd terminal.2 (by decide)
  | refusal refused =>
      rw [refused.rejected] at terminal
      exact absurd terminal.1 (by decide)
  | closing p member closed active =>
      have closing := closes_iff.mpr closed
      simp only [closes, Bool.and_eq_true, decide_eq_true_eq] at closing
      exact ⟨p, member, closed, closing.1, active⟩

theorem Sound.of_isTerminal (sound : Sound packages records) {c : Capsule} (member : c ∈ records)
    (terminal : c.isTerminal = true) :
    ∃ id, c.closed = some id ∧ c.chain = some ⟨id, supersedes⟩ := by
  obtain ⟨front, back, split⟩ := List.append_of_mem member
  obtain ⟨p, _, closed, chain, _⟩ := (sound.of_split split).2.1.of_isTerminal terminal
  exact ⟨p.capsuleId, closed, chain⟩

/-- No two accepted terminal records name the same record. -/
theorem Sound.terminal_once (sound : Sound packages records) (id : String) :
    (records.filter (fun c => c.isTerminal &&
      c.chain.any (fun chain => chain.parentCapsuleId = id))).length ≤ 1 := by
  have ids : ∀ c ∈ records.filter (fun c => c.isTerminal &&
      c.chain.any (fun chain => chain.parentCapsuleId = id)), c.closed = some id := by
    intro c member
    obtain ⟨member, named⟩ := List.mem_filter.mp member
    simp only [Bool.and_eq_true] at named
    obtain ⟨other, closed, chain⟩ := sound.of_isTerminal member named.1
    rw [chain] at named
    rw [closed, ← show other = id by simpa using named.2]
  generalize kept : records.filter (fun c => c.isTerminal &&
    c.chain.any (fun chain => chain.parentCapsuleId = id)) = named at ids ⊢
  have part : named.Sublist records := kept ▸ List.filter_sublist
  have nodup := sound.closed_nodup.sublist (part.filterMap Capsule.closed)
  have same : named.filterMap Capsule.closed = List.replicate named.length id := by
    rw [List.filterMap_congr ids, List.filterMap_eq_map' (f := fun _ => id), List.map_const']
  rw [same, List.nodup_replicate] at nodup
  exact nodup

/-- A ledger only grows. -/
theorem log_prefix (packages : Packages) (engine : HoldEngine) (state : Shared) (events : List Event) :
    state.log <+: (Machine.after (interleave packages engine) state events).log := by
  have keep : ∀ (state' : Shared) event, state.log <+: state'.log →
      state.log <+: (interleave packages engine state' event).2.log := by
    intro state' event grown
    have written : ∀ c, state'.log <+: (protocol packages engine).written state'.log c := by
      intro c
      simp only [Sections.Protocol.written, protocol]
      cases outcome : appendToLedger state'.log c with
      | error e => exact List.prefix_rfl
      | ok log =>
          rcases appendToLedger_cases outcome with same | ⟨same, _⟩
          · simp [Except.toOption, same]
          · simp [Except.toOption, same]
    refine grown.trans ?_
    simp only [interleave]
    split
    · exact List.prefix_rfl
    · next effect _ =>
        cases effect with
        | enter t sec => simp only [Sections.Protocol.step]; split <;> exact List.prefix_rfl
        | post c => exact written c
        | acquire t =>
            simp only [Sections.Protocol.step]
            split
            · split <;> exact List.prefix_rfl
            · exact List.prefix_rfl
        | read t => simp only [Sections.Protocol.step]; split <;> exact List.prefix_rfl
        | write t =>
            simp only [Sections.Protocol.step]
            split
            · exact written _
            · exact List.prefix_rfl
  exact Machine.invariant keep List.prefix_rfl events

/-- A closed hold keeps its status in every longer sound ledger. -/
theorem Sound.holdStatus_append {more : List Capsule} (sound : Sound packages (records ++ more))
    {id : String} (closed : (holdStatus packages records id).1.isClosed = true) :
    holdStatus packages (records ++ more) id = holdStatus packages records id := by
  rw [holdStatus] at closed ⊢
  cases found : byId records id with
  | none => simp [found, HoldStatus.isClosed] at closed
  | some r =>
      obtain ⟨member, same⟩ := byId_mem found
      have later : byId (records ++ more) id = some r := by
        rw [← same]
        exact sound.byId_of_mem (List.mem_append_left _ member)
      rw [holdStatus, found, later]
      cases closing : records.find? (closes id) with
      | none =>
          exfalso
          rw [found] at closed
          simp only [closing] at closed
          split at closed <;> simp [HoldStatus.isClosed] at closed
      | some t => rw [List.find?_append, closing, Option.some_or]

/-! ## Runs -/

/-- The sections a run enters when its calls cite reservations. -/
def OnReserve (sec : Section) : Prop := ∀ p, sec.cited = some p → p.isReserve = true

theorem admits_of_citesReserve {state : Shared} {event : Event}
    (cites : CitesReserve state event) : Admits packages OnReserve state event := by
  cases event with
  | call t env request =>
      intro sec entered p cited
      exact cites p (enter_cited ⟨fun _ => none, fun _ => none⟩ entered cited).1
  | acquire t => trivial
  | read t => trivial
  | append t => trivial

/-- A traced ledger of sections on reservations has the lifecycle of holds. -/
theorem Traced.lifecycle (traced : Traced packages engine OnReserve records) :
    Lifecycle packages records where
  cites := by
    intro front c back split terminal
    obtain ⟨_, justified, _⟩ := traced.1.of_split split
    obtain ⟨p, member, closed, chain, active⟩ := justified.of_isTerminal terminal
    refine ⟨p, member, ?_, chain, active⟩
    have inside : p ∈ records := split ▸ List.mem_append_left _ member
    rcases traced.2 c (by rw [split]; simp) with refused | ⟨sec, before, onReserve, fits, same⟩
    · rw [refused.apart] at closed
      exact absurd closed (by simp)
    · rw [same] at closed
      obtain ⟨p', cites, id, _⟩ := closed_decide closed
      rw [traced.1.eq_of_id inside (fits p' cites) id]
      exact onReserve p' cites
  once := fun r _ _ => traced.1.terminal_once r.capsuleId

/-- In every run whose lifecycle calls cite reservations or absent ids, holds
have their lifecycle, and a closed hold keeps its status. -/
theorem lifecycle_of_guarded {events : List Event}
    (guarded : Machine.Guarded (interleave packages engine) CitesReserve (started []) events) :
    Lifecycle packages (ledgerAfter packages engine events) ∧
      ∀ front back id, events = front ++ back →
        (holdStatus packages (ledgerAfter packages engine front) id).1.isClosed = true →
          holdStatus packages (ledgerAfter packages engine events) id =
            holdStatus packages (ledgerAfter packages engine front) id := by
  have good := good_of_admits (guarded.mono fun _ _ => admits_of_citesReserve)
  refine ⟨good.inv.lifecycle, fun front back id split closed => ?_⟩
  obtain ⟨more, grown⟩ := log_prefix packages engine
    (Machine.after (interleave packages engine) (started []) front) back
  rw [← Machine.after_append, ← split] at grown
  have sound := good.inv.1
  rw [← grown] at sound
  rw [ledgerAfter, ledgerAfter, ← grown]
  exact sound.holdStatus_append closed

theorem citesReserve_transfers :
    Machine.Guarded (interleave digestPackages transfers) CitesReserve (started [])
      ([reserveHundred, convertForty].flatMap uninterrupted) := by
  refine guarded_sequential (fun _ _ => ⟨trivial, trivial, trivial⟩) ⟨?_, ?_, trivial⟩
  · exact fun p cited => absurd cited (by simp [reserveHundred, Call.cited])
  · rw [step_reserveHundred]
    exact fun p cited => reserve_of_convertForty cited

theorem lifecycle_of_guarded_transfers :
    Machine.Guarded (interleave digestPackages transfers) CitesReserve (started [])
      ([reserveHundred, convertForty].flatMap uninterrupted) ∧
    Lifecycle digestPackages (ledgerAfter digestPackages transfers
      ([reserveHundred, convertForty].flatMap uninterrupted)) :=
  ⟨citesReserve_transfers, (lifecycle_of_guarded citesReserve_transfers).1⟩

/-- A release that cites the record of a conversion records an accepted
terminal capsule that names no reservation. -/
theorem not_lifecycle_transfers :
    ¬ Lifecycle digestPackages (ledgerAfter digestPackages transfers
      ([reserveHundred, convertForty, releaseConversion].flatMap uninterrupted)) := by
  rw [ledgerAfter_sequential, after_transfers]
  intro life
  obtain ⟨p, member, opened, chain, _⟩ :=
    life.cites [reservation, conversion] strayRelease [] rfl (by decide +kernel)
  rcases List.mem_cons.mp member with same | member
  · subst same
    exact absurd chain (by decide +kernel)
  · rw [List.mem_singleton.mp member] at opened
    exact absurd opened (by decide +kernel)

end Holds
end CapsuleEmit
