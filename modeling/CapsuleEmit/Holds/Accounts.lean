import CapsuleEmit.Holds.Engine
import Mathlib.Algebra.Ring.Int.Defs

namespace CapsuleEmit
namespace Holds

/-!
# Accounts of a ledger of holds

A record is justified by a ledger when it opens a hold with what the ledger
says then, when it closes a hold that is active there, or when it refuses.
A ledger is sound when every record is justified by the records before it.
In a sound ledger each exposure is the sum of what the holds of the scope are
worth, and of the records that close something other than an accepted
reservation.  Those strays have no class, so they show only in the exposure
over all classes of a developer.
-/

open Settlement

variable (packages : Packages)

/-! ## Sound ledgers -/

/-- The id of the hold a record closes. -/
def Capsule.closed (c : Capsule) : Option String :=
  match c.chain with
  | some chain =>
      if chain.relation = supersedes ∧ (terminalStatus c.verb).isSome then
        some chain.parentCapsuleId
      else none
  | none => none

theorem closes_iff {id : String} {c : Capsule} : closes id c = true ↔ c.closed = some id := by
  obtain ⟨⟨_, _, _, _, _, _, chain, _, _⟩, _⟩ := c
  cases chain with
  | none => simp [closes, Capsule.closed]
  | some chain =>
      obtain ⟨parent, relation⟩ := chain
      by_cases same : relation = supersedes
      · simp only [closes, Capsule.closed, same, Option.some.injEq, Chain.mk.injEq, and_true,
          Bool.and_eq_true, decide_eq_true_eq, true_and]
        split <;> simp_all
      · simp [closes, Capsule.closed, same]

theorem closes_eq (id : String) : closes id = fun c => decide (c.closed = some id) := by
  funext c
  rw [Bool.eq_iff_iff, closes_iff, decide_eq_true_eq]

/-- A record of a refused attempt: it is not accepted and closes nothing. -/
structure Refused (c : Capsule) : Prop where
  rejected : c.disposition.decision = reject
  apart : c.closed = none
  scopeless : c.actionClass = none

theorem Refused.isHold_eq_false {c : Capsule} (refused : Refused c) : c.isHold = false := by
  simp [Capsule.isHold, refused.rejected, accept, reject]

theorem Refused.isReserve_eq_false {c : Capsule} (refused : Refused c) : c.isReserve = false := by
  simp [Capsule.isReserve, refused.rejected, accept, reject]

/-- What a record may be when it is appended to a ledger. -/
inductive Justified (records : List Capsule) (c : Capsule) : Prop where
  | reserve (opened : c.isReserve = true) (alone : c.chain = none)
      (amount : c.amount = c.reservedAmount)
      (cited : ∀ actionClass, c.actionClass = some actionClass →
        c.asgPayload.aggregateBeforeMinor =
          some (activeExposureMinor records c.developer c.actionClass))
      (capped : ∀ cap, c.asgPayload.capMinor = some cap → c.actionClass.isSome = true ∧
        activeExposureMinor records c.developer c.actionClass + c.amount ≤ cap)
  | closing (p : Capsule) (member : p ∈ records) (closed : c.closed = some p.capsuleId)
      (active : (holdStatus packages records p.capsuleId).1 = .active)
      (hold : c.isHold = true) (other : startsWith c.actionId (holdReserve ++ "/") = false)
      (developer : c.developer = p.developer)
      (amount : c.amount = c.asgPayload.executedAmountMinor.getD 0 - p.reservedAmount)
      (unexecuted : terminalStatus c.verb ≠ some .reconciled →
        c.asgPayload.executedAmountMinor = none)
      (scopeless : c.actionClass = none)
  | refusal (refused : Refused c)

/-- Every record of the ledger is justified by the ones before it, under a
fresh id. -/
inductive Sound : List Capsule → Prop where
  | nil : Sound []
  | concat {records : List Capsule} {c : Capsule} (sound : Sound records)
      (justified : Justified packages records c) (named : c.capsuleId ≠ "")
      (fresh : ∀ r ∈ records, r.capsuleId ≠ c.capsuleId) : Sound (records ++ [c])

variable {packages} {records : List Capsule}

/-- An append writes nothing, or the record at the end under a fresh id. -/
theorem appendToLedger_cases {records' : List Capsule} {c : Capsule}
    (appended : appendToLedger records c = .ok records') :
    records' = records ∨ (records' = records ++ [c] ∧ c.capsuleId ≠ "" ∧
      ∀ r ∈ records, r.capsuleId ≠ c.capsuleId) := by
  rw [appendToLedger] at appended
  split at appended
  · next valid =>
      split at appended
      · split at appended
        · exact .inl (Except.ok.inj appended).symm
        · exact absurd appended (by simp)
      · next absent =>
          refine .inr ⟨(Except.ok.inj appended).symm, fun empty => ?_, ?_⟩
          · rw [empty] at valid
            exact absurd valid (by decide)
          · simpa using absent
  · exact absurd appended (by simp)

/-- Appending a justified record keeps a ledger sound. -/
theorem Sound.append (sound : Sound packages records) {c : Capsule}
    (justified : Justified packages records c) {records' : List Capsule}
    (appended : appendToLedger records c = .ok records') : Sound packages records' := by
  rcases appendToLedger_cases appended with same | ⟨same, named, fresh⟩
  · exact same ▸ sound
  · exact same ▸ .concat sound justified named fresh

namespace Sound

/-- Each record of a sound ledger is justified by the records before it. -/
theorem of_split (sound : Sound packages records) {front back : List Capsule} {c : Capsule}
    (split : records = front ++ c :: back) :
    Sound packages front ∧ Justified packages front c ∧
      ∀ r ∈ front, r.capsuleId ≠ c.capsuleId := by
  induction sound generalizing back with
  | nil => exact absurd split (by simp)
  | @concat records last sound justified named fresh ih =>
      rcases List.eq_nil_or_concat back with empty | ⟨back', d, whole⟩
      · subst empty
        obtain ⟨same, atEnd⟩ := List.append_inj' split rfl
        rw [← same, ← List.head_eq_of_cons_eq atEnd]
        exact ⟨sound, justified, fresh⟩
      · refine @ih back' ?_
        rw [whole, List.concat_eq_append, ← List.cons_append, ← List.append_assoc] at split
        exact (List.append_inj' split rfl).1

theorem nodup (sound : Sound packages records) : (records.map Capsule.capsuleId).Nodup := by
  induction sound with
  | nil => exact List.nodup_nil
  | @concat records c sound justified named fresh ih =>
      rw [List.map_append, List.map_singleton, List.nodup_append]
      refine ⟨ih, List.nodup_singleton _, fun id member other last => ?_⟩
      obtain ⟨r, inside, rfl⟩ := List.mem_map.mp member
      rw [List.mem_singleton.mp last]
      exact fresh r inside

theorem named (sound : Sound packages records) {c : Capsule} (member : c ∈ records) :
    c.capsuleId ≠ "" := by
  induction sound with
  | nil => exact absurd member List.not_mem_nil
  | concat sound justified named fresh ih =>
      rcases List.mem_append.mp member with member | last
      · exact ih member
      · exact List.mem_singleton.mp last ▸ named

/-- Records with the same id are the same record. -/
theorem eq_of_id (sound : Sound packages records) {c c' : Capsule} (member : c ∈ records)
    (member' : c' ∈ records) (same : c.capsuleId = c'.capsuleId) : c = c' :=
  List.inj_on_of_nodup_map sound.nodup member member' same

theorem byId_of_mem (sound : Sound packages records) {c : Capsule} (member : c ∈ records) :
    byId records c.capsuleId = some c := by
  cases found : byId records c.capsuleId with
  | none =>
      have gone := List.find?_eq_none.mp found c (List.mem_reverse.mpr member)
      exact absurd (sound.named member) (by simpa using gone)
  | some other =>
      have same := List.find?_some found
      simp only [Bool.and_eq_true, decide_eq_true_eq] at same
      have member' := List.mem_reverse.mp (List.mem_of_find?_eq_some found)
      rw [sound.eq_of_id member' member same.1]

end Sound

theorem byId_mem {id : String} {c : Capsule} (found : byId records id = some c) :
    c ∈ records ∧ c.capsuleId = id := by
  have same := List.find?_some found
  simp only [Bool.and_eq_true, decide_eq_true_eq] at same
  exact ⟨List.mem_reverse.mp (List.mem_of_find?_eq_some found), same.1⟩

theorem byId_concat_of_ne {c : Capsule} {id : String} (other : c.capsuleId ≠ id) :
    byId (records ++ [c]) id = byId records id := by
  rw [byId, byId, List.reverse_append, List.find?_append, List.reverse_singleton]
  simp [other]

theorem terminalStatus_getD_ne (verb : String) :
    (terminalStatus verb).getD .ambiguous ≠ .active := by
  unfold terminalStatus
  split_ifs <;> simp

/-- An active hold has a verifying record and nothing that closes it. -/
theorem holdStatus_active_iff {id : String} :
    (holdStatus packages records id).1 = .active ↔
      (∃ r, byId records id = some r ∧ packages.verifyCapsule r = true) ∧
        records.find? (closes id) = none := by
  constructor
  · intro active
    rw [holdStatus] at active
    split at active
    · exact absurd active (by simp)
    · next r found =>
        split at active
        · next verified =>
            split at active
            · next unclosed => exact ⟨⟨r, found, verified⟩, unclosed⟩
            · next t closing =>
                split at active
                · exact absurd active (terminalStatus_getD_ne _)
                · exact absurd active (by simp)
        · exact absurd active (by simp)
  · rintro ⟨⟨r, found, verified⟩, unclosed⟩
    rw [holdStatus, found]
    simp only [verified, if_true, unclosed]

namespace Sound

/-- What closes a record is an accepted record of the same developer. -/
theorem of_closed (sound : Sound packages records) {c : Capsule} (member : c ∈ records)
    {id : String} (closed : c.closed = some id) :
    c.isHold = true ∧ startsWith c.actionId (holdReserve ++ "/") = false ∧
      (terminalStatus c.verb ≠ some .reconciled → c.asgPayload.executedAmountMinor = none) ∧
      ∃ p ∈ records, p.capsuleId = id ∧ packages.verifyCapsule p = true ∧
        c.developer = p.developer ∧
        c.amount = c.asgPayload.executedAmountMinor.getD 0 - p.reservedAmount := by
  induction sound with
  | nil => exact absurd member List.not_mem_nil
  | @concat records last sound justified named fresh ih =>
      rcases List.mem_append.mp member with member | atEnd
      · obtain ⟨hold, other, unexecuted, p, inside, rest⟩ := ih member
        exact ⟨hold, other, unexecuted, p, List.mem_append_left _ inside, rest⟩
      · rw [List.mem_singleton.mp atEnd] at closed ⊢
        cases justified with
        | reserve opened alone => simp [Capsule.closed, alone] at closed
        | refusal refused => simp [refused.apart] at closed
        | closing p inside closed' active hold other developer amount unexecuted =>
            obtain ⟨⟨r, found, verified⟩, _⟩ := holdStatus_active_iff.mp active
            rw [sound.byId_of_mem inside, Option.some.injEq] at found
            rw [closed', Option.some.injEq] at closed
            exact ⟨hold, other, unexecuted, p, List.mem_append_left _ inside, closed,
              found ▸ verified, developer, amount⟩

/-- No two records close the same one. -/
theorem closed_nodup (sound : Sound packages records) :
    (records.filterMap Capsule.closed).Nodup := by
  induction sound with
  | nil => exact List.nodup_nil
  | @concat records c sound justified named fresh ih =>
      rw [List.filterMap_append]
      cases justified with
      | reserve opened alone => simpa [Capsule.closed, alone] using ih
      | refusal refused => simpa [refused.apart] using ih
      | closing p inside closed active =>
          obtain ⟨_, unclosed⟩ := holdStatus_active_iff.mp active
          rw [List.filterMap_cons_some closed, List.filterMap_nil, List.nodup_append]
          refine ⟨ih, List.nodup_singleton _, fun id member other last => ?_⟩
          obtain ⟨r, inside', again⟩ := List.mem_filterMap.mp member
          rw [List.mem_singleton.mp last]
          intro same
          subst same
          exact List.find?_eq_none.mp unclosed r inside' (closes_iff.mpr again)

/-- An accepted record of a hold opens it, or closes something. -/
theorem of_isHold (sound : Sound packages records) {c : Capsule} (member : c ∈ records)
    (hold : c.isHold = true) :
    (c.isReserve = true ∧ c.closed = none ∧ c.amount = c.reservedAmount) ∨
      (c.isReserve = false ∧ ∃ id, c.closed = some id) := by
  induction sound with
  | nil => exact absurd member List.not_mem_nil
  | @concat records last sound justified named fresh ih =>
      rcases List.mem_append.mp member with member | atEnd
      · exact ih member
      · rw [List.mem_singleton.mp atEnd] at hold ⊢
        cases justified with
        | reserve opened alone amount =>
            exact .inl ⟨opened, by simp [Capsule.closed, alone], amount⟩
        | closing p inside closed active hold other =>
            exact .inr ⟨by simp [Capsule.isReserve, other], _, closed⟩
        | refusal refused => simp [refused.isHold_eq_false] at hold

/-- Only an accepted reservation states a class. -/
theorem actionClass_eq_none (sound : Sound packages records) {c : Capsule}
    (member : c ∈ records) (other : c.isReserve = false) : c.actionClass = none := by
  induction sound with
  | nil => exact absurd member List.not_mem_nil
  | @concat records last sound justified named fresh ih =>
      rcases List.mem_append.mp member with member | atEnd
      · exact ih member
      · rw [List.mem_singleton.mp atEnd] at other ⊢
        cases justified with
        | reserve opened => simp [opened] at other
        | closing p inside closed active hold unlike developer amount unexecuted scopeless =>
            exact scopeless
        | refusal refused => exact refused.scopeless

/-- The class an id resolves to is the class of the record under it. -/
theorem reserveActionClassById_eq (sound : Sound packages records) {p : Capsule}
    (member : p ∈ records) : reserveActionClassById records p.capsuleId = p.actionClass := by
  rw [reserveActionClassById]
  cases found : (records.filter (fun c => startsWith c.actionId (holdReserve ++ "/") &&
      c.capsuleId ≠ "")).reverse.find? (fun c => c.capsuleId = p.capsuleId) with
  | none =>
      have other : p.isReserve = false := by
        rw [Capsule.isReserve, Bool.and_eq_false_iff]
        refine .inr (Bool.eq_false_iff.mpr fun opened => ?_)
        refine List.find?_eq_none.mp found p (List.mem_reverse.mpr (List.mem_filter.mpr ?_)) ?_
        · exact ⟨member, by simpa [opened] using sound.named member⟩
        · simp
      rw [Option.bind_none, sound.actionClass_eq_none member other]
  | some other =>
      have inside := List.mem_reverse.mp (List.mem_of_find?_eq_some found)
      have same := List.find?_some found
      rw [Option.bind_some,
        sound.eq_of_id (List.mem_of_mem_filter inside) member (of_decide_eq_true same)]

/-- A record that closes another has its class. -/
theorem recordActionClass_eq (sound : Sound packages records) {c p : Capsule}
    (member : c ∈ records) (cited : p ∈ records) (closed : c.closed = some p.capsuleId) :
    recordActionClass records c = p.actionClass := by
  have other := (sound.of_closed member closed).2.1
  have parent : c.chain = some ⟨p.capsuleId, supersedes⟩ := by
    have closing := closes_iff.mpr closed
    simp only [closes, Bool.and_eq_true, decide_eq_true_eq] at closing
    exact closing.1
  rw [recordActionClass, other, parent]
  exact sound.reserveActionClassById_eq cited

end Sound

/-! ## What a hold is worth -/

/-- What the hold of a reservation is worth: the reserved amount while it is
active, nothing once it is released or expired, and the executed amount once
it is reconciled.  A status that cannot be determined leaves what the earliest
closing record says, and the reserved amount when there is none. -/
def heldValue (packages : Packages) (records : List Capsule) (r : Capsule) : Int :=
  match holdStatus packages records r.capsuleId with
  | (.active, _) => r.reservedAmount
  | (.released, _) => 0
  | (.expired, _) => 0
  | (.reconciled, terminal) => (terminal.bind (·.asgPayload.executedAmountMinor)).getD 0
  | (.ambiguous, some terminal) => terminal.asgPayload.executedAmountMinor.getD 0
  | (.ambiguous, none) => r.reservedAmount

/-- The accepted reservations of a developer, in one class when it is given. -/
def reservesOf (records : List Capsule) (subject : String) (actionClass : Option String) :
    List Capsule :=
  records.filter (fun r => r.isReserve && r.developer = subject &&
    (actionClass = none || r.actionClass = actionClass))

/-- A record that closes something other than an accepted reservation. -/
def isStray (records : List Capsule) (c : Capsule) : Bool :=
  c.closed.isSome && !records.any (fun r => r.isReserve && c.closed = some r.capsuleId)

/-- What the strays of a developer move. -/
def strayAmount (records : List Capsule) (subject : String) : Int :=
  total Capsule.amount (records.filter (fun c => isStray records c && c.developer = subject))

theorem counts_of_isReserve {subject : String} {actionClass : Option String} {r : Capsule}
    (opened : r.isReserve = true) : counts records subject actionClass r =
      (r.developer = subject && (actionClass = none || r.actionClass = actionClass)) := by
  rw [counts, recordActionClass_of_isReserve opened, Capsule.isHold_of_isReserve opened,
    Bool.and_true]

namespace Sound

/-- The worth of a hold, by the earliest record that closes it. -/
theorem heldValue_eq (sound : Sound packages records) {r : Capsule} (member : r ∈ records) :
    heldValue packages records r =
      match records.find? (closes r.capsuleId) with
      | none => r.reservedAmount
      | some terminal => terminal.asgPayload.executedAmountMinor.getD 0 := by
  rw [heldValue, holdStatus, sound.byId_of_mem member]
  cases found : records.find? (closes r.capsuleId) with
  | none => by_cases verified : packages.verifyCapsule r = true <;> simp [verified]
  | some t =>
      have closed := closes_iff.mp (List.find?_some found)
      obtain ⟨_, _, unexecuted, p, inside, same, verified, _⟩ :=
        sound.of_closed (List.mem_of_find?_eq_some found) closed
      rw [sound.eq_of_id inside member same] at verified
      simp only [verified, if_true]
      by_cases readable : packages.verifyCapsule t = true
      · have terminal : (terminalStatus t.verb).isSome = true := by
          have closing := List.find?_some found
          simp only [closes, Bool.and_eq_true] at closing
          exact closing.2
        simp only [readable, if_true]
        unfold terminalStatus at terminal unexecuted ⊢
        split_ifs at terminal unexecuted ⊢ <;> simp_all
      · simp [readable]

/-- A hold's own records add up to what it is worth. -/
theorem amount_add_settled (sound : Sound packages records) {r : Capsule}
    (member : r ∈ records) (opened : r.isReserve = true) :
    r.amount + settled Capsule.amount Capsule.closed records r.capsuleId =
      heldValue packages records r := by
  have amount : r.amount = r.reservedAmount := by
    rcases sound.of_isHold member (Capsule.isHold_of_isReserve opened) with opening | closing
    · exact opening.2.2
    · simp [opened] at closing
  rw [sound.heldValue_eq member, settled_eq_find sound.closed_nodup, ← closes_eq, amount]
  cases found : records.find? (closes r.capsuleId) with
  | none => simp
  | some t =>
      obtain ⟨_, _, _, p, inside, same, _, _, moved⟩ := sound.of_closed
        (List.mem_of_find?_eq_some found) (closes_iff.mp (List.find?_some found))
      rw [sound.eq_of_id inside member same] at moved
      simp [moved]

/-- What closes a reservation counts wherever the reservation counts. -/
theorem counts_of_closed (sound : Sound packages records) {c r : Capsule} (member : c ∈ records)
    (inside : r ∈ records) (opened : r.isReserve = true) (closed : c.closed = some r.capsuleId)
    (subject : String) (actionClass : Option String) :
    counts records subject actionClass c = counts records subject actionClass r := by
  obtain ⟨hold, _, _, p, cited, same, _, developer, _⟩ := sound.of_closed member closed
  have parent : p = r := sound.eq_of_id cited inside same
  subst parent
  rw [counts_of_isReserve opened, counts, hold, developer,
    sound.recordActionClass_eq member inside closed, Bool.and_true]

theorem isReserve_of_closed (sound : Sound packages records) {c : Capsule} (member : c ∈ records)
    {id : String} (closed : c.closed = some id) : c.isReserve = false := by
  simp [Capsule.isReserve, (sound.of_closed member closed).2.1]

/-- A counted record that opens nothing closes a record of the same developer;
in the exposure of a class, that record is a reservation of the class. -/
theorem of_counts (sound : Sound packages records) {c : Capsule} (member : c ∈ records)
    {subject : String} {actionClass : Option String} (other : c.isReserve = false)
    (counted : counts records subject actionClass c = true) :
    ∃ p ∈ records, c.closed = some p.capsuleId ∧ p.developer = subject ∧
      (actionClass = none ∨ p ∈ reservesOf records subject actionClass) := by
  obtain ⟨developer, hold, scope⟩ := counts_iff.mp counted
  rcases sound.of_isHold member hold with opening | ⟨_, id, closed⟩
  · simp [other] at opening
  · obtain ⟨_, _, _, p, cited, same, _, sameDeveloper, _⟩ := sound.of_closed member closed
    subst same
    have subject' : p.developer = subject := sameDeveloper.symm.trans developer
    refine ⟨p, cited, closed, subject', ?_⟩
    cases actionClass with
    | none => exact .inl rfl
    | some name =>
        rw [sound.recordActionClass_eq member cited closed] at scope
        have class' : p.actionClass = some name := scope.resolve_left (by simp)
        have opened : p.isReserve = true := by
          cases opened : p.isReserve with
          | true => rfl
          | false =>
              rw [sound.actionClass_eq_none cited opened] at class'
              exact absurd class' (by simp)
        exact .inr (List.mem_filter.mpr ⟨cited, by simp [opened, subject', class']⟩)

/-- Whether a record of a developer is a stray can be seen from the
reservations of that developer alone. -/
theorem isStray_eq (sound : Sound packages records) {c : Capsule} (member : c ∈ records)
    {id : String} (closed : c.closed = some id) :
    isStray records c = !((reservesOf records c.developer none).map Capsule.capsuleId).any
      (fun k => c.closed = some k) := by
  obtain ⟨_, _, _, p, cited, same, _, developer, _⟩ := sound.of_closed member closed
  subst same
  rw [isStray, closed, Option.isSome_some, Bool.true_and, Bool.not_inj_iff, Bool.eq_iff_iff]
  simp only [reservesOf, List.any_map, List.any_filter, List.any_eq_true, Bool.and_eq_true,
    decide_eq_true_eq, Option.some.injEq, Function.comp_apply, Bool.or_eq_true, true_or, and_true]
  refine exists_congr fun r => and_congr_right fun inside => ?_
  constructor
  · rintro ⟨opened, same⟩
    rw [← sound.eq_of_id cited inside same]
    exact ⟨⟨sound.eq_of_id cited inside same ▸ opened, developer.symm⟩, rfl⟩
  · rintro ⟨⟨opened, _⟩, same⟩
    exact ⟨opened, same⟩

/-- The counted records that open nothing and name no reservation of the scope
are the strays, and they count only when no class is given. -/
theorem total_strays (sound : Sound packages records) (subject : String)
    (actionClass : Option String) :
    total Capsule.amount (strays Capsule.closed
        ((reservesOf records subject actionClass).map Capsule.capsuleId)
        (records.filter (fun c => !c.isReserve && counts records subject actionClass c))) =
      if actionClass = none then strayAmount records subject else 0 := by
  cases actionClass with
  | some name =>
      refine total_eq_zero (fun c stray => ?_)
      obtain ⟨counted, unnamed⟩ := List.mem_filter.mp stray
      obtain ⟨member, counted⟩ := List.mem_filter.mp counted
      simp only [Bool.and_eq_true, Bool.not_eq_true'] at counted
      obtain ⟨p, _, closed, _, class' | named⟩ := sound.of_counts member counted.1 counted.2
      · exact absurd class' (by simp)
      · exfalso
        simp only [Bool.not_eq_true', List.any_eq_false, decide_eq_true_eq] at unnamed
        exact unnamed _ (List.mem_map_of_mem named) closed
  | none =>
      rw [if_pos rfl, strayAmount, strays, List.filter_filter]
      congr 1
      refine List.filter_congr (fun c member => ?_)
      cases closed : c.closed with
      | none =>
          have uncounted : (!c.isReserve && counts records subject none c) = false := by
            rw [Bool.eq_false_iff]
            intro counted
            simp only [Bool.and_eq_true, Bool.not_eq_true'] at counted
            obtain ⟨p, _, closed', _⟩ := sound.of_counts member counted.1 counted.2
            simp [closed] at closed'
          simp [isStray, closed, uncounted]
      | some id =>
          obtain ⟨hold, _⟩ := sound.of_closed member closed
          by_cases developer : c.developer = subject
          · rw [sound.isStray_eq member closed, sound.isReserve_of_closed member closed, developer]
            simp [counts, hold, developer, closed]
          · simp [counts, developer]

/-- Every exposure is what the holds of its scope are worth, and the strays. -/
theorem exposure_eq (sound : Sound packages records) (subject : String)
    (actionClass : Option String) :
    activeExposureMinor records subject actionClass =
      ((reservesOf records subject actionClass).map (heldValue packages records)).sum +
        if actionClass = none then strayAmount records subject else 0 := by
  have opening : (records.filter (counts records subject actionClass)).filter Capsule.isReserve =
      reservesOf records subject actionClass := by
    rw [reservesOf, List.filter_filter]
    refine List.filter_congr (fun c _ => ?_)
    cases opened : c.isReserve with
    | false => rfl
    | true => rw [counts_of_isReserve opened, Bool.true_and, Bool.true_and]
  have closing : (records.filter (counts records subject actionClass)).filter
      (fun c => !c.isReserve) =
        records.filter (fun c => !c.isReserve && counts records subject actionClass c) :=
    List.filter_filter
  have nodup : ((reservesOf records subject actionClass).map Capsule.capsuleId).Nodup :=
    sound.nodup.sublist (List.filter_sublist.map _)
  have worth : ∀ r ∈ reservesOf records subject actionClass,
      r.amount + settled Capsule.amount Capsule.closed
        (records.filter (fun c => !c.isReserve && counts records subject actionClass c))
        r.capsuleId = heldValue packages records r := by
    intro r member
    obtain ⟨inside, scope⟩ := List.mem_filter.mp member
    simp only [Bool.and_eq_true] at scope
    rw [settled_filter, sound.amount_add_settled inside scope.1.1]
    intro c other closed
    rw [sound.isReserve_of_closed other closed,
      sound.counts_of_closed other inside scope.1.1 closed, counts_of_isReserve scope.1.1]
    rw [scope.1.2, scope.2]
    rfl
  rw [activeExposureMinor, ← total_filter_add Capsule.isReserve, opening, closing,
    total_eq_sum_settled nodup (records.filter _), sound.total_strays, ← add_assoc]
  congr 1
  rw [List.map_map, total, ← List.sum_map_add]
  exact congrArg List.sum (List.map_congr_left worth)

end Sound

end Holds
end CapsuleEmit
