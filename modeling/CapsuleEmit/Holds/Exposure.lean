import Mathlib.Algebra.Order.BigOperators.Group.List
import CapsuleEmit.Holds.Lifecycle

namespace CapsuleEmit
namespace Holds

/-!
# Exposure under a cap

A reservation with a cap leaves the exposure of its own class within the cap,
in every interleaving: only sections under the same lock move that exposure
between the read and the append.  That an exposure is never negative needs
more, because amounts are any integers and lifecycle calls do not ask what
they cite: the amounts must not be negative, and the cited records must be
reservations.
-/

variable {packages : Packages} {engine : HoldEngine} {records : List Capsule}

/-- The amounts of a call are not negative. -/
def Call.Nonnegative : Call → Prop
  | .evaluateAndReserve _ action => 0 ≤ action.amountMinor.getD 0
  | .reconcile _ executed _ => 0 ≤ executed
  | _ => True

def Section.Nonnegative : Section → Prop
  | .reserve _ action => 0 ≤ action.amountMinor.getD 0
  | .reconcile _ _ executed _ => 0 ≤ executed
  | _ => True

/-- A call cites a reservation if it cites a record, and gives no negative
amount. -/
def Sane (state : Shared) : Event → Prop
  | .call t env request =>
      CitesReserve state (.call t env request) ∧ request.Nonnegative
  | _ => True

/-- Every reservation with a cap left its scope within the cap when it was
appended, and no exposure is negative. -/
structure Bounded (records : List Capsule) : Prop where
  within : ∀ front c back cap, records = front ++ c :: back → c.isReserve = true →
    c.asgPayload.capMinor = some cap →
      activeExposureMinor (front ++ [c]) c.developer c.actionClass ≤ cap
  nonneg : ∀ subject actionClass, 0 ≤ activeExposureMinor records subject actionClass

/-- What sane calls enter. -/
def SaneSection (sec : Section) : Prop := OnReserve sec ∧ sec.Nonnegative

theorem nonnegative_enter {env : Env} {call : Call} {sec : Section}
    (entered : call.outset packages env records = .enter sec) (sane : call.Nonnegative) :
    sec.Nonnegative := by
  cases call with
  | evaluateAndReserve available action =>
      simp only [Call.outset, evaluateAndReserve] at entered
      split at entered
      · rw [← Outset.enter.inj entered]
        exact sane
      · exact absurd entered (by simp)
  | release id reason | expire id reason | reconcile id executed execution =>
      simp only [Call.outset, close, reconcile] at entered
      split at entered
      · exact absurd entered (by simp)
      · rw [← Outset.enter.inj entered]
        exact sane

theorem admits_of_sane {state : Shared} {event : Event} (sane : Sane state event) :
    Admits packages SaneSection state event := by
  cases event with
  | call t env request =>
      exact fun sec entered =>
        ⟨admits_of_citesReserve sane.1 sec entered, nonnegative_enter entered sane.2⟩
  | acquire t => trivial
  | read t => trivial
  | append t => trivial

/-! ## Amounts of the records -/

theorem reservedAmount_nonneg {sec : Section} (sane : sec.Nonnegative)
    (opened : (sec.decide packages engine records).1.isReserve = true) :
    0 ≤ (sec.decide packages engine records).1.reservedAmount := by
  cases sec with
  | reserve env action =>
      simp only [Section.decide, evaluateAndReserveLocked] at opened ⊢
      split at opened
      · split at opened
        · simp [(refused_denied _ _ _ _).isReserve_eq_false] at opened
        · next within => rw [if_neg within]; exact sane
      · exact sane
  | close env p closing reason => simp [Section.decide, isReserve_closeLocked] at opened
  | reconcile env p executed execution => simp [Section.decide, isReserve_reconcileLocked] at opened

theorem executedAmount_nonneg {sec : Section} (sane : sec.Nonnegative) :
    0 ≤ (sec.decide packages engine records).1.asgPayload.executedAmountMinor.getD 0 := by
  cases sec with
  | reserve env action =>
      simp only [Section.decide, evaluateAndReserveLocked]
      split
      · split <;> exact Int.le_refl 0
      · exact Int.le_refl 0
  | close env p closing reason =>
      simp only [Section.decide, closeLocked]
      split
      · cases closing <;> exact Int.le_refl 0
      · exact Int.le_refl 0
  | reconcile env p executed execution =>
      simp only [Section.decide, reconcileLocked]
      split
      · split
        · exact sane
        · exact Int.le_refl 0
      · exact Int.le_refl 0

/-- No record of a run of sane calls reserves or executes a negative amount. -/
theorem Traced.nonneg (traced : Traced packages engine SaneSection records) {c : Capsule}
    (member : c ∈ records) : (c.isReserve = true → 0 ≤ c.reservedAmount) ∧
      (c.closed.isSome = true → 0 ≤ c.asgPayload.executedAmountMinor.getD 0) := by
  rcases traced.2 c member with refused | ⟨sec, before, sane, fits, same⟩
  · refine ⟨fun opened => ?_, fun closed => ?_⟩
    · simp [refused.isReserve_eq_false] at opened
    · rw [refused.apart] at closed
      exact absurd closed (by simp)
  · subst same
    exact ⟨reservedAmount_nonneg sane.2, fun _ => executedAmount_nonneg sane.2⟩

theorem Traced.heldValue_nonneg (traced : Traced packages engine SaneSection records)
    {r : Capsule} (member : r ∈ records) (opened : r.isReserve = true) :
    0 ≤ heldValue packages records r := by
  rw [traced.1.heldValue_eq member]
  split
  · exact (traced.nonneg member).1 opened
  · next terminal found =>
      have closed := closes_iff.mp (List.find?_some found)
      exact (traced.nonneg (List.mem_of_find?_eq_some found)).2 (by rw [closed]; rfl)

/-- A section on a reservation makes no stray. -/
theorem Traced.strayAmount_eq_zero (traced : Traced packages engine SaneSection records)
    (subject : String) : strayAmount records subject = 0 := by
  refine Settlement.total_eq_zero (fun c member => ?_)
  obtain ⟨member, stray⟩ := List.mem_filter.mp member
  simp only [Bool.and_eq_true] at stray
  obtain ⟨id, closed⟩ := Option.isSome_iff_exists.mp (Bool.and_eq_true _ _ |>.mp stray.1).1
  rcases traced.2 c member with refused | ⟨sec, before, sane, fits, same⟩
  · rw [refused.apart] at closed
    exact absurd closed (by simp)
  · rw [same] at closed
    obtain ⟨p, cites, same', _⟩ := closed_decide closed
    have level : isStray records c = false :=
      isStray_eq_false (fits p cites) (sane.1 p cites) (by rw [same, closed, same'])
    rw [level] at stray
    exact absurd stray.1 (by simp)

/-! ## Runs -/

/-- A reservation with a cap leaves its scope within the cap when it is
appended. -/
theorem Sound.within_cap (sound : Sound packages records) {front back : List Capsule}
    {c : Capsule} (split : records = front ++ c :: back) (opened : c.isReserve = true) {cap : Int}
    (capped : c.asgPayload.capMinor = some cap) :
    activeExposureMinor (front ++ [c]) c.developer c.actionClass ≤ cap := by
  obtain ⟨before, justified, fresh⟩ := sound.of_split split
  have counted : counts (front ++ [c]) c.developer c.actionClass c = true := by
    rw [counts_of_isReserve opened]
    simp
  rw [before.activeExposureMinor_concat fresh, counted, if_pos rfl]
  cases justified with
  | reserve opened alone amount cited within => exact (within cap capped).2
  | closing p member closed active hold other => simp [Capsule.isReserve, other] at opened
  | refusal refused => simp [refused.isReserve_eq_false] at opened

/-- In every run of sane calls, each reservation with a cap left its scope
within the cap, and no exposure is negative. -/
theorem bounded_of_sane {events : List Event}
    (guarded : Machine.Guarded (interleave packages engine) Sane (started []) events) :
    Bounded (ledgerAfter packages engine events) := by
  have traced : Traced packages engine SaneSection (ledgerAfter packages engine events) :=
    (good_of_admits (guarded.mono fun _ _ => admits_of_sane)).inv
  refine ⟨fun front c back cap split opened capped => traced.1.within_cap split opened capped,
    fun subject actionClass => ?_⟩
  rw [traced.1.exposure_eq, traced.strayAmount_eq_zero, ite_self, add_zero]
  refine List.sum_nonneg (fun value member => ?_)
  obtain ⟨r, inside, rfl⟩ := List.mem_map.mp member
  obtain ⟨inside, scope⟩ := List.mem_filter.mp inside
  simp only [Bool.and_eq_true] at scope
  exact traced.heldValue_nonneg inside scope.1.1

theorem sane_transfers :
    Machine.Guarded (interleave digestPackages transfers) Sane (started [])
      ([reserveHundred, convertForty].flatMap uninterrupted) := by
  refine guarded_sequential (fun _ _ => ⟨trivial, trivial, trivial⟩) ⟨⟨?_, ?_⟩, ⟨?_, ?_⟩, trivial⟩
  · exact fun p cited => absurd cited (by simp [reserveHundred, Call.cited])
  · simp [reserveHundred, Call.Nonnegative, transfer]
  · rw [step_reserveHundred]
    exact fun p cited => reserve_of_convertForty cited
  · simp [convertForty, Call.Nonnegative]

theorem bounded_of_sane_transfers :
    Machine.Guarded (interleave digestPackages transfers) Sane (started [])
      ([reserveHundred, convertForty].flatMap uninterrupted) ∧
    Bounded (ledgerAfter digestPackages transfers
      ([reserveHundred, convertForty].flatMap uninterrupted)) :=
  ⟨sane_transfers, bounded_of_sane sane_transfers⟩

/-- A release that cites the record of a conversion drives the exposure of the
developer below zero. -/
theorem not_bounded_transfers :
    ¬ Bounded (ledgerAfter digestPackages transfers
      ([reserveHundred, convertForty, releaseConversion].flatMap uninterrupted)) := by
  rw [ledgerAfter_sequential, after_transfers]
  intro bounded
  have exposure : activeExposureMinor [reservation, conversion, strayRelease]
      "procurement-agent@v1" none = -60 := by decide +kernel
  have nonneg := bounded.nonneg "procurement-agent@v1" none
  rw [exposure] at nonneg
  omega

end Holds
end CapsuleEmit
