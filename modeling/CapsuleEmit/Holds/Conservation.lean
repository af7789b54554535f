import CapsuleEmit.Holds.Digest
import Mathlib.Algebra.Ring.Int.Defs

namespace CapsuleEmit
namespace Holds

/-!
# Conservation of value

Calls that run one after another keep every exposure equal to what the holds
of its scope are worth, as long as no call records an amount against something
that is not an accepted reservation.  A lifecycle call reads the record it
cites without asking for its kind: on the record of a reconciliation it finds
a reserved amount, takes it for an open hold, and moves the exposure although
no hold has changed.
-/

variable (packages : Packages) (engine : HoldEngine)

/-- Every exposure, over all classes and in each class, is the sum of what the
accepted reservations of the scope are worth. -/
def Conserved (records : List Capsule) : Prop :=
  ∀ subject actionClass, activeExposureMinor records subject actionClass =
    ((reservesOf records subject actionClass).map (heldValue packages records)).sum

/-- The record a lifecycle call cites, if there is one and it is active, is an
accepted reservation, or the call moves nothing. -/
def Balanced (records : List Capsule) (op : Operation) : Prop :=
  ∀ p, op.call.cited.bind (byId records) = some p →
    (holdStatus packages records p.capsuleId).1 = .active →
    p.isReserve = true ∨ op.call.moves engine p = 0

variable {packages engine} {env : Env} {records : List Capsule}

/-! ## Strays that move nothing -/

/-- Every stray of the ledger has amount zero. -/
def Level (records : List Capsule) : Prop :=
  ∀ c ∈ records, isStray records c = true → c.amount = 0

theorem isStray_of_concat {c d : Capsule} (stray : isStray (records ++ [c]) d = true) :
    isStray records d = true := by
  simp only [isStray, Bool.and_eq_true, Bool.not_eq_true', List.any_append,
    Bool.or_eq_false_iff] at stray ⊢
  exact ⟨stray.1, stray.2.1⟩

theorem isStray_eq_false {c p : Capsule} (cited : p ∈ records) (opened : p.isReserve = true)
    (closed : c.closed = some p.capsuleId) : isStray records c = false := by
  rw [isStray, Bool.and_eq_false_iff]
  refine .inr ?_
  rw [Bool.not_eq_false', List.any_eq_true]
  exact ⟨p, cited, by simp [opened, closed]⟩

/-- An append keeps the strays level when its own record moves nothing, or
closes a reservation. -/
theorem Level.append (level : Level records) {c : Capsule}
    (own : isStray records c = true → c.amount = 0) {records' : List Capsule}
    (appended : appendToLedger records c = .ok records') : Level records' := by
  rcases appendToLedger_cases appended with same | ⟨same, _, _⟩
  · exact same ▸ level
  · subst same
    intro d member stray
    rcases List.mem_append.mp member with member | last
    · exact level d member (isStray_of_concat stray)
    · rw [List.mem_singleton.mp last] at stray ⊢
      exact own (isStray_of_concat stray)

/-- A ledger with level strays conserves value. -/
theorem Sound.conserved (sound : Sound packages records) (level : Level records) :
    Conserved packages records := by
  intro subject actionClass
  have none : strayAmount records subject = 0 := by
    refine Settlement.total_eq_zero (fun c member => ?_)
    obtain ⟨member, stray⟩ := List.mem_filter.mp member
    simp only [Bool.and_eq_true] at stray
    exact level c member stray.1
  rw [sound.exposure_eq, none, ite_self, add_zero]

/-! ## Runs -/

/-- A balanced call closes a reservation, or moves nothing. -/
theorem amount_of_isStray {op : Operation} (balanced : Balanced packages engine records op)
    {sec : Section} (entered : op.call.outset packages op.env records = .enter sec)
    (stray : isStray records (sec.decide packages engine records).1 = true) :
    (sec.decide packages engine records).1.amount = 0 := by
  obtain ⟨id, closed⟩ := Option.isSome_iff_exists.mp (Bool.and_eq_true _ _ |>.mp stray).1
  obtain ⟨p, cites, same, active, amount⟩ := closed_decide closed
  obtain ⟨found, moves⟩ := enter_cited engine entered cites
  rw [amount, ← moves]
  refine (balanced p found active).resolve_left (fun opened => ?_)
  -- a reservation that is closed is not a stray
  rw [isStray_eq_false (fits_enter entered p cites) opened (closed.trans (congrArg some same))]
    at stray
  exact absurd stray (by simp)

/-- What a call appends is justified by the ledger. -/
theorem step_cases (packages : Packages) (engine : HoldEngine) (records : List Capsule)
    (op : Operation) :
    (step packages engine records op).2 = records ∨
      ∃ c, Justified packages records c ∧
        appendToLedger records c = .ok (step packages engine records op).2 ∧
          (Refused c ∨ ∃ sec, op.call.outset packages op.env records = .enter sec ∧
            c = (sec.decide packages engine records).1) := by
  have recorded : ∀ decided : Decided, (record records decided).2 = records ∨
      appendToLedger records decided.1 = .ok (record records decided).2 := by
    intro decided
    rw [record]
    split
    · next appended => exact .inr appended
    · exact .inl rfl
  rw [step, Call.run]
  split
  · exact .inl rfl
  · next decided posted =>
      have refused := refused_post posted
      exact (recorded decided).imp id
        fun appended => ⟨decided.1, .refusal refused, appended, .inl refused⟩
  · next sec entered =>
      exact (recorded _).imp id
        fun appended => ⟨_, justified_decide (fits_enter entered), appended, .inr ⟨sec, entered, rfl⟩⟩

theorem sound_step (sound : Sound packages records) (op : Operation) :
    Sound packages (step packages engine records op).2 := by
  rcases step_cases packages engine records op with
    same | ⟨c, justified, appended, _⟩
  · rw [same]
    exact sound
  · exact sound.append justified appended

/-- Every run leaves a sound ledger. -/
theorem sound_after (packages : Packages) (engine : HoldEngine) (ops : List Operation) :
    Sound packages (Machine.after (step packages engine) [] ops) :=
  have keep : ∀ records op, Sound packages records →
      Sound packages (step packages engine records op).2 := fun _ op sound => sound_step sound op
  Machine.invariant keep .nil ops

theorem level_step {op : Operation} (level : Level records)
    (balanced : Balanced packages engine records op) :
    Level (step packages engine records op).2 := by
  rcases step_cases packages engine records op with
    same | ⟨c, _, appended, refused | ⟨sec, entered, decided⟩⟩
  · rw [same]
    exact level
  · refine level.append (fun stray => ?_) appended
    rw [isStray, refused.apart] at stray
    exact absurd stray (by simp)
  · subst decided
    exact level.append (amount_of_isStray balanced entered) appended

/-- Value is conserved in every state that a run of balanced calls reaches. -/
theorem conserved_of_guarded {ops : List Operation}
    (guarded : Machine.Guarded (step packages engine) (Balanced packages engine) [] ops) :
    Conserved packages (Machine.after (step packages engine) [] ops) :=
  (sound_after packages engine ops).conserved
    (Machine.invariant_of_guarded (fun _ _ level balanced => level_step level balanced)
      (by simp [Level]) guarded)

/-- The conversion cites the reservation. -/
theorem reserve_of_convertForty {p : Capsule}
    (cited : convertForty.call.cited.bind (byId [reservation]) = some p) : p.isReserve = true := by
  have same : p = reservation := by
    have found := byId_samples.1
    simpa [convertForty, Call.cited, found] using cited.symm
  exact same ▸ by decide

theorem balanced_transfers :
    Machine.Guarded (step digestPackages transfers) (Balanced digestPackages transfers) []
      [reserveHundred, convertForty] := by
  refine ⟨fun p cited => absurd cited (by simp [reserveHundred, Call.cited]), ?_, trivial⟩
  rw [step_reserveHundred]
  exact fun p cited _ => .inl (reserve_of_convertForty cited)

theorem conserved_of_guarded_transfers :
    Machine.Guarded (step digestPackages transfers) (Balanced digestPackages transfers) []
      [reserveHundred, convertForty] ∧
    Conserved digestPackages
      (Machine.after (step digestPackages transfers) [] [reserveHundred, convertForty]) :=
  ⟨balanced_transfers, conserved_of_guarded balanced_transfers⟩

/-- A release that cites the record of a conversion is accepted, and takes the
reserved amount off an exposure that the hold no longer has. -/
theorem not_conserved_transfers :
    ¬ Conserved digestPackages (Machine.after (step digestPackages transfers) []
      [reserveHundred, convertForty, releaseConversion]) := by
  intro conserved
  have sound := sound_after digestPackages transfers
    [reserveHundred, convertForty, releaseConversion]
  have exposure := conserved "procurement-agent@v1" none
  rw [sound.exposure_eq, after_transfers] at exposure
  have stray : strayAmount [reservation, conversion, strayRelease] "procurement-agent@v1" = -100 := by
    decide +kernel
  rw [stray, if_pos rfl] at exposure
  omega

end Holds
end CapsuleEmit
