import Mathlib.Algebra.GroupWithZero.Nat
import Mathlib.Data.List.Basic
import Mathlib.Tactic.Common

namespace CapsuleEmit
namespace Calendar

/-!
# The Gregorian calendar

Dates of the proleptic Gregorian calendar, with a year zero and years before it.
Days are numbered from the first of January of the year zero; the number of the
next date is the next number, and every number is that of one date.
-/

/-! ## Years and months -/

def isLeap (year : Int) : Bool := year % 4 = 0 && (year % 100 ≠ 0 || year % 400 = 0)

def yearLength (year : Int) : Int := if isLeap year then 366 else 365

/-- The lengths of the twelve months. -/
def monthLengths (leap : Bool) : List Nat :=
  [31, if leap then 29 else 28, 31, 30, 31, 30, 31, 31, 30, 31, 30, 31]

/-- The length of a month, from 1 for January. -/
def monthLength (year : Int) (month : Nat) : Nat :=
  ((monthLengths (isLeap year))[month - 1]?).getD 0

/-- The number of the first day of a year. -/
def daysBeforeYear (year : Int) : Int :=
  365 * year + (year + 3) / 4 - (year + 99) / 100 + (year + 399) / 400

/-- How many days of a year come before a month. -/
def daysBeforeMonth (year : Int) (month : Nat) : Nat :=
  ((monthLengths (isLeap year)).take (month - 1)).sum

theorem daysBeforeYear_zero : daysBeforeYear 0 = 0 := rfl

/-- A year begins where the one before it ends. -/
theorem daysBeforeYear_succ (year : Int) :
    daysBeforeYear (year + 1) = daysBeforeYear year + yearLength year := by
  unfold daysBeforeYear yearLength isLeap
  by_cases four : year % 4 = 0
  · by_cases hundred : year % 100 = 0
    · by_cases whole : year % 400 = 0
      · simp only [four, hundred, whole]
        simp
        omega
      · simp only [four, hundred, whole]
        simp
        omega
    · simp [four, hundred]
      omega
  · simp [four]
    omega

theorem monthLengths_pos : ∀ leap, ∀ i < 12, 1 ≤ ((monthLengths leap)[i]?).getD 0 := by decide

theorem sum_monthLengths : ∀ leap, ∀ i < 12, ((monthLengths leap).take (i + 1)).sum =
    ((monthLengths leap).take i).sum + ((monthLengths leap)[i]?).getD 0 := by decide

theorem monthLength_pos {month : Nat} (within : 1 ≤ month ∧ month ≤ 12) (year : Int) :
    1 ≤ monthLength year month :=
  monthLengths_pos (isLeap year) (month - 1) (by omega)

theorem monthLengths_le : ∀ leap, ∀ length ∈ monthLengths leap, length ≤ 31 := by decide

theorem monthLength_le (year : Int) (month : Nat) : monthLength year month ≤ 31 := by
  unfold monthLength
  cases found : (monthLengths (isLeap year))[month - 1]? with
  | none => exact Nat.zero_le 31
  | some length => exact monthLengths_le _ length (List.mem_of_getElem? found)

/-- A month begins where the one before it ends. -/
theorem daysBeforeMonth_succ {month : Nat} (within : 1 ≤ month ∧ month ≤ 12) (year : Int) :
    daysBeforeMonth year (month + 1) = daysBeforeMonth year month + monthLength year month := by
  have sums := sum_monthLengths (isLeap year) (month - 1) (by omega)
  rwa [Nat.sub_add_cancel within.1] at sums

/-- A year is as long as its months. -/
theorem daysBeforeMonth_last (year : Int) :
    (daysBeforeMonth year 12 : Int) + monthLength year 12 = yearLength year := by
  unfold daysBeforeMonth monthLength yearLength
  cases isLeap year with
  | true => rfl
  | false => rfl

/-! ## Dates -/

structure Date where
  year : Int
  month : Nat
  day : Nat
deriving DecidableEq, Repr

/-- The date is one of the calendar. -/
structure Date.Real (date : Date) : Prop where
  month : 1 ≤ date.month ∧ date.month ≤ 12
  day : 1 ≤ date.day ∧ date.day ≤ monthLength date.year date.month

theorem Date.real_iff {date : Date} : date.Real ↔
    (1 ≤ date.month ∧ date.month ≤ 12) ∧
      1 ≤ date.day ∧ date.day ≤ monthLength date.year date.month :=
  ⟨fun real => ⟨real.month, real.day⟩, fun both => ⟨both.1, both.2⟩⟩

instance (date : Date) : Decidable date.Real := decidable_of_iff' _ Date.real_iff

/-- The number of a date. -/
def Date.number (date : Date) : Int :=
  daysBeforeYear date.year + daysBeforeMonth date.year date.month + (date.day - 1)

/-- The date after a date. -/
def Date.next (date : Date) : Date :=
  if date.day < monthLength date.year date.month then { date with day := date.day + 1 }
  else if date.month < 12 then ⟨date.year, date.month + 1, 1⟩
  else ⟨date.year + 1, 1, 1⟩

theorem Date.real_next {date : Date} (real : date.Real) : date.next.Real := by
  have first : ∀ (year : Int) (month : Nat), 1 ≤ month ∧ month ≤ 12 →
      (⟨year, month, 1⟩ : Date).Real :=
    fun year month within => ⟨within, Nat.le_refl 1, monthLength_pos within year⟩
  unfold Date.next
  split
  · next more => exact ⟨real.month, Nat.le_add_left 1 _, more⟩
  · split
    · next later => exact first _ _ ⟨Nat.le_add_left 1 _, later⟩
    · exact first _ _ (by decide)

/-- The number of the next date is the next number. -/
theorem Date.number_next {date : Date} (real : date.Real) :
    date.next.number = date.number + 1 := by
  unfold Date.next
  split
  · simp only [Date.number]
    omega
  · next last =>
      have whole : date.day = monthLength date.year date.month :=
        Nat.le_antisymm real.day.2 (Nat.le_of_not_lt last)
      split
      · next later =>
          simp only [Date.number, daysBeforeMonth_succ real.month]
          omega
      · next december =>
          have twelfth : date.month = 12 := by
            have within := real.month.2
            omega
          have year := daysBeforeMonth_last date.year
          simp only [Date.number, daysBeforeYear_succ, whole, twelfth]
          have none : daysBeforeMonth (date.year + 1) 1 = 0 := rfl
          omega

/-! ## The date of a number -/

/-- The year of a day, from an estimate that is at most one year off. -/
def yearOf (n : Int) : Int :=
  let estimate := 400 * n / 146097
  if daysBeforeYear (estimate + 1) ≤ n then estimate + 1
  else if n < daysBeforeYear estimate then estimate - 1
  else estimate

theorem yearOf_spec (n : Int) :
    daysBeforeYear (yearOf n) ≤ n ∧ n < daysBeforeYear (yearOf n + 1) := by
  have low : daysBeforeYear (400 * n / 146097 - 1) ≤ n := by
    unfold daysBeforeYear
    omega
  have high : n < daysBeforeYear (400 * n / 146097 + 2) := by
    unfold daysBeforeYear
    omega
  unfold yearOf
  simp only
  split
  · next later => exact ⟨later, by rwa [Int.add_assoc]⟩
  · next notLater =>
      split
      · next earlier => exact ⟨low, by rwa [Int.sub_add_cancel]⟩
      · next notEarlier => exact ⟨Int.not_lt.mp notEarlier, Int.not_le.mp notLater⟩

/-- Which of the lengths laid end to end a place is in, and how far. -/
def locate : List Nat → Nat → Nat × Nat
  | [], n => (0, n)
  | length :: rest, n =>
      if n < length then (0, n)
      else ((locate rest (n - length)).1 + 1, (locate rest (n - length)).2)

theorem locate_spec {lengths : List Nat} {n : Nat} (within : n < lengths.sum) :
    (locate lengths n).1 < lengths.length ∧
      (lengths.take (locate lengths n).1).sum + (locate lengths n).2 = n ∧
      (locate lengths n).2 < (lengths[(locate lengths n).1]?).getD 0 := by
  induction lengths generalizing n with
  | nil => cases within
  | cons length rest ih =>
      rw [locate]
      split
      · next here => exact ⟨Nat.succ_pos _, Nat.zero_add n, here⟩
      · next there =>
          rw [List.sum_cons] at within
          rcases ih (n := n - length) (by omega) with ⟨inside, place, left⟩
          refine ⟨Nat.succ_lt_succ inside, ?_, left⟩
          rw [List.take_succ_cons, List.sum_cons]
          omega

/-- The date with a number. -/
def Date.ofNumber (n : Int) : Date :=
  let year := yearOf n
  let place := locate (monthLengths (isLeap year)) (n - daysBeforeYear year).toNat
  ⟨year, place.1 + 1, place.2 + 1⟩

theorem ofNumber_spec (n : Int) :
    (Date.ofNumber n).Real ∧ (Date.ofNumber n).number = n := by
  rcases yearOf_spec n with ⟨low, high⟩
  rw [daysBeforeYear_succ] at high
  have months : ((monthLengths (isLeap (yearOf n))).sum : Int) = yearLength (yearOf n) := by
    unfold yearLength
    cases isLeap (yearOf n) with
    | true => rfl
    | false => rfl
  have twelve : (monthLengths (isLeap (yearOf n))).length = 12 := rfl
  have within : (n - daysBeforeYear (yearOf n)).toNat <
      (monthLengths (isLeap (yearOf n))).sum := by omega
  rcases locate_spec within with ⟨inside, place, left⟩
  rw [twelve] at inside
  constructor
  · exact ⟨⟨Nat.le_add_left 1 _, inside⟩, Nat.le_add_left 1 _, left⟩
  · simp only [Date.ofNumber, Date.number, daysBeforeMonth, Nat.add_sub_cancel]
    omega

theorem real_ofNumber (n : Int) : (Date.ofNumber n).Real := (ofNumber_spec n).1

@[simp] theorem number_ofNumber (n : Int) : (Date.ofNumber n).number = n := (ofNumber_spec n).2

/-! ## Different dates have different numbers -/

theorem daysBeforeYear_le {year later : Int} (less : year < later) :
    daysBeforeYear (year + 1) ≤ daysBeforeYear later := by
  by_cases next : later = year + 1
  · exact Int.le_of_eq (congrArg daysBeforeYear next.symm)
  · unfold daysBeforeYear
    omega

theorem sum_take_le : ∀ leap, ∀ i < 12, ∀ j < i,
    ((monthLengths leap).take (j + 1)).sum ≤ ((monthLengths leap).take i).sum := by decide

theorem Date.number_within {date : Date} (real : date.Real) :
    daysBeforeYear date.year ≤ date.number ∧ date.number < daysBeforeYear (date.year + 1) := by
  have days := real.day
  have year := daysBeforeMonth_last date.year
  have months : daysBeforeMonth date.year date.month + monthLength date.year date.month ≤
      daysBeforeMonth date.year 12 + monthLength date.year 12 := by
    by_cases twelfth : date.month = 12
    · exact Nat.le_of_eq (by rw [twelfth])
    · have within := real.month
      have sums := sum_take_le (isLeap date.year) 11 (by decide) (date.month - 1) (by omega)
      rw [← daysBeforeMonth_succ within, daysBeforeMonth, daysBeforeMonth, Nat.add_sub_cancel]
      rw [Nat.sub_add_cancel within.1] at sums
      exact Nat.le_trans sums (Nat.le_add_right _ _)
  rw [daysBeforeYear_succ, Date.number]
  omega

theorem Date.number_injective {left right : Date} (realLeft : left.Real) (realRight : right.Real)
    (same : left.number = right.number) : left = right := by
  rcases left with ⟨year, month, day⟩
  rcases right with ⟨year', month', day'⟩
  have within := Date.number_within realLeft
  have within' := Date.number_within realRight
  dsimp only at within within'
  have years : year = year' := by
    rcases Int.lt_trichotomy year year' with less | equal | more
    · have bound := daysBeforeYear_le less
      omega
    · exact equal
    · have bound := daysBeforeYear_le more
      omega
  subst years
  have days := realLeft.day
  have days' := realRight.day
  have within := realLeft.month
  have within' := realRight.month
  simp only [Date.number] at same
  dsimp only at days days' within within'
  have before : ∀ {m m' : Nat}, 1 ≤ m ∧ m ≤ 12 → 1 ≤ m' ∧ m' ≤ 12 → m < m' →
      daysBeforeMonth year m + monthLength year m ≤ daysBeforeMonth year m' := by
    intro m m' inside inside' less
    have sums := sum_take_le (isLeap year) (m' - 1) (by omega) (m - 1) (by omega)
    rwa [Nat.sub_add_cancel inside.1, ← Nat.add_sub_cancel (n := m) (m := 1), ← daysBeforeMonth,
      ← daysBeforeMonth, daysBeforeMonth_succ inside] at sums
  have months : month = month' := by
    rcases Nat.lt_trichotomy month month' with less | equal | more
    · have bound := before within within' less
      omega
    · exact equal
    · have bound := before within' within more
      omega
  subst months
  have same' : day = day' := by omega
  rw [same']

@[simp] theorem ofNumber_number {date : Date} (real : date.Real) :
    Date.ofNumber date.number = date :=
  Date.number_injective (real_ofNumber _) real (number_ofNumber _)

end Calendar
end CapsuleEmit
