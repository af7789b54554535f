import CapsuleEmit.Foundation.Json
import CapsuleEmit.Foundation.Shortest

namespace CapsuleEmit
namespace Integers

/-!
# Integers in JSON

A machine integer is written as its digits, behind a sign if it is negative.
A decoder that expects one takes the numbers without a fraction and an exponent
whose value is in the range of its type; a negative zero is a floating point
number to it.
-/

/-! ## Digits -/

/-- The byte of an ASCII character. -/
def byteOf (c : Char) : UInt8 := UInt8.ofNat c.toNat

/-- The digits of a natural number. -/
def digits (n : Nat) : Bytes := (Nat.toDigits 10 n).map byteOf

/-- The number that digits write. -/
def value (text : Bytes) : Nat := text.foldl (fun sofar b => 10 * sofar + (b.toNat - 48)) 0

theorem toNat_byteOf {c : Char} (digit : c.isDigit = true) :
    (byteOf c).toNat = c.toNat ∧ 48 ≤ c.toNat ∧ c.toNat ≤ 57 := by
  simp only [Char.isDigit, Bool.and_eq_true, decide_eq_true_eq, ge_iff_le, UInt32.le_iff_toNat_le]
    at digit
  have low : 48 ≤ c.toNat := digit.1
  have high : c.toNat ≤ 57 := digit.2
  refine ⟨?_, low, high⟩
  rw [byteOf, UInt8.toNat_ofNat']
  omega

theorem isDigit_byteOf {c : Char} (digit : c.isDigit = true) : isDigit (byteOf c) = true := by
  rcases toNat_byteOf digit with ⟨same, low, high⟩
  simp only [isDigit, Bool.and_eq_true, decide_eq_true_eq, UInt8.le_iff_toNat_le]
  rw [same]
  exact ⟨low, high⟩

theorem isDigit_toDigits (n : Nat) : ∀ c ∈ Nat.toDigits 10 n, c.isDigit = true :=
  fun _ inside => Nat.isDigit_of_mem_toDigits (by decide) (by decide) inside

theorem all_digits (n : Nat) : (digits n).all isDigit = true := by
  rw [digits, List.all_map, List.all_eq_true]
  exact fun c inside => isDigit_byteOf (isDigit_toDigits n c inside)

theorem allDigits_digits (n : Nat) : allDigits (digits n) = true := by
  have some : digits n ≠ [] := by
    rw [digits, ne_eq, List.map_eq_nil_iff]
    exact Nat.toDigits_ne_nil
  rw [allDigits, all_digits, Bool.and_true, Bool.not_eq_true', List.isEmpty_eq_false_iff]
  exact some

@[simp] theorem value_digits (n : Nat) : value (digits n) = n := by
  have fold : ∀ (chars : List Char) (start : Nat), (∀ c ∈ chars, c.isDigit = true) →
      (chars.map byteOf).foldl (fun sofar b => 10 * sofar + (b.toNat - 48)) start =
        Nat.ofDigitChars 10 chars start := by
    intro chars
    induction chars with
    | nil => exact fun _ _ => rfl
    | cons c chars ih =>
        intro start all
        rw [List.map_cons, List.foldl_cons, (toNat_byteOf (all c List.mem_cons_self)).1,
          ih _ (fun other inside => all other (List.mem_cons_of_mem _ inside))]
        rfl
  calc
    value (digits n) = Nat.ofDigitChars 10 (Nat.toDigits 10 n) 0 := fold _ 0 (isDigit_toDigits n)
    _ = n := Nat.ofDigitChars_toDigits (by decide) (by decide)

theorem isNumberByte_of_isDigit {b : UInt8} (digit : isDigit b = true) : isNumberByte b = true := by
  rw [isNumberByte]
  rw [isDigit] at digit
  simp [digit]

theorem isUnsignedNumber_digits (n : Nat) : isUnsignedNumber (digits n) = true := by
  rcases Nat.eq_zero_or_pos n with rfl | positive
  · rfl
  · have lead := Decimal.Shortest.head_toDigits positive
    have all := all_digits n
    rcases hd : Nat.toDigits 10 n with _ | ⟨c, chars⟩
    · exact absurd hd Nat.toDigits_ne_nil
    · rw [digits, hd, List.map_cons, List.all_cons, Bool.and_eq_true] at all
      have tail : ((chars.map byteOf).dropWhile isDigit) = [] := by
        rw [List.dropWhile_eq_nil_iff]
        exact List.all_eq_true.mp all.2
      have apart : byteOf c ≠ 48 := by
        intro same
        have digit := isDigit_toDigits n c (by rw [hd]; exact List.mem_cons_self)
        have code := (toNat_byteOf digit).1
        rw [same] at code
        apply lead
        rw [hd, List.head?_cons, Option.some_inj]
        exact Char.toNat_inj.mp code.symm
      rw [digits, hd, List.map_cons, isUnsignedNumber]
      · rw [tail, all.1]
        rfl
      · exact apart

/-! ## Numbers -/

/-- An integer as a JSON number. -/
def ofInt (n : Int) : JsonNumber where
  text := if n < 0 then 45 :: digits n.natAbs else digits n.natAbs
  bytes := by
    have inside : (digits n.natAbs).all isNumberByte = true :=
      List.all_eq_true.mpr (fun b member =>
        isNumberByte_of_isDigit (List.all_eq_true.mp (all_digits n.natAbs) b member))
    split
    · rw [List.all_cons, inside]
      rfl
    · exact inside
  wellFormed := by
    split
    · exact isUnsignedNumber_digits n.natAbs
    · have plain := isUnsignedNumber_digits n.natAbs
      rw [isNumberText.eq_def]
      split
      · next rest shape =>
          rw [shape] at plain
          exact absurd plain (by simp [isUnsignedNumber, isDigit])
      · exact plain

/-- The integer a number is, if it is written as one and is not a negative zero. -/
def toInt? (number : JsonNumber) : Option Int :=
  match number.text with
  | 45 :: text => if allDigits text && value text ≠ 0 then some (-(value text : Int)) else none
  | text => if allDigits text then some (value text) else none

@[simp] theorem toInt?_ofInt (n : Int) : toInt? (ofInt n) = some n := by
  rw [toInt?, ofInt]
  by_cases negative : n < 0
  · simp only [negative, if_true, allDigits_digits, value_digits, Bool.true_and, ne_eq,
      decide_not, Bool.not_eq_true', decide_eq_false_iff_not]
    rw [if_pos (by omega)]
    simp only [Option.some_inj]
    omega
  · simp only [negative, if_false]
    have all := allDigits_digits n.natAbs
    split
    · next rest shape =>
        rw [shape] at all
        exact absurd all (by simp [allDigits, isDigit])
    · rw [if_pos all, value_digits]
      simp only [Option.some_inj]
      omega

/-- A decoded `i64`. -/
def toInt64? (number : JsonNumber) : Option Int64 :=
  ((toInt? number).filter (fun n => -2 ^ 63 ≤ n && n < 2 ^ 63)).map Int64.ofInt

/-- A decoded `u64`. -/
def toUInt64? (number : JsonNumber) : Option UInt64 :=
  ((toInt? number).filter (fun n => 0 ≤ n && n < 2 ^ 64)).map (fun n => UInt64.ofNat n.toNat)

@[simp] theorem toInt64?_ofInt (n : Int64) : toInt64? (ofInt n.toInt) = some n := by
  have low := n.le_toInt
  have high := n.toInt_lt
  simp only [toInt64?, toInt?_ofInt, Option.filter_some, Bool.and_eq_true, decide_eq_true_eq,
    low, high, and_self, if_true, Option.map_some, Int64.ofInt_toInt]

@[simp] theorem toUInt64?_ofInt (n : UInt64) : toUInt64? (ofInt n.toNat) = some n := by
  have high : (n.toNat : Int) < 2 ^ 64 := by exact_mod_cast n.toNat_lt
  simp only [toUInt64?, toInt?_ofInt, Option.filter_some, Bool.and_eq_true, decide_eq_true_eq,
    Int.natCast_nonneg, high, and_self, if_true, Option.map_some, Int.toNat_natCast,
    UInt64.ofNat_toNat]

end Integers
end CapsuleEmit
