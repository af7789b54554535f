import Mathlib.Algebra.Field.Rat
import Mathlib.Algebra.GroupWithZero.Basic
import Mathlib.Data.List.DropRight
import Mathlib.Tactic.Common
import Mathlib.Tactic.Ring

namespace CapsuleEmit
namespace Decimal

/-!
# Decimal texts

A decimal text has a sign, digits with a point somewhere among them, and an exponent
of ten.  Many texts are of one number: zeros may stand before and after its significant
digits, and the exponent may take the place of the point.
-/

/-! ## Digits -/

/-- The number that digits write. -/
def number (digits : List Char) : Nat := Nat.ofDigitChars 10 digits 0

def zeros (k : Nat) : List Char := List.replicate k '0'

/-- A text of digits. -/
def AllDigits (text : List Char) : Prop := ∀ c ∈ text, c.isDigit = true

instance (text : List Char) : Decidable (AllDigits text) :=
  decidable_of_iff (text.all Char.isDigit = true) List.all_eq_true

theorem allDigits_zeros (k : Nat) : AllDigits (zeros k) := by
  intro c member
  rw [List.eq_of_mem_replicate member]
  rfl

theorem allDigits_append {left right : List Char} :
    AllDigits (left ++ right) ↔ AllDigits left ∧ AllDigits right := by
  simp only [AllDigits, List.mem_append, or_imp, forall_and]

theorem allDigits_toDigits (n : Nat) : AllDigits (Nat.toDigits 10 n) :=
  fun _ member => Nat.isDigit_of_mem_toDigits (by decide) (by decide) member

@[simp] theorem number_toDigits (n : Nat) : number (Nat.toDigits 10 n) = n :=
  Nat.ofDigitChars_ten_toDigits

theorem number_append (left right : List Char) :
    number (left ++ right) = number left * 10 ^ right.length + number right := by
  rw [number, Nat.ofDigitChars_append, Nat.ofDigitChars_eq_ofDigitChars_zero, Nat.mul_comm]
  rfl

@[simp] theorem number_zeros (k : Nat) : number (zeros k) = 0 :=
  Nat.ofDigitChars_replicate_zero

/-- Zeros before digits do not count, and zeros after them multiply. -/
theorem number_padded (a b : Nat) (digits : List Char) :
    number (zeros a ++ (digits ++ zeros b)) = number digits * 10 ^ b := by
  rw [number_append, number_append, number_zeros, number_zeros, Nat.zero_mul, Nat.zero_add,
    Nat.add_zero, zeros, List.length_replicate]

/-- The significant digits of a number other than zero. -/
structure Digits where
  chars : List Char
  digit : AllDigits chars
  some : chars ≠ []
  head : chars.head? ≠ Option.some '0'
  last : chars.getLast? ≠ Option.some '0'

/-- The number with a point before some of its digits: `0.ddd` times a power of ten. -/
def Digits.value (digits : Digits) (point : Int) : Rat :=
  number digits.chars * 10 ^ (point - digits.chars.length)

theorem Digits.length_pos (digits : Digits) : 0 < digits.chars.length :=
  List.length_pos_iff.mpr digits.some

theorem Digits.lstrip (digits : Digits) (a : Nat) :
    (zeros a ++ digits.chars).dropWhile (· = '0') = digits.chars := by
  induction a with
  | zero =>
      cases text : digits.chars with
      | nil => exact absurd text digits.some
      | cons c rest =>
          have nonzero : c ≠ '0' := by
            intro zero
            apply digits.head
            rw [text, zero]
            rfl
          exact List.dropWhile_cons_of_neg (by simpa using nonzero)
  | succ a ih =>
      rw [zeros, List.replicate_succ, List.cons_append, List.dropWhile_cons_of_pos rfl]
      exact ih

theorem Digits.rstrip (digits : Digits) (a b : Nat) :
    (zeros a ++ (digits.chars ++ zeros b)).rdropWhile (· = '0') = zeros a ++ digits.chars := by
  rw [← List.append_assoc]
  induction b with
  | zero =>
      have none : zeros 0 = [] := rfl
      rw [none, List.append_nil, List.rdropWhile_eq_self_iff]
      intro written zero
      apply digits.last
      rw [List.getLast_append_of_right_ne_nil _ _ digits.some] at zero
      rw [List.getLast?_eq_some_getLast digits.some, of_decide_eq_true zero]
  | succ b ih =>
      have more : zeros (b + 1) = zeros b ++ ['0'] := List.replicate_succ'
      rw [more, ← List.append_assoc, List.rdropWhile_concat_pos _ _ _ rfl]
      exact ih

/-! ## Reading -/

/-- `int(text)` for a text of digits, with or without a sign. -/
def readInt : List Char → Option Int
  | '+' :: digits => if digits ≠ [] ∧ AllDigits digits then some (number digits) else none
  | '-' :: digits => if digits ≠ [] ∧ AllDigits digits then some (-number digits) else none
  | digits => if digits ≠ [] ∧ AllDigits digits then some (number digits) else none

/-- The number a text without a sign denotes. -/
def readUnsigned (text : List Char) : Option Rat :=
  let mantissa := text.takeWhile (· ≠ 'e')
  let whole := mantissa.takeWhile (· ≠ '.')
  let fraction := (mantissa.dropWhile (· ≠ '.')).drop 1
  let exponent : Option Int :=
    if 'e' ∈ text then readInt ((text.dropWhile (· ≠ 'e')).drop 1) else some 0
  if whole ≠ [] ∧ AllDigits (whole ++ fraction) then
    exponent.map (fun (e : Int) => (number (whole ++ fraction) : Rat) * 10 ^ (e - fraction.length))
  else none

/-- The number a decimal text denotes. -/
def read : List Char → Option Rat
  | '-' :: text => (readUnsigned text).map (fun q => -q)
  | text => readUnsigned text

/-! ## Layouts -/

/-- Digits with a point before the fraction, if there is one. -/
def mantissa (whole fraction : List Char) : List Char :=
  if fraction = [] then whole else whole ++ '.' :: fraction

theorem takeWhile_before {p : Char → Bool} {l : List Char} (all : ∀ c ∈ l, p c = true)
    {c : Char} (stop : p c = false) (rest : List Char) :
    (l ++ c :: rest).takeWhile p = l := by
  rw [List.takeWhile_append_of_pos all, List.takeWhile_cons_of_neg (Bool.eq_false_iff.mp stop),
    List.append_nil]

theorem dropWhile_before {p : Char → Bool} {l : List Char} (all : ∀ c ∈ l, p c = true)
    {c : Char} (stop : p c = false) (rest : List Char) :
    (l ++ c :: rest).dropWhile p = c :: rest := by
  rw [List.dropWhile_append_of_pos all, List.dropWhile_cons_of_neg (Bool.eq_false_iff.mp stop)]

theorem AllDigits.ne {text : List Char} (digits : AllDigits text) {other : Char}
    (noDigit : other.isDigit = false) : ∀ c ∈ text, decide (c ≠ other) = true := by
  intro c member
  rw [decide_eq_true_eq]
  rintro rfl
  rw [digits c member] at noDigit
  cases noDigit

theorem AllDigits.notMem {text : List Char} (digits : AllDigits text) {other : Char}
    (noDigit : other.isDigit = false) : other ∉ text := by
  intro member
  rw [digits other member] at noDigit
  cases noDigit

theorem mantissa_ne {whole fraction : List Char} (digits : AllDigits (whole ++ fraction)) :
    ∀ c ∈ mantissa whole fraction, decide (c ≠ 'e') = true := by
  rcases allDigits_append.mp digits with ⟨left, right⟩
  intro c member
  unfold mantissa at member
  split at member
  · exact left.ne rfl c member
  · rw [List.mem_append, List.mem_cons] at member
    rcases member with inWhole | rfl | inFraction
    · exact left.ne rfl c inWhole
    · rfl
    · exact right.ne rfl c inFraction

theorem mantissa_whole {whole fraction : List Char} (digits : AllDigits (whole ++ fraction)) :
    (mantissa whole fraction).takeWhile (· ≠ '.') = whole := by
  have left := (allDigits_append.mp digits).1
  unfold mantissa
  split
  · exact List.takeWhile_eq_self_iff.mpr (left.ne rfl)
  · exact takeWhile_before (left.ne rfl) rfl fraction

theorem mantissa_fraction {whole fraction : List Char} (digits : AllDigits (whole ++ fraction)) :
    ((mantissa whole fraction).dropWhile (· ≠ '.')).drop 1 = fraction := by
  have left := (allDigits_append.mp digits).1
  unfold mantissa
  split
  · next empty =>
      rw [List.dropWhile_eq_nil_iff.mpr (left.ne rfl), empty]
      rfl
  · rw [dropWhile_before (left.ne rfl) rfl]
    rfl

theorem readUnsigned_mantissa {whole fraction : List Char} (some : whole ≠ [])
    (digits : AllDigits (whole ++ fraction)) : readUnsigned (mantissa whole fraction) =
      Option.some ((number (whole ++ fraction) : Rat) * 10 ^ (-(fraction.length : Int))) := by
  have plain := mantissa_ne digits
  have noLetter : 'e' ∉ mantissa whole fraction := fun member => by
    simpa using plain 'e' member
  unfold readUnsigned
  simp only [List.takeWhile_eq_self_iff.mpr plain, mantissa_whole digits, mantissa_fraction digits]
  rw [if_pos ⟨some, digits⟩, if_neg noLetter, Option.map_some, Int.zero_sub]

theorem readUnsigned_exponent {whole fraction exponent : List Char} {e : Int} (some : whole ≠ [])
    (digits : AllDigits (whole ++ fraction)) (read : readInt exponent = Option.some e) :
    readUnsigned (mantissa whole fraction ++ 'e' :: exponent) =
      Option.some ((number (whole ++ fraction) : Rat) * 10 ^ (e - fraction.length)) := by
  have plain := mantissa_ne digits
  have letter : 'e' ∈ mantissa whole fraction ++ 'e' :: exponent := by simp
  unfold readUnsigned
  simp only [takeWhile_before (c := 'e') plain rfl, dropWhile_before (c := 'e') plain rfl,
    mantissa_whole digits, mantissa_fraction digits]
  rw [if_pos ⟨some, digits⟩, if_pos letter, List.drop_succ_cons, List.drop_zero, read,
    Option.map_some]

theorem read_unsigned {text : List Char} (noSign : text.head? ≠ some '-') :
    read text = readUnsigned text := by
  unfold read
  split
  · exact absurd rfl noSign
  · rfl

end Decimal
end CapsuleEmit
