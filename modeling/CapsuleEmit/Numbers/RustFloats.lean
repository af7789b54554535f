import CapsuleEmit.Foundation.Outcome
import CapsuleEmit.Foundation.Shortest
import CapsuleEmit.Numbers.FloatText

namespace CapsuleEmit
namespace Numbers

/-!
# Floats as the Rust digest serializer writes them

As a map key a float is written as its own text, in plain decimals or with an
exponent by its magnitude.  As a value, an integral float below `1e21` is written
as an integer, through the text of its shortest digits.  The texts the standard
library prints for a float are its shortest digits, without and with an exponent.
-/

open Decimal

/-! ## Floats and their texts -/

inductive Float64 where
  | nan
  | infinite (negative : Bool)
  | zero (negative : Bool)
  | nonzero (negative : Bool) (shortest : Shortest)

namespace Float64

def Finite : Float64 → Prop
  | nan => False
  | infinite _ => False
  | zero _ => True
  | nonzero _ _ => True

/-- The float by its digits alone. -/
def binary64 : Float64 → Binary64
  | nan => .nan
  | infinite negative => .infinite negative
  | zero negative => .zero negative
  | nonzero negative shortest => .nonzero negative shortest.digits shortest.point

/-- `v.abs()` of a finite float. -/
def magnitude : Float64 → Rat
  | nonzero _ shortest => shortest.magnitude
  | _ => 0

/-- The number a finite float is. -/
def value : Float64 → Rat
  | nonzero true shortest => -shortest.magnitude
  | nonzero false shortest => shortest.magnitude
  | _ => 0

end Float64

def signed (negative : Bool) (text : List Char) : List Char :=
  if negative then '-' :: text else text

/-- The digits in plain decimals. -/
def plainText (digits : List Char) (point : Int) : List Char :=
  if digits.length ≤ point then digits ++ zeros (point - digits.length).toNat
  else if 0 < point then digits.take point.toNat ++ '.' :: digits.drop point.toNat
  else '0' :: '.' :: (zeros (-point).toNat ++ digits)

/-- The digits with an exponent. -/
def exponentText (digits : List Char) (point : Int) : List Char :=
  mantissa (digits.take 1) (digits.drop 1) ++ 'e' :: strInt (point - 1)

/-- `v.to_string()` -/
def display : Float64 → List Char
  | .nan => ['N', 'a', 'N']
  | .infinite negative => signed negative ['i', 'n', 'f']
  | .zero negative => signed negative ['0']
  | .nonzero negative shortest => signed negative (plainText shortest.digits.chars shortest.point)

/-- `format!("{v:e}")` -/
def lowerExp : Float64 → List Char
  | .nan => ['N', 'a', 'N']
  | .infinite negative => signed negative ['i', 'n', 'f']
  | .zero negative => signed negative ['0', 'e', '0']
  | .nonzero negative shortest =>
      signed negative (exponentText shortest.digits.chars shortest.point)

/-! ## The serializer -/

/-- What the wrapped serializer is told to write. -/
inductive Written where
  | str (text : List Char)
  | integer (n : Int)
  | float (v : Float64)

/-- `text.contains(['.', 'e', 'E'])` -/
def marked (text : List Char) : Bool := text.any (fun c => c = '.' || c = 'e' || c = 'E')

/-- `floats::integer_text` -/
def integerText (text : List Char) (magnitude : Rat) : Option (List Char) :=
  if magnitude < 10 ^ 21 ∧ marked text = false then some text else none

def unsupported (v : Float64) : String :=
  "unsupported value: " ++
    (match v with
      | .nan => "NaN"
      | .infinite false => "+Inf"
      | _ => "-Inf")

/-- `digits.parse::<i128>()` -/
def parseI128 (digits : List Char) : Option Int :=
  (readInt digits).bind (fun n => if -2 ^ 127 ≤ n ∧ n < 2 ^ 127 then some n else none)

/-- `floats::write_integer` -/
def writeInteger (digits : List Char) : Except String Written :=
  (parseI128 digits).elim (.error "float digits are not an integer") (fun n => .ok (.integer n))

/-- `text.split_once(c)` -/
def splitOnce (c : Char) (text : List Char) : Option (List Char × List Char) :=
  if c ∈ text then some (text.takeWhile (· ≠ c), (text.dropWhile (· ≠ c)).drop 1) else none

/-- `floats::key_text` -/
def keyText (display exponent : List Char) (plain : Bool) : List Char :=
  if plain then display
  else match splitOnce 'e' exponent with
    | some (mantissa, power) =>
        if power.head? = some '-' then exponent else mantissa ++ 'e' :: '+' :: power
    | none => exponent

/-- `v == 0.0 || (1e-6..1e21).contains(&v.abs())` of a finite float. -/
def plain (v : Float64) : Bool :=
  v.magnitude = 0 || (millionth ≤ v.magnitude && v.magnitude < 10 ^ 21)

/-- `serialize_f64`, of a map key or of a value. -/
def serializeF64 (key : Bool) (v : Float64) : Except String Written :=
  match v with
  | .nan => .error (unsupported v)
  | .infinite _ => .error (unsupported v)
  | _ =>
      if key then .ok (.str (keyText (display v) (lowerExp v) (plain v)))
      else (integerText (display v) v.magnitude).elim (.ok (.float v)) writeInteger

/-! ## Map keys -/

theorem isBinary64_tenPow : IsBinary64 (10 ^ (21 : Int)) := by
  refine ⟨⟨5 ^ 21, 21, by norm_num, by decide, by norm_num⟩, ?_⟩
  calc
    (10 : Rat) ^ (21 : Int) < 2 ^ 70 := by norm_num
    _ ≤ 2 ^ 1024 := pow_le_pow_right₀ (by norm_num) (by norm_num)

theorem magnitude_lt_tenPow_iff (v : Shortest) : v.magnitude < 10 ^ 21 ↔ v.point ≤ 21 :=
  v.magnitude_lt_iff isBinary64_tenPow

/-- The magnitudes decide the layout as the place of the point does. -/
theorem plain_nonzero_iff (negative : Bool) (v : Shortest) :
    plain (.nonzero negative v) = true ↔ -5 ≤ v.point ∧ v.point ≤ 21 := by
  have some : v.magnitude ≠ 0 := ne_of_gt v.positive
  simp only [plain, Float64.magnitude, some, decide_false, Bool.false_or, Bool.and_eq_true,
    decide_eq_true_eq, v.millionth_le_iff, magnitude_lt_tenPow_iff]

theorem plainText_eq (digits : Digits) {point : Int} (low : -5 ≤ point) (high : point ≤ 21) :
    plainText digits.chars point = (numberLayout digits.chars point).text := by
  rw [numberLayout, if_pos ⟨low, high⟩, plainText]
  split
  · simp [Layout.text, mantissa]
  · split
    · have rest : digits.chars.drop point.toNat ≠ [] := by
        rw [ne_eq, List.drop_eq_nil_iff]
        omega
      simp [Layout.text, mantissa, rest]
    · simp [Layout.text, mantissa, digits.some]

theorem splitOnce_exponentText (negative : Bool) (digits : Digits) (point : Int) :
    splitOnce 'e' (signed negative (exponentText digits.chars point)) =
      some (signed negative (mantissa (digits.chars.take 1) (digits.chars.drop 1)),
        strInt (point - 1)) := by
  have all : AllDigits (digits.chars.take 1 ++ digits.chars.drop 1) := by
    rw [List.take_append_drop]
    exact digits.digit
  have before : ∀ c ∈ signed negative (mantissa (digits.chars.take 1) (digits.chars.drop 1)),
      decide (c ≠ 'e') = true := by
    intro c inside
    cases negative with
    | false => exact mantissa_ne all c inside
    | true =>
        rcases List.mem_cons.mp inside with rfl | inside
        · rfl
        · exact mantissa_ne all c inside
  have written : signed negative (exponentText digits.chars point) =
      signed negative (mantissa (digits.chars.take 1) (digits.chars.drop 1)) ++
        'e' :: strInt (point - 1) := by
    cases negative <;> rfl
  rw [written, splitOnce, if_pos (by simp), takeWhile_before before rfl,
    dropWhile_before before rfl]
  rfl

theorem strInt_nonneg {e : Int} (up : ¬ e < 0) : strInt e = Nat.toDigits 10 e.natAbs :=
  if_neg up

theorem head_strInt (e : Int) : (strInt e).head? = some '-' ↔ e < 0 := by
  by_cases down : e < 0
  · rw [strInt, if_pos down]
    exact iff_of_true rfl down
  · rw [strInt_nonneg down]
    refine iff_of_false ?_ down
    intro sign
    have minus : '-' ∉ Nat.toDigits 10 e.natAbs := (allDigits_toDigits e.natAbs).notMem rfl
    exact minus (List.mem_of_head? sign)

theorem exponentText_eq (negative : Bool) (digits : Digits) {point : Int}
    (outside : ¬ (-5 ≤ point ∧ point ≤ 21)) (display : List Char) :
    keyText display (signed negative (exponentText digits.chars point)) false =
      signed negative (numberLayout digits.chars point).text := by
  rw [keyText, if_neg Bool.false_ne_true, splitOnce_exponentText]
  simp only [head_strInt]
  rw [numberLayout, if_neg outside, Layout.text]
  by_cases down : point - 1 < 0
  · rw [if_pos down, exponentText, strInt]
    simp only [if_pos down]
  · rw [if_neg down, strInt_nonneg down]
    simp only [if_neg down]
    cases negative <;> rfl

/-- A map key is written as a script engine prints the float, and a zero with
its sign. -/
theorem serializeF64_key {v : Float64} (finite : v.Finite) :
    serializeF64 true v = .ok (.str (match v with
      | .zero negative => signed negative ['0']
      | v => numberToString v.binary64)) := by
  cases v with
  | nan => exact finite.elim
  | infinite negative => exact finite.elim
  | zero negative =>
      have written : keyText (display (.zero negative)) (lowerExp (.zero negative))
          (plain (.zero negative)) = signed negative ['0'] := by
        simp [keyText, plain, Float64.magnitude, display]
      exact congrArg (fun text => Except.ok (Written.str text)) written
  | nonzero negative v =>
      have printed : numberToString (Float64.nonzero negative v).binary64 =
          signed negative (numberLayout v.digits.chars v.point).text := by
        cases negative <;> rfl
      have written : keyText (display (.nonzero negative v)) (lowerExp (.nonzero negative v))
          (plain (.nonzero negative v)) = numberToString (Float64.nonzero negative v).binary64 := by
        rw [printed]
        by_cases inside : -5 ≤ v.point ∧ v.point ≤ 21
        · rw [(plain_nonzero_iff negative v).mpr inside, keyText, if_pos rfl, display,
            plainText_eq v.digits inside.1 inside.2]
        · have not : plain (.nonzero negative v) = false :=
            Bool.eq_false_iff.mpr (fun yes => inside ((plain_nonzero_iff negative v).mp yes))
          rw [not, lowerExp, exponentText_eq negative v.digits inside]
      exact congrArg (fun text => Except.ok (Written.str text)) written

/-! ## Values -/

theorem marked_digits {text : List Char} (all : AllDigits text) : marked text = false := by
  rw [marked, List.any_eq_false]
  intro c inside
  have digit := all c inside
  have point : c ≠ '.' := by rintro rfl; cases digit
  have lower : c ≠ 'e' := by rintro rfl; cases digit
  have upper : c ≠ 'E' := by rintro rfl; cases digit
  simp [point, lower, upper]

theorem marked_signed (negative : Bool) (text : List Char) :
    marked (signed negative text) = marked text := by
  cases negative <;> rfl

theorem plainText_integral (v : Shortest) : marked (plainText v.digits.chars v.point) = false ↔
    (v.digits.chars.length : Int) ≤ v.point := by
  constructor
  · intro none
    by_contra short
    have point : '.' ∈ plainText v.digits.chars v.point := by
      rw [plainText, if_neg short]
      split <;> simp
    rw [marked, List.any_eq_false] at none
    exact none '.' point rfl
  · intro long
    rw [plainText, if_pos long]
    exact marked_digits (allDigits_append.mpr ⟨v.digits.digit, allDigits_zeros _⟩)

theorem integral_iff (v : Shortest) :
    (v.digits.chars.length : Int) ≤ v.point ↔ ∃ i : Int, v.magnitude = i := by
  constructor
  · intro long
    rcases v.exists_natCast_of_length_le_point long with ⟨i, same⟩
    exact ⟨i, by rw [same]; rfl⟩
  · rintro ⟨i, same⟩
    have positive : 0 ≤ i := by
      have some := le_of_lt v.positive
      rw [same] at some
      exact_mod_cast some
    apply v.length_le_point_of_natCast (i := i.toNat)
    rw [same]
    exact_mod_cast (Int.toNat_of_nonneg positive).symm

/-- The digits of an integral magnitude with zeros after them. -/
def padded (v : Shortest) : List Char :=
  v.digits.chars ++ zeros (v.point - v.digits.chars.length).toNat

theorem allDigits_padded (v : Shortest) : AllDigits (padded v) :=
  allDigits_append.mpr ⟨v.digits.digit, allDigits_zeros _⟩

theorem padded_ne_nil (v : Shortest) : padded v ≠ [] :=
  List.append_ne_nil_of_left_ne_nil v.digits.some _

theorem toDigits_padded (v : Shortest) : Nat.toDigits 10 (number (padded v)) = padded v := by
  apply toDigits_number (allDigits_padded v) (padded_ne_nil v)
  rw [padded, List.head?_append_of_ne_nil _ v.digits.some]
  exact v.digits.head

theorem number_padded_pos (v : Shortest) : 0 < number (padded v) := by
  apply Nat.pos_of_ne_zero
  intro zero
  have digits := toDigits_padded v
  have head : (padded v).head? ≠ some '0' := by
    rw [padded, List.head?_append_of_ne_nil _ v.digits.some]
    exact v.digits.head
  rw [zero] at digits
  rw [← digits] at head
  exact head rfl

theorem readInt_padded (negative : Bool) (v : Shortest) : readInt (signed negative (padded v)) =
    some (if negative then -(number (padded v) : Int) else number (padded v)) := by
  have valid : padded v ≠ [] ∧ AllDigits (padded v) := ⟨padded_ne_nil v, allDigits_padded v⟩
  cases negative with
  | true =>
      change (if padded v ≠ [] ∧ AllDigits (padded v) then _ else _) = _
      rw [if_pos valid]
      rfl
  | false =>
      cases text : padded v with
      | nil => exact absurd text valid.1
      | cons c rest =>
          have digit := valid.2 c (text ▸ List.mem_cons_self)
          rw [text] at valid
          have plus : c ≠ '+' := by rintro rfl; cases digit
          have minus : c ≠ '-' := by rintro rfl; cases digit
          have read : readInt (c :: rest) = if c :: rest ≠ [] ∧ AllDigits (c :: rest) then
              some (number (c :: rest) : Int) else none := by
            unfold readInt
            split
            · next same => cases same; exact absurd rfl plus
            · next same => cases same; exact absurd rfl minus
            · rfl
          change readInt (c :: rest) = _
          rw [read, if_pos valid]
          rfl

theorem number_padded_lt {v : Shortest} (long : (v.digits.chars.length : Int) ≤ v.point)
    (small : v.point ≤ 21) : number (padded v) < 2 ^ 127 := by
  have bound := number_lt (allDigits_padded v)
  have length : (padded v).length ≤ 21 := by
    rw [padded, List.length_append, zeros, List.length_replicate]
    omega
  calc
    number (padded v) < 10 ^ (padded v).length := bound
    _ ≤ 10 ^ 21 := Nat.pow_le_pow_right (by decide) length
    _ < 2 ^ 127 := by decide

/-- An integral float below `1e21` is written as the integer of its digits. -/
theorem serializeF64_integral (negative : Bool) {v : Shortest}
    (long : (v.digits.chars.length : Int) ≤ v.point) (small : v.point ≤ 21) :
    serializeF64 false (.nonzero negative v) =
      .ok (.integer (if negative then -(number (padded v) : Int) else number (padded v))) := by
  have written : display (.nonzero negative v) = signed negative (padded v) := by
    rw [display, plainText, if_pos long]
    rfl
  have text : integerText (signed negative (padded v)) v.magnitude =
      some (signed negative (padded v)) := by
    have plain : marked (signed negative (padded v)) = false := by
      rw [marked_signed]
      exact marked_digits (allDigits_padded v)
    exact if_pos ⟨(magnitude_lt_tenPow_iff v).mpr small, plain⟩
  have bound := number_padded_lt long small
  have range : ∀ n : Int, n = (if negative then -(number (padded v) : Int)
      else number (padded v)) → -2 ^ 127 ≤ n ∧ n < 2 ^ 127 := by
    rintro n rfl
    cases negative with
    | true => rw [if_pos rfl]; omega
    | false => rw [if_neg Bool.false_ne_true]; omega
  change (integerText (display (.nonzero negative v)) v.magnitude).elim _ writeInteger = _
  rw [written, text, Option.elim_some, writeInteger, parseI128, readInt_padded,
    Option.bind_some, if_pos (range _ rfl)]
  rfl

/-- Any other float keeps its own form. -/
theorem serializeF64_float (negative : Bool) {v : Shortest}
    (other : ¬ ((v.digits.chars.length : Int) ≤ v.point ∧ v.point ≤ 21)) :
    serializeF64 false (.nonzero negative v) = .ok (.float (.nonzero negative v)) := by
  have text : integerText (display (.nonzero negative v)) v.magnitude = none := by
    apply if_neg
    rintro ⟨small, plain⟩
    rw [display, marked_signed] at plain
    exact other ⟨(plainText_integral v).mp plain,
      (magnitude_lt_tenPow_iff v).mp small⟩
  change (integerText (display (.nonzero negative v)) v.magnitude).elim _ writeInteger = _
  rw [text]
  rfl

theorem serializeF64_zero (negative : Bool) :
    serializeF64 false (.zero negative) = .ok (.integer 0) := by
  have text : integerText (display (.zero negative)) (Float64.zero negative).magnitude =
      some (signed negative ['0']) := by
    rw [integerText, if_pos]
    · rfl
    · refine ⟨by norm_num [Float64.magnitude], ?_⟩
      cases negative <;> rfl
  change (integerText (display (.zero negative)) (Float64.zero negative).magnitude).elim _
    writeInteger = _
  rw [text]
  cases negative <;> rfl

theorem strInt_signed (negative : Bool) {n : Nat} (positive : 0 < n) :
    strInt (if negative then -(n : Int) else n) = signed negative (Nat.toDigits 10 n) := by
  cases negative with
  | true =>
      rw [if_pos rfl, strInt, if_pos (by omega), Int.natAbs_neg, Int.natAbs_natCast]
      rfl
  | false =>
      rw [if_neg Bool.false_ne_true, strInt, if_neg (by omega), Int.natAbs_natCast]
      rfl

/-! ## Main result -/

/-- The digits an integral float is written with. -/
def integerDigits : Float64 → List Char
  | .nonzero negative v => signed negative (padded v)
  | _ => ['0']

/-- A finite float is written as a map key as a script engine prints it, up to
the sign of zero, and so as Python writes it.  As a value it is written
without failing, as an integer exactly when it is one below `1e21`, and then
with its shortest digits and zeros after them. -/
theorem rust_float_text (quote : String → String) (field : String) (v : Float64)
    (finite : v.Finite) :
    (serializeF64 true v = .ok (.str (match v with
        | .zero negative => signed negative ['0']
        | v => numberToString v.binary64)) ∧
      (v ≠ .zero true →
        ∃ text, serializeF64 true v = .ok (.str text) ∧
          floatToStr quote field v.binary64 = .ok text)) ∧
    ((∃ written, serializeF64 false v = .ok written) ∧
      ((∃ n, serializeF64 false v = .ok (.integer n)) ↔
        (∃ i : Int, v.value = i) ∧ v.magnitude < 10 ^ 21) ∧
      ∀ n, serializeF64 false v = .ok (.integer n) → strInt n = integerDigits v) := by
  have key := serializeF64_key finite
  have same : floatToStr quote field v.binary64 = .ok (numberToString v.binary64) := by
    apply floatToStr_finite
    cases v <;> exact finite
  refine ⟨⟨key, fun unsigned => ?_⟩, ?_⟩
  · refine ⟨_, key, ?_⟩
    rw [same]
    cases v with
    | zero negative =>
        cases negative with
        | true => exact absurd rfl unsigned
        | false => rfl
    | _ => rfl
  · cases v with
    | nan => exact finite.elim
    | infinite negative => exact finite.elim
    | zero negative =>
        rw [serializeF64_zero]
        refine ⟨⟨_, rfl⟩, iff_of_true ⟨0, rfl⟩ ⟨⟨0, rfl⟩, ?_⟩, ?_⟩
        · norm_num [Float64.magnitude]
        · intro n written
          cases written
          rfl
    | nonzero negative v =>
        have integral : (∃ i : Int, (Float64.nonzero negative v).value = i) ↔
            (v.digits.chars.length : Int) ≤ v.point := by
          rw [integral_iff]
          cases negative with
          | false => exact Iff.rfl
          | true =>
              constructor
              · rintro ⟨i, form⟩
                refine ⟨-i, ?_⟩
                rw [Int.cast_neg, ← form, Float64.value, neg_neg]
              · rintro ⟨i, form⟩
                refine ⟨-i, ?_⟩
                rw [Int.cast_neg, ← form, Float64.value]
        rw [integral]
        by_cases both : (v.digits.chars.length : Int) ≤ v.point ∧ v.point ≤ 21
        · rw [serializeF64_integral negative both.1 both.2]
          refine ⟨⟨_, rfl⟩, iff_of_true ⟨_, rfl⟩
            ⟨both.1, (magnitude_lt_tenPow_iff v).mpr both.2⟩, ?_⟩
          intro n written
          cases written
          rw [strInt_signed negative (number_padded_pos v), toDigits_padded]
          rfl
        · rw [serializeF64_float negative both]
          refine ⟨⟨_, rfl⟩, iff_of_false ?_ ?_, ?_⟩
          · rintro ⟨n, written⟩
            cases written
          · rintro ⟨long, small⟩
            exact both ⟨long, (magnitude_lt_tenPow_iff v).mp small⟩
          · intro n written
            cases written

/-- The first magnitude that is written with an exponent. -/
def tenPow : Shortest where
  magnitude := 10 ^ (21 : Int)
  positive := by norm_num
  digits := one
  point := 22
  reads := by
    rw [value_one]
    exact reads_self isBinary64_tenPow
  fewest := fun other _ _ => other.length_pos
  closest := fun other place _ _ => by
    have same : one.value 22 = 10 ^ (21 : Int) := value_one 22
    rw [same, sub_self, abs_zero]
    exact abs_nonneg _

theorem rust_float_text_tenPow :
    serializeF64 true (.nonzero true tenPow) = .ok (.str ['-', '1', 'e', '+', '2', '1']) ∧
      floatToStr id "" (Float64.nonzero true tenPow).binary64 =
        .ok ['-', '1', 'e', '+', '2', '1'] ∧
      ¬ ∃ n, serializeF64 false (.nonzero true tenPow) = .ok (.integer n) := by
  have all := rust_float_text id "" (.nonzero true tenPow) trivial
  have key : serializeF64 true (.nonzero true tenPow) =
      .ok (.str ['-', '1', 'e', '+', '2', '1']) := all.1.1
  rcases all.1.2 (fun same => by cases same) with ⟨text, written, python⟩
  rw [key] at written
  cases written
  refine ⟨key, python, fun integer => ?_⟩
  have small : (10 : Rat) ^ (21 : Int) < 10 ^ 21 := (all.2.2.1.mp integer).2
  exact absurd small (by norm_num)

end Numbers
end CapsuleEmit
