import CapsuleEmit.Foundation.Decimal
import Mathlib.Algebra.Order.Field.Basic
import Mathlib.Algebra.Order.Field.Rat
import Mathlib.Algebra.Group.Nat.Even
import Mathlib.Tactic.IntervalCases
import Mathlib.Tactic.Linarith
import Mathlib.Tactic.NormNum

namespace CapsuleEmit
namespace Decimal

/-!
# The shortest decimal of a binary number

A decimal is read as the binary number nearest to it, and of two equally near
ones as the one with the even significand.  The shortest decimal of a binary
number is read as it, has as few digits as any that is, and is the closest of
those.  The shortest decimal lies on the same side of a power of ten as the
number, when the power of ten is one itself, and it is an integer when the
number is.
-/

/-! ## Binary numbers -/

/-- A non-negative number with a significand of 53 bits, whatever its size. -/
def Representable (q : Rat) : Prop :=
  ∃ (m : Nat) (e : Int), m < 2 ^ 53 ∧ -1074 ≤ e ∧ q = m * 2 ^ e

/-- The magnitude of a finite binary64 number. -/
def IsBinary64 (q : Rat) : Prop := Representable q ∧ q < 2 ^ 1024

/-- The significand of a number in its normal form is even. -/
def EvenSignificand (q : Rat) : Prop :=
  ∃ (m : Nat) (e : Int), m < 2 ^ 53 ∧ -1074 ≤ e ∧ (2 ^ 52 ≤ m ∨ e = -1074) ∧ Even m ∧ q = m * 2 ^ e

/-- A decimal is read as a number: none is nearer, and among equally near ones
it is the even one. -/
def Reads (d v : Rat) : Prop :=
  IsBinary64 v ∧ ∀ w, Representable w → w ≠ v →
    |d - v| < |d - w| ∨ (|d - v| = |d - w| ∧ EvenSignificand v)

theorem Reads.nearest {d v w : Rat} (reads : Reads d v) (there : Representable w) :
    |d - v| ≤ |d - w| := by
  by_cases same : w = v
  · rw [same]
  · rcases reads.2 w there same with less | ⟨tie, -⟩
    · exact le_of_lt less
    · exact le_of_eq tie

theorem reads_self {v : Rat} (binary : IsBinary64 v) : Reads v v := by
  refine ⟨binary, fun w _ other => Or.inl ?_⟩
  rw [sub_self, abs_zero, abs_pos, sub_ne_zero]
  exact other.symm

theorem representable_natCast {n : Nat} (small : n ≤ 2 ^ 53) : Representable n := by
  rcases Nat.lt_or_eq_of_le small with less | rfl
  · exact ⟨n, 0, less, by decide, by simp⟩
  · exact ⟨2 ^ 52, 1, by decide, by decide, by norm_num⟩

/-- What lies between a decimal and the number it is read as is read so too. -/
theorem Reads.between {d x v : Rat} (reads : Reads d v) (above : d < x) (below : x ≤ v) :
    Reads x v := by
  refine ⟨reads.1, fun w there other => Or.inl ?_⟩
  have near := reads.nearest there
  rw [abs_of_nonpos (by linarith)] at near ⊢
  rcases le_total w d with low | high
  · rw [abs_of_nonneg (by linarith)] at near ⊢
    linarith
  · rw [abs_of_nonpos (by linarith)] at near
    have beyond : v < w := lt_of_le_of_ne (by linarith) other.symm
    rw [abs_of_nonpos (by linarith)]
    linarith

/-! ## The size of digits -/

theorem number_cons (c : Char) (rest : List Char) :
    number (c :: rest) = number [c] * 10 ^ rest.length + number rest :=
  number_append [c] rest

theorem digit_le_nine {c : Char} (digit : c.isDigit = true) : number [c] ≤ 9 := by
  rw [Char.isDigit, Bool.and_eq_true, decide_eq_true_eq, decide_eq_true_eq] at digit
  have high : c.toNat ≤ 57 := digit.2
  have value : number [c] = c.toNat - 48 := by
    rw [number, Nat.ofDigitChars_cons, Nat.ofDigitChars_nil]
    simp
  omega

theorem digit_pos {c : Char} (digit : c.isDigit = true) (nonzero : c ≠ '0') :
    0 < number [c] := by
  rw [Char.isDigit, Bool.and_eq_true, decide_eq_true_eq, decide_eq_true_eq] at digit
  have low : 48 ≤ c.toNat := digit.1
  have value : number [c] = c.toNat - 48 := by
    rw [number, Nat.ofDigitChars_cons, Nat.ofDigitChars_nil]
    simp
  have apart : c.toNat ≠ 48 := by
    intro same
    apply nonzero
    apply Char.ext
    exact UInt32.toNat_inj.mp same
  omega

theorem number_lt {digits : List Char} (all : AllDigits digits) :
    number digits < 10 ^ digits.length := by
  induction digits with
  | nil => decide
  | cons c rest ih =>
      have first := digit_le_nine (all c List.mem_cons_self)
      have others := ih (fun d inside => all d (List.mem_cons_of_mem c inside))
      have room := Nat.mul_le_mul_right (10 ^ rest.length) first
      rw [number_cons, List.length_cons, Nat.pow_succ]
      omega

theorem pow_le_number {c : Char} {rest : List Char} (digit : c.isDigit = true)
    (nonzero : c ≠ '0') : 10 ^ rest.length ≤ number (c :: rest) := by
  have room := Nat.mul_le_mul_right (10 ^ rest.length) (digit_pos digit nonzero)
  rw [number_cons]
  omega

theorem Digits.number_lt (digits : Digits) :
    number digits.chars < 10 ^ digits.chars.length :=
  Decimal.number_lt digits.digit

theorem Digits.pow_le_number (digits : Digits) :
    10 ^ (digits.chars.length - 1) ≤ number digits.chars := by
  cases text : digits.chars with
  | nil => exact absurd text digits.some
  | cons c rest =>
      have nonzero : c ≠ '0' := by
        rintro rfl
        apply digits.head
        rw [text]
        rfl
      exact Decimal.pow_le_number (digits.digit c (text ▸ List.mem_cons_self)) nonzero

theorem Digits.value_lt (digits : Digits) (point : Int) : digits.value point < 10 ^ point := by
  have small : (number digits.chars : Rat) < 10 ^ digits.chars.length := by
    exact_mod_cast digits.number_lt
  have split : (10 : Rat) ^ point =
      10 ^ digits.chars.length * 10 ^ (point - digits.chars.length) := by
    rw [← zpow_natCast, ← zpow_add₀ (by norm_num)]
    congr 1
    omega
  rw [Digits.value, split]
  exact mul_lt_mul_of_pos_right small (zpow_pos (by norm_num) _)

theorem Digits.le_value (digits : Digits) (point : Int) :
    10 ^ (point - 1) ≤ digits.value point := by
  have large : (10 : Rat) ^ (digits.chars.length - 1) ≤ number digits.chars := by
    exact_mod_cast digits.pow_le_number
  have long := digits.length_pos
  have split : (10 : Rat) ^ (point - 1) =
      10 ^ (digits.chars.length - 1) * 10 ^ (point - digits.chars.length) := by
    rw [← zpow_natCast, ← zpow_add₀ (by norm_num)]
    congr 1
    omega
  rw [Digits.value, split]
  exact mul_le_mul_of_nonneg_right large (zpow_nonneg (by norm_num) _)

/-- The digits of a number that starts with none but a significant one. -/
theorem toDigits_number {digits : List Char} (all : AllDigits digits) (some : digits ≠ [])
    (head : digits.head? ≠ Option.some '0') : Nat.toDigits 10 (number digits) = digits := by
  have single : ∀ c : Char, c.isDigit = true → Nat.toDigits 10 (number [c]) = [c] := by
    intro c digit
    have small := digit_le_nine digit
    rw [Nat.toDigits_of_lt_base (by omega)]
    rw [Char.isDigit, Bool.and_eq_true, decide_eq_true_eq, decide_eq_true_eq] at digit
    have low : 48 ≤ c.toNat := digit.1
    have high : c.toNat ≤ 57 := digit.2
    have value : number [c] = c.toNat - 48 := by
      rw [number, Nat.ofDigitChars_cons, Nat.ofDigitChars_nil]
      simp
    have named : ∀ n, n < 10 → (Nat.digitChar n).toNat = n + 48 := by decide
    congr 1
    apply Char.ext
    apply UInt32.toNat_inj.mp
    have same := named (number [c]) (by omega)
    rw [value, Nat.sub_add_cancel low] at same
    rw [value]
    exact same
  induction digits using List.reverseRecOn with
  | nil => exact absurd rfl some
  | append_singleton front c ih =>
      have last := all c (List.mem_append_right front List.mem_cons_self)
      cases front with
      | nil => exact single c last
      | cons d rest =>
          have digit := all d (List.mem_append_left [c] List.mem_cons_self)
          have nonzero : d ≠ '0' := by
            rintro rfl
            exact head rfl
          have before := ih (fun e inside => all e (List.mem_append_left [c] inside))
            (List.cons_ne_nil d rest) (by simpa using nonzero)
          have positive : 0 < number (d :: rest) :=
            Nat.lt_of_lt_of_le (Nat.pow_pos (by decide)) (pow_le_number digit nonzero)
          have small := digit_le_nine last
          rw [number_append, List.length_singleton, Nat.pow_one, Nat.mul_comm,
            ← Nat.toDigits_append_toDigits (by decide) positive (by omega), before,
            single c last]

/-- A power of ten has one digit. -/
def one : Digits := ⟨['1'], by decide, by decide, by decide, by decide⟩

theorem value_one (point : Int) : one.value point = 10 ^ (point - 1) := by
  have number : number one.chars = 1 := rfl
  rw [Digits.value, number, Nat.cast_one, one_mul]
  rfl

/-! ## One millionth -/

/-- The binary number that one millionth is read as; it is a little smaller. -/
def millionth : Rat := 4722366482869645 / 2 ^ 72

theorem millionth_lt : millionth < 10 ^ (-6 : Int) := by
  norm_num [millionth]

/-- The binary numbers next to that of one millionth are far from it. -/
theorem millionth_gap {w : Rat} (there : Representable w) (above : millionth < w) :
    millionth + 1 / 2 ^ 72 ≤ w := by
  rcases there with ⟨m, e, small, -, rfl⟩
  by_cases coarse : -72 ≤ e
  · have whole : (m : Rat) * 2 ^ e = (m * 2 ^ (e + 72).toNat : Nat) / 2 ^ 72 := by
      have power : (2 : Rat) ^ e = 2 ^ (e + 72).toNat / 2 ^ 72 := by
        rw [← zpow_natCast, Int.toNat_of_nonneg (by omega), zpow_add₀ (by norm_num)]
        norm_num
      rw [power, Nat.cast_mul, Nat.cast_pow]
      ring
    rw [whole, millionth, div_lt_div_iff_of_pos_right (by norm_num)] at above
    have next : 4722366482869645 + 1 ≤ m * 2 ^ (e + 72).toNat := by exact_mod_cast above
    have cast : (4722366482869645 : Rat) + 1 ≤ (m * 2 ^ (e + 72).toNat : Nat) := by
      exact_mod_cast next
    rw [whole, millionth, ← add_div, div_le_div_iff_of_pos_right (by norm_num)]
    exact cast
  · have power : (2 : Rat) ^ e ≤ 2 ^ (-73 : Int) := zpow_le_zpow_right₀ (by norm_num) (by omega)
    have bound : (m : Rat) ≤ 2 ^ 53 := by exact_mod_cast le_of_lt small
    have product : (m : Rat) * 2 ^ e ≤ 2 ^ 53 * 2 ^ (-73 : Int) :=
      mul_le_mul bound power (zpow_nonneg (by norm_num) _) (by norm_num)
    have less : (2 : Rat) ^ 53 * 2 ^ (-73 : Int) < millionth := by norm_num [millionth]
    linarith

/-- One millionth is closer to its binary number than to any larger one. -/
theorem millionth_near {w : Rat} (there : Representable w) (above : millionth < w) :
    10 ^ (-6 : Int) - millionth < w - 10 ^ (-6 : Int) := by
  have gap := millionth_gap there above
  have room : 10 ^ (-6 : Int) + 10 ^ (-6 : Int) - millionth < millionth + 1 / 2 ^ 72 := by
    norm_num [millionth]
  have beyond := lt_of_lt_of_le room gap
  linarith

theorem isBinary64_millionth : IsBinary64 millionth := by
  refine ⟨⟨4722366482869645, -72, by norm_num, by decide, ?_⟩, ?_⟩
  · norm_num [millionth]
  · exact lt_trans millionth_lt (lt_of_lt_of_le (b := 1) (by norm_num)
      (one_le_pow₀ (by norm_num)))

theorem reads_millionth : Reads (10 ^ (-6 : Int)) millionth := by
  have less := millionth_lt
  refine ⟨isBinary64_millionth, fun w there other => Or.inl ?_⟩
  rw [abs_of_pos (by linarith)]
  rcases lt_or_gt_of_ne other with below | above
  · rw [abs_of_pos (by linarith)]
    linarith
  · have near := millionth_near there above
    rw [abs_of_neg (by linarith)]
    linarith

/-! ## The shortest decimal -/

/-- A binary64 magnitude other than zero, with its shortest decimal. -/
structure Shortest where
  magnitude : Rat
  positive : 0 < magnitude
  digits : Digits
  point : Int
  reads : Reads (digits.value point) magnitude
  fewest : ∀ (other : Digits) (place : Int), Reads (other.value place) magnitude →
    digits.chars.length ≤ other.chars.length
  closest : ∀ (other : Digits) (place : Int), Reads (other.value place) magnitude →
    other.chars.length = digits.chars.length →
      |digits.value point - magnitude| ≤ |other.value place - magnitude|

namespace Shortest

variable (v : Shortest)

/-- The decimal itself. -/
def decimal : Rat := v.digits.value v.point

/-- Where a power of ten is read as the number, the decimal has one digit and
is as close as the power of ten. -/
theorem of_pow_reads {p : Int} (reads : Reads (10 ^ p) v.magnitude) :
    v.digits.chars.length = 1 ∧ |v.decimal - v.magnitude| ≤ |10 ^ p - v.magnitude| := by
  have value : one.value (p + 1) = 10 ^ p := by
    rw [value_one, add_sub_cancel_right]
  have few := v.fewest one (p + 1) (by rwa [value])
  have long := v.digits.length_pos
  have single : v.digits.chars.length = 1 := Nat.le_antisymm few long
  refine ⟨single, ?_⟩
  have close := v.closest one (p + 1) (by rwa [value]) single.symm
  rwa [value] at close

/-- A power of ten that is a binary number separates the magnitude and its
decimal alike. -/
theorem magnitude_lt_iff {p : Int} (binary : IsBinary64 (10 ^ p)) :
    v.magnitude < 10 ^ p ↔ v.point ≤ p := by
  have near := v.reads.nearest binary.1
  constructor
  · intro less
    by_contra beyond
    have step : (10 : Rat) ^ p ≤ 10 ^ (v.point - 1) :=
      zpow_le_zpow_right₀ (by norm_num) (by omega)
    have above := v.digits.le_value v.point
    rw [abs_of_nonneg (by linarith), abs_of_nonneg (by linarith)] at near
    linarith
  · intro within
    have step : (10 : Rat) ^ v.point ≤ 10 ^ p := zpow_le_zpow_right₀ (by norm_num) within
    have below := v.digits.value_lt v.point
    by_contra reached
    rcases eq_or_lt_of_le (not_lt.mp reached) with same | beyond
    · have self : Reads (10 ^ p) v.magnitude := by
        rw [← same]
        exact reads_self binary
      have close := (v.of_pow_reads self).2
      rw [same, sub_self, abs_zero, abs_nonpos_iff, sub_eq_zero, decimal] at close
      linarith
    · rw [abs_of_nonpos (by linarith), abs_of_nonpos (by linarith)] at near
      linarith

/-- The binary number of one millionth separates the magnitudes as one
millionth separates their decimals. -/
theorem millionth_le_iff : millionth ≤ v.magnitude ↔ -5 ≤ v.point := by
  have near := v.reads.nearest isBinary64_millionth.1
  have less := millionth_lt
  constructor
  · intro reached
    by_contra small
    have step : (10 : Rat) ^ v.point ≤ 10 ^ (-6 : Int) :=
      zpow_le_zpow_right₀ (by norm_num) (by omega)
    have below := v.digits.value_lt v.point
    rcases eq_or_lt_of_le reached with same | beyond
    · -- The decimal would have one digit and be as close as one millionth.
      have single := v.of_pow_reads (p := -6) (by rw [← same]; exact reads_millionth)
      have ninth : v.decimal ≤ 9 * 10 ^ (-7 : Int) := by
        have few : number v.digits.chars ≤ 9 := by
          have bound := v.digits.number_lt
          rw [single.1] at bound
          omega
        have cast : (number v.digits.chars : Rat) ≤ 9 := by exact_mod_cast few
        have power : (10 : Rat) ^ (v.point - 1) ≤ 10 ^ (-7 : Int) :=
          zpow_le_zpow_right₀ (by norm_num) (by omega)
        rw [decimal, Digits.value, single.1]
        exact mul_le_mul cast power (zpow_nonneg (by norm_num) _) (by norm_num)
      have far : (9 : Rat) * 10 ^ (-7 : Int) < millionth - (10 ^ (-6 : Int) - millionth) := by
        norm_num [millionth]
      have close := single.2
      rw [← same, abs_of_neg (by linarith), abs_of_pos (by linarith)] at close
      linarith
    · have gap := millionth_near v.reads.1.1 beyond
      rw [abs_of_neg (by linarith)] at near
      rcases le_total millionth (v.digits.value v.point) with high | low
      · rw [abs_of_nonneg (by linarith)] at near
        linarith
      · rw [abs_of_nonpos (by linarith)] at near
        linarith
  · intro within
    by_contra reached
    have step : (10 : Rat) ^ (-6 : Int) ≤ 10 ^ (v.point - 1) :=
      zpow_le_zpow_right₀ (by norm_num) (by omega)
    have above := v.digits.le_value v.point
    rw [not_le] at reached
    rw [abs_of_nonneg (by linarith), abs_of_nonneg (by linarith)] at near
    linarith

/-! ### Integers -/

theorem head_toDigits {i : Nat} (positive : 0 < i) : (Nat.toDigits 10 i).head? ≠ some '0' := by
  induction i using Nat.strong_induction_on with
  | _ i ih =>
      by_cases single : i < 10
      · rw [Nat.toDigits_of_lt_base single]
        interval_cases i <;> decide
      · rw [Nat.toDigits_of_base_le (by decide) (by omega),
          List.head?_append_of_ne_nil _ Nat.toDigits_ne_nil]
        exact ih (i / 10) (by omega) (by omega)

theorem last_toDigits {i : Nat} (round : i % 10 ≠ 0) :
    (Nat.toDigits 10 i).getLast? ≠ some '0' := by
  have last : ∀ d, d < 10 → d ≠ 0 → Nat.digitChar d ≠ '0' := by decide
  by_cases single : i < 10
  · rw [Nat.toDigits_of_lt_base single, List.getLast?_singleton, ne_eq, Option.some_inj]
    exact last i single (by omega)
  · rw [Nat.toDigits_of_base_le (by decide) (by omega), List.getLast?_concat, ne_eq,
      Option.some_inj]
    exact last _ (Nat.mod_lt _ (by decide)) round

/-- The digits of a positive integer, with no more of them than its size. -/
theorem exists_digits {i : Nat} (positive : 0 < i) : ∃ (digits : Digits) (place : Nat),
    digits.value place = i ∧ digits.chars.length ≤ place := by
  induction i using Nat.strong_induction_on with
  | _ i ih =>
      by_cases round : i % 10 = 0
      · rcases ih (i / 10) (by omega) (by omega) with ⟨digits, place, value, long⟩
        refine ⟨digits, place + 1, ?_, by omega⟩
        have tenfold : i = i / 10 * 10 := by omega
        have power : (10 : Rat) ^ (((place + 1 : Nat) : Int) - digits.chars.length) =
            10 ^ ((place : Int) - digits.chars.length) * 10 := by
          rw [← zpow_add_one₀ (by norm_num)]
          congr 1
          push_cast
          ring
        rw [Digits.value, power, ← mul_assoc]
        rw [Digits.value] at value
        rw [value]
        exact_mod_cast tenfold.symm
      · refine ⟨⟨Nat.toDigits 10 i, allDigits_toDigits i, Nat.toDigits_ne_nil, ?_, ?_⟩,
          (Nat.toDigits 10 i).length, ?_, le_refl _⟩
        · exact head_toDigits positive
        · exact last_toDigits round
        · rw [Digits.value, sub_self, zpow_zero, mul_one, number_toDigits]

/-- The decimal of an integer is an integer. -/
theorem length_le_point_of_natCast {i : Nat} (whole : v.magnitude = i) :
    (v.digits.chars.length : Int) ≤ v.point := by
  have positive : 0 < i := by
    have some := v.positive
    rw [whole] at some
    exact_mod_cast some
  rcases exists_digits positive with ⟨digits, place, value, long⟩
  have self : Reads (digits.value place) v.magnitude := by
    rw [value, ← whole]
    exact reads_self v.reads.1
  have few := v.fewest digits place self
  by_contra short
  -- A power of ten between the decimal and the integer would be closer.
  have lower : (10 : Rat) ^ v.point ≤ 10 ^ ((place : Int) - 1) :=
    zpow_le_zpow_right₀ (by norm_num) (by omega)
  have below := v.digits.value_lt v.point
  have above := digits.le_value place
  rw [value, ← whole] at above
  have power : Reads (10 ^ ((place : Int) - 1)) v.magnitude :=
    v.reads.between (lt_of_lt_of_le below lower) above
  have close := (v.of_pow_reads power).2
  rw [decimal, abs_of_nonpos (by linarith), abs_of_nonpos (by linarith)] at close
  linarith

/-- A number whose decimal is an integer is one. -/
theorem exists_natCast_of_length_le_point (whole : (v.digits.chars.length : Int) ≤ v.point) :
    ∃ i : Nat, v.magnitude = i := by
  have value : v.digits.value v.point =
      (number v.digits.chars * 10 ^ (v.point - v.digits.chars.length).toNat : Nat) := by
    rw [Digits.value, Nat.cast_mul, Nat.cast_pow, ← zpow_natCast, Int.toNat_of_nonneg (by omega)]
    rfl
  rcases v.reads.1.1 with ⟨m, e, small, -, form⟩
  by_cases integral : 0 ≤ e
  · refine ⟨m * 2 ^ e.toNat, ?_⟩
    rw [form, Nat.cast_mul, Nat.cast_pow, ← zpow_natCast, Int.toNat_of_nonneg integral]
    rfl
  · have power : (2 : Rat) ^ e ≤ 2 ^ (-1 : Int) := zpow_le_zpow_right₀ (by norm_num) (by omega)
    have bound : (m : Rat) < 2 ^ 53 := by exact_mod_cast small
    have below : v.magnitude < 2 ^ 53 := by
      calc
        v.magnitude = m * 2 ^ e := form
        _ ≤ m * 2 ^ (-1 : Int) := mul_le_mul_of_nonneg_left power (Nat.cast_nonneg m)
        _ ≤ m := by
            have half : (2 : Rat) ^ (-1 : Int) ≤ 1 := by norm_num
            exact mul_le_of_le_one_right (Nat.cast_nonneg m) half
        _ < 2 ^ 53 := bound
    generalize number v.digits.chars * 10 ^ (v.point - v.digits.chars.length).toNat = n at value
    rcases Nat.lt_or_ge n (2 ^ 53) with less | more
    · have near := v.reads.nearest (representable_natCast (Nat.le_of_lt less))
      rw [value, sub_self, abs_zero, abs_nonpos_iff, sub_eq_zero] at near
      exact ⟨n, near.symm⟩
    · have near := v.reads.nearest (representable_natCast (le_refl (2 ^ 53)))
      have cast : (2 : Rat) ^ 53 ≤ n := by exact_mod_cast more
      push_cast at near
      rw [value, abs_of_nonneg (by linarith), abs_of_nonneg (by linarith)] at near
      linarith

end Shortest

end Decimal
end CapsuleEmit
