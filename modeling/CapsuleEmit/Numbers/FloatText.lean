import CapsuleEmit.Foundation.Decimal

namespace CapsuleEmit
namespace Numbers

/-!
# The text of a float

A finite float other than zero is given by the shortest digits that read back as it
and the place of their point.  `repr` writes these in its own layout; `float_to_str`
takes the digits and the point out of that text and lays them out as a script engine
prints a number.
-/

open Decimal

inductive Binary64 where
  | nan
  | infinite (negative : Bool)
  | zero (negative : Bool)
  | nonzero (negative : Bool) (digits : Digits) (point : Int)

def Binary64.Finite : Binary64 → Prop
  | nan => False
  | infinite _ => False
  | zero _ => True
  | nonzero _ _ _ => True

instance : DecidablePred Binary64.Finite
  | .nan => .isFalse id
  | .infinite _ => .isFalse id
  | .zero _ => .isTrue trivial
  | .nonzero _ _ _ => .isTrue trivial

/-- The number a finite float is. -/
def Binary64.value : Binary64 → Rat
  | nonzero true digits point => -digits.value point
  | nonzero false digits point => digits.value point
  | _ => 0

/-! ## The layout of a script engine -/

/-- The digits before and after the point, and the exponent if there is one. -/
structure Layout where
  whole : List Char
  fraction : List Char
  exponent : Option Int

def Layout.text (layout : Layout) : List Char :=
  mantissa layout.whole layout.fraction ++
    (match layout.exponent with
      | none => []
      | some e => 'e' :: (if e < 0 then '-' else '+') :: Nat.toDigits 10 e.natAbs)

/-- Number::toString for the digits `s` and the place `n` of their point: no exponent
for `n` from -5 to 21. -/
def numberLayout (s : List Char) (n : Int) : Layout :=
  if -5 ≤ n ∧ n ≤ 21 then
    if s.length ≤ n then ⟨s ++ zeros (n - s.length).toNat, [], none⟩
    else if 0 < n then ⟨s.take n.toNat, s.drop n.toNat, none⟩
    else ⟨['0'], zeros (-n).toNat ++ s, none⟩
  else ⟨s.take 1, s.drop 1, some (n - 1)⟩

/-- Number::toString: the text a script engine prints. -/
def numberToString : Binary64 → List Char
  | .nan => ['N', 'a', 'N']
  | .infinite false => ['I', 'n', 'f', 'i', 'n', 'i', 't', 'y']
  | .infinite true => ['-', 'I', 'n', 'f', 'i', 'n', 'i', 't', 'y']
  | .zero _ => ['0']
  | .nonzero false digits point => (numberLayout digits.chars point).text
  | .nonzero true digits point => '-' :: (numberLayout digits.chars point).text

/-! ## The layout of `repr` -/

/-- An exponent with its sign and at least two digits. -/
def reprExponent (e : Int) : List Char :=
  (if e < 0 then '-' else '+') ::
    (if e.natAbs < 10 then '0' :: Nat.toDigits 10 e.natAbs else Nat.toDigits 10 e.natAbs)

/-- `repr(v)` of a positive float: no exponent for a point from -3 to 16. -/
def repr (digits : List Char) (point : Int) : List Char :=
  if -4 < point ∧ point ≤ 16 then
    if point ≤ 0 then '0' :: '.' :: (zeros (-point).toNat ++ digits)
    else if digits.length ≤ point then
      digits ++ zeros (point - digits.length).toNat ++ ['.', '0']
    else digits.take point.toNat ++ '.' :: digits.drop point.toNat
  else mantissa (digits.take 1) (digits.drop 1) ++ 'e' :: reprExponent (point - 1)

/-! ## The function -/

/-- The digits of a text with its point taken out, and where the point was. -/
def splitPoint (text : List Char) : List Char × Nat :=
  if '.' ∈ text then (text.take (text.idxOf '.') ++ text.drop (text.idxOf '.' + 1), text.idxOf '.')
  else (text, text.length)

/-- Take the digits and the place of the point out of a text of `repr`. -/
def parseRepr (r : List Char) : Option (List Char × Int) :=
  if 'e' ∈ r then
    (readInt ((r.dropWhile (· ≠ 'e')).drop 1)).map (fun nAdj =>
      let found := splitPoint (r.takeWhile (· ≠ 'e'))
      (found.1, nAdj + found.2))
  else some ((splitPoint r).1, (splitPoint r).2)

/-- `str(exp)` -/
def strInt (exp : Int) : List Char :=
  if exp < 0 then '-' :: Nat.toDigits 10 exp.natAbs else Nat.toDigits 10 exp.natAbs

/-- What stops a conversion: a float without a text, or a text that is no number. -/
inductive ConversionError where
  | floatInDigest (message : String)
  | value
deriving DecidableEq, Repr

section

variable (quote : String → String)

/-- The field named at the end of an error, in quotes. -/
def hint (field : String) : String :=
  if field = "" then "" else " (field: " ++ quote field ++ ")"

/-- `float_to_str(v, field=field)` -/
def floatToStr (field : String) : Binary64 → Except ConversionError (List Char)
  | .zero _ => .ok ['0']
  | .nan => .error (.floatInDigest ("NaN cannot appear in a digest-bearing field" ++
      hint quote field ++ "; represent absent measurements as absent fields"))
  | .infinite _ => .error (.floatInDigest
      ("Infinity cannot appear in a digest-bearing field" ++ hint quote field))
  | .nonzero negative shortest point =>
      match parseRepr (repr shortest.chars point) with
      | none => .error .value
      | some (found, place) =>
          let right := found.rdropWhile (· = '0')
          let before := right.length
          let digits := right.dropWhile (· = '0')
          let n : Int := place - (before - digits.length : Nat)
          if digits = [] then .ok ['0']
          else
            let k := digits.length
            let exp := n - 1
            let exponent := if 0 ≤ exp then ['e', '+'] ++ strInt exp else 'e' :: strInt exp
            let body :=
              if k ≤ n ∧ n ≤ 21 then digits ++ zeros (n - k).toNat
              else if 0 < n ∧ n ≤ 21 then digits.take n.toNat ++ '.' :: digits.drop n.toNat
              else if -6 < n ∧ n ≤ 0 then ['0', '.'] ++ zeros (-n).toNat ++ digits
              else if k = 1 then digits.take 1 ++ exponent
              else digits.take 1 ++ '.' :: (digits.drop 1 ++ exponent)
            .ok (if negative then '-' :: body else body)

end

/-! ## What `repr` wrote is read back -/

theorem splitPoint_pointed {whole : List Char} (digits : AllDigits whole) (fraction : List Char) :
    splitPoint (whole ++ '.' :: fraction) = (whole ++ fraction, whole.length) := by
  have absent : '.' ∉ whole := digits.notMem rfl
  have place : (whole ++ '.' :: fraction).idxOf '.' = whole.length := by
    rw [List.idxOf_append_of_notMem absent, List.idxOf_cons_self, Nat.add_zero]
  have after : (whole ++ '.' :: fraction).drop (whole.length + 1) = fraction := by
    rw [← List.drop_drop, List.drop_left]
    rfl
  rw [splitPoint, if_pos (by simp), place, after, List.take_left]

theorem splitPoint_digits {whole : List Char} (digits : AllDigits whole) :
    splitPoint whole = (whole, whole.length) :=
  if_neg (digits.notMem rfl)

theorem splitPoint_mantissa {whole fraction : List Char}
    (digits : AllDigits (whole ++ fraction)) :
    splitPoint (mantissa whole fraction) = (whole ++ fraction, whole.length) := by
  have left := (allDigits_append.mp digits).1
  unfold mantissa
  split
  · next empty => rw [splitPoint_digits left, empty, List.append_nil]
  · exact splitPoint_pointed left fraction

theorem readInt_signed {n : Nat} {digits : List Char} (some : digits ≠ [])
    (all : AllDigits digits) (value : number digits = n) (e : Int) (size : e.natAbs = n) :
    readInt ((if e < 0 then '-' else '+') :: digits) = Option.some e := by
  split
  · rw [readInt, if_pos ⟨some, all⟩, value]
    simp only [Option.some.injEq]
    omega
  · rw [readInt, if_pos ⟨some, all⟩, value]
    simp only [Option.some.injEq]
    omega

theorem readInt_reprExponent (e : Int) : readInt (reprExponent e) = some e := by
  have all := allDigits_toDigits e.natAbs
  refine readInt_signed ?_ ?_ ?_ e rfl
  · split
    · exact List.cons_ne_nil _ _
    · exact Nat.toDigits_ne_nil
  · split
    · intro c member
      rcases List.mem_cons.mp member with rfl | inside
      · rfl
      · exact all c inside
    · exact all
  · split
    · exact number_toDigits e.natAbs
    · exact number_toDigits e.natAbs

theorem parseRepr_plain {whole fraction : List Char} (digits : AllDigits (whole ++ fraction)) :
    parseRepr (whole ++ '.' :: fraction) = some (whole ++ fraction, (whole.length : Int)) := by
  rcases allDigits_append.mp digits with ⟨left, right⟩
  have noLetter : 'e' ∉ whole ++ '.' :: fraction := by
    have first : 'e' ∉ whole := left.notMem rfl
    have last : 'e' ∉ fraction := right.notMem rfl
    simp [first, last]
  rw [parseRepr, if_neg noLetter, splitPoint_pointed left]

theorem parseRepr_exponent {whole fraction : List Char} (digits : AllDigits (whole ++ fraction))
    (e : Int) : parseRepr (mantissa whole fraction ++ 'e' :: reprExponent e) =
      some (whole ++ fraction, e + whole.length) := by
  have plain := mantissa_ne digits
  unfold parseRepr
  rw [if_pos (by simp), dropWhile_before (c := 'e') plain rfl,
    takeWhile_before (c := 'e') plain rfl, splitPoint_mantissa digits, List.drop_succ_cons,
    List.drop_zero, readInt_reprExponent]
  rfl

/-- The digits read from `repr`, with zeros around them, and their point. -/
theorem parseRepr_repr (digits : Digits) (point : Int) : ∃ a b : Nat,
    parseRepr (repr digits.chars point) =
      some (zeros a ++ (digits.chars ++ zeros b), point + a) := by
  have all := digits.digit
  have long := digits.length_pos
  unfold repr
  split
  · split
    · next small =>
        refine ⟨(-point).toNat + 1, 0, ?_⟩
        have written : AllDigits (['0'] ++ (zeros (-point).toNat ++ digits.chars)) :=
          allDigits_append.mpr ⟨by decide, allDigits_append.mpr ⟨allDigits_zeros _, all⟩⟩
        have read := parseRepr_plain written
        have place : point + ((-point).toNat + 1 : Nat) = 1 := by omega
        have more : zeros ((-point).toNat + 1) = '0' :: zeros (-point).toNat := rfl
        have none : zeros 0 = [] := rfl
        rw [place, more, none, List.append_nil]
        exact read
    · next big =>
        split
        · next whole =>
            refine ⟨0, (point - digits.chars.length).toNat + 1, ?_⟩
            have written : AllDigits ((digits.chars ++
                zeros (point - digits.chars.length).toNat) ++ ['0']) :=
              allDigits_append.mpr ⟨allDigits_append.mpr ⟨all, allDigits_zeros _⟩, by decide⟩
            have read := parseRepr_plain written
            have length : ((digits.chars ++
                zeros (point - digits.chars.length).toNat).length : Int) = point + (0 : Nat) := by
              rw [List.length_append, zeros, List.length_replicate]
              omega
            have more : zeros ((point - digits.chars.length).toNat + 1) =
                zeros (point - digits.chars.length).toNat ++ ['0'] := List.replicate_succ'
            have none : zeros 0 = [] := rfl
            rw [more, none, List.nil_append, ← List.append_assoc, ← length]
            exact read
        · next part =>
            refine ⟨0, 0, ?_⟩
            have written : AllDigits
                (digits.chars.take point.toNat ++ digits.chars.drop point.toNat) := by
              rw [List.take_append_drop]
              exact all
            have read := parseRepr_plain written
            have length : ((digits.chars.take point.toNat).length : Int) = point + (0 : Nat) := by
              rw [List.length_take]
              omega
            have none : zeros 0 = [] := rfl
            rw [none, List.append_nil, ← length]
            rw [List.take_append_drop] at read
            exact read
  · refine ⟨0, 0, ?_⟩
    have written : AllDigits (digits.chars.take 1 ++ digits.chars.drop 1) := by
      rw [List.take_append_drop]
      exact all
    have read := parseRepr_exponent written (point - 1)
    have length : (point - 1) + ((digits.chars.take 1).length : Int) = point + (0 : Nat) := by
      rw [List.length_take]
      omega
    have none : zeros 0 = [] := rfl
    rw [none, List.append_nil, ← length]
    rw [List.take_append_drop] at read
    exact read

/-! ## The two layouts -/

theorem exponent_eq (e : Int) :
    (if 0 ≤ e then ['e', '+'] ++ strInt e else 'e' :: strInt e) =
      'e' :: (if e < 0 then '-' else '+') :: Nat.toDigits 10 e.natAbs := by
  unfold strInt
  by_cases negative : e < 0
  · rw [if_neg (Int.not_le.mpr negative), if_pos negative, if_pos negative]
  · rw [if_pos (Int.not_lt.mp negative), if_neg negative, if_neg negative]
    rfl

theorem body_eq {s : List Char} (some : s ≠ []) (n : Int) :
    (if (s.length : Int) ≤ n ∧ n ≤ 21 then s ++ zeros (n - s.length).toNat
      else if 0 < n ∧ n ≤ 21 then s.take n.toNat ++ '.' :: s.drop n.toNat
      else if -6 < n ∧ n ≤ 0 then ['0', '.'] ++ zeros (-n).toNat ++ s
      else if s.length = 1 then
        s.take 1 ++ (if 0 ≤ n - 1 then ['e', '+'] ++ strInt (n - 1) else 'e' :: strInt (n - 1))
      else s.take 1 ++ '.' :: (s.drop 1 ++
        (if 0 ≤ n - 1 then ['e', '+'] ++ strInt (n - 1) else 'e' :: strInt (n - 1)))) =
      (numberLayout s n).text := by
  have long : 0 < s.length := List.length_pos_iff.mpr some
  rw [exponent_eq]
  unfold numberLayout
  by_cases plain : -5 ≤ n ∧ n ≤ 21
  · rw [if_pos plain]
    by_cases whole : (s.length : Int) ≤ n
    · rw [if_pos ⟨whole, plain.2⟩, if_pos whole]
      simp [Layout.text, mantissa]
    · rw [if_neg (fun both => whole both.1), if_neg whole]
      by_cases part : 0 < n
      · have rest : s.drop n.toNat ≠ [] := by
          rw [ne_eq, List.drop_eq_nil_iff]
          omega
        rw [if_pos ⟨part, plain.2⟩, if_pos part]
        simp [Layout.text, mantissa, rest]
      · rw [if_neg (fun both => part both.1), if_neg part, if_pos (by omega)]
        simp [Layout.text, mantissa, some]
  · rw [if_neg plain, if_neg (by omega), if_neg (by omega), if_neg (by omega)]
    by_cases one : s.length = 1
    · have rest : s.drop 1 = [] := by
        rw [List.drop_eq_nil_iff]
        omega
      rw [if_pos one]
      simp [Layout.text, mantissa, rest]
    · have rest : s.drop 1 ≠ [] := by
        rw [ne_eq, List.drop_eq_nil_iff]
        omega
      rw [if_neg one]
      simp only [Layout.text, mantissa, if_neg rest, List.append_assoc, List.cons_append]

/-- `float_to_str` lays a finite float out as a script engine does. -/
theorem floatToStr_finite (quote : String → String) (field : String) {v : Binary64}
    (finite : v.Finite) : floatToStr quote field v = .ok (numberToString v) := by
  cases v with
  | nan => exact finite.elim
  | infinite negative => exact finite.elim
  | zero negative => rfl
  | nonzero negative digits point =>
      rcases parseRepr_repr digits point with ⟨a, b, read⟩
      have long := digits.length_pos
      have place : point + (a : Int) - ((zeros a ++ digits.chars).length -
          digits.chars.length : Nat) = point := by
        rw [List.length_append, zeros, List.length_replicate]
        omega
      simp only [floatToStr, read, digits.rstrip, digits.lstrip, place]
      rw [if_neg digits.some, body_eq digits.some]
      cases negative with
      | true => rfl
      | false => rfl

/-! ## The text denotes the number -/

theorem zpow_shift (number : Nat) (b : Nat) (e : Int) :
    ((number * 10 ^ b : Nat) : Rat) * 10 ^ e = number * 10 ^ (e + b) := by
  rw [Nat.cast_mul, Nat.cast_pow, mul_assoc, zpow_add₀ (by decide), mul_comm ((10 : Rat) ^ e),
    zpow_natCast]
  rfl

/-- A text laid out without an exponent, or with one, denotes its number. -/
theorem readUnsigned_text (layout : Layout) (some : layout.whole ≠ [])
    (digits : AllDigits (layout.whole ++ layout.fraction)) :
    readUnsigned layout.text = Option.some ((number (layout.whole ++ layout.fraction) : Rat) *
      10 ^ (layout.exponent.getD 0 - layout.fraction.length)) := by
  rcases layout with ⟨whole, fraction, exponent⟩
  cases exponent with
  | none =>
      rw [Layout.text, List.append_nil, readUnsigned_mantissa some digits]
      simp
  | some e =>
      have signed := readInt_signed (e := e) Nat.toDigits_ne_nil (allDigits_toDigits e.natAbs)
        (number_toDigits e.natAbs) rfl
      exact readUnsigned_exponent some digits signed

theorem value_padded (digits : Digits) {a b : Nat} {e point : Int}
    (place : e + b = point - digits.chars.length) :
    (number (zeros a ++ (digits.chars ++ zeros b)) : Rat) * 10 ^ e = digits.value point := by
  rw [number_padded, zpow_shift, place]
  rfl

/-- The digits of a layout are the significant ones, with zeros around them. -/
theorem numberLayout_padded (digits : Digits) (point : Int) : ∃ a b : Nat,
    (numberLayout digits.chars point).whole ++ (numberLayout digits.chars point).fraction =
        zeros a ++ (digits.chars ++ zeros b) ∧
      (numberLayout digits.chars point).whole ≠ [] ∧
      (numberLayout digits.chars point).exponent.getD 0 -
        (numberLayout digits.chars point).fraction.length + b =
          point - digits.chars.length := by
  have long := digits.length_pos
  have none : zeros 0 = [] := rfl
  unfold numberLayout
  split
  · split
    · next whole =>
        refine ⟨0, (point - digits.chars.length).toNat, ?_, by simp [digits.some], ?_⟩
        · rw [none, List.append_nil, List.nil_append]
        · simp only [Option.getD_none, List.length_nil]
          omega
    · split
      · next part =>
          refine ⟨0, 0, ?_, ?_, ?_⟩
          · rw [none, List.append_nil, List.nil_append, List.take_append_drop]
          · rw [ne_eq, List.take_eq_nil_iff]
            exact not_or.mpr ⟨by omega, digits.some⟩
          · simp only [Option.getD_none, List.length_drop]
            omega
      · next small =>
          refine ⟨(-point).toNat + 1, 0, ?_, List.cons_ne_nil _ _, ?_⟩
          · rw [none, List.append_nil]
            rfl
          · simp only [Option.getD_none, List.length_append, zeros, List.length_replicate]
            omega
  · refine ⟨0, 0, ?_, ?_, ?_⟩
    · rw [none, List.append_nil, List.nil_append, List.take_append_drop]
    · rw [ne_eq, List.take_eq_nil_iff]
      exact not_or.mpr ⟨by decide, digits.some⟩
    · simp only [Option.getD_some, List.length_drop]
      omega

theorem readUnsigned_numberLayout (digits : Digits) (point : Int) :
    readUnsigned (numberLayout digits.chars point).text = some (digits.value point) := by
  rcases numberLayout_padded digits point with ⟨a, b, padded, written, place⟩
  have all : AllDigits ((numberLayout digits.chars point).whole ++
      (numberLayout digits.chars point).fraction) := by
    rw [padded]
    exact allDigits_append.mpr
      ⟨allDigits_zeros a, allDigits_append.mpr ⟨digits.digit, allDigits_zeros b⟩⟩
  rw [readUnsigned_text _ written all, padded, value_padded digits place]

theorem numberLayout_noSign (digits : Digits) (point : Int) :
    (numberLayout digits.chars point).text.head? ≠ some '-' := by
  rcases numberLayout_padded digits point with ⟨a, b, padded, written, -⟩
  have both : AllDigits ((numberLayout digits.chars point).whole ++
      (numberLayout digits.chars point).fraction) := by
    rw [padded]
    exact allDigits_append.mpr
      ⟨allDigits_zeros a, allDigits_append.mpr ⟨digits.digit, allDigits_zeros b⟩⟩
  have all := (allDigits_append.mp both).1
  cases whole : (numberLayout digits.chars point).whole with
  | nil => exact absurd whole written
  | cons c rest =>
      have digit := all c (whole ▸ List.mem_cons_self)
      have start : (numberLayout digits.chars point).text.head? = some c := by
        rw [Layout.text, mantissa, whole]
        split
        · rfl
        · rfl
      rw [start]
      intro sign
      cases sign
      cases digit

/-- The text of a finite float denotes the float. -/
theorem read_numberToString {v : Binary64} (finite : v.Finite) :
    Decimal.read (numberToString v) = some v.value := by
  cases v with
  | nan => exact finite.elim
  | infinite negative => exact finite.elim
  | zero negative =>
      have text : readUnsigned (mantissa ['0'] []) = some _ :=
        readUnsigned_mantissa (List.cons_ne_nil _ _) (by decide)
      have value : ((number (['0'] ++ []) : Nat) : Rat) = 0 := rfl
      rw [value, zero_mul] at text
      exact text
  | nonzero negative digits point =>
      have unsigned := readUnsigned_numberLayout digits point
      cases negative with
      | true =>
          rw [numberToString, Decimal.read, unsigned]
          rfl
      | false =>
          rw [numberToString, read_unsigned (numberLayout_noSign digits point), unsigned]
          rfl

end Numbers
end CapsuleEmit
