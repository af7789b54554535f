import CapsuleEmit.Gateway.Authority
import Mathlib.Data.Nat.Digits.Defs

namespace CapsuleEmit
namespace Gateway
namespace Authority

open Numbers (Binary64 Value SameShape SameItems SameMembers)
open Decimal

/-!
# Values without credentials

No text that redaction lets through is token material or longer than the cap.
A text that is cut to the cap is of hexadecimal digits, and stays one.  A float
becomes a text later: a number of binary64 is written with few characters and
no more than one dot.
-/

/-! ## Clean values -/

/-- A text that may be sealed. -/
def CleanText (text : String) : Prop :=
  tokenShaped text = none ∧ text.toList.length ≤ maxLen

instance (text : String) : Decidable (CleanText text) :=
  inferInstanceAs (Decidable (_ ∧ _))

/-- A float with digits and a point as binary64 has them. -/
def Genuine : Binary64 → Prop
  | .nonzero _ digits point => digits.chars.length ≤ 17 ∧ -323 ≤ point ∧ point ≤ 309
  | _ => True

mutual
/-- Metadata as it is on the wire: JSON values with binary64 numbers. -/
def Wire : Value → Prop
  | .float v => Genuine v
  | .tuple _ => False
  | .list items => WireItems items
  | .dict members => WireMembers members
  | _ => True

def WireItems : List Value → Prop
  | [] => True
  | item :: items => Wire item ∧ WireItems items

def WireMembers : List (String × Value) → Prop
  | [] => True
  | (_, item) :: members => Wire item ∧ WireMembers members
end

mutual
/-- No string of the value is token-shaped or longer than the cap, at any
depth. -/
def Clean : Value → Prop
  | .str text => CleanText text
  | .float v => Genuine v
  | .list items => CleanItems items
  | .tuple items => CleanItems items
  | .dict members => CleanMembers members
  | _ => True

def CleanItems : List Value → Prop
  | [] => True
  | item :: items => Clean item ∧ CleanItems items

def CleanMembers : List (String × Value) → Prop
  | [] => True
  | (_, item) :: members => Clean item ∧ CleanMembers members
end

/-! ## Texts of floats -/

theorem segments_length (text : List Char) : (segments text).length = text.count '.' + 1 := by
  have lines : ∀ text : List Char, (Lines.split '.' text).1.length = text.count '.' := by
    intro text
    induction text with
    | nil => rfl
    | cons c rest ih =>
        rw [Lines.split]
        by_cases dot : c = '.'
        · rw [if_pos dot, dot, List.count_cons_self, List.length_cons, ih]
        · rw [if_neg dot, List.count_cons_of_ne dot, ← ih]
          split
          · next tail parts => rw [parts]
          · next line lines tail parts => rw [parts]; rfl
  rw [segments, List.length_append, lines]
  rfl

theorem jwsCompact_eq_false {text : List Char} (dots : text.count '.' ≠ 2) :
    jwsCompact text = false := by
  rw [jwsCompact, segments_length, decide_eq_false (by omega), Bool.false_and]

/-- A scheme starts with one of two letters. -/
theorem authScheme_eq_false {c : Char} (rest : List Char) (noB : c.toLower ≠ 'b')
    (noD : c.toLower ≠ 'd') : authScheme (c :: rest) = false := by
  have bearer : letterMatches 'b' c = false := by
    simp [letterMatches, noB]
  have dpop : letterMatches 'd' c = false := by
    simp [letterMatches, noD]
  have first : "bearer".toList = 'b' :: "earer".toList := rfl
  have second : "basic".toList = 'b' :: "asic".toList := rfl
  have third : "dpop".toList = 'd' :: "pop".toList := rfl
  simp [authScheme, first, second, third, afterIgnoringCase, bearer, dpop]

theorem toLower_of_isDigit {c : Char} (digit : c.isDigit = true) : c.toLower = c := by
  have above : c.val ≤ 57 := by
    rw [Char.isDigit, Bool.and_eq_true, decide_eq_true_eq, decide_eq_true_eq] at digit
    exact digit.2
  delta Char.toLower
  split
  · next upper =>
      have less : 65 ≤ c.val := upper.1
      exact absurd (UInt32.le_trans less above) (by decide)
  · rfl

/-- A short text with a digit or a sign at its start and at most one dot. -/
theorem cleanText_of_number {c : Char} {rest : List Char} (first : c.isDigit = true ∨ c = '-')
    (dots : (c :: rest).count '.' ≤ 1) (short : rest.length < 200) :
    CleanText (String.ofList (c :: rest)) := by
  have same : c.toLower = c := by
    rcases first with digit | rfl
    · exact toLower_of_isDigit digit
    · rfl
  have other {letter : Char} (noDigit : letter.isDigit = false) (noSign : letter ≠ '-') :
      c.toLower ≠ letter := by
    rw [same]
    rintro rfl
    rcases first with digit | sign
    · rw [digit] at noDigit
      cases noDigit
    · exact noSign sign
  have length : (c :: rest).length < opaqueLen := by
    rw [List.length_cons, opaqueLen]
    omega
  rw [CleanText, tokenShaped, String.toList_ofList,
    authScheme_eq_false rest (other rfl (by decide)) (other rfl (by decide)),
    jwsCompact_eq_false (by omega), decide_eq_false (Nat.not_le.mpr length)]
  refine ⟨rfl, ?_⟩
  rw [maxLen]
  rw [opaqueLen] at length
  omega

/-- A laid-out number has at most one dot, and no more characters than its
parts. -/
theorem text_bounds {layout : Numbers.Layout} (written : layout.whole ≠ [])
    (digits : AllDigits (layout.whole ++ layout.fraction)) :
    (∃ c rest, layout.text = c :: rest ∧ c.isDigit = true) ∧ layout.text.count '.' ≤ 1 ∧
      layout.text.length ≤ layout.whole.length + layout.fraction.length + 3 +
        (Nat.toDigits 10 (layout.exponent.getD 0).natAbs).length := by
  rcases layout with ⟨whole, fraction, exponent⟩
  rcases allDigits_append.mp digits with ⟨left, right⟩
  have noWhole : whole.count '.' = 0 := List.count_eq_zero.mpr (left.notMem rfl)
  have noFraction : fraction.count '.' = 0 := List.count_eq_zero.mpr (right.notMem rfl)
  have pointed : (mantissa whole fraction).count '.' ≤ 1 ∧
      (mantissa whole fraction).length ≤ whole.length + fraction.length + 1 := by
    rw [mantissa]
    split
    · exact ⟨by omega, by omega⟩
    · rw [List.count_append, List.count_cons_self, List.length_append, List.length_cons]
      exact ⟨by omega, by omega⟩
  have start : ∃ c rest, mantissa whole fraction = c :: rest ∧ c.isDigit = true := by
    rcases List.exists_cons_of_ne_nil written with ⟨c, rest, rfl⟩
    rw [mantissa]
    split
    · exact ⟨c, rest, rfl, left c List.mem_cons_self⟩
    · exact ⟨c, _, rfl, left c List.mem_cons_self⟩
  rcases start with ⟨c, rest, opened, digit⟩
  cases exponent with
  | none =>
      rw [Numbers.Layout.text, List.append_nil]
      exact ⟨⟨c, rest, opened, digit⟩, pointed.1, by dsimp only; omega⟩
  | some e =>
      have noDigits : (Nat.toDigits 10 e.natAbs).count '.' = 0 :=
        List.count_eq_zero.mpr ((allDigits_toDigits e.natAbs).notMem rfl)
      have noSign : (if e < 0 then '-' else '+') ≠ '.' := by
        split <;> decide
      refine ⟨⟨c, _, congrArg (· ++ _) opened, digit⟩, ?_, ?_⟩
      · rw [Numbers.Layout.text, List.count_append, List.count_cons_of_ne (by decide),
          List.count_cons_of_ne noSign, noDigits]
        exact pointed.1
      · rw [Numbers.Layout.text, List.length_append, List.length_cons, List.length_cons,
          Option.getD_some]
        dsimp only
        omega

/-- The text of a binary64 number may be sealed. -/
theorem cleanText_numberToString {v : Binary64} (genuine : Genuine v) :
    CleanText (String.ofList (Numbers.numberToString v)) := by
  cases v with
  | nan => decide
  | infinite negative => cases negative <;> decide
  | zero negative => exact cleanText_of_number (Or.inl rfl) (by decide) (by decide)
  | nonzero negative digits point =>
      rcases genuine with ⟨few, low, high⟩
      rcases Numbers.numberLayout_padded digits point with ⟨a, b, padded, written, -⟩
      have all : AllDigits ((Numbers.numberLayout digits.chars point).whole ++
          (Numbers.numberLayout digits.chars point).fraction) := by
        rw [padded]
        exact allDigits_append.mpr
          ⟨allDigits_zeros a, allDigits_append.mpr ⟨digits.digit, allDigits_zeros b⟩⟩
      rcases text_bounds written all with ⟨⟨c, rest, text, digit⟩, dots, length⟩
      have parts : (Numbers.numberLayout digits.chars point).whole.length +
            (Numbers.numberLayout digits.chars point).fraction.length ≤ 50 ∧
          ((Numbers.numberLayout digits.chars point).exponent.getD 0).natAbs < 10 ^ 3 := by
        unfold Numbers.numberLayout
        split
        · split
          · simp only [List.length_append, zeros, List.length_replicate, List.length_nil,
              Option.getD_none]
            omega
          · split
            · simp only [List.length_take, List.length_drop, Option.getD_none]
              omega
            · simp only [List.length_append, zeros, List.length_replicate, List.length_cons,
                List.length_nil, Option.getD_none]
              omega
        · simp only [List.length_take, List.length_drop, Option.getD_some]
          omega
      have exponent := Nat.toDigits_length 10 _ 3 (by decide) parts.2
      rw [text] at dots length
      rw [List.length_cons] at length
      have short : rest.length < 100 := by omega
      cases negative with
      | false =>
          rw [Numbers.numberToString, text]
          exact cleanText_of_number (Or.inl digit) dots (by omega)
      | true =>
          rw [Numbers.numberToString, text]
          refine cleanText_of_number (Or.inr rfl) ?_ ?_
          · rwa [List.count_cons_of_ne (by decide)]
          · rw [List.length_cons]
            omega

/-! ## Redaction -/

/-- A text of hexadecimal digits is no scheme, no token and not opaque. -/
theorem tokenShaped_of_hex {text : List Char} (digits : hex text = true) :
    tokenShaped (String.ofList text) = none := by
  have all : ∀ c ∈ text, isHexDigit c = true := by
    rw [hex, Bool.and_eq_true] at digits
    exact List.all_eq_true.mp digits.2
  have noDots : text.count '.' = 0 := by
    rw [List.count_eq_zero]
    intro dot
    cases all _ dot
  have noScheme : authScheme text = false := by
    rw [authScheme, List.any_eq_false]
    intro scheme _ found
    rw [Option.any_eq_true] at found
    rcases found with ⟨c, follows, space⟩
    rcases Option.bind_eq_some_iff.mp follows with ⟨rest, after, head⟩
    have suffix : ∀ {letters text rest : List Char},
        afterIgnoringCase letters text = some rest → ∀ c ∈ rest, c ∈ text := by
      intro letters
      induction letters with
      | nil =>
          intro text rest same c inside
          cases same
          exact inside
      | cons letter letters ih =>
          intro text rest same c inside
          cases text with
          | nil => cases same
          | cons d text =>
              rw [afterIgnoringCase] at same
              split at same
              · exact List.mem_cons_of_mem _ (ih same c inside)
              · cases same
    have digit := all c (suffix after c (List.mem_of_head? head))
    have bounds : 48 ≤ c.toNat ∧ c.toNat ≤ 102 := by
      simp only [isHexDigit, Char.isDigit, Bool.or_eq_true, Bool.and_eq_true, decide_eq_true_eq,
        Char.le_def, UInt32.le_iff_toNat_le, ge_iff_le] at digit
      simp only [Char.toNat]
      have first : '0'.val.toNat = 48 := rfl
      have second : '9'.val.toNat = 57 := rfl
      have third : 'a'.val.toNat = 97 := rfl
      have fourth : 'f'.val.toNat = 102 := rfl
      have fifth : 'A'.val.toNat = 65 := rfl
      have sixth : 'F'.val.toNat = 70 := rfl
      omega
    simp only [isSpace, Bool.or_eq_true, Bool.and_eq_true, decide_eq_true_eq] at space
    omega
  rw [tokenShaped, String.toList_ofList, noScheme, jwsCompact_eq_false (by omega), digits,
    Bool.not_true, Bool.and_false]
  rfl

mutual
/-- What is sealed for a value has no credential in it. -/
theorem clean_sanitize : ∀ {value : Value}, Wire value → Clean (sanitize value).1
  | .null, _ => trivial
  | .bool _, _ => trivial
  | .int _, _ => trivial
  | .float _, genuine => genuine
  | .tuple _, wire => wire.elim
  | .dict _, _ => trivial
  | .str value, _ => by
      rw [sanitize]
      split
      · trivial
      · next shaped =>
          change CleanText _
          split
          · next long =>
              refine ⟨?_, ?_⟩
              · apply tokenShaped_of_hex
                have digits : hex value.toList = true := by
                  rw [tokenShaped] at shaped
                  split at shaped
                  · cases shaped
                  · split at shaped
                    · cases shaped
                    · split at shaped
                      · cases shaped
                      · next transparent =>
                          rw [maxLen] at long
                          have enough : opaqueLen ≤ value.toList.length := by
                            rw [opaqueLen]
                            omega
                          simpa [enough] using transparent
                rw [hex, Bool.and_eq_true, List.all_eq_true] at digits ⊢
                refine ⟨?_, fun c inside => digits.2 c (List.mem_of_mem_take inside)⟩
                cases text : value.toList with
                | nil => rw [text] at long; cases long
                | cons c rest => rfl
              · rw [String.toList_ofList, List.length_take]
                exact Nat.min_le_left _ _
          · next short => exact ⟨shaped, Nat.not_lt.mp short⟩
  | .list items, wire => by
      have clean := clean_sanitizeItems wire
      rw [sanitize]
      split
      · trivial
      · next out reasons _ parts =>
          rw [parts] at clean
          exact clean

theorem clean_sanitizeItems : ∀ {items : List Value}, WireItems items →
    CleanItems (sanitizeItems items).1
  | [], _ => trivial
  | item :: items, wire => by
      have rest := clean_sanitizeItems wire.2
      have first := clean_sanitize wire.1
      rw [sanitizeItems]
      split
      · exact rest
      · next safe parts =>
          rw [parts] at first
          exact ⟨first, rest⟩
end

/-- The item of a list that stays, as it is sealed. -/
def kept (item : Value) : Option Value :=
  match sanitize item with
  | (_, some _) => none
  | (safe, none) => some safe

theorem sanitizeItems_fst (items : List Value) :
    (sanitizeItems items).1 = (items.map kept).reduceOption := by
  induction items with
  | nil => rfl
  | cons item items ih =>
      rcases parts : sanitize item with ⟨safe, reason⟩
      cases reason with
      | some reason =>
          have dropped : kept item = none := by
            rw [kept, parts]
          rw [sanitizeItems, parts, List.map_cons, dropped, List.reduceOption_cons_of_none]
          exact ih
      | none =>
          have stays : kept item = some safe := by
            rw [kept, parts]
          rw [sanitizeItems, parts, List.map_cons, stays, List.reduceOption_cons_of_some]
          exact congrArg (safe :: ·) ih

end Authority
end Gateway
end CapsuleEmit
