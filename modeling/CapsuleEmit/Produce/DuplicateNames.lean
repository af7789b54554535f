import CapsuleEmit.ArtifactStore.StrictJson

namespace CapsuleEmit
namespace Produce

/-!
# Looking for a repeated name in JSON text

The Rust package decodes with a decoder that keeps the last of two equal
names, so it scans the text once more for a repetition.  The scan keeps one
entry for every open container, with the names seen in it when it is an
object, and decodes a string only where a name is expected.  It takes one
byte at a time; the bytes of a string are gathered until the quotation mark
that ends it.

On text whose member names are UTF-8, the scan stops at a repeated name exactly
when an object of the document has one.  It agrees with the visitor of the
artifact package on text that the visitor can follow.
-/

/-- Where the scan is: the open containers, innermost first, whether a name
comes next, and the string being gathered, with whether its last byte escapes
the next. -/
structure Scan where
  opened : List (Option (List Bytes))
  expectName : Bool
  string : Option (Bytes × Bool)

/-- Why a scan stops. -/
inductive Stop where
  | duplicate (name : Bytes)
  | unreadable (message : String)

/-- The name a gathered string is. -/
def nameOf (raw : Bytes) : Option Bytes :=
  match JsonText.readString (raw.length + 1) (raw ++ [34]) with
  | some (name, []) => if (utf8? name).isSome then some name else none
  | _ => none

/-- The end of a string. -/
def closeString (scan : Scan) (raw : Bytes) : Except Stop Scan :=
  if scan.expectName then
    match nameOf raw with
    | none => .error (.unreadable "member name while scanning for duplicates")
    | some name =>
        match scan.opened with
        | some seen :: outer =>
            if seen.contains name then .error (.duplicate name)
            else .ok ⟨some (name :: seen) :: outer, false, none⟩
        | opened => .ok ⟨opened, false, none⟩
  else .ok ⟨scan.opened, scan.expectName, none⟩

/-- One byte outside strings. -/
def scanToken (scan : Scan) (b : UInt8) : Except Stop Scan :=
  if b = 123 then .ok ⟨some [] :: scan.opened, true, none⟩
  else if b = 91 then .ok ⟨none :: scan.opened, false, none⟩
  else if b = 125 ∨ b = 93 then
    match scan.opened with
    | [] => .error (.unreadable "unbalanced JSON while scanning for duplicate names")
    | _ :: outer => .ok ⟨outer, false, none⟩
  else if b = 44 then
    .ok ⟨scan.opened, (match scan.opened with | some _ :: _ => true | _ => false), none⟩
  else if b = 34 then .ok ⟨scan.opened, scan.expectName, some ([], false)⟩
  else .ok ⟨scan.opened, scan.expectName, none⟩

/-- One byte of the text. -/
def scanByte (scan : Scan) (b : UInt8) : Except Stop Scan :=
  match scan.string with
  | none => scanToken scan b
  | some (raw, true) => .ok { scan with string := some (raw ++ [b], false) }
  | some (raw, false) =>
      if b = 92 then .ok { scan with string := some (raw ++ [b], true) }
      else if b = 34 then closeString scan raw
      else .ok { scan with string := some (raw ++ [b], false) }

/-- The first repeated member name of JSON text; anything that cannot be read
is an error. -/
def duplicateKey (data : Bytes) : Except String (Option Bytes) :=
  match data.foldlM scanByte (⟨[], false, none⟩ : Scan) with
  | .error (.duplicate name) => .ok (some name)
  | .error (.unreadable message) => .error message
  | .ok ⟨opened, _, string⟩ =>
      if string.isSome then .error "unterminated string while scanning for duplicate names"
      else if opened.isEmpty then .ok none
      else .error "unbalanced JSON while scanning for duplicate names"

example : duplicateKey (utf8 "\x7b\"a\":1,\"b\":[\x7b\"c\":1,\"c\":2\x7d]\x7d") =
    .ok (some [99]) := by rfl

example : duplicateKey (utf8 "\x7b\"a\":\"\x7d\x7b,\\\"\",\"b\":2\x7d") = .ok none := by rfl

/-! ## Bytes between containers -/

theorem foldlM_append {front back : Bytes} {scan after : Scan}
    (first : front.foldlM scanByte scan = .ok after) :
    (front ++ back).foldlM scanByte scan = back.foldlM scanByte after := by
  rw [List.foldlM_append, first]
  rfl

theorem foldlM_append_error {front back : Bytes} {scan : Scan} {stop : Stop}
    (first : front.foldlM scanByte scan = .error stop) :
    (front ++ back).foldlM scanByte scan = .error stop := by
  rw [List.foldlM_append, first]
  rfl

/-- The bytes that open or close nothing outside strings. -/
def isQuiet (b : UInt8) : Bool :=
  b ≠ 123 && b ≠ 91 && b ≠ 125 && b ≠ 93 && b ≠ 44 && b ≠ 34

theorem scanByte_quiet {opened : List (Option (List Bytes))} {expect : Bool} {b : UInt8}
    (quiet : isQuiet b = true) :
    scanByte ⟨opened, expect, none⟩ b = .ok ⟨opened, expect, none⟩ := by
  simp only [isQuiet, Bool.and_eq_true, decide_eq_true_eq] at quiet
  simp [scanByte, scanToken, quiet]

theorem foldlM_quiet {opened : List (Option (List Bytes))} {expect : Bool} {bytes : Bytes}
    (quiet : ∀ b ∈ bytes, isQuiet b = true) :
    bytes.foldlM scanByte ⟨opened, expect, none⟩ = .ok ⟨opened, expect, none⟩ := by
  induction bytes with
  | nil => rfl
  | cons b bytes ih =>
      rw [List.foldlM_cons, scanByte_quiet (quiet b List.mem_cons_self)]
      exact ih (fun c inside => quiet c (List.mem_cons_of_mem b inside))

/-! ## Strings -/

theorem hexValue_plain {b : UInt8} {n : Nat} (digit : JsonText.hexValue b = some n) :
    b ≠ 34 ∧ b ≠ 92 := by
  constructor
  · rintro rfl
    cases digit
  · rintro rfl
    cases digit

theorem codeUnit_plain {a b c d : UInt8} {unit : Nat}
    (found : JsonText.codeUnit a b c d = some unit) : ∀ x ∈ [a, b, c, d], x ≠ 34 ∧ x ≠ 92 := by
  simp only [JsonText.codeUnit, bind, Option.bind_eq_some_iff] at found
  rcases found with ⟨i, first, j, second, k, third, l, fourth, -⟩
  simp only [List.mem_cons, List.not_mem_nil, or_false, forall_eq_or_imp, forall_eq]
  exact ⟨hexValue_plain first, hexValue_plain second, hexValue_plain third, hexValue_plain fourth⟩

section

variable {opened : List (Option (List Bytes))} {expect : Bool}

theorem foldlM_gather {bytes raw : Bytes} (plain : ∀ b ∈ bytes, b ≠ 34 ∧ b ≠ 92) :
    bytes.foldlM scanByte ⟨opened, expect, some (raw, false)⟩ =
      .ok ⟨opened, expect, some (raw ++ bytes, false)⟩ := by
  induction bytes generalizing raw with
  | nil => simp
  | cons b bytes ih =>
      rcases plain b List.mem_cons_self with ⟨notQuote, notSolidus⟩
      rw [List.foldlM_cons]
      simp only [scanByte, if_neg notQuote, if_neg notSolidus, ok_bind]
      rw [ih (fun c inside => plain c (List.mem_cons_of_mem b inside)), List.append_assoc]
      rfl

/-- The byte after a reverse solidus is gathered whatever it is. -/
theorem foldlM_escaped (x : UInt8) {bytes raw : Bytes} (plain : ∀ b ∈ bytes, b ≠ 34 ∧ b ≠ 92) :
    (92 :: x :: bytes).foldlM scanByte ⟨opened, expect, some (raw, false)⟩ =
      .ok ⟨opened, expect, some (raw ++ 92 :: x :: bytes, false)⟩ := by
  simp only [List.foldlM_cons, scanByte, if_true, ok_bind]
  rw [foldlM_gather plain]
  simp

end

/-- An escape is gathered whole, and what it stands for does not depend on
what follows. -/
theorem readEscape_scan {tail content rest : Bytes}
    (found : JsonText.readEscape tail = some (content, rest)) :
    ∃ text, tail = text ++ rest ∧
      (∀ other, JsonText.readEscape (text ++ other) = some (content, other)) ∧
      ∀ opened expect raw, (92 :: text).foldlM scanByte ⟨opened, expect, some (raw, false)⟩ =
        .ok ⟨opened, expect, some (raw ++ 92 :: text, false)⟩ := by
  unfold JsonText.readEscape at found
  split at found
  · next a b c d tail =>
      cases first : JsonText.codeUnit a b c d with
      | none => simp [first] at found
      | some unit =>
          simp only [first] at found
          split at found
          · next high =>
              split at found
              · next e f g h after =>
                  cases second : JsonText.codeUnit e f g h with
                  | none => simp [second] at found
                  | some low =>
                      simp only [second] at found
                      split at found
                      · next pair =>
                          rcases Prod.mk.inj (Option.some.inj found) with ⟨rfl, rfl⟩
                          refine ⟨[117, a, b, c, d] ++ [92, 117, e, f, g, h], rfl, fun other => ?_,
                            fun opened expect raw => ?_⟩
                          · simp only [List.cons_append, List.nil_append, JsonText.readEscape,
                              first, if_pos high, second, if_pos pair]
                          · rw [← List.cons_append,
                              foldlM_append (foldlM_escaped 117 (codeUnit_plain first)),
                              foldlM_escaped 117 (codeUnit_plain second), List.append_assoc]
                      · cases found
              · cases found
          · next notHigh =>
              split at found
              · cases found
              · next notLow =>
                  cases found
                  refine ⟨[117, a, b, c, d], rfl, fun other => ?_, fun opened expect raw =>
                    foldlM_escaped 117 (codeUnit_plain first)⟩
                  simp only [List.cons_append, List.nil_append, JsonText.readEscape, first,
                    if_neg notHigh, if_neg notLow]
  · next e tail notUnicode =>
      rcases Option.map_eq_some_iff.mp found with ⟨b, simple, pair⟩
      cases pair
      refine ⟨[e], rfl, fun other => ?_, fun opened expect raw => foldlM_escaped e (by simp)⟩
      have notU : e ≠ 117 := by
        rintro rfl
        cases simple
      rw [List.cons_append, List.nil_append, JsonText.readEscape]
      · rw [simple]
        rfl
      · intro a b c d rest same
        exact absurd same notU
  · cases found

/-- A string that has been read is gathered up to its closing quotation mark,
and is the name it was read as. -/
theorem readString_scan {fuel : Nat} {bytes content rest : Bytes}
    (found : JsonText.readString fuel bytes = some (content, rest)) :
    ∃ raw, bytes = raw ++ 34 :: rest ∧
      JsonText.readString (raw.length + 1) (raw ++ [34]) = some (content, []) ∧
      ∀ opened expect front, raw.foldlM scanByte ⟨opened, expect, some (front, false)⟩ =
        .ok ⟨opened, expect, some (front ++ raw, false)⟩ := by
  induction fuel generalizing bytes content with
  | zero => cases found
  | succ fuel ih =>
      cases bytes with
      | nil => cases found
      | cons b tail =>
          rw [JsonText.readString] at found
          split at found
          · next quote =>
              cases found
              rw [quote]
              exact ⟨[], rfl, rfl, fun opened expect front => by simp⟩
          · next notQuote =>
              split at found
              · next solidus =>
                  cases escaped : JsonText.readEscape tail with
                  | none => simp [escaped] at found
                  | some pair =>
                      rcases pair with ⟨front, after⟩
                      rw [escaped] at found
                      rcases Option.map_eq_some_iff.mp found with ⟨⟨back, last⟩, inner, same⟩
                      cases same
                      rcases readEscape_scan escaped with ⟨written, rfl, again, gathered⟩
                      rcases ih inner with ⟨raw, rfl, reread, scanned⟩
                      refine ⟨b :: (written ++ raw), by simp, ?_, fun opened expect front => ?_⟩
                      · have enough : raw.length + 1 ≤ (b :: (written ++ raw)).length := by simp
                        have longer := JsonText.readString_extend enough reread []
                        rw [List.append_nil, List.append_nil] at longer
                        rw [List.cons_append, JsonText.readString, if_neg notQuote, if_pos solidus,
                          List.append_assoc, again]
                        simp only [longer]
                        rfl
                      · rw [solidus, ← List.cons_append, foldlM_append (gathered _ _ _), scanned,
                          List.append_assoc]
              · next notSolidus =>
                  split at found
                  · cases found
                  · next notControl =>
                      rcases Option.map_eq_some_iff.mp found with ⟨⟨back, last⟩, inner, same⟩
                      cases same
                      rcases ih inner with ⟨raw, rfl, reread, scanned⟩
                      refine ⟨b :: raw, rfl, ?_, fun opened expect front => ?_⟩
                      · rw [List.cons_append, JsonText.readString, if_neg notQuote,
                          if_neg notSolidus, if_neg notControl, List.length_cons, reread]
                        rfl
                      · rw [List.foldlM_cons]
                        simp only [scanByte, if_neg notQuote, if_neg notSolidus, ok_bind, scanned]
                        simp

/-- An escape that may name a lone surrogate is gathered whole too. -/
theorem readEscapeLenient_scan {tail content rest : Bytes}
    (found : JsonText.readEscapeLenient tail = some (content, rest)) :
    ∃ text, tail = text ++ rest ∧
      ∀ opened expect raw, (92 :: text).foldlM scanByte ⟨opened, expect, some (raw, false)⟩ =
        .ok ⟨opened, expect, some (raw ++ 92 :: text, false)⟩ := by
  unfold JsonText.readEscapeLenient at found
  split at found
  · next a b c d tail =>
      cases first : JsonText.codeUnit a b c d with
      | none => simp [first] at found
      | some unit =>
          have one : ∀ opened expect raw, (92 :: [117, a, b, c, d]).foldlM scanByte
              ⟨opened, expect, some (raw, false)⟩ =
                .ok ⟨opened, expect, some (raw ++ 92 :: [117, a, b, c, d], false)⟩ :=
            fun opened expect raw => foldlM_escaped 117 (codeUnit_plain first)
          simp only [first] at found
          split at found
          · split at found
            · next e f g h after =>
                cases second : JsonText.codeUnit e f g h with
                | none => simp [second] at found
                | some low =>
                    simp only [second] at found
                    split at found
                    · rcases Prod.mk.inj (Option.some.inj found) with ⟨rfl, rfl⟩
                      refine ⟨[117, a, b, c, d] ++ [92, 117, e, f, g, h], rfl,
                        fun opened expect raw => ?_⟩
                      rw [← List.cons_append, foldlM_append (one opened expect raw),
                        foldlM_escaped 117 (codeUnit_plain second), List.append_assoc]
                    · cases found
                      exact ⟨[117, a, b, c, d], rfl, one⟩
            · cases found
              exact ⟨[117, a, b, c, d], rfl, one⟩
          · cases found
            exact ⟨[117, a, b, c, d], rfl, one⟩
  · next e tail notUnicode =>
      rcases Option.map_eq_some_iff.mp found with ⟨b, simple, pair⟩
      cases pair
      exact ⟨[e], rfl, fun opened expect raw => foldlM_escaped e (by simp)⟩
  · cases found

theorem readStringLenient_scan {fuel : Nat} {bytes content rest : Bytes}
    (found : JsonText.readStringWith JsonText.readEscapeLenient fuel bytes =
      some (content, rest)) :
    ∃ raw, bytes = raw ++ 34 :: rest ∧
      ∀ opened expect front, raw.foldlM scanByte ⟨opened, expect, some (front, false)⟩ =
        .ok ⟨opened, expect, some (front ++ raw, false)⟩ := by
  induction fuel generalizing bytes content with
  | zero => cases found
  | succ fuel ih =>
      cases bytes with
      | nil => cases found
      | cons b tail =>
          rw [JsonText.readStringWith] at found
          split at found
          · next quote =>
              cases found
              rw [quote]
              exact ⟨[], rfl, fun opened expect front => by simp⟩
          · next notQuote =>
              split at found
              · next solidus =>
                  cases escaped : JsonText.readEscapeLenient tail with
                  | none => simp [escaped] at found
                  | some pair =>
                      rcases pair with ⟨front, after⟩
                      rw [escaped] at found
                      rcases Option.map_eq_some_iff.mp found with ⟨⟨back, last⟩, inner, same⟩
                      cases same
                      rcases readEscapeLenient_scan escaped with ⟨written, rfl, gathered⟩
                      rcases ih inner with ⟨raw, rfl, scanned⟩
                      refine ⟨b :: (written ++ raw), by simp, fun opened expect front => ?_⟩
                      rw [solidus, ← List.cons_append, foldlM_append (gathered _ _ _), scanned,
                        List.append_assoc]
              · next notSolidus =>
                  split at found
                  · cases found
                  · rcases Option.map_eq_some_iff.mp found with ⟨⟨back, last⟩, inner, same⟩
                    cases same
                    rcases ih inner with ⟨raw, rfl, scanned⟩
                    refine ⟨b :: raw, rfl, fun opened expect front => ?_⟩
                    rw [List.foldlM_cons]
                    simp only [scanByte, if_neg notQuote, if_neg notSolidus, ok_bind, scanned]
                    simp

/-- What a reader of strings has read is gathered up to the closing quotation mark; a
name that is UTF-8 is the name the scan decodes. -/
def Gathers (strings : Nat → Bytes → Option (Bytes × Bytes)) : Prop :=
  ∀ fuel bytes content rest, strings fuel bytes = some (content, rest) →
    ∃ raw, bytes = raw ++ 34 :: rest ∧
      (∀ opened expect front, raw.foldlM scanByte ⟨opened, expect, some (front, false)⟩ =
        .ok ⟨opened, expect, some (front ++ raw, false)⟩) ∧
      ((utf8? content).isSome = true → nameOf raw = some content)

theorem gathers_strict : Gathers JsonText.readString := by
  intro fuel bytes content rest found
  rcases readString_scan found with ⟨raw, same, reread, scanned⟩
  refine ⟨raw, same, scanned, fun textual => ?_⟩
  unfold nameOf
  rw [reread]
  exact if_pos textual

theorem gathers_lenient : Gathers (JsonText.readStringWith JsonText.readEscapeLenient) := by
  intro fuel bytes content rest found
  rcases readStringLenient_scan found with ⟨raw, same, scanned⟩
  refine ⟨raw, same, scanned, fun textual => ?_⟩
  rcases JsonText.agrees_of_escapes JsonText.escapes_lenient fuel bytes content rest found with
    ⟨text, -, agree⟩
  have strict := (agree textual).2
  rw [JsonText.readStringWith_readEscape] at strict
  rcases gathers_strict fuel bytes content rest strict with ⟨raw', same', -, named⟩
  have cut : raw' = raw := List.append_cancel_right (same'.symm.trans same)
  rw [← cut]
  exact named textual

/-! ## Member names -/

end Produce

namespace Json

mutual
/-- Every member name of a document is UTF-8. -/
def named : Json → Bool
  | .null => true
  | .bool _ => true
  | .number _ => true
  | .string _ => true
  | .array items => namedItems items
  | .object members => namedMembers members

def namedItems : List Json → Bool
  | [] => true
  | item :: items => named item && namedItems items

def namedMembers : List (Bytes × Json) → Bool
  | [] => true
  | (name, value) :: members => (utf8? name).isSome && named value && namedMembers members
end

mutual
theorem named_of_textual : ∀ {value : Json}, value.textual = true → value.named = true
  | .null, _ => rfl
  | .bool _, _ => rfl
  | .number _, _ => rfl
  | .string _, _ => rfl
  | .array _, textual => namedItems_of_textual textual
  | .object _, textual => namedMembers_of_textual textual

theorem namedItems_of_textual : ∀ {items : List Json}, textualItems items = true →
    namedItems items = true
  | [], _ => rfl
  | item :: items, textual => by
      rw [textualItems, Bool.and_eq_true] at textual
      rw [namedItems, named_of_textual textual.1, namedItems_of_textual textual.2]
      rfl

theorem namedMembers_of_textual : ∀ {members : List (Bytes × Json)},
    textualMembers members = true → namedMembers members = true
  | [], _ => rfl
  | (name, value) :: members, textual => by
      simp only [textualMembers, Bool.and_eq_true] at textual
      rw [namedMembers, textual.1.1, named_of_textual textual.1.2,
        namedMembers_of_textual textual.2]
      rfl
end

end Json

namespace Produce

/-! ## Documents -/

/-- Scanning a piece of text goes from one state to another when the condition
holds, and stops at a repeated name when it does not. -/
def Scans (text : Bytes) (before after : Scan) (condition : Bool) : Prop :=
  (condition = true → text.foldlM scanByte before = .ok after) ∧
    (condition = false → ∃ name, text.foldlM scanByte before = .error (.duplicate name))

theorem scans_append {front back : Bytes} {before middle after : Scan} {first second : Bool}
    (left : Scans front before middle first) (right : Scans back middle after second) :
    Scans (front ++ back) before after (first && second) := by
  cases first with
  | true =>
      rw [Bool.true_and]
      constructor
      · intro holds
        rw [foldlM_append (left.1 rfl), right.1 holds]
      · intro fails
        rcases right.2 fails with ⟨name, stopped⟩
        exact ⟨name, by rw [foldlM_append (left.1 rfl), stopped]⟩
  | false =>
      rw [Bool.false_and]
      refine ⟨nofun, fun _ => ?_⟩
      rcases left.2 rfl with ⟨name, stopped⟩
      exact ⟨name, foldlM_append_error stopped⟩

theorem scans_of_ok {text : Bytes} {before after : Scan}
    (scanned : text.foldlM scanByte before = .ok after) : Scans text before after true :=
  ⟨fun _ => scanned, nofun⟩

theorem scans_quiet {opened : List (Option (List Bytes))} {expect : Bool} {bytes : Bytes}
    (quiet : ∀ b ∈ bytes, isQuiet b = true) :
    Scans bytes ⟨opened, expect, none⟩ ⟨opened, expect, none⟩ true :=
  scans_of_ok (foldlM_quiet quiet)

theorem scans_byte {b : UInt8} {before after : Scan} (scanned : scanByte before b = .ok after) :
    Scans [b] before after true := by
  apply scans_of_ok
  rw [List.foldlM_cons, scanned]
  rfl

theorem isQuiet_of_space {b : UInt8} (space : JsonText.isSpace b = true) : isQuiet b = true := by
  simp only [JsonText.isSpace, Bool.or_eq_true, decide_eq_true_eq] at space
  rcases space with ((rfl | rfl) | rfl) | rfl <;> rfl

theorem isQuiet_of_number {b : UInt8} (number : isNumberByte b = true) : isQuiet b = true := by
  simp only [isNumberByte, Bool.or_eq_true, Bool.and_eq_true, decide_eq_true_eq] at number
  rcases number with ((((⟨low, high⟩ | rfl) | rfl) | rfl) | rfl) | rfl
  · have atLeast := UInt8.le_iff_toNat_le.mp low
    have atMost := UInt8.le_iff_toNat_le.mp high
    change 48 ≤ _ at atLeast
    change _ ≤ 57 at atMost
    have other : ∀ c : UInt8, c.toNat < 48 ∨ 57 < c.toNat → b ≠ c := by
      rintro c outside rfl
      omega
    simp only [isQuiet, Bool.and_eq_true, decide_eq_true_eq]
    exact ⟨⟨⟨⟨⟨other 123 (by decide), other 91 (by decide)⟩, other 125 (by decide)⟩,
      other 93 (by decide)⟩, other 44 (by decide)⟩, other 34 (by decide)⟩
  all_goals rfl

theorem skipSpace_quiet (bytes : Bytes) : ∃ space, bytes = space ++ JsonText.skipSpace bytes ∧
    ∀ b ∈ space, isQuiet b = true := by
  refine ⟨bytes.takeWhile JsonText.isSpace, (List.takeWhile_append_dropWhile ..).symm, ?_⟩
  intro b inside
  apply isQuiet_of_space
  exact List.all_eq_true.mp (List.all_takeWhile (p := JsonText.isSpace) (l := bytes)) b inside

section

variable {opened : List (Option (List Bytes))}

theorem scanByte_quote (expect : Bool) :
    scanByte ⟨opened, expect, none⟩ 34 = .ok ⟨opened, expect, some ([], false)⟩ := rfl

/-- A whole string token. -/
theorem foldlM_string {expect : Bool} {raw : Bytes}
    (scanned : raw.foldlM scanByte ⟨opened, expect, some ([], false)⟩ =
      .ok ⟨opened, expect, some (raw, false)⟩) :
    (34 :: (raw ++ [34])).foldlM scanByte ⟨opened, expect, none⟩ =
      closeString ⟨opened, expect, some (raw, false)⟩ raw := by
  rw [List.foldlM_cons, scanByte_quote, ok_bind, foldlM_append scanned, List.foldlM_cons]
  have closing : scanByte ⟨opened, expect, some (raw, false)⟩ 34 =
      closeString ⟨opened, expect, some (raw, false)⟩ raw := rfl
  rw [closing]
  cases closeString ⟨opened, expect, some (raw, false)⟩ raw <;> rfl

theorem scans_literal {b : UInt8} {word tail rest : Bytes}
    (found : JsonText.expect word tail = some rest) (first : isQuiet b = true)
    (others : ∀ c ∈ word, isQuiet c = true) :
    ∃ text, b :: tail = text ++ rest ∧
      ∀ opened, Scans text ⟨opened, false, none⟩ ⟨opened, false, none⟩ true := by
  refine ⟨b :: word, by rw [JsonText.expect_split found]; rfl, fun opened => scans_quiet ?_⟩
  intro c inside
  rcases List.mem_cons.mp inside with rfl | inside
  · exact first
  · exact others c inside

section

variable {strings : Nat → Bytes → Option (Bytes × Bytes)} (gathers : Gathers strings)

include gathers

/-- Where no name is expected a string changes nothing. -/
theorem scans_string {fuel : Nat} {tail content rest : Bytes}
    (found : strings fuel tail = some (content, rest)) :
    ∃ text, 34 :: tail = text ++ rest ∧
      ∀ opened, Scans text ⟨opened, false, none⟩ ⟨opened, false, none⟩ true := by
  rcases gathers fuel tail content rest found with ⟨raw, rfl, scanned, -⟩
  refine ⟨34 :: (raw ++ [34]), by simp, fun opened => scans_of_ok ?_⟩
  rw [foldlM_string (by simpa using scanned opened false [])]
  rfl

/-- Where a name is expected a string is one, and must be new. -/
theorem scans_name {fuel : Nat} {tail name rest : Bytes}
    (found : strings fuel tail = some (name, rest))
    (textual : (utf8? name).isSome = true) :
    ∃ text, 34 :: tail = text ++ rest ∧ ∀ opened seen,
      Scans text ⟨some seen :: opened, true, none⟩ ⟨some (name :: seen) :: opened, false, none⟩
        (!seen.contains name) := by
  rcases gathers fuel tail name rest found with ⟨raw, rfl, scanned, named⟩
  have named := named textual
  refine ⟨34 :: (raw ++ [34]), by simp, fun opened seen => ?_⟩
  have whole : (34 :: (raw ++ [34])).foldlM scanByte ⟨some seen :: opened, true, none⟩ =
      closeString ⟨some seen :: opened, true, some (raw, false)⟩ raw :=
    foldlM_string (by simpa using scanned (some seen :: opened) true [])
  unfold Scans
  rw [whole]
  simp only [closeString, named, if_true]
  cases seen.contains name with
  | true => exact ⟨nofun, fun _ => ⟨name, rfl⟩⟩
  | false => exact ⟨fun _ => rfl, nofun⟩

theorem scans_scalar {fuel : Nat} {b : UInt8} {tail rest : Bytes} {value : Json}
    (found : JsonText.readScalarWith strings fuel b tail = some (value, rest)) :
    value.distinct = true ∧ ∃ text, b :: tail = text ++ rest ∧
      ∀ opened, Scans text ⟨opened, false, none⟩ ⟨opened, false, none⟩ true := by
  unfold JsonText.readScalarWith at found
  split at found
  · next quote =>
      rcases Option.map_eq_some_iff.mp found with ⟨⟨content, after⟩, inner, pair⟩
      cases pair
      rw [quote]
      exact ⟨rfl, scans_string gathers inner⟩
  · split at found
    · next isNull =>
        rcases Option.map_eq_some_iff.mp found with ⟨after, inner, pair⟩
        cases pair
        exact ⟨rfl, scans_literal inner (by rw [isNull]; rfl) (by decide)⟩
    · split at found
      · next isTrue =>
          rcases Option.map_eq_some_iff.mp found with ⟨after, inner, pair⟩
          cases pair
          exact ⟨rfl, scans_literal inner (by rw [isTrue]; rfl) (by decide)⟩
      · split at found
        · next isFalse =>
            rcases Option.map_eq_some_iff.mp found with ⟨after, inner, pair⟩
            cases pair
            exact ⟨rfl, scans_literal inner (by rw [isFalse]; rfl) (by decide)⟩
        · rcases Option.map_eq_some_iff.mp found with ⟨⟨number, after⟩, inner, pair⟩
          cases pair
          unfold JsonText.readNumber at inner
          split at inner
          · cases inner
            refine ⟨rfl, _, (List.takeWhile_append_dropWhile ..).symm,
              fun opened => scans_quiet ?_⟩
            intro c inside
            apply isQuiet_of_number
            exact List.all_eq_true.mp
              (List.all_takeWhile (p := isNumberByte) (l := b :: tail)) c inside
          · cases inner

end

end

/-- Whitespace and the byte after it. -/
theorem scans_token {bytes tail : Bytes} {b : UInt8}
    (skipped : JsonText.skipSpace bytes = b :: tail) :
    ∃ text, bytes = text ++ tail ∧ ∀ opened expect after,
      scanByte ⟨opened, expect, none⟩ b = .ok after →
        Scans text ⟨opened, expect, none⟩ after true := by
  rcases skipSpace_quiet bytes with ⟨space, spaced, quiet⟩
  refine ⟨space ++ [b], by rw [spaced, skipped]; simp, fun opened expect after scanned => ?_⟩
  exact scans_append (scans_quiet quiet) (scans_byte scanned)

theorem scans_gap (bytes : Bytes) : ∃ text, bytes = text ++ JsonText.skipSpace bytes ∧
    ∀ opened expect, Scans text ⟨opened, expect, none⟩ ⟨opened, expect, none⟩ true := by
  rcases skipSpace_quiet bytes with ⟨space, spaced, quiet⟩
  exact ⟨space, spaced, fun opened expect => scans_quiet quiet⟩

/-- What has been read is scanned to where it ends, unless a name repeats. -/
theorem readWith_scans {strings : Nat → Bytes → Option (Bytes × Bytes)}
    (gathers : Gathers strings) (fuel : Nat) :
    (∀ bytes value rest, JsonText.readWith strings fuel bytes = some (value, rest) →
      value.named = true → ∃ text, bytes = text ++ rest ∧ ∀ opened,
        Scans text ⟨opened, false, none⟩ ⟨opened, false, none⟩ value.distinct) ∧
    (∀ bytes items rest, JsonText.readItemsWith strings fuel bytes = some (items, rest) →
      Json.namedItems items = true → ∃ text, bytes = text ++ rest ∧ ∀ opened,
        Scans text ⟨none :: opened, false, none⟩ ⟨opened, false, none⟩ (Json.distinctItems items)) ∧
    (∀ bytes members rest, JsonText.readMembersWith strings fuel bytes = some (members, rest) →
      Json.namedMembers members = true → ∃ text, bytes = text ++ rest ∧ ∀ opened seen,
        Scans text ⟨some seen :: opened, true, none⟩ ⟨opened, false, none⟩
          (Json.distinctMembers seen members)) := by
  induction fuel with
  | zero => exact ⟨nofun, nofun, nofun⟩
  | succ fuel ih =>
      rcases ih with ⟨values, lists, objects⟩
      refine ⟨fun bytes value rest found named' => ?_, fun bytes items rest found named' => ?_,
        fun bytes members rest found named' => ?_⟩
      · rw [JsonText.readWith] at found
        cases skipped : JsonText.skipSpace bytes with
        | nil => simp [skipped] at found
        | cons b tail =>
            rcases scans_token skipped with ⟨start, started, scanStart⟩
            rw [skipped] at found
            simp only at found
            split at found
            · next brace =>
                subst brace
                split at found
                · next after close =>
                    cases found
                    rcases scans_token close with ⟨text, same, scanned⟩
                    refine ⟨start ++ text, by rw [started, same]; simp, fun opened => ?_⟩
                    exact scans_append (scanStart opened false _ rfl) (scanned _ true _ rfl)
                · next notClose =>
                    rcases Option.map_eq_some_iff.mp found with ⟨⟨members, after⟩, inner, pair⟩
                    cases pair
                    rcases scans_gap tail with ⟨gap, gapped, scanGap⟩
                    rcases objects _ members _ inner named' with ⟨text, same, scanned⟩
                    refine ⟨start ++ (gap ++ text), by rw [started, gapped, same]; simp,
                      fun opened => ?_⟩
                    exact scans_append (scanStart opened false _ rfl)
                      (scans_append (scanGap _ true) (scanned opened []))
            · next notBrace =>
                split at found
                · next bracket =>
                    subst bracket
                    split at found
                    · next after close =>
                        cases found
                        rcases scans_token close with ⟨text, same, scanned⟩
                        refine ⟨start ++ text, by rw [started, same]; simp, fun opened => ?_⟩
                        exact scans_append (scanStart opened false _ rfl) (scanned _ false _ rfl)
                    · next notClose =>
                        rcases Option.map_eq_some_iff.mp found with ⟨⟨items, after⟩, inner, pair⟩
                        cases pair
                        rcases scans_gap tail with ⟨gap, gapped, scanGap⟩
                        rcases lists _ items _ inner named' with ⟨text, same, scanned⟩
                        refine ⟨start ++ (gap ++ text), by rw [started, gapped, same]; simp,
                          fun opened => ?_⟩
                        exact scans_append (scanStart opened false _ rfl)
                          (scans_append (scanGap _ false) (scanned opened))
                · next notBracket =>
                    rcases skipSpace_quiet bytes with ⟨space, spaced, quiet⟩
                    rcases scans_scalar gathers found with ⟨once, text, same, scanned⟩
                    refine ⟨space ++ text, by rw [spaced, skipped, same]; simp, fun opened => ?_⟩
                    rw [once]
                    exact scans_append (scans_quiet quiet) (scanned opened)
      · rw [JsonText.readItemsWith] at found
        cases first : JsonText.readWith strings fuel bytes with
        | none => simp [first] at found
        | some pair =>
            rcases pair with ⟨item, after⟩
            rw [first] at found
            simp only at found
            split at found
            · next close =>
                cases found
                simp only [Json.namedItems, Bool.and_true] at named'
                rcases values bytes item after first named' with ⟨text, same, scanned⟩
                rcases scans_token close with ⟨ending, ended, scanEnd⟩
                refine ⟨text ++ ending, by rw [same, ended]; simp, fun opened => ?_⟩
                rw [Json.distinctItems, Json.distinctItems]
                exact scans_append (scanned _) (scanEnd _ false _ rfl)
            · next later comma =>
                rcases Option.map_eq_some_iff.mp found with ⟨⟨others, last⟩, inner, pair⟩
                cases pair
                rw [Json.namedItems, Bool.and_eq_true] at named'
                rcases values bytes item after first named'.1 with ⟨text, same, scanned⟩
                rcases scans_token comma with ⟨between, parted, scanComma⟩
                rcases lists later others _ inner named'.2 with ⟨back, continued, scanMore⟩
                refine ⟨text ++ (between ++ back), by rw [same, parted, continued]; simp,
                  fun opened => ?_⟩
                rw [Json.distinctItems]
                exact scans_append (scanned _)
                  (scans_append (scanComma _ false _ rfl) (scanMore opened))
            · cases found
      · rw [JsonText.readMembersWith] at found
        split at found
        · next tail quote =>
            rcases skipSpace_quiet bytes with ⟨space, spaced, quiet⟩
            cases label : strings fuel tail with
            | none => simp [label] at found
            | some pair =>
                rcases pair with ⟨name, afterName⟩
                rw [label] at found
                simp only at found
                split at found
                · next afterColon colon =>
                    rcases scans_token colon with ⟨between, separated, scanColon⟩
                    cases held : JsonText.readWith strings fuel afterColon with
                    | none => simp [held] at found
                    | some pair =>
                        rcases pair with ⟨value, afterValue⟩
                        rw [held] at found
                        simp only at found
                        split at found
                        · next close =>
                            cases found
                            simp only [Json.namedMembers, Bool.and_true, Bool.and_eq_true]
                              at named'
                            rcases scans_name gathers label named'.1 with ⟨title, named, scanName⟩
                            rcases values afterColon value afterValue held named'.2
                              with ⟨text, same, scanned⟩
                            rcases scans_token close with ⟨ending, ended, scanEnd⟩
                            refine ⟨space ++ (title ++ (between ++ (text ++ ending))), by
                              rw [spaced, quote, named, separated, same, ended]; simp,
                              fun opened seen => ?_⟩
                            have value := scans_append (scanColon _ false _ rfl)
                              (scans_append (scanned (some (name :: seen) :: opened))
                                (scanEnd _ false ⟨opened, false, none⟩ rfl))
                            have whole := scans_append (scans_quiet quiet)
                              (scans_append (scanName opened seen) value)
                            simpa only [Json.distinctMembers, Bool.true_and, Bool.and_true]
                              using whole
                        · next later comma =>
                            rcases Option.map_eq_some_iff.mp found with
                              ⟨⟨others, last⟩, inner, pair⟩
                            cases pair
                            simp only [Json.namedMembers, Bool.and_eq_true] at named'
                            rcases scans_name gathers label named'.1.1 with ⟨title, named, scanName⟩
                            rcases values afterColon value afterValue held named'.1.2
                              with ⟨text, same, scanned⟩
                            rcases scans_token comma with ⟨parting, parted, scanComma⟩
                            rcases objects later others _ inner named'.2
                              with ⟨back, continued, scanMore⟩
                            refine ⟨space ++ (title ++ (between ++ (text ++ (parting ++ back)))), by
                              rw [spaced, quote, named, separated, same, parted, continued]; simp,
                              fun opened seen => ?_⟩
                            have rest := scans_append (scanComma (some (name :: seen) :: opened)
                              false _ rfl) (scanMore opened (name :: seen))
                            have value := scans_append (scanColon _ false _ rfl)
                              (scans_append (scanned _) rest)
                            have whole := scans_append (scans_quiet quiet)
                              (scans_append (scanName opened seen) value)
                            simpa only [Json.distinctMembers, Bool.true_and, Bool.and_assoc]
                              using whole
                        · cases found
                · cases found
        · cases found

/-- A document a reader of strings has read is scanned to its end, unless a name repeats. -/
theorem readDocumentWith_scans {strings : Nat → Bytes → Option (Bytes × Bytes)}
    (gathers : Gathers strings) {data : Bytes} {tree : Json}
    (read : JsonText.readDocumentWith strings data = some tree) (named : tree.named = true) :
    Scans data ⟨[], false, none⟩ ⟨[], false, none⟩ tree.distinct := by
  rw [JsonText.readDocumentWith] at read
  split at read
  · next value rest held =>
      split at read
      · next blank =>
          cases read
          rcases (readWith_scans gathers _).1 data tree rest held named with ⟨text, same, scanned⟩
          have trailing : Scans rest ⟨[], false, none⟩ ⟨[], false, none⟩ true :=
            scans_quiet (fun b inside => isQuiet_of_space (List.all_eq_true.mp blank b inside))
          have whole := scans_append (scanned []) trailing
          rwa [← same, Bool.and_true] at whole
      · cases read
  · cases read

/-- The scan ends with a repeated name or without one. -/
theorem duplicateKey_of_scans {data : Bytes} {distinct : Bool}
    (scans : Scans data ⟨[], false, none⟩ ⟨[], false, none⟩ distinct) :
    (distinct = true → duplicateKey data = .ok none) ∧
      (distinct = false → ∃ name, duplicateKey data = .ok (some name)) := by
  constructor
  · intro once
    rw [duplicateKey, scans.1 once]
    rfl
  · intro repeated
    rcases scans.2 repeated with ⟨name, stopped⟩
    exact ⟨name, by rw [duplicateKey, stopped]⟩

/-- On text a strict reader has read, the scan finds no repeated name exactly
when the document has none. -/
theorem duplicateKey_eq_none_iff {data : Bytes} {tree : Json}
    (read : JsonText.readDocument data = some tree) (textual : tree.textual = true) :
    duplicateKey data = .ok none ↔ tree.distinct = true := by
  rw [← JsonText.readDocumentWith_readString] at read
  have result := duplicateKey_of_scans
    (readDocumentWith_scans gathers_strict read (Json.named_of_textual textual))
  cases once : tree.distinct with
  | true => simp [result.1 once]
  | false =>
      rcases result.2 once with ⟨name, found⟩
      simp [found]

/-! ## The visitor of the artifact package -/

/-- The visitor takes a text: it can be read, and the visit goes through. -/
def visitorAccepts (data : Bytes) : Bool :=
  (JsonText.readDocument data).any (ArtifactStore.noDuplicates ArtifactStore.visitLimit)

/-- On text whose member names are UTF-8 the scan finds a name exactly when an object has
it twice, and is never at a loss; where the visitor can follow, it refuses the same. -/
theorem duplicateKey_spec {data : Bytes} {tree : Json} (valid : Utf8.Valid data)
    (read : JsonText.readDocumentLenient data = some tree) (named : tree.named = true) :
    ((∃ name, duplicateKey data = .ok (some name)) ↔ tree.distinct = false) ∧
      (∀ error, duplicateKey data ≠ .error error) ∧
      (tree.textual = true → tree.nesting ≤ ArtifactStore.visitLimit →
        (visitorAccepts data = false ↔ ∃ name, duplicateKey data = .ok (some name))) := by
  have result := duplicateKey_of_scans (readDocumentWith_scans gathers_lenient read named)
  have found : (∃ name, duplicateKey data = .ok (some name)) ↔ tree.distinct = false := by
    cases once : tree.distinct with
    | true => simp [result.1 once]
    | false => simpa using result.2 once
  refine ⟨found, ?_, fun textual shallow => ?_⟩
  · intro error failed
    cases once : tree.distinct with
    | true =>
        rw [result.1 once] at failed
        cases failed
    | false =>
        rcases result.2 once with ⟨name, stopped⟩
        rw [stopped] at failed
        cases failed
  · have strict := (JsonText.readDocument_textual_iff textual).mpr ⟨valid, read⟩
    rw [found, visitorAccepts, strict, Option.any_some, ArtifactStore.noDuplicates_eq, textual,
      decide_eq_true shallow, Bool.true_and, Bool.and_true]

/-- A name written twice, once with an escape, inside an array. -/
def repeatedName : Bytes := utf8 "\x7b\"a\":[\x7b\"c\":1,\"\\u0063\":2\x7d]\x7d"

theorem duplicateKey_repeatedName : (∃ name, duplicateKey repeatedName = .ok (some name)) ∧
    visitorAccepts repeatedName = false := by
  have read : JsonText.readDocumentLenient repeatedName = some (.object [([97], .array [.object
      [([99], .number ⟨[49], by decide, by decide⟩),
        ([99], .number ⟨[50], by decide, by decide⟩)]])]) := by rfl
  have spec := duplicateKey_spec (by decide) read rfl
  have found := spec.1.mpr rfl
  exact ⟨found, (spec.2.2 rfl (by decide)).mpr found⟩

/-- A member name that is a lone surrogate is valid JSON, and stops the scan. -/
theorem duplicateKey_surrogate :
    (JsonText.readDocumentLenient (utf8 "\x7b\"\\ud800\":1\x7d")).isSome = true ∧
      duplicateKey (utf8 "\x7b\"\\ud800\":1\x7d") =
        .error "member name while scanning for duplicates" := by
  exact ⟨by rfl, by rfl⟩

end Produce
end CapsuleEmit
