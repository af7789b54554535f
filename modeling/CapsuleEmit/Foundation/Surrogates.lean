import CapsuleEmit.Foundation.JsonText
import CapsuleEmit.Foundation.Utf8

namespace CapsuleEmit
namespace JsonText

/-!
# Readers that keep lone surrogates

A reader whose strings are sequences of code points keeps an escape that
names a lone surrogate; a reader whose strings are UTF-8 refuses it.  Both
are one reader over the way strings are read.  The bytes of a lone surrogate
are those its number would have in UTF-8.

The two agree on every document whose strings are UTF-8, and the text of such
a document is UTF-8 as a whole: outside its strings it is ASCII, and inside
them an escape is ASCII and stands for whole characters.
-/

/-! ## Strings -/

/-- What follows the reverse solidus, a lone surrogate included. -/
def readEscapeLenient : Bytes → Option (Bytes × Bytes)
  | 117 :: a :: b :: c :: d :: rest =>
      match codeUnit a b c d with
      | none => none
      | some unit =>
          if 0xD800 ≤ unit ∧ unit < 0xDC00 then
            match rest with
            | 92 :: 117 :: a :: b :: c :: d :: after =>
                match codeUnit a b c d with
                | none => none
                | some low =>
                    if 0xDC00 ≤ low ∧ low < 0xE000 then
                      some (codePoint (0x10000 + (unit - 0xD800) * 1024 + (low - 0xDC00)), after)
                    else some (codePoint unit, rest)
            | _ => some (codePoint unit, rest)
          else some (codePoint unit, rest)
  | e :: rest => (simpleEscape e).map (fun b => ([b], rest))
  | [] => none

/-- The rest of a string after its opening quotation mark, over a reader of
escapes. -/
def readStringWith (escape : Bytes → Option (Bytes × Bytes)) :
    Nat → Bytes → Option (Bytes × Bytes)
  | 0, _ => none
  | _ + 1, [] => none
  | fuel + 1, b :: rest =>
      if b = 34 then some ([], rest)
      else if b = 92 then
        match escape rest with
        | none => none
        | some (content, rest) =>
            (readStringWith escape fuel rest).map (fun read => (content ++ read.1, read.2))
      else if b < 32 then none
      else (readStringWith escape fuel rest).map (fun read => (b :: read.1, read.2))

theorem readStringWith_readEscape (fuel : Nat) (bytes : Bytes) :
    readStringWith readEscape fuel bytes = readString fuel bytes := by
  induction fuel generalizing bytes with
  | zero => rfl
  | succ fuel ih =>
      cases bytes with
      | nil => rfl
      | cons b rest =>
          rw [readStringWith, readString, ih]
          split_ifs
          · rfl
          · cases readEscape rest with
            | none => rfl
            | some found => simp only [ih]
          · rfl
          · rfl

/-! ## Documents -/

section

variable (strings : Nat → Bytes → Option (Bytes × Bytes))

/-- A token that is neither an object nor an array. -/
def readScalarWith (fuel : Nat) (b : UInt8) (rest : Bytes) : Option (Json × Bytes) :=
  if b = 34 then (strings fuel rest).map (fun found => (.string found.1, found.2))
  else if b = 110 then (expect [117, 108, 108] rest).map (fun rest => (.null, rest))
  else if b = 116 then (expect [114, 117, 101] rest).map (fun rest => (.bool true, rest))
  else if b = 102 then (expect [97, 108, 115, 101] rest).map (fun rest => (.bool false, rest))
  else (readNumber (b :: rest)).map (fun found => (.number found.1, found.2))

mutual
/-- One value and the bytes left after it, over a reader of strings. -/
def readWith : Nat → Bytes → Option (Json × Bytes)
  | 0, _ => none
  | fuel + 1, bytes =>
      match skipSpace bytes with
      | [] => none
      | b :: rest =>
          if b = 123 then
            match skipSpace rest with
            | 125 :: rest => some (.object [], rest)
            | rest => (readMembersWith fuel rest).map (fun found => (.object found.1, found.2))
          else if b = 91 then
            match skipSpace rest with
            | 93 :: rest => some (.array [], rest)
            | rest => (readItemsWith fuel rest).map (fun found => (.array found.1, found.2))
          else readScalarWith strings fuel b rest

/-- The items of an array that has at least one, and the closing bracket. -/
def readItemsWith : Nat → Bytes → Option (List Json × Bytes)
  | 0, _ => none
  | fuel + 1, bytes =>
      match readWith fuel bytes with
      | none => none
      | some (item, rest) =>
          match skipSpace rest with
          | 93 :: rest => some ([item], rest)
          | 44 :: rest => (readItemsWith fuel rest).map (fun found => (item :: found.1, found.2))
          | _ => none

/-- The members of an object that has at least one, and the closing brace. -/
def readMembersWith : Nat → Bytes → Option (List (Bytes × Json) × Bytes)
  | 0, _ => none
  | fuel + 1, bytes =>
      match skipSpace bytes with
      | 34 :: rest =>
          match strings fuel rest with
          | none => none
          | some (name, rest) =>
              match skipSpace rest with
              | 58 :: rest =>
                  match readWith fuel rest with
                  | none => none
                  | some (value, rest) =>
                      match skipSpace rest with
                      | 125 :: rest => some ([(name, value)], rest)
                      | 44 :: rest =>
                          (readMembersWith fuel rest).map
                            (fun found => ((name, value) :: found.1, found.2))
                      | _ => none
              | _ => none
      | _ => none
end

/-- A whole document: one value and nothing but whitespace after it. -/
def readDocumentWith (bytes : Bytes) : Option Json :=
  match readWith strings (bytes.length + 1) bytes with
  | some (document, rest) => if rest.all isSpace then some document else none
  | none => none

end

/-- A document whose strings may hold lone surrogates. -/
def readDocumentLenient : Bytes → Option Json :=
  readDocumentWith (readStringWith readEscapeLenient)

example : readDocumentLenient [34, 92, 117, 100, 56, 48, 48, 34] =
    some (.string [0xED, 0xA0, 0x80]) := by rfl

theorem readWith_readString (fuel : Nat) :
    (∀ bytes, readWith readString fuel bytes = read fuel bytes) ∧
      (∀ bytes, readItemsWith readString fuel bytes = readItems fuel bytes) ∧
        ∀ bytes, readMembersWith readString fuel bytes = readMembers fuel bytes := by
  induction fuel with
  | zero => exact ⟨fun _ => rfl, fun _ => rfl, fun _ => rfl⟩
  | succ fuel ih =>
      rcases ih with ⟨values, items, members⟩
      refine ⟨fun bytes => ?_, fun bytes => ?_, fun bytes => ?_⟩
      · simp only [readWith, read, items, members, readScalarWith] <;> rfl
      · simp only [readItemsWith, readItems, values, items] <;> rfl
      · simp only [readMembersWith, readMembers, values, members] <;> rfl

theorem readDocumentWith_readString (bytes : Bytes) :
    readDocumentWith readString bytes = readDocument bytes := by
  rw [readDocumentWith, readDocument, (readWith_readString _).1] <;> rfl

/-! ## Escapes -/

theorem codePoint_eq_encode {n : Nat} (scalar : n.isValidChar) :
    codePoint n = String.utf8EncodeChar (Char.ofNat n) := by
  have value : (Char.ofNat n).val.toNat = n := by
    rw [Char.ofNat, dif_pos scalar]
    rfl
  have bound : n < 0x110000 := by
    rcases scalar with low | ⟨-, high⟩ <;> omega
  simp only [codePoint, String.utf8EncodeChar, value]
  have sum : ∀ a b : Nat, a + b = b + a := Nat.add_comm
  split_ifs with one <;> try omega
  · rfl
  · rw [Nat.mod_eq_of_lt (by omega : n / 64 < 32), sum 0xC0, sum 0x80]
  · rw [Nat.mod_eq_of_lt (by omega : n / 4096 < 16), sum 0xE0, sum 0x80, sum 0x80]
  · rw [Nat.mod_eq_of_lt (by omega : n / 262144 < 8), sum 0xF0, sum 0x80, sum 0x80, sum 0x80]

theorem codePoint_surrogate {n : Nat} (low : 0xD800 ≤ n) (high : n < 0xE000) :
    ∃ x y, codePoint n = [0xED, x, y] ∧ 0xA0 ≤ x := by
  rw [codePoint, if_neg (by omega), if_neg (by omega), if_pos (by omega)]
  have page : 0xE0 + n / 4096 = 0xED := by omega
  refine ⟨_, _, by rw [page]; rfl, ?_⟩
  rw [UInt8.le_iff_toNat_le, UInt8.toNat_ofNat', Nat.mod_eq_of_lt (by omega)]
  change 160 ≤ _
  omega

theorem hexValue_spec {b : UInt8} {n : Nat} (digit : hexValue b = some n) : b < 0x80 ∧ n < 16 := by
  have bound := b.toNat_lt
  unfold hexValue at digit
  simp only [UInt8.le_iff_toNat_le, UInt8.lt_iff_toNat_lt] at digit ⊢
  change _ < 128 ∧ _
  split_ifs at digit with number lower upper
  · rcases number with ⟨from48, to57⟩
    change 48 ≤ _ at from48
    change _ ≤ 57 at to57
    cases digit
    omega
  · rcases lower with ⟨from97, to102⟩
    change 97 ≤ _ at from97
    change _ ≤ 102 at to102
    cases digit
    omega
  · rcases upper with ⟨from65, to70⟩
    change 65 ≤ _ at from65
    change _ ≤ 70 at to70
    cases digit
    omega

theorem codeUnit_spec {a b c d : UInt8} {unit : Nat} (found : codeUnit a b c d = some unit) :
    (∀ x ∈ [a, b, c, d], x < 0x80) ∧ unit < 0x10000 := by
  simp only [codeUnit, bind, Option.bind_eq_some_iff, pure, Option.some.injEq] at found
  rcases found with ⟨i, first, j, second, k, third, l, fourth, rfl⟩
  constructor
  · simp only [List.mem_cons, List.not_mem_nil, or_false, forall_eq_or_imp, forall_eq]
    exact ⟨(hexValue_spec first).1, (hexValue_spec second).1, (hexValue_spec third).1,
      (hexValue_spec fourth).1⟩
  · have first := (hexValue_spec first).2
    have second := (hexValue_spec second).2
    have third := (hexValue_spec third).2
    have fourth := (hexValue_spec fourth).2
    omega

theorem simpleEscape_spec {e b : UInt8} (found : simpleEscape e = some b) :
    e < 0x80 ∧ ∃ c, [b] = String.utf8EncodeChar c := by
  have character : ∀ n : Nat, n < 0x80 → ∃ c, [UInt8.ofNat n] = String.utf8EncodeChar c :=
    fun n ascii => ⟨Char.ofNat n, (Utf8.encode_ascii ascii).symm⟩
  unfold simpleEscape at found
  split_ifs at found with h h h h h h h h <;> cases found <;> subst h
  · exact ⟨by decide, character 34 (by decide)⟩
  · exact ⟨by decide, character 92 (by decide)⟩
  · exact ⟨by decide, character 47 (by decide)⟩
  · exact ⟨by decide, character 8 (by decide)⟩
  · exact ⟨by decide, character 12 (by decide)⟩
  · exact ⟨by decide, character 10 (by decide)⟩
  · exact ⟨by decide, character 13 (by decide)⟩
  · exact ⟨by decide, character 9 (by decide)⟩

/-- The bytes are those of a lone surrogate. -/
def Surrogate (content : Bytes) : Prop := ∃ x y, content = [0xED, x, y] ∧ 0xA0 ≤ x

/-- What an escape is read as, next to another reader of escapes: ASCII that
stands for one character to both, or for a lone surrogate. -/
def Escapes (escape other : Bytes → Option (Bytes × Bytes)) : Prop :=
  ∀ bytes content rest, escape bytes = some (content, rest) →
    ∃ text, bytes = text ++ rest ∧ (∀ b ∈ text, b < 0x80) ∧
      (((∃ c, content = String.utf8EncodeChar c) ∧ other bytes = some (content, rest)) ∨
        (Surrogate content ∧ other bytes = none))

theorem escapes_lenient : Escapes readEscapeLenient readEscape := by
  intro bytes content rest found
  unfold readEscapeLenient at found
  split at found
  · next a b c d tail =>
      rw [readEscape]
      cases first : codeUnit a b c d with
      | none => simp [first] at found
      | some unit =>
          rcases codeUnit_spec first with ⟨digits, small⟩
          have ascii : ∀ x ∈ [117, a, b, c, d], x < 0x80 := by
            intro x inside
            rcases List.mem_cons.mp inside with rfl | inside
            · decide
            · exact digits x inside
          rw [first] at found
          simp only at found ⊢
          split at found
          · next high =>
              rw [if_pos high]
              have lone : Surrogate (codePoint unit) := codePoint_surrogate high.1 (by omega)
              split at found
              · next e f g h after =>
                  cases second : codeUnit e f g h with
                  | none => simp [second] at found
                  | some low =>
                      rcases codeUnit_spec second with ⟨others, -⟩
                      simp only [second] at found ⊢
                      split at found
                      · next pair =>
                          rcases Prod.mk.inj (Option.some.inj found) with ⟨rfl, rfl⟩
                          rw [if_pos pair]
                          refine ⟨[117, a, b, c, d] ++ ([92, 117] ++ [e, f, g, h]), rfl, ?_,
                            Or.inl ⟨⟨_, codePoint_eq_encode (Or.inr ⟨by omega, by omega⟩)⟩, rfl⟩⟩
                          intro x inside
                          rcases List.mem_append.mp inside with inside | inside
                          · exact ascii x inside
                          · rcases List.mem_append.mp inside with inside | inside
                            · have pair : ∀ x ∈ [(92 : UInt8), 117], x < 0x80 := by decide
                              exact pair x inside
                            · exact others x inside
                      · next single =>
                          cases found
                          rw [if_neg single]
                          exact ⟨[117, a, b, c, d], rfl, ascii, Or.inr ⟨lone, rfl⟩⟩
              · next other =>
                  cases found
                  refine ⟨[117, a, b, c, d], rfl, ascii, Or.inr ⟨lone, ?_⟩⟩
                  first
                    | rfl
                    | split
                      · next e f g h after => exact absurd rfl (other e f g h after)
                      · rfl
          · next notHigh =>
              cases found
              rw [if_neg notHigh]
              refine ⟨[117, a, b, c, d], rfl, ascii, ?_⟩
              by_cases low : 0xDC00 ≤ unit ∧ unit < 0xE000
              · rw [if_pos low]
                exact Or.inr ⟨codePoint_surrogate (by omega) low.2, rfl⟩
              · rw [if_neg low]
                exact Or.inl ⟨⟨_, codePoint_eq_encode (by unfold Nat.isValidChar; omega)⟩, rfl⟩
  · next e tail notUnicode =>
      rcases Option.map_eq_some_iff.mp found with ⟨b, simple, pair⟩
      cases pair
      rcases simpleEscape_spec simple with ⟨ascii, character⟩
      refine ⟨[e], rfl, by simpa using ascii, Or.inl ⟨character, ?_⟩⟩
      rw [readEscape]
      · rw [simple]
        rfl
      · exact notUnicode
  · cases found

theorem readEscapeLenient_of_strict {bytes content rest : Bytes}
    (found : readEscape bytes = some (content, rest)) :
    readEscapeLenient bytes = some (content, rest) := by
  unfold readEscape at found
  unfold readEscapeLenient
  split at found
  · next a b c d tail =>
      cases first : codeUnit a b c d with
      | none => simp [first] at found
      | some unit =>
          simp only [first] at found ⊢
          split at found
          · next high =>
              rw [if_pos high]
              split at found
              · next e f g h after =>
                  cases second : codeUnit e f g h with
                  | none => simp [second] at found
                  | some low =>
                      simp only [second] at found ⊢
                      split at found
                      · next pair => rw [if_pos pair, found]
                      · cases found
              · cases found
          · next notHigh =>
              rw [if_neg notHigh]
              split at found
              · cases found
              · exact found
  · next e tail notUnicode => simpa using found
  · cases found

theorem escapes_strict : Escapes readEscape readEscapeLenient := by
  intro bytes content rest found
  have lenient := readEscapeLenient_of_strict found
  rcases escapes_lenient bytes content rest lenient with ⟨text, same, ascii, meaning⟩
  rcases meaning with ⟨character, -⟩ | ⟨-, refused⟩
  · exact ⟨text, same, ascii, Or.inl ⟨character, lenient⟩⟩
  · rw [found] at refused
    cases refused

/-! ## The text of a document that is UTF-8 -/

end JsonText

namespace Json

mutual
/-- Every string and every member name of a document is UTF-8. -/
def textual : Json → Bool
  | .null => true
  | .bool _ => true
  | .number _ => true
  | .string bytes => (utf8? bytes).isSome
  | .array items => textualItems items
  | .object members => textualMembers members

def textualItems : List Json → Bool
  | [] => true
  | item :: items => textual item && textualItems items

def textualMembers : List (Bytes × Json) → Bool
  | [] => true
  | (name, value) :: members => (utf8? name).isSome && textual value && textualMembers members
end

end Json

namespace JsonText

open Utf8

/-- What a string is read as, next to another reader of strings: where the
content is UTF-8, so is the text, and the other reads the same. -/
def Agrees (strings other : Nat → Bytes → Option (Bytes × Bytes)) : Prop :=
  ∀ fuel bytes content rest, strings fuel bytes = some (content, rest) →
    ∃ text, bytes = text ++ rest ∧
      (Utf8.Valid content → Utf8.Valid text ∧ other fuel bytes = some (content, rest))

/-- The step of `agrees_of_escapes`: an escape ends a run of content bytes, and
the bytes of the run stand in the text as they are. -/
theorem readStringWith_agrees {escape other : Bytes → Option (Bytes × Bytes)}
    (escapes : Escapes escape other) {fuel : Nat} {bytes content rest : Bytes}
    (found : readStringWith escape fuel bytes = some (content, rest)) :
    ∃ text, bytes = text ++ rest ∧ ∀ run, Utf8.Valid (run ++ content) →
      Utf8.Valid (run ++ text) ∧ readStringWith other fuel bytes = some (content, rest) := by
  induction fuel generalizing bytes content with
  | zero => cases found
  | succ fuel ih =>
      cases bytes with
      | nil => cases found
      | cons b tail =>
          rw [readStringWith] at found
          simp only [readStringWith]
          split at found
          · next quote =>
              cases found
              refine ⟨[b], rfl, fun run valid => ⟨?_, by rw [if_pos quote]⟩⟩
              rw [List.append_nil] at valid
              exact Utf8.valid_append valid (Utf8.valid_ascii (by rw [quote]; decide))
          · next notQuote =>
              rw [if_neg notQuote]
              split at found
              · next solidus =>
                  rw [if_pos solidus]
                  cases escaped : escape tail with
                  | none => simp [escaped] at found
                  | some pair =>
                      rcases pair with ⟨front, after⟩
                      rw [escaped] at found
                      rcases Option.map_eq_some_iff.mp found with ⟨⟨back, last⟩, inner, same⟩
                      cases same
                      rcases escapes tail front after escaped with ⟨written, rfl, ascii, meaning⟩
                      rcases ih inner with ⟨text, rfl, agree⟩
                      refine ⟨b :: (written ++ text), by simp, fun run valid => ?_⟩
                      rcases meaning with ⟨⟨c, rfl⟩, same⟩ | ⟨⟨x, y, rfl, high⟩, -⟩
                      · have cut := Utf8.valid_cut valid (Utf8.starts_encode c back)
                        have character := Utf8.valid_iff.mpr ⟨[c], (List.flatMap_singleton ..).symm⟩
                        rcases agree _ cut.2 with ⟨whole, read⟩
                        rw [same]
                        simp only [read]
                        refine ⟨Utf8.valid_append cut.1 ?_, rfl⟩
                        have token : Utf8.Valid (b :: written) := by
                          apply Utf8.valid_of_ascii
                          intro x inside
                          rcases List.mem_cons.mp inside with rfl | inside
                          · rw [solidus]
                            decide
                          · exact ascii x inside
                        exact Utf8.valid_append token (Utf8.valid_tail whole character)
                      · -- no text has a surrogate in it
                        have plain := (List.isChain_append.mp (Utf8.plain_of_valid valid)).2.1
                        rw [List.cons_append, List.cons_append, List.isChain_cons_cons] at plain
                        exact absurd (plain.1 rfl) (UInt8.not_lt.mpr high)
              · next notSolidus =>
                  rw [if_neg notSolidus]
                  split at found
                  · cases found
                  · next notControl =>
                      rw [if_neg notControl]
                      rcases Option.map_eq_some_iff.mp found with ⟨⟨back, last⟩, inner, same⟩
                      cases same
                      rcases ih inner with ⟨text, rfl, agree⟩
                      refine ⟨b :: text, rfl, fun run valid => ?_⟩
                      rcases agree (run ++ [b]) (by simpa using valid) with ⟨whole, read⟩
                      rw [read]
                      exact ⟨by simpa using whole, rfl⟩

theorem agrees_of_escapes {escape other : Bytes → Option (Bytes × Bytes)}
    (escapes : Escapes escape other) : Agrees (readStringWith escape) (readStringWith other) := by
  intro fuel bytes content rest found
  rcases readStringWith_agrees escapes found with ⟨text, same, agree⟩
  exact ⟨text, same, agree []⟩

theorem valid_of_space {bytes : Bytes} (blank : bytes.all isSpace = true) : Valid bytes := by
  apply valid_of_ascii
  intro b inside
  have space := List.all_eq_true.mp blank b inside
  simp only [isSpace, Bool.or_eq_true, decide_eq_true_eq] at space
  rcases space with ((rfl | rfl) | rfl) | rfl <;> decide

theorem skipSpace_split (bytes : Bytes) :
    ∃ space, bytes = space ++ skipSpace bytes ∧ Valid space :=
  ⟨bytes.takeWhile isSpace, (List.takeWhile_append_dropWhile ..).symm,
    valid_of_space List.all_takeWhile⟩

theorem skipSpace_cut {bytes tail : Bytes} {b : UInt8} (found : skipSpace bytes = b :: tail)
    (ascii : b < 0x80) : ∃ front, bytes = front ++ tail ∧ Valid front := by
  rcases skipSpace_split bytes with ⟨space, same, valid⟩
  exact ⟨space ++ [b], by rw [same, found]; simp, valid_append valid (valid_ascii ascii)⟩

theorem expect_split {front bytes rest : Bytes} (found : expect front bytes = some rest) :
    bytes = front ++ rest := by
  unfold expect at found
  split at found
  · next isPrefix =>
      rcases List.isPrefixOf_iff_prefix.mp isPrefix with ⟨tail, rfl⟩
      cases found
      rw [List.drop_left]
  · cases found

theorem readNumber_split {bytes rest : Bytes} {value : JsonNumber}
    (found : readNumber bytes = some (value, rest)) :
    ∃ text, bytes = text ++ rest ∧ Valid text := by
  unfold readNumber at found
  split at found
  · cases found
    refine ⟨_, (List.takeWhile_append_dropWhile ..).symm, ?_⟩
    apply valid_of_ascii
    intro b inside
    have number := List.all_eq_true.mp (List.all_takeWhile (p := isNumberByte) (l := bytes)) b inside
    simp only [isNumberByte, Bool.or_eq_true, Bool.and_eq_true, decide_eq_true_eq] at number
    rcases number with ((((⟨-, digit⟩ | rfl) | rfl) | rfl) | rfl) | rfl
    · exact UInt8.lt_of_le_of_lt digit (by decide)
    all_goals decide
  · cases found

section

variable {strings other : Nat → Bytes → Option (Bytes × Bytes)}

theorem readScalarWith_agrees (agrees : Agrees strings other) {fuel : Nat} {b : UInt8}
    {tail rest : Bytes} {value : Json}
    (found : readScalarWith strings fuel b tail = some (value, rest)) :
    ∃ text, b :: tail = text ++ rest ∧ (value.textual = true →
      Valid text ∧ readScalarWith other fuel b tail = some (value, rest)) := by
  have literal : ∀ (b : UInt8) (word after : Bytes), b < 0x80 → (∀ x ∈ word, x < 0x80) →
      b :: (word ++ after) = (b :: word) ++ after ∧ Valid (b :: word) :=
    fun b word after first others => ⟨rfl, valid_append (valid_ascii first) (valid_of_ascii others)⟩
  unfold readScalarWith at found ⊢
  split at found
  · next quote =>
      rcases Option.map_eq_some_iff.mp found with ⟨⟨content, after⟩, inner, pair⟩
      cases pair
      rcases agrees fuel tail content after inner with ⟨text, rfl, agree⟩
      refine ⟨b :: text, rfl, fun textual => ?_⟩
      rcases agree textual with ⟨valid, read⟩
      rw [if_pos quote, read]
      exact ⟨valid_append (valid_ascii (by rw [quote]; decide)) valid, rfl⟩
  · next notQuote =>
      rw [if_neg notQuote]
      split at found
      · next isNull =>
          rcases Option.map_eq_some_iff.mp found with ⟨after, inner, pair⟩
          cases pair
          rw [if_pos isNull, inner, expect_split inner]
          rcases literal b [117, 108, 108] rest (by rw [isNull]; decide) (by decide)
            with ⟨same, valid⟩
          exact ⟨_, same, fun _ => ⟨valid, rfl⟩⟩
      · next notNull =>
          rw [if_neg notNull]
          split at found
          · next isTrue =>
              rcases Option.map_eq_some_iff.mp found with ⟨after, inner, pair⟩
              cases pair
              rw [if_pos isTrue, inner, expect_split inner]
              rcases literal b [114, 117, 101] rest (by rw [isTrue]; decide) (by decide)
                with ⟨same, valid⟩
              exact ⟨_, same, fun _ => ⟨valid, rfl⟩⟩
          · next notTrue =>
              rw [if_neg notTrue]
              split at found
              · next isFalse =>
                  rcases Option.map_eq_some_iff.mp found with ⟨after, inner, pair⟩
                  cases pair
                  rw [if_pos isFalse, inner, expect_split inner]
                  rcases literal b [97, 108, 115, 101] rest (by rw [isFalse]; decide) (by decide)
                    with ⟨same, valid⟩
                  exact ⟨_, same, fun _ => ⟨valid, rfl⟩⟩
              · next notFalse =>
                  rcases Option.map_eq_some_iff.mp found with ⟨⟨number, after⟩, inner, pair⟩
                  cases pair
                  rcases readNumber_split inner with ⟨text, same, valid⟩
                  rw [if_neg notFalse, inner]
                  exact ⟨text, same, fun _ => ⟨valid, rfl⟩⟩

/-- Over readers of strings that agree, a value whose strings are UTF-8 has a
text that is UTF-8 and is read alike. -/
theorem readWith_agrees (agrees : Agrees strings other) (fuel : Nat) :
    (∀ bytes value rest, readWith strings fuel bytes = some (value, rest) →
      ∃ text, bytes = text ++ rest ∧ (value.textual = true →
        Valid text ∧ readWith other fuel bytes = some (value, rest))) ∧
    (∀ bytes items rest, readItemsWith strings fuel bytes = some (items, rest) →
      ∃ text, bytes = text ++ rest ∧ (Json.textualItems items = true →
        Valid text ∧ readItemsWith other fuel bytes = some (items, rest))) ∧
    (∀ bytes members rest, readMembersWith strings fuel bytes = some (members, rest) →
      ∃ text, bytes = text ++ rest ∧ (Json.textualMembers members = true →
        Valid text ∧ readMembersWith other fuel bytes = some (members, rest))) := by
  induction fuel with
  | zero => exact ⟨nofun, nofun, nofun⟩
  | succ fuel ih =>
      rcases ih with ⟨values, lists, objects⟩
      refine ⟨fun bytes value rest found => ?_, fun bytes items rest found => ?_,
        fun bytes members rest found => ?_⟩
      · rw [readWith] at found ⊢
        rcases skipSpace_split bytes with ⟨space, spaced, blank⟩
        cases skipped : skipSpace bytes with
        | nil => simp [skipped] at found
        | cons b tail =>
            rw [skipped] at found spaced
            simp only at found ⊢
            split at found
            · next brace =>
                rw [if_pos brace]
                have front : Valid (space ++ [b]) :=
                  valid_append blank (valid_ascii (by rw [brace]; decide))
                split at found
                · next after close =>
                    cases found
                    rcases skipSpace_cut close (by decide) with ⟨inner, same, valid⟩
                    exact ⟨space ++ [b] ++ inner, by rw [spaced, same]; simp,
                      fun _ => ⟨valid_append front valid, rfl⟩⟩
                · next notClose =>
                    rcases Option.map_eq_some_iff.mp found with ⟨⟨members, after⟩, inner, pair⟩
                    cases pair
                    rcases skipSpace_split tail with ⟨gap, gapped, clear⟩
                    rcases objects _ members _ inner with ⟨text, same, agree⟩
                    refine ⟨space ++ [b] ++ (gap ++ text), by rw [spaced, gapped, same]; simp,
                      fun textual => ?_⟩
                    rcases agree textual with ⟨valid, read⟩
                    rw [read]
                    exact ⟨valid_append front (valid_append clear valid), rfl⟩
            · next notBrace =>
                rw [if_neg notBrace]
                split at found
                · next bracket =>
                    rw [if_pos bracket]
                    have front : Valid (space ++ [b]) :=
                      valid_append blank (valid_ascii (by rw [bracket]; decide))
                    split at found
                    · next after close =>
                        cases found
                        rcases skipSpace_cut close (by decide) with ⟨inner, same, valid⟩
                        exact ⟨space ++ [b] ++ inner, by rw [spaced, same]; simp,
                          fun _ => ⟨valid_append front valid, rfl⟩⟩
                    · next notClose =>
                        rcases Option.map_eq_some_iff.mp found with ⟨⟨items, after⟩, inner, pair⟩
                        cases pair
                        rcases skipSpace_split tail with ⟨gap, gapped, clear⟩
                        rcases lists _ items _ inner with ⟨text, same, agree⟩
                        refine ⟨space ++ [b] ++ (gap ++ text), by rw [spaced, gapped, same]; simp,
                          fun textual => ?_⟩
                        rcases agree textual with ⟨valid, read⟩
                        rw [read]
                        exact ⟨valid_append front (valid_append clear valid), rfl⟩
                · next notBracket =>
                    rw [if_neg notBracket]
                    rcases readScalarWith_agrees agrees found with ⟨text, same, agree⟩
                    refine ⟨space ++ text, by rw [spaced, same]; simp, fun textual => ?_⟩
                    rcases agree textual with ⟨valid, read⟩
                    exact ⟨valid_append blank valid, read⟩
      · rw [readItemsWith] at found ⊢
        cases first : readWith strings fuel bytes with
        | none => simp [first] at found
        | some pair =>
            rcases pair with ⟨item, after⟩
            rw [first] at found
            rcases values bytes item after first with ⟨text, same, agree⟩
            simp only at found
            split at found
            · next close =>
                cases found
                rcases skipSpace_cut close (by decide) with ⟨inner, ended, valid⟩
                refine ⟨text ++ inner, by rw [same, ended]; simp, fun textual => ?_⟩
                simp only [Json.textualItems, Bool.and_true] at textual
                rcases agree textual with ⟨whole, read⟩
                rw [read]
                simp only [close]
                exact ⟨valid_append whole valid, trivial⟩
            · next later comma =>
                rcases Option.map_eq_some_iff.mp found with ⟨⟨others, last⟩, inner, pair⟩
                cases pair
                rcases skipSpace_cut comma (by decide) with ⟨gap, ended, valid⟩
                rcases lists later others _ inner with ⟨back, continued, more⟩
                refine ⟨text ++ (gap ++ back), by rw [same, ended, continued]; simp,
                  fun textual => ?_⟩
                rw [Json.textualItems, Bool.and_eq_true] at textual
                rcases agree textual.1 with ⟨whole, read⟩
                rcases more textual.2 with ⟨remaining, readMore⟩
                rw [read]
                simp only [comma, readMore]
                exact ⟨valid_append whole (valid_append valid remaining), rfl⟩
            · cases found
      · rw [readMembersWith] at found ⊢
        split at found
        · next tail quote =>
            rcases skipSpace_cut quote (by decide) with ⟨open', opened, quoted⟩
            cases label : strings fuel tail with
            | none => simp [label] at found
            | some pair =>
                rcases pair with ⟨name, afterName⟩
                rw [label] at found
                rcases agrees fuel tail name afterName label with ⟨title, named, agreeName⟩
                simp only at found
                split at found
                · next afterColon colon =>
                    rcases skipSpace_cut colon (by decide) with ⟨between, separated, valid⟩
                    cases held : readWith strings fuel afterColon with
                    | none => simp [held] at found
                    | some pair =>
                        rcases pair with ⟨value, afterValue⟩
                        rw [held] at found
                        rcases values afterColon value afterValue held with ⟨text, same, agree⟩
                        simp only at found
                        split at found
                        · next close =>
                            cases found
                            rcases skipSpace_cut close (by decide) with ⟨inner, ended, closed⟩
                            refine ⟨open' ++ (title ++ (between ++ (text ++ inner))),
                              by rw [opened, named, separated, same, ended]; simp, fun textual => ?_⟩
                            simp only [Json.textualMembers, Bool.and_true, Bool.and_eq_true]
                              at textual
                            rcases agreeName textual.1 with ⟨nameValid, readName⟩
                            rcases agree textual.2 with ⟨whole, read⟩
                            simp only [readName, colon, read, close]
                            exact ⟨valid_append quoted (valid_append nameValid
                              (valid_append valid (valid_append whole closed))), trivial⟩
                        · next later comma =>
                            rcases Option.map_eq_some_iff.mp found with
                              ⟨⟨others, last⟩, inner, pair⟩
                            cases pair
                            rcases skipSpace_cut comma (by decide) with ⟨gap, ended, parted⟩
                            rcases objects later others _ inner with ⟨back, continued, more⟩
                            refine ⟨open' ++ (title ++ (between ++ (text ++ (gap ++ back)))),
                              by rw [opened, named, separated, same, ended, continued]; simp,
                              fun textual => ?_⟩
                            simp only [Json.textualMembers, Bool.and_eq_true] at textual
                            rcases agreeName textual.1.1 with ⟨nameValid, readName⟩
                            rcases agree textual.1.2 with ⟨whole, read⟩
                            rcases more textual.2 with ⟨remaining, readMore⟩
                            simp only [readName, colon, read, comma, readMore]
                            exact ⟨valid_append quoted (valid_append nameValid (valid_append valid
                              (valid_append whole (valid_append parted remaining)))), rfl⟩
                        · cases found
                · cases found
        · cases found

theorem readDocumentWith_agrees (agrees : Agrees strings other) {bytes : Bytes} {document : Json}
    (found : readDocumentWith strings bytes = some document) (textual : document.textual = true) :
    Valid bytes ∧ readDocumentWith other bytes = some document := by
  rw [readDocumentWith] at found ⊢
  split at found
  · next value rest held =>
      split at found
      · next blank =>
          cases found
          rcases (readWith_agrees agrees _).1 bytes document rest held with ⟨text, same, agree⟩
          rcases agree textual with ⟨valid, read⟩
          rw [read]
          exact ⟨by rw [same]; exact valid_append valid (valid_of_space blank), by simp [blank]⟩
      · cases found
  · cases found

end

/-- A strict reader and one that keeps lone surrogates read a document whose
strings are UTF-8 alike, and its text is UTF-8. -/
theorem readDocument_textual_iff {bytes : Bytes} {document : Json}
    (textual : document.textual = true) : readDocument bytes = some document ↔
      Valid bytes ∧ readDocumentLenient bytes = some document := by
  have strict : readDocumentWith (readStringWith readEscape) bytes = readDocument bytes := by
    rw [← readDocumentWith_readString]
    congr 1
    funext fuel bytes
    exact readStringWith_readEscape fuel bytes
  constructor
  · intro found
    rw [← strict] at found
    exact readDocumentWith_agrees (agrees_of_escapes escapes_strict) found textual
  · rintro ⟨-, found⟩
    rw [← strict]
    exact (readDocumentWith_agrees (agrees_of_escapes escapes_lenient) found textual).2

end JsonText
end CapsuleEmit
