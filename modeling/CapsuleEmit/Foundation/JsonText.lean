import CapsuleEmit.Foundation.Json
import Mathlib.Tactic.Common

namespace CapsuleEmit
namespace JsonText

/-!
# A compact JSON writer and a strict reader

The writer puts no whitespace between tokens and escapes only what the
grammar requires: the quotation mark, the reverse solidus and the control
bytes.  The reader takes RFC 8259 text: whitespace between tokens, every
escape, surrogate pairs, and nothing after the document.  Strings are handled
as bytes; validity of their UTF-8 is left to whoever uses the value.

The reader is fuel-indexed over nesting and position.  Two facts carry the
laws of `TextForm.Lawful`.  A written document reads back for every fuel
larger than its length.  A document that has been read stays read when bytes
follow it, except that a number may go on; so an object that is complete
before its last byte would be read twice from the same bytes.
-/

/-! ## Strings -/

def hexDigit (n : Nat) : UInt8 := if n < 10 then UInt8.ofNat (48 + n) else UInt8.ofNat (87 + n)

/-- One content byte as written inside quotation marks. -/
def escapeByte (b : UInt8) : Bytes :=
  if b = 34 then [92, 34]
  else if b = 92 then [92, 92]
  else if b = 8 then [92, 98]
  else if b = 9 then [92, 116]
  else if b = 10 then [92, 110]
  else if b = 12 then [92, 102]
  else if b = 13 then [92, 114]
  else if b < 32 then [92, 117, 48, 48, hexDigit (b.toNat / 16), hexDigit (b.toNat % 16)]
  else [b]

def writeString (content : Bytes) : Bytes := 34 :: (content.flatMap escapeByte ++ [34])

def hexValue (b : UInt8) : Option Nat :=
  if 48 ≤ b ∧ b ≤ 57 then some (b.toNat - 48)
  else if 97 ≤ b ∧ b ≤ 102 then some (b.toNat - 87)
  else if 65 ≤ b ∧ b ≤ 70 then some (b.toNat - 55)
  else none

/-- The code unit four hexadecimal digits name. -/
def codeUnit (a b c d : UInt8) : Option Nat := do
  let a ← hexValue a
  let b ← hexValue b
  let c ← hexValue c
  let d ← hexValue d
  return ((a * 16 + b) * 16 + c) * 16 + d

/-- The UTF-8 bytes of a code point. -/
def codePoint (n : Nat) : Bytes :=
  if n < 0x80 then [UInt8.ofNat n]
  else if n < 0x800 then [UInt8.ofNat (0xC0 + n / 64), UInt8.ofNat (0x80 + n % 64)]
  else if n < 0x10000 then
    [UInt8.ofNat (0xE0 + n / 4096), UInt8.ofNat (0x80 + n / 64 % 64), UInt8.ofNat (0x80 + n % 64)]
  else
    [UInt8.ofNat (0xF0 + n / 262144), UInt8.ofNat (0x80 + n / 4096 % 64),
      UInt8.ofNat (0x80 + n / 64 % 64), UInt8.ofNat (0x80 + n % 64)]

/-- The content bytes of a one-letter escape. -/
def simpleEscape (e : UInt8) : Option UInt8 :=
  if e = 34 then some 34
  else if e = 92 then some 92
  else if e = 47 then some 47
  else if e = 98 then some 8
  else if e = 102 then some 12
  else if e = 110 then some 10
  else if e = 114 then some 13
  else if e = 116 then some 9
  else none

/-- What follows the reverse solidus: the content and the bytes left. -/
def readEscape : Bytes → Option (Bytes × Bytes)
  | 117 :: a :: b :: c :: d :: rest =>
      match codeUnit a b c d with
      | none => none
      | some unit =>
          if 0xD800 ≤ unit ∧ unit < 0xDC00 then
            match rest with
            | 92 :: 117 :: a :: b :: c :: d :: rest =>
                match codeUnit a b c d with
                | none => none
                | some low =>
                    if 0xDC00 ≤ low ∧ low < 0xE000 then
                      some (codePoint (0x10000 + (unit - 0xD800) * 1024 + (low - 0xDC00)), rest)
                    else none
            | _ => none
          else if 0xDC00 ≤ unit ∧ unit < 0xE000 then none
          else some (codePoint unit, rest)
  | e :: rest => (simpleEscape e).map (fun b => ([b], rest))
  | [] => none

/-- The rest of a string after its opening quotation mark. -/
def readString : Nat → Bytes → Option (Bytes × Bytes)
  | 0, _ => none
  | _ + 1, [] => none
  | fuel + 1, b :: rest =>
      if b = 34 then some ([], rest)
      else if b = 92 then
        match readEscape rest with
        | none => none
        | some (content, rest) =>
            (readString fuel rest).map (fun read => (content ++ read.1, read.2))
      else if b < 32 then none
      else (readString fuel rest).map (fun read => (b :: read.1, read.2))

/-! ## Documents -/

mutual
/-- The compact text of a document. -/
def write : Json → Bytes
  | .null => [110, 117, 108, 108]
  | .bool true => [116, 114, 117, 101]
  | .bool false => [102, 97, 108, 115, 101]
  | .number value => value.text
  | .string bytes => writeString bytes
  | .array [] => [91, 93]
  | .array (item :: items) => 91 :: (write item ++ writeItems items)
  | .object [] => [123, 125]
  | .object ((name, value) :: members) =>
      123 :: (writeString name ++ 58 :: (write value ++ writeMembers members))

def writeItems : List Json → Bytes
  | [] => [93]
  | item :: items => 44 :: (write item ++ writeItems items)

def writeMembers : List (Bytes × Json) → Bytes
  | [] => [125]
  | (name, value) :: members =>
      44 :: (writeString name ++ 58 :: (write value ++ writeMembers members))
end

def isSpace (b : UInt8) : Bool := b = 32 || b = 9 || b = 10 || b = 13

def skipSpace (bytes : Bytes) : Bytes := bytes.dropWhile isSpace

/-- The literal `front`, if the bytes start with it. -/
def expect (front bytes : Bytes) : Option Bytes :=
  if front.isPrefixOf bytes then some (bytes.drop front.length) else none

/-- A number: the longest run of number bytes, when it is a number text. -/
def readNumber (bytes : Bytes) : Option (JsonNumber × Bytes) :=
  if wellFormed : isNumberText (bytes.takeWhile isNumberByte) = true then
    some (⟨bytes.takeWhile isNumberByte, by simp, wellFormed⟩,
      bytes.dropWhile isNumberByte)
  else none

mutual
/-- One value and the bytes left after it. -/
def read : Nat → Bytes → Option (Json × Bytes)
  | 0, _ => none
  | fuel + 1, bytes =>
      match skipSpace bytes with
      | [] => none
      | b :: rest =>
          if b = 123 then
            match skipSpace rest with
            | 125 :: rest => some (.object [], rest)
            | rest => (readMembers fuel rest).map (fun found => (.object found.1, found.2))
          else if b = 91 then
            match skipSpace rest with
            | 93 :: rest => some (.array [], rest)
            | rest => (readItems fuel rest).map (fun found => (.array found.1, found.2))
          else if b = 34 then
            (readString fuel rest).map (fun found => (.string found.1, found.2))
          else if b = 110 then
            (expect [117, 108, 108] rest).map (fun rest => (.null, rest))
          else if b = 116 then
            (expect [114, 117, 101] rest).map (fun rest => (.bool true, rest))
          else if b = 102 then
            (expect [97, 108, 115, 101] rest).map (fun rest => (.bool false, rest))
          else (readNumber (b :: rest)).map (fun found => (.number found.1, found.2))

/-- The items of an array that has at least one, and the closing bracket. -/
def readItems : Nat → Bytes → Option (List Json × Bytes)
  | 0, _ => none
  | fuel + 1, bytes =>
      match read fuel bytes with
      | none => none
      | some (item, rest) =>
          match skipSpace rest with
          | 93 :: rest => some ([item], rest)
          | 44 :: rest => (readItems fuel rest).map (fun found => (item :: found.1, found.2))
          | _ => none

/-- The members of an object that has at least one, and the closing brace. -/
def readMembers : Nat → Bytes → Option (List (Bytes × Json) × Bytes)
  | 0, _ => none
  | fuel + 1, bytes =>
      match skipSpace bytes with
      | 34 :: rest =>
          match readString fuel rest with
          | none => none
          | some (name, rest) =>
              match skipSpace rest with
              | 58 :: rest =>
                  match read fuel rest with
                  | none => none
                  | some (value, rest) =>
                      match skipSpace rest with
                      | 125 :: rest => some ([(name, value)], rest)
                      | 44 :: rest =>
                          (readMembers fuel rest).map
                            (fun found => ((name, value) :: found.1, found.2))
                      | _ => none
              | _ => none
      | _ => none
end

/-- A whole document: one value and nothing but whitespace after it. -/
def readDocument (bytes : Bytes) : Option Json :=
  match read (bytes.length + 1) bytes with
  | some (document, rest) => if rest.all isSpace then some document else none
  | none => none

/-- The writer and the reader of this module. -/
def form : TextForm where
  toText := write
  ofText := readDocument

/-! ## Reading back what was written -/

theorem hexValue_hexDigit : ∀ n < 16, hexValue (hexDigit n) = some n := by decide

theorem codeUnit_control (b : UInt8) (control : b < 32) :
    codeUnit 48 48 (hexDigit (b.toNat / 16)) (hexDigit (b.toNat % 16)) = some b.toNat := by
  have small : b.toNat < 32 := UInt8.lt_iff_toNat_lt.mp control
  rw [codeUnit, hexValue_hexDigit _ (by omega), hexValue_hexDigit _ (by omega)]
  have zero : hexValue 48 = some 0 := by decide
  simp only [zero, bind, Option.bind, pure]
  congr 1
  omega

theorem readEscape_control (b : UInt8) (control : b < 32) (rest : Bytes) :
    readEscape (117 :: 48 :: 48 :: hexDigit (b.toNat / 16) :: hexDigit (b.toNat % 16) :: rest) =
      some ([b], rest) := by
  have small : b.toNat < 32 := UInt8.lt_iff_toNat_lt.mp control
  have unit : codePoint b.toNat = [b] := by
    rw [codePoint, if_pos (by omega), UInt8.ofNat_toNat]
  rw [readEscape, codeUnit_control b control]
  simp only
  rw [if_neg (by omega), if_neg (by omega), unit]

/-- A written content byte is read back at the cost of one unit of fuel. -/
theorem readString_escapeByte (fuel : Nat) (b : UInt8) (rest : Bytes) :
    readString (fuel + 1) (escapeByte b ++ rest) =
      (readString fuel rest).map (fun found => (b :: found.1, found.2)) := by
  unfold escapeByte
  split
  · next h => subst h; simp [readString, readEscape, simpleEscape]
  split
  · next h => subst h; simp [readString, readEscape, simpleEscape]
  split
  · next h => subst h; simp [readString, readEscape, simpleEscape]
  split
  · next h => subst h; simp [readString, readEscape, simpleEscape]
  split
  · next h => subst h; simp [readString, readEscape, simpleEscape]
  split
  · next h => subst h; simp [readString, readEscape, simpleEscape]
  split
  · next h => subst h; simp [readString, readEscape, simpleEscape]
  split
  · next control =>
      simp only [List.cons_append, List.nil_append, readString]
      rw [if_neg (by decide), if_pos trivial, readEscape_control b control]
      rfl
  · next notQuote notSolidus _ _ _ _ _ notControl =>
      simp only [List.cons_append, List.nil_append, readString]
      rw [if_neg notQuote, if_neg notSolidus, if_neg notControl]

theorem readString_write (content rest : Bytes) {fuel : Nat} (enough : content.length < fuel) :
    readString fuel (content.flatMap escapeByte ++ 34 :: rest) = some (content, rest) := by
  induction content generalizing fuel with
  | nil =>
      obtain ⟨fuel, rfl⟩ := Nat.exists_eq_add_one.mpr enough
      simp [readString]
  | cons b content ih =>
      obtain ⟨fuel, rfl⟩ := Nat.exists_eq_add_one.mpr (Nat.lt_of_le_of_lt (Nat.zero_le _) enough)
      rw [List.length_cons] at enough
      rw [List.flatMap_cons, List.append_assoc, readString_escapeByte, ih (by omega)]
      rfl

theorem length_escapeByte_pos (b : UInt8) : 0 < (escapeByte b).length := by
  unfold escapeByte
  split_ifs <;> simp

theorem length_le_writeString (content : Bytes) :
    content.length + 2 ≤ (writeString content).length := by
  induction content with
  | nil => simp [writeString]
  | cons b content ih =>
      have pos := length_escapeByte_pos b
      simp only [writeString, List.flatMap_cons, List.length_cons, List.length_append,
        List.length_nil] at ih ⊢
      omega

/-- The bytes after a value do not continue a number. -/
def Separated (rest : Bytes) : Prop := ∀ b tail, rest = b :: tail → isNumberByte b = false

theorem separated_nil : Separated [] := by
  intro b tail same
  cases same

theorem separated_cons {b : UInt8} (different : isNumberByte b = false) (tail : Bytes) :
    Separated (b :: tail) := by
  intro b' tail' same
  cases same
  exact different

theorem span_number {text rest : Bytes} (number : text.all isNumberByte = true)
    (separated : Separated rest) :
    (text ++ rest).takeWhile isNumberByte = text ∧
      (text ++ rest).dropWhile isNumberByte = rest := by
  induction text with
  | nil =>
      cases rest with
      | nil => simp
      | cons b tail => simp [separated b tail rfl]
  | cons b text ih =>
      simp only [List.all_cons, Bool.and_eq_true] at number
      simp [number.1, ih number.2]

theorem readNumber_text (value : JsonNumber) {rest : Bytes} (separated : Separated rest) :
    readNumber (value.text ++ rest) = some (value, rest) := by
  obtain ⟨taken, dropped⟩ := span_number value.bytes separated
  have wellFormed : isNumberText ((value.text ++ rest).takeWhile isNumberByte) = true := by
    rw [taken]
    exact value.wellFormed
  rw [readNumber, dif_pos wellFormed, dropped]
  congr 2
  cases value
  congr

theorem number_head (value : JsonNumber) :
    ∃ b tail, value.text = b :: tail ∧ isNumberByte b = true := by
  cases shape : value.text with
  | nil =>
      have wellFormed := value.wellFormed
      rw [shape] at wellFormed
      exact absurd wellFormed (by decide)
  | cons b tail =>
      have bytes := value.bytes
      rw [shape, List.all_cons, Bool.and_eq_true] at bytes
      exact ⟨b, tail, rfl, bytes.1⟩

theorem not_space_of_number {b : UInt8} (number : isNumberByte b = true) :
    isSpace b = false ∧ b ≠ 123 ∧ b ≠ 91 ∧ b ≠ 34 ∧ b ≠ 110 ∧ b ≠ 116 ∧ b ≠ 102 ∧ b ≠ 93 := by
  simp only [isNumberByte, Bool.or_eq_true, Bool.and_eq_true, decide_eq_true_eq,
    UInt8.le_iff_toNat_le, ← UInt8.toNat_inj] at number
  simp only [isSpace, Bool.or_eq_false_iff, decide_eq_false_iff_not, ne_eq, ← UInt8.toNat_inj]
  simp at number ⊢
  omega

/-- A written document starts with a byte that is no whitespace and no closing bracket. -/
theorem write_head (document : Json) :
    ∃ b tail, write document = b :: tail ∧ isSpace b = false ∧ b ≠ 93 := by
  cases document with
  | null => exact ⟨_, _, rfl, by decide, by decide⟩
  | bool value => cases value <;> exact ⟨_, _, rfl, by decide, by decide⟩
  | number value =>
      obtain ⟨b, tail, shape, number⟩ := number_head value
      have facts := not_space_of_number number
      exact ⟨b, tail, by rw [write, shape], facts.1, facts.2.2.2.2.2.2.2⟩
  | string bytes => exact ⟨34, _, rfl, by decide, by decide⟩
  | array items => cases items <;> exact ⟨91, _, by rw [write], by decide, by decide⟩
  | object members =>
      cases members with
      | nil => exact ⟨123, _, by rw [write], by decide, by decide⟩
      | cons member members => exact ⟨123, _, by rw [write], by decide, by decide⟩

theorem skipSpace_cons {b : UInt8} (solid : isSpace b = false) (rest : Bytes) :
    skipSpace (b :: rest) = b :: rest := by
  simp [skipSpace, solid]

theorem length_write_pos (document : Json) : 0 < (write document).length := by
  obtain ⟨b, tail, shape, _⟩ := write_head document
  simp [shape]

theorem writeItems_separated (items : List Json) (rest : Bytes) :
    Separated (writeItems items ++ rest) := by
  cases items <;> exact separated_cons (by decide) _

theorem writeMembers_separated (members : List (Bytes × Json)) (rest : Bytes) :
    Separated (writeMembers members ++ rest) := by
  rcases members with _ | ⟨⟨name, value⟩, members⟩ <;> exact separated_cons (by decide) _

mutual
theorem read_write : ∀ (document : Json) (fuel : Nat) (rest : Bytes),
    (write document).length < fuel → Separated rest →
      read fuel (write document ++ rest) = some (document, rest)
  | _, 0, _, enough, _ => absurd enough (Nat.not_lt_zero _)
  | .null, _ + 1, rest, _, _ => by
      simp [write, read, skipSpace, isSpace, expect]
  | .bool true, _ + 1, rest, _, _ => by
      simp [write, read, skipSpace, isSpace, expect]
  | .bool false, _ + 1, rest, _, _ => by
      simp [write, read, skipSpace, isSpace, expect]
  | .number value, fuel + 1, rest, _, separated => by
      obtain ⟨b, tail, shape, number⟩ := number_head value
      obtain ⟨solid, h123, h91, h34, h110, h116, h102, _⟩ := not_space_of_number number
      have whole := readNumber_text value separated
      rw [write, read]
      rw [shape] at whole ⊢
      rw [List.cons_append, skipSpace_cons solid]
      simp only [if_neg h123, if_neg h91, if_neg h34, if_neg h110, if_neg h116, if_neg h102]
      rw [← List.cons_append, whole]
      rfl
  | .string bytes, fuel + 1, rest, enough, _ => by
      have length := length_le_writeString bytes
      rw [write] at enough
      rw [write, writeString, read, List.cons_append, skipSpace_cons (by decide)]
      simp only [List.append_assoc, List.singleton_append]
      rw [if_neg (by decide), if_neg (by decide), if_pos trivial,
        readString_write bytes rest (by omega)]
      rfl
  | .array [], _ + 1, rest, _, _ => by
      simp [write, read, skipSpace, isSpace]
  | .array (item :: items), fuel + 1, rest, enough, _ => by
      obtain ⟨b, tail, shape, solid, open_⟩ := write_head item
      rw [write, List.length_cons, List.length_append] at enough
      have inner := readItems_write item items fuel rest (by omega)
      rw [write, read, List.cons_append, skipSpace_cons (by decide)]
      simp only
      rw [if_neg (by decide), if_pos trivial]
      rw [shape] at inner ⊢
      rw [List.append_assoc, List.cons_append, skipSpace_cons solid]
      rw [List.append_assoc, List.cons_append] at inner
      split
      · next heq => exact absurd (List.cons.inj heq).1 open_
      · rw [inner]
        rfl
  | .object [], _ + 1, rest, _, _ => by
      simp [write, read, skipSpace, isSpace]
  | .object ((name, value) :: members), fuel + 1, rest, enough, _ => by
      rw [write, List.length_cons] at enough
      have inner := readMembers_write name value members fuel rest (by omega)
      rw [write, read, List.cons_append, skipSpace_cons (by decide)]
      simp only
      rw [if_pos trivial]
      rw [writeString] at inner ⊢
      simp only [List.cons_append] at inner ⊢
      rw [skipSpace_cons (by decide)]
      split
      · next heq => exact absurd (List.cons.inj heq).1 (by decide)
      · rw [inner]
        rfl

theorem readItems_write : ∀ (item : Json) (items : List Json) (fuel : Nat) (rest : Bytes),
    (write item).length + (writeItems items).length < fuel →
      readItems fuel (write item ++ writeItems items ++ rest) = some (item :: items, rest)
  | _, _, 0, _, enough => absurd enough (Nat.not_lt_zero _)
  | item, items, fuel + 1, rest, enough => by
      have tailPos : 0 < (writeItems items).length := by cases items <;> simp [writeItems]
      have first := read_write item fuel (writeItems items ++ rest) (by omega)
        (writeItems_separated items rest)
      rw [readItems, List.append_assoc, first]
      match items, enough with
      | [], _ => simp [writeItems, skipSpace, isSpace]
      | next :: others, enough =>
          rw [writeItems, List.length_cons, List.length_append] at enough
          have itemPos := length_write_pos item
          have more := readItems_write next others fuel rest (by omega)
          simp only [writeItems, List.cons_append]
          rw [skipSpace_cons (by decide)]
          simp only
          rw [more]
          rfl

theorem readMembers_write : ∀ (name : Bytes) (value : Json) (members : List (Bytes × Json))
    (fuel : Nat) (rest : Bytes),
    (writeString name ++ 58 :: (write value ++ writeMembers members)).length < fuel →
      readMembers fuel (writeString name ++ 58 :: (write value ++ writeMembers members) ++ rest) =
        some ((name, value) :: members, rest)
  | _, _, _, 0, _, enough => absurd enough (Nat.not_lt_zero _)
  | name, value, members, fuel + 1, rest, enough => by
      have nameLength := length_le_writeString name
      have tailPos : 0 < (writeMembers members).length := by
        rcases members with _ | ⟨⟨_, _⟩, _⟩ <;> simp [writeMembers]
      simp only [List.length_append, List.length_cons] at enough
      have first := read_write value fuel (writeMembers members ++ rest) (by omega)
        (writeMembers_separated members rest)
      have label := @readString_write name (58 :: (write value ++ writeMembers members) ++ rest)
        fuel (by omega)
      rw [readMembers, writeString]
      simp only [List.cons_append, List.append_assoc, List.nil_append] at label ⊢
      rw [skipSpace_cons (by decide)]
      simp only
      rw [label]
      simp only
      rw [skipSpace_cons (by decide)]
      simp only
      rw [first]
      match members, enough with
      | [], _ => simp [writeMembers, skipSpace, isSpace]
      | (other, held) :: others, enough =>
          rw [writeMembers, List.length_cons] at enough
          have more := readMembers_write other held others fuel rest (by omega)
          simp only [writeMembers, List.cons_append]
          rw [skipSpace_cons (by decide)]
          simp only
          rw [more]
          rfl
end

/-! ## Written documents are single lines -/

/-- Bytes without a control character. -/
def Printed (bytes : Bytes) : Prop := ∀ b ∈ bytes, 32 ≤ b

theorem printed_nil : Printed [] := fun _ inside => absurd inside List.not_mem_nil

theorem printed_cons {b : UInt8} {bytes : Bytes} :
    Printed (b :: bytes) ↔ 32 ≤ b ∧ Printed bytes := List.forall_mem_cons

theorem printed_append {left right : Bytes} :
    Printed (left ++ right) ↔ Printed left ∧ Printed right := List.forall_mem_append

theorem printed_escapeByte (b : UInt8) : Printed (escapeByte b) := by
  unfold escapeByte
  split_ifs with _ _ _ _ _ _ _ control
  all_goals try (unfold Printed; decide)
  · have small : b.toNat < 32 := UInt8.lt_iff_toNat_lt.mp control
    have digit : ∀ n < 16, 32 ≤ hexDigit n := by decide
    have high := digit (b.toNat / 16) (by omega)
    have low := digit (b.toNat % 16) (by omega)
    simp only [printed_cons, high, low, printed_nil]
    decide
  · exact printed_cons.mpr ⟨UInt8.not_lt.mp control, printed_nil⟩

theorem printed_writeString (content : Bytes) : Printed (writeString content) := by
  have inner : Printed (content.flatMap escapeByte) := by
    intro c inside
    rcases List.mem_flatMap.mp inside with ⟨b, -, member⟩
    exact printed_escapeByte b c member
  rw [writeString, printed_cons, printed_append, printed_cons]
  exact ⟨by decide, inner, by decide, printed_nil⟩

theorem printed_number (value : JsonNumber) : Printed value.text := by
  intro b inside
  have number := List.all_eq_true.mp value.bytes b inside
  simp only [isNumberByte, Bool.or_eq_true, Bool.and_eq_true, decide_eq_true_eq,
    UInt8.le_iff_toNat_le, ← UInt8.toNat_inj] at number
  rw [UInt8.le_iff_toNat_le]
  simp at number ⊢
  omega

mutual
/-- A written document has no control character. -/
theorem printed_write : ∀ document : Json, Printed (write document)
  | .null => by rw [write]; unfold Printed; decide
  | .bool true => by rw [write]; unfold Printed; decide
  | .bool false => by rw [write]; unfold Printed; decide
  | .number value => by
      rw [write]
      exact printed_number value
  | .string bytes => by
      rw [write]
      exact printed_writeString bytes
  | .array [] => by rw [write]; unfold Printed; decide
  | .array (item :: items) => by
      rw [write, printed_cons, printed_append]
      exact ⟨by decide, printed_write item, printed_writeItems items⟩
  | .object [] => by rw [write]; unfold Printed; decide
  | .object ((name, value) :: members) => by
      rw [write, printed_cons, printed_append, printed_cons, printed_append]
      exact ⟨by decide, printed_writeString name, by decide, printed_write value,
        printed_writeMembers members⟩

theorem printed_writeItems : ∀ items : List Json, Printed (writeItems items)
  | [] => by rw [writeItems]; unfold Printed; decide
  | item :: items => by
      rw [writeItems, printed_cons, printed_append]
      exact ⟨by decide, printed_write item, printed_writeItems items⟩

theorem printed_writeMembers : ∀ members : List (Bytes × Json), Printed (writeMembers members)
  | [] => by rw [writeMembers]; unfold Printed; decide
  | (name, value) :: members => by
      rw [writeMembers, printed_cons, printed_append, printed_cons, printed_append]
      exact ⟨by decide, printed_writeString name, by decide, printed_write value,
        printed_writeMembers members⟩
end

/-- A written document is a single line. -/
theorem newline_notMem_write (document : Json) : newline ∉ write document :=
  fun inside => absurd (printed_write document newline inside) (by decide)

/-! ## What has been read stays read -/

theorem readEscape_extend {bytes content rest : Bytes} (found : readEscape bytes = some (content, rest))
    (more : Bytes) : readEscape (bytes ++ more) = some (content, rest ++ more) := by
  unfold readEscape at found
  split at found
  · next a b c d tail =>
      simp only [List.cons_append, readEscape]
      cases unit : codeUnit a b c d with
      | none => simp [unit] at found
      | some n =>
          simp only [unit] at found ⊢
          split at found
          · next high =>
              rw [if_pos high]
              split at found
              · next a' b' c' d' tail' =>
                  simp only [List.cons_append]
                  cases low : codeUnit a' b' c' d' with
                  | none => simp [low] at found
                  | some m =>
                      simp only [low] at found ⊢
                      split at found
                      · next inRange =>
                          rw [if_pos inRange]
                          simp only [Option.some.injEq, Prod.mk.injEq] at found ⊢
                          exact ⟨found.1, by rw [found.2]⟩
                      · cases found
              · cases found
          · next notHigh =>
              rw [if_neg notHigh]
              split at found
              · cases found
              · next notLow =>
                  rw [if_neg notLow]
                  simp only [Option.some.injEq, Prod.mk.injEq] at found ⊢
                  exact ⟨found.1, by rw [found.2]⟩
  · next e tail notUnicode =>
      obtain ⟨b, escape, pair⟩ := Option.map_eq_some_iff.mp found
      cases pair
      have plain : e ≠ 117 := by
        intro same
        subst same
        rw [show simpleEscape 117 = none by decide] at escape
        cases escape
      rw [List.cons_append, readEscape]
      · rw [escape]
        rfl
      · intro a b c d rest' same _
        exact absurd same plain
  · cases found

theorem readString_extend {fuel larger : Nat} (within : fuel ≤ larger) {bytes content rest : Bytes}
    (found : readString fuel bytes = some (content, rest)) (more : Bytes) :
    readString larger (bytes ++ more) = some (content, rest ++ more) := by
  induction fuel generalizing larger bytes content rest with
  | zero => cases found
  | succ fuel ih =>
      obtain ⟨larger, rfl⟩ := Nat.exists_eq_add_one.mpr (Nat.lt_of_lt_of_le (Nat.succ_pos _) within)
      have within : fuel ≤ larger := Nat.le_of_succ_le_succ within
      cases bytes with
      | nil => cases found
      | cons b tail =>
          simp only [readString, List.cons_append] at found ⊢
          split at found
          · next quote =>
              cases found
              rw [if_pos quote]
          · next notQuote =>
              rw [if_neg notQuote]
              split at found
              · next solidus =>
                  rw [if_pos solidus]
                  cases escape : readEscape tail with
                  | none => simp [escape] at found
                  | some pair =>
                      obtain ⟨part, after⟩ := pair
                      rw [escape] at found
                      obtain ⟨⟨inner, last⟩, read, pair⟩ := Option.map_eq_some_iff.mp found
                      cases pair
                      simp only [readEscape_extend escape more, ih within read]
                      rfl
              · next notSolidus =>
                  rw [if_neg notSolidus]
                  split at found
                  · cases found
                  · next notControl =>
                      obtain ⟨⟨inner, last⟩, read, pair⟩ := Option.map_eq_some_iff.mp found
                      cases pair
                      rw [if_neg notControl, ih within read]
                      rfl

theorem skipSpace_extend {bytes : Bytes} {b : UInt8} {rest : Bytes}
    (skipped : skipSpace bytes = b :: rest) (more : Bytes) :
    skipSpace (bytes ++ more) = b :: (rest ++ more) := by
  induction bytes with
  | nil => cases skipped
  | cons head tail ih =>
      by_cases space : isSpace head = true
      · simp only [skipSpace, List.dropWhile_cons, space, if_true, List.cons_append] at skipped ih ⊢
        exact ih skipped
      · simp only [skipSpace, List.dropWhile_cons, space, List.cons_append] at skipped ⊢
        simp only [Bool.false_eq_true, if_false, List.cons.injEq] at skipped ⊢
        exact ⟨skipped.1, by rw [skipped.2]⟩

theorem expect_extend {front bytes rest : Bytes} (found : expect front bytes = some rest)
    (more : Bytes) : expect front (bytes ++ more) = some (rest ++ more) := by
  unfold expect at found ⊢
  split at found
  · next starts =>
      cases found
      rw [List.isPrefixOf_iff_prefix] at starts
      have longer : front <+: bytes ++ more := starts.trans (List.prefix_append _ _)
      rw [if_pos (List.isPrefixOf_iff_prefix.mpr longer),
        List.drop_append_of_le_length starts.length_le]
  · cases found

theorem readNumber_extend {bytes rest : Bytes} {value : JsonNumber}
    (found : readNumber bytes = some (value, rest)) (ended : rest ≠ []) (more : Bytes) :
    readNumber (bytes ++ more) = some (value, rest ++ more) := by
  unfold readNumber at found
  split at found
  · next wellFormed =>
      cases found
      have pieces := List.takeWhile_append_dropWhile (p := isNumberByte) (l := bytes)
      have separated : Separated (bytes.dropWhile isNumberByte ++ more) := by
        intro b tail shape
        cases after : bytes.dropWhile isNumberByte with
        | nil => exact absurd after ended
        | cons head others =>
            rw [after, List.cons_append] at shape
            have stops := List.head?_dropWhile_not isNumberByte bytes
            rw [after] at stops
            have first := (List.cons.inj shape).1
            simpa [first] using stops
      have taken : bytes ++ more = bytes.takeWhile isNumberByte ++
          (bytes.dropWhile isNumberByte ++ more) := by
        rw [← List.append_assoc, pieces]
      rw [taken]
      exact readNumber_text ⟨bytes.takeWhile isNumberByte, by simp, wellFormed⟩ separated
  · cases found

/-- A value that was read and does not end in a number still going on. -/
def Ended : Json → Bytes → Prop
  | .number _, rest => rest ≠ []
  | _, _ => True

theorem ended_of_ne_nil (value : Json) {rest : Bytes} (more : rest ≠ []) : Ended value rest := by
  cases value <;> first | exact more | trivial

theorem ne_nil_of_skipSpace {bytes : Bytes} {b : UInt8} {rest : Bytes}
    (skipped : skipSpace bytes = b :: rest) : bytes ≠ [] := by
  rintro rfl
  cases skipped

theorem readMembers_nil (fuel : Nat) : readMembers fuel [] = none := by
  cases fuel <;> rfl

theorem readItems_nil (fuel : Nat) : readItems fuel [] = none := by
  rcases fuel with _ | _ | fuel <;> rfl

/-- The tokens that are neither an object nor an array. -/
theorem readScalar_extend {fuel larger : Nat} (within : fuel ≤ larger) {b : UInt8}
    {tail rest : Bytes} {value : Json}
    (found : (if b = 34 then
        (readString fuel tail).map (fun found => (Json.string found.1, found.2))
      else if b = 110 then (expect [117, 108, 108] tail).map (fun rest => (Json.null, rest))
      else if b = 116 then (expect [114, 117, 101] tail).map (fun rest => (Json.bool true, rest))
      else if b = 102 then
        (expect [97, 108, 115, 101] tail).map (fun rest => (Json.bool false, rest))
      else (readNumber (b :: tail)).map (fun found => (Json.number found.1, found.2))) =
        some (value, rest))
    (ended : Ended value rest) (more : Bytes) :
    (if b = 34 then
        (readString larger (tail ++ more)).map (fun found => (Json.string found.1, found.2))
      else if b = 110 then
        (expect [117, 108, 108] (tail ++ more)).map (fun rest => (Json.null, rest))
      else if b = 116 then
        (expect [114, 117, 101] (tail ++ more)).map (fun rest => (Json.bool true, rest))
      else if b = 102 then
        (expect [97, 108, 115, 101] (tail ++ more)).map (fun rest => (Json.bool false, rest))
      else (readNumber (b :: (tail ++ more))).map (fun found => (Json.number found.1, found.2))) =
        some (value, rest ++ more) := by
  split at found
  · next quote =>
      obtain ⟨⟨content, after⟩, inner, pair⟩ := Option.map_eq_some_iff.mp found
      cases pair
      rw [if_pos quote, readString_extend within inner more]
      rfl
  · next notQuote =>
      rw [if_neg notQuote]
      split at found
      · next isNull =>
          obtain ⟨after, inner, pair⟩ := Option.map_eq_some_iff.mp found
          cases pair
          rw [if_pos isNull, expect_extend inner more]
          rfl
      · next notNull =>
          rw [if_neg notNull]
          split at found
          · next isTrue =>
              obtain ⟨after, inner, pair⟩ := Option.map_eq_some_iff.mp found
              cases pair
              rw [if_pos isTrue, expect_extend inner more]
              rfl
          · next notTrue =>
              rw [if_neg notTrue]
              split at found
              · next isFalse =>
                  obtain ⟨after, inner, pair⟩ := Option.map_eq_some_iff.mp found
                  cases pair
                  rw [if_pos isFalse, expect_extend inner more]
                  rfl
              · next notFalse =>
                  obtain ⟨⟨number, after⟩, inner, pair⟩ := Option.map_eq_some_iff.mp found
                  cases pair
                  rw [if_neg notFalse, ← List.cons_append, readNumber_extend inner ended more]
                  rfl

mutual
theorem read_extend : ∀ (fuel larger : Nat) (bytes rest : Bytes) (value : Json), fuel ≤ larger →
    read fuel bytes = some (value, rest) → Ended value rest → ∀ more,
      read larger (bytes ++ more) = some (value, rest ++ more)
  | 0, _, _, _, _, _, found, _, _ => by cases found
  | fuel + 1, 0, _, _, _, within, _, _, _ => absurd within (Nat.not_succ_le_zero _)
  | fuel + 1, larger + 1, bytes, rest, value, within, found, ended, more => by
      have within : fuel ≤ larger := Nat.le_of_succ_le_succ within
      rw [read] at found ⊢
      cases skipped : skipSpace bytes with
      | nil => simp [skipped] at found
      | cons b tail =>
          rw [skipSpace_extend skipped more]
          rw [skipped] at found
          simp only at found ⊢
          split at found
          · next brace =>
              rw [if_pos brace]
              split at found
              · next close =>
                  cases found
                  rw [skipSpace_extend close more]
                  rfl
              · next notClose =>
                  obtain ⟨⟨members, after⟩, inner, pair⟩ := Option.map_eq_some_iff.mp found
                  cases pair
                  have opened := readMembers_extend fuel larger _ _ _ within inner more
                  cases first : skipSpace tail with
                  | nil => simp [first, readMembers_nil] at inner
                  | cons c others =>
                      rw [first] at opened notClose
                      rw [skipSpace_extend first more]
                      split
                      · next shape =>
                          cases shape
                          exact absurd rfl (notClose others)
                      · rw [← List.cons_append, opened]
                        rfl
          · next notBrace =>
              rw [if_neg notBrace]
              split at found
              · next bracket =>
                  rw [if_pos bracket]
                  split at found
                  · next close =>
                      cases found
                      rw [skipSpace_extend close more]
                      rfl
                  · next notClose =>
                      obtain ⟨⟨items, after⟩, inner, pair⟩ := Option.map_eq_some_iff.mp found
                      cases pair
                      have opened := readItems_extend fuel larger _ _ _ within inner more
                      cases first : skipSpace tail with
                      | nil => simp [first, readItems_nil] at inner
                      | cons c others =>
                          rw [first] at opened notClose
                          rw [skipSpace_extend first more]
                          split
                          · next shape =>
                              cases shape
                              exact absurd rfl (notClose others)
                          · rw [← List.cons_append, opened]
                            rfl
              · next notBracket =>
                  rw [if_neg notBracket]
                  exact readScalar_extend within found ended more

theorem readItems_extend : ∀ (fuel larger : Nat) (bytes rest : Bytes) (items : List Json),
    fuel ≤ larger → readItems fuel bytes = some (items, rest) → ∀ more,
      readItems larger (bytes ++ more) = some (items, rest ++ more)
  | 0, _, _, _, _, _, found, _ => by cases found
  | fuel + 1, 0, _, _, _, within, _, _ => absurd within (Nat.not_succ_le_zero _)
  | fuel + 1, larger + 1, bytes, rest, items, within, found, more => by
      have within : fuel ≤ larger := Nat.le_of_succ_le_succ within
      rw [readItems] at found ⊢
      cases first : read fuel bytes with
      | none => simp [first] at found
      | some pair =>
          obtain ⟨item, after⟩ := pair
          rw [first] at found
          simp only at found
          split at found
          · next close =>
              cases found
              rw [read_extend fuel larger _ _ _ within first
                (ended_of_ne_nil item (ne_nil_of_skipSpace close)) more]
              simp only [skipSpace_extend close more]
          · next comma =>
              obtain ⟨⟨others, last⟩, inner, pair⟩ := Option.map_eq_some_iff.mp found
              cases pair
              rw [read_extend fuel larger _ _ _ within first
                (ended_of_ne_nil item (ne_nil_of_skipSpace comma)) more]
              simp only [skipSpace_extend comma more,
                readItems_extend fuel larger _ _ _ within inner more]
              rfl
          · cases found

theorem readMembers_extend : ∀ (fuel larger : Nat) (bytes rest : Bytes)
    (members : List (Bytes × Json)), fuel ≤ larger →
      readMembers fuel bytes = some (members, rest) → ∀ more,
        readMembers larger (bytes ++ more) = some (members, rest ++ more)
  | 0, _, _, _, _, _, found, _ => by cases found
  | fuel + 1, 0, _, _, _, within, _, _ => absurd within (Nat.not_succ_le_zero _)
  | fuel + 1, larger + 1, bytes, rest, members, within, found, more => by
      have within : fuel ≤ larger := Nat.le_of_succ_le_succ within
      rw [readMembers] at found ⊢
      split at found
      · next tail quote =>
          rw [skipSpace_extend quote more]
          simp only at found ⊢
          cases label : readString fuel tail with
          | none => simp [label] at found
          | some pair =>
              obtain ⟨name, afterName⟩ := pair
              rw [label] at found
              rw [readString_extend within label more]
              simp only at found ⊢
              split at found
              · next afterColon colon =>
                  rw [skipSpace_extend colon more]
                  simp only
                  cases held : read fuel afterColon with
                  | none => simp [held] at found
                  | some pair =>
                      obtain ⟨value, afterValue⟩ := pair
                      rw [held] at found
                      simp only at found
                      split at found
                      · next close =>
                          cases found
                          rw [read_extend fuel larger _ _ _ within held
                            (ended_of_ne_nil value (ne_nil_of_skipSpace close)) more]
                          simp only [skipSpace_extend close more]
                      · next comma =>
                          obtain ⟨⟨others, last⟩, inner, pair⟩ := Option.map_eq_some_iff.mp found
                          cases pair
                          rw [read_extend fuel larger _ _ _ within held
                            (ended_of_ne_nil value (ne_nil_of_skipSpace comma)) more]
                          simp only [skipSpace_extend comma more,
                            readMembers_extend fuel larger _ _ _ within inner more]
                          rfl
                      · cases found
              · cases found
      · cases found
end

/-! ## The laws of the text form -/

theorem readDocument_write (document : Json) : readDocument (write document) = some document := by
  have whole := read_write document ((write document).length + 1) [] (Nat.lt_succ_self _)
    separated_nil
  rw [List.append_nil] at whole
  rw [readDocument, whole]
  rfl

/-- An object that could be read before its last byte would be read in two ways. -/
theorem readDocument_incomplete (members : List (Bytes × Json)) (front rest : Bytes)
    (text : write (.object members) = front ++ rest) (more : rest ≠ []) :
    readDocument front = none := by
  by_contra complete
  unfold readDocument at complete
  split at complete
  · next document after found =>
      have object : Ended document after := by
        cases front with
        | nil => cases found
        | cons b tail =>
            have brace : b = 123 := by
              cases members with
              | nil => exact (List.cons.inj text).1.symm
              | cons member members => exact (List.cons.inj text).1.symm
            subst brace
            rw [read, skipSpace_cons (by decide)] at found
            simp only at found
            rw [if_pos trivial] at found
            split at found
            · cases found
              trivial
            · obtain ⟨⟨_, _⟩, _, pair⟩ := Option.map_eq_some_iff.mp found
              cases pair
              trivial
      have longer : front.length + 1 ≤ (write (.object members)).length + 1 := by
        rw [text, List.length_append]
        omega
      have twice := read_extend _ _ _ _ _ longer found object rest
      have once := read_write (.object members) ((write (.object members)).length + 1) []
        (Nat.lt_succ_self _) separated_nil
      rw [List.append_nil, text] at once
      rw [text, once] at twice
      have left := (Prod.mk.inj (Option.some.inj twice)).2
      exact more (List.append_eq_nil_iff.mp left.symm).2
  · exact complete rfl

theorem form_lawful : form.Lawful where
  ofText_toText := fun document _ => readDocument_write document
  newline_free := newline_notMem_write
  incomplete := readDocument_incomplete

end JsonText
end CapsuleEmit
