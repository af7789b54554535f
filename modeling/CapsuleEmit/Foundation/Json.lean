import Mathlib.Algebra.GroupWithZero.Nat
import Mathlib.Data.List.Basic
import Mathlib.Tactic.Common

namespace CapsuleEmit

/-!
# JSON documents as trees, and their text as a parameter

A JSON document is read in two stages.  The text stage turns bytes into a
tree; the value stage reads members out of the tree.  Only the second stage
depends on a particular record type, so the first is kept as a parameter: a
`TextForm` is a writer and a reader, and `TextForm.Lawful` lists what a user
of the pair relies on.

Trees keep what the text says.  Members stay in text order with repetitions,
a number keeps its source text, and a string is the bytes of its content,
which need not be valid UTF-8 when a reader skips it.  Whether a repeated
member or an ill-formed string is an error is decided by the value stage.
-/

abbrev Bytes := List UInt8

/-- A statement about the members of a list is decided member by member, also where
the type has finitely many values. -/
instance (priority := high) decidableMembers {α : Type*} {p : α → Prop} [DecidablePred p]
    (l : List α) : Decidable (∀ a ∈ l, p a) := List.decidableBAll p l

instance bytesLawfulBEq : LawfulBEq (List UInt8) := inferInstance

/-- The UTF-8 bytes of a string. -/
def utf8 (s : String) : Bytes := s.toByteArray.data.toList

/-- The string with the given UTF-8 bytes, if they are valid. -/
def utf8? (bytes : Bytes) : Option String := String.fromUTF8? ⟨bytes.toArray⟩

@[simp] theorem utf8?_utf8 (s : String) : utf8? (utf8 s) = some s := by
  have whole : (⟨(utf8 s).toArray⟩ : ByteArray) = s.toByteArray := by simp [utf8]
  rw [utf8?, whole, String.fromUTF8?, dif_pos s.isValidUTF8]
  rfl

theorem utf8_injective : Function.Injective utf8 := by
  intro s t same
  have read := utf8?_utf8 s
  rw [same, utf8?_utf8] at read
  exact (Option.some.inj read).symm

@[simp] theorem utf8_inj {s t : String} : utf8 s = utf8 t ↔ s = t :=
  utf8_injective.eq_iff

/-! ## Number texts -/

/-- The bytes a number text consists of. -/
def isNumberByte (b : UInt8) : Bool :=
  (48 ≤ b && b ≤ 57) || b = 43 || b = 45 || b = 46 || b = 69 || b = 101

def isDigit (b : UInt8) : Bool := 48 ≤ b && b ≤ 57

/-- One or more digits and nothing else. -/
def allDigits (text : Bytes) : Bool := !text.isEmpty && text.all isDigit

/-- An exponent: a sign, if any, and digits. -/
def isExponent : Bytes → Bool
  | 43 :: digits => allDigits digits
  | 45 :: digits => allDigits digits
  | digits => allDigits digits

/-- What may follow the integer part: a fraction, an exponent, or both. -/
def isNumberTail (text : Bytes) : Bool :=
  match text with
  | [] => true
  | 46 :: rest =>
      let fraction := rest.takeWhile isDigit
      match rest.dropWhile isDigit with
      | [] => !fraction.isEmpty
      | e :: exponent => !fraction.isEmpty && (e = 69 || e = 101) && isExponent exponent
  | e :: exponent => (e = 69 || e = 101) && isExponent exponent

/-- A number text without its sign: no leading zero before other digits. -/
def isUnsignedNumber : Bytes → Bool
  | [] => false
  | 48 :: rest => isNumberTail rest
  | b :: rest => isDigit b && isNumberTail (rest.dropWhile isDigit)

/-- A number text of the JSON grammar. -/
def isNumberText : Bytes → Bool
  | 45 :: rest => isUnsignedNumber rest
  | text => isUnsignedNumber text

/-- A number, kept as its source text. -/
structure JsonNumber where
  text : Bytes
  bytes : text.all isNumberByte = true
  wellFormed : isNumberText text = true
  deriving DecidableEq

/-- The tree of a JSON document. -/
inductive Json where
  | null
  | bool (value : Bool)
  | number (value : JsonNumber)
  | string (bytes : Bytes)
  | array (items : List Json)
  | object (members : List (Bytes × Json))

namespace Json

/-- The tree of a string value. -/
def ofString (s : String) : Json := .string (utf8 s)

/-- A string value, when the tree is one and its content is valid UTF-8. -/
def asStr : Json → Option String
  | .string bytes => utf8? bytes
  | _ => none

@[simp] theorem asStr_ofString (s : String) : (ofString s).asStr = some s := utf8?_utf8 s

/-- The last member with a name, as a decoder that keeps the last one sees it. -/
def lookup (name : String) (members : List (Bytes × Json)) : Option Json :=
  (members.reverse.find? (fun member => member.1 = utf8 name)).map Prod.snd

/-- The member of an object; nothing on any other tree. -/
def get (name : String) : Json → Option Json
  | .object members => lookup name members
  | _ => none

def asArray : Json → Option (List Json)
  | .array items => some items
  | _ => none

def asObject : Json → Option (List (Bytes × Json))
  | .object members => some members
  | _ => none

/-- The tree has at most the given number of arrays and objects around any value. -/
def Within : Nat → Json → Prop
  | 0, .array _ => False
  | 0, .object _ => False
  | limit + 1, .array items => ∀ item ∈ items, Within limit item
  | limit + 1, .object members => ∀ member ∈ members, Within limit member.2
  | _, _ => True

@[simp] theorem within_ofString (limit : Nat) (s : String) : Within limit (ofString s) := by
  cases limit <;> trivial

@[simp] theorem within_array (limit : Nat) (items : List Json) :
    Within (limit + 1) (.array items) ↔ ∀ item ∈ items, Within limit item := Iff.rfl

@[simp] theorem within_object (limit : Nat) (members : List (Bytes × Json)) :
    Within (limit + 1) (.object members) ↔ ∀ member ∈ members, Within limit member.2 := Iff.rfl

end Json

/-! ## The text stage as a parameter -/

/-- A JSON writer and reader. -/
structure TextForm where
  toText : Json → Bytes
  ofText : Bytes → Option Json

/-- The separator of a newline-delimited file. -/
def newline : UInt8 := 10

/-- The nesting up to which a reader must accept what the writer wrote. -/
def depthLimit : Nat := 127

/-- What a compact writer and the matching reader provide: a document that is
not nested beyond the reader's limit reads back, it is written on one line,
and a document that is an object is not complete before its last byte. -/
structure TextForm.Lawful (form : TextForm) : Prop where
  ofText_toText : ∀ document : Json, document.Within depthLimit →
    form.ofText (form.toText document) = some document
  newline_free : ∀ document, newline ∉ form.toText document
  incomplete : ∀ (members : List (Bytes × Json)) (front rest : Bytes),
    form.toText (.object members) = front ++ rest → rest ≠ [] → form.ofText front = none

theorem TextForm.Lawful.toText_inj {form : TextForm} (lawful : form.Lawful) {left right : Json}
    (shallowLeft : left.Within depthLimit) (shallowRight : right.Within depthLimit)
    (same : form.toText left = form.toText right) : left = right := by
  have read := lawful.ofText_toText left shallowLeft
  rw [same, lawful.ofText_toText right shallowRight] at read
  exact (Option.some.inj read).symm

theorem TextForm.Lawful.ofText_nil {form : TextForm} (lawful : form.Lawful) :
    form.ofText [] = none := by
  by_cases empty : form.toText (.object []) = []
  · by_contra some
    -- an object written as nothing would be every object
    have other : form.toText (.object [([], .null)]) ≠ [] := fun same => by
      have equal := lawful.toText_inj (by simp [depthLimit]) (by simp [depthLimit, Json.Within])
        (empty.trans same.symm)
      simp at equal
    exact some (lawful.incomplete [([], .null)] [] _ rfl other)
  · exact lawful.incomplete [] [] _ rfl empty

end CapsuleEmit
