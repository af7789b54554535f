import CapsuleEmit.Foundation.JsonText
import CapsuleEmit.Foundation.PythonJson
import CapsuleEmit.Foundation.Utf8

namespace CapsuleEmit
namespace Python

/-!
# Compact JSON text of Python values

A writer and a reader of JSON text for values without numbers, over the text
stage of `JsonText`.  They meet the law that a reader reads back what the
writer wrote.
-/

mutual
/-- The document that is written for a value. -/
def Value.toJson : Value → Option Json
  | .none => some .null
  | .bool b => some (.bool b)
  | .int _ => Option.none
  | .float _ => Option.none
  | .str s => some (.string (utf8 s))
  | .list items => (Value.toJsonItems items).map .array
  | .dict members => (Value.toJsonMembers members).map .object

def Value.toJsonItems : List Value → Option (List Json)
  | [] => some []
  | item :: items => do
      let first ← item.toJson
      let rest ← Value.toJsonItems items
      return first :: rest

def Value.toJsonMembers : List (String × Value) → Option (List (Bytes × Json))
  | [] => some []
  | (key, value) :: members => do
      let first ← value.toJson
      let rest ← Value.toJsonMembers members
      return (utf8 key, first) :: rest
end

mutual
/-- The document the hooks see. -/
def Document.ofJson : Json → Option Document
  | .null => some .none
  | .bool b => some (.bool b)
  | .number _ => Option.none
  | .string bytes => (utf8? bytes).map .str
  | .array items => (Document.ofJsonItems items).map .list
  | .object members => (Document.ofJsonMembers members).map .object

def Document.ofJsonItems : List Json → Option (List Document)
  | [] => some []
  | item :: items => do
      let first ← Document.ofJson item
      let rest ← Document.ofJsonItems items
      return first :: rest

def Document.ofJsonMembers : List (Bytes × Json) → Option (List (String × Document))
  | [] => some []
  | (key, value) :: members => do
      let name ← utf8? key
      let first ← Document.ofJson value
      let rest ← Document.ofJsonMembers members
      return (name, first) :: rest
end

mutual
theorem Document.ofJson_toJson : ∀ (value : Value) {json : Json},
    value.toJson = some json → Document.ofJson json = some (.ofValue value)
  | .none, _, same => by cases same; rfl
  | .bool _, _, same => by cases same; rfl
  | .int _, _, same => nomatch same
  | .float _, _, same => nomatch same
  | .str s, _, same => by
      cases same
      rw [Document.ofJson, utf8?_utf8]
      rfl
  | .list items, json, same => by
      rw [Value.toJson] at same
      rcases Option.map_eq_some_iff.mp same with ⟨inner, written, rfl⟩
      rw [Document.ofJson, Document.ofJsonItems_toJson items written]
      rfl
  | .dict members, json, same => by
      rw [Value.toJson] at same
      rcases Option.map_eq_some_iff.mp same with ⟨inner, written, rfl⟩
      rw [Document.ofJson, Document.ofJsonMembers_toJson members written]
      rfl

theorem Document.ofJsonItems_toJson : ∀ (items : List Value) {json : List Json},
    Value.toJsonItems items = some json →
      Document.ofJsonItems json = some (Document.ofItems items)
  | [], _, same => by cases same; rfl
  | item :: items, json, same => by
      rw [Value.toJsonItems] at same
      rcases Option.bind_eq_some_iff.mp same with ⟨first, head, same⟩
      rcases Option.bind_eq_some_iff.mp same with ⟨rest, tail, same⟩
      cases same
      rw [Document.ofJsonItems, Document.ofJson_toJson item head,
        Document.ofJsonItems_toJson items tail]
      rfl

theorem Document.ofJsonMembers_toJson : ∀ (members : List (String × Value))
    {json : List (Bytes × Json)}, Value.toJsonMembers members = some json →
      Document.ofJsonMembers json = some (Document.ofMembers members)
  | [], _, same => by cases same; rfl
  | (key, value) :: members, json, same => by
      rw [Value.toJsonMembers] at same
      rcases Option.bind_eq_some_iff.mp same with ⟨first, head, same⟩
      rcases Option.bind_eq_some_iff.mp same with ⟨rest, tail, same⟩
      cases same
      rw [Document.ofJsonMembers, utf8?_utf8, Document.ofJson_toJson value head,
        Document.ofJsonMembers_toJson members tail]
      rfl
end

/-- A writer and a reader of compact text for values without numbers. -/
def compactText : JsonText where
  dumps value := match value.toJson with
    | some json => .ok (JsonText.write json)
    | none => .error "numbers are not written"
  loads text := match (JsonText.readDocument (utf8 text)).bind Document.ofJson with
    | some document => .ok document
    | none => .error "Expecting value"

theorem compactText_lawful : compactText.Lawful where
  loads_dumps := by
    intro value bytes text document written decoded loaded
    simp only [compactText] at written loaded
    split at written
    · next json isJson =>
        cases written
        rw [Utf8.utf8_of_utf8? decoded, CapsuleEmit.JsonText.readDocument_write, Option.bind_some,
          Document.ofJson_toJson value isJson] at loaded
        exact (Except.ok.inj loaded).symm
    · cases written

end Python
end CapsuleEmit
