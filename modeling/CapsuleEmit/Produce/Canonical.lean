import CapsuleEmit.Produce.Extensions

namespace CapsuleEmit

/-!
# Values up to the order of members

Canonicalization sorts the members of every object and writes minus zero as
zero, so two values with one normal form have one canonical text and one
digest.  The canonicalizer, the Capsule ID and the Class 1 check are another
package's; what a producer relies on is that they look at the normal form
only, that a value with a float or an unsafe integer has no Capsule ID, that
every other value of moderate depth has a canonical text, and that the text
reads back.
-/

namespace Json

def zero : JsonNumber := ⟨[48], by decide, by decide⟩

/-- A number as it is written canonically, as far as integers go. -/
def normalNumber (number : JsonNumber) : JsonNumber :=
  if number.text = [45, 48] then zero else number

mutual
/-- The normal form of a value. -/
def normal : Json → Json
  | .null => .null
  | .bool b => .bool b
  | .number value => .number (normalNumber value)
  | .string bytes => .string bytes
  | .array items => .array (normalItems items)
  | .object members => .object (normalMembers members)

def normalItems : List Json → List Json
  | [] => []
  | item :: items => normal item :: normalItems items

def normalMembers : List (Bytes × Json) → List (Bytes × Json)
  | [] => []
  | (name, value) :: members =>
      ArtifactStore.insertMember (name, normal value) (normalMembers members)
end

theorem normalMembers_congr {left right : List (Bytes × Json)}
    (same : List.Forall₂ (fun a b => a.1 = b.1 ∧ a.2.normal = b.2.normal) left right) :
    normalMembers left = normalMembers right := by
  induction same with
  | nil => rfl
  | cons head rest ih =>
      rename_i a b left right
      rw [normalMembers, normalMembers, ih, head.1, head.2]

theorem normalItems_congr {left right : List Json}
    (same : List.Forall₂ (fun a b => a.normal = b.normal) left right) :
    normalItems left = normalItems right := by
  induction same with
  | nil => rfl
  | cons head rest ih => rw [normalItems, normalItems, ih, head]

/-! ## What the normal form keeps -/

theorem insertMember_perm (member : Bytes × Json) (members : List (Bytes × Json)) :
    (ArtifactStore.insertMember member members).Perm (member :: members) := by
  induction members with
  | nil => exact List.Perm.refl _
  | cons other members ih =>
      rw [ArtifactStore.insertMember]
      split
      · exact List.Perm.refl _
      · exact (List.Perm.cons other ih).trans (List.Perm.swap member other members)

theorem textualMembers_iff {members : List (Bytes × Json)} : textualMembers members = true ↔
    ∀ member ∈ members, (utf8? member.1).isSome = true ∧ member.2.textual = true := by
  induction members with
  | nil => simp [textualMembers]
  | cons member members ih =>
      rw [textualMembers, Bool.and_eq_true, Bool.and_eq_true, ih, List.forall_mem_cons]

theorem nestingMembers_le_iff {members : List (Bytes × Json)} {n : Nat} :
    nestingMembers members ≤ n ↔ ∀ member ∈ members, member.2.nesting ≤ n := by
  induction members with
  | nil => simp [nestingMembers]
  | cons member members ih => rw [nestingMembers, Nat.max_le, ih, List.forall_mem_cons]

theorem nestingItems_le_iff {items : List Json} {n : Nat} :
    nestingItems items ≤ n ↔ ∀ item ∈ items, item.nesting ≤ n := by
  induction items with
  | nil => simp [nestingItems]
  | cons item items ih => rw [nestingItems, Nat.max_le, ih, List.forall_mem_cons]

theorem textualItems_iff {items : List Json} : textualItems items = true ↔
    ∀ item ∈ items, item.textual = true := by
  induction items with
  | nil => simp [textualItems]
  | cons item items ih => rw [textualItems, Bool.and_eq_true, ih, List.forall_mem_cons]

theorem everyNumberMembers_iff {p : JsonNumber → Bool} {members : List (Bytes × Json)} :
    everyNumberMembers p members = true ↔ ∀ member ∈ members, member.2.everyNumber p = true := by
  induction members with
  | nil => simp [everyNumberMembers]
  | cons member members ih => rw [everyNumberMembers, Bool.and_eq_true, ih, List.forall_mem_cons]

theorem everyNumberItems_iff {p : JsonNumber → Bool} {items : List Json} :
    everyNumberItems p items = true ↔ ∀ item ∈ items, item.everyNumber p = true := by
  induction items with
  | nil => simp [everyNumberItems]
  | cons item items ih => rw [everyNumberItems, Bool.and_eq_true, ih, List.forall_mem_cons]

theorem mem_insertMember {member other : Bytes × Json} {members : List (Bytes × Json)} :
    other ∈ ArtifactStore.insertMember member members ↔ other = member ∨ other ∈ members := by
  rw [(insertMember_perm member members).mem_iff, List.mem_cons]

mutual
theorem textual_normal : ∀ value : Json, value.normal.textual = value.textual
  | .null => rfl
  | .bool _ => rfl
  | .number _ => rfl
  | .string _ => rfl
  | .array items => textualItems_normal items
  | .object members => textualMembers_normal members

theorem textualItems_normal : ∀ items : List Json,
    textualItems (normalItems items) = textualItems items
  | [] => rfl
  | item :: items => by
      rw [normalItems, textualItems, textualItems, textual_normal item, textualItems_normal items]

theorem textualMembers_normal : ∀ members : List (Bytes × Json),
    textualMembers (normalMembers members) = textualMembers members
  | [] => rfl
  | (name, value) :: members => by
      have rest := textualMembers_normal members
      rw [normalMembers, Bool.eq_iff_iff, textualMembers_iff]
      simp only [mem_insertMember, forall_eq_or_imp]
      rw [← textualMembers_iff, rest, textualMembers, textual_normal value, Bool.and_eq_true,
        Bool.and_eq_true]
end

mutual
theorem nesting_normal : ∀ value : Json, value.normal.nesting = value.nesting
  | .null => rfl
  | .bool _ => rfl
  | .number _ => rfl
  | .string _ => rfl
  | .array items => congrArg (· + 1) (nestingItems_normal items)
  | .object members => congrArg (· + 1) (nestingMembers_normal members)

theorem nestingItems_normal : ∀ items : List Json,
    nestingItems (normalItems items) = nestingItems items
  | [] => rfl
  | item :: items => by
      rw [normalItems, nestingItems, nestingItems, nesting_normal item, nestingItems_normal items]

theorem nestingMembers_normal : ∀ members : List (Bytes × Json),
    nestingMembers (normalMembers members) = nestingMembers members
  | [] => rfl
  | (name, value) :: members => by
      have rest := nestingMembers_normal members
      apply Nat.le_antisymm_iff.mpr
      have bound : ∀ n, nestingMembers (normalMembers ((name, value) :: members)) ≤ n ↔
          nestingMembers ((name, value) :: members) ≤ n := by
        intro n
        rw [normalMembers, nestingMembers_le_iff]
        simp only [mem_insertMember, forall_eq_or_imp]
        rw [← nestingMembers_le_iff, rest, nestingMembers, nesting_normal value, Nat.max_le]
      exact ⟨(bound _).mpr (Nat.le_refl _), (bound _).mp (Nat.le_refl _)⟩
end

/-! ## Changing numbers -/

mutual
/-- A value with every number replaced. -/
def mapNumbers (f : JsonNumber → JsonNumber) : Json → Json
  | .null => .null
  | .bool b => .bool b
  | .number value => .number (f value)
  | .string bytes => .string bytes
  | .array items => .array (mapNumbersItems f items)
  | .object members => .object (mapNumbersMembers f members)

def mapNumbersItems (f : JsonNumber → JsonNumber) : List Json → List Json
  | [] => []
  | item :: items => mapNumbers f item :: mapNumbersItems f items

def mapNumbersMembers (f : JsonNumber → JsonNumber) : List (Bytes × Json) → List (Bytes × Json)
  | [] => []
  | (name, value) :: members => (name, mapNumbers f value) :: mapNumbersMembers f members
end

section

variable {f : JsonNumber → JsonNumber}

mutual
@[simp] theorem textual_mapNumbers : ∀ value : Json, (mapNumbers f value).textual = value.textual
  | .null => rfl
  | .bool _ => rfl
  | .number _ => rfl
  | .string _ => rfl
  | .array items => textual_mapNumbersItems items
  | .object members => textual_mapNumbersMembers members

theorem textual_mapNumbersItems : ∀ items : List Json,
    textualItems (mapNumbersItems f items) = textualItems items
  | [] => rfl
  | item :: items => by
      rw [mapNumbersItems, textualItems, textualItems, textual_mapNumbers item,
        textual_mapNumbersItems items]

theorem textual_mapNumbersMembers : ∀ members : List (Bytes × Json),
    textualMembers (mapNumbersMembers f members) = textualMembers members
  | [] => rfl
  | (name, value) :: members => by
      rw [mapNumbersMembers, textualMembers, textualMembers, textual_mapNumbers value,
        textual_mapNumbersMembers members]
end

mutual
@[simp] theorem distinct_mapNumbers : ∀ value : Json, (mapNumbers f value).distinct = value.distinct
  | .null => rfl
  | .bool _ => rfl
  | .number _ => rfl
  | .string _ => rfl
  | .array items => distinct_mapNumbersItems items
  | .object members => distinct_mapNumbersMembers members []

theorem distinct_mapNumbersItems : ∀ items : List Json,
    distinctItems (mapNumbersItems f items) = distinctItems items
  | [] => rfl
  | item :: items => by
      rw [mapNumbersItems, distinctItems, distinctItems, distinct_mapNumbers item,
        distinct_mapNumbersItems items]

theorem distinct_mapNumbersMembers : ∀ (members : List (Bytes × Json)) (seen : List Bytes),
    distinctMembers seen (mapNumbersMembers f members) = distinctMembers seen members
  | [], _ => rfl
  | (name, value) :: members, seen => by
      rw [mapNumbersMembers, distinctMembers, distinctMembers, distinct_mapNumbers value,
        distinct_mapNumbersMembers members (name :: seen)]
end

mutual
@[simp] theorem nesting_mapNumbers : ∀ value : Json, (mapNumbers f value).nesting = value.nesting
  | .null => rfl
  | .bool _ => rfl
  | .number _ => rfl
  | .string _ => rfl
  | .array items => congrArg (· + 1) (nesting_mapNumbersItems items)
  | .object members => congrArg (· + 1) (nesting_mapNumbersMembers members)

theorem nesting_mapNumbersItems : ∀ items : List Json,
    nestingItems (mapNumbersItems f items) = nestingItems items
  | [] => rfl
  | item :: items => by
      rw [mapNumbersItems, nestingItems, nestingItems, nesting_mapNumbers item,
        nesting_mapNumbersItems items]

theorem nesting_mapNumbersMembers : ∀ members : List (Bytes × Json),
    nestingMembers (mapNumbersMembers f members) = nestingMembers members
  | [] => rfl
  | (name, value) :: members => by
      rw [mapNumbersMembers, nestingMembers, nestingMembers, nesting_mapNumbers value,
        nesting_mapNumbersMembers members]
end

mutual
/-- Where the function leaves every number alone, nothing changes. -/
theorem mapNumbers_eq_self {p : JsonNumber → Bool}
    (fixed : ∀ number, p number = true → f number = number) :
    ∀ value : Json, value.everyNumber p = true → mapNumbers f value = value
  | .null, _ => rfl
  | .bool _, _ => rfl
  | .number value, holds => congrArg Json.number (fixed value holds)
  | .string _, _ => rfl
  | .array items, holds => congrArg Json.array (mapNumbersItems_eq_self fixed items holds)
  | .object members, holds => congrArg Json.object (mapNumbersMembers_eq_self fixed members holds)

theorem mapNumbersItems_eq_self {p : JsonNumber → Bool}
    (fixed : ∀ number, p number = true → f number = number) :
    ∀ items : List Json, everyNumberItems p items = true → mapNumbersItems f items = items
  | [], _ => rfl
  | item :: items, holds => by
      rw [everyNumberItems, Bool.and_eq_true] at holds
      rw [mapNumbersItems, mapNumbers_eq_self fixed item holds.1,
        mapNumbersItems_eq_self fixed items holds.2]

theorem mapNumbersMembers_eq_self {p : JsonNumber → Bool}
    (fixed : ∀ number, p number = true → f number = number) :
    ∀ members : List (Bytes × Json), everyNumberMembers p members = true →
      mapNumbersMembers f members = members
  | [], _ => rfl
  | (name, value) :: members, holds => by
      rw [everyNumberMembers, Bool.and_eq_true] at holds
      rw [mapNumbersMembers, mapNumbers_eq_self fixed value holds.1,
        mapNumbersMembers_eq_self fixed members holds.2]
end

end

end Json

namespace Produce

/-! ## The canonicalizer -/

/-- What another package provides: the Capsule ID of a payload, the Class 1
check, the canonical text of a value, and reading such a text. -/
structure Canonicalizer where
  computeCapsuleId : Payload → Except String String
  class1 : Payload → Except String Unit
  jcs : Json → Except String Bytes
  loads : Bytes → Json

/-- A value canonicalization takes: text without a repeated name, no float and
no unsafe integer, at most 128 levels. -/
def Canonicalizable (value : Json) : Prop :=
  value.textual = true ∧ value.distinct = true ∧ value.everyNumber isSafe = true ∧
    value.nesting ≤ 128

/-- What the producers rely on. -/
structure Canonicalizer.Lawful (box : Canonicalizer) : Prop where
  id_congr : ∀ left right : Payload, (Json.object left).normal = (Json.object right).normal →
    box.computeCapsuleId left = box.computeCapsuleId right
  class1_congr : ∀ left right : Payload, (Json.object left).normal = (Json.object right).normal →
    box.class1 left = box.class1 right
  jcs_congr : ∀ left right : Json, left.normal = right.normal → box.jcs left = box.jcs right
  id_safe : ∀ payload id, box.computeCapsuleId payload = .ok id →
    (Json.object payload).everyNumber isSafe = true
  jcs_total : ∀ value, Canonicalizable value → ∃ bytes, box.jcs value = .ok bytes
  jcs_safe : ∀ value bytes, box.jcs value = .ok bytes → value.everyNumber isSafe = true
  loads_jcs : ∀ value bytes, box.jcs value = .ok bytes → (box.loads bytes).normal = value.normal

end Produce
end CapsuleEmit
