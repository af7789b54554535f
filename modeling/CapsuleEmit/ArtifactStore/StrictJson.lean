import CapsuleEmit.ArtifactStore.Concrete
import CapsuleEmit.Foundation.Surrogates

namespace CapsuleEmit
namespace ArtifactStore

/-!
# Two strict JSON decoders

The Rust store and the Python store decode a Capsule strictly before they
index it.  The Rust one visits the document with serde_json, which takes no
lone surrogate and follows 127 levels, and then decodes it.  The Python one
decodes the bytes as UTF-8 and calls `json.loads` with two hooks; Python
keeps lone surrogates, follows deeper nesting, converts no integer of more
than 4300 digits, and the store then refuses more than 1000 levels.

Documents are compared as trees that keep the order of members and the source
text of numbers.  Whatever `json.loads` reads before it applies a limit is
what both decoders choose from; they agree exactly where a document is inside
the limits of both or outside the limits of both.
-/

/-! ## Measures of a document -/

end ArtifactStore

namespace Json

mutual
/-- No object of a document repeats a member name. -/
def distinct : Json → Bool
  | .null => true
  | .bool _ => true
  | .number _ => true
  | .string _ => true
  | .array items => distinctItems items
  | .object members => distinctMembers [] members

def distinctItems : List Json → Bool
  | [] => true
  | item :: items => distinct item && distinctItems items

def distinctMembers (seen : List Bytes) : List (Bytes × Json) → Bool
  | [] => true
  | (name, value) :: members =>
      !seen.contains name && distinct value && distinctMembers (name :: seen) members
end

mutual
/-- How many arrays and objects are around the deepest value. -/
def nesting : Json → Nat
  | .null => 0
  | .bool _ => 0
  | .number _ => 0
  | .string _ => 0
  | .array items => nestingItems items + 1
  | .object members => nestingMembers members + 1

def nestingItems : List Json → Nat
  | [] => 0
  | item :: items => max (nesting item) (nestingItems items)

def nestingMembers : List (Bytes × Json) → Nat
  | [] => 0
  | (_, value) :: members => max (nesting value) (nestingMembers members)
end

mutual
/-- A condition on the numbers of a document. -/
def everyNumber (p : JsonNumber → Bool) : Json → Bool
  | .null => true
  | .bool _ => true
  | .number value => p value
  | .string _ => true
  | .array items => everyNumberItems p items
  | .object members => everyNumberMembers p members

def everyNumberItems (p : JsonNumber → Bool) : List Json → Bool
  | [] => true
  | item :: items => everyNumber p item && everyNumberItems p items

def everyNumberMembers (p : JsonNumber → Bool) : List (Bytes × Json) → Bool
  | [] => true
  | (_, value) :: members => everyNumber p value && everyNumberMembers p members
end

end Json

namespace ArtifactStore

/-! ## The Python decoder -/

namespace Python

/-- The most digits `int` converts, unless the interpreter is told otherwise. -/
def intMaxStrDigits : Nat := 4300

/-- A number text without a fraction and an exponent becomes an `int`. -/
def isIntText (number : JsonNumber) : Bool := number.text.all (fun b => isDigit b || b = 45)

/-- `int` or `float` converts the text of a number. -/
def converts (number : JsonNumber) : Bool :=
  !isIntText number || (number.text.filter isDigit).length ≤ intMaxStrDigits

def maxJsonDepth : Nat := 1000

/-- What the decoder takes from the interpreter: how many levels `json.loads`
follows before it gives up, and the text of its error on a document. -/
structure Interpreter where
  recursion : Nat
  loadsError : Bytes → String

mutual
/-- The deepest level of a value at the given level; a scalar has one of its own. -/
def deepest (level : Nat) : Json → Nat
  | .null => level
  | .bool _ => level
  | .number _ => level
  | .string _ => level
  | .array items => max level (deepestItems level items)
  | .object members => max level (deepestMembers level members)

def deepestItems (level : Nat) : List Json → Nat
  | [] => 0
  | item :: items => max (deepest (level + 1) item) (deepestItems level items)

def deepestMembers (level : Nat) : List (Bytes × Json) → Nat
  | [] => 0
  | (_, value) :: members => max (deepest (level + 1) value) (deepestMembers level members)
end

/-- `_depth(value)`. -/
def depth (value : Json) : Nat := deepest 1 value

/-- What `json.loads` reads when nothing is too long or too deep: UTF-8 text
without a repeated key, its numbers as they are written. -/
def document (data : Bytes) : Option Json :=
  if (utf8? data).isSome then
    match JsonText.readDocumentLenient data with
    | some value => if value.distinct then some value else none
    | none => none
  else none

variable (python : Interpreter)

/-- `json.loads` of the decoded bytes with both hooks. -/
def loads (data : Bytes) : Except String Json :=
  match document data with
  | none => .error (python.loadsError data)
  | some value =>
      if value.nesting ≤ python.recursion && value.everyNumber converts then .ok value
      else .error (python.loadsError data)

/-- Decodes UTF-8 JSON, refusing repeated keys, NaN and Infinity, trailing data
and nesting beyond 1000 levels. -/
def decodeStrictJson (data : Bytes) : Except String Json := do
  let value ← loads python data
  ensure (depth value ≤ maxJsonDepth) "JSON exceeds maximum depth"
  return value

end Python

/-! ## What each decoder accepts -/

/-- What the Rust store relies on: serde_json reads strict JSON text, and the
AAC decoder gives the tree of a document that passed the visit, its numbers
as they are written. -/
structure SerdeJson (packages : Packages) : Prop where
  reads : ∀ data, packages.json.ofText data = JsonText.readDocument data
  decodes : ∀ data tree, JsonText.readDocument data = some tree →
    noDuplicates visitLimit tree = true → packages.decodeCapsuleJson data = .ok tree

mutual
/-- The visit checks three things at once. -/
theorem noDuplicates_eq : ∀ (tree : Json) (limit : Nat), noDuplicates limit tree =
    (tree.textual && tree.distinct && decide (tree.nesting ≤ limit))
  | .null, _ => by simp [noDuplicates, Json.textual, Json.distinct, Json.nesting]
  | .bool _, _ => by simp [noDuplicates, Json.textual, Json.distinct, Json.nesting]
  | .number _, _ => by simp [noDuplicates, Json.textual, Json.distinct, Json.nesting]
  | .string _, _ => by simp [noDuplicates, Json.textual, Json.distinct, Json.nesting]
  | .array items, 0 => by simp [noDuplicates, Json.nesting]
  | .object members, 0 => by simp [noDuplicates, Json.nesting]
  | .array items, limit + 1 => by
      simp only [noDuplicates, Json.textual, Json.distinct, Json.nesting, Nat.add_le_add_iff_right]
      exact noDuplicatesItems_eq items limit
  | .object members, limit + 1 => by
      simp only [noDuplicates, Json.textual, Json.distinct, Json.nesting, Nat.add_le_add_iff_right]
      exact noDuplicatesMembers_eq members limit []

theorem noDuplicatesItems_eq : ∀ (items : List Json) (limit : Nat), noDuplicatesItems limit items =
    (Json.textualItems items && Json.distinctItems items &&
      decide (Json.nestingItems items ≤ limit))
  | [], _ => by simp [noDuplicatesItems, Json.textualItems, Json.distinctItems, Json.nestingItems]
  | item :: items, limit => by
      simp only [noDuplicatesItems, Json.textualItems, Json.distinctItems, Json.nestingItems,
        noDuplicates_eq item limit, noDuplicatesItems_eq items limit, Nat.max_le, Bool.decide_and]
      ac_rfl

theorem noDuplicatesMembers_eq : ∀ (members : List (Bytes × Json)) (limit : Nat)
    (seen : List Bytes), noDuplicatesMembers limit seen members =
      (Json.textualMembers members && Json.distinctMembers seen members &&
        decide (Json.nestingMembers members ≤ limit))
  | [], _, _ => by
      simp [noDuplicatesMembers, Json.textualMembers, Json.distinctMembers, Json.nestingMembers]
  | (name, value) :: members, limit, seen => by
      simp only [noDuplicatesMembers, Json.textualMembers, Json.distinctMembers,
        Json.nestingMembers, noDuplicates_eq value limit,
        noDuplicatesMembers_eq members limit (name :: seen), Nat.max_le, Bool.decide_and]
      ac_rfl
end

mutual
theorem Python.deepest_le : ∀ (tree : Json) (level : Nat),
    Python.deepest level tree ≤ level + tree.nesting
  | .null, _ => Nat.le_refl _
  | .bool _, _ => Nat.le_refl _
  | .number _, _ => Nat.le_refl _
  | .string _, _ => Nat.le_refl _
  | .array items, level => by
      have items := Python.deepestItems_le items level
      simp only [Python.deepest, Json.nesting]
      omega
  | .object members, level => by
      have members := Python.deepestMembers_le members level
      simp only [Python.deepest, Json.nesting]
      omega

theorem Python.deepestItems_le : ∀ (items : List Json) (level : Nat),
    Python.deepestItems level items ≤ level + 1 + Json.nestingItems items
  | [], _ => Nat.zero_le _
  | item :: items, level => by
      have first := Python.deepest_le item (level + 1)
      have rest := Python.deepestItems_le items level
      simp only [Python.deepestItems, Json.nestingItems]
      omega

theorem Python.deepestMembers_le : ∀ (members : List (Bytes × Json)) (level : Nat),
    Python.deepestMembers level members ≤ level + 1 + Json.nestingMembers members
  | [], _ => Nat.zero_le _
  | (_, value) :: members, level => by
      have first := Python.deepest_le value (level + 1)
      have rest := Python.deepestMembers_le members level
      simp only [Python.deepestMembers, Json.nestingMembers]
      omega
end

theorem Python.document_eq_some_iff {data : Bytes} {tree : Json} :
    Python.document data = some tree ↔
      Utf8.Valid data ∧ JsonText.readDocumentLenient data = some tree ∧ tree.distinct = true := by
  unfold Python.document Utf8.Valid
  cases (utf8? data).isSome with
  | false => simp
  | true =>
      cases JsonText.readDocumentLenient data with
      | none => simp
      | some value =>
          simp only [if_true, Option.ite_none_right_eq_some, Option.some.injEq, true_and]
          constructor
          · rintro ⟨once, rfl⟩
            exact ⟨rfl, once⟩
          · rintro ⟨rfl, once⟩
            exact ⟨once, rfl⟩

/-- The Rust decoder accepts what `json.loads` would read, when every string is
UTF-8 and the nesting stays inside its limit. -/
theorem decodeStrictJson_eq_ok_iff {packages : Packages} (serde : SerdeJson packages) {data : Bytes}
    {tree : Json} : decodeStrictJson packages data = .ok tree ↔
      Python.document data = some tree ∧ tree.textual = true ∧ tree.nesting ≤ visitLimit := by
  have strict : decodeStrictJson packages data = .ok tree ↔
      JsonText.readDocument data = some tree ∧ noDuplicates visitLimit tree = true := by
    unfold decodeStrictJson
    rw [serde.reads]
    cases read : JsonText.readDocument data with
    | none => simp
    | some found =>
        simp only [Option.some.injEq]
        by_cases visited : noDuplicates visitLimit found = true
        · rw [if_pos visited, serde.decodes data found read visited, Except.ok.injEq]
          exact ⟨fun same => ⟨same, same ▸ visited⟩, And.left⟩
        · rw [if_neg visited]
          exact ⟨nofun, fun ⟨same, passed⟩ => absurd (same ▸ passed) visited⟩
  rw [strict, Python.document_eq_some_iff, noDuplicates_eq]
  simp only [Bool.and_eq_true, decide_eq_true_eq]
  constructor
  · rintro ⟨read, ⟨textual, once⟩, shallow⟩
    rcases (JsonText.readDocument_textual_iff textual).mp read with ⟨valid, lenient⟩
    exact ⟨⟨valid, lenient, once⟩, textual, shallow⟩
  · rintro ⟨⟨valid, lenient, once⟩, textual, shallow⟩
    exact ⟨(JsonText.readDocument_textual_iff textual).mpr ⟨valid, lenient⟩, ⟨textual, once⟩,
      shallow⟩

theorem Python.decodeStrictJson_eq_ok_iff {python : Python.Interpreter} {data : Bytes}
    {tree : Json} : Python.decodeStrictJson python data = .ok tree ↔
      Python.document data = some tree ∧ tree.nesting ≤ python.recursion ∧
        tree.everyNumber Python.converts = true ∧ Python.depth tree ≤ Python.maxJsonDepth := by
  simp only [Python.decodeStrictJson, bind_eq_ok_iff, ensure_eq_ok_iff, decide_eq_true_eq,
    Python.loads]
  constructor
  · rintro ⟨value, loaded, done, shallow, same⟩
    cases same
    cases read : Python.document data with
    | none => simp [read] at loaded
    | some found =>
        simp only [read] at loaded
        split at loaded
        · next within =>
            cases loaded
            rw [Bool.and_eq_true, decide_eq_true_eq] at within
            exact ⟨rfl, within.1, within.2, shallow⟩
        · cases loaded
  · rintro ⟨read, within, short, shallow⟩
    refine ⟨tree, ?_, (), shallow, rfl⟩
    simp [read, within, short]

/-! ## Where they agree -/

/-- Both decoders refuse, or both give the same document. -/
def Agree : Except String Json → Except String Json → Prop
  | .ok rust, .ok python => rust = python
  | .error _, .error _ => True
  | _, _ => False

/-- The document is inside the limits of both decoders: no lone surrogate, no
more than 127 levels, no integer of more than 4300 digits. -/
def Portable (tree : Json) : Prop :=
  tree.textual = true ∧ tree.nesting ≤ visitLimit ∧ tree.everyNumber Python.converts = true

/-- The document is outside the limits of both decoders. -/
def RefusedByBoth (python : Python.Interpreter) (tree : Json) : Prop :=
  (tree.textual = false ∨ visitLimit < tree.nesting) ∧
    (tree.everyNumber Python.converts = false ∨ python.recursion < tree.nesting ∨
      Python.maxJsonDepth < Python.depth tree)

theorem refusedByBoth_iff {python : Python.Interpreter} {tree : Json} :
    RefusedByBoth python tree ↔ ¬ (tree.textual = true ∧ tree.nesting ≤ visitLimit) ∧
      ¬ (tree.nesting ≤ python.recursion ∧ tree.everyNumber Python.converts = true ∧
        Python.depth tree ≤ Python.maxJsonDepth) := by
  simp only [RefusedByBoth, not_and_or, Nat.not_le, Bool.not_eq_true]
  constructor
  · rintro ⟨outside, short | deep | levels⟩
    · exact ⟨outside, Or.inr (Or.inl short)⟩
    · exact ⟨outside, Or.inl deep⟩
    · exact ⟨outside, Or.inr (Or.inr levels)⟩
  · rintro ⟨outside, deep | short | levels⟩
    · exact ⟨outside, Or.inr (Or.inl deep)⟩
    · exact ⟨outside, Or.inl short⟩
    · exact ⟨outside, Or.inr (Or.inr levels)⟩

/-- Nothing the Rust decoder takes is too deep for the Python store. -/
theorem Python.depth_of_nesting {tree : Json} (shallow : tree.nesting ≤ visitLimit) :
    Python.depth tree ≤ Python.maxJsonDepth := by
  have level := Python.deepest_le tree 1
  have limits : 1 + visitLimit ≤ Python.maxJsonDepth := by decide
  unfold Python.depth
  omega

theorem agree_iff {rust python : Except String Json} :
    Agree rust python ↔ ∀ tree, rust = .ok tree ↔ python = .ok tree := by
  cases rust with
  | error e =>
      cases python with
      | error e' => simp [Agree]
      | ok value =>
          simp only [Agree, false_iff]
          intro same
          cases (same value).mpr rfl
  | ok tree =>
      cases python with
      | error e =>
          simp only [Agree, false_iff]
          intro same
          cases (same tree).mp rfl
      | ok value =>
          simp only [Agree, Except.ok.injEq]
          constructor
          · intro same other
            rw [same]
          · intro same
            exact ((same tree).mp rfl).symm

/-- The two decoders agree on bytes exactly when the document Python would read
from them, if there is one, is inside the limits of both or outside the limits
of both. -/
theorem strictDecoders_agree_iff {packages : Packages} (serde : SerdeJson packages)
    (python : Python.Interpreter) (deep : visitLimit ≤ python.recursion) (data : Bytes) :
    Agree (decodeStrictJson packages data) (Python.decodeStrictJson python data) ↔
      ∀ tree, Python.document data = some tree → Portable tree ∨ RefusedByBoth python tree := by
  rw [agree_iff]
  refine forall_congr' fun tree => ?_
  rw [decodeStrictJson_eq_ok_iff serde, Python.decodeStrictJson_eq_ok_iff]
  by_cases read : Python.document data = some tree
  · simp only [read, true_and, true_imp_iff, refusedByBoth_iff]
    by_cases inside : tree.textual = true ∧ tree.nesting ≤ visitLimit
    · -- what Rust takes, Python refuses only for an integer
      have follow : tree.nesting ≤ python.recursion := Nat.le_trans inside.2 deep
      have shallow := Python.depth_of_nesting inside.2
      simp [Portable, inside, follow, shallow]
    · have notPortable : ¬ Portable tree := fun portable => inside ⟨portable.1, portable.2.1⟩
      simp only [inside, false_iff, notPortable, not_false_eq_true, true_and, false_or]
  · simp [read]

/-! ## A document one store indexes and the other refuses -/

def acceptingPackages : Packages := concretePackages (fun _ => ⟨true, none, []⟩) []

theorem concretePackages_serdeJson (class1 : Json → Class1) (signed : List SignedEnvelope) :
    SerdeJson (concretePackages class1 signed) where
  reads _ := rfl
  decodes data tree read _ := by simp [concretePackages, read]

theorem acceptingPackages_serdeJson : SerdeJson acceptingPackages :=
  concretePackages_serdeJson _ _

/-- An interpreter as it starts. -/
def freshInterpreter : Python.Interpreter := ⟨1000, fun _ => "Expecting value"⟩

/-- The text `{"a":"` and the escape of a lone surrogate. -/
def loneSurrogate : Bytes :=
  [123, 34, 97, 34, 58, 34, 92, 117, 100, 56, 48, 48, 34, 125]

def loneSurrogateTree : Json := .object [([97], .string [0xED, 0xA0, 0x80])]

theorem document_loneSurrogate : Python.document loneSurrogate = some loneSurrogateTree := by
  rw [Python.document_eq_some_iff]
  refine ⟨Utf8.valid_of_ascii ?_, rfl, rfl⟩
  simp only [loneSurrogate, List.mem_cons, List.not_mem_nil, or_false, forall_eq_or_imp, forall_eq]
  decide

theorem loneSurrogateTree_textual : loneSurrogateTree.textual = false := by
  rw [Bool.eq_false_iff]
  intro textual
  simp only [loneSurrogateTree, Json.textual, Json.textualMembers, Bool.and_true,
    Bool.and_eq_true] at textual
  -- a text has no surrogate in it
  have plain : Utf8.Plain [0xED, 0xA0, 0x80] := Utf8.plain_of_valid textual.2
  rw [Utf8.Plain, List.isChain_cons_cons] at plain
  exact absurd (plain.1 rfl) (by decide)

/-- The Python store takes a Capsule with a lone surrogate and the Rust store
does not. -/
theorem loneSurrogate_disagree : ¬ Agree (decodeStrictJson acceptingPackages loneSurrogate)
    (Python.decodeStrictJson freshInterpreter loneSurrogate) := by
  rw [agree_iff]
  intro same
  have taken : Python.decodeStrictJson freshInterpreter loneSurrogate = .ok loneSurrogateTree :=
    Python.decodeStrictJson_eq_ok_iff.mpr ⟨document_loneSurrogate, by decide, rfl, by decide⟩
  have textual := ((decodeStrictJson_eq_ok_iff acceptingPackages_serdeJson).mp
    ((same loneSurrogateTree).mpr taken)).2.1
  rw [loneSurrogateTree_textual] at textual
  cases textual

/-- The text `[1]`. -/
def smallText : Bytes := [91, 49, 93]

theorem smallText_agree : Agree (decodeStrictJson acceptingPackages smallText)
    (Python.decodeStrictJson freshInterpreter smallText) := by
  refine (strictDecoders_agree_iff acceptingPackages_serdeJson freshInterpreter (by decide)
    smallText).mpr fun tree read => ?_
  rcases Python.document_eq_some_iff.mp read with ⟨-, lenient, -⟩
  rw [← Option.some.inj lenient]
  exact Or.inl ⟨rfl, by decide, rfl⟩

end ArtifactStore
end CapsuleEmit
