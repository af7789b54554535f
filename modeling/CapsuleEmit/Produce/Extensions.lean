import CapsuleEmit.Produce.DuplicateNames
import CapsuleEmit.Produce.Model
import Mathlib.Tactic.Ring

namespace CapsuleEmit
namespace Produce

/-!
# Extension members

An extension is one more member of a Capsule, given as JSON text.  Its name
may not be one the base profile defines or one that is there already, and its
value is decoded strictly, is not null and holds no float and no integer
outside the interoperable range.  The packages differ in how they decode.

Within 128 levels the Python and the Rust decoder give the same value for
every extension that passes the number check: an integer of more than 4300
digits, which only Python refuses to convert, is far outside the range.
-/

/-! ## Numbers -/

/-- A number written with a fraction or an exponent. -/
def isFloat (number : JsonNumber) : Bool := !ArtifactStore.Python.isIntText number

/-- The value of decimal digits. -/
def decimal (digits : Bytes) : Nat := digits.foldl (fun n d => 10 * n + (d.toNat - 48)) 0

def maxSafeInteger : Nat := 2 ^ 53 - 1

/-- An integer outside the interoperable range. -/
def isUnsafeInt (number : JsonNumber) : Bool :=
  !isFloat number && maxSafeInteger < decimal (number.text.filter isDigit)

/-- A number a Capsule may carry. -/
def isSafe (number : JsonNumber) : Bool := !isFloat number && !isUnsafeInt number

/-- The text of a name in an error path. -/
def shown (name : Bytes) : String := (utf8? name).getD ""

mutual
/-- Refuse a float or an integer outside the interoperable range anywhere in
an extension value. -/
def checkExtensionNumbers (path : String) : Json → Except String Unit
  | .null => .ok ()
  | .bool _ => .ok ()
  | .number value => do
      ensure (!isFloat value)
        ("float at " ++ path ++ ": floating-point values are forbidden in a Capsule")
      ensure (!isUnsafeInt value) ("integer at " ++ path ++ " is outside the interoperable range")
  | .string _ => .ok ()
  | .array items => checkItems path 0 items
  | .object members => checkMembers path members

def checkItems (path : String) (index : Nat) : List Json → Except String Unit
  | [] => .ok ()
  | item :: items => do
      checkExtensionNumbers (path ++ "[" ++ toString index ++ "]") item
      checkItems path (index + 1) items

def checkMembers (path : String) : Payload → Except String Unit
  | [] => .ok ()
  | (key, value) :: members => do
      checkExtensionNumbers (path ++ "." ++ shown key) value
      checkMembers path members
end

theorem bind_unit_eq_ok_iff {α : Type} {check : Except String Unit} {rest : Unit → Except String α}
    {a : α} : (check >>= rest) = .ok a ↔ check = .ok () ∧ rest () = .ok a := by
  cases check <;> simp

mutual
theorem checkExtensionNumbers_eq_ok_iff : ∀ (value : Json) (path : String),
    checkExtensionNumbers path value = .ok () ↔ value.everyNumber isSafe = true
  | .null, _ => by simp [checkExtensionNumbers, Json.everyNumber]
  | .bool _, _ => by simp [checkExtensionNumbers, Json.everyNumber]
  | .number value, _ => by
      simp only [checkExtensionNumbers, bind_unit_eq_ok_iff, ensure_eq_ok_iff, Json.everyNumber,
        isSafe, Bool.and_eq_true]
  | .string _, _ => by simp [checkExtensionNumbers, Json.everyNumber]
  | .array items, path => checkItems_eq_ok_iff items path 0
  | .object members, path => checkMembers_eq_ok_iff members path

theorem checkItems_eq_ok_iff : ∀ (items : List Json) (path : String) (index : Nat),
    checkItems path index items = .ok () ↔ Json.everyNumberItems isSafe items = true
  | [], _, _ => by simp [checkItems, Json.everyNumberItems]
  | item :: items, path, index => by
      rw [checkItems, bind_unit_eq_ok_iff, checkExtensionNumbers_eq_ok_iff item,
        checkItems_eq_ok_iff items, Json.everyNumberItems, Bool.and_eq_true]

theorem checkMembers_eq_ok_iff : ∀ (members : Payload) (path : String),
    checkMembers path members = .ok () ↔ Json.everyNumberMembers isSafe members = true
  | [], _ => by simp [checkMembers, Json.everyNumberMembers]
  | (key, value) :: members, path => by
      rw [checkMembers, bind_unit_eq_ok_iff, checkExtensionNumbers_eq_ok_iff value,
        checkMembers_eq_ok_iff members, Json.everyNumberMembers, Bool.and_eq_true]
end

/-! ## The Python decoder -/

namespace Python

open ArtifactStore.Python (Interpreter loads document maxJsonDepth deepest deepestItems
  deepestMembers)

def checkText (path : String) (content : Bytes) : Except String Unit :=
  ensure (utf8? content).isSome
    ("text at " ++ path ++ " must be valid Unicode (unpaired surrogate)")

/-- The names of an object are checked before its values. -/
def checkKeys (path : String) : Payload → Except String Unit
  | [] => .ok ()
  | (key, _) :: members => do
      checkText path key
      checkKeys path members

mutual
/-- Reject unpaired surrogates and nesting deeper than 1000 levels.  The values
wait on a stack, so the last one is checked first. -/
def checkJsonValue (path : String) (depth : Nat) (value : Json) : Except String Unit := do
  ensure (depth ≤ maxJsonDepth) "JSON exceeds maximum depth of 1000"
  match value with
  | .null => .ok ()
  | .bool _ => .ok ()
  | .number _ => .ok ()
  | .string content => checkText path content
  | .array items => checkJsonItems path depth 0 items
  | .object members => do
      checkKeys path members
      checkJsonMembers path depth members

def checkJsonItems (path : String) (depth index : Nat) : List Json → Except String Unit
  | [] => .ok ()
  | item :: items => do
      checkJsonItems path depth (index + 1) items
      checkJsonValue (path ++ "[" ++ toString index ++ "]") (depth + 1) item

def checkJsonMembers (path : String) (depth : Nat) : Payload → Except String Unit
  | [] => .ok ()
  | (key, value) :: members => do
      checkJsonMembers path depth members
      checkJsonValue (path ++ "." ++ shown key) (depth + 1) value
end

/-- Decode UTF-8 JSON text, rejecting repeated names, NaN and Infinity, lone
surrogates, trailing data and excessive depth. -/
def decodeStrictJson (python : Interpreter) (data : Bytes) : Except String Json := do
  let value ← loads python data
  checkJsonValue "$" 1 value
  return value

/-- The names of an object are text. -/
def keysTextual (members : Payload) : Bool := members.all (fun member => (utf8? member.1).isSome)

theorem checkKeys_eq_ok_iff (members : Payload) (path : String) :
    checkKeys path members = .ok () ↔ keysTextual members = true := by
  induction members with
  | nil => simp [checkKeys, keysTextual]
  | cons member members ih =>
      rw [checkKeys, bind_unit_eq_ok_iff, checkText, ensure_eq_ok_iff, ih]
      simp [keysTextual]

mutual
theorem checkJsonValue_eq_ok_iff : ∀ (value : Json) (path : String) (depth : Nat),
    checkJsonValue path depth value = .ok () ↔
      value.textual = true ∧ deepest depth value ≤ maxJsonDepth
  | .null, _, _ => by
      simp [checkJsonValue, bind_unit_eq_ok_iff, ensure_eq_ok_iff, Json.textual, deepest]
  | .bool _, _, _ => by
      simp [checkJsonValue, bind_unit_eq_ok_iff, ensure_eq_ok_iff, Json.textual, deepest]
  | .number _, _, _ => by
      simp [checkJsonValue, bind_unit_eq_ok_iff, ensure_eq_ok_iff, Json.textual, deepest]
  | .string _, _, _ => by
      simp only [checkJsonValue, checkText, bind_unit_eq_ok_iff, ensure_eq_ok_iff, Json.textual,
        deepest, decide_eq_true_eq]
      exact and_comm
  | .array items, path, depth => by
      simp only [checkJsonValue, bind_unit_eq_ok_iff, ensure_eq_ok_iff, Json.textual, deepest,
        decide_eq_true_eq, checkJsonItems_eq_ok_iff items, Nat.max_le]
      exact and_left_comm
  | .object members, path, depth => by
      simp only [checkJsonValue, bind_unit_eq_ok_iff, ensure_eq_ok_iff, Json.textual, deepest,
        decide_eq_true_eq, checkKeys_eq_ok_iff, Nat.max_le]
      rw [checkJsonMembers_eq_ok_iff members]
      exact and_left_comm

theorem checkJsonItems_eq_ok_iff : ∀ (items : List Json) (path : String) (depth index : Nat),
    checkJsonItems path depth index items = .ok () ↔
      Json.textualItems items = true ∧ deepestItems depth items ≤ maxJsonDepth
  | [], _, _, _ => by simp [checkJsonItems, Json.textualItems, deepestItems]
  | item :: items, path, depth, index => by
      rw [checkJsonItems, bind_unit_eq_ok_iff, checkJsonValue_eq_ok_iff item,
        checkJsonItems_eq_ok_iff items, Json.textualItems, Bool.and_eq_true, deepestItems,
        Nat.max_le]
      tauto

theorem checkJsonMembers_eq_ok_iff : ∀ (members : Payload) (path : String) (depth : Nat),
    (keysTextual members = true ∧ checkJsonMembers path depth members = .ok ()) ↔
      Json.textualMembers members = true ∧ deepestMembers depth members ≤ maxJsonDepth
  | [], _, _ => by simp [checkJsonMembers, Json.textualMembers, deepestMembers, keysTextual]
  | (key, value) :: members, path, depth => by
      have rest := checkJsonMembers_eq_ok_iff members path depth
      rw [checkJsonMembers, bind_unit_eq_ok_iff, checkJsonValue_eq_ok_iff value,
        Json.textualMembers, Bool.and_eq_true, Bool.and_eq_true, deepestMembers, Nat.max_le]
      simp only [keysTextual, List.all_cons, Bool.and_eq_true] at rest ⊢
      tauto
end

theorem decodeStrictJson_eq_ok_iff {python : Interpreter} {data : Bytes} {tree : Json} :
    decodeStrictJson python data = .ok tree ↔ document data = some tree ∧
      tree.textual = true ∧ tree.nesting ≤ python.recursion ∧
        tree.everyNumber ArtifactStore.Python.converts = true ∧
          ArtifactStore.Python.depth tree ≤ maxJsonDepth := by
  have loaded : loads python data = .ok tree ↔ document data = some tree ∧
      tree.nesting ≤ python.recursion ∧
        tree.everyNumber ArtifactStore.Python.converts = true := by
    unfold loads
    cases document data with
    | none => simp
    | some value =>
        simp only [Option.some.injEq]
        split
        · next within =>
            rw [Bool.and_eq_true, decide_eq_true_eq] at within
            rw [Except.ok.injEq]
            exact ⟨fun same => ⟨same, same ▸ within⟩, And.left⟩
        · next without =>
            refine ⟨nofun, fun ⟨same, shallow, short⟩ => absurd ?_ without⟩
            rw [same, Bool.and_eq_true, decide_eq_true_eq]
            exact ⟨shallow, short⟩
  simp only [decodeStrictJson, bind_eq_ok_iff]
  constructor
  · rintro ⟨value, read, done, checked, same⟩
    cases same
    rcases loaded.mp read with ⟨document, shallow, short⟩
    rcases (checkJsonValue_eq_ok_iff tree "$" 1).mp checked with ⟨textual, levels⟩
    exact ⟨document, textual, shallow, short, levels⟩
  · rintro ⟨document, textual, shallow, short, levels⟩
    exact ⟨tree, loaded.mpr ⟨document, shallow, short⟩, (),
      (checkJsonValue_eq_ok_iff tree "$" 1).mpr ⟨textual, levels⟩, rfl⟩

end Python

/-! ## The Rust decoder -/

namespace Rust

/-- How many levels the agent-action-capsule decoder follows. -/
def decoderLevels : Nat := 128

/-- What the agent-action-capsule decoder is relied on for: it takes strict
JSON text up to its limit, and gives the tree of a document without a repeated
name, numbers as they are written. -/
structure CapsuleDecoder (decode : Bytes → Except String Json) : Prop where
  takes : ∀ data, (∃ value, decode data = .ok value) ↔
    ∃ tree, JsonText.readDocument data = some tree ∧ tree.textual = true ∧
      tree.nesting ≤ decoderLevels
  gives : ∀ data tree, JsonText.readDocument data = some tree → tree.textual = true →
    tree.nesting ≤ decoderLevels → tree.distinct = true → decode data = .ok tree

variable (decode : Bytes → Except String Json)

/-- Decode strictly, then refuse a repeated name. -/
def decodeStrictJson (data : Bytes) : Except String Json := do
  let value ← decode data
  let repeated ← duplicateKey data
  ensure repeated.isNone ("duplicate object key " ++ (repeated.elim "" shown))
  return value

variable {decode}

theorem decodeStrictJson_eq_ok_iff (decoder : CapsuleDecoder decode) {data : Bytes} {tree : Json} :
    decodeStrictJson decode data = .ok tree ↔ ArtifactStore.Python.document data = some tree ∧
      tree.textual = true ∧ tree.nesting ≤ decoderLevels := by
  have strict : decodeStrictJson decode data = .ok tree ↔ JsonText.readDocument data = some tree ∧
      tree.textual = true ∧ tree.nesting ≤ decoderLevels ∧ tree.distinct = true := by
    simp only [decodeStrictJson, bind_eq_ok_iff, ensure_eq_ok_iff]
    constructor
    · rintro ⟨value, decoded, repeated, scanned, done, none, same⟩
      cases same
      rcases (decoder.takes data).mp ⟨tree, decoded⟩ with ⟨found, read, textual, shallow⟩
      rw [Option.isNone_iff_eq_none] at none
      rw [none] at scanned
      have once := (duplicateKey_eq_none_iff read textual).mp scanned
      rw [decoder.gives data found read textual shallow once] at decoded
      cases decoded
      exact ⟨read, textual, shallow, once⟩
    · rintro ⟨read, textual, shallow, once⟩
      exact ⟨tree, decoder.gives data tree read textual shallow once, none,
        (duplicateKey_eq_none_iff read textual).mpr once, (), rfl, rfl⟩
  rw [strict, ArtifactStore.Python.document_eq_some_iff]
  constructor
  · rintro ⟨read, textual, shallow, once⟩
    rcases (JsonText.readDocument_textual_iff textual).mp read with ⟨valid, lenient⟩
    exact ⟨⟨valid, lenient, once⟩, textual, shallow⟩
  · rintro ⟨⟨valid, lenient, once⟩, textual, shallow⟩
    exact ⟨(JsonText.readDocument_textual_iff textual).mpr ⟨valid, lenient⟩, textual, shallow, once⟩

end Rust

/-! ## Safe integers are short -/

theorem decimal_append (front back : Bytes) : decimal (front ++ back) =
    back.foldl (fun n d => 10 * n + (d.toNat - 48)) (decimal front) := by
  rw [decimal, decimal, List.foldl_append]

theorem le_foldl_decimal (digits : Bytes) (n : Nat) :
    n * 10 ^ digits.length ≤ digits.foldl (fun n d => 10 * n + (d.toNat - 48)) n := by
  induction digits generalizing n with
  | nil => simp
  | cons d digits ih =>
      rw [List.foldl_cons, List.length_cons]
      calc
        n * 10 ^ (digits.length + 1) = 10 * n * 10 ^ digits.length := by ring
        _ ≤ (10 * n + (d.toNat - 48)) * 10 ^ digits.length :=
          Nat.mul_le_mul_right _ (Nat.le_add_right _ _)
        _ ≤ _ := ih _

/-- The bytes of an integer text. -/
def isIntByte (b : UInt8) : Bool := isDigit b || b = 45

/-- Nothing of an integer follows its digits. -/
theorem numberTail_eq_nil {tail : Bytes} (wellFormed : isNumberTail tail = true)
    (integer : tail.all isIntByte = true) : tail = [] := by
  unfold isNumberTail at wellFormed
  split at wellFormed
  · rfl
  · next rest => cases integer
  · next e rest notPoint =>
      simp only [Bool.and_eq_true, Bool.or_eq_true, decide_eq_true_eq] at wellFormed
      rcases wellFormed.1 with rfl | rfl <;> cases integer

/-- An unsigned integer is zero, or its digits start with another one. -/
theorem leading_digit {text : Bytes} (wellFormed : isUnsignedNumber text = true)
    (integer : text.all isIntByte = true) :
    text = [48] ∨ ∃ d rest, text = d :: rest ∧ 48 < d.toNat ∧ isDigit d = true ∧
      rest.all isDigit = true := by
  unfold isUnsignedNumber at wellFormed
  split at wellFormed
  · cases wellFormed
  · next rest =>
      rw [List.all_cons, Bool.and_eq_true] at integer
      rw [numberTail_eq_nil wellFormed integer.2]
      exact Or.inl rfl
  · next d rest notZero =>
      rw [List.all_cons, Bool.and_eq_true] at integer
      rw [Bool.and_eq_true] at wellFormed
      have suffix : (rest.dropWhile isDigit).all isIntByte = true := by
        rw [List.all_eq_true]
        intro b inside
        exact List.all_eq_true.mp integer.2 b (List.dropWhile_suffix isDigit |>.subset inside)
      have ended := numberTail_eq_nil wellFormed.2 suffix
      have digits : rest.all isDigit = true := by
        have whole := List.takeWhile_append_dropWhile (p := isDigit) (l := rest)
        rw [ended, List.append_nil] at whole
        rw [← whole]
        exact List.all_takeWhile
      have low := wellFormed.1
      simp only [isDigit, Bool.and_eq_true, decide_eq_true_eq] at low
      have atLeast : 48 ≤ d.toNat := UInt8.le_iff_toNat_le.mp low.1
      have other : d.toNat ≠ 48 := by
        intro same
        exact notZero (UInt8.toNat_inj.mp same)
      exact Or.inr ⟨d, rest, rfl, by omega, wellFormed.1, digits⟩

theorem filter_all {p : UInt8 → Bool} {bytes : Bytes} (all : bytes.all p = true) :
    bytes.filter p = bytes := List.filter_eq_self.mpr (List.all_eq_true.mp all)

/-- The digits of a safe integer are few. -/
theorem converts_of_isSafe {number : JsonNumber} (safe : isSafe number = true) :
    ArtifactStore.Python.converts number = true := by
  simp only [isSafe, isUnsafeInt, isFloat, Bool.and_eq_true, Bool.not_eq_true',
    Bool.not_not] at safe
  rcases safe with ⟨integer, inRange⟩
  rw [integer, Bool.true_and, decide_eq_false_iff_not, Nat.not_lt] at inRange
  have few : ∀ text : Bytes, isUnsignedNumber text = true → text.all isIntByte = true →
      decimal (text.filter isDigit) ≤ maxSafeInteger →
      (text.filter isDigit).length ≤ ArtifactStore.Python.intMaxStrDigits := by
    intro text wellFormed int within
    rcases leading_digit wellFormed int with rfl | ⟨d, rest, rfl, positive, digit, digits⟩
    · decide
    · rw [List.filter_cons_of_pos digit, filter_all digits] at within ⊢
      -- a longer number would be at least a power of ten beyond the range
      by_contra long
      rw [Nat.not_le, List.length_cons] at long
      have large := le_foldl_decimal rest (10 * 0 + (d.toNat - 48))
      have start : decimal (d :: rest) = rest.foldl (fun n d => 10 * n + (d.toNat - 48))
          (10 * 0 + (d.toNat - 48)) := rfl
      have bound : 10 ^ 16 ≤ 10 ^ rest.length := by
        apply Nat.pow_le_pow_right (by decide)
        have limit : ArtifactStore.Python.intMaxStrDigits = 4300 := rfl
        omega
      have one : 1 * 10 ^ rest.length ≤ (10 * 0 + (d.toNat - 48)) * 10 ^ rest.length :=
        Nat.mul_le_mul_right _ (by omega)
      have range : maxSafeInteger < 10 ^ 16 := by decide
      rw [start] at within
      omega
  rw [ArtifactStore.Python.converts, integer, Bool.not_true, Bool.false_or, decide_eq_true_eq]
  have wellFormed := number.wellFormed
  unfold isNumberText at wellFormed
  unfold ArtifactStore.Python.isIntText at integer
  split at wellFormed
  · next rest same =>
      rw [same] at integer inRange ⊢
      rw [List.filter_cons_of_neg (by decide)] at inRange ⊢
      rw [List.all_cons, Bool.and_eq_true] at integer
      exact few rest wellFormed integer.2 inRange
  · next text same => exact few _ wellFormed integer inRange

mutual
theorem everyNumber_mono {p q : JsonNumber → Bool} : ∀ (tree : Json),
    (∀ number, p number = true → q number = true) → tree.everyNumber p = true →
      tree.everyNumber q = true
  | .null, _, _ => rfl
  | .bool _, _, _ => rfl
  | .number value, implies, holds => implies value holds
  | .string _, _, _ => rfl
  | .array items, implies, holds => everyNumberItems_mono items implies holds
  | .object members, implies, holds => everyNumberMembers_mono members implies holds

theorem everyNumberItems_mono {p q : JsonNumber → Bool} : ∀ (items : List Json),
    (∀ number, p number = true → q number = true) → Json.everyNumberItems p items = true →
      Json.everyNumberItems q items = true
  | [], _, _ => rfl
  | item :: items, implies, holds => by
      rw [Json.everyNumberItems, Bool.and_eq_true] at holds ⊢
      exact ⟨everyNumber_mono item implies holds.1, everyNumberItems_mono items implies holds.2⟩

theorem everyNumberMembers_mono {p q : JsonNumber → Bool} : ∀ (members : Payload),
    (∀ number, p number = true → q number = true) → Json.everyNumberMembers p members = true →
      Json.everyNumberMembers q members = true
  | [], _, _ => rfl
  | (_, value) :: members, implies, holds => by
      rw [Json.everyNumberMembers, Bool.and_eq_true] at holds ⊢
      exact ⟨everyNumber_mono value implies holds.1,
        everyNumberMembers_mono members implies holds.2⟩
end

/-! ## Adding extensions -/

/-- The member names the base profile defines, the local-only ones included. -/
def baseMembers : List String :=
  ["spec_version", "format_version", "canonicalization_id", "capsule_id", "action_id",
    "action_type", "operator", "developer", "timestamp", "epoch_id", "domain", "provenance",
    "provenance_mode", "disposition", "effect", "chain", "assurance", "cross_party",
    "model_attestation", "references", "constraints", "compliance", "signature", "key_id"]

def isLower (b : UInt8) : Bool := 97 ≤ b && b ≤ 122

/-- Lower-case letters, digits and underscores, starting with a letter. -/
def isExtensionName (name : String) : Bool :=
  match utf8 name with
  | [] => false
  | first :: rest => isLower first && rest.all (fun b => isLower b || isDigit b || b = 95)

section

variable (decode : Bytes → Except String Json) (quote : String → String)

/-- The checks of one extension against the Capsule built so far, over the
decoder of its value. -/
def extensionValue (extension : Extension) (payload : Payload) : Except String Json := do
  ensure (isExtensionName extension.name)
    ("extension name " ++ quote extension.name ++
      " must be lowercase letters, digits and underscores, starting with a letter")
  ensure (!baseMembers.contains extension.name)
    ("extension " ++ quote extension.name ++ " is a base-profile member")
  ensure (!(payload.map Prod.fst).contains (utf8 extension.name))
    ("extension " ++ quote extension.name ++ " is given more than once")
  ensure (!extension.value.isEmpty) ("extension " ++ quote extension.name ++ " has no value")
  let value ← (decode extension.value).mapError
    (fun e => "extension " ++ quote extension.name ++ ": " ++ e)
  ensure (match value with | .null => false | _ => true)
    ("extension " ++ quote extension.name ++ " must not be null")
  checkExtensionNumbers ("$." ++ extension.name) value
  return value

/-- The Capsule with every extension added, in order. -/
def addExtensions : Payload → List Extension → Except String Payload
  | payload, [] => .ok payload
  | payload, extension :: extensions => do
      let value ← extensionValue decode quote extension payload
      addExtensions (payload ++ [member extension.name value]) extensions

end

/-- Two decoders give the same values, as far as the number check lets them pass. -/
def SameValues (left right : Bytes → Except String Json) (data : Bytes) : Prop :=
  ∀ tree, tree.everyNumber isSafe = true → (left data = .ok tree ↔ right data = .ok tree)

section

variable {left right : Bytes → Except String Json} {leftQuote rightQuote : String → String}

theorem extensionValue_same {extension : Extension} (same : SameValues left right extension.value)
    {payload other : Payload} (names : payload.map Prod.fst = other.map Prod.fst) {value : Json}
    (admitted : extensionValue left leftQuote extension payload = .ok value) :
    extensionValue right rightQuote extension other = .ok value ∧
      left extension.value = .ok value := by
  simp only [extensionValue, bind_eq_ok_iff, ensure_eq_ok_iff, mapError_eq_ok_iff] at admitted ⊢
  rcases admitted with ⟨_, name, _, base, _, once, _, some, found, decoded, _, notNull, _, numbers,
    same'⟩
  cases same'
  have safe := (checkExtensionNumbers_eq_ok_iff _ _).mp numbers
  rw [names] at once
  exact ⟨⟨(), name, (), base, (), once, (), some, _, (same _ safe).mp decoded, (), notNull,
    (), numbers, rfl⟩, decoded⟩

/-- Over decoders that give the same values, the same extensions are added to
Capsules with the same member names. -/
theorem addExtensions_same (otherQuote : String → String) {extensions : List Extension}
    (same : ∀ extension ∈ extensions, SameValues left right extension.value)
    {payload other result : Payload} (names : payload.map Prod.fst = other.map Prod.fst)
    (added : addExtensions left leftQuote payload extensions = .ok result) :
    ∃ members, result = payload ++ members ∧
      addExtensions right otherQuote other extensions = .ok (other ++ members) ∧
      List.Forall₂ (fun extension member => member.1 = utf8 extension.name ∧
        extension.name ∉ baseMembers ∧ left extension.value = .ok member.2) extensions members := by
  induction extensions generalizing payload other with
  | nil =>
      rw [addExtensions] at added
      cases added
      exact ⟨[], by simp, by simp [addExtensions], List.Forall₂.nil⟩
  | cons extension extensions ih =>
      rw [addExtensions] at added
      rcases bind_eq_ok_iff.mp added with ⟨value, admitted, rest⟩
      have head : extensionValue right otherQuote extension other = .ok value ∧
          left extension.value = .ok value :=
        extensionValue_same (same extension List.mem_cons_self) names admitted
      rcases head with ⟨again, decoded⟩
      have grown : (payload ++ [member extension.name value]).map Prod.fst =
          (other ++ [member extension.name value]).map Prod.fst := by simp [names]
      rcases ih (fun e inside => same e (List.mem_cons_of_mem extension inside)) grown rest
        with ⟨members, rfl, others, shape⟩
      refine ⟨member extension.name value :: members, by simp, ?_, ?_⟩
      · rw [addExtensions, again, ok_bind, others]
        simp
      · refine List.Forall₂.cons ⟨rfl, ?_, decoded⟩ shape
        simp only [extensionValue, bind_eq_ok_iff, ensure_eq_ok_iff] at admitted
        rcases admitted with ⟨_, name, _, base, -⟩
        simpa using base

end

/-- Within the limit of the Rust decoder, the Python and the Rust decoder give
the same extension values. -/
theorem decoders_same {decode : Bytes → Except String Json} (decoder : Rust.CapsuleDecoder decode)
    {python : ArtifactStore.Python.Interpreter} (deep : Rust.decoderLevels ≤ python.recursion)
    {data : Bytes}
    (shallow : ∀ tree, ArtifactStore.Python.document data = some tree →
      tree.nesting ≤ Rust.decoderLevels) :
    SameValues (Python.decodeStrictJson python) (Rust.decodeStrictJson decode) data := by
  intro tree safe
  rw [Python.decodeStrictJson_eq_ok_iff, Rust.decodeStrictJson_eq_ok_iff decoder]
  constructor
  · rintro ⟨document, textual, -⟩
    exact ⟨document, textual, shallow tree document⟩
  · rintro ⟨document, textual, within⟩
    have level := ArtifactStore.Python.deepest_le tree 1
    have limits : 1 + Rust.decoderLevels ≤ ArtifactStore.Python.maxJsonDepth := by decide
    refine ⟨document, textual, Nat.le_trans within deep, ?_, ?_⟩
    · exact everyNumber_mono tree (fun _ => converts_of_isSafe) safe
    · unfold ArtifactStore.Python.depth
      omega

end Produce
end CapsuleEmit
