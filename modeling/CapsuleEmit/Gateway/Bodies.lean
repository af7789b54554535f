import CapsuleEmit.ArtifactStore.StrictJson
import CapsuleEmit.Foundation.OrderedMap
import CapsuleEmit.Foundation.Scanner
import CapsuleEmit.Gateway.Authority

namespace CapsuleEmit
namespace Gateway

open JsonText Scanner
open ArtifactStore.Python (isIntText)
open Numbers (Binary64 Value)

/-!
# What the hooks read

The bodies of a call and its response are bytes the client and the server
chose.  `json.loads` reads them, with the constants JSON does not have, and
what it cannot read is taken for no arguments and no result.  A body becomes a
tree whose objects are dictionaries; its floats are their texts, which Python
reads as binary64 numbers.  Metadata comes as protobuf values, whose numbers
are binary64 numbers already.
-/

/-! ## Bodies -/

/-- What the interpreter does with a body: the levels of `json.loads` and of
`canonicalize_for_digest`, the floats of number texts, and `str`, which may
fail on what is nested too deep. -/
structure Interpreter where
  loadsLevels : Nat
  canonicalLevels : Nat
  float : JsonNumber → Binary64
  str : Tree → Option Bytes

/-- The dictionary of an object's pairs: of equal names the last value counts. -/
def dictOf (pairs : List (Bytes × Tree)) : List (Bytes × Tree) :=
  pairs.foldl (fun entries pair => OrderedMap.insert pair.1 pair.2 entries) []

mutual
/-- The objects of a tree become dictionaries. -/
def decoded : Tree → Tree
  | .array items => .array (decodedItems items)
  | .object members => .object (dictOf (decodedMembers members))
  | .null => .null
  | .bool b => .bool b
  | .number token => .number token
  | .constant name => .constant name
  | .string bytes => .string bytes

def decodedItems : List Tree → List Tree
  | [] => []
  | item :: items => decoded item :: decodedItems items

def decodedMembers : List (Bytes × Tree) → List (Bytes × Tree)
  | [] => []
  | (name, value) :: members => (name, decoded value) :: decodedMembers members
end

variable (interpreter : Interpreter)

/-- `json.loads` without hooks: `int` refuses tokens that are too long. -/
def loadsHooks : Hooks where
  levels := some interpreter.loadsLevels
  number := ArtifactStore.Python.converts
  names := fun _ => true

/-- `json.loads(body)`, if it does not raise. -/
def loadsBody (body : Bytes) : Option Tree :=
  (loads (loadsHooks interpreter) body).toOption.map decoded

def unknown : Bytes := utf8 "unknown"

/-- The members of `params.get("arguments") or {}`, when it is a dictionary. -/
def argumentsOf (params : List (Bytes × Tree)) : List (Bytes × Tree) :=
  match params.lookup (utf8 "arguments") with
  | some (.object arguments) => arguments
  | _ => []

/-- `_parse_call(request)` -/
def parseCall (mcpRequest : Option Bytes) : Bytes × List (Bytes × Tree) :=
  match mcpRequest.bind (loadsBody interpreter) with
  | some (.object params) =>
      match (params.lookup (utf8 "name")).elim (some unknown) interpreter.str with
      | some toolName => (toolName, argumentsOf params)
      | none => (unknown, [])
  | _ => (unknown, [])

/-- `_parse_result(response)` -/
def parseResult (mcpResponse : Bytes) : List (Bytes × Tree) :=
  if mcpResponse = [] then []
  else match loadsBody interpreter mcpResponse with
    | none => []
    | some (.object result) => result
    | some result => [(utf8 "result", result)]

/-- `_result_failed(result)` -/
def treeFailed (result : List (Bytes × Tree)) : Bool :=
  (match result.lookup (utf8 "error") with
    | none => false
    | some .null => false
    | some _ => true) ||
  (match result.lookup (utf8 "isError") with
    | some (.bool true) => true
    | _ => false)

/-! ## Canonical bodies -/

mutual
/-- How many arrays and objects are around the deepest value. -/
def nesting : Tree → Nat
  | .array items => nestingItems items + 1
  | .object members => nestingMembers members + 1
  | _ => 0

def nestingItems : List Tree → Nat
  | [] => 0
  | item :: items => max (nesting item) (nestingItems items)

def nestingMembers : List (Bytes × Tree) → Nat
  | [] => 0
  | (_, value) :: members => max (nesting value) (nestingMembers members)
end

/-- What ends a hook. -/
inductive Raised where
  | floatInDigestError
  | recursionError
  deriving DecidableEq

/-- `float_to_str` of the float of a token. -/
def floatText (v : Binary64) : Except Raised Tree :=
  match Numbers.floatToStr id "" v with
  | .ok text => .ok (.string (utf8 (String.ofList text)))
  | .error _ => .error .floatInDigestError

mutual
/-- `canonicalize_for_digest` of what `json.loads` made. -/
def canonicalTree : Tree → Except Raised Tree
  | .number token =>
      if isIntText token then .ok (.number token) else floatText (interpreter.float token)
  | .constant _ => .error .floatInDigestError
  | .array items => (canonicalItems items).map .array
  | .object members => (canonicalMembers members).map .object
  | .null => .ok .null
  | .bool b => .ok (.bool b)
  | .string bytes => .ok (.string bytes)

def canonicalItems : List Tree → Except Raised (List Tree)
  | [] => .ok []
  | item :: items => do
      let first ← canonicalTree item
      let rest ← canonicalItems items
      return first :: rest

def canonicalMembers : List (Bytes × Tree) → Except Raised (List (Bytes × Tree))
  | [] => .ok []
  | (name, value) :: members => do
      let first ← canonicalTree value
      let rest ← canonicalMembers members
      return (name, first) :: rest
end

/-- `canonicalize_for_digest(value)`: it ends with an error past the recursion
limit, too. -/
def canonicalBody (value : List (Bytes × Tree)) : Except Raised Tree :=
  if nesting (.object value) ≤ interpreter.canonicalLevels then
    canonicalTree interpreter (.object value)
  else .error .recursionError

mutual
/-- No float of what `json.loads` made is infinite or not a number. -/
def finite : Tree → Bool
  | .number token => isIntText token || decide (interpreter.float token).Finite
  | .constant _ => false
  | .array items => finiteItems items
  | .object members => finiteMembers members
  | _ => true

def finiteItems : List Tree → Bool
  | [] => true
  | item :: items => finite item && finiteItems items

def finiteMembers : List (Bytes × Tree) → Bool
  | [] => true
  | (_, value) :: members => finite value && finiteMembers members
end

/-- A body that is canonicalized without an error. -/
def Sealable (value : List (Bytes × Tree)) : Prop :=
  finite interpreter (.object value) = true ∧
    nesting (.object value) ≤ interpreter.canonicalLevels

variable {interpreter}

theorem floatText_succeeds (v : Binary64) : succeeds (floatText v) = decide v.Finite := by
  unfold floatText
  by_cases whole : v.Finite
  · rw [Numbers.floatToStr_finite id "" whole, decide_eq_true whole]
    rfl
  · rw [decide_eq_false whole]
    cases v with
    | nan => rfl
    | infinite negative => rfl
    | zero negative => exact absurd trivial whole
    | nonzero negative digits point => exact absurd trivial whole

theorem succeeds_map {ε α β : Type} (f : α → β) (x : Except ε α) :
    succeeds (x.map f) = succeeds x := by
  cases x <;> rfl

theorem succeeds_both {ε α β γ : Type} (x : Except ε α) (y : Except ε β) (f : α → β → γ) :
    succeeds (do let a ← x; let b ← y; return f a b) = (succeeds x && succeeds y) := by
  cases x with
  | error e => rfl
  | ok a => cases y <;> rfl

mutual
/-- Canonicalizing succeeds on what has only finite floats. -/
theorem canonicalTree_succeeds : ∀ tree : Tree,
    succeeds (canonicalTree interpreter tree) = finite interpreter tree
  | .null => rfl
  | .bool _ => rfl
  | .number token => by
      rw [canonicalTree, finite]
      split_ifs with int
      · rw [int]
        rfl
      · rw [floatText_succeeds, Bool.eq_false_iff.mpr int, Bool.false_or]
  | .constant _ => rfl
  | .string _ => rfl
  | .array items => by
      rw [canonicalTree, finite, succeeds_map, canonicalItems_succeeds items]
  | .object members => by
      rw [canonicalTree, finite, succeeds_map, canonicalMembers_succeeds members]

theorem canonicalItems_succeeds : ∀ items : List Tree,
    succeeds (canonicalItems interpreter items) = finiteItems interpreter items
  | [] => rfl
  | item :: items => by
      rw [canonicalItems, finiteItems, succeeds_both, canonicalTree_succeeds item,
        canonicalItems_succeeds items]

theorem canonicalMembers_succeeds : ∀ members : List (Bytes × Tree),
    succeeds (canonicalMembers interpreter members) = finiteMembers interpreter members
  | [] => rfl
  | (name, value) :: members => by
      rw [canonicalMembers, finiteMembers, succeeds_both, canonicalTree_succeeds value,
        canonicalMembers_succeeds members]
end

/-- A body is canonicalized exactly when it is sealable. -/
theorem canonicalBody_ok_iff {value : List (Bytes × Tree)} :
    (∃ text, canonicalBody interpreter value = .ok text) ↔ Sealable interpreter value := by
  rw [← succeeds_iff]
  unfold canonicalBody Sealable
  split_ifs with shallow
  · rw [canonicalTree_succeeds]
    exact ⟨fun whole => ⟨whole, shallow⟩, And.left⟩
  · exact ⟨nofun, fun sealable => absurd sealable.2 shallow⟩

/-! ## Metadata -/

/-- A `google.protobuf.Value`. -/
inductive StructValue where
  | null
  | number (v : Binary64)
  | string (s : String)
  | bool (b : Bool)
  | struct (fields : List (String × StructValue))
  | list (values : List StructValue)

/-- A float that is an integer within the range of integer tokens. -/
def integerOf (v : Binary64) : Option Int :=
  if v.Finite ∧ v.value.den = 1 ∧ v.value.num.natAbs ≤ 2 ^ 53 - 1 then some v.value.num else none

mutual
/-- `_value_to_py(v)` -/
def valueToPy : StructValue → Value
  | .null => .null
  | .number v => (integerOf v).elim (.float v) .int
  | .string s => .str s
  | .bool b => .bool b
  | .struct fields => .dict (structToDict fields)
  | .list values => .list (valuesToPy values)

/-- `struct_to_dict(struct)` -/
def structToDict : List (String × StructValue) → List (String × Value)
  | [] => []
  | (key, value) :: fields => (key, valueToPy value) :: structToDict fields

def valuesToPy : List StructValue → List Value
  | [] => []
  | value :: values => valueToPy value :: valuesToPy values
end

/-- `metadata_from_message(msg)`; metadata that is absent is `none`. -/
def metadataFromMessage (metadataContext : Option (List (String × StructValue))) :
    Option Authority.Members :=
  metadataContext.map structToDict

end Gateway
end CapsuleEmit
