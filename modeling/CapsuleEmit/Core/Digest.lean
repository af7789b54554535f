import CapsuleEmit.Core.Serializers
import CapsuleEmit.Foundation.Outcome
import CapsuleEmit.Foundation.Walk
import Mathlib.Algebra.Order.Group.Nat

namespace CapsuleEmit
namespace Core

open Walk (Shape Reaches)

/-!
# The digest of a payload

A payload is digested over its RFC 8785 text.  The package that writes this text
refuses a tuple and a set with a `TypeError`, and such a payload is then digested
over what `json.dumps` prints, once two walks have found neither a float nor a
name that is not a string in it.

That is to refuse every float and every such name, wherever it is, and it does.
It is also to give a tuple the digest of the list, and that it does only where
both serializers print the same.
-/

/-! ## Values -/

/-- A Python value; containers have an identity. -/
inductive Value where
  | none
  | bool (b : Bool)
  | int (n : Int)
  | float
  | complex
  | str (text : Str)
  | list (id : Nat) (items : List Value)
  | tuple (id : Nat) (items : List Value)
  | set (id : Nat) (items : List Value)
  | frozenset (id : Nat) (items : List Value)
  | dict (id : Nat) (members : List (Value × Value))

namespace Value

/-- What a container holds, the keys of a dictionary included. -/
def parts : Value → List Value
  | .list _ items => items
  | .tuple _ items => items
  | .set _ items => items
  | .frozenset _ items => items
  | .dict _ members => members.flatMap (fun member => [member.1, member.2])
  | _ => []

/-- `id(value)` of a container. -/
def id? : Value → Option Nat
  | .list id _ => some id
  | .tuple id _ => some id
  | .set id _ => some id
  | .frozenset id _ => some id
  | .dict id _ => some id
  | _ => Option.none

mutual
/-- How many values there are in a value, itself included. -/
def size : Value → Nat
  | .list _ items => sizeItems items + 1
  | .tuple _ items => sizeItems items + 1
  | .set _ items => sizeItems items + 1
  | .frozenset _ items => sizeItems items + 1
  | .dict _ members => sizeMembers members + 1
  | _ => 1

def sizeItems : List Value → Nat
  | [] => 0
  | item :: items => size item + sizeItems items

def sizeMembers : List (Value × Value) → Nat
  | [] => 0
  | (key, value) :: members => size key + size value + sizeMembers members
end

theorem sum_size (items : List Value) : (items.map size).sum = sizeItems items := by
  induction items with
  | nil => rfl
  | cons item items ih => rw [List.map_cons, List.sum_cons, sizeItems, ih]

theorem sum_sizeMembers (members : List (Value × Value)) :
    ((members.flatMap (fun member => [member.1, member.2])).map size).sum =
      sizeMembers members := by
  induction members with
  | nil => rfl
  | cons member members ih =>
      rw [List.flatMap_cons, List.map_append, List.sum_append, ih]
      simp [sizeMembers]

theorem sum_parts (value : Value) : (value.parts.map size).sum < value.size := by
  cases value with
  | list _ items => exact Nat.lt_succ_of_le (sum_size items).le
  | tuple _ items => exact Nat.lt_succ_of_le (sum_size items).le
  | set _ items => exact Nat.lt_succ_of_le (sum_size items).le
  | frozenset _ items => exact Nat.lt_succ_of_le (sum_size items).le
  | dict _ members => exact Nat.lt_succ_of_le (sum_sizeMembers members).le
  | _ => exact Nat.one_pos

def isFloat : Value → Bool
  | .float => true
  | .complex => true
  | _ => false

def isStr : Value → Bool
  | .str _ => true
  | _ => false

/-- A dictionary with a key that is not a string. -/
def hasNonStringKey : Value → Bool
  | .dict _ members => members.any (fun member => !member.1.isStr)
  | _ => false

/-! ## The walks -/

/-- The walk of `deep_float_path`. -/
def floats : Shape Value where
  children := parts
  key := id?
  hit := isFloat
  size := size
  smaller := sum_parts

/-- What `non_string_key_error` goes into. -/
def inside : Value → List Value
  | .list _ items => items
  | .tuple _ items => items
  | .dict _ members => members.map Prod.snd
  | _ => []

theorem inside_sublist (value : Value) : value.inside.Sublist value.parts := by
  cases value with
  | list _ items => exact List.Sublist.refl items
  | tuple _ items => exact List.Sublist.refl items
  | dict _ members =>
      change (members.map Prod.snd).Sublist (members.flatMap (fun member => [member.1, member.2]))
      induction members with
      | nil => exact List.Sublist.slnil
      | cons member members ih => exact List.Sublist.cons _ (List.Sublist.cons_cons _ ih)
  | _ => exact List.nil_sublist _

theorem sum_inside (value : Value) : (value.inside.map size).sum < value.size :=
  ((value.inside_sublist.map size).sum_le_sum (fun _ _ => Nat.zero_le _)).trans_lt value.sum_parts

/-- `id(value)` of what `non_string_key_error` remembers. -/
def keyed : Value → Option Nat
  | .list id _ => some id
  | .tuple id _ => some id
  | .dict id _ => some id
  | _ => Option.none

/-- The walk of `non_string_key_error`. -/
def nonStringKeys : Shape Value where
  children := inside
  key := keyed
  hit := hasNonStringKey
  size := size
  smaller := sum_inside

/-- A value is in another, at any depth. -/
def Within (value part : Value) : Prop := Reaches floats value part

mutual
/-- What both serializers print for a value: a set is the text of `str`.  A float
and a key that is not a string are refused before anything is printed. -/
def tree (str : Value → Str) : Value → Option Tree
  | .none => some .null
  | .bool b => some (.bool b)
  | .int n => some (.int n)
  | .float => Option.none
  | .complex => Option.none
  | .str text => some (.string text)
  | .list _ items => (treeItems str items).map .array
  | .tuple _ items => (treeItems str items).map .array
  | .set id items => some (.string (str (.set id items)))
  | .frozenset id items => some (.string (str (.frozenset id items)))
  | .dict _ members => (treeMembers str members).map .object

def treeItems (str : Value → Str) : List Value → Option (List Tree)
  | [] => some []
  | item :: items => do
      let first ← tree str item
      let rest ← treeItems str items
      return first :: rest

def treeMembers (str : Value → Str) : List (Value × Value) → Option (List (Str × Tree))
  | [] => some []
  | (.str name, value) :: members => do
      let first ← tree str value
      let rest ← treeMembers str members
      return (name, first) :: rest
  | _ :: _ => Option.none
end

mutual
/-- How many containers are around the deepest value. -/
def nesting : Value → Nat
  | .list _ items => nestingItems items + 1
  | .tuple _ items => nestingItems items + 1
  | .dict _ members => nestingMembers members + 1
  | _ => 0

def nestingItems : List Value → Nat
  | [] => 0
  | item :: items => max (nesting item) (nestingItems items)

def nestingMembers : List (Value × Value) → Nat
  | [] => 0
  | (_, value) :: members => max (nesting value) (nestingMembers members)
end

end Value

/-! ## The digest -/

inductive Raised where
  | attributeError
  | floatInDigestError
  | nonStringKeyError
  | recursionError
  | typeError
  | other
  deriving DecidableEq

/-- What the digest is taken with: `jcs(normalize(value))` of the package, SHA-256,
`str` of a set, and how many levels `json.dumps` follows. -/
structure Packages where
  canonical : Value → Except Raised Bytes
  sha256 : Bytes → Bytes
  str : Value → Str
  dumpsLevels : Nat

variable (packages : Packages)

/-- What the salt adds to a text. -/
def saltSuffix : Option Bytes → Bytes
  | none => []
  | some salt => 124 :: salt

/-- `json.dumps(value, sort_keys=True, separators=(",", ":"), default=str)`.  That
an `int` of very many digits is refused is left out. -/
def legacyText (value : Value) : Except Raised Bytes :=
  if value.nesting ≤ packages.dumpsLevels then
    match value.tree packages.str with
    | some tree => .ok (dumps tree)
    | none => .error .typeError
  else .error .recursionError

/-- `_digest(value, salt)`.  There is no Pydantic model among the values, so
`plain_json` gives the value back and this is `_digest_plain`. -/
def digest (value : Value) (salt : Option Bytes) : Except Raised Bytes :=
  match packages.canonical value with
  | .ok bytes => .ok (packages.sha256 (bytes ++ saltSuffix salt))
  | .error .attributeError =>
      if (Walk.find Value.nonStringKeys value).isSome then .error .nonStringKeyError
      else .error .attributeError
  | .error .typeError =>
      if (Walk.find Value.floats value).isSome then .error .floatInDigestError
      else if (Walk.find Value.nonStringKeys value).isSome then .error .nonStringKeyError
      else (legacyText packages value).map
        (fun raw => packages.sha256 (raw ++ saltSuffix salt))
  | .error raised => .error raised

/-! ## What it is to do -/

namespace Value

mutual
/-- What can be a key of a dictionary and an item of a set. -/
def hashable : Value → Bool
  | .list _ _ => false
  | .set _ _ => false
  | .dict _ _ => false
  | .tuple _ items => hashableItems items
  | .frozenset _ items => hashableItems items
  | _ => true

def hashableItems : List Value → Bool
  | [] => true
  | item :: items => hashable item && hashableItems items
end

/-- Items of sets and keys of dictionaries are hashable. -/
def Formed : Value → Prop
  | .set _ items => ∀ item ∈ items, item.hashable = true
  | .frozenset _ items => ∀ item ∈ items, item.hashable = true
  | .dict _ members => ∀ member ∈ members, member.1.hashable = true
  | _ => True

/-- A code point that is no surrogate. -/
def isScalar (c : Nat) : Bool := c < 0xD800 || (0xDFFF < c && c < 0x110000)

mutual
/-- No set and no float, only string keys, valid strings and safe integers. -/
def plain : Value → Bool
  | .none => true
  | .bool _ => true
  | .int n => n.natAbs < 2 ^ 53
  | .float => false
  | .complex => false
  | .str text => text.all isScalar
  | .list _ items => plainItems items
  | .tuple _ items => plainItems items
  | .set _ _ => false
  | .frozenset _ _ => false
  | .dict _ members => plainMembers members

def plainItems : List Value → Bool
  | [] => true
  | item :: items => plain item && plainItems items

def plainMembers : List (Value × Value) → Bool
  | [] => true
  | (key, value) :: members => key.isStr && plain key && plain value && plainMembers members
end

mutual
/-- The same value with every tuple replaced by a list. -/
def listed : Value → Value
  | .list id items => .list id (listedItems items)
  | .tuple id items => .list id (listedItems items)
  | .dict id members => .dict id (listedMembers members)
  | .none => .none
  | .bool b => .bool b
  | .int n => .int n
  | .float => .float
  | .complex => .complex
  | .str text => .str text
  | .set id items => .set id items
  | .frozenset id items => .frozenset id items

def listedItems : List Value → List Value
  | [] => []
  | item :: items => listed item :: listedItems items

def listedMembers : List (Value × Value) → List (Value × Value)
  | [] => []
  | (key, value) :: members => (key, listed value) :: listedMembers members
end

mutual
/-- No tuple is in a value, outside of sets and keys. -/
def native : Value → Bool
  | .list _ items => nativeItems items
  | .tuple _ _ => false
  | .dict _ members => nativeMembers members
  | _ => true

def nativeItems : List Value → Bool
  | [] => true
  | item :: items => native item && nativeItems items

def nativeMembers : List (Value × Value) → Bool
  | [] => true
  | (_, value) :: members => native value && nativeMembers members
end

mutual
/-- Every string and every key that is one has only code points below U+007F. -/
def low : Value → Bool
  | .str text => Core.low text
  | .list _ items => lowItems items
  | .tuple _ items => lowItems items
  | .dict _ members => lowMembers members
  | _ => true

def lowItems : List Value → Bool
  | [] => true
  | item :: items => low item && lowItems items

def lowMembers : List (Value × Value) → Bool
  | [] => true
  | (key, value) :: members => low key && low value && lowMembers members
end

end Value

/-- A value as Python can hold it: different containers have different
identities, and what must be hashable is. -/
structure Payload where
  value : Value
  coherent : Walk.Coherent Value.floats value
  formed : ∀ part, value.Within part → part.Formed

/-- What is relied on of the package: it writes RFC 8785 of JSON values, refuses
tuples with a `TypeError`, and writes nothing of a value with a float or a key
that is not a string. -/
structure Documented : Prop where
  json : ∀ value tree, value.plain = true → value.native = true →
    value.tree packages.str = some tree → packages.canonical value = .ok (jcs tree)
  foreign : ∀ value, value.plain = true → value.native = false →
    packages.canonical value = .error .typeError
  refuses : ∀ value part, value.Within part → (part.isFloat || part.hasNonStringKey) = true →
    ∀ bytes, packages.canonical value ≠ .ok bytes

/-- Floats and keys that are not strings are refused wherever they are, and a
tuple is digested as a list. -/
structure Faithful (payload : Payload) (salt : Option Bytes) : Prop where
  refused : ∀ part, payload.value.Within part → (part.isFloat || part.hasNonStringKey) = true →
    ∃ raised, digest packages payload.value salt = .error raised
  asList : payload.value.plain = true → ∃ d, digest packages payload.value salt = .ok d ∧
    digest packages payload.value.listed salt = .ok d

/-! ## The guard -/

namespace Value

theorem hashable_parts {value part : Value} (hashable : value.hashable = true)
    (inside : part ∈ value.parts) : part.hashable = true := by
  have items : ∀ {items : List Value}, hashableItems items = true →
      ∀ item ∈ items, item.hashable = true := by
    intro items
    induction items with
    | nil => exact fun _ _ inside => absurd inside List.not_mem_nil
    | cons item items ih =>
        intro all
        rw [hashableItems, Bool.and_eq_true] at all
        exact List.forall_mem_cons.mpr ⟨all.1, ih all.2⟩
  cases value with
  | list _ _ => cases hashable
  | set _ _ => cases hashable
  | dict _ _ => cases hashable
  | tuple _ _ => exact items hashable part inside
  | frozenset _ _ => exact items hashable part inside
  | _ => cases inside

/-- There is no dictionary in what is hashable. -/
theorem hashable_within {value part : Value} (hashable : value.hashable = true)
    (within : value.Within part) : part.hasNonStringKey = false := by
  have inner : part.hashable = true := by
    induction within with
    | refl => exact hashable
    | tail _ inside ih => exact hashable_parts ih inside
  cases part with
  | dict _ _ => cases inner
  | _ => rfl

/-- A dictionary with a key that is not a string is found outside sets and keys,
when there is one anywhere. -/
theorem reaches_of_within {value part : Value} (formed : ∀ part, value.Within part → part.Formed)
    (within : value.Within part) (found : part.hasNonStringKey = true) :
    ∃ dict, Reaches nonStringKeys value dict ∧ dict.hasNonStringKey = true := by
  induction within using Relation.ReflTransGen.head_induction_on with
  | refl => exact ⟨part, Relation.ReflTransGen.refl, found⟩
  | head below rest ih =>
      next outer inner =>
      have further : inner ∈ outer.inside → ∃ dict, Reaches nonStringKeys outer dict ∧
          dict.hasNonStringKey = true := by
        intro there
        rcases ih (fun part within => formed part (Relation.ReflTransGen.head below within))
          with ⟨dict, reached, hit⟩
        exact ⟨dict, Relation.ReflTransGen.head there reached, hit⟩
      have here := formed outer Relation.ReflTransGen.refl
      have apart : inner.hashable = true → False := by
        intro hashable
        rw [hashable_within hashable rest] at found
        cases found
      cases outer with
      | list _ _ => exact further below
      | tuple _ _ => exact further below
      | set _ _ => exact (apart (here inner below)).elim
      | frozenset _ _ => exact (apart (here inner below)).elim
      | dict _ members =>
          rcases List.mem_flatMap.mp below with ⟨member, inside, either⟩
          rcases List.mem_cons.mp either with rfl | either
          · exact (apart (here member inside)).elim
          · rcases List.mem_singleton.mp either with rfl
            exact further (List.mem_map.mpr ⟨member, inside, rfl⟩)
      | _ => cases below

theorem within_of_reaches {value part : Value} (reached : Reaches nonStringKeys value part) :
    value.Within part := by
  induction reached with
  | refl => exact Relation.ReflTransGen.refl
  | tail _ inside ih => exact Relation.ReflTransGen.tail ih ((inside_sublist _).subset inside)

theorem keyed_eq {value : Value} {id : Nat} (same : value.keyed = some id) :
    value.id? = some id := by
  cases value with
  | list _ _ => exact same
  | tuple _ _ => exact same
  | dict _ _ => exact same
  | _ => cases same

end Value

/-- Each walk finds what it looks for when it is anywhere in the value. -/
theorem guards_iff (payload : Payload) :
    ((Walk.find Value.floats payload.value).isSome = true ↔
      ∃ part, payload.value.Within part ∧ part.isFloat = true) ∧
    ((Walk.find Value.nonStringKeys payload.value).isSome = true ↔
      ∃ part, payload.value.Within part ∧ part.hasNonStringKey = true) := by
  refine ⟨Walk.find_isSome_iff payload.coherent, ?_⟩
  have coherent : Walk.Coherent Value.nonStringKeys payload.value := by
    intro a b k first second keyA keyB
    exact payload.coherent a b k (Value.within_of_reaches first) (Value.within_of_reaches second)
      (Value.keyed_eq keyA) (Value.keyed_eq keyB)
  rw [Walk.find_isSome_iff coherent]
  constructor
  · rintro ⟨part, reached, hit⟩
    exact ⟨part, Value.within_of_reaches reached, hit⟩
  · rintro ⟨part, within, hit⟩
    exact Value.reaches_of_within payload.formed within hit

variable {packages}

/-- A float or a key that is not a string is refused. -/
theorem digest_refused (documented : Documented packages) (payload : Payload) (salt : Option Bytes)
    {part : Value} (within : payload.value.Within part)
    (wrong : (part.isFloat || part.hasNonStringKey) = true) :
    ∃ raised, digest packages payload.value salt = .error raised := by
  rcases guards_iff payload with ⟨floats, keys⟩
  unfold digest
  cases canonical : packages.canonical payload.value with
  | ok bytes => exact (documented.refuses _ part within wrong bytes canonical).elim
  | error raised =>
      cases raised with
      | attributeError =>
          dsimp only
          split_ifs
          · exact ⟨_, rfl⟩
          · exact ⟨_, rfl⟩
      | typeError =>
          dsimp only
          split_ifs with float key
          · exact ⟨_, rfl⟩
          · exact ⟨_, rfl⟩
          · rcases Bool.or_eq_true_iff.mp wrong with isFloat | nonString
            · exact (float (floats.mpr ⟨part, within, isFloat⟩)).elim
            · exact (key (keys.mpr ⟨part, within, nonString⟩)).elim
      | _ => exact ⟨_, rfl⟩

end Core
end CapsuleEmit
