import CapsuleEmit.Foundation.Json
import Mathlib.Data.Rat.Defs

namespace CapsuleEmit
namespace Python

/-!
# Python values

The values a JSON document becomes in Python, with the operations the
development's Python code applies to them: truth, equality, `get` and
iteration.  Equality compares numbers by value, so `1`, `1.0` and `True` are
equal, and dictionaries without regard to the order of their members.  An
operation on a value of another type raises, with the text Python gives.
-/

/-- A value.  A float is finite and given by its value. -/
inductive Value where
  | none
  | bool (b : Bool)
  | int (n : Int)
  | float (q : Rat)
  | str (s : String)
  | list (items : List Value)
  | dict (members : List (String × Value))

namespace Value

/-- The name of the type of a value. -/
def typeName : Value → String
  | .none => "NoneType"
  | .bool _ => "bool"
  | .int _ => "int"
  | .float _ => "float"
  | .str _ => "str"
  | .list _ => "list"
  | .dict _ => "dict"

/-- Whether a value counts as true. -/
def truthy : Value → Bool
  | .none => false
  | .bool b => b
  | .int n => n ≠ 0
  | .float q => q ≠ 0
  | .str s => s ≠ ""
  | .list items => !items.isEmpty
  | .dict members => !members.isEmpty

/-- `value or {}`. -/
def orEmpty (value : Value) : Value := if value.truthy then value else .dict []

/-- The number a value counts as. -/
def number? : Value → Option Rat
  | .bool b => some (if b then 1 else 0)
  | .int n => some n
  | .float q => some q
  | _ => Option.none

/-- The member with a key. -/
def lookup {α : Type} (key : String) (members : List (String × α)) : Option α :=
  (members.find? (fun member => member.1 = key)).map Prod.snd

mutual
/-- `left == right`. -/
def eq : Value → Value → Bool
  | .none, .none => true
  | .str a, .str b => a = b
  | .list xs, .list ys => eqItems xs ys
  | .dict xs, .dict ys => xs.length = ys.length && eqMembers xs ys
  | .bool a, y => y.number? = some (if a then 1 else 0)
  | .int n, y => y.number? = some (n : Rat)
  | .float q, y => y.number? = some q
  | _, _ => false

def eqItems : List Value → List Value → Bool
  | [], [] => true
  | x :: xs, y :: ys => eq x y && eqItems xs ys
  | _, _ => false

def eqMembers : List (String × Value) → List (String × Value) → Bool
  | [], _ => true
  | (key, x) :: xs, ys =>
      (match lookup key ys with
        | some y => eq x y
        | Option.none => false) && eqMembers xs ys
end

/-- The members of a dictionary; another value has no such method. -/
def members (method : String) : Value → Except String (List (String × Value))
  | .dict members => .ok members
  | other => .error ("'" ++ other.typeName ++ "' object has no attribute '" ++ method ++ "'")

/-- `value.get(key)`. -/
def get (key : String) (value : Value) : Except String Value := do
  let members ← value.members "get"
  .ok ((lookup key members).getD .none)

/-- `list(value)`. -/
def toList : Value → Except String (List Value)
  | .list items => .ok items
  | .str s => .ok (s.toList.map (fun c => .str (String.ofList [c])))
  | .dict members => .ok (members.map (fun member => .str member.1))
  | other => .error ("'" ++ other.typeName ++ "' object is not iterable")

end Value

end Python
end CapsuleEmit
