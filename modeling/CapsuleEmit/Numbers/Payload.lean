import CapsuleEmit.Numbers.FloatText
import CapsuleEmit.Foundation.Outcome

namespace CapsuleEmit
namespace Numbers

/-!
# Floats in a payload

Before a payload reaches a digest each of its floats is replaced by the string a
script engine prints.  The result has the same objects and arrays, and the step
does nothing to it a second time.
-/

open Decimal

/-- A payload as a tool returns it. -/
inductive Value where
  | null
  | bool (b : Bool)
  | int (n : Int)
  | float (v : Binary64)
  | str (s : String)
  | list (items : List Value)
  | tuple (items : List Value)
  | dict (members : List (String × Value))

section

variable (quote : String → String)

mutual
/-- `canonicalize_for_digest(value, field=field)` -/
def canonicalizeForDigest (field : String) : Value → Except ConversionError Value
  | .bool b => .ok (.bool b)
  | .float v => (floatToStr quote field v).map (fun text => .str (String.ofList text))
  | .dict members => (canonicalizeMembers field members).map .dict
  | .list items => (canonicalizeItems field 0 items).map .list
  | .tuple items => (canonicalizeItems field 0 items).map .list
  | .null => .ok .null
  | .int n => .ok (.int n)
  | .str s => .ok (.str s)

def canonicalizeItems (field : String) (index : Nat) :
    List Value → Except ConversionError (List Value)
  | [] => .ok []
  | item :: items => do
      let first ← canonicalizeForDigest (field ++ "[" ++ toString index ++ "]") item
      let rest ← canonicalizeItems field (index + 1) items
      return first :: rest

def canonicalizeMembers (field : String) :
    List (String × Value) → Except ConversionError (List (String × Value))
  | [] => .ok []
  | (key, item) :: members => do
      let first ← canonicalizeForDigest (if field = "" then key else field ++ "." ++ key) item
      let rest ← canonicalizeMembers field members
      return (key, first) :: rest
end

end

/-! ## Payloads and their digests' payloads -/

mutual
/-- No float of the payload is infinite or not a number. -/
def Value.Finite : Value → Prop
  | .float v => v.Finite
  | .list items => FiniteItems items
  | .tuple items => FiniteItems items
  | .dict members => FiniteMembers members
  | _ => True

def FiniteItems : List Value → Prop
  | [] => True
  | item :: items => item.Finite ∧ FiniteItems items

def FiniteMembers : List (String × Value) → Prop
  | [] => True
  | (_, item) :: members => item.Finite ∧ FiniteMembers members
end

mutual
/-- A JSON value with no float in it. -/
def Value.Plain : Value → Prop
  | .float _ => False
  | .tuple _ => False
  | .list items => PlainItems items
  | .dict members => PlainMembers members
  | _ => True

def PlainItems : List Value → Prop
  | [] => True
  | item :: items => item.Plain ∧ PlainItems items

def PlainMembers : List (String × Value) → Prop
  | [] => True
  | (_, item) :: members => item.Plain ∧ PlainMembers members
end

mutual
/-- The same objects and arrays, with a float's text in place of each float. -/
inductive SameShape : Value → Value → Prop where
  | null : SameShape .null .null
  | bool (b : Bool) : SameShape (.bool b) (.bool b)
  | int (n : Int) : SameShape (.int n) (.int n)
  | str (s : String) : SameShape (.str s) (.str s)
  | float (v : Binary64) : SameShape (.float v) (.str (String.ofList (numberToString v)))
  | list {items texts : List Value} : SameItems items texts → SameShape (.list items) (.list texts)
  | tuple {items texts : List Value} :
      SameItems items texts → SameShape (.tuple items) (.list texts)
  | dict {members texts : List (String × Value)} :
      SameMembers members texts → SameShape (.dict members) (.dict texts)

inductive SameItems : List Value → List Value → Prop where
  | nil : SameItems [] []
  | cons {item text : Value} {items texts : List Value} : SameShape item text →
      SameItems items texts → SameItems (item :: items) (text :: texts)

inductive SameMembers : List (String × Value) → List (String × Value) → Prop where
  | nil : SameMembers [] []
  | cons (key : String) {item text : Value} {members texts : List (String × Value)} :
      SameShape item text → SameMembers members texts →
        SameMembers ((key, item) :: members) ((key, text) :: texts)
end

variable {quote : String → String}

mutual
theorem canonicalizeForDigest_finite : ∀ (field : String) {value : Value}, value.Finite →
    ∃ text, canonicalizeForDigest quote field value = .ok text ∧ SameShape value text ∧
      text.Plain
  | _, .null, _ => ⟨.null, rfl, .null, trivial⟩
  | _, .bool b, _ => ⟨.bool b, rfl, .bool b, trivial⟩
  | _, .int n, _ => ⟨.int n, rfl, .int n, trivial⟩
  | _, .str s, _ => ⟨.str s, rfl, .str s, trivial⟩
  | field, .float v, finite => by
      refine ⟨_, ?_, .float v, trivial⟩
      rw [canonicalizeForDigest, floatToStr_finite quote field finite]
      rfl
  | field, .list items, finite => by
      rcases canonicalizeItems_finite field 0 finite with ⟨texts, done, same, plain⟩
      refine ⟨.list texts, ?_, .list same, plain⟩
      rw [canonicalizeForDigest, done]
      rfl
  | field, .tuple items, finite => by
      rcases canonicalizeItems_finite field 0 finite with ⟨texts, done, same, plain⟩
      refine ⟨.list texts, ?_, .tuple same, plain⟩
      rw [canonicalizeForDigest, done]
      rfl
  | field, .dict members, finite => by
      rcases canonicalizeMembers_finite field finite with ⟨texts, done, same, plain⟩
      refine ⟨.dict texts, ?_, .dict same, plain⟩
      rw [canonicalizeForDigest, done]
      rfl

theorem canonicalizeItems_finite : ∀ (field : String) (index : Nat) {items : List Value},
    FiniteItems items → ∃ texts, canonicalizeItems quote field index items = .ok texts ∧
      SameItems items texts ∧ PlainItems texts
  | _, _, [], _ => ⟨[], rfl, .nil, trivial⟩
  | field, index, item :: items, finite => by
      rcases canonicalizeForDigest_finite (field ++ "[" ++ toString index ++ "]") finite.1 with
        ⟨text, done, same, plain⟩
      rcases canonicalizeItems_finite field (index + 1) finite.2 with
        ⟨texts, rest, sameRest, plainRest⟩
      refine ⟨text :: texts, ?_, .cons same sameRest, plain, plainRest⟩
      rw [canonicalizeItems, done, ok_bind, rest]
      rfl

theorem canonicalizeMembers_finite : ∀ (field : String) {members : List (String × Value)},
    FiniteMembers members → ∃ texts, canonicalizeMembers quote field members = .ok texts ∧
      SameMembers members texts ∧ PlainMembers texts
  | _, [], _ => ⟨[], rfl, .nil, trivial⟩
  | field, (key, item) :: members, finite => by
      rcases canonicalizeForDigest_finite (if field = "" then key else field ++ "." ++ key)
        finite.1 with ⟨text, done, same, plain⟩
      rcases canonicalizeMembers_finite field finite.2 with ⟨texts, rest, sameRest, plainRest⟩
      refine ⟨(key, text) :: texts, ?_, .cons key same sameRest, plain, plainRest⟩
      rw [canonicalizeMembers, done, ok_bind, rest]
      rfl
end

mutual
/-- A JSON value without floats is left as it is. -/
theorem canonicalizeForDigest_plain : ∀ (field : String) {value : Value}, value.Plain →
    canonicalizeForDigest quote field value = .ok value
  | _, .null, _ => rfl
  | _, .bool _, _ => rfl
  | _, .int _, _ => rfl
  | _, .str _, _ => rfl
  | field, .list items, plain => by
      rw [canonicalizeForDigest, canonicalizeItems_plain field 0 plain]
      rfl
  | field, .dict members, plain => by
      rw [canonicalizeForDigest, canonicalizeMembers_plain field plain]
      rfl

theorem canonicalizeItems_plain : ∀ (field : String) (index : Nat) {items : List Value},
    PlainItems items → canonicalizeItems quote field index items = .ok items
  | _, _, [], _ => rfl
  | field, index, item :: items, plain => by
      rw [canonicalizeItems, canonicalizeForDigest_plain _ plain.1, ok_bind,
        canonicalizeItems_plain field (index + 1) plain.2]
      rfl

theorem canonicalizeMembers_plain : ∀ (field : String) {members : List (String × Value)},
    PlainMembers members → canonicalizeMembers quote field members = .ok members
  | _, [], _ => rfl
  | field, (key, item) :: members, plain => by
      rw [canonicalizeMembers, canonicalizeForDigest_plain _ plain.1, ok_bind,
        canonicalizeMembers_plain field plain.2]
      rfl
end

mutual
theorem finite_of_canonicalizeForDigest : ∀ (field : String) {value text : Value},
    canonicalizeForDigest quote field value = .ok text → value.Finite
  | _, .null, _, _ => trivial
  | _, .bool _, _, _ => trivial
  | _, .int _, _, _ => trivial
  | _, .str _, _, _ => trivial
  | _, .float (.zero _), _, _ => trivial
  | _, .float (.nonzero _ _ _), _, _ => trivial
  | _, .float .nan, _, done => by cases done
  | _, .float (.infinite _), _, done => by cases done
  | field, .list items, _, done => by
      rw [canonicalizeForDigest] at done
      rcases map_eq_ok_iff.mp done with ⟨texts, inner, -⟩
      exact finite_of_canonicalizeItems field 0 inner
  | field, .tuple items, _, done => by
      rw [canonicalizeForDigest] at done
      rcases map_eq_ok_iff.mp done with ⟨texts, inner, -⟩
      exact finite_of_canonicalizeItems field 0 inner
  | field, .dict members, _, done => by
      rw [canonicalizeForDigest] at done
      rcases map_eq_ok_iff.mp done with ⟨texts, inner, -⟩
      exact finite_of_canonicalizeMembers field inner

theorem finite_of_canonicalizeItems : ∀ (field : String) (index : Nat) {items texts : List Value},
    canonicalizeItems quote field index items = .ok texts → FiniteItems items
  | _, _, [], _, _ => trivial
  | field, index, item :: items, _, done => by
      rw [canonicalizeItems] at done
      rcases bind_eq_ok_iff.mp done with ⟨text, first, done⟩
      rcases bind_eq_ok_iff.mp done with ⟨texts, rest, -⟩
      exact ⟨finite_of_canonicalizeForDigest _ first,
        finite_of_canonicalizeItems field (index + 1) rest⟩

theorem finite_of_canonicalizeMembers : ∀ (field : String)
    {members texts : List (String × Value)},
    canonicalizeMembers quote field members = .ok texts → FiniteMembers members
  | _, [], _, _ => trivial
  | field, (key, item) :: members, _, done => by
      rw [canonicalizeMembers] at done
      rcases bind_eq_ok_iff.mp done with ⟨text, first, done⟩
      rcases bind_eq_ok_iff.mp done with ⟨texts, rest, -⟩
      exact ⟨finite_of_canonicalizeForDigest _ first, finite_of_canonicalizeMembers field rest⟩
end

/-! ## Main results -/

/-- A finite float has the text a script engine prints, which denotes it; a payload is
converted when all its floats are finite, into one that is converted into itself. -/
theorem float_text_canonical (quote : String → String) :
    (∀ (field : String) (v : Binary64), v.Finite →
      floatToStr quote field v = .ok (numberToString v) ∧
        Decimal.read (numberToString v) = some v.value) ∧
    (∀ (field : String) (value : Value), value.Finite ↔
      ∃ text, canonicalizeForDigest quote field value = .ok text) ∧
    ∀ (field : String) (value text : Value),
      canonicalizeForDigest quote field value = .ok text → SameShape value text ∧ text.Plain ∧
        ∀ other, canonicalizeForDigest quote other text = .ok text := by
  refine ⟨fun field v finite => ⟨floatToStr_finite quote field finite,
    read_numberToString finite⟩, fun field value => ⟨?_, ?_⟩, ?_⟩
  · intro finite
    rcases @canonicalizeForDigest_finite quote field _ finite with ⟨text, done, -⟩
    exact ⟨text, done⟩
  · rintro ⟨text, done⟩
    exact finite_of_canonicalizeForDigest field done
  · intro field value text done
    rcases @canonicalizeForDigest_finite quote field _
      (finite_of_canonicalizeForDigest field done) with ⟨other, again, same, plain⟩
    rw [done] at again
    cases again
    exact ⟨same, plain, fun field => canonicalizeForDigest_plain field plain⟩

/-- The digits of one and a half, and of seven. -/
def fifteen : Digits := ⟨['1', '5'], by decide, by decide, by decide, by decide⟩

def seven : Digits := ⟨['7'], by decide, by decide, by decide, by decide⟩

/-- A payload with floats on both sides of the thresholds. -/
def rates : Value :=
  .dict [("rates", .list [.float (.nonzero false fifteen 21), .float (.nonzero true fifteen 22),
    .float (.nonzero false seven (-5)), .float (.nonzero false seven (-6))]), ("n", .int 1)]

theorem rates_text : (floatToStr id "" (.nonzero true fifteen 22) =
      .ok ['-', '1', '.', '5', 'e', '+', '2', '1'] ∧
    Decimal.read ['-', '1', '.', '5', 'e', '+', '2', '1'] =
      some (Binary64.nonzero true fifteen 22).value) ∧
    ∃ text, canonicalizeForDigest id "" rates = .ok text ∧ text.Plain := by
  have finite : rates.Finite := ⟨⟨trivial, trivial, trivial, trivial, trivial⟩, trivial, trivial⟩
  rcases ((float_text_canonical id).2.1 "" rates).mp finite with ⟨text, done⟩
  exact ⟨(float_text_canonical id).1 "" (.nonzero true fifteen 22) trivial, text, done,
    ((float_text_canonical id).2.2 "" rates text done).2.1⟩

end Numbers
end CapsuleEmit
