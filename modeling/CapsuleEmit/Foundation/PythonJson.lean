import CapsuleEmit.Foundation.Outcome
import CapsuleEmit.Foundation.Python
import CapsuleEmit.Foundation.Sha256

namespace CapsuleEmit
namespace Python

/-!
# Reading JSON strictly in Python

`json.loads` hands every object to a hook as the list of its pairs, and every
number that JSON does not have to another.  A `Document` is what the decoder
has read before its hooks ran.  The strict decoder refuses repeated keys, the
constants and deep nesting.

Dictionaries are lists of members, with the operations that keep the rest of
a dictionary as it is.
-/

/-! ## Dictionaries -/

abbrev Dict := List (String × Value)

namespace Dict

/-- `d.get(key)`; absent and `None` are told apart. -/
def get? (key : String) (d : Dict) : Option Value := Value.lookup key d

/-- `d.pop(key, None)`, leaving the other members. -/
def without (key : String) (d : Dict) : Dict := d.filter (fun member => member.1 ≠ key)

/-- `d[key] = value`: in place, or at the end. -/
def set (key : String) (value : Value) (d : Dict) : Dict :=
  if d.any (fun member => member.1 = key) then
    d.map (fun member => if member.1 = key then (key, value) else member)
  else d ++ [(key, value)]

theorem get?_without (key other : String) (d : Dict) :
    (d.without key).get? other = if other = key then none else d.get? other := by
  induction d with
  | nil => simp [without, get?, Value.lookup]
  | cons member d ih =>
      simp only [without, get?, Value.lookup] at ih ⊢
      by_cases popped : member.1 = key
      · rw [List.filter_cons_of_neg (by simpa using popped), ih]
        by_cases same : other = key
        · rw [if_pos same, if_pos same]
        · have different : ¬ member.1 = other := fun found => same (found.symm.trans popped)
          simp [same, different]
      · rw [List.filter_cons_of_pos (by simpa using popped)]
        by_cases found : member.1 = other
        · have different : ¬ other = key := fun same => popped (found.trans same)
          simp [found, different]
        · simpa [found] using ih

theorem set_of_absent {key : String} {d : Dict} (absent : key ∉ d.map Prod.fst) (value : Value) :
    d.set key value = d ++ [(key, value)] := by
  have none : d.any (fun member => member.1 = key) = false := by
    rw [List.any_eq_false]
    intro member inside same
    exact absent (List.mem_map.mpr ⟨member, inside, by simpa using same⟩)
  simp [set, none]

end Dict

/-- A value that is a string. -/
def Value.str? : Value → Option String
  | .str s => some s
  | _ => Option.none

/-- A value that is a dictionary. -/
def Value.dict? : Value → Option Dict
  | .dict members => some members
  | _ => Option.none

/-! ## Documents -/

/-- What the decoder has read when its hooks run. -/
inductive Document where
  | none
  | bool (b : Bool)
  | int (n : Int)
  | float (q : Rat)
  | constant (name : String)
  | str (s : String)
  | list (items : List Document)
  | object (pairs : List (String × Document))

namespace Document

mutual
/-- The document of a value. -/
def ofValue : Value → Document
  | .none => .none
  | .bool b => .bool b
  | .int n => .int n
  | .float q => .float q
  | .str s => .str s
  | .list items => .list (ofItems items)
  | .dict members => .object (ofMembers members)

def ofItems : List Value → List Document
  | [] => []
  | item :: items => ofValue item :: ofItems items

def ofMembers : List (String × Value) → List (String × Document)
  | [] => []
  | (key, value) :: members => (key, ofValue value) :: ofMembers members
end

/-- `_reject_duplicates`: the dictionary of an object's pairs. -/
def rejectDuplicates (pairs : List (String × Value)) : Except String Value :=
  match (pairs.foldl (fun (seen : List String × Option String) pair =>
      if seen.1.contains pair.1 then (seen.1, some (seen.2.getD pair.1))
      else (seen.1 ++ [pair.1], seen.2)) ([], Option.none)).2 with
  | some key => .error ("duplicate object key " ++ key)
  | Option.none => .ok (.dict pairs)

mutual
/-- The value of a document under the hooks of the strict decoder. -/
def hooked : Document → Except String Value
  | .none => .ok .none
  | .bool b => .ok (.bool b)
  | .int n => .ok (.int n)
  | .float q => .ok (.float q)
  | .constant name => .error ("non-JSON constant " ++ name)
  | .str s => .ok (.str s)
  | .list items => do .ok (.list (← hookedItems items))
  | .object pairs => do rejectDuplicates (← hookedPairs pairs)

def hookedItems : List Document → Except String (List Value)
  | [] => .ok []
  | item :: items => do
      let value ← hooked item
      let values ← hookedItems items
      .ok (value :: values)

def hookedPairs : List (String × Document) → Except String (List (String × Value))
  | [] => .ok []
  | (key, document) :: pairs => do
      let value ← hooked document
      let values ← hookedPairs pairs
      .ok ((key, value) :: values)
end

theorem rejectDuplicates_eq {pairs : List (String × Value)} {value : Value}
    (kept : rejectDuplicates pairs = .ok value) : value = .dict pairs := by
  unfold rejectDuplicates at kept
  split at kept
  · cases kept
  · exact (Except.ok.inj kept).symm

mutual
/-- The hooks leave a document that came from a value as it is, or refuse it. -/
theorem hooked_ofValue : ∀ (value : Value) {read : Value},
    hooked (ofValue value) = .ok read → read = value
  | .none, _, same => (Except.ok.inj same).symm
  | .bool _, _, same => (Except.ok.inj same).symm
  | .int _, _, same => (Except.ok.inj same).symm
  | .float _, _, same => (Except.ok.inj same).symm
  | .str _, _, same => (Except.ok.inj same).symm
  | .list items, read, same => by
      rw [ofValue, hooked] at same
      obtain ⟨values, inner, same⟩ := bind_eq_ok_iff.mp same
      rw [← Except.ok.inj same, hookedItems_ofItems items inner]
  | .dict members, read, same => by
      rw [ofValue, hooked] at same
      obtain ⟨values, inner, same⟩ := bind_eq_ok_iff.mp same
      rw [rejectDuplicates_eq same, hookedPairs_ofMembers members inner]

theorem hookedItems_ofItems : ∀ (items : List Value) {read : List Value},
    hookedItems (ofItems items) = .ok read → read = items
  | [], _, same => (Except.ok.inj same).symm
  | item :: items, read, same => by
      rw [ofItems, hookedItems] at same
      obtain ⟨value, first, same⟩ := bind_eq_ok_iff.mp same
      obtain ⟨values, rest, same⟩ := bind_eq_ok_iff.mp same
      rw [← Except.ok.inj same, hooked_ofValue item first, hookedItems_ofItems items rest]

theorem hookedPairs_ofMembers : ∀ (members : List (String × Value)) {read : List (String × Value)},
    hookedPairs (ofMembers members) = .ok read → read = members
  | [], _, same => (Except.ok.inj same).symm
  | (key, value) :: members, read, same => by
      rw [ofMembers, hookedPairs] at same
      obtain ⟨first, head, same⟩ := bind_eq_ok_iff.mp same
      obtain ⟨values, rest, same⟩ := bind_eq_ok_iff.mp same
      rw [← Except.ok.inj same, hooked_ofValue value head, hookedPairs_ofMembers members rest]
end

end Document

/-! ## The strict decoder -/

mutual
/-- `_depth(value)`: a value that holds no others is one level. -/
def Value.depth : Value → Nat
  | .list items => 1 + Value.depthItems items
  | .dict members => 1 + Value.depthMembers members
  | _ => 1

def Value.depthItems : List Value → Nat
  | [] => 0
  | item :: items => max item.depth (Value.depthItems items)

def Value.depthMembers : List (String × Value) → Nat
  | [] => 0
  | (_, value) :: members => max value.depth (Value.depthMembers members)
end

def maxJsonDepth : Nat := 1000

/-- `json.dumps` without whitespace or ASCII escapes, as UTF-8, and `json.loads`
before its hooks.  Both raise. -/
structure JsonText where
  dumps : Value → Except String Bytes
  loads : String → Except String Document

/-- `loads` reads back what `dumps` wrote. -/
structure JsonText.Lawful (json : JsonText) : Prop where
  loads_dumps : ∀ {value bytes text document}, json.dumps value = .ok bytes →
    utf8? bytes = some text → json.loads text = .ok document → document = .ofValue value

/-- `decode_strict_json(data)`. -/
def decodeStrictJson (json : JsonText) (data : Bytes) : Except String Value :=
  match utf8? data with
  | none => .error "'utf-8' codec can't decode the data"
  | some text => do
      let value ← (← json.loads text).hooked
      ensure (value.depth ≤ maxJsonDepth) "JSON exceeds maximum depth"
      .ok value

theorem decodeStrictJson_dumps {json : JsonText} (lawful : json.Lawful) {value read : Value}
    {bytes : Bytes} (written : json.dumps value = .ok bytes)
    (decoded : decodeStrictJson json bytes = .ok read) : read = value := by
  unfold decodeStrictJson at decoded
  split at decoded
  · cases decoded
  · next text found =>
      obtain ⟨document, loaded, decoded⟩ := bind_eq_ok_iff.mp decoded
      obtain ⟨value', hooks, decoded⟩ := bind_eq_ok_iff.mp decoded
      obtain ⟨_, _, decoded⟩ := bind_eq_ok_iff.mp decoded
      rw [lawful.loads_dumps written found loaded] at hooks
      rw [← Except.ok.inj decoded]
      exact Document.hooked_ofValue value hooks

/-! ## Hexadecimal text -/

def hexValue? (c : Char) : Option Nat :=
  if '0' ≤ c ∧ c ≤ '9' then some (c.toNat - 48)
  else if 'a' ≤ c ∧ c ≤ 'f' then some (c.toNat - 87)
  else if 'A' ≤ c ∧ c ≤ 'F' then some (c.toNat - 55)
  else none

def isHexSpace (c : Char) : Bool :=
  c = ' ' || c = '\t' || c = '\n' || c = '\r' || c = '\x0b' || c = '\x0c'

/-- The bytes of pairs of digits, with whitespace between the pairs. -/
def fromHexChars : List Char → Option Bytes
  | [] => some []
  | [c] => if isHexSpace c then some [] else none
  | c :: d :: rest =>
      if isHexSpace c then fromHexChars (d :: rest)
      else do
        let high ← hexValue? c
        let low ← hexValue? d
        let bytes ← fromHexChars rest
        return UInt8.ofNat (high * 16 + low) :: bytes

/-- `bytes.fromhex(text)`. -/
def fromHex (text : String) : Option Bytes := fromHexChars text.toList

theorem hexValue?_hexDigit : ∀ n < 16, hexValue? (Sha256.hexDigit n) = some n ∧
    isHexSpace (Sha256.hexDigit n) = false := by
  decide

theorem fromHex_hex (bytes : Bytes) : fromHex (Sha256.hex bytes) = some bytes := by
  rw [fromHex, Sha256.hex, String.toList_ofList]
  induction bytes with
  | nil => rfl
  | cons b bytes ih =>
      have bound := b.toNat_lt
      obtain ⟨high, solid⟩ := hexValue?_hexDigit (b.toNat / 16) (by omega)
      obtain ⟨low, _⟩ := hexValue?_hexDigit (b.toNat % 16) (by omega)
      rw [List.flatMap_cons]
      simp only [List.cons_append, List.nil_append, fromHexChars, solid, Bool.false_eq_true, if_false,
        high, low, ih, bind, Option.bind, pure]
      congr 2
      rw [show b.toNat / 16 * 16 + b.toNat % 16 = b.toNat by omega, UInt8.ofNat_toNat]

set_option maxRecDepth 8000 in
theorem digit_of_isHexByte : ∀ n < 256, Sha256.isHexByte (UInt8.ofNat n) = true →
    ∃ m < 16, String.utf8EncodeChar (Sha256.hexDigit m) = [UInt8.ofNat n] := by
  decide

/-- Pairs of hexadecimal digits are the text of some bytes. -/
theorem exists_hex : ∀ (digits : Bytes) (n : Nat), digits.length = 2 * n →
    digits.all Sha256.isHexByte = true → ∃ bytes : Bytes, utf8 (Sha256.hex bytes) = digits
  | [], _, _, _ => ⟨[], rfl⟩
  | [_], n, odd, _ => by simp at odd; omega
  | high :: low :: digits, n, even, all => by
      rw [List.all_cons, List.all_cons, Bool.and_eq_true, Bool.and_eq_true] at all
      have digit (b : UInt8) (hexByte : Sha256.isHexByte b = true) :
          ∃ m < 16, String.utf8EncodeChar (Sha256.hexDigit m) = [b] := by
        have found := digit_of_isHexByte b.toNat b.toNat_lt
        rw [UInt8.ofNat_toNat] at found
        exact found hexByte
      rcases digit high all.1 with ⟨x, xBound, isHigh⟩
      rcases digit low all.2.1 with ⟨y, yBound, isLow⟩
      rcases exists_hex digits (n - 1) (by simp at even; omega) all.2.2 with ⟨bytes, rest⟩
      have value : (UInt8.ofNat (x * 16 + y)).toNat = x * 16 + y := by
        rw [UInt8.toNat_ofNat']; omega
      refine ⟨UInt8.ofNat (x * 16 + y) :: bytes, ?_⟩
      rw [Sha256.utf8_hex] at rest ⊢
      rw [List.flatMap_cons, rest, value, show (x * 16 + y) / 16 = x by omega,
        show (x * 16 + y) % 16 = y by omega, isHigh, isLow]
      rfl

/-- A text of pairs of hexadecimal digits is read back as it was. -/
theorem fromHex_of_digits {text : String} {n : Nat} (even : (utf8 text).length = 2 * n)
    (all : (utf8 text).all Sha256.isHexByte = true) :
    ∃ bytes, fromHex text = some bytes ∧ Sha256.hex bytes = text := by
  rcases exists_hex (utf8 text) n even all with ⟨bytes, same⟩
  have whole : Sha256.hex bytes = text := utf8_injective same
  exact ⟨bytes, whole ▸ fromHex_hex bytes, whole⟩

end Python
end CapsuleEmit
