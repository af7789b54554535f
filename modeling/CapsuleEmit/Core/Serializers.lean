import CapsuleEmit.Foundation.JsonText
import Mathlib.Data.List.Lex
import Mathlib.Data.List.Sort

namespace CapsuleEmit
namespace Core

open JsonText (codePoint escapeByte hexDigit)

/-!
# Two serializers

A payload is digested over its RFC 8785 text, or over what `json.dumps` prints
of it with sorted keys.  The first writes a string in UTF-8 and sorts names by
their UTF-16 code units; the second escapes everything that is not printable
ASCII and sorts names by their code points.  The texts are the same exactly when
no string and no name has a code point from U+007F on.
-/

/-- A Python string: its code points. -/
abbrev Str := List Nat

/-- What both serializers print. -/
inductive Tree where
  | null
  | bool (value : Bool)
  | int (value : Int)
  | string (text : Str)
  | array (items : List Tree)
  | object (members : List (Str × Tree))

/-! ## Texts they share -/

/-- `int.__repr__` -/
def intText (n : Int) : Bytes :=
  (if n < 0 then [45] else []) ++ (Nat.toDigits 10 n.natAbs).map (fun c => UInt8.ofNat c.toNat)

def boolText (b : Bool) : Bytes := if b then [116, 114, 117, 101] else [102, 97, 108, 115, 101]

def nullText : Bytes := [110, 117, 108, 108]

/-- Texts with commas between them. -/
def commas (texts : List Bytes) : Bytes := [44].intercalate texts

/-- Members in the order of what their names are sorted by. -/
def sortBy {α : Type} (rank : Str → List Nat) (members : List (Str × α)) : List (Str × α) :=
  ((members.map (fun m => (rank m.1, m))).insertionSort (fun a b => a.1 ≤ b.1)).map Prod.snd

/-! ## RFC 8785 -/

def jcsString (text : Str) : Bytes :=
  34 :: (text.flatMap (fun c => (codePoint c).flatMap escapeByte) ++ [34])

/-- The UTF-16 code units of a text. -/
def utf16 (text : Str) : List Nat :=
  text.flatMap (fun c =>
    if c < 0x10000 then [c] else [0xD800 + (c - 0x10000) / 1024, 0xDC00 + (c - 0x10000) % 1024])

mutual
/-- `jcs(value)` -/
def jcs : Tree → Bytes
  | .null => nullText
  | .bool b => boolText b
  | .int n => intText n
  | .string text => jcsString text
  | .array items => 91 :: (commas (jcsItems items) ++ [93])
  | .object members =>
      123 :: (commas ((sortBy utf16 (jcsMembers members)).map
        (fun m => jcsString m.1 ++ 58 :: m.2)) ++ [125])

def jcsItems : List Tree → List Bytes
  | [] => []
  | item :: items => jcs item :: jcsItems items

def jcsMembers : List (Str × Tree) → List (Str × Bytes)
  | [] => []
  | (name, value) :: members => (name, jcs value) :: jcsMembers members
end

/-! ## `json.dumps` -/

/-- `\\uXXXX` -/
def unitEscape (unit : Nat) : Bytes :=
  [92, 117, hexDigit (unit / 4096 % 16), hexDigit (unit / 256 % 16), hexDigit (unit / 16 % 16),
    hexDigit (unit % 16)]

/-- A code point in a string that is to be ASCII. -/
def asciiEscape (c : Nat) : Bytes :=
  if c = 34 then [92, 34]
  else if c = 92 then [92, 92]
  else if c = 8 then [92, 98]
  else if c = 9 then [92, 116]
  else if c = 10 then [92, 110]
  else if c = 12 then [92, 102]
  else if c = 13 then [92, 114]
  else if 32 ≤ c ∧ c < 0x7F then [UInt8.ofNat c]
  else if c < 0x10000 then unitEscape c
  else unitEscape (0xD800 + (c - 0x10000) / 1024) ++ unitEscape (0xDC00 + (c - 0x10000) % 1024)

def asciiString (text : Str) : Bytes := 34 :: (text.flatMap asciiEscape ++ [34])

mutual
/-- `json.dumps(value, sort_keys=True, separators=(",", ":"))` -/
def dumps : Tree → Bytes
  | .null => nullText
  | .bool b => boolText b
  | .int n => intText n
  | .string text => asciiString text
  | .array items => 91 :: (commas (dumpsItems items) ++ [93])
  | .object members =>
      123 :: (commas ((sortBy id (dumpsMembers members)).map
        (fun m => asciiString m.1 ++ 58 :: m.2)) ++ [125])

def dumpsItems : List Tree → List Bytes
  | [] => []
  | item :: items => dumps item :: dumpsItems items

def dumpsMembers : List (Str × Tree) → List (Str × Bytes)
  | [] => []
  | (name, value) :: members => (name, dumps value) :: dumpsMembers members
end

/-! ## Where they agree -/

/-- The code points of a text are below U+007F. -/
def low (text : Str) : Bool := text.all (fun c => c < 0x7F)

mutual
/-- Every string and every name is low. -/
def Tree.low : Tree → Bool
  | .string text => Core.low text
  | .array items => lowItems items
  | .object members => lowMembers members
  | .null => true
  | .bool _ => true
  | .int _ => true

def Tree.lowItems : List Tree → Bool
  | [] => true
  | item :: items => item.low && lowItems items

def Tree.lowMembers : List (Str × Tree) → Bool
  | [] => true
  | (name, value) :: members => Core.low name && value.low && lowMembers members
end

theorem escape_low : ∀ c < 0x7F, (codePoint c).flatMap escapeByte = asciiEscape c := by
  decide

theorem jcsString_low {text : Str} (all : low text = true) : jcsString text = asciiString text := by
  unfold jcsString asciiString
  rw [List.flatMap_congr]
  intro c inside
  exact escape_low c (of_decide_eq_true (List.all_eq_true.mp all c inside))

theorem utf16_low {text : Str} (all : low text = true) : utf16 text = text := by
  induction text with
  | nil => rfl
  | cons c text ih =>
      rw [low, List.all_cons, Bool.and_eq_true, decide_eq_true_eq] at all
      rw [utf16, List.flatMap_cons, if_pos (by omega)]
      exact congrArg (c :: ·) (ih all.2)

/-- The order only depends on what the names are sorted by. -/
theorem sortBy_congr {α : Type} {rank other : Str → List Nat} {members : List (Str × α)}
    (same : ∀ m ∈ members, rank m.1 = other m.1) : sortBy rank members = sortBy other members := by
  unfold sortBy
  congr 2
  apply List.map_congr_left
  intro m inside
  rw [same m inside]

theorem perm_sortBy {α : Type} (rank : Str → List Nat) (members : List (Str × α)) :
    (sortBy rank members).Perm members := by
  have sorted := (List.perm_insertionSort (fun a b => a.1 ≤ b.1)
    (members.map (fun m => (rank m.1, m)))).map Prod.snd
  rwa [List.map_map, List.map_id''] at sorted
  exact fun _ => rfl

theorem names_jcsMembers (members : List (Str × Tree)) :
    (jcsMembers members).map Prod.fst = members.map Prod.fst := by
  induction members with
  | nil => rfl
  | cons member members ih => exact congrArg (member.1 :: ·) ih

theorem low_names {members : List (Str × Tree)} (all : Tree.lowMembers members = true) :
    ∀ name ∈ members.map Prod.fst, low name = true := by
  induction members with
  | nil => exact fun _ inside => absurd inside List.not_mem_nil
  | cons member members ih =>
      simp only [Tree.lowMembers, Bool.and_eq_true] at all
      intro name inside
      rcases List.mem_cons.mp inside with rfl | inside
      · exact all.1.1
      · exact ih all.2 name inside

mutual
/-- Below U+007F both print the same. -/
theorem jcs_low : ∀ tree : Tree, tree.low = true → jcs tree = dumps tree
  | .null, _ => rfl
  | .bool _, _ => rfl
  | .int _, _ => rfl
  | .string _, all => jcsString_low all
  | .array items, all => by rw [jcs, dumps, jcsItems_low items all]
  | .object members, all => by
      have names : ∀ m ∈ jcsMembers members, low m.1 = true := by
        intro m inside
        apply low_names all
        rw [← names_jcsMembers]
        exact List.mem_map.mpr ⟨m, inside, rfl⟩
      have order : sortBy utf16 (jcsMembers members) = sortBy id (dumpsMembers members) := by
        rw [← jcsMembers_low members all]
        exact sortBy_congr (fun m inside => utf16_low (names m inside))
      have texts : (sortBy utf16 (jcsMembers members)).map (fun m => jcsString m.1 ++ 58 :: m.2) =
          (sortBy utf16 (jcsMembers members)).map (fun m => asciiString m.1 ++ 58 :: m.2) := by
        apply List.map_congr_left
        intro m inside
        rw [jcsString_low (names m ((perm_sortBy _ _).mem_iff.mp inside))]
      rw [jcs, dumps, texts, order]

theorem jcsItems_low : ∀ items : List Tree, Tree.lowItems items = true →
    jcsItems items = dumpsItems items
  | [], _ => rfl
  | item :: items, all => by
      rw [Tree.lowItems, Bool.and_eq_true] at all
      rw [jcsItems, dumpsItems, jcs_low item all.1, jcsItems_low items all.2]

theorem jcsMembers_low : ∀ members : List (Str × Tree), Tree.lowMembers members = true →
    jcsMembers members = dumpsMembers members
  | [], _ => rfl
  | (name, value) :: members, all => by
      simp only [Tree.lowMembers, Bool.and_eq_true] at all
      rw [jcsMembers, dumpsMembers, jcs_low value all.1.2, jcsMembers_low members all.2]
end

/-! ## Where they differ -/

/-- The bytes are below U+007F. -/
def Printable (bytes : Bytes) : Prop := ∀ b ∈ bytes, b < 0x7F

theorem printable_nil : Printable [] := fun _ inside => absurd inside List.not_mem_nil

theorem printable_append {left right : Bytes} :
    Printable (left ++ right) ↔ Printable left ∧ Printable right := List.forall_mem_append

theorem printable_cons {b : UInt8} {bytes : Bytes} :
    Printable (b :: bytes) ↔ b < 0x7F ∧ Printable bytes := List.forall_mem_cons

theorem printable_flatMap {α : Type} {f : α → Bytes} {items : List α}
    (each : ∀ a ∈ items, Printable (f a)) : Printable (items.flatMap f) := by
  intro b inside
  rcases List.mem_flatMap.mp inside with ⟨a, there, inside⟩
  exact each a there b inside

theorem printable_commas {texts : List Bytes} (each : ∀ text ∈ texts, Printable text) :
    Printable (commas texts) := by
  unfold commas
  induction texts with
  | nil => exact printable_nil
  | cons text texts ih =>
      rcases List.forall_mem_cons.mp each with ⟨first, others⟩
      cases texts with
      | nil => simpa [List.intercalate] using first
      | cons other texts =>
          rw [List.intercalate_cons_cons, printable_append, printable_append]
          exact ⟨⟨first, by simp [Printable]⟩, ih others⟩

theorem ofNat_lt {n : Nat} (small : n < 0x7F) : UInt8.ofNat n < 0x7F := by
  rw [UInt8.lt_iff_toNat_lt, UInt8.toNat_ofNat', Nat.mod_eq_of_lt (by omega)]
  exact small

theorem hexDigit_lt (n : Nat) : hexDigit (n % 16) < 0x7F := by
  unfold hexDigit
  split_ifs <;> exact ofNat_lt (by omega)

theorem printable_unitEscape (unit : Nat) : Printable (unitEscape unit) := by
  simp only [unitEscape, printable_cons]
  exact ⟨by decide, by decide, hexDigit_lt _, hexDigit_lt _, hexDigit_lt _, hexDigit_lt _,
    printable_nil⟩

theorem printable_asciiEscape (c : Nat) : Printable (asciiEscape c) := by
  have pair : ∀ b : UInt8, b < 0x7F → Printable [92, b] := by
    intro b low
    rw [printable_cons, printable_cons]
    exact ⟨by decide, low, printable_nil⟩
  unfold asciiEscape
  split_ifs with _ _ _ _ _ _ _ plain
  · exact pair _ (by decide)
  · exact pair _ (by decide)
  · exact pair _ (by decide)
  · exact pair _ (by decide)
  · exact pair _ (by decide)
  · exact pair _ (by decide)
  · exact pair _ (by decide)
  · rw [printable_cons]
    exact ⟨ofNat_lt plain.2, printable_nil⟩
  · exact printable_unitEscape c
  · exact printable_append.mpr ⟨printable_unitEscape _, printable_unitEscape _⟩

theorem printable_asciiString (text : Str) : Printable (asciiString text) := by
  rw [asciiString, printable_cons, printable_append]
  exact ⟨by decide, printable_flatMap (fun c _ => printable_asciiEscape c), by simp [Printable]⟩

theorem printable_intText (n : Int) : Printable (intText n) := by
  rw [intText, printable_append]
  constructor
  · split_ifs
    · simp [Printable]
    · exact printable_nil
  · intro b inside
    rcases List.mem_map.mp inside with ⟨c, digit, rfl⟩
    have decimal := Nat.isDigit_of_mem_toDigits (by decide) (by decide) digit
    rw [Char.isDigit, Bool.and_eq_true, decide_eq_true_eq, decide_eq_true_eq] at decimal
    have small : c.toNat ≤ 57 := decimal.2
    exact ofNat_lt (by omega)

theorem printable_object {order : Str → List Nat} {members : List (Str × Bytes)}
    (each : ∀ m ∈ members, Printable m.2) :
    Printable (commas ((sortBy order members).map (fun m => asciiString m.1 ++ 58 :: m.2))) := by
  apply printable_commas
  intro text inside
  rcases List.mem_map.mp inside with ⟨m, there, rfl⟩
  rw [printable_append, printable_cons]
  exact ⟨printable_asciiString m.1, by decide, each m ((perm_sortBy _ _).mem_iff.mp there)⟩

mutual
/-- `json.dumps` prints ASCII without U+007F. -/
theorem printable_dumps : ∀ tree : Tree, Printable (dumps tree)
  | .null => by simp [dumps, nullText, Printable]
  | .bool b => by cases b <;> simp [dumps, boolText, Printable]
  | .int n => printable_intText n
  | .string text => printable_asciiString text
  | .array items => by
      rw [dumps, printable_cons, printable_append]
      exact ⟨by decide, printable_commas (printable_dumpsItems items), by simp [Printable]⟩
  | .object members => by
      rw [dumps, printable_cons, printable_append]
      exact ⟨by decide, printable_object (printable_dumpsMembers members), by simp [Printable]⟩

theorem printable_dumpsItems : ∀ items : List Tree, ∀ text ∈ dumpsItems items, Printable text
  | [] => fun _ inside => absurd inside List.not_mem_nil
  | item :: items => List.forall_mem_cons.mpr ⟨printable_dumps item, printable_dumpsItems items⟩

theorem printable_dumpsMembers : ∀ members : List (Str × Tree),
    ∀ m ∈ dumpsMembers members, Printable m.2
  | [] => fun _ inside => absurd inside List.not_mem_nil
  | (_, value) :: members =>
      List.forall_mem_cons.mpr ⟨printable_dumps value, printable_dumpsMembers members⟩
end

theorem not_printable_codePoint {c : Nat} (high : 0x7F ≤ c) :
    ¬ Printable ((codePoint c).flatMap escapeByte) := by
  have kept : ∀ b : UInt8, 0x7F ≤ b → escapeByte b = [b] := by
    intro b high
    have apart : ∀ x : UInt8, x < 0x7F → b ≠ x := by
      rintro x low rfl
      exact absurd low (UInt8.not_lt.mpr high)
    have control : ¬ b < 32 := fun low =>
      absurd (UInt8.lt_trans low (by decide : (32 : UInt8) < 0x7F)) (UInt8.not_lt.mpr high)
    unfold escapeByte
    rw [if_neg (apart 34 (by decide)), if_neg (apart 92 (by decide)), if_neg (apart 8 (by decide)),
      if_neg (apart 9 (by decide)), if_neg (apart 10 (by decide)), if_neg (apart 12 (by decide)),
      if_neg (apart 13 (by decide)), if_neg control]
  have last : ∃ b ∈ codePoint c, 0x7F ≤ b := by
    have tail : (0x7F : UInt8) ≤ UInt8.ofNat (0x80 + c % 64) := by
      rw [UInt8.le_iff_toNat_le, UInt8.toNat_ofNat', Nat.mod_eq_of_lt (by omega)]
      change 127 ≤ _
      omega
    unfold codePoint
    split_ifs
    · have exact' : c = 0x7F := by omega
      subst exact'
      exact ⟨_, List.mem_singleton_self _, by decide⟩
    · exact ⟨_, by simp, tail⟩
    · exact ⟨_, by simp, tail⟩
    · exact ⟨_, by simp, tail⟩
  rcases last with ⟨b, inside, high⟩
  intro printable
  have low := printable b (List.mem_flatMap.mpr ⟨b, inside, by rw [kept b high]; simp⟩)
  exact absurd low (UInt8.not_lt.mpr high)

theorem low_of_printable_jcsString {text : Str} (printable : Printable (jcsString text)) :
    low text = true := by
  rw [jcsString, printable_cons, printable_append] at printable
  rw [low, List.all_eq_true]
  intro c inside
  by_contra high
  apply not_printable_codePoint (c := c) (by simpa using high)
  exact fun b there => printable.2.1 b (List.mem_flatMap.mpr ⟨c, inside, there⟩)

theorem printable_of_commas {texts : List Bytes} (all : Printable (commas texts)) :
    ∀ text ∈ texts, Printable text := by
  unfold commas at all
  induction texts with
  | nil => exact fun _ inside => absurd inside List.not_mem_nil
  | cons text texts ih =>
      cases texts with
      | nil =>
          rw [List.forall_mem_singleton]
          simpa [List.intercalate] using all
      | cons other texts =>
          rw [List.intercalate_cons_cons, printable_append, printable_append] at all
          exact List.forall_mem_cons.mpr ⟨all.1.1, ih all.2⟩

mutual
/-- An RFC 8785 text below U+007F is of a value that is low. -/
theorem low_of_printable : ∀ tree : Tree, Printable (jcs tree) → tree.low = true
  | .null, _ => rfl
  | .bool _, _ => rfl
  | .int _, _ => rfl
  | .string _, printable => low_of_printable_jcsString printable
  | .array items, printable => by
      rw [jcs, printable_cons, printable_append] at printable
      exact lowItems_of_printable items (printable_of_commas printable.2.1)
  | .object members, printable => by
      rw [jcs, printable_cons, printable_append] at printable
      apply lowMembers_of_printable members
      intro m inside
      have text := printable_of_commas printable.2.1 _
        (List.mem_map.mpr ⟨m, (perm_sortBy _ _).mem_iff.mpr inside, rfl⟩)
      rw [printable_append, printable_cons] at text
      exact ⟨text.1, text.2.2⟩

theorem lowItems_of_printable : ∀ items : List Tree,
    (∀ text ∈ jcsItems items, Printable text) → Tree.lowItems items = true
  | [], _ => rfl
  | item :: items, each => by
      rcases List.forall_mem_cons.mp each with ⟨first, others⟩
      rw [Tree.lowItems, low_of_printable item first, lowItems_of_printable items others]
      rfl

theorem lowMembers_of_printable : ∀ members : List (Str × Tree),
    (∀ m ∈ jcsMembers members, Printable (jcsString m.1) ∧ Printable m.2) →
      Tree.lowMembers members = true
  | [], _ => rfl
  | (name, value) :: members, each => by
      rcases List.forall_mem_cons.mp each with ⟨first, others⟩
      rw [Tree.lowMembers, low_of_printable_jcsString first.1, low_of_printable value first.2,
        lowMembers_of_printable members others]
      rfl
end

/-- The two texts of a value are the same exactly when it is low. -/
theorem jcs_eq_dumps_iff (tree : Tree) : jcs tree = dumps tree ↔ tree.low = true := by
  constructor
  · intro same
    apply low_of_printable
    rw [same]
    exact printable_dumps tree
  · exact jcs_low tree

end Core
end CapsuleEmit
