import CapsuleEmit.Foundation.Json
import Mathlib.Data.List.Chain
import Mathlib.Tactic.Common

namespace CapsuleEmit
namespace Utf8

/-!
# Where UTF-8 text can be cut

Bytes are UTF-8 when they are the characters of a string, one after the
other.  The first byte of a character is never a continuation byte and the
others always are, so a text may be cut before any byte that is not one, and
a text that starts with whole characters goes on with whole characters.  No
text has the bytes of a surrogate in it.
-/

/-- The bytes are UTF-8. -/
def Valid (bytes : Bytes) : Prop := (utf8? bytes).isSome = true

instance (bytes : Bytes) : Decidable (Valid bytes) := inferInstanceAs (Decidable (_ = true))

/-- A byte inside a character. -/
def isContinuation (b : UInt8) : Bool := 0x80 ≤ b && b ≤ 0xBF

theorem utf8_of_utf8? {bytes : Bytes} {text : String} (decoded : utf8? bytes = some text) :
    utf8 text = bytes := by
  rw [utf8?, String.fromUTF8?] at decoded
  split at decoded
  · cases decoded
    simp [utf8, String.fromUTF8]
  · cases decoded

theorem utf8_eq_flatMap (s : String) : utf8 s = s.toList.flatMap String.utf8EncodeChar := by
  rw [utf8, ← String.utf8Encode_toList]
  simp [List.utf8Encode]

theorem valid_iff {bytes : Bytes} :
    Valid bytes ↔ ∃ chars : List Char, bytes = chars.flatMap String.utf8EncodeChar := by
  constructor
  · intro valid
    rcases Option.isSome_iff_exists.mp valid with ⟨text, decoded⟩
    exact ⟨text.toList, by rw [← utf8_eq_flatMap, utf8_of_utf8? decoded]⟩
  · rintro ⟨chars, rfl⟩
    have text : chars.flatMap String.utf8EncodeChar = utf8 (String.ofList chars) := by
      rw [utf8_eq_flatMap, String.toList_ofList]
    rw [Valid, text, utf8?_utf8]
    rfl

theorem valid_utf8 (text : String) : Valid (utf8 text) := by
  rw [Valid, utf8?_utf8]
  rfl

theorem valid_nil : Valid [] := valid_iff.mpr ⟨[], rfl⟩

theorem valid_append {left right : Bytes} (first : Valid left) (second : Valid right) :
    Valid (left ++ right) := by
  rcases valid_iff.mp first with ⟨chars, rfl⟩
  rcases valid_iff.mp second with ⟨others, rfl⟩
  exact valid_iff.mpr ⟨chars ++ others, by rw [List.flatMap_append]⟩

/-! ## Characters -/

theorem encode_ascii {n : Nat} (ascii : n < 0x80) :
    String.utf8EncodeChar (Char.ofNat n) = [UInt8.ofNat n] := by
  have value : (Char.ofNat n).val.toNat = n := by
    have scalar : n.isValidChar := Or.inl (by omega)
    rw [Char.ofNat, dif_pos scalar]
    rfl
  simp only [String.utf8EncodeChar]
  rw [value, if_pos (by omega)]

theorem valid_ascii {b : UInt8} (ascii : b < 0x80) : Valid [b] := by
  refine valid_iff.mpr ⟨[Char.ofNat b.toNat], ?_⟩
  have small : b.toNat < 0x80 := UInt8.lt_iff_toNat_lt.mp ascii
  rw [List.flatMap_cons, encode_ascii small, UInt8.ofNat_toNat]
  rfl

theorem valid_of_ascii {bytes : Bytes} (ascii : ∀ b ∈ bytes, b < 0x80) : Valid bytes := by
  induction bytes with
  | nil => exact valid_nil
  | cons b bytes ih =>
      exact valid_append (valid_ascii (ascii b List.mem_cons_self))
        (ih (fun c inside => ascii c (List.mem_cons_of_mem b inside)))

theorem isContinuation_ofNat {n : Nat} (small : n < 256) :
    isContinuation (UInt8.ofNat n) = true ↔ 0x80 ≤ n ∧ n ≤ 0xBF := by
  have value : (UInt8.ofNat n).toNat = n := by simp [Nat.mod_eq_of_lt small]
  simp only [isContinuation, Bool.and_eq_true, decide_eq_true_eq, UInt8.le_iff_toNat_le, value]
  rfl

theorem toNat_lt (c : Char) : c.val.toNat < 0x110000 := by
  rcases c.valid with low | ⟨-, high⟩
  · exact Nat.lt_trans low (by decide)
  · exact high

/-- The bytes of a character: a first byte that is not a continuation byte,
then continuation bytes. -/
theorem encode_shape (c : Char) : ∃ first rest, String.utf8EncodeChar c = first :: rest ∧
    isContinuation first = false ∧ (∀ b ∈ rest, isContinuation b = true) ∧
      (rest = [] → first < 0x80) := by
  have bound := toNat_lt c
  have lead : ∀ {n : Nat}, n < 256 → n < 0x80 ∨ 0xBF < n →
      isContinuation (UInt8.ofNat n) = false := by
    intro n small outside
    rw [Bool.eq_false_iff, ne_eq, isContinuation_ofNat small]
    omega
  have inner : ∀ n : Nat, isContinuation (UInt8.ofNat (n % 64 + 128)) = true := by
    intro n
    rw [isContinuation_ofNat (by omega)]
    omega
  simp only [String.utf8EncodeChar]
  split_ifs with one two three
  · refine ⟨_, _, rfl, lead (by omega) (by omega), by simp, fun _ => ?_⟩
    rw [UInt8.lt_iff_toNat_lt, UInt8.toNat_ofNat', Nat.mod_eq_of_lt (by omega)]
    exact Nat.lt_succ_of_le one
  · refine ⟨_, _, rfl, lead (by omega) (by omega), ?_, nofun⟩
    simp only [List.mem_singleton, forall_eq]
    exact inner _
  · refine ⟨_, _, rfl, lead (by omega) (by omega), ?_, nofun⟩
    simp only [List.mem_cons, List.not_mem_nil, or_false, forall_eq_or_imp, forall_eq]
    exact ⟨inner _, inner _⟩
  · refine ⟨_, _, rfl, lead (by omega) (by omega), ?_, nofun⟩
    simp only [List.mem_cons, List.not_mem_nil, or_false, forall_eq_or_imp, forall_eq]
    exact ⟨inner _, inner _, inner _⟩

/-- A character is known from the bytes it starts. -/
theorem encode_prefix {c d : Char} {left right : Bytes}
    (same : String.utf8EncodeChar c ++ left = String.utf8EncodeChar d ++ right) : c = d := by
  have decode : ∀ (e : Char) (rest : Bytes), ByteArray.utf8DecodeChar?
      (String.utf8EncodeChar e ++ rest).toByteArray 0 = some e := by
    intro e rest
    rw [List.toByteArray_append]
    exact ByteArray.utf8DecodeChar?_utf8EncodeChar_append
  have read := decode c left
  rw [same, decode d right] at read
  exact (Option.some.inj read).symm

/-! ## Cutting -/

/-- The bytes start a character, if there are any. -/
def Starts (bytes : Bytes) : Prop := ∀ b rest, bytes = b :: rest → isContinuation b = false

theorem starts_encode (c : Char) (rest : Bytes) : Starts (String.utf8EncodeChar c ++ rest) := by
  rcases encode_shape c with ⟨first, others, shape, lead, -, -⟩
  intro b tail same
  rw [shape, List.cons_append] at same
  rw [← (List.cons.inj same).1]
  exact lead

/-- A text can be cut where a character starts. -/
theorem valid_cut {left right : Bytes} (valid : Valid (left ++ right)) (cut : Starts right) :
    Valid left ∧ Valid right := by
  rcases valid_iff.mp valid with ⟨chars, same⟩
  clear valid
  induction chars generalizing left with
  | nil =>
      rcases List.append_eq_nil_iff.mp same with ⟨rfl, rfl⟩
      exact ⟨valid_nil, valid_nil⟩
  | cons c chars ih =>
      rcases encode_shape c with ⟨first, inner, shape, -, continued, -⟩
      rw [List.flatMap_cons] at same
      rcases List.append_eq_append_iff.mp same with ⟨middle, whole, after⟩ | ⟨middle, whole, after⟩
      · -- the cut is inside the first character, so it is at one of its ends
        cases left with
        | nil =>
            rw [List.nil_append] at same
            exact ⟨valid_nil, valid_iff.mpr ⟨c :: chars, by rw [same, List.flatMap_cons]⟩⟩
        | cons b left =>
            cases middle with
            | nil =>
                rw [List.append_nil] at whole
                rw [List.nil_append] at after
                exact ⟨valid_iff.mpr ⟨[c], by rw [← whole]; simp⟩, valid_iff.mpr ⟨chars, after⟩⟩
            | cons inside middle =>
                rw [shape, List.cons_append] at whole
                have within : inside ∈ inner := by
                  rw [(List.cons.inj whole).2]
                  simp
                have start := cut inside _ after
                rw [continued inside within] at start
                cases start
      · have rest := ih after.symm
        refine ⟨?_, rest.2⟩
        rw [whole]
        exact valid_append (valid_iff.mpr ⟨[c], by simp⟩) rest.1

/-- What follows whole characters in a text is a text. -/
theorem valid_tail {left right : Bytes} (valid : Valid (left ++ right)) (whole : Valid left) :
    Valid right := by
  rcases valid_iff.mp whole with ⟨chars, rfl⟩
  clear whole
  induction chars with
  | nil => exact valid
  | cons c chars ih =>
      rw [List.flatMap_cons, List.append_assoc] at valid
      apply ih
      rcases valid_iff.mp valid with ⟨others, same⟩
      cases others with
      | nil =>
          rcases encode_shape c with ⟨first, inner, shape, -, -, -⟩
          rw [shape] at same
          cases same
      | cons d others =>
          rw [List.flatMap_cons] at same
          have first := encode_prefix same
          rw [first] at same
          exact valid_iff.mpr ⟨others, List.append_cancel_left same⟩

/-! ## Surrogates -/

/-- No byte `0xED` is followed by a byte that would make it a surrogate. -/
def Plain (bytes : Bytes) : Prop := bytes.IsChain (fun a b => a = 0xED → b < 0xA0)

theorem plain_encode (c : Char) : Plain (String.utf8EncodeChar c) := by
  have bound := toNat_lt c
  have scalar : c.val.toNat < 0xD800 ∨ 0xDFFF < c.val.toNat := by
    rcases c.valid with low | ⟨high, -⟩
    · exact Or.inl low
    · exact Or.inr high
  have other : ∀ {n : Nat}, n < 256 → n ≠ 0xED → UInt8.ofNat n ≠ 0xED := by
    intro n small different same
    have value := congrArg UInt8.toNat same
    rw [UInt8.toNat_ofNat', Nat.mod_eq_of_lt small] at value
    exact different value
  have inner : ∀ n : Nat, UInt8.ofNat (n % 64 + 128) ≠ 0xED := fun n => other (by omega) (by omega)
  simp only [String.utf8EncodeChar, Plain]
  split_ifs with one two three
  · simp
  · simp only [List.isChain_cons_cons, List.isChain_singleton, and_true]
    intro same
    exact absurd same (other (by omega) (by omega))
  · simp only [List.isChain_cons_cons, List.isChain_singleton, and_true]
    refine ⟨?_, fun same => absurd same (inner _)⟩
    intro same
    have value := congrArg UInt8.toNat same
    rw [UInt8.toNat_ofNat', Nat.mod_eq_of_lt (by omega)] at value
    have page : c.val.toNat / 4096 % 16 + 224 = 237 := value
    rw [UInt8.lt_iff_toNat_lt, UInt8.toNat_ofNat', Nat.mod_eq_of_lt (by omega)]
    change _ < 160
    omega
  · simp only [List.isChain_cons_cons, List.isChain_singleton, and_true]
    refine ⟨?_, fun same => absurd same (inner _), fun same => absurd same (inner _)⟩
    intro same
    exact absurd same (other (by omega) (by omega))

/-- A text has no surrogate in it. -/
theorem plain_of_valid {bytes : Bytes} (valid : Valid bytes) : Plain bytes := by
  rcases valid_iff.mp valid with ⟨chars, rfl⟩
  clear valid
  induction chars with
  | nil => exact List.isChain_nil
  | cons c chars ih =>
      rw [List.flatMap_cons]
      refine List.isChain_append.mpr ⟨plain_encode c, ih, ?_⟩
      intro last isLast start isStart same
      subst same
      -- the last byte of a character is a continuation byte or the character itself
      rcases encode_shape c with ⟨first, inner, shape, lead, continued, single⟩
      rw [shape] at isLast
      cases inner with
      | nil =>
          have ascii := single rfl
          rw [List.getLast?_singleton, Option.mem_some_iff] at isLast
          rw [isLast] at ascii
          exact absurd ascii (by decide)
      | cons b inner =>
          rw [List.getLast?_cons_cons] at isLast
          have inside := continued _ (List.mem_of_getLast? isLast)
          exact absurd inside (by decide)

end Utf8
end CapsuleEmit
