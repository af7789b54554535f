import CapsuleEmit.Foundation.Lines
import CapsuleEmit.Foundation.Utf8

namespace CapsuleEmit
namespace Utf8

/-!
# Lossy decoding of UTF-8

A reader that must take any bytes as text puts U+FFFD where the bytes are not
UTF-8, once for each longest front of a character that the next byte does not
continue.  The decoder here works byte by byte with the front it has read so
far.  UTF-8 is left as it is.  A byte that is a character of its own ends
whatever came before it, so the lines of a file can be decoded one at a time.
-/

/-- The length of the characters with a given first byte; zero where there are none. -/
def width (b : UInt8) : Nat :=
  if b < 0x80 then 1
  else if 0xC2 ≤ b && b ≤ 0xDF then 2
  else if 0xE0 ≤ b && b ≤ 0xEF then 3
  else if 0xF0 ≤ b && b ≤ 0xF4 then 4
  else 0

/-- The second byte of a character: no overlong form, no surrogate, nothing
above U+10FFFF. -/
def isSecond (first b : UInt8) : Bool :=
  if first = 0xE0 then 0xA0 ≤ b && b ≤ 0xBF
  else if first = 0xED then 0x80 ≤ b && b ≤ 0x9F
  else if first = 0xF0 then 0x90 ≤ b && b ≤ 0xBF
  else if first = 0xF4 then 0x80 ≤ b && b ≤ 0x8F
  else isContinuation b

/-- Whether a byte goes on with the character whose front has been read. -/
def continues : Bytes → UInt8 → Bool
  | [], _ => false
  | [first], b => isSecond first b
  | _, b => isContinuation b

/-- U+FFFD. -/
def replacement : Bytes := [0xEF, 0xBF, 0xBD]

/-- What an unfinished character is decoded to. -/
def flush : Bytes → Bytes
  | [] => []
  | _ => replacement

/-- Decode bytes after the front of a character. -/
def decodeFrom : Bytes → Bytes → Bytes
  | pending, [] => flush pending
  | pending, b :: rest =>
      if continues pending b then
        if pending.length + 1 = width (pending.headD 0) then pending ++ b :: decodeFrom [] rest
        else decodeFrom (pending ++ [b]) rest
      else if width b = 1 then flush pending ++ b :: decodeFrom [] rest
      else if width b = 0 then flush pending ++ (replacement ++ decodeFrom [] rest)
      else flush pending ++ decodeFrom [b] rest

/-- The text of any bytes, as `String::from_utf8_lossy` reads them. -/
def fromUtf8Lossy (bytes : Bytes) : Bytes := decodeFrom [] bytes

@[simp] theorem fromUtf8Lossy_nil : fromUtf8Lossy [] = [] := rfl

example : fromUtf8Lossy [0x61, 0xE2, 0x82, 0xE2, 0x82, 0xAC] =
    0x61 :: replacement ++ [0xE2, 0x82, 0xAC] := by decide

/-! ## Characters that are one byte -/

theorem continues_ascii (pending : Bytes) {b : UInt8} (ascii : b < 0x80) :
    continues pending b = false := by
  have below : ∀ low high : UInt8, 0x80 ≤ low →
      (decide (low ≤ b) && decide (b ≤ high)) = false := by
    intro low high high80
    rw [Bool.and_eq_false_iff, decide_eq_false_iff_not, UInt8.not_le]
    exact Or.inl (UInt8.lt_of_lt_of_le ascii high80)
  have second : ∀ first, isSecond first b = false := by
    intro first
    unfold isSecond
    split_ifs <;> exact below _ _ (by decide)
  match pending with
  | [] => rfl
  | [first] => exact second first
  | _ :: _ :: _ => exact below _ _ (by decide)

/-- A byte that is a character ends what came before it. -/
theorem decodeFrom_ascii (pending front back : Bytes) {b : UInt8} (ascii : b < 0x80) :
    decodeFrom pending (front ++ b :: back) =
      decodeFrom pending front ++ b :: decodeFrom [] back := by
  induction front generalizing pending with
  | nil =>
      have one : width b = 1 := if_pos ascii
      simp [decodeFrom, continues_ascii pending ascii, one]
  | cons a front ih =>
      simp only [List.cons_append, decodeFrom, ih]
      split_ifs <;> simp

theorem fromUtf8Lossy_ascii (front back : Bytes) {b : UInt8} (ascii : b < 0x80) :
    fromUtf8Lossy (front ++ b :: back) = fromUtf8Lossy front ++ b :: fromUtf8Lossy back :=
  decodeFrom_ascii [] front back ascii

/-- Bytes are decoded to nothing only when there are none. -/
theorem fromUtf8Lossy_eq_nil {bytes : Bytes} : fromUtf8Lossy bytes = [] ↔ bytes = [] := by
  have some : ∀ (bytes pending : Bytes), decodeFrom pending bytes = [] →
      pending = [] ∧ bytes = [] := by
    intro bytes
    induction bytes with
    | nil =>
        intro pending empty
        cases pending with
        | nil => exact ⟨rfl, rfl⟩
        | cons a pending => cases empty
    | cons b bytes ih =>
        intro pending empty
        simp only [decodeFrom] at empty
        split_ifs at empty with next whole single wrong
        · simp at empty
        · exact absurd (ih _ empty).1 (by simp)
        · simp at empty
        · simp [replacement] at empty
        · exact absurd (ih _ (List.append_eq_nil_iff.mp empty).2).1 (by simp)
  exact ⟨fun empty => (some bytes [] empty).2, fun empty => by rw [empty, fromUtf8Lossy_nil]⟩

/-! ## UTF-8 is left as it is -/

/-- The bytes of a character after its first. -/
def Completes (first : UInt8) : Bytes → Prop
  | [] => width first = 1
  | second :: rest => width first = rest.length + 2 ∧ isSecond first second = true ∧
      ∀ b ∈ rest, isContinuation b = true

/-- A character that has been started is finished by continuation bytes. -/
theorem decodeFrom_finish (first second : UInt8) (read rest more : Bytes) (left : rest ≠ [])
    (whole : width first = read.length + rest.length + 2)
    (continued : ∀ b ∈ rest, isContinuation b = true) :
    decodeFrom (first :: second :: read) (rest ++ more) =
      first :: second :: read ++ rest ++ decodeFrom [] more := by
  induction rest generalizing read with
  | nil => exact absurd rfl left
  | cons b rest ih =>
      have goesOn : continues (first :: second :: read) b = true := continued b List.mem_cons_self
      rw [List.cons_append, decodeFrom, if_pos goesOn]
      cases rest with
      | nil =>
          rw [if_pos (by rw [List.headD_cons, whole]; simp)]
          simp
      | cons c rest =>
          have short : (first :: second :: read).length + 1 ≠
              width ((first :: second :: read).headD 0) := by
            rw [List.headD_cons, whole]
            simp only [List.length_cons]
            omega
          rw [if_neg short]
          have step := ih (read ++ [b]) (List.cons_ne_nil c rest)
            (by rw [whole, List.length_append, List.length_singleton, List.length_cons]; omega)
            (fun d inside => continued d (List.mem_cons_of_mem b inside))
          simpa using step

theorem decodeFrom_completes {first : UInt8} {rest : Bytes} (complete : Completes first rest)
    (more : Bytes) :
    decodeFrom [] (first :: rest ++ more) = first :: rest ++ decodeFrom [] more := by
  cases rest with
  | nil =>
      have one : width first = 1 := complete
      simp [decodeFrom, continues, one, flush]
  | cons second rest =>
      rcases complete with ⟨whole, isSecond, continued⟩
      have goesOn : continues [first] second = true := isSecond
      have start : decodeFrom [] (first :: second :: rest ++ more) =
          decodeFrom [first] (second :: (rest ++ more)) := by
        simp [decodeFrom, continues, whole, flush]
      rw [start, decodeFrom, if_pos goesOn, List.headD_cons, whole]
      cases rest with
      | nil => simp
      | cons third rest =>
          rw [if_neg (by simp)]
          have finish := decodeFrom_finish first second [] (third :: rest) more
            (List.cons_ne_nil third rest) (by rw [whole]; simp) continued
          simpa using finish

theorem width_ofNat {n : Nat} (small : n < 256) : width (UInt8.ofNat n) =
    if n < 0x80 then 1 else if 0xC2 ≤ n ∧ n ≤ 0xDF then 2 else if 0xE0 ≤ n ∧ n ≤ 0xEF then 3
    else if 0xF0 ≤ n ∧ n ≤ 0xF4 then 4 else 0 := by
  have value : (UInt8.ofNat n).toNat = n := by
    rw [UInt8.toNat_ofNat', Nat.mod_eq_of_lt small]
  simp only [width, UInt8.lt_iff_toNat_lt, UInt8.le_iff_toNat_le, value, Bool.and_eq_true,
    decide_eq_true_eq]
  rfl

theorem isSecond_ofNat {n m : Nat} (small : n < 256) (smallSecond : m < 256) :
    isSecond (UInt8.ofNat n) (UInt8.ofNat m) = true ↔
      0x80 ≤ m ∧ m ≤ 0xBF ∧ (n = 0xE0 → 0xA0 ≤ m) ∧ (n = 0xED → m ≤ 0x9F) ∧
        (n = 0xF0 → 0x90 ≤ m) ∧ (n = 0xF4 → m ≤ 0x8F) := by
  have value : ∀ {k : Nat}, k < 256 → (UInt8.ofNat k).toNat = k := by
    intro k small
    rw [UInt8.toNat_ofNat', Nat.mod_eq_of_lt small]
  simp only [isSecond, isContinuation, ← UInt8.toNat_inj, UInt8.le_iff_toNat_le, value small,
    value smallSecond]
  simp only [UInt8.reduceToNat]
  split_ifs <;> simp only [Bool.and_eq_true, decide_eq_true_eq] <;> omega

/-- The bytes of a character complete its first byte. -/
theorem encode_completes (c : Char) :
    ∃ first rest, String.utf8EncodeChar c = first :: rest ∧ Completes first rest := by
  have bound := toNat_lt c
  have scalar : c.val.toNat < 0xD800 ∨ 0xDFFF < c.val.toNat := by
    rcases c.valid with low | ⟨high, -⟩
    · exact Or.inl low
    · exact Or.inr high
  have inner : ∀ n : Nat, isContinuation (UInt8.ofNat (n % 64 + 128)) = true := by
    intro n
    rw [isContinuation_ofNat (by omega)]
    omega
  simp only [String.utf8EncodeChar]
  generalize c.val.toNat = n at bound scalar
  split_ifs with one two three
  · exact ⟨_, _, rfl, (width_ofNat (by omega)).trans (if_pos (by omega))⟩
  · refine ⟨_, _, rfl, ?_, (isSecond_ofNat (by omega) (by omega)).mpr (by omega), nofun⟩
    rw [width_ofNat (by omega), if_neg (by omega), if_pos (by omega)]
    rfl
  · refine ⟨_, _, rfl, ?_, (isSecond_ofNat (by omega) (by omega)).mpr (by omega), ?_⟩
    · rw [width_ofNat (by omega), if_neg (by omega), if_neg (by omega), if_pos (by omega)]
      rfl
    · simp only [List.mem_singleton, forall_eq]
      exact inner _
  · refine ⟨_, _, rfl, ?_, (isSecond_ofNat (by omega) (by omega)).mpr (by omega), ?_⟩
    · rw [width_ofNat (by omega), if_neg (by omega), if_neg (by omega), if_neg (by omega),
        if_pos (by omega)]
      rfl
    · simp only [List.mem_cons, List.not_mem_nil, or_false, forall_eq_or_imp, forall_eq]
      exact ⟨inner _, inner _⟩

/-- A character is decoded as it is. -/
theorem decodeFrom_char (c : Char) (more : Bytes) :
    decodeFrom [] (String.utf8EncodeChar c ++ more) =
      String.utf8EncodeChar c ++ decodeFrom [] more := by
  rcases encode_completes c with ⟨first, rest, shape, complete⟩
  rw [shape]
  exact decodeFrom_completes complete more

theorem fromUtf8Lossy_of_valid {bytes : Bytes} (valid : Valid bytes) :
    fromUtf8Lossy bytes = bytes := by
  rcases valid_iff.mp valid with ⟨chars, rfl⟩
  clear valid
  induction chars with
  | nil => rfl
  | cons c chars ih =>
      rw [List.flatMap_cons, fromUtf8Lossy, decodeFrom_char]
      exact congrArg _ ih

/-! ## Lines -/

/-- A byte that is a character is in a text only where it is in the bytes. -/
theorem notMem_decodeFrom {sep : UInt8} (ascii : sep < 0x80) {bytes pending : Bytes}
    (fresh : sep ∉ pending) (clean : sep ∉ bytes) : sep ∉ decodeFrom pending bytes := by
  have outside : sep ∉ replacement := by
    intro inside
    have low : ∀ b ∈ replacement, ¬ b < 0x80 := by decide
    exact low sep inside ascii
  have flushed : ∀ front : Bytes, sep ∉ flush front := by
    intro front
    cases front with
    | nil => exact List.not_mem_nil
    | cons a front => exact outside
  induction bytes generalizing pending with
  | nil => exact flushed pending
  | cons b bytes ih =>
      rcases not_or.mp (fun either => clean (List.mem_cons.mpr either)) with ⟨different, clean⟩
      rw [decodeFrom]
      split_ifs with next whole single wrong
      · simp [fresh, different, ih List.not_mem_nil clean]
      · exact ih (by simp [fresh, different]) clean
      · simp [flushed, different, ih List.not_mem_nil clean]
      · simp [flushed, outside, ih List.not_mem_nil clean]
      · have alone : sep ∉ [b] := by simpa using different
        simp [flushed, ih alone clean]

theorem fromUtf8Lossy_join {sep : UInt8} (ascii : sep < 0x80) (lines : List Bytes) (tail : Bytes) :
    fromUtf8Lossy (Lines.join sep lines tail) =
      Lines.join sep (lines.map fromUtf8Lossy) (fromUtf8Lossy tail) := by
  induction lines with
  | nil => rfl
  | cons line lines ih =>
      rw [Lines.join_cons, fromUtf8Lossy_ascii _ _ ascii, ih, List.map_cons, Lines.join_cons]

/-- The lines of a text are the texts of the lines. -/
theorem split_fromUtf8Lossy {sep : UInt8} (ascii : sep < 0x80) (bytes : Bytes) :
    Lines.split sep (fromUtf8Lossy bytes) =
      ((Lines.split sep bytes).1.map fromUtf8Lossy, fromUtf8Lossy (Lines.split sep bytes).2) := by
  have clean := Lines.split_pieces_clean sep bytes
  have whole := fromUtf8Lossy_join ascii (Lines.split sep bytes).1 (Lines.split sep bytes).2
  rw [Lines.join_split] at whole
  rw [whole]
  apply Lines.split_join
  · intro line inside
    rcases List.mem_map.mp inside with ⟨source, member, rfl⟩
    exact notMem_decodeFrom ascii List.not_mem_nil (clean.1 source member)
  · exact notMem_decodeFrom ascii List.not_mem_nil clean.2

end Utf8
end CapsuleEmit
