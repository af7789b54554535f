import CapsuleEmit.RustLedger.Flat

namespace CapsuleEmit
namespace RustLedger

open Utf8 (Valid fromUtf8Lossy)

/-!
# Opening a ledger on arbitrary bytes

A ledger that opens has admitted every complete line that is not empty, at
the offset the line has in the text of the file.  Where the complete lines
are UTF-8, the text is the bytes, so the offsets address the lines, the cut
is after the last newline, and the checkpoint reader finds the same lines.
Where one is not, `read_line` refuses it.
-/

/-! ## The lines of a file -/

/-- The bytes up to the last newline and with it. -/
def complete (capsules : Bytes) : Bytes := Lines.join newline (Lines.split newline capsules).1 []

/-- The lines that are not empty, with the offsets they start at. -/
def filled (offset : Nat) (lines : List Bytes) : List (Nat × Bytes) :=
  (Lines.offsets offset lines).filter (fun place => !place.2.isEmpty)

@[simp] theorem filled_nil (offset : Nat) : filled offset [] = [] := rfl

theorem filled_cons (offset : Nat) (line : Bytes) (lines : List Bytes) :
    filled offset (line :: lines) =
      if line.isEmpty then filled (offset + line.length + 1) lines
      else (offset, line) :: filled (offset + line.length + 1) lines := by
  cases line <;> rfl

theorem parts_eq (text : Bytes) : parts text = (Lines.split newline text).1 ++
    if (Lines.split newline text).2 = [] then [] else [(Lines.split newline text).2] := by
  have last : ((Lines.split newline text).1 ++ [(Lines.split newline text).2]).getLast? =
      some (Lines.split newline text).2 := by simp
  simp only [parts, last, Option.some.injEq]
  split_ifs <;> simp

theorem valid_join_iff (lines : List Bytes) :
    Valid (Lines.join newline lines []) ↔ ∀ line ∈ lines, Valid line := by
  have starts : ∀ rest : Bytes, Utf8.Starts (newline :: rest) := by
    intro rest b tail same
    cases same
    decide
  have single : Valid [newline] := Utf8.valid_ascii (by decide)
  induction lines with
  | nil => simp [Utf8.valid_nil]
  | cons line lines ih =>
      rw [Lines.join_cons, List.forall_mem_cons]
      apply Iff.trans _ (and_congr_right' ih)
      constructor
      · intro valid
        rcases Utf8.valid_cut valid (starts _) with ⟨first, rest⟩
        exact ⟨first, @Utf8.valid_tail [newline] _ rest single⟩
      · rintro ⟨first, rest⟩
        exact Utf8.valid_append first (@Utf8.valid_append [newline] _ single rest)

/-- The text of UTF-8 lines is the lines. -/
theorem map_fromUtf8Lossy {lines : List Bytes} (valid : ∀ line ∈ lines, Valid line) :
    lines.map fromUtf8Lossy = lines := by
  conv_rhs => rw [← List.map_id lines]
  exact List.map_congr_left (fun line inside => Utf8.fromUtf8Lossy_of_valid (valid line inside))

/-! ## The replay of complete lines -/

section

variable {packages : Packages} {indexer : Value → List String}

theorem admit_eq_ok_iff {ledger ledger' : Ledger} {lineNo locator : Nat} {parsed : Value}
    {statement : String → Except LedgerError Bytes} :
    ledger.admit packages indexer lineNo locator parsed statement = .ok ledger' ↔
      ∃ id bytes, parsed.capsuleId = some id ∧ computeCapsuleId packages parsed = .ok id ∧
        (isPadding parsed = true → checkPaddingShape parsed = .ok ()) ∧
        (isPadding parsed = true ∨ parentOf parsed = ledger.chainHead) ∧
        statement id = .ok bytes ∧ checkStatementMatches packages parsed id bytes = .ok () ∧
        ledger' = ledger.enter indexer id locator parsed := by
  have stored : ∀ {id}, (parsed.capsuleId.elim (.error (.missingCapsuleId lineNo)) .ok :
      Except LedgerError String) = .ok id ↔ parsed.capsuleId = some id := by
    intro id
    cases parsed.capsuleId <;> simp
  simp only [ Ledger.admit, bind_eq_ok_iff, stored, checkCapsuleId_eq_ok_iff,
    checkPadding_eq_ok_iff, ensure_eq_ok_iff, Bool.or_eq_true, decide_eq_true_eq,
    checkStatement_eq_ok_iff, pure_eq_ok, Except.ok.injEq]
  constructor
  · rintro ⟨id, stored, -, computed, -, shaped, -, linked, bytes, found, -, matched, same⟩
    exact ⟨id, bytes, stored, computed, shaped, linked, found, matched, same.symm⟩
  · rintro ⟨id, bytes, stored, computed, shaped, linked, found, matched, same⟩
    exact ⟨id, stored, (), computed, (), shaped, (), linked, bytes, found, (), matched, same.symm⟩

end

section

variable (packages : Packages) (indexer : Value → List String)

/-- The loop of `open` over complete lines. -/
def replayLines (statements : String → Option Bytes) :
    List Bytes → Nat → Nat → Ledger → Except LedgerError Ledger
  | [], _, _, ledger => .ok ledger
  | line :: rest, lineNo, offset, ledger =>
      if line.isEmpty then
        replayLines statements rest (lineNo + 1) (offset + (line.length + 1)) ledger
      else do
        let parsed ← (packages.decodeRecord line).mapError .decode
        let ledger ← ledger.admit packages indexer lineNo offset parsed
          (readStatementFile statements lineNo)
        replayLines statements rest (lineNo + 1) (offset + (line.length + 1)) ledger

variable {packages indexer}

theorem openParts_complete (statements : String → Option Bytes) (lines : List Bytes)
    (lineNo offset : Nat) (ledger : Ledger) :
    openParts packages indexer statements true lines lineNo offset ledger =
      (replayLines packages indexer statements lines lineNo offset ledger).map (·, none) := by
  induction lines generalizing lineNo offset ledger with
  | nil => rfl
  | cons line lines ih =>
      rw [openParts, replayLines]
      split
      · exact ih ..
      · simp only [Bool.not_true, Bool.and_false, Bool.false_eq_true, if_false, ih]
        rcases (packages.decodeRecord line).mapError LedgerError.decode with error | parsed
        · rfl
        · simp only [ok_bind]
          rcases ledger.admit packages indexer lineNo offset parsed
            (readStatementFile statements lineNo) with error | admitted <;> rfl

/-- A last line without its newline is where the file is cut. -/
theorem openParts_torn (statements : String → Option Bytes) (lines : List Bytes) {tail : Bytes}
    (torn : tail ≠ []) (lineNo offset : Nat) (ledger : Ledger) :
    openParts packages indexer statements false (lines ++ [tail]) lineNo offset ledger =
      (replayLines packages indexer statements lines lineNo offset ledger).map
        (·, some (offset + Lines.extent lines)) := by
  induction lines generalizing lineNo offset ledger with
  | nil =>
      rw [List.nil_append, openParts, if_neg (by simpa using torn)]
      rfl
  | cons line lines ih =>
      have place : offset + Lines.extent (line :: lines) =
          offset + (line.length + 1) + Lines.extent lines := by
        rw [Lines.extent_cons, ← Nat.add_assoc]
      rw [List.cons_append, openParts, replayLines, place]
      split
      · exact ih ..
      · have more : (lines ++ [tail]).isEmpty = false := by simp
        simp only [more, Bool.false_and, Bool.false_eq_true, if_false, ih]
        rcases (packages.decodeRecord line).mapError LedgerError.decode with error | parsed
        · rfl
        · simp only [ok_bind]
          rcases ledger.admit packages indexer lineNo offset parsed
            (readStatementFile statements lineNo) with error | admitted <;> rfl

/-- What the loop of `open` does: it replays the texts of the complete lines,
and cuts off the rest. -/
theorem openParts_parts (disk : Disk) :
    openParts packages indexer disk.statements (disk.capsules.getLast? = some newline)
        (parts (fromUtf8Lossy disk.capsules)) 1 0 .empty =
      (replayLines packages indexer disk.statements
        ((Lines.split newline disk.capsules).1.map fromUtf8Lossy) 1 0 .empty).map (fun ledger =>
          (ledger, if (Lines.split newline disk.capsules).2 = [] then none else
            some (Lines.extent ((Lines.split newline disk.capsules).1.map fromUtf8Lossy)))) := by
  have ended := Lines.split_tail_eq_nil_iff newline disk.capsules
  rw [parts_eq, @Utf8.split_fromUtf8Lossy newline (by decide) disk.capsules]
  dsimp only
  by_cases whole : (Lines.split newline disk.capsules).2 = []
  · rw [whole, Utf8.fromUtf8Lossy_nil, if_pos rfl, List.append_nil]
    simp only [if_true]
    rcases ended.mp whole with empty | last
    · rw [empty]
      rfl
    · rw [decide_eq_true last]
      exact openParts_complete ..
  · have unended : ¬ disk.capsules.getLast? = some newline := fun last =>
      whole (ended.mpr (Or.inr last))
    have torn : fromUtf8Lossy (Lines.split newline disk.capsules).2 ≠ [] := fun empty =>
      whole (Utf8.fromUtf8Lossy_eq_nil.mp empty)
    rw [if_neg torn, decide_eq_false unended, openParts_torn _ _ torn]
    simp only [whole, if_false, Nat.zero_add]

/-- What `open` gives when the replay of the complete lines does. -/
def openedWith (disk : Disk) (ledger : Ledger) : Opened :=
  if (Lines.split newline disk.capsules).2 = [] then ⟨ledger, none, disk⟩
  else
    let cut := Lines.extent ((Lines.split newline disk.capsules).1.map fromUtf8Lossy)
    ⟨ledger, some cut, setLen cut disk.capsules, disk.statements⟩

theorem open_eq (disk : Disk) : openWithIndexer packages indexer disk =
    (replayLines packages indexer disk.statements
      ((Lines.split newline disk.capsules).1.map fromUtf8Lossy) 1 0 .empty).map
        (openedWith disk) := by
  rw [openWithIndexer]
  dsimp only
  rw [openParts_parts]
  rcases replayLines packages indexer disk.statements
    ((Lines.split newline disk.capsules).1.map fromUtf8Lossy) 1 0 .empty with error | ledger
  · rfl
  · simp only [Except.map, ok_bind, pure_eq_ok, openedWith]
    split <;> rfl

/-! ## The lines a replay holds -/

/-- A line of a ledger that was read from the bytes at a place. -/
def HeldAt (packages : Packages) (line : LedgerLine) (place : Nat × Bytes) : Prop :=
  ∃ record id, packages.decodeRecord place.2 = .ok record ∧ record.capsuleId = some id ∧
    computeCapsuleId packages record = .ok id ∧ line = LedgerLine.new id place.1 record

/-- A replay holds the lines that are not empty, at their offsets. -/
theorem replayLines_held {statements : String → Option Bytes} {lines : List Bytes}
    {lineNo offset : Nat} {ledger ledger' : Ledger}
    (replayed : replayLines packages indexer statements lines lineNo offset ledger = .ok ledger') :
    ∃ held, ledger'.lines = ledger.lines ++ held ∧
      List.Forall₂ (HeldAt packages) held (filled offset lines) := by
  induction lines generalizing lineNo offset ledger with
  | nil =>
      cases replayed
      exact ⟨[], by simp, List.Forall₂.nil⟩
  | cons line lines ih =>
      rw [replayLines] at replayed
      rw [filled_cons]
      split at replayed
      · next empty =>
          rw [if_pos empty]
          exact ih replayed
      · next filled =>
          rw [if_neg filled]
          rcases bind_eq_ok_iff.mp replayed with ⟨parsed, decoded, replayed⟩
          rcases bind_eq_ok_iff.mp replayed with ⟨admitted, checked, replayed⟩
          rcases ih replayed with ⟨held, same, related⟩
          rcases admit_eq_ok_iff.mp checked with ⟨id, bytes, stored, computed, -, -, -, -, rfl⟩
          refine ⟨LedgerLine.new id offset parsed :: held, by rw [same]; simp,
            List.Forall₂.cons ?_ related⟩
          exact ⟨parsed, id, mapError_eq_ok_iff.mp decoded, stored, computed, rfl⟩

/-- The index knows the lines of the ledger only. -/
def Indexed (ledger : Ledger) : Prop := ∀ id offset, ledger.index id = some offset →
  ∃ line ∈ ledger.lines, line.capsuleId = id ∧ line.offset = offset

theorem indexed_enter {ledger : Ledger} (indexed : Indexed ledger) (id : String) (offset : Nat)
    (record : Value) : Indexed (ledger.enter indexer id offset record) := by
  have old : ∀ name place, ledger.index name = some place →
      ∃ line ∈ (ledger.enter indexer id offset record).lines,
        line.capsuleId = name ∧ line.offset = place := by
    intro name place found
    rcases indexed name place found with ⟨line, inside, named⟩
    exact ⟨line, by rw [Ledger.enter_lines]; exact List.mem_append_left _ inside, named⟩
  intro name place found
  rw [Ledger.enter_index] at found
  split at found
  · exact old name place found
  · by_cases same : name = id
    · subst same
      rw [Function.update_self, Option.some.injEq] at found
      exact ⟨LedgerLine.new name offset record, by simp, rfl, found⟩
    · rw [Function.update_of_ne same] at found
      exact old name place found

theorem replayLines_indexed {statements : String → Option Bytes} {lines : List Bytes}
    {lineNo offset : Nat} {ledger ledger' : Ledger}
    (replayed : replayLines packages indexer statements lines lineNo offset ledger = .ok ledger')
    (indexed : Indexed ledger) : Indexed ledger' := by
  induction lines generalizing lineNo offset ledger with
  | nil =>
      cases replayed
      exact indexed
  | cons line lines ih =>
      rw [replayLines] at replayed
      split at replayed
      · exact ih replayed indexed
      · rcases bind_eq_ok_iff.mp replayed with ⟨parsed, decoded, replayed⟩
        rcases bind_eq_ok_iff.mp replayed with ⟨admitted, checked, replayed⟩
        rcases admit_eq_ok_iff.mp checked with ⟨id, bytes, -, -, -, -, -, -, rfl⟩
        exact ih replayed (indexed_enter indexed _ _ _)

/-! ## Reading a line back -/

theorem not_isWhiteSpace : ∀ n < 0x80, 32 < n →
    Produce.isWhiteSpace (Char.ofNat n) = false := by
  decide

theorem isWhiteSpace_of_isSpace {b : UInt8} (space : JsonText.isSpace b = true) :
    Produce.isWhiteSpace (Char.ofNat b.toNat) = true ∧ b < 0x80 := by
  simp only [JsonText.isSpace, Bool.or_eq_true, decide_eq_true_eq] at space
  rcases space with ((rfl | rfl) | rfl) | rfl <;> decide

theorem flatMap_ascii {bytes : Bytes} (ascii : ∀ b ∈ bytes, b < 0x80) :
    (bytes.map (fun b => Char.ofNat b.toNat)).flatMap String.utf8EncodeChar = bytes := by
  induction bytes with
  | nil => rfl
  | cons b bytes ih =>
      have small : b.toNat < 0x80 := UInt8.lt_iff_toNat_lt.mp (ascii b List.mem_cons_self)
      rw [List.map_cons, List.flatMap_cons, Utf8.encode_ascii small, UInt8.ofNat_toNat,
        ih (fun c inside => ascii c (List.mem_cons_of_mem b inside))]
      rfl

/-- Only the whitespace after the last visible character is trimmed. -/
theorem utf8_trimEnd {text : String} {front space : Bytes} {b : UInt8}
    (whole : utf8 text = front ++ b :: space) (visible : 32 < b) (ascii : b < 0x80)
    (blank : space.all JsonText.isSpace = true) : utf8 (trimEnd text) = front ++ [b] := by
  have valid : Valid (front ++ b :: space) := by
    rw [← whole, Valid, utf8?_utf8]
    rfl
  have starts : Utf8.Starts (b :: space) := by
    intro c tail same
    cases same
    rw [Utf8.isContinuation, Bool.and_eq_false_iff, decide_eq_false_iff_not, UInt8.not_le]
    exact Or.inl ascii
  rcases Utf8.valid_iff.mp (Utf8.valid_cut valid starts).1 with ⟨chars, rfl⟩
  have spaces := fun c inside => isWhiteSpace_of_isSpace (List.all_eq_true.mp blank c inside)
  have last : String.utf8EncodeChar (Char.ofNat b.toNat) = [b] := by
    rw [Utf8.encode_ascii (UInt8.lt_iff_toNat_lt.mp ascii), UInt8.ofNat_toNat]
  have same : text = String.ofList
      (chars ++ Char.ofNat b.toNat :: space.map (fun c => Char.ofNat c.toNat)) := by
    apply utf8_injective
    rw [whole, Utf8.utf8_eq_flatMap, String.toList_ofList, List.flatMap_append, List.flatMap_cons,
      last, flatMap_ascii (fun c inside => (spaces c inside).2)]
    rfl
  have dropped : ((space.map (fun c => Char.ofNat c.toNat)).reverse ++
      Char.ofNat b.toNat :: chars.reverse).dropWhile Produce.isWhiteSpace =
        Char.ofNat b.toNat :: chars.reverse := by
    rw [List.dropWhile_append_of_pos]
    · exact List.dropWhile_cons_of_neg (by
        rw [not_isWhiteSpace _ (UInt8.lt_iff_toNat_lt.mp ascii) (UInt8.lt_iff_toNat_lt.mp visible)]
        decide)
    · intro c inside
      rcases List.mem_map.mp (List.mem_reverse.mp inside) with ⟨byte, member, rfl⟩
      exact (spaces byte member).1
  rw [trimEnd, same, String.toList_ofList, List.reverse_append, List.reverse_cons,
    List.append_assoc, List.singleton_append, dropped, List.reverse_cons, List.reverse_reverse,
    Utf8.utf8_eq_flatMap, String.toList_ofList, List.flatMap_append, List.flatMap_cons, last]
  rfl

/-- The text at the place of a line is the line and its newline. -/
theorem readTextLine_append {line : Bytes} (clean : Lines.Clean newline line) (front rest : Bytes) :
    readTextLine (front ++ (line ++ newline :: rest)) front.length = utf8? (line ++ [newline]) := by
  have taken : (line ++ newline :: rest).takeWhile (· ≠ newline) = line := by
    rw [List.takeWhile_append_of_pos]
    · simp
    · intro b inside
      exact decide_eq_true (fun same => clean (same ▸ inside))
  rw [readTextLine, List.drop_left, taken, if_pos (by simp)]

theorem readTextLine_join {line : Bytes} (clean : Lines.Clean newline line)
    (front : List Bytes) (rest : Bytes) :
    readTextLine (Lines.join newline front (line ++ newline :: rest)) (Lines.extent front) =
      utf8? (line ++ [newline]) := by
  have length := Lines.length_join newline front []
  have split := Lines.join_tail_append newline front [] (line ++ newline :: rest)
  rw [List.nil_append] at split
  rw [List.length_nil, Nat.add_zero] at length
  rw [← split, ← length]
  exact readTextLine_append clean _ rest

/-- A line of a file, with what is before and after it. -/
theorem place_of_mem_offsets {lines : List Bytes} {offset start : Nat} {line : Bytes}
    (member : (offset, line) ∈ Lines.offsets start lines) :
    ∃ front back, lines = front ++ line :: back ∧ offset = start + Lines.extent front := by
  induction lines generalizing start with
  | nil => cases member
  | cons other lines ih =>
      rw [Lines.offsets, List.mem_cons] at member
      rcases member with first | member
      · cases first
        exact ⟨[], lines, rfl, rfl⟩
      · rcases ih member with ⟨front, back, rfl, place⟩
        refine ⟨other :: front, back, rfl, ?_⟩
        rw [place, Lines.extent_cons]
        omega

/-- A text that is a line and its newline is read as the record on the line. -/
theorem readLine_of_text (lawful : packages.Lawful) {capsules line : Bytes} {offset : Nat}
    (found : readTextLine capsules offset = utf8? (line ++ [newline])) (valid : Valid line)
    (statements : String → Option Bytes) {record : Value}
    (decoded : packages.decodeRecord line = .ok record) :
    readLine packages ⟨capsules, statements⟩ offset = .ok record := by
  have whole : Valid (line ++ [newline]) :=
    Utf8.valid_append valid (Utf8.valid_ascii (by decide))
  rcases Option.isSome_iff_exists.mp whole with ⟨text, shape⟩
  rcases lawful.ends line record decoded with ⟨space, blank, front, b, same, visible, ascii⟩
  have text' : utf8 text = front ++ b :: (space ++ [newline]) := by
    rw [Utf8.utf8_of_utf8? shape, same]
    simp
  have trimmed := utf8_trimEnd text' visible ascii (by rw [List.all_append, blank]; rfl)
  rw [readLine, found, shape, Option.elim_some, ok_bind, trimmed, mapError_eq_ok_iff,
    ← lawful.spaced _ space record blank, List.append_assoc, List.singleton_append, ← same]
  exact decoded

section

variable {lines : List Bytes} {tail : Bytes} {offset : Nat} {line : Bytes}

theorem readTextLine_of_mem (clean : ∀ line ∈ lines, Lines.Clean newline line)
    (member : (offset, line) ∈ Lines.offsets 0 lines) :
    readTextLine (Lines.join newline lines tail) offset = utf8? (line ++ [newline]) := by
  rcases place_of_mem_offsets member with ⟨front, back, rfl, place⟩
  rw [place, Nat.zero_add, Lines.join_append, Lines.join_cons]
  exact readTextLine_join (clean line (by simp)) front _

/-- A line that is read back is UTF-8. -/
theorem valid_of_readLine (clean : ∀ line ∈ lines, Lines.Clean newline line)
    (member : (offset, line) ∈ Lines.offsets 0 lines) {statements : String → Option Bytes}
    {record : Value}
    (read : readLine packages ⟨Lines.join newline lines tail, statements⟩ offset = .ok record) :
    Valid line := by
  rw [readLine, readTextLine_of_mem clean member] at read
  rcases bind_eq_ok_iff.mp read with ⟨text, decoded, -⟩
  have valid : Valid (line ++ [newline]) := by
    cases shape : utf8? (line ++ [newline]) with
    | none => simp [shape] at decoded
    | some text => simp [Valid, shape]
  refine (Utf8.valid_cut valid ?_).1
  intro b tail same
  cases same
  decide

/-- A line that is UTF-8 is read back as it was admitted. -/
theorem readLine_of_mem (lawful : packages.Lawful)
    (clean : ∀ line ∈ lines, Lines.Clean newline line)
    (member : (offset, line) ∈ Lines.offsets 0 lines) (valid : Valid line)
    (statements : String → Option Bytes) {record : Value}
    (decoded : packages.decodeRecord line = .ok record) :
    readLine packages ⟨Lines.join newline lines tail, statements⟩ offset = .ok record :=
  readLine_of_text lawful (readTextLine_of_mem clean member) valid statements decoded

end

end

end RustLedger
end CapsuleEmit
