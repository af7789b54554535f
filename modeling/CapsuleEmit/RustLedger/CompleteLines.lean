import CapsuleEmit.RustLedger.Concrete
import CapsuleEmit.RustLedger.Reading

namespace CapsuleEmit
namespace RustLedger

open Utf8 (Valid fromUtf8Lossy)

/-!
# The checkpoint reader and `open`

The checkpoint reader goes over the same file on its own.  It splits bytes
where `open` splits their text, and it counts its offsets in bytes.  The two
agree on every file whose complete lines are UTF-8, and `open` keeps the
lines of no other file readable.
-/

/-! ## The reader -/

/-- A complete line, with where it starts and where the next one does. -/
structure CompleteLine where
  start : Nat
  stop : Nat
  capsuleId : String

inductive CheckpointStateError where
  | malformedLine (line : Nat) (source : String)
  | missingCapsuleId (line : Nat)
  | badCapsuleId (line : Nat) (capsuleId : String)
  deriving DecidableEq

/-- `u8::is_ascii_whitespace` -/
def isAsciiWhitespace (b : UInt8) : Bool := b = 32 || b = 9 || b = 10 || b = 12 || b = 13

/-- `record_id_from_hex` -/
def recordIdFromHex (text : String) : Option Bytes :=
  (hexDecode text).filter (fun bytes => bytes.length = 32)

theorem recordIdFromHex_of_isDigest {id : String} (digest : IsDigest id) :
    (recordIdFromHex id).isSome = true := by
  rcases digest with ⟨bytes, length, rfl⟩
  simp [recordIdFromHex, length]

section

variable (packages : Packages)

/-- The loop of `read_complete_lines`: blank lines are skipped. -/
def readLinesFrom : List Bytes → Nat → Nat → Except CheckpointStateError (List CompleteLine)
  | [], _, _ => .ok []
  | text :: rest, offset, lineNo =>
      if text.all isAsciiWhitespace then
        readLinesFrom rest (offset + text.length + 1) (lineNo + 1)
      else do
        let value ← (packages.decodeRecord text).mapError (.malformedLine (lineNo + 1))
        let capsuleId ← value.capsuleId.elim (.error (.missingCapsuleId (lineNo + 1))) .ok
        ensure (recordIdFromHex capsuleId).isSome (.badCapsuleId (lineNo + 1) capsuleId)
        let found ← readLinesFrom rest (offset + text.length + 1) (lineNo + 1)
        return ⟨offset, offset + text.length + 1, capsuleId⟩ :: found

/-- `read_complete_lines`: the complete lines of a file from a byte on. -/
def readCompleteLines (capsules : Bytes) (start linesBefore : Nat) :
    Except CheckpointStateError (List CompleteLine) :=
  readLinesFrom packages (Lines.split newline (capsules.drop start)).1 start linesBefore

end

section

variable {packages : Packages} {indexer : Value → List String} (lawful : packages.Lawful)

include lawful

/-- A line with a record on it is not blank. -/
theorem not_blank_of_decodeRecord {text : Bytes} {record : Value}
    (decoded : packages.decodeRecord text = .ok record) :
    text.all isAsciiWhitespace = false := by
  rcases lawful.ends text record decoded with ⟨space, -, front, b, same, visible, -⟩
  have solid : isAsciiWhitespace b = false := by
    simp only [isAsciiWhitespace, Bool.or_eq_false_iff, decide_eq_false_iff_not]
    have above : ∀ c : UInt8, c ≤ 32 → b ≠ c := fun c low equal =>
      absurd (UInt8.lt_of_lt_of_le visible (equal ▸ low)) (UInt8.lt_irrefl 32)
    exact ⟨⟨⟨⟨above _ (by decide), above _ (by decide)⟩, above _ (by decide)⟩,
      above _ (by decide)⟩, above _ (by decide)⟩
  rw [same, List.all_append, List.all_cons, solid, Bool.false_and, Bool.and_false]

/-- The checkpoint reader finds the lines a ledger holds. -/
theorem readLinesFrom_held {held : List LedgerLine} {lines : List Bytes} {offset : Nat}
    (related : List.Forall₂ (HeldAt packages) held (filled offset lines)) (lineNo : Nat) :
    ∃ found, readLinesFrom packages lines offset lineNo = .ok found ∧
      found.map (fun line => (line.capsuleId, line.start)) =
        held.map (fun line => (line.capsuleId, line.offset)) := by
  induction lines generalizing held offset lineNo with
  | nil =>
      cases related
      exact ⟨[], rfl, rfl⟩
  | cons line lines ih =>
      rw [filled_cons] at related
      rw [readLinesFrom]
      split at related
      · next empty =>
          rw [List.isEmpty_iff] at empty
          subst empty
          exact ih related (lineNo + 1)
      · next filled =>
          cases related with
          | cons first rest =>
              rcases first with ⟨record, id, decoded, stored, computed, same⟩
              rcases ih rest (lineNo + 1) with ⟨found, read, alike⟩
              have digest := isDigest_of_computeCapsuleId lawful computed
              have isId := recordIdFromHex_of_isDigest digest
              rw [not_blank_of_decodeRecord lawful decoded, if_neg Bool.false_ne_true, decoded]
              refine ⟨⟨offset, offset + line.length + 1, id⟩ :: found, ?_, ?_⟩
              · simp only [Except.mapError, ok_bind, stored, Option.elim_some, isId, ensure_true,
                  read, pure_eq_ok]
              · rw [List.map_cons, List.map_cons, alike, same]
                rfl

end

/-! ## When `open` addresses the lines of its file -/

/-- The file of an opened ledger is the original through its last newline, every
line it holds is at its offset and reads back as the record that was admitted,
the index knows these lines only, and the checkpoint reader finds them. -/
structure Addressed (packages : Packages) (original : Bytes) (opened : Opened) : Prop where
  file : opened.disk.capsules = complete original
  lines : List.Forall₂ (fun line place => line.offset = place.1 ∧
      Lines.readAt opened.disk.capsules (line.offset, place.2.length) = some place.2 ∧
      ∃ record, packages.decodeRecord (fromUtf8Lossy place.2) = .ok record ∧
        record.capsuleId = some line.capsuleId ∧
        line = LedgerLine.new line.capsuleId line.offset record ∧
        readLine packages opened.disk line.offset = .ok record)
    opened.ledger.lines (filled 0 (Lines.split newline original).1)
  index : Indexed opened.ledger
  checkpoint : ∃ found, readCompleteLines packages opened.disk.capsules 0 0 = .ok found ∧
    found.map (fun line => (line.capsuleId, line.start)) =
      opened.ledger.lines.map (fun line => (line.capsuleId, line.offset))

section

variable {packages : Packages} {indexer : Value → List String}

theorem mem_offsets_of_filled {lines : List Bytes} {place : Nat × Bytes}
    (inside : place ∈ filled 0 lines) : (place.1, place.2) ∈ Lines.offsets 0 lines :=
  (List.mem_filter.mp inside).1

theorem mem_offsets_of_mem (start : Nat) {lines : List Bytes} {line : Bytes}
    (inside : line ∈ lines) : ∃ offset, (offset, line) ∈ Lines.offsets start lines := by
  rcases List.mem_iff_append.mp inside with ⟨front, back, rfl⟩
  refine ⟨start + Lines.extent front, ?_⟩
  rw [Lines.offsets_append]
  exact List.mem_append_right _ List.mem_cons_self

/-- The file is cut after its last newline. -/
theorem openedWith_capsules {disk : Disk} (valid : Valid (complete disk.capsules))
    (ledger : Ledger) : (openedWith disk ledger).disk.capsules = complete disk.capsules := by
  have whole := Lines.join_split newline disk.capsules
  have texts := map_fromUtf8Lossy ((valid_join_iff _).mp valid)
  unfold openedWith complete
  split
  · next ended => rw [ended] at whole; exact whole.symm
  · dsimp only
    have length := Lines.length_join newline (Lines.split newline disk.capsules).1 []
    rw [List.length_nil, Nat.add_zero] at length
    have cut := Lines.join_tail_append newline (Lines.split newline disk.capsules).1 []
      (Lines.split newline disk.capsules).2
    rw [List.nil_append, whole] at cut
    have fits : Lines.extent (Lines.split newline disk.capsules).1 - disk.capsules.length = 0 := by
      have total := congrArg List.length cut
      rw [List.length_append] at total
      omega
    rw [texts, setLen, fits, List.replicate_zero, List.append_nil, ← length]
    exact (List.prefix_iff_eq_take.mp ⟨_, cut⟩).symm

/-- What an opened ledger on UTF-8 lines holds. -/
theorem addressed_of_valid (lawful : packages.Lawful) {disk : Disk} {opened : Opened}
    (opens : openWithIndexer packages indexer disk = .ok opened)
    (valid : Valid (complete disk.capsules)) : Addressed packages disk.capsules opened := by
  have utf8 := (valid_join_iff _).mp valid
  have texts := map_fromUtf8Lossy utf8
  have clean := (Lines.split_pieces_clean newline disk.capsules).1
  rw [open_eq, texts] at opens
  cases replayed : replayLines packages indexer disk.statements
      (Lines.split newline disk.capsules).1 1 0 .empty with
  | error e => simp [replayed, Except.map] at opens
  | ok ledger =>
      rw [replayed, Except.map, Except.ok.injEq] at opens
      have file := openedWith_capsules valid ledger
      rw [opens] at file
      have same : opened.ledger = ledger := by
        rw [← opens, openedWith]
        split <;> rfl
      rcases replayLines_held replayed with ⟨held, lines, related⟩
      rw [← same, Ledger.empty, List.nil_append] at lines
      refine ⟨file, ?_, ?_, ?_⟩
      · rw [lines]
        refine forall₂_imp_of_mem related (fun line place inside heldAt => ?_)
        rcases heldAt with ⟨record, id, decoded, stored, computed, rfl⟩
        have member := mem_offsets_of_filled inside
        rcases place_of_mem_offsets member with ⟨front, back, shape, -⟩
        have textual : Valid place.2 := utf8 place.2 (by rw [shape]; simp)
        refine ⟨rfl, ?_, record, ?_, stored, rfl, ?_⟩
        · rw [file]
          exact Lines.readAt_of_mem_offsets newline member []
        · rw [Utf8.fromUtf8Lossy_of_valid textual]
          exact decoded
        · have read := @readLine_of_mem packages _ [] _ _ lawful clean member textual
            opened.disk.statements record decoded
          rw [← complete, ← file] at read
          exact read
      · rw [same]
        exact replayLines_indexed replayed (fun id offset found => by cases found)
      · rw [lines, file, readCompleteLines, List.drop_zero, complete,
          Lines.split_join clean List.not_mem_nil]
        exact readLinesFrom_held lawful related 0

/-- Lines that read back are UTF-8. -/
theorem valid_of_addressed {original : Bytes} {opened : Opened}
    (addressed : Addressed packages original opened) : Valid (complete original) := by
  have clean := (Lines.split_pieces_clean newline original).1
  apply (valid_join_iff _).mpr
  intro line inside
  by_cases empty : line = []
  · rw [empty]
    exact Utf8.valid_nil
  · rcases mem_offsets_of_mem 0 inside with ⟨offset, member⟩
    have held : (offset, line) ∈ filled 0 (Lines.split newline original).1 :=
      List.mem_filter.mpr ⟨member, by simpa using empty⟩
    rcases exists_of_forall₂ addressed.lines held with ⟨entry, -, place, -, record, -, -, -, read⟩
    rcases opened with ⟨ledger, torn, capsules, statements⟩
    have file : capsules = complete original := addressed.file
    dsimp only at read place
    rw [file, complete, place] at read
    exact valid_of_readLine clean member read

/-- A ledger that opens addresses the lines of its file exactly when they are UTF-8. -/
theorem addressed_iff_valid (lawful : packages.Lawful) {disk : Disk} {opened : Opened}
    (opens : openWithIndexer packages indexer disk = .ok opened) :
    Addressed packages disk.capsules opened ↔ Valid (complete disk.capsules) :=
  ⟨valid_of_addressed, addressed_of_valid lawful opens⟩

end

/-! ## One line with U+FFFD in it -/

/-- What its line has before and after the note. -/
def noteFront : Bytes := [123, 34, 110, 111, 116, 101, 34, 58]

def noteBack : Bytes :=
  utf8 ",\"capsule_id\":\"" ++ utf8 (Sha256.hex noteDigest) ++ utf8 "\"\x7d"

/-- The bytes of a record whose note is written as it is. -/
theorem noteRecord_toText {note : String}
    (plain : (utf8 note).flatMap JsonText.escapeByte = utf8 note) (digest : Bytes) :
    (noteRecord note digest).toText = noteFront ++ 34 :: (utf8 note ++ 34 ::
      (utf8 ",\"capsule_id\":\"" ++ utf8 (Sha256.hex digest) ++ utf8 "\"\x7d")) := by
  have name : utf8 "note" = [110, 111, 116, 101] := rfl
  have id : utf8 "capsule_id" = [99, 97, 112, 115, 117, 108, 101, 95, 105, 100] := rfl
  have between : utf8 ",\"capsule_id\":\"" = 44 :: 34 :: utf8 "capsule_id" ++ [34, 58, 34] := rfl
  have last : utf8 "\"\x7d" = [34, 125] := rfl
  simp only [Value.toText, noteRecord, objectOf, textOf, List.map_cons, List.map_nil,
    Json.ofString, JsonText.write, JsonText.writeMembers, JsonText.writeString, escape_hex, plain,
    between, last, name, id]
  simp [JsonText.escapeByte, noteFront]

theorem replacedRecord_toText :
    replacedRecord.toText = noteFront ++ 34 :: (Utf8.replacement ++ 34 :: noteBack) :=
  noteRecord_toText (by decide) _

/-- A file with the line of the record, and the given bytes for its note. -/
def noteDisk (note : Bytes) : Disk where
  capsules := noteFront ++ 34 :: (note ++ 34 :: noteBack) ++ [newline]
  statements := fun id => if id = Sha256.hex noteDigest then some noteStatement.message else none

def noteLedger : Ledger :=
  Ledger.empty.enter counterpartyCitationKeys (Sha256.hex noteDigest) 0 replacedRecord

section

variable (note : String) (digest : Bytes)

theorem noteRecord_chained : isPadding (noteRecord note digest) = false := by
  rw [isPadding, Value.str?, noteRecord_absent _ _ (by decide) (by decide)]
  rfl

theorem parentOf_noteRecord : parentOf (noteRecord note digest) = none := by
  rw [parentOf, noteRecord_absent _ _ (by decide) (by decide)]
  rfl

theorem noteRecord_decoded {digests : List (Bytes × Bytes)} {signed : List SignedStatement} :
    (tablePackages digests signed).decodeRecord (noteRecord note digest).toText =
      .ok (noteRecord note digest) :=
  plainDecodeRecord_toText (nesting_noteRecord note digest)

/-- The Capsule ID of a record with a note recomputes where its canonical text is known. -/
theorem noteRecord_computed (signed : List SignedStatement) :
    computeCapsuleId (tablePackages [(noteText note, digest)] signed) (noteRecord note digest) =
      .ok (Sha256.hex digest) := by
  have kept : (tablePackages [(noteText note, digest)] signed).isLocalOnlyField (utf8 "note") =
      false := by
    rw [tablePackages_isLocalOnlyField]
    decide
  rw [noteRecord_preimage _ _ _ kept]
  exact @tablePackages_jsonDigest _ _ _ (noteText note, digest)
    (List.find?_cons_of_pos (decide_eq_true rfl))

/-- A record with a note matches the only statement that is known, if it is the payload. -/
theorem noteRecord_matched (digests : List (Bytes × Bytes)) {statement : SignedStatement}
    (payload : statement.payload = (noteRecord note digest).toText) :
    checkStatementMatches (tablePackages digests [statement]) (noteRecord note digest)
      (Sha256.hex digest) statement.message = .ok () := by
  have unsigned : producerVerifyingKey (tablePackages digests [statement])
      (noteRecord note digest) = none := by
    rw [producerVerifyingKey, Value.str?, noteRecord_absent _ _ (by decide) (by decide)]
    rfl
  have parsed := @tablePackages_parseSign1 digests _ (separate_singleton statement) statement
    (List.mem_singleton_self _)
  rw [payload] at parsed
  have decoded := @noteRecord_decoded note digest digests [statement]
  rw [checkStatementMatches, matchedPayload, unsigned, statementPayload, parsed]
  simp only [Except.mapError, ok_bind, Option.elim_some, decoded]
  rw [noteRecord_capsuleId, decide_eq_true rfl, ensure_true]

end

theorem note_decoded : notePackages.decodeRecord replacedRecord.toText = .ok replacedRecord :=
  noteRecord_decoded _ _

theorem note_admitted (note : Bytes) :
    Ledger.empty.admit notePackages counterpartyCitationKeys 1 0 replacedRecord
      (readStatementFile (noteDisk note).statements 1) = .ok noteLedger := by
  have chained : isPadding replacedRecord = false := noteRecord_chained _ _
  refine admit_eq_ok_iff.mpr ⟨Sha256.hex noteDigest, noteStatement.message,
    noteRecord_capsuleId _ _, noteRecord_computed _ _ _, fun padding => ?_,
    Or.inr (parentOf_noteRecord _ _), ?_, noteRecord_matched _ _ _ rfl, rfl⟩
  · rw [chained] at padding
    cases padding
  · simp [readStatementFile, noteDisk]

theorem note_pieces {note : Bytes} (clean : newline ∉ note) :
    Lines.split newline (noteDisk note).capsules =
      ([noteFront ++ 34 :: (note ++ 34 :: noteBack)], []) := by
  have outside := newline_notMem_toText replacedRecord
  rw [replacedRecord_toText] at outside
  have whole : Lines.Clean newline (noteFront ++ 34 :: (note ++ 34 :: noteBack)) := by
    rw [Lines.Clean]
    simp only [List.mem_append, List.mem_cons, not_or] at outside ⊢
    exact ⟨outside.1, outside.2.1, clean, outside.2.2.2⟩
  rw [noteDisk, Lines.split_clean_append whole]
  rfl

section

variable {note : Bytes} (text : fromUtf8Lossy note = Utf8.replacement)

include text

theorem note_text : fromUtf8Lossy (noteFront ++ 34 :: (note ++ 34 :: noteBack)) =
    replacedRecord.toText := by
  have front : fromUtf8Lossy noteFront = noteFront := by decide
  have back : fromUtf8Lossy noteBack = noteBack := by
    apply Utf8.fromUtf8Lossy_of_valid
    exact Utf8.valid_append 
      (Utf8.valid_append (Utf8.valid_utf8 _) (Utf8.valid_utf8 _)) (Utf8.valid_utf8 _)
  rw [Utf8.fromUtf8Lossy_ascii _ _ (by decide), Utf8.fromUtf8Lossy_ascii _ _ (by decide), front,
    back, text, replacedRecord_toText]

theorem note_opens (clean : newline ∉ note) :
    openWithIndexer notePackages counterpartyCitationKeys (noteDisk note) =
      .ok ⟨noteLedger, none, noteDisk note⟩ := by
  have pieces := note_pieces clean
  have filled : replacedRecord.toText.isEmpty = false := by
    rw [replacedRecord_toText]
    rfl
  rw [open_eq, pieces]
  simp only [List.map_cons, List.map_nil, note_text text, replayLines, filled, Bool.false_eq_true,
    if_false, note_decoded, Except.mapError, ok_bind, note_admitted, Except.map, openedWith, pieces,
    if_true]

end

/-- The file with U+FFFD in it is addressed. -/
theorem note_addressed :
    Addressed notePackages (noteDisk Utf8.replacement).capsules
      ⟨noteLedger, none, noteDisk Utf8.replacement⟩ := by
  refine (addressed_iff_valid notePackages_lawful (note_opens (by decide) (by decide))).mpr ?_
  rw [complete, note_pieces (by decide), valid_join_iff, List.forall_mem_singleton,
    ← replacedRecord_toText]
  exact valid_toText replacedRecord

/-- With the byte `0xFF` for U+FFFD the ledger opens and its line does not read back. -/
theorem replaced_unaddressed :
    openWithIndexer notePackages counterpartyCitationKeys (noteDisk [0xFF]) =
        .ok ⟨noteLedger, none, noteDisk [0xFF]⟩ ∧
      ¬ Addressed notePackages (noteDisk [0xFF]).capsules
        ⟨noteLedger, none, noteDisk [0xFF]⟩ := by
  have text : fromUtf8Lossy [0xFF] = Utf8.replacement := by decide
  refine ⟨note_opens text (by decide), fun addressed => ?_⟩
  have valid := valid_of_addressed addressed
  rw [complete, note_pieces (by decide), valid_join_iff, List.forall_mem_singleton] at valid
  have same := Utf8.fromUtf8Lossy_of_valid valid
  rw [note_text text, replacedRecord_toText] at same
  have first := (List.cons.inj (List.append_cancel_left same)).2
  rw [Utf8.replacement] at first
  exact absurd (List.cons.inj first).1 (by decide)

end RustLedger
end CapsuleEmit
