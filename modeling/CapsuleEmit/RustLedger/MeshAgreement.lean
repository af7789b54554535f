import CapsuleEmit.RustLedger.Faults
import CapsuleEmit.RustLedger.Journal
import CapsuleEmit.RustLedger.MeshLines

namespace CapsuleEmit
namespace RustLedger

open ArtifactStore (bigEndian)
open Utf8 (Valid)
open Python (splitlines)

/-!
# The two readers of a mesh ledger

What `open` holds of a file and what the Python reader makes of it are compared
through the journal of the ledger.  They agree as long as no text has one of
the three characters that Python takes for the end of a line and serde_json
does not escape.  An interrupted append is cut off by the one and makes the
other fail or count one line more.
-/

variable {packages : Packages} {indexer : Value → List String} {Time : Type}

/-! ## Agreement -/

/-- The entries of the log are the lines of the opened ledger, numbered from 1,
with their Capsule IDs, and its records are the first lines that are not
padding with a Capsule ID. -/
structure Mirrors (packages : Packages) (opened : Opened) (log : MeshLog Time) : Prop where
  lines : List.Forall₂ (fun line json => ∃ record,
    readLine packages opened.disk line.offset = .ok record ∧ record.tree = json)
    opened.ledger.lines log.lines
  numbers : log.entries.map MeshEntry.seq = List.range' 1 opened.ledger.lines.length
  values : log.entries.map (fun entry => some entry.value) =
    opened.ledger.lines.map (fun line => Python.fromHex line.capsuleId)
  records : ∀ id, log.records id = opened.ledger.lines.findIdx? (fun line =>
    !line.padding && line.capsuleId = id)

/-- Rust and Python open the directory and hold the same lines. -/
def Agrees (packages : Packages) (indexer : Value → List String) (reader : Reader Time)
    (disk : Disk) : Prop :=
  ∃ opened log, openWithIndexer packages indexer disk = .ok opened ∧
    meshLedgerLog reader disk.capsules = .ok log ∧ Mirrors packages opened log

theorem Copied.mirrors (lawful : packages.Lawful) {opened : Opened} {records : List Value}
    (stored : List.Forall₂ (Stored opened.disk) records opened.ledger.lines)
    {log : MeshLog Time} (copied : Copied records log) : Mirrors packages opened log where
  lines := by
    rw [copied.lines]
    refine List.Forall₂.flip (List.forall₂_map_left_iff.mpr (stored.imp ?_))
    exact fun record line stored => ⟨record, stored.readLine lawful, rfl⟩
  numbers := by rw [copied.numbers, stored.length_eq]
  values := by
    rw [copied.values]
    refine map_eq_of_forall₂ (fun record line stored => ?_) stored
    rw [stored.named]
    rfl
  records id := by
    have keys : records.map (fun record => !isPadding record && record.capsuleId = some id) =
        opened.ledger.lines.map (fun line => !line.padding && line.capsuleId = id) := by
      refine map_eq_of_forall₂ (fun record line stored => ?_) stored
      have padding : line.padding = isPadding record := congrArg LedgerLine.padding stored.entry
      rw [stored.named, padding]
      simp
    have place := congrArg (List.findIdx? (fun found : Bool => found)) keys
    rw [List.findIdx?_map, List.findIdx?_map] at place
    exact (copied.records id).trans place

/-! ## Runs -/

/-- What Python and Rust read alike. -/
def Shared (packages : Packages) : Condition := fun state record id statement =>
  Lasting packages state record id statement ∧ Readable record

/-- The condition of a reopened ledger, and that each record which passes the
checks is one that Python reads from one line. -/
def MeshGuard (packages : Packages) (state : State) (op : Op packages) : Prop :=
  Guard packages state op ∧
    match op with
    | .append capsule statement => ∀ id,
        Admissible packages state.ledger capsule id statement → Readable capsule
    | .appendPadding record statement => ∀ id,
        Admissible packages state.ledger record id statement → Readable record
    | .padToBucket .. => True

/-- A ledger whose records Python reads. -/
structure Mesh (packages : Packages) (indexer : Value → List String) (state : State)
    (records : List Value) : Prop where
  sound : Sound packages indexer state
  journal : Journal state records
  named : ∀ record ∈ records, Named record
  readable : ∀ record ∈ records, Readable record

theorem mesh_written (lawful : packages.Lawful) (state : State) (record : Value) (id : String)
    (statement : Bytes) (mesh : ∃ records, Mesh packages indexer state records)
    (admissible : Admissible packages state.ledger record id statement)
    (shared : Shared packages state record id statement) :
    ∃ records, Mesh packages indexer (state.written indexer record id statement) records := by
  rcases mesh with ⟨records, sound, journal, named, readable⟩
  rcases shared with ⟨⟨shallow, held⟩, read⟩
  refine ⟨records ++ [record], sound.written lawful admissible shallow held,
    journal.written admissible shallow, ?_, ?_⟩
  · rw [List.forall_mem_append, List.forall_mem_singleton]
    exact ⟨named, id, admissible.stored, isDigest_of_computeCapsuleId lawful admissible.computed⟩
  · rw [List.forall_mem_append, List.forall_mem_singleton]
    exact ⟨readable, read⟩

theorem permits_of_meshGuard (lawful : packages.Lawful) {state : State} {op : Op packages}
    (guarded : MeshGuard packages state op) : Permits packages (Shared packages) state op := by
  have lasting := permits_of_guard lawful guarded.1
  have readable := guarded.2
  cases op with
  | append capsule statement =>
      exact fun chained id admissible => ⟨lasting chained id admissible, readable id admissible⟩
  | appendPadding record statement =>
      exact fun padding id admissible => ⟨lasting padding id admissible, readable id admissible⟩
  | padToBucket bucket signer issuer draw =>
      refine PaddingPermits.imp (fun nonce state id record statement built kept => ⟨kept, ?_⟩)
        lasting
      rcases buildPadding_ok signer lawful nonce with ⟨other, computed, same⟩
      rcases isDigest_of_computeCapsuleId lawful computed with ⟨digest, -, shape⟩
      rw [same, Except.ok.injEq, Prod.mk.injEq] at built
      rw [← built.2, sealedPadding, shape]
      exact readable_paddingRecord ..

section

variable {state : State} {records : List Value} (mesh : Mesh packages indexer state records)

include mesh

theorem Mesh.shallow : ∀ record ∈ records, record.tree.nesting ≤ decoderLevels := by
  intro record inside
  rcases exists_of_forall₂ mesh.journal.stored.flip inside with ⟨line, -, stored⟩
  exact stored.shallow

theorem Mesh.agrees (lawful : packages.Lawful) {reader : Reader Time}
    (reads : reader.Lawful) : Agrees packages indexer reader state.disk := by
  have text := @utf8?_journal records []
  have pieces := @splitlines_journal records mesh.readable [] (by simp)
  rcases readMesh_journal reads mesh.named mesh.shallow mesh.readable copied_empty 1 []
    with ⟨log, copied, read⟩
  refine ⟨⟨state.ledger, none, state.disk⟩, log, mesh.sound.opens, ?_, ?_⟩
  · rw [List.flatMap_nil, ← mesh.journal.capsules] at text
    rw [meshLedgerLog, text, Option.elim_some, ok_bind, String.toList_ofList, pieces]
    exact read
  · exact @Copied.mirrors _ _ lawful ⟨state.ledger, none, state.disk⟩ _ mesh.journal.stored _ copied

/-- Without any byte of a line only the statement was written. -/
theorem Mesh.restated {id : String} {statement : Bytes} (lawful : packages.Lawful)
    (held : MatchesHeld packages state id statement) :
    Mesh packages indexer ⟨state.ledger, state.disk.write id statement []⟩ records where
  sound := by
    rcases sound_iff.mp mesh.sound with ⟨ended, valid, replayed⟩
    have same : (state.disk.write id statement []).capsules = state.disk.capsules :=
      List.append_nil _
    refine sound_iff.mpr ⟨by rw [same]; exact ended, by rw [same]; exact valid, ?_⟩
    rw [Disk.lines, same]
    exact replayLines_update replayed (mesh.sound.matched lawful held)
  journal := by
    have grown := state.disk.grown_write id statement []
    refine ⟨?_, mesh.journal.stored.imp (fun _ _ stored => stored.grown grown)⟩
    exact (List.append_nil _).trans mesh.journal.capsules
  named := mesh.named
  readable := mesh.readable

/-- After a torn line Python does not read what Rust holds. -/
theorem Mesh.torn_disagrees (lawful : packages.Lawful) {reader : Reader Time}
    (reads : reader.Lawful) {record : Value} {id : String} {statement : Bytes} {written : Nat}
    (admissible : Admissible packages state.ledger record id statement)
    (held : MatchesHeld packages state id statement) (part : written ≤ record.toText.length)
    (begun : written ≠ 0) :
    ¬ Agrees packages indexer reader (state.torn record id statement written).disk := by
  rintro ⟨opened, log, opens, read, mirrors⟩
  have bytes : (lineOf record).take written = record.toText.take written :=
    List.take_append_of_le_length part
  have lines : opened.ledger.lines.length = records.length := by
    have matched := mesh.sound.matched lawful held
    have recoverable := @Recoverable.restated _ _ _ _ _ mesh.sound.recoverable lawful id statement
      ((lineOf record).take written) matched
      (lines_write_part _ _ _ (take_lineOf.2 (Nat.not_lt.mpr part)))
    rcases recoverable.opens lawful with ⟨ledger, opens', replayed, -⟩
    have again := recoverable.replayed
    rw [← List.append_nil state.disk.lines, ← recoverable.lines] at again
    rw [again, Except.ok.injEq] at replayed
    have same : opened = openedWith _ ledger := Except.ok.inj (opens.symm.trans opens')
    rw [same, openedWith_ledger, ← replayed]
    exact mesh.journal.stored.length_eq.symm
  have entries : log.entries.length = records.length := by
    have numbers := congrArg List.length mirrors.numbers
    rwa [List.length_map, List.length_range', lines] at numbers
  rcases bind_eq_ok_iff.mp read with ⟨text, decoded, read⟩
  have whole : Valid (state.disk.capsules ++ record.toText.take written) := by
    rw [← bytes]
    cases shape : utf8? (state.torn record id statement written).disk.capsules with
    | none => simp [shape] at decoded
    | some text => exact Option.isSome_iff_exists.mpr ⟨text, shape⟩
  rcases Utf8.valid_iff.mp (Utf8.valid_tail whole mesh.sound.text) with ⟨tail, same⟩
  have visible : ∀ c ∈ tail, 32 ≤ c.toNat := by
    apply toNat_of_printed
    rw [← same]
    exact fun b inside => JsonText.printed_write record.tree b (List.mem_of_mem_take inside)
  have brace : ∃ more, tail = '{' :: more := by
    rcases toText_head admissible.stored with ⟨rest, head⟩
    rcases Nat.exists_eq_succ_of_ne_zero begun with ⟨n, count⟩
    apply @head_of_brace _ (rest.take n)
    rw [← same, head, count]
    rfl
  rcases brace with ⟨more, rfl⟩
  have file : (state.torn record id statement written).disk.capsules =
      Lines.join newline (records.map Value.toText)
        (('{' :: more).flatMap String.utf8EncodeChar) := by
    have joined := Lines.join_tail_append newline (records.map Value.toText) []
      (record.toText.take written)
    rw [List.nil_append, ← mesh.journal.capsules, ← bytes] at joined
    rw [← same, ← bytes]
    exact joined
  rw [file, utf8?_journal, Option.elim_some, Except.ok.injEq] at decoded
  rw [← decoded, String.toList_ofList, splitlines_journal mesh.readable visible] at read
  rcases readMesh_journal reads mesh.named mesh.shallow mesh.readable copied_empty 1
    (splitlines ('{' :: more)) with ⟨before, copied, rest⟩
  rw [rest] at read
  have grown := readMesh_brace read
  have count := congrArg List.length copied.numbers
  rw [List.length_map, List.length_range', List.nil_append] at count
  omega

end

/-- After every run that meets the condition Python reads what Rust holds of the
file.  After an interrupted append it does exactly when no byte of the line was
written. -/
theorem mesh_agrees (lawful : packages.Lawful) {reader : Reader Time} (reads : reader.Lawful)
    (statements : String → Option Bytes) {ops : List (Op packages)}
    (guarded : Machine.Guarded (step packages indexer) (MeshGuard packages) (.fresh statements)
      ops) :
    let state := Machine.after (step packages indexer) (.fresh statements) ops
    Agrees packages indexer reader state.disk ∧
      ∀ record id statement written, Admissible packages state.ledger record id statement →
        MatchesHeld packages state id statement → written ≤ record.toText.length →
          (Agrees packages indexer reader (state.torn record id statement written).disk ↔
            written = 0) := by
  intro state
  have start : ∃ records, Mesh packages indexer (.fresh statements) records :=
    ⟨[], sound_fresh statements, journal_fresh statements, by simp, by simp⟩
  have mesh : ∃ records, Mesh packages indexer state records :=
    Machine.invariant_of_guarded (fun state op inv guarded => step_keeps (mesh_written lawful) lawful
      state op inv (permits_of_meshGuard lawful guarded)) start guarded
  rcases mesh with ⟨records, mesh⟩
  refine ⟨mesh.agrees lawful reads, fun record id statement written admissible held part => ?_⟩
  constructor
  · intro agrees
    by_contra begun
    exact mesh.torn_disagrees lawful reads admissible held part begun agrees
  · rintro rfl
    exact (mesh.restated lawful held).agrees lawful reads

/-! ## A padding record, and a note with U+2028 -/

/-- A reader for lines without a time. -/
def plainReader : Reader Nat where
  loads text := (JsonText.readDocument (utf8 text)).elim (.error (.decode "Expecting value")) .ok
  lineTime _ _ := none
  epoch := 0

theorem plainReader_lawful : plainReader.Lawful where
  reads record _ _ := by
    simp only [plainReader, utf8_text, Value.toText, JsonText.readDocument_write, Option.elim_some]

/-- A ledger with one padding record is read by both, and no torn line is. -/
theorem padding_agrees :
    let state := Machine.after (step paddingPackages counterpartyCitationKeys)
      (.fresh (fun _ => none)) [.appendPadding firstPadding firstStatement.message]
    Agrees paddingPackages counterpartyCitationKeys plainReader state.disk ∧
      ∀ record id statement written, Admissible paddingPackages state.ledger record id statement →
        MatchesHeld paddingPackages state id statement → written ≤ record.toText.length →
          (Agrees paddingPackages counterpartyCitationKeys plainReader
            (state.torn record id statement written).disk ↔ written = 0) := by
  apply mesh_agrees paddingPackages_lawful plainReader_lawful
  refine ⟨⟨fun _ id admissible => ⟨nesting_paddingRecord .., ?_⟩, fun id _ => ?_⟩, trivial⟩
  · exact fun line inside => absurd inside List.not_mem_nil
  · exact readable_paddingRecord ..

def separatedDigest : Bytes :=
  bigEndian 32 0x495dd09ce8f1e42077a3596d98e0d5ce5c15782b518168ee673adf75311ef2a8

/-- The record whose note is U+2028. -/
def separatedRecord : Value := noteRecord "\u2028" separatedDigest

def separatedStatement : SignedStatement where
  contentType := "application/vnd.agent-action-capsule+json"
  issuer := "ledger-test"
  subject := Sha256.hex separatedDigest
  payload := separatedRecord.toText
  signature :=
    bigEndian 32 0xc3c1fdea028a55af178e45c0339e55095fc8a974a3b986445f9d5b5e8abaf8d0 ++
    bigEndian 32 0x131a10a3e892b9d27bb0e63fc7743b4057d604745dc0be456ec92e504ff3990e
  key := signerKey

def separatedPackages : Packages :=
  tablePackages [(noteText "\u2028", separatedDigest)] [separatedStatement]

theorem separatedPackages_lawful : separatedPackages.Lawful :=
  tablePackages_lawful (by simp [separatedDigest, bigEndian]) _

/-- The ledger with the record. -/
def separatedAppended : State := (State.fresh (fun _ => none)).written counterpartyCitationKeys
  separatedRecord (Sha256.hex separatedDigest) separatedStatement.message

theorem separatedRecord_admissible : Admissible separatedPackages .empty separatedRecord
    (Sha256.hex separatedDigest) separatedStatement.message := noteRecord_admissible _ _ rfl

/-- What Python reads as the first line of the record. -/
def separatedFront : List Char := ['{', '"', 'n', 'o', 't', 'e', '"', ':', '"']

theorem separatedRecord_text :
    ∃ rest, separatedRecord.text.toList = separatedFront ++ '\u2028' :: rest := by
  have front : separatedFront.flatMap String.utf8EncodeChar = noteFront ++ [34] := by decide
  have note : String.utf8EncodeChar '\u2028' = utf8 "\u2028" := by decide
  have tail := Utf8.valid_append (Utf8.valid_append (Utf8.valid_utf8 ",\"capsule_id\":\"")
    (Utf8.valid_utf8 (Sha256.hex separatedDigest))) (Utf8.valid_utf8 "\"\x7d")
  rcases Utf8.valid_iff.mp (Utf8.valid_append (Utf8.valid_ascii (by decide : (34 : UInt8) < 0x80))
    tail) with ⟨rest, same⟩
  refine ⟨rest, ?_⟩
  have bytes : utf8 separatedRecord.text =
      utf8 (String.ofList (separatedFront ++ '\u2028' :: rest)) := by
    calc utf8 separatedRecord.text = (noteFront ++ [34]) ++ (utf8 "\u2028" ++ ([34] ++
          (utf8 ",\"capsule_id\":\"" ++ utf8 (Sha256.hex separatedDigest) ++ utf8 "\"\x7d"))) := by
            rw [utf8_text, separatedRecord, noteRecord_toText (by decide), List.append_assoc]
            rfl
      _ = (separatedFront ++ '\u2028' :: rest).flatMap String.utf8EncodeChar := by
            rw [same, List.flatMap_append, List.flatMap_cons, front, note]
      _ = _ := by rw [Utf8.utf8_eq_flatMap (String.ofList (separatedFront ++ '\u2028' :: rest)),
            String.toList_ofList]
  rw [utf8_injective bytes, String.toList_ofList]

/-- The record is appended and Rust opens its ledger; Python takes the front of
its line for a line that is no JSON. -/
theorem separated_unread :
    let ops := [.append separatedRecord separatedStatement.message]
    let start := State.fresh (fun _ => none)
    let state := Machine.after (step separatedPackages counterpartyCitationKeys) start ops
    Machine.answers (step separatedPackages counterpartyCitationKeys) start ops = [.ok none] ∧
      openWithIndexer separatedPackages counterpartyCitationKeys state.disk =
        .ok ⟨state.ledger, none, state.disk⟩ ∧
      meshLedgerLog plainReader state.disk.capsules =
        .error (.notJson 1 "Expecting value") := by
  intro ops start state
  have appended : step separatedPackages counterpartyCitationKeys start
      (.append separatedRecord separatedStatement.message) = (.ok none, separatedAppended) :=
    step_append (noteRecord_chained _ _) separatedRecord_admissible
  have after : state = separatedAppended := by
    change (step separatedPackages counterpartyCitationKeys start _).2 = _
    rw [appended]
  have journal : Journal separatedAppended [separatedRecord] :=
    (journal_fresh (fun _ => none)).written separatedRecord_admissible (nesting_noteRecord _ _)
  rw [after]
  refine ⟨by rw [Machine.answers, Machine.answers, appended], ?_, ?_⟩
  · exact ((sound_fresh (fun _ => none)).written separatedPackages_lawful
      separatedRecord_admissible (nesting_noteRecord _ _)
      (fun line inside => absurd inside List.not_mem_nil)).opens
  · rcases separatedRecord_text with ⟨rest, text⟩
    have file := @utf8?_journal [separatedRecord] []
    rw [List.flatMap_nil, ← journal.capsules] at file
    have broken : splitlines (Python.translateNewlines (Lines.join '\n'
        ([separatedRecord].map (fun record => record.text.toList)) [])) =
          separatedFront :: splitlines (rest ++ ['\n']) := by
      have front : Python.Unbroken separatedFront := by unfold Python.Unbroken; decide
      have ends : Python.isLineBreak '\u2028' = true := by decide
      have single : '\u2028' ≠ '\r' := by decide
      rw [translateNewlines_journal _ (by simp), List.map_singleton, Lines.join_cons, Lines.join_nil,
        text, List.append_assoc, List.cons_append]
      exact Python.splitlines_append front ends single _
    have unread : jsonLine plainReader 1 (String.ofList separatedFront) =
        .error (.notJson 1 "Expecting value") := rfl
    rw [meshLedgerLog, file, Option.elim_some, ok_bind, String.toList_ofList, broken, readMesh,
      separatedFront, pythonBlank_brace, if_neg Bool.false_ne_true, ← separatedFront, unread]
    rfl

end RustLedger
end CapsuleEmit
