import CapsuleEmit.RustLedger.Append
import CapsuleEmit.Foundation.Machine

namespace CapsuleEmit
namespace RustLedger

open Utf8 (Valid fromUtf8Lossy)

/-!
# Opening a ledger again

A ledger is sound when opening its file gives it back.  A line that passed the
checks of an append keeps it sound if the line reads back and its statement is
also one for the lines that share its Capsule ID.
-/

variable {packages : Packages} {indexer : Value → List String}

/-! ## Replays -/

theorem replayLines_append (statements : String → Option Bytes) (front back : List Bytes)
    (lineNo offset : Nat) (ledger : Ledger) :
    replayLines packages indexer statements (front ++ back) lineNo offset ledger =
      replayLines packages indexer statements front lineNo offset ledger >>= fun ledger =>
        replayLines packages indexer statements back (lineNo + front.length)
          (offset + Lines.extent front) ledger := by
  induction front generalizing lineNo offset ledger with
  | nil => rfl
  | cons line front ih =>
      have number : lineNo + (line :: front).length = lineNo + 1 + front.length := by
        rw [List.length_cons]
        omega
      have place : offset + Lines.extent (line :: front) =
          offset + (line.length + 1) + Lines.extent front := by
        rw [Lines.extent_cons, ← Nat.add_assoc]
      rw [List.cons_append, replayLines, replayLines, number, place]
      split
      · exact ih ..
      · simp only [ih, bind_assoc]

/-- A statement that is written again changes no replay whose lines it matches. -/
theorem replayLines_update {statements : String → Option Bytes} {lines : List Bytes}
    {lineNo offset : Nat} {ledger ledger' : Ledger} {id : String} {statement : Bytes}
    (replayed : replayLines packages indexer statements lines lineNo offset ledger = .ok ledger')
    (matched : ∀ line ∈ lines, ∀ record, packages.decodeRecord line = .ok record →
      record.capsuleId = some id → checkStatementMatches packages record id statement = .ok ()) :
    replayLines packages indexer (Function.update statements id (some statement)) lines lineNo
      offset ledger = .ok ledger' := by
  induction lines generalizing lineNo offset ledger with
  | nil => exact replayed
  | cons line lines ih =>
      rw [List.forall_mem_cons] at matched
      rw [replayLines] at replayed ⊢
      split at replayed
      · next empty =>
          rw [if_pos empty]
          exact ih replayed matched.2
      · next filled =>
          rw [if_neg filled]
          rcases bind_eq_ok_iff.mp replayed with ⟨parsed, decoded, replayed⟩
          rcases bind_eq_ok_iff.mp replayed with ⟨admitted, checked, replayed⟩
          rcases admit_ok_iff.mp checked with ⟨other, bytes, found, admissible, same⟩
          refine bind_eq_ok_iff.mpr ⟨parsed, decoded, bind_eq_ok_iff.mpr ⟨admitted, ?_,
            ih replayed matched.2⟩⟩
          apply admit_ok_iff.mpr
          by_cases shared : other = id
          · subst shared
            have again := matched.1 parsed (mapError_eq_ok_iff.mp decoded) admissible.stored
            exact ⟨other, statement, by simp [readStatementFile],
              { admissible with matched := again }, same⟩
          · refine ⟨other, bytes, ?_, admissible, same⟩
            rwa [readStatementFile, Function.update_of_ne shared]

/-- What every admissible line keeps holds after a replay. -/
theorem replayLines_keeps {Inv : Ledger → Prop}
    (keep : ∀ ledger record id offset statement, Admissible packages ledger record id statement →
      Inv ledger → Inv (ledger.enter indexer id offset record))
    {statements : String → Option Bytes} {lines : List Bytes} {lineNo offset : Nat}
    {ledger ledger' : Ledger}
    (replayed : replayLines packages indexer statements lines lineNo offset ledger = .ok ledger')
    (start : Inv ledger) : Inv ledger' := by
  induction lines generalizing lineNo offset ledger with
  | nil =>
      cases replayed
      exact start
  | cons line lines ih =>
      rw [replayLines] at replayed
      split at replayed
      · exact ih replayed start
      · rcases bind_eq_ok_iff.mp replayed with ⟨parsed, -, replayed⟩
        rcases bind_eq_ok_iff.mp replayed with ⟨admitted, checked, replayed⟩
        rcases admit_ok_iff.mp checked with ⟨id, statement, -, admissible, rfl⟩
        exact ih replayed (keep _ _ _ _ _ admissible start)

/-! ## Sound ledgers -/

/-- Opening the file again gives the ledger back, and the file is text. -/
structure Sound (packages : Packages) (indexer : Value → List String) (state : State) : Prop where
  opens : openWithIndexer packages indexer state.disk = .ok ⟨state.ledger, none, state.disk⟩
  text : Valid state.disk.capsules

/-- The lines of a file. -/
def Disk.lines (disk : Disk) : List Bytes := (Lines.split newline disk.capsules).1

theorem join_lines {disk : Disk} (ended : (Lines.split newline disk.capsules).2 = []) :
    Lines.join newline disk.lines [] = disk.capsules := by
  rw [Disk.lines, ← ended, Lines.join_split]

theorem sound_iff {state : State} : Sound packages indexer state ↔
    (Lines.split newline state.disk.capsules).2 = [] ∧ Valid state.disk.capsules ∧
      replayLines packages indexer state.disk.statements state.disk.lines 1 0 .empty =
        .ok state.ledger := by
  have texts : (Lines.split newline state.disk.capsules).2 = [] → Valid state.disk.capsules →
      state.disk.lines.map fromUtf8Lossy = state.disk.lines := by
    intro ended valid
    rw [← join_lines ended] at valid
    exact map_fromUtf8Lossy ((valid_join_iff _).mp valid)
  constructor
  · rintro ⟨opens, valid⟩
    rw [open_eq, ← Disk.lines] at opens
    cases replayed : replayLines packages indexer state.disk.statements
        (state.disk.lines.map fromUtf8Lossy) 1 0 .empty with
    | error e => simp [replayed, Except.map] at opens
    | ok ledger =>
        rw [replayed, Except.map, Except.ok.injEq, openedWith] at opens
        split at opens
        · next ended =>
            rw [texts ended valid] at replayed
            rw [replayed, (Opened.mk.inj opens).1]
            exact ⟨ended, valid, rfl⟩
        · cases (Opened.mk.inj opens).2.1
  · rintro ⟨ended, valid, replayed⟩
    refine ⟨?_, valid⟩
    rw [open_eq, ← Disk.lines, texts ended valid, replayed, Except.map, openedWith, if_pos ended]

/-- The statement is also one for every line of the ledger with this Capsule ID. -/
def MatchesHeld (packages : Packages) (state : State) (id : String) (statement : Bytes) : Prop :=
  ∀ line ∈ state.ledger.lines, line.capsuleId = id → ∀ earlier,
    readLine packages state.disk line.offset = .ok earlier →
      checkStatementMatches packages earlier id statement = .ok ()

/-- The statement is also one for every line of the file with this Capsule ID. -/
def MatchesLines (packages : Packages) (disk : Disk) (id : String) (statement : Bytes) : Prop :=
  ∀ line ∈ disk.lines, ∀ record, packages.decodeRecord line = .ok record →
    record.capsuleId = some id → checkStatementMatches packages record id statement = .ok ()

theorem Sound.matched (lawful : packages.Lawful) {state : State}
    (sound : Sound packages indexer state) {id : String} {statement : Bytes}
    (held : MatchesHeld packages state id statement) :
    MatchesLines packages state.disk id statement := by
  intro line inside record decoded stored
  rcases sound_iff.mp sound with ⟨ended, valid, replayed⟩
  have whole := join_lines ended
  have clean := (Lines.split_pieces_clean newline state.disk.capsules).1
  have textual : Valid line := by
    rw [← whole] at valid
    exact (valid_join_iff _).mp valid line inside
  rcases mem_offsets_of_mem 0 inside with ⟨offset, member⟩
  have filledLine : (offset, line) ∈ filled 0 state.disk.lines := by
    refine List.mem_filter.mpr ⟨member, ?_⟩
    rcases lawful.ends line record decoded with ⟨space, -, front, b, same, -⟩
    rw [same]
    cases front <;> rfl
  rcases replayLines_held replayed with ⟨entries, lines, related⟩
  rw [Ledger.empty, List.nil_append] at lines
  rcases exists_of_forall₂ related filledLine
    with ⟨entry, known, again, other, decodedAgain, named, -, same⟩
  rw [decoded, Except.ok.injEq] at decodedAgain
  subst decodedAgain
  rw [stored, Option.some.injEq] at named
  have read := @readLine_of_mem packages _ [] _ _ lawful clean member textual
    state.disk.statements record decoded
  rw [← Disk.lines, whole] at read
  apply held entry (lines ▸ known) (by rw [same, named]; rfl)
  rw [same]
  exact read

/-- What follows the lines of a sound ledger. -/
theorem Sound.split_append {state : State} (sound : Sound packages indexer state) (more : Bytes) :
    Lines.split newline (state.disk.capsules ++ more) =
      (state.disk.lines ++ (Lines.split newline more).1, (Lines.split newline more).2) := by
  rw [Lines.split_append, (sound_iff.mp sound).1, List.nil_append, Disk.lines]

theorem Sound.extent_lines {state : State} (sound : Sound packages indexer state) :
    Lines.extent state.disk.lines = state.disk.capsules.length := by
  have length := Lines.length_join newline state.disk.lines []
  rw [join_lines (sound_iff.mp sound).1, List.length_nil, Nat.add_zero] at length
  exact length.symm

theorem split_lineOf (record : Value) :
    Lines.split newline (lineOf record) = ([record.toText], []) := by
  rw [lineOf, Lines.split_clean_append (newline_notMem_toText record)]
  rfl

theorem isEmpty_toText (record : Value) : record.toText.isEmpty = false := by
  have positive := JsonText.length_write_pos record.tree
  cases shape : record.toText with
  | nil =>
      rw [Value.toText] at shape
      rw [shape] at positive
      exact absurd positive (Nat.lt_irrefl 0)
  | cons b rest => rfl

/-- A line that passed the checks keeps the ledger sound, if it reads back and
its statement is one for the lines of the file with its Capsule ID. -/
theorem Sound.written_of_lines (lawful : packages.Lawful) {state : State}
    (sound : Sound packages indexer state) {record : Value} {id : String} {statement : Bytes}
    (admissible : Admissible packages state.ledger record id statement)
    (shallow : record.tree.nesting ≤ decoderLevels)
    (matched : MatchesLines packages state.disk id statement) :
    Sound packages indexer (state.written indexer record id statement) := by
  have pieces := sound.split_append (lineOf record)
  rw [split_lineOf] at pieces
  rcases sound_iff.mp sound with ⟨ended, valid, replayed⟩
  refine sound_iff.mpr ⟨?_, ?_, ?_⟩
  · exact congrArg Prod.snd pieces
  · exact Utf8.valid_append valid
      (Utf8.valid_append (valid_toText record) (Utf8.valid_ascii (by decide)))
  · have lines : (state.written indexer record id statement).disk.lines =
        state.disk.lines ++ [record.toText] := congrArg Prod.fst pieces
    have again := replayLines_update replayed matched
    rw [lines, replayLines_append]
    change replayLines packages indexer (Function.update state.disk.statements id (some statement))
      state.disk.lines 1 0 Ledger.empty >>= _ = _
    rw [again, ok_bind, Nat.zero_add, sound.extent_lines, replayLines, isEmpty_toText,
      if_neg Bool.false_ne_true, Value.toText, lawful.reads record shallow]
    have admitted : state.ledger.admit packages indexer (1 + state.disk.lines.length)
        state.disk.capsules.length record (readStatementFile
          (Function.update state.disk.statements id (some statement))
          (1 + state.disk.lines.length)) =
        .ok (state.ledger.enter indexer id state.disk.capsules.length record) :=
      admit_ok_iff.mpr ⟨id, statement, by simp [readStatementFile], admissible, rfl⟩
    simp only [Except.mapError, ok_bind]
    change ( state.ledger.admit packages indexer (1 + state.disk.lines.length)
        state.disk.capsules.length record (readStatementFile
          (Function.update state.disk.statements id (some statement))
          (1 + state.disk.lines.length)) >>= _) = _
    rw [admitted, ok_bind]
    rfl

theorem Sound.written (lawful : packages.Lawful) {state : State}
    (sound : Sound packages indexer state) {record : Value} {id : String} {statement : Bytes}
    (admissible : Admissible packages state.ledger record id statement)
    (shallow : record.tree.nesting ≤ decoderLevels)
    (held : MatchesHeld packages state id statement) :
    Sound packages indexer (state.written indexer record id statement) :=
  sound.written_of_lines lawful admissible shallow (sound.matched lawful held)

end RustLedger
end CapsuleEmit
