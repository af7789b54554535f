import CapsuleEmit.RustLedger.Reopen

namespace CapsuleEmit
namespace RustLedger

open Utf8 (Valid)

/-!
# Appends that fail

The write of a line can fail after any of its bytes, and the ledger in memory
does not know what was written.  A part of a line is cut off when the file is
opened.  A whole line that was not acknowledged is admitted.  The file opens
as long as no other line is written after either on the same ledger.
-/

variable {packages : Packages} {indexer : Value → List String}

/-! ## Calls -/

/-- An append, with how many bytes of its line are written if the write fails. -/
structure Attempt where
  capsule : Value
  signedStatement : Bytes
  fault : Option Nat

def attempt (packages : Packages) (indexer : Value → List String) (state : State)
    (call : Attempt) : Except LedgerError Unit × State :=
  append packages indexer call.fault state call.capsule call.signedStatement

/-- The records whose append returned `Ok`, in order. -/
def acknowledged (packages : Packages) (indexer : Value → List String) :
    State → List Attempt → List Value
  | _, [] => []
  | state, call :: calls =>
      let (answer, after) := attempt packages indexer state call
      if succeeds answer then call.capsule :: acknowledged packages indexer after calls
      else acknowledged packages indexer after calls

/-- Every byte of the line is written; the sync may still fail. -/
def Attempt.Completes (call : Attempt) : Prop :=
  ∀ written, call.fault = some written → call.capsule.toText.length < written

/-- An attempt is refused and changes nothing, or its line is written, whole or in part. -/
theorem attempt_cases (state : State) (call : Attempt) :
    (∃ e, attempt packages indexer state call = (.error e, state)) ∨
      isPadding call.capsule = false ∧ ∃ id,
        Admissible packages state.ledger call.capsule id call.signedStatement ∧
        attempt packages indexer state call = match call.fault with
          | none => (.ok (), state.written indexer call.capsule id call.signedStatement)
          | some written =>
              (.error .io, state.torn call.capsule id call.signedStatement written) := by
  cases padding : isPadding call.capsule with
  | true => exact Or.inl ⟨_, by rw [attempt, append, if_pos padding]⟩
  | false =>
      rcases append_appends call.fault state call.capsule call.signedStatement
        with ⟨e, refused⟩ | ⟨id, admissible, result⟩
      · exact Or.inl ⟨e, refused⟩
      · exact Or.inr ⟨rfl, id, admissible, result⟩

/-! ## The condition -/

/-- The file holds the lines of the ledger and nothing a failed write left. -/
structure Settled (state : State) : Prop where
  ended : (Lines.split newline state.disk.capsules).2 = []
  known : (filled 0 state.disk.lines).length = state.ledger.lines.length

/-- An attempt that passes the checks has a statement for the lines that share
its Capsule ID, and it writes a whole line only if the decoder follows it and
nothing of a failed write is in the file. -/
def Safe (packages : Packages) (state : State) (call : Attempt) : Prop :=
  isPadding call.capsule = false → ∀ id,
    Admissible packages state.ledger call.capsule id call.signedStatement →
      MatchesLines packages state.disk id call.signedStatement ∧
      (call.Completes → call.capsule.tree.nesting ≤ decoderLevels ∧ Settled state)

/-! ## What a file with a failed write holds -/

/-- The file has the lines of the ledger, and at most one more that the ledger
would admit, before a part of a line. -/
structure Recoverable (packages : Packages) (indexer : Value → List String) (state : State)
    (known extra : List Bytes) : Prop where
  lines : state.disk.lines = known ++ extra
  text : ∀ line ∈ known ++ extra, Valid line
  replayed : replayLines packages indexer state.disk.statements known 1 0 .empty = .ok state.ledger
  unacknowledged : extra = [] ∨ ∃ record id statement, extra = [record.toText] ∧
    record.tree.nesting ≤ decoderLevels ∧ state.disk.statements id = some statement ∧
    Admissible packages state.ledger record id statement

theorem filled_append (offset : Nat) (front back : List Bytes) :
    filled offset (front ++ back) = filled offset front ++
      filled (offset + Lines.extent front) back := by
  rw [filled, Lines.offsets_append, List.filter_append]
  rfl

theorem take_lineOf {record : Value} {written : Nat} :
    (record.toText.length < written → (lineOf record).take written = lineOf record) ∧
      (¬ record.toText.length < written → newline ∉ (lineOf record).take written) := by
  constructor
  · intro whole
    apply List.take_of_length_le
    rw [lineOf, List.length_append, List.length_singleton]
    exact whole
  · intro part
    rw [lineOf, List.take_append_of_le_length (Nat.le_of_not_lt part)]
    exact fun inside => newline_notMem_toText record (List.mem_of_mem_take inside)

/-- Bytes without a newline add no line. -/
theorem lines_write_part (disk : Disk) (id : String) (statement : Bytes) {bytes : Bytes}
    (part : newline ∉ bytes) : (disk.write id statement bytes).lines = disk.lines := by
  have clean : Lines.Clean newline ((Lines.split newline disk.capsules).2 ++ bytes) := by
    have tail := (Lines.split_pieces_clean newline disk.capsules).2
    rw [Lines.Clean, List.mem_append, not_or]
    exact ⟨tail, part⟩
  rw [Disk.lines, Disk.write, Lines.split_append, Lines.split_clean clean, List.append_nil]
  rfl

/-- A line written after a whole line is one more line. -/
theorem split_write_line {disk : Disk} (ended : (Lines.split newline disk.capsules).2 = [])
    (id : String) (statement : Bytes) (record : Value) :
    Lines.split newline (disk.write id statement (lineOf record)).capsules =
      (disk.lines ++ [record.toText], []) := by
  rw [Disk.write, Lines.split_append, ended, List.nil_append, split_lineOf]
  rfl

section

variable {state : State} {known extra : List Bytes}
  (recoverable : Recoverable packages indexer state known extra)

include recoverable

theorem Recoverable.known_length :
    (filled 0 known).length = state.ledger.lines.length := by
  rcases replayLines_held recoverable.replayed with ⟨held, lines, related⟩
  rw [lines, Ledger.empty, List.nil_append, related.length_eq]

/-- Without the rest of a failed write the file has the lines of the ledger only. -/
theorem Recoverable.settled (settled : Settled state) : extra = [] := by
  rcases recoverable.unacknowledged with none | ⟨record, id, statement, one, -⟩
  · exact none
  · have count := settled.known
    rw [recoverable.lines, filled_append, List.length_append, recoverable.known_length, one,
      filled_cons, if_neg (by rw [isEmpty_toText]; decide)] at count
    simp at count

/-- A statement for the lines of the file changes nothing of what is recovered. -/
theorem Recoverable.restated (lawful : packages.Lawful) {id : String} {statement bytes : Bytes}
    (matched : MatchesLines packages state.disk id statement)
    (lines : (state.disk.write id statement bytes).lines = state.disk.lines) :
    Recoverable packages indexer ⟨state.ledger, state.disk.write id statement bytes⟩ known
      extra where
  lines := lines.trans recoverable.lines
  text := recoverable.text
  replayed := by
    apply replayLines_update recoverable.replayed
    intro line inside
    exact matched line (by rw [recoverable.lines]; exact List.mem_append_left _ inside)
  unacknowledged := by
    rcases recoverable.unacknowledged with none | ⟨record, other, old, one, shallow, found, valid⟩
    · exact Or.inl none
    · refine Or.inr ⟨record, other, ?_⟩
      by_cases same : other = id
      · subst same
        have inside : record.toText ∈ state.disk.lines := by
          rw [recoverable.lines, one]
          simp
        have again := matched _ inside record (lawful.reads record shallow) valid.stored
        exact ⟨statement, one, shallow, by simp [Disk.write], { valid with matched := again }⟩
      · exact ⟨old, one, shallow, by simpa [Disk.write, Function.update_of_ne same] using found,
          valid⟩

/-- The lines a settled file opens to are the lines of the ledger. -/
theorem Recoverable.sound (settled : Settled state) : Sound packages indexer state := by
  have none := recoverable.settled settled
  have lines := recoverable.lines
  have text := recoverable.text
  rw [none, List.append_nil] at lines text
  refine sound_iff.mpr ⟨settled.ended, ?_, ?_⟩
  · rw [← join_lines settled.ended, lines]
    exact (valid_join_iff _).mpr text
  · rw [lines]
    exact recoverable.replayed

end

theorem Sound.lines_valid {state : State} (sound : Sound packages indexer state) :
    ∀ line ∈ state.disk.lines, Valid line := by
  rcases sound_iff.mp sound with ⟨ended, valid, -⟩
  rw [← join_lines ended] at valid
  exact (valid_join_iff _).mp valid

theorem Sound.recoverable {state : State} (sound : Sound packages indexer state) :
    Recoverable packages indexer state state.disk.lines [] where
  lines := (List.append_nil _).symm
  text := by
    rw [List.append_nil]
    exact sound.lines_valid
  replayed := (sound_iff.mp sound).2.2
  unacknowledged := Or.inl rfl

theorem attempt_recoverable (lawful : packages.Lawful) (state : State) (call : Attempt)
    (recoverable : ∃ known extra, Recoverable packages indexer state known extra)
    (safe : Safe packages state call) : ∃ known extra,
      Recoverable packages indexer (attempt packages indexer state call).2 known extra := by
  rcases attempt_cases state call with ⟨e, refused⟩ | ⟨chained, id, admissible, result⟩
  · rw [refused]
    exact recoverable
  rcases recoverable with ⟨known, extra, recoverable⟩
  rcases safe chained id admissible with ⟨matched, whole⟩
  cases fault : call.fault with
  | none =>
      rcases whole (fun written some => by rw [fault] at some; cases some) with ⟨shallow, settled⟩
      have sound := recoverable.sound settled
      rw [result, fault]
      exact ⟨_, _, (sound.written_of_lines lawful admissible shallow matched).recoverable⟩
  | some written =>
      rw [result, fault]
      dsimp only
      by_cases completes : call.capsule.toText.length < written
      · have all : call.Completes := by
          intro other same
          rw [fault, Option.some.injEq] at same
          exact same ▸ completes
        rcases whole all with ⟨shallow, settled⟩
        have sound := recoverable.sound settled
        refine ⟨state.disk.lines, [call.capsule.toText], ?_⟩
        have pieces := @split_write_line state.disk settled.ended id call.signedStatement
          call.capsule
        rw [State.torn, take_lineOf.1 completes]
        refine ⟨congrArg Prod.fst pieces, ?_, ?_, Or.inr ⟨call.capsule, id, call.signedStatement,
          rfl, shallow, by simp [Disk.write], admissible⟩⟩
        · rw [List.forall_mem_append, List.forall_mem_singleton]
          exact ⟨sound.lines_valid, valid_toText call.capsule⟩
        · exact replayLines_update (sound_iff.mp sound).2.2 matched
      · refine ⟨known, extra, recoverable.restated lawful matched ?_⟩
        exact lines_write_part _ _ _ (take_lineOf.2 completes)

/-! ## Opening the file -/

theorem openedWith_ledger (disk : Disk) (ledger : Ledger) :
    (openedWith disk ledger).ledger = ledger := by
  unfold openedWith
  split <;> rfl

theorem openedWith_disk {disk : Disk} (text : Valid (complete disk.capsules)) (ledger : Ledger) :
    (openedWith disk ledger).disk = ⟨complete disk.capsules, disk.statements⟩ := by
  have capsules := openedWith_capsules text ledger
  have statements : (openedWith disk ledger).disk.statements = disk.statements := by
    unfold openedWith
    split <;> rfl
  rw [← capsules, ← statements]

/-- An opened ledger on UTF-8 lines opens again as it is. -/
theorem sound_opened {disk : Disk} {opened : Opened}
    (opens : openWithIndexer packages indexer disk = .ok opened)
    (text : Valid (complete disk.capsules)) :
    Sound packages indexer ⟨opened.ledger, opened.disk⟩ := by
  have clean := (Lines.split_pieces_clean newline disk.capsules).1
  have whole := Lines.split_join clean (List.not_mem_nil : newline ∉ ([] : Bytes))
  rw [open_eq, map_fromUtf8Lossy ((valid_join_iff _).mp text)] at opens
  cases replayed : replayLines packages indexer disk.statements
      (Lines.split newline disk.capsules).1 1 0 .empty with
  | error e => simp [replayed, Except.map] at opens
  | ok ledger =>
      rw [replayed, Except.map, Except.ok.injEq] at opens
      rw [← opens, openedWith_ledger, openedWith_disk text]
      refine sound_iff.mpr ⟨congrArg Prod.snd whole, text, ?_⟩
      rw [Disk.lines, complete, whole]
      exact replayed

theorem Recoverable.opens {state : State} {known extra : List Bytes}
    (lawful : packages.Lawful) (recoverable : Recoverable packages indexer state known extra) :
    ∃ ledger, openWithIndexer packages indexer state.disk = .ok (openedWith state.disk ledger) ∧
      replayLines packages indexer state.disk.statements state.disk.lines 1 0 .empty = .ok ledger ∧
      ∃ rest, ledger.lines = state.ledger.lines ++ rest ∧ rest.length ≤ 1 := by
  have replayed : ∃ ledger, replayLines packages indexer state.disk.statements (known ++ extra) 1 0
      .empty = .ok ledger ∧ ∃ rest, ledger.lines = state.ledger.lines ++ rest ∧
        rest.length ≤ 1 := by
    simp only [replayLines_append, recoverable.replayed, ok_bind]
    rcases recoverable.unacknowledged
      with none | ⟨record, id, statement, one, shallow, found, valid⟩
    · rw [none]
      exact ⟨state.ledger, rfl, [], by simp, Nat.zero_le 1⟩
    · refine ⟨state.ledger.enter indexer id (0 + Lines.extent known) record, ?_,
        [LedgerLine.new id (0 + Lines.extent known) record], by simp, le_refl 1⟩
      have admitted := @admit_ok_iff packages indexer state.ledger _ (1 + known.length)
        (0 + Lines.extent known) record
        (readStatementFile state.disk.statements (1 + known.length)) |>.mpr
          ⟨id, statement, by simp [readStatementFile, found], valid, rfl⟩
      rw [one, replayLines, isEmpty_toText, if_neg Bool.false_ne_true, Value.toText,
        lawful.reads record shallow]
      simp only [Except.mapError, ok_bind, admitted, replayLines]
  rcases replayed with ⟨ledger, replayed, rest⟩
  rw [← recoverable.lines] at replayed
  have texts := map_fromUtf8Lossy (recoverable.lines ▸ recoverable.text)
  refine ⟨ledger, ?_, replayed, rest⟩
  rw [open_eq, ← Disk.lines, texts, replayed]
  rfl

end RustLedger
end CapsuleEmit
