import CapsuleEmit.RustLedger.Reopen

namespace CapsuleEmit
namespace RustLedger

open Utf8 (Valid)

/-!
# The records of a ledger

Writes only go to the end of the file, so a record stays at the offset its
line was written at.  The journal of a ledger is its records in the order of
its lines.
-/

variable {packages : Packages} {indexer : Value → List String}

/-! ## Where a record is stored -/

/-- The line of a record, the bytes of the record at its offset, and a statement file for it. -/
structure Stored (disk : Disk) (record : Value) (line : LedgerLine) : Prop where
  named : record.capsuleId = some line.capsuleId
  entry : line = LedgerLine.new line.capsuleId line.offset record
  shallow : record.tree.nesting ≤ decoderLevels
  place : ∃ front back, disk.capsules = front ++ (lineOf record ++ back) ∧
    front.length = line.offset
  statement : (disk.statements line.capsuleId).isSome = true

/-- Bytes were written after those of a file, and statement files over others. -/
structure Disk.Grown (before after : Disk) : Prop where
  capsules : before.capsules <+: after.capsules
  statements : ∀ id, (before.statements id).isSome = true → (after.statements id).isSome = true

theorem Disk.Grown.refl (disk : Disk) : disk.Grown disk :=
  ⟨List.prefix_rfl, fun _ found => found⟩

theorem Disk.Grown.trans {first second third : Disk} (left : first.Grown second)
    (right : second.Grown third) : first.Grown third :=
  ⟨left.capsules.trans right.capsules,
    fun id found => right.statements id (left.statements id found)⟩

theorem Disk.grown_write (disk : Disk) (id : String) (statement bytes : Bytes) :
    disk.Grown (disk.write id statement bytes) := by
  refine ⟨List.prefix_append _ _, fun other found => ?_⟩
  by_cases same : other = id
  · simp [Disk.write, same]
  · simpa [Disk.write, Function.update_of_ne same] using found

theorem Stored.grown {before after : Disk} (grown : before.Grown after) {record : Value}
    {line : LedgerLine} (stored : Stored before record line) : Stored after record line := by
  refine { stored with place := ?_, statement := grown.statements _ stored.statement }
  rcases stored.place with ⟨front, back, whole, offset⟩
  rcases grown.capsules with ⟨more, same⟩
  exact ⟨front, back ++ more, by rw [← same, whole]; simp, offset⟩

/-- The complete lines of a file include those written before others. -/
theorem complete_line (front : Bytes) (record : Value) (back : Bytes) :
    complete (front ++ (lineOf record ++ back)) =
      front ++ (lineOf record ++ complete back) := by
  have ended : (Lines.split newline (front ++ lineOf record)).2 = [] := by
    apply (Lines.split_tail_eq_nil_iff newline _).mpr
    exact Or.inr (by simp [lineOf])
  have whole := Lines.join_split newline (front ++ lineOf record)
  rw [ended] at whole
  rw [← List.append_assoc, complete, Lines.split_append, ended, List.nil_append, Lines.join_append]
  have rest := Lines.join_tail_append newline (Lines.split newline (front ++ lineOf record)).1 []
    (complete back)
  rw [whole, List.nil_append] at rest
  exact rest.symm.trans (List.append_assoc _ _ _)

theorem Stored.complete {disk : Disk} {record : Value} {line : LedgerLine}
    (stored : Stored disk record line) :
    Stored ⟨complete disk.capsules, disk.statements⟩ record line := by
  refine { stored with place := ?_ }
  rcases stored.place with ⟨front, back, whole, offset⟩
  exact ⟨front, RustLedger.complete back, by rw [whole, complete_line], offset⟩

/-- A stored record is read back. -/
theorem Stored.readLine (lawful : packages.Lawful) {disk : Disk} {record : Value}
    {line : LedgerLine} (stored : Stored disk record line) :
    readLine packages disk line.offset = .ok record := by
  rcases disk with ⟨capsules, statements⟩
  rcases stored.place with ⟨front, back, whole, offset⟩
  refine readLine_of_text lawful ?_ (valid_toText record) statements
    (lawful.reads record stored.shallow)
  dsimp only at whole
  rw [whole, ← offset, lineOf, List.append_assoc, List.singleton_append]
  exact readTextLine_append (newline_notMem_toText record) front back

/-- A stored record is found by its Capsule ID where the index has its line. -/
theorem Stored.lookup (lawful : packages.Lawful) {opened : Opened} {record : Value}
    {line : LedgerLine} (stored : Stored opened.disk record line)
    (index : opened.ledger.index line.capsuleId = some line.offset) :
    ∃ statement, lookup packages opened.ledger opened.disk line.capsuleId =
      .ok (some ⟨record, statement⟩) := by
  rcases Option.isSome_iff_exists.mp stored.statement with ⟨statement, found⟩
  refine ⟨statement, ?_⟩
  simp only [RustLedger.lookup, index, stored.readLine lawful, readStatement, found, ok_bind,
    Option.elim_some, pure_eq_ok]

/-! ## The journal -/

/-- The records the lines of a ledger were written for. -/
structure Journal (state : State) (records : List Value) : Prop where
  capsules : state.disk.capsules = Lines.join newline (records.map Value.toText) []
  stored : List.Forall₂ (Stored state.disk) records state.ledger.lines

theorem journal_fresh (statements : String → Option Bytes) : Journal (.fresh statements) [] :=
  ⟨rfl, List.Forall₂.nil⟩

/-- A line that is written adds its record. -/
theorem Journal.written {state : State} {records : List Value} (journal : Journal state records)
    {record : Value} {id : String} {statement : Bytes}
    (admissible : Admissible packages state.ledger record id statement)
    (shallow : record.tree.nesting ≤ decoderLevels) :
    Journal (state.written indexer record id statement) (records ++ [record]) where
  capsules := by
    have terminated := Lines.join_terminate newline (records.map Value.toText) record.toText []
    have whole := Lines.join_tail_append newline (records.map Value.toText) [] (lineOf record)
    rw [List.map_append, List.map_singleton, ← terminated]
    rw [List.nil_append, ← journal.capsules] at whole
    exact whole
  stored := by
    have grown := state.disk.grown_write id statement (lineOf record)
    rw [State.written, Ledger.enter_lines]
    apply List.rel_append (journal.stored.imp (fun _ _ stored => stored.grown grown))
    refine List.Forall₂.cons ⟨admissible.stored, rfl, shallow, ⟨state.disk.capsules, [], ?_, rfl⟩,
      ?_⟩ List.Forall₂.nil
    · simp [Disk.write]
    · simp [Disk.write, LedgerLine.new]

end RustLedger
end CapsuleEmit
