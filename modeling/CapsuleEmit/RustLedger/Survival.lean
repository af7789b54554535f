import CapsuleEmit.RustLedger.Chain
import CapsuleEmit.RustLedger.Faults
import CapsuleEmit.RustLedger.Journal

namespace CapsuleEmit
namespace RustLedger

open Utf8 (Valid)

/-!
# What survives failed appends

A record whose append returned `Ok` stays at the offset its line was written
at, whatever fails later.  When the file is opened again, the acknowledged
records are its lines, in order, before at most one that was written and not
acknowledged.
-/

variable {packages : Packages} {indexer : Value → List String}

/-! ## The acknowledged records -/

theorem acknowledged_cons_ok {state after : State} {call : Attempt} {calls : List Attempt}
    (same : attempt packages indexer state call = (.ok (), after)) :
    acknowledged packages indexer state (call :: calls) =
      call.capsule :: acknowledged packages indexer after calls := by
  rw [acknowledged, same]
  rfl

theorem acknowledged_cons_error {state after : State} {call : Attempt} {calls : List Attempt}
    {e : LedgerError} (same : attempt packages indexer state call = (.error e, after)) :
    acknowledged packages indexer state (call :: calls) =
      acknowledged packages indexer after calls := by
  rw [acknowledged, same]
  rfl

theorem attempt_grown (state : State) (call : Attempt) :
    state.disk.Grown (attempt packages indexer state call).2.disk := by
  rcases attempt_cases state call with ⟨e, refused⟩ | ⟨-, id, -, result⟩
  · rw [refused]
    exact Disk.Grown.refl _
  · rw [result]
    cases call.fault with
    | none => exact Disk.grown_write ..
    | some written => exact Disk.grown_write ..

theorem after_grown (state : State) (calls : List Attempt) :
    state.disk.Grown (Machine.after (attempt packages indexer) state calls).disk := by
  induction calls generalizing state with
  | nil => exact Disk.Grown.refl _
  | cons call calls ih => exact (attempt_grown state call).trans (ih _)

/-- The ledger has the lines it had, and one for each acknowledged record. -/
theorem acknowledged_stored {state : State} {calls : List Attempt}
    (safe : Machine.Guarded (attempt packages indexer) (Safe packages) state calls) :
    ∃ kept, (Machine.after (attempt packages indexer) state calls).ledger.lines =
        state.ledger.lines ++ kept ∧
      List.Forall₂ (fun record line => line.padding = false ∧
          Stored (Machine.after (attempt packages indexer) state calls).disk record line)
        (acknowledged packages indexer state calls) kept := by
  induction calls generalizing state with
  | nil => exact ⟨[], by simp, List.Forall₂.nil⟩
  | cons call calls ih =>
      rcases safe with ⟨first, rest⟩
      rcases ih rest with ⟨kept, lines, stored⟩
      have grown := @after_grown packages indexer (attempt packages indexer state call).2 calls
      rw [Machine.after_cons]
      rcases attempt_cases state call with ⟨e, refused⟩ | ⟨chained, id, admissible, result⟩
      · rw [acknowledged_cons_error refused]
        rw [refused] at lines stored ⊢
        exact ⟨kept, lines, stored⟩
      · cases fault : call.fault with
        | some written =>
            rw [fault] at result
            rw [acknowledged_cons_error result]
            rw [result] at lines stored ⊢
            exact ⟨kept, lines, stored⟩
        | none =>
            rw [fault] at result
            rw [acknowledged_cons_ok result]
            rw [result] at lines stored grown ⊢
            refine ⟨LedgerLine.new id state.disk.capsules.length call.capsule :: kept, ?_,
              List.Forall₂.cons ?_ stored⟩
            · rw [lines]
              simp [State.written]
            · have shallow := ((first chained id admissible).2
                (fun written some => by rw [fault] at some; cases some)).1
              refine ⟨chained, Stored.grown grown ⟨admissible.stored, rfl, shallow,
                ⟨state.disk.capsules, [], ?_, rfl⟩, ?_⟩⟩
              · simp [State.written, Disk.write]
              · simp [State.written, Disk.write, LedgerLine.new]

/-! ## Opening the file again -/

/-- The opened ledger holds the lines it started with, the acknowledged records
in order, and at most one line more; every acknowledged record is read back.
Where a Capsule ID binds the chain parent none is on the chain twice, and every
acknowledged record is found by its own. -/
structure Survives (packages : Packages) (start : Ledger) (records : List Value)
    (opened : Opened) : Prop where
  lines : ∃ kept rest, opened.ledger.lines = start.lines ++ kept ++ rest ∧ rest.length ≤ 1 ∧
    List.Forall₂ (fun record line => record.capsuleId = some line.capsuleId ∧
      line = LedgerLine.new line.capsuleId line.offset record ∧
      readLine packages opened.disk line.offset = .ok record) records kept
  once : packages.Binding → (opened.ledger.chained.map LedgerLine.capsuleId).Nodup
  found : packages.Binding → ∀ record ∈ records, ∃ id statement, record.capsuleId = some id ∧
    lookup packages opened.ledger opened.disk id = .ok (some ⟨record, statement⟩)

/-- An append of the record with the note, with a fault. -/
def noteAttempt (fault : Option Nat) : Attempt := ⟨replacedRecord, noteStatement.message, fault⟩

theorem replacedRecord_chained : isPadding replacedRecord = false := noteRecord_chained _ _

theorem parentOf_replacedRecord : parentOf replacedRecord = none := parentOf_noteRecord _ _

theorem replacedRecord_capsuleId : replacedRecord.capsuleId = some (Sha256.hex noteDigest) :=
  noteRecord_capsuleId _ _

theorem replacedRecord_admissible : Admissible notePackages .empty replacedRecord
    (Sha256.hex noteDigest) noteStatement.message := noteRecord_admissible _ _ rfl

/-- The state after the append of the record failed. -/
def noteFailed (written : Nat) : State := (State.fresh (fun _ => none)).torn replacedRecord
  (Sha256.hex noteDigest) noteStatement.message written

/-- The state after the record was appended again. -/
def noteResent (written : Nat) : State := (noteFailed written).written counterpartyCitationKeys
  replacedRecord (Sha256.hex noteDigest) noteStatement.message

section

variable (written : Nat)

theorem attempt_failed : attempt notePackages counterpartyCitationKeys (.fresh (fun _ => none))
    (noteAttempt (some written)) = (.error .io, noteFailed written) :=
  append_admissible (some written) replacedRecord_chained replacedRecord_admissible

theorem attempt_resent : attempt notePackages counterpartyCitationKeys (noteFailed written)
    (noteAttempt none) = (.ok (), noteResent written) :=
  append_admissible none replacedRecord_chained replacedRecord_admissible

end

end RustLedger
end CapsuleEmit
