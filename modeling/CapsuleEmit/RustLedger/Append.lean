import CapsuleEmit.RustLedger.CompleteLines

namespace CapsuleEmit
namespace RustLedger

open Utf8 (Valid fromUtf8Lossy)

/-!
# Appending to a flat ledger

Every append runs the checks `open` runs on a line, writes the signed statement
and then the line.  So what it writes is a line `open` admits.  It can only
disturb the lines before it through the statement file, which an earlier line
with the same Capsule ID shares.
-/

/-- An open ledger and its files. -/
structure State where
  ledger : Ledger
  disk : Disk

/-- A ledger opened on an empty file. -/
def State.fresh (statements : String → Option Bytes) : State := ⟨.empty, [], statements⟩

section

variable (packages : Packages) (indexer : Value → List String)

/-! ## The operations -/

/-- The checks of `write_line`, made before anything is written. -/
def lineChecks (lineNo : Nat) (record : Value) (capsuleId : String) (statement : Bytes) :
    Except LedgerError Unit := do
  checkCapsuleId packages lineNo record capsuleId
  checkStatement packages lineNo record capsuleId statement

/-- The statement of a Capsule ID is written, and then bytes at the end of the lines. -/
def Disk.write (disk : Disk) (capsuleId : String) (statement bytes : Bytes) : Disk where
  capsules := disk.capsules ++ bytes
  statements := Function.update disk.statements capsuleId (some statement)

/-- The bytes of a line. -/
def lineOf (record : Value) : Bytes := record.toText ++ [newline]

/-- `Ledger::write_line`.  With a fault the write of the line fails after some
of its bytes; it may be that all are written and the sync fails. -/
def writeLine (fault : Option Nat) (state : State) (capsuleId : String) (record : Value)
    (statement : Bytes) : Except LedgerError Nat × State :=
  match lineChecks packages (state.ledger.entries + 1) record capsuleId statement with
  | .error e => (.error e, state)
  | .ok _ =>
      let offset := state.disk.capsules.length
      match fault with
      | some written => (.error .io,
          ⟨state.ledger, state.disk.write capsuleId statement ((lineOf record).take written)⟩)
      | none => (.ok offset,
          ⟨state.ledger.pushLine capsuleId offset record,
            state.disk.write capsuleId statement (lineOf record)⟩)

/-- `Ledger::append` -/
def append (fault : Option Nat) (state : State) (capsule : Value) (signedStatement : Bytes) :
    Except LedgerError Unit × State :=
  if isPadding capsule then
    (.error (.paddingMisrouted
      "a padding record goes through append_padding, never onto the chain"), state)
  else match capsule.capsuleId with
  | none => (.error .noCapsuleId, state)
  | some capsuleId =>
      if parentOf capsule ≠ state.ledger.chainHead then
        (.error (.appendChainMismatch (parentOf capsule) state.ledger.chainHead), state)
      else match writeLine packages fault state capsuleId capsule signedStatement with
      | (.error e, after) => (.error e, after)
      | (.ok offset, after) =>
          (.ok (), { after with ledger := after.ledger.link indexer capsuleId offset capsule })

/-- `Ledger::append_padding` -/
def appendPadding (fault : Option Nat) (state : State) (record : Value)
    (signedStatement : Bytes) : Except LedgerError Unit × State :=
  if isPadding record = false then
    (.error (.paddingMisrouted "append_padding only takes a padding record"), state)
  else match checkPaddingShape record with
  | .error fault => (.error (.malformedPadding (state.ledger.entries + 1) fault), state)
  | .ok _ =>
      match record.capsuleId with
      | none => (.error .noCapsuleId, state)
      | some capsuleId =>
          match writeLine packages fault state capsuleId record signedStatement with
          | (.error e, after) => (.error e, after)
          | (.ok _, after) => (.ok (), after)

end

/-! ## What an append does -/

section

variable {packages : Packages} {indexer : Value → List String}

/-- The checks every line goes through, and the statement they were made with. -/
structure Admissible (packages : Packages) (ledger : Ledger) (record : Value) (id : String)
    (statement : Bytes) : Prop where
  stored : record.capsuleId = some id
  computed : computeCapsuleId packages record = .ok id
  shaped : isPadding record = true → checkPaddingShape record = .ok ()
  linked : isPadding record = true ∨ parentOf record = ledger.chainHead
  matched : checkStatementMatches packages record id statement = .ok ()

theorem admit_ok_iff {ledger ledger' : Ledger} {lineNo locator : Nat} {parsed : Value}
    {statement : String → Except LedgerError Bytes} :
    ledger.admit packages indexer lineNo locator parsed statement = .ok ledger' ↔
      ∃ id bytes, statement id = .ok bytes ∧ Admissible packages ledger parsed id bytes ∧
        ledger' = ledger.enter indexer id locator parsed := by
  rw [admit_eq_ok_iff]
  constructor
  · rintro ⟨id, bytes, stored, computed, shaped, linked, found, matched, same⟩
    exact ⟨id, bytes, found, ⟨stored, computed, shaped, linked, matched⟩, same⟩
  · rintro ⟨id, bytes, found, ⟨stored, computed, shaped, linked, matched⟩, same⟩
    exact ⟨id, bytes, stored, computed, shaped, linked, found, matched, same⟩

/-- The state after a line was written. -/
def State.written (indexer : Value → List String) (state : State) (record : Value) (id : String)
    (statement : Bytes) : State where
  ledger := state.ledger.enter indexer id state.disk.capsules.length record
  disk := state.disk.write id statement (lineOf record)

/-- The state after the write of a line failed. -/
def State.torn (state : State) (record : Value) (id : String) (statement : Bytes)
    (written : Nat) : State where
  ledger := state.ledger
  disk := state.disk.write id statement ((lineOf record).take written)

/-- An append refuses its record and changes nothing, or the record is
admissible and its line is written, whole or in part. -/
def Appends (packages : Packages) (indexer : Value → List String) (fault : Option Nat)
    (state : State) (record : Value) (statement : Bytes)
    (result : Except LedgerError Unit × State) : Prop :=
  (∃ e, result = (.error e, state)) ∨
    ∃ id, Admissible packages state.ledger record id statement ∧
      result = match fault with
        | none => (.ok (), state.written indexer record id statement)
        | some written => (.error .io, state.torn record id statement written)

theorem lineChecks_eq_ok_iff {lineNo : Nat} {record : Value} {id : String} {statement : Bytes}
    {done : Unit} : lineChecks packages lineNo record id statement = .ok done ↔
      computeCapsuleId packages record = .ok id ∧
        checkStatementMatches packages record id statement = .ok () := by
  simp only [lineChecks, bind_eq_ok_iff, checkCapsuleId_eq_ok_iff, checkStatement_eq_ok_iff,
    exists_const]

theorem append_appends (fault : Option Nat) (state : State) (record : Value) (statement : Bytes) :
    Appends packages indexer fault state record statement
      (append packages indexer fault state record statement) := by
  unfold append
  split
  · exact Or.inl ⟨_, rfl⟩
  · next chained =>
      split
      · exact Or.inl ⟨_, rfl⟩
      · next id stored =>
          split
          · exact Or.inl ⟨_, rfl⟩
          · next parent =>
              rw [ne_eq, not_not] at parent
              unfold writeLine
              cases checks : lineChecks packages (state.ledger.entries + 1) record id statement with
              | error e => exact Or.inl ⟨e, rfl⟩
              | ok done =>
                  rcases lineChecks_eq_ok_iff.mp checks with ⟨computed, matched⟩
                  refine Or.inr ⟨id, ⟨stored, computed, fun padding => absurd padding chained,
                    Or.inr parent, matched⟩, ?_⟩
                  cases fault with
                  | none => simp only [State.written, Ledger.enter, if_neg chained]
                  | some written => rfl

/-- An admissible record that is no padding is appended, unless its write fails. -/
theorem append_admissible (fault : Option Nat) {state : State} {record : Value} {id : String}
    {statement : Bytes} (chained : isPadding record = false)
    (admissible : Admissible packages state.ledger record id statement) :
    append packages indexer fault state record statement = match fault with
      | none => (.ok (), state.written indexer record id statement)
      | some written => (.error .io, state.torn record id statement written) := by
  have checks : lineChecks packages (state.ledger.entries + 1) record id statement = .ok () :=
    lineChecks_eq_ok_iff.mpr ⟨admissible.computed, admissible.matched⟩
  have parent : ¬ parentOf record ≠ state.ledger.chainHead := not_not.mpr
    (admissible.linked.resolve_left (by rw [chained]; decide))
  rw [append, if_neg (by rw [chained]; decide), admissible.stored]
  simp only [if_neg parent, writeLine, checks]
  cases fault with
  | none => simp only [State.written, Ledger.enter, chained, Bool.false_eq_true, if_false]
  | some written => rfl

theorem appendPadding_appends (fault : Option Nat) (state : State) (record : Value)
    (statement : Bytes) : Appends packages indexer fault state record statement
      (appendPadding packages fault state record statement) := by
  unfold appendPadding
  split
  · exact Or.inl ⟨_, rfl⟩
  · next padding =>
      rw [Bool.not_eq_false] at padding
      split
      · exact Or.inl ⟨_, rfl⟩
      · next done shaped =>
          split
          · exact Or.inl ⟨_, rfl⟩
          · next id stored =>
              unfold writeLine
              cases checks : lineChecks packages (state.ledger.entries + 1) record id statement with
              | error e => exact Or.inl ⟨e, rfl⟩
              | ok done =>
                  rcases lineChecks_eq_ok_iff.mp checks with ⟨computed, matched⟩
                  refine Or.inr ⟨id, ⟨stored, computed, fun _ => shaped, Or.inl padding,
                    matched⟩, ?_⟩
                  cases fault with
                  | none => simp only [State.written, Ledger.enter, if_pos padding]
                  | some written => rfl

end

/-- A record with a note passes every check of an empty ledger. -/
theorem noteRecord_admissible (note : String) (digest : Bytes) {statement : SignedStatement}
    (payload : statement.payload = (noteRecord note digest).toText) :
    Admissible (tablePackages [(noteText note, digest)] [statement]) .empty
      (noteRecord note digest) (Sha256.hex digest) statement.message where
  stored := noteRecord_capsuleId note digest
  computed := noteRecord_computed note digest _
  shaped padding := by
    rw [noteRecord_chained] at padding
    cases padding
  linked := Or.inr (parentOf_noteRecord note digest)
  matched := noteRecord_matched note digest _ payload

end RustLedger
end CapsuleEmit
