import CapsuleEmit.RustLedger.Runs
import CapsuleEmit.RustLedger.Stores

namespace CapsuleEmit
namespace RustLedger

/-!
# One ledger on either layout

A ledger is the same on both layouts up to where it writes a line and where it
reads one.  Its operations are stated here over a layout; on the flat layout
they are those of the flat ledger with every write completing.
-/

open ArtifactStore (Record)

universe u v

/-! ## Layouts -/

/-- Where a ledger writes its lines and reads them back. -/
structure Layout (σ : Type u) where
  write : σ → String → Value → Bytes → Except LedgerError Nat × σ
  readLine : σ → Nat → Except LedgerError Value
  entry : σ → Nat → String → Except LedgerError LedgerEntry

/-- An open ledger and its storage. -/
structure Book (σ : Type u) where
  ledger : Ledger
  storage : σ

/-- The flat layout, with every write completing. -/
def flatLayout (packages : Packages) : Layout Disk where
  write disk capsuleId record statement :=
    (.ok disk.capsules.length, disk.write capsuleId statement (lineOf record))
  readLine disk offset := RustLedger.readLine packages disk offset
  entry disk offset capsuleId := do
    let capsule ← RustLedger.readLine packages disk offset
    let signedStatement ← readStatement disk capsuleId
    return ⟨capsule, signedStatement⟩

/-- An entry log and an artifact store. -/
def storesLayout (packages : StorePackages) {α : Type u} {β : Type v} (stores : Stores α β) :
    Layout (Backing α β) where
  write state capsuleId record statement := stores.write packages state capsuleId record statement
  readLine state offset := do
    let capsuleId ← stores.capsuleIdAt state offset
    let (record, _) ← stores.read packages state offset capsuleId
    return record
  entry state offset capsuleId := do
    let (capsule, statement) ← stores.read packages state offset capsuleId
    let signedStatement ← statement.elim
      (.error (.statementInvalid offset capsuleId .missing)) .ok
    return ⟨capsule, signedStatement⟩

namespace Layout

section

variable {σ : Type u} (layout : Layout σ) (packages : Packages) (indexer : Value → List String)

/-- `Ledger::write_line` -/
def writeLine (book : Book σ) (capsuleId : String) (record : Value) (statement : Bytes) :
    Except LedgerError Nat × Book σ :=
  match lineChecks packages (book.ledger.entries + 1) record capsuleId statement with
  | .error e => (.error e, book)
  | .ok _ =>
      match layout.write book.storage capsuleId record statement with
      | (.error e, storage) => (.error e, ⟨book.ledger, storage⟩)
      | (.ok offset, storage) => (.ok offset, ⟨book.ledger.pushLine capsuleId offset record, storage⟩)

/-- `Ledger::append` -/
def append (book : Book σ) (capsule : Value) (signedStatement : Bytes) :
    Except LedgerError Unit × Book σ :=
  if isPadding capsule then
    (.error (.paddingMisrouted
      "a padding record goes through append_padding, never onto the chain"), book)
  else match capsule.capsuleId with
  | none => (.error .noCapsuleId, book)
  | some capsuleId =>
      if parentOf capsule ≠ book.ledger.chainHead then
        (.error (.appendChainMismatch (parentOf capsule) book.ledger.chainHead), book)
      else match layout.writeLine packages book capsuleId capsule signedStatement with
      | (.error e, after) => (.error e, after)
      | (.ok offset, after) =>
          (.ok (), { after with ledger := after.ledger.link indexer capsuleId offset capsule })

/-- `Ledger::append_padding` -/
def appendPadding (book : Book σ) (record : Value) (signedStatement : Bytes) :
    Except LedgerError Unit × Book σ :=
  if isPadding record = false then
    (.error (.paddingMisrouted "append_padding only takes a padding record"), book)
  else match checkPaddingShape record with
  | .error fault => (.error (.malformedPadding (book.ledger.entries + 1) fault), book)
  | .ok _ =>
      match record.capsuleId with
      | none => (.error .noCapsuleId, book)
      | some capsuleId =>
          match layout.writeLine packages book capsuleId record signedStatement with
          | (.error e, after) => (.error e, after)
          | (.ok _, after) => (.ok (), after)

/-- The loop of `pad_to_bucket`, over the nonces it draws. -/
def padRecords (signer : Signer packages) (issuer : String) :
    List Nonce → Book σ → Except LedgerError Unit × Book σ
  | [], book => (.ok (), book)
  | nonce :: nonces, book =>
      match buildPadding packages signer nonce with
      | .error e => (.error (.jcs e), book)
      | .ok (capsuleId, record) =>
          match layout.appendPadding packages book record
              (paddingStatement packages signer issuer capsuleId record) with
          | (.error e, after) => (.error e, after)
          | (.ok _, after) => padRecords signer issuer nonces after

/-- `Ledger::pad_to_bucket` -/
def padToBucket (signer : Signer packages) (issuer : String) (draw : Nat → Nonce) (book : Book σ)
    (bucket : Nat) : Except LedgerError Nat × Book σ :=
  match layout.padRecords packages signer issuer
      ((List.range (missingLines bucket book.ledger.entries)).map draw) book with
  | (.error e, after) => (.error e, after)
  | (.ok _, after) => (.ok after.ledger.entries, after)

/-- One call on a ledger of the layout. -/
def step (book : Book σ) : Op packages → Except LedgerError (Option Nat) × Book σ
  | .append capsule statement =>
      let (answer, after) := layout.append packages indexer book capsule statement
      (answer.map (fun _ => none), after)
  | .appendPadding record statement =>
      let (answer, after) := layout.appendPadding packages book record statement
      (answer.map (fun _ => none), after)
  | .padToBucket bucket signer issuer draw =>
      let (answer, after) := layout.padToBucket packages signer issuer draw book bucket
      (answer.map some, after)

/-- `Ledger::lookup` -/
def lookup (book : Book σ) (capsuleId : String) : Except LedgerError (Option LedgerEntry) :=
  match book.ledger.index capsuleId with
  | none => .ok none
  | some offset => (layout.entry book.storage offset capsuleId).map some

end

end Layout

/-! ## Checks and writes -/

section

variable (packages : Packages)

/-- The checks of an append, with the Capsule ID the line is written under. -/
def appendChecks (ledger : Ledger) (record : Value) (statement : Bytes) :
    Except LedgerError String := do
  ensure (isPadding record = false) (.paddingMisrouted
    "a padding record goes through append_padding, never onto the chain")
  let capsuleId ← record.capsuleId.elim (.error .noCapsuleId) .ok
  ensure (parentOf record = ledger.chainHead)
    (.appendChainMismatch (parentOf record) ledger.chainHead)
  lineChecks packages (ledger.entries + 1) record capsuleId statement
  return capsuleId

/-- The checks of a padding append. -/
def paddingChecks (ledger : Ledger) (record : Value) (statement : Bytes) :
    Except LedgerError String := do
  ensure (isPadding record = true)
    (.paddingMisrouted "append_padding only takes a padding record")
  (checkPaddingShape record).mapError (.malformedPadding (ledger.entries + 1))
  let capsuleId ← record.capsuleId.elim (.error .noCapsuleId) .ok
  lineChecks packages (ledger.entries + 1) record capsuleId statement
  return capsuleId

end

section

variable {packages : Packages} {ledger : Ledger} {record : Value} {statement : Bytes} {id : String}

theorem elim_eq_ok_iff {γ : Type u} {value : Option γ} {e : LedgerError} {found : γ} :
    value.elim (.error e) .ok = (.ok found : Except LedgerError γ) ↔ value = some found := by
  cases value with
  | none => simp
  | some other => simp

theorem appendChecks_eq_ok_iff : appendChecks packages ledger record statement = .ok id ↔
    isPadding record = false ∧ Admissible packages ledger record id statement := by
  simp only [appendChecks, bind_eq_ok_iff, ensure_eq_ok_iff, decide_eq_true_eq, elim_eq_ok_iff,
    lineChecks_eq_ok_iff, pure_eq_ok, Except.ok.injEq, exists_const]
  constructor
  · rintro ⟨chained, other, stored, parent, ⟨computed, matched⟩, rfl⟩
    exact ⟨chained, stored, computed, fun padding => absurd (chained.symm.trans padding) (by decide),
      Or.inr parent, matched⟩
  · rintro ⟨chained, admissible⟩
    have parent := admissible.linked.resolve_left (by rw [chained]; decide)
    exact ⟨chained, id, admissible.stored, parent, ⟨admissible.computed, admissible.matched⟩, rfl⟩

theorem paddingChecks_eq_ok_iff : paddingChecks packages ledger record statement = .ok id ↔
    isPadding record = true ∧ Admissible packages ledger record id statement := by
  simp only [paddingChecks, bind_eq_ok_iff, ensure_eq_ok_iff, decide_eq_true_eq, elim_eq_ok_iff,
    mapError_eq_ok_iff, lineChecks_eq_ok_iff, pure_eq_ok, Except.ok.injEq, exists_const]
  constructor
  · rintro ⟨padding, done, shaped, other, stored, ⟨computed, matched⟩, rfl⟩
    exact ⟨padding, stored, computed, fun _ => shaped, Or.inl padding, matched⟩
  · rintro ⟨padding, admissible⟩
    exact ⟨padding, (), admissible.shaped padding, id, admissible.stored,
      ⟨admissible.computed, admissible.matched⟩, rfl⟩

/-- What is admissible depends on the head of the ledger only. -/
theorem Admissible.of_head {other : Ledger}
    (admissible : Admissible packages ledger record id statement)
    (head : other.chainHead = ledger.chainHead) : Admissible packages other record id statement :=
  { admissible with linked := head ▸ admissible.linked }

/-- The checks look at nothing of the ledger but its length and its head. -/
theorem checks_congr {other : Ledger} (entries : other.entries = ledger.entries)
    (head : other.chainHead = ledger.chainHead) :
    appendChecks packages other record statement = appendChecks packages ledger record statement ∧
      paddingChecks packages other record statement =
        paddingChecks packages ledger record statement := by
  rw [appendChecks, appendChecks, paddingChecks, paddingChecks, entries, head]
  exact ⟨rfl, rfl⟩

end

namespace Layout

variable {σ : Type u} (layout : Layout σ) {packages : Packages} (indexer : Value → List String)

/-- A checked line is written and entered. -/
def commit (book : Book σ) (capsuleId : String) (record : Value) (statement : Bytes) :
    Except LedgerError Unit × Book σ :=
  match layout.write book.storage capsuleId record statement with
  | (.error e, storage) => (.error e, ⟨book.ledger, storage⟩)
  | (.ok offset, storage) => (.ok (), ⟨book.ledger.enter indexer capsuleId offset record, storage⟩)

theorem append_eq (book : Book σ) (record : Value) (statement : Bytes) :
    layout.append packages indexer book record statement =
      match appendChecks packages book.ledger record statement with
      | .error e => (.error e, book)
      | .ok capsuleId => layout.commit indexer book capsuleId record statement := by
  unfold append appendChecks
  cases chained : isPadding record with
  | true => rfl
  | false =>
      cases record.capsuleId with
      | none => rfl
      | some capsuleId =>
          by_cases parent : parentOf record = book.ledger.chainHead
          · simp only [Bool.false_eq_true, if_false, parent, ne_eq, not_true, decide_true,
              ensure_true, ok_bind, Option.elim_some, writeLine, commit, Ledger.enter, chained]
            cases lineChecks packages (book.ledger.entries + 1) record capsuleId statement with
            | error e => rfl
            | ok done =>
                simp only [ok_bind, pure_eq_ok]
                rcases layout.write book.storage capsuleId record statement with ⟨_ | _, _⟩ <;> rfl
          · simp only [Bool.false_eq_true, if_false, parent, ne_eq, not_false_eq_true, if_true,
              decide_true, decide_false, ensure_true, ensure_false, ok_bind, error_bind,
              Option.elim_some]

theorem appendPadding_eq (book : Book σ) (record : Value) (statement : Bytes) :
    layout.appendPadding packages book record statement =
      match paddingChecks packages book.ledger record statement with
      | .error e => (.error e, book)
      | .ok capsuleId => layout.commit indexer book capsuleId record statement := by
  unfold appendPadding paddingChecks
  cases padding : isPadding record with
  | false => rfl
  | true =>
      cases checkPaddingShape record with
      | error fault => rfl
      | ok done =>
          cases record.capsuleId with
          | none => rfl
          | some capsuleId =>
              simp only [Bool.true_eq_false, if_false, decide_true, ensure_true, ok_bind,
                Except.mapError, Option.elim_some, writeLine, commit, Ledger.enter, padding, if_true]
              cases lineChecks packages (book.ledger.entries + 1) record capsuleId statement with
              | error e => rfl
              | ok done =>
                  simp only [ok_bind, pure_eq_ok]
                  rcases layout.write book.storage capsuleId record statement with ⟨_ | _, _⟩ <;> rfl

/-- A record that passes the checks and is written is entered. -/
theorem append_written {book : Book σ} {record : Value} {statement : Bytes} {id : String}
    {offset : Nat} {storage : σ} (chained : isPadding record = false)
    (admissible : Admissible packages book.ledger record id statement)
    (written : layout.write book.storage id record statement = (.ok offset, storage)) :
    layout.append packages indexer book record statement =
      (.ok (), ⟨book.ledger.enter indexer id offset record, storage⟩) := by
  rw [append_eq, appendChecks_eq_ok_iff.mpr ⟨chained, admissible⟩]
  simp only [commit, written]

theorem appendPadding_written {book : Book σ} {record : Value} {statement : Bytes} {id : String}
    {offset : Nat} {storage : σ} (padding : isPadding record = true)
    (admissible : Admissible packages book.ledger record id statement)
    (written : layout.write book.storage id record statement = (.ok offset, storage)) :
    layout.appendPadding packages book record statement =
      (.ok (), ⟨book.ledger.enter indexer id offset record, storage⟩) := by
  rw [appendPadding_eq _ indexer, paddingChecks_eq_ok_iff.mpr ⟨padding, admissible⟩]
  simp only [commit, written]

/-- A record that passes the checks and is refused where it is written. -/
theorem step_append_refused {book : Book σ} {record : Value} {statement : Bytes} {id : String}
    {e : LedgerError} {storage : σ} (chained : isPadding record = false)
    (admissible : Admissible packages book.ledger record id statement)
    (refused : layout.write book.storage id record statement = (.error e, storage)) :
    layout.step packages indexer book (.append record statement) =
      (.error e, ⟨book.ledger, storage⟩) := by
  rw [step, append_eq, appendChecks_eq_ok_iff.mpr ⟨chained, admissible⟩]
  simp only [commit, refused]
  rfl

theorem step_appendPadding_refused {book : Book σ} {record : Value} {statement : Bytes}
    {id : String} {e : LedgerError} {storage : σ} (padding : isPadding record = true)
    (admissible : Admissible packages book.ledger record id statement)
    (refused : layout.write book.storage id record statement = (.error e, storage)) :
    layout.step packages indexer book (.appendPadding record statement) =
      (.error e, ⟨book.ledger, storage⟩) := by
  rw [step, appendPadding_eq _ indexer, paddingChecks_eq_ok_iff.mpr ⟨padding, admissible⟩]
  simp only [commit, refused]
  rfl

end Layout

/-! ## The flat ledger -/

def State.book (state : State) : Book Disk := ⟨state.ledger, state.disk⟩

/-- A result on the flat ledger as one on its layout. -/
def booked {γ : Type v} (result : γ × State) : γ × Book Disk := (result.1, result.2.book)

section

variable {packages : Packages} {indexer : Value → List String}

theorem flat_writeLine (state : State) (capsuleId : String) (record : Value) (statement : Bytes) :
    (flatLayout packages).writeLine packages state.book capsuleId record statement =
      booked (writeLine packages none state capsuleId record statement) := by
  unfold Layout.writeLine writeLine State.book
  dsimp only
  cases lineChecks packages (state.ledger.entries + 1) record capsuleId statement <;> rfl

theorem flat_append (state : State) (capsule : Value) (statement : Bytes) :
    (flatLayout packages).append packages indexer state.book capsule statement =
      booked (append packages indexer none state capsule statement) := by
  unfold Layout.append append
  split
  · rfl
  · cases capsule.capsuleId with
    | none => rfl
    | some capsuleId =>
        dsimp only
        rw [flat_writeLine]
        change (if parentOf capsule ≠ state.ledger.chainHead then _ else _) = _
        split
        · rfl
        · rcases writeLine packages none state capsuleId capsule statement with ⟨_ | _, after⟩ <;> rfl

theorem flat_appendPadding (state : State) (record : Value) (statement : Bytes) :
    (flatLayout packages).appendPadding packages state.book record statement =
      booked (appendPadding packages none state record statement) := by
  unfold Layout.appendPadding appendPadding
  split
  · rfl
  · cases checkPaddingShape record with
    | error fault => rfl
    | ok done =>
        cases record.capsuleId with
        | none => rfl
        | some capsuleId =>
            dsimp only
            rw [flat_writeLine]
            rcases writeLine packages none state capsuleId record statement with ⟨_ | _, after⟩ <;>
              rfl

theorem flat_padRecords (signer : Signer packages) (issuer : String) (nonces : List Nonce)
    (state : State) : (flatLayout packages).padRecords packages signer issuer nonces state.book =
      booked (padRecords packages signer issuer nonces state) := by
  induction nonces generalizing state with
  | nil => rfl
  | cons nonce nonces ih =>
      rw [Layout.padRecords, padRecords]
      cases buildPadding packages signer nonce with
      | error e => rfl
      | ok built =>
          dsimp only
          rw [flat_appendPadding]
          rcases appendPadding packages none state built.2
            (paddingStatement packages signer issuer built.1 built.2) with ⟨_ | _, after⟩
          · rfl
          · exact ih after

theorem booked_injective {γ : Type v} : Function.Injective (@booked γ) := by
  rintro ⟨answer, ledger, disk⟩ ⟨answer', ledger', disk'⟩ same
  cases same
  rfl

/-- An append on the flat ledger is its checks and a write. -/
theorem append_checks (state : State) (record : Value) (statement : Bytes) :
    append packages indexer none state record statement =
      match appendChecks packages state.ledger record statement with
      | .error e => (.error e, state)
      | .ok id => (.ok (), state.written indexer record id statement) := by
  apply booked_injective
  rw [← flat_append, Layout.append_eq]
  change (match appendChecks packages state.ledger record statement with
    | .error e => _
    | .ok id => _) = _
  cases appendChecks packages state.ledger record statement <;> rfl

theorem appendPadding_checks (state : State) (record : Value) (statement : Bytes) :
    appendPadding packages none state record statement =
      match paddingChecks packages state.ledger record statement with
      | .error e => (.error e, state)
      | .ok id => (.ok (), state.written indexer record id statement) := by
  apply booked_injective
  rw [← flat_appendPadding, Layout.appendPadding_eq _ indexer]
  change (match paddingChecks packages state.ledger record statement with
    | .error e => _
    | .ok id => _) = _
  cases paddingChecks packages state.ledger record statement <;> rfl

/-- A call on the flat layout is one on the flat ledger. -/
theorem flat_step (state : State) (op : Op packages) :
    (flatLayout packages).step packages indexer state.book op =
      booked (step packages indexer state op) := by
  cases op with
  | append capsule statement =>
      rw [Layout.step, flat_append]
      rfl
  | appendPadding record statement =>
      rw [Layout.step, flat_appendPadding]
      rfl
  | padToBucket bucket signer issuer draw =>
      have entries : state.book.ledger.entries = state.ledger.entries := rfl
      rw [Layout.step, Layout.padToBucket, entries, flat_padRecords, step, padToBucket]
      rcases padRecords packages signer issuer
        ((List.range (missingLines bucket state.ledger.entries)).map draw) state
        with ⟨_ | _, after⟩ <;> rfl

theorem flat_lookup (state : State) (capsuleId : String) :
    (flatLayout packages).lookup state.book capsuleId =
      lookup packages state.ledger state.disk capsuleId := by
  unfold Layout.lookup lookup State.book
  dsimp only
  cases state.ledger.index capsuleId with
  | none => rfl
  | some offset =>
      simp only [flatLayout]
      cases RustLedger.readLine packages state.disk offset with
      | error e => rfl
      | ok capsule =>
          cases readStatement state.disk capsuleId <;> rfl

end

end RustLedger
end CapsuleEmit
