import CapsuleEmit.Foundation.LossyUtf8
import CapsuleEmit.Produce.Validation
import CapsuleEmit.RustLedger.Line

namespace CapsuleEmit
namespace RustLedger

/-!
# The flat layout

A flat ledger keeps its lines in `capsules.jsonl` and the signed statement of a
line in a file named by the line's Capsule ID.  In memory it has an index, the
chain head, the index keys and the lines; `open` builds these again from the
file.  A file that does not end with a newline was left by an interrupted
write, and `open` cuts off what follows the last newline.

`open` decodes the file to text before it splits it, and counts its offsets in
the text; reads and the cut count bytes.
-/

/-! ## The ledger in memory -/

/-- What a ledger holds in memory and a replay builds. -/
@[ext]
structure Ledger where
  index : String → Option Nat
  chainHead : Option String
  entries : Nat
  indexKeys : List String
  lines : List LedgerLine

namespace Ledger

def empty : Ledger := ⟨fun _ => none, none, 0, [], []⟩

/-- One more line of the file. -/
def pushLine (ledger : Ledger) (capsuleId : String) (offset : Nat) (record : Value) : Ledger :=
  { ledger with
    entries := ledger.entries + 1
    lines := ledger.lines ++ [LedgerLine.new capsuleId offset record] }

/-- The record of a line is indexed and becomes the chain head. -/
def link (indexer : Value → List String) (ledger : Ledger) (capsuleId : String) (offset : Nat)
    (record : Value) : Ledger :=
  { ledger with
    indexKeys := ledger.indexKeys ++ indexer record
    index := Function.update ledger.index capsuleId (some offset)
    chainHead := some capsuleId }

/-- A checked line: a padding record is neither indexed nor the head. -/
def enter (indexer : Value → List String) (ledger : Ledger) (capsuleId : String) (offset : Nat)
    (record : Value) : Ledger :=
  if isPadding record then ledger.pushLine capsuleId offset record
  else (ledger.pushLine capsuleId offset record).link indexer capsuleId offset record

@[simp] theorem enter_lines (indexer : Value → List String) (ledger : Ledger) (id : String)
    (offset : Nat) (record : Value) : (ledger.enter indexer id offset record).lines =
      ledger.lines ++ [LedgerLine.new id offset record] := by
  unfold enter
  split <;> rfl

@[simp] theorem enter_entries (indexer : Value → List String) (ledger : Ledger) (id : String)
    (offset : Nat) (record : Value) :
    (ledger.enter indexer id offset record).entries = ledger.entries + 1 := by
  unfold enter
  split <;> rfl

theorem enter_index (indexer : Value → List String) (ledger : Ledger) (id : String) (offset : Nat)
    (record : Value) : (ledger.enter indexer id offset record).index =
      if isPadding record then ledger.index
      else Function.update ledger.index id (some offset) := by
  unfold enter
  split <;> rfl

theorem enter_chainHead (indexer : Value → List String) (ledger : Ledger) (id : String)
    (offset : Nat) (record : Value) : (ledger.enter indexer id offset record).chainHead =
      if isPadding record then ledger.chainHead else some id := by
  unfold enter
  split <;> rfl

end Ledger

/-- The Capsule ID a record names as its chain parent. -/
def parentOf (record : Value) : Option String :=
  ((record.tree.get "chain").bind (Json.get "parent_capsule_id")).bind Json.asStr

/-- The Capsule ID a record carries. -/
def Value.capsuleId (record : Value) : Option String := record.str? "capsule_id"

section

variable (packages : Packages) (indexer : Value → List String)

/-- Line `lineNo` has the shape of a padding record if it is one. -/
def checkPadding (lineNo : Nat) (record : Value) : Except LedgerError Unit :=
  if isPadding record then (checkPaddingShape record).mapError (.malformedPadding lineNo)
  else .ok ()

theorem checkPadding_eq_ok_iff {lineNo : Nat} {record : Value} {done : Unit} :
    checkPadding lineNo record = .ok done ↔
      (isPadding record = true → checkPaddingShape record = .ok ()) := by
  unfold checkPadding
  split
  · next padding => simp only [mapError_eq_ok_iff, padding, forall_const]
  · next chained => simp [chained]

/-- `Replay::admit`: check line `lineNo` and enter it at `locator`. -/
def Ledger.admit (ledger : Ledger) (lineNo locator : Nat) (parsed : Value)
    (statement : String → Except LedgerError Bytes) : Except LedgerError Ledger := do
  let storedId ← parsed.capsuleId.elim (.error (.missingCapsuleId lineNo)) .ok
  checkCapsuleId packages lineNo parsed storedId
  checkPadding lineNo parsed
  ensure (isPadding parsed || parentOf parsed = ledger.chainHead)
    (.chainBroken lineNo (parentOf parsed) ledger.chainHead)
  let statementBytes ← statement storedId
  checkStatement packages lineNo parsed storedId statementBytes
  return ledger.enter indexer storedId locator parsed

/-! ## Files -/

/-- `capsules.jsonl`, and the statement files by Capsule ID. -/
structure Disk where
  capsules : Bytes
  statements : String → Option Bytes

/-- `File::set_len`: a longer file is filled with zeros. -/
def setLen (length : Nat) (bytes : Bytes) : Bytes :=
  bytes.take length ++ List.replicate (length - bytes.length) 0

/-- The statement file of a line. -/
def readStatementFile (statements : String → Option Bytes) (lineNo : Nat) (capsuleId : String) :
    Except LedgerError Bytes :=
  (statements capsuleId).elim
    (.error (.missingStatement lineNo capsuleId ("signed-statements/" ++ capsuleId ++ ".cose"))) .ok

/-- The pieces of a text between newlines, less the empty one after a final newline. -/
def parts (text : Bytes) : List Bytes :=
  let pieces := (Lines.split newline text).1 ++ [(Lines.split newline text).2]
  if pieces.getLast? = some [] then pieces.dropLast else pieces

/-- The loop of `open`.  It ends early at a torn write, with the offset the
file is cut to. -/
def openParts (statements : String → Option Bytes) (endsWithNewline : Bool) :
    List Bytes → Nat → Nat → Ledger → Except LedgerError (Ledger × Option Nat)
  | [], _, _, ledger => .ok (ledger, none)
  | line :: rest, lineNo, offset, ledger =>
      if line.isEmpty then
        openParts statements endsWithNewline rest (lineNo + 1) (offset + (line.length + 1)) ledger
      else if rest.isEmpty && !endsWithNewline then
        .ok (ledger, some offset)
      else do
        let parsed ← (packages.decodeRecord line).mapError .decode
        let ledger ← ledger.admit packages indexer lineNo offset parsed
          (readStatementFile statements lineNo)
        openParts statements endsWithNewline rest (lineNo + 1) (offset + (line.length + 1)) ledger

/-- An opened ledger, where its file was cut, and its files. -/
structure Opened where
  ledger : Ledger
  truncatedTornWriteAt : Option Nat
  disk : Disk

/-- `Ledger::open_with_indexer` -/
def openWithIndexer (disk : Disk) : Except LedgerError Opened := do
  let endsWithNewline := disk.capsules.getLast? = some newline
  let text := Utf8.fromUtf8Lossy disk.capsules
  let (ledger, torn) ← openParts packages indexer disk.statements endsWithNewline (parts text)
    1 0 .empty
  let capsules := torn.elim disk.capsules (setLen · disk.capsules)
  return ⟨ledger, torn, ⟨capsules, disk.statements⟩⟩

/-! ## Reading -/

/-- `str::trim_end` -/
def trimEnd (text : String) : String :=
  String.ofList (text.toList.reverse.dropWhile Produce.isWhiteSpace).reverse

/-- `BufRead::read_line` at an offset: the bytes up to the next newline and with
it, which must be UTF-8. -/
def readTextLine (capsules : Bytes) (offset : Nat) : Option String :=
  let rest := capsules.drop offset
  let line := rest.takeWhile (· ≠ newline)
  utf8? (line ++ (if line.length < rest.length then [newline] else []))

/-- `Ledger::read_line` -/
def readLine (disk : Disk) (offset : Nat) : Except LedgerError Value := do
  let line ← (readTextLine disk.capsules offset).elim (.error .io) .ok
  (packages.decodeRecord (utf8 (trimEnd line))).mapError .decode

/-- `Ledger::read_statement` -/
def readStatement (disk : Disk) (capsuleId : String) : Except LedgerError Bytes :=
  (disk.statements capsuleId).elim (.error .io) .ok

/-- A line's record and its signed statement. -/
structure LedgerEntry where
  capsule : Value
  signedStatement : Bytes

/-- `Ledger::lookup` -/
def lookup (ledger : Ledger) (disk : Disk) (capsuleId : String) :
    Except LedgerError (Option LedgerEntry) :=
  match ledger.index capsuleId with
  | none => .ok none
  | some offset => do
      let capsule ← readLine packages disk offset
      let signedStatement ← readStatement disk capsuleId
      return some ⟨capsule, signedStatement⟩

end

end RustLedger
end CapsuleEmit
