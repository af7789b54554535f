import CapsuleEmit.Foundation.PythonJson
import CapsuleEmit.Foundation.PythonLines
import CapsuleEmit.RustLedger.Runs

namespace CapsuleEmit
namespace RustLedger

/-!
# The Python reader of a mesh ledger

`MeshLedgerLog` reads `capsules.jsonl` as one text, splits it into lines and
makes an entry of every line that is not blank.  A line that is no JSON object
with a Capsule ID is an error, the last one too.  The records are the lines
that are not padding, each under its Capsule ID.

`json.loads` and the time of a line, which the log package parses, are
parameters.
-/

/-! ## The reader -/

/-- How `json.loads` fails: with a `JSONDecodeError`, or with another exception. -/
inductive LoadsError where
  | decode (detail : String)
  | raised (detail : String)
  deriving DecidableEq

/-- What the reader takes from Python and from the log package. -/
structure Reader (Time : Type) where
  loads : String → Except LoadsError Json
  lineTime : Nat → Json → Option Time
  epoch : Time

/-- The text of a record. -/
def Value.text (record : Value) : String := (utf8? record.toText).get (valid_toText record)

theorem utf8_text (record : Value) : utf8 record.text = record.toText :=
  Utf8.utf8_of_utf8? (Option.some_get _).symm

/-- `json.loads` reads what serde_json wrote, if the text nests as serde_json
would read it and has no integer of too many digits. -/
structure Reader.Lawful {Time : Type} (reader : Reader Time) : Prop where
  reads : ∀ record : Value, record.tree.nesting ≤ decoderLevels →
    record.tree.everyNumber ArtifactStore.Python.converts = true →
      reader.loads record.text = .ok record.tree

/-- `cll.log.Entry` -/
structure MeshEntry (Time : Type) where
  seq : Nat
  value : Bytes
  appendedAt : Time

inductive MeshError where
  | unicode
  | notJson (line : Nat) (detail : String)
  | raised (line : Nat) (detail : String)
  | notObject (line : Nat)
  | badCapsuleId (line : Nat)
  deriving DecidableEq

/-- `MeshLedgerLog`: the lines, an entry for each, and where the record with a
Capsule ID is among the lines. -/
structure MeshLog (Time : Type) where
  lines : List Json
  entries : List (MeshEntry Time)
  records : String → Option Nat

section

variable {Time : Type} (reader : Reader Time)

def MeshLog.empty : MeshLog Time := ⟨[], [], fun _ => none⟩

/-- `json.loads` on a line, which must hold an object. -/
def jsonLine (number : Nat) (text : String) : Except MeshError Json :=
  match reader.loads text with
  | .error (.decode detail) => .error (.notJson number detail)
  | .error (.raised detail) => .error (.raised number detail)
  | .ok value => if value.asObject.isSome then .ok value else .error (.notObject number)

/-- A string member of a line. -/
def memberText (name : String) (line : Json) : Option String := (line.get name).bind Json.asStr

/-- One more line of the log. -/
def MeshLog.add (log : MeshLog Time) (number : Nat) (line : Json) :
    Except MeshError (MeshLog Time) := do
  let capsuleId ← ((memberText "capsule_id" line).filter ArtifactStore.validId).elim
    (.error (.badCapsuleId number)) .ok
  let value ← (Python.fromHex capsuleId).elim (.error (.badCapsuleId number)) .ok
  let seq := log.entries.length + 1
  let previous := (log.entries.getLast?.map MeshEntry.appendedAt).getD reader.epoch
  let appendedAt := (reader.lineTime seq line).getD previous
  return {
    lines := log.lines ++ [line]
    entries := log.entries ++ [⟨seq, value, appendedAt⟩]
    records :=
      if memberText "record_type" line ≠ some "padding" && (log.records capsuleId).isNone then
        Function.update log.records capsuleId (some log.lines.length)
      else log.records }

/-- The loop of `__init__` over `_json_lines`. -/
def readMesh : Nat → List (List Char) → MeshLog Time → Except MeshError (MeshLog Time)
  | _, [], log => .ok log
  | number, text :: rest, log =>
      if Produce.pythonBlank (String.ofList text) then readMesh (number + 1) rest log
      else do
        let line ← jsonLine reader number (String.ofList text)
        let log ← log.add reader number line
        readMesh (number + 1) rest log

/-- `MeshLedgerLog.__init__` on a directory without checkpoints. -/
def meshLedgerLog (capsules : Bytes) : Except MeshError (MeshLog Time) := do
  let text ← (utf8? capsules).elim (.error .unicode) .ok
  readMesh reader 1 (Python.splitlines (Python.translateNewlines text.toList)) .empty

end

end RustLedger
end CapsuleEmit
