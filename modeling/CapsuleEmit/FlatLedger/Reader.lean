import CapsuleEmit.Foundation.LossyUtf8
import CapsuleEmit.Foundation.OrderedMap
import CapsuleEmit.Foundation.Outcome
import CapsuleEmit.Foundation.PythonJson
import CapsuleEmit.Foundation.PythonLines
import CapsuleEmit.Produce.Validation

namespace CapsuleEmit
namespace FlatLedger

/-!
# The flat ledger and its two readers

A flat ledger is a file of lines.  `read_ledger_entries` reads all of it as one
text.  A `LegacyLedger` keeps an index of the lines it has read and, at every
operation, reads on from the byte where it stopped.

`json.loads`, `json.dumps` and the log package's reading of a time are
parameters.
-/

open Python (Dict Value)

/-- How `json.loads` fails: with a `JSONDecodeError`, or with another exception. -/
inductive LoadsError where
  | decode
  | raised (why : String)

/-- What the ledger takes from Python and from the log package. -/
structure Packages (Time : Type) where
  loads : String → Except LoadsError Value
  dumps : Dict → Except String String
  capsuleTimestamp : Nat → Value → Option Time
  epoch : Time

/-- `cll.log.Entry` -/
structure Entry (Time : Type) where
  seq : Nat
  value : Bytes
  appendedAt : Time

/-- `_Line` of a flat file. -/
structure Line (Time : Type) where
  entry : Entry Time
  offset : Nat
  length : Nat
  capsule : Bool

inductive LedgerError where
  | corrupt (why : String)
  | raised (why : String)

/-- A file, with the device and the inode it is. -/
structure File where
  identity : Nat × Nat
  bytes : Bytes

/-! ## Lines -/

/-- `kind` of the lines that are no capsules. -/
def nonCapsuleKinds : List String :=
  ["checkpoint_stamp", "disclosure_record", "checkpoint_witness_backfill", "archived_segment"]

/-- `_is_record` -/
def isRecord (obj : Dict) : Bool :=
  match obj.get? "kind" with
  | some (.str kind) => !nonCapsuleKinds.contains kind
  | _ => true

/-- A member that is there and is not `None`. -/
def given (key : String) (obj : Dict) : Option Value :=
  match obj.get? key with
  | some .none => none
  | other => other

/-- `text.strip()` -/
def strip (text : List Char) : List Char :=
  let space := fun c => Produce.isWhiteSpace c || Produce.isSeparator c
  ((text.dropWhile space).reverse.dropWhile space).reverse

/-- `raw.decode("utf-8", errors="replace")` -/
def decodeReplace (raw : Bytes) : List Char := ((utf8? (Utf8.fromUtf8Lossy raw)).getD "").toList

/-- The 32 bytes that `capsule_id` is the text of; others where it is no such text. -/
def valueOf (obj : Dict) : Bytes :=
  match obj.get? "capsule_id" with
  | some (.str id) => if id.length = 64 then (Python.fromHex id).getD [] else []
  | _ => []

section

variable {Time : Type} (packages : Packages Time)

/-- `_line_time` -/
def lineTime (seq : Nat) (obj : Dict) : Option Time :=
  let ownTime := given "timestamp" obj
  let stamped := match obj.get? "checkpoint" with
    | some (.dict checkpoint) => given "timestamp" checkpoint
    | _ => none
  (ownTime.or stamped).bind (packages.capsuleTimestamp seq)

/-- `_parse` -/
def parse (raw : Bytes) (offset seq : Nat) (previous : Time) :
    Except LedgerError (Option (Line Time)) :=
  let text := strip (decodeReplace raw)
  if text = [] then .ok none
  else
    match packages.loads (String.ofList text) with
    | .error .decode => .ok none
    | .error (.raised why) => .error (.raised why)
    | .ok (.dict obj) =>
        if (valueOf obj).length = 32 then
          .ok (some ⟨⟨seq, valueOf obj, (lineTime packages seq obj).getD previous⟩, offset,
            raw.length, isRecord obj⟩)
        else .error (.corrupt ("line seq=" ++ toString seq ++
          " capsule_id is not a 32-byte hex digest"))
    | .ok _ => .error (.corrupt ("line at byte " ++ toString offset ++ " is not a JSON object"))

/-! ## The index -/

/-- The lines of a chunk that are parsed, and where the next one is. -/
structure Scan (Time : Type) where
  parsed : List (Line Time)
  offset : Nat
  seq : Nat
  previous : Time

/-- A line of a chunk. -/
def scanLine (scan : Scan Time) (raw : Bytes) : Except LedgerError (Scan Time) :=
  (parse packages raw scan.offset scan.seq scan.previous).map fun
    | some line =>
        ⟨scan.parsed ++ [line], scan.offset + raw.length + 1, scan.seq + 1, line.entry.appendedAt⟩
    | none => { scan with offset := scan.offset + raw.length + 1 }

/-- A last line that has no newline yet. -/
def readTail (tail : Bytes) (scan : Scan Time) : Except LedgerError (Option (Line Time)) :=
  if tail = [] then .ok none else parse packages tail scan.offset scan.seq scan.previous

/-- The index of a `LegacyLedger`. -/
structure Handle (Time : Type) where
  lines : List (Line Time)
  first : List (Bytes × Nat)
  consumed : Nat
  tail : Option (Line Time)
  identity : Option (Nat × Nat)

/-- `_reset` -/
def Handle.reset : Handle Time := ⟨[], [], 0, none, none⟩

def lastTime (lines : List (Line Time)) : Time :=
  (lines.getLast?.map (fun line => line.entry.appendedAt)).getD packages.epoch

/-- A line behind the lines of an index, and its place unless an earlier line has the value. -/
def indexLine (index : List (Line Time) × List (Bytes × Nat)) (line : Line Time) :
    List (Line Time) × List (Bytes × Nat) :=
  (index.1 ++ [line], OrderedMap.keep line.entry.value index.1.length index.2)

def bytesOf (file : Option File) : Bytes := (file.map File.bytes).getD []

/-- What the size and the inode of the file tell: one that shrank or was replaced is read again
from the start. -/
def Handle.statted (file : Option File) (handle : Handle Time) : Handle Time :=
  { (if (bytesOf file).length < handle.consumed ∨
        (handle.identity.isSome ∧ file.map File.identity ≠ handle.identity) then Handle.reset
      else handle) with
    identity := file.map File.identity }

/-- `_refresh` -/
def Handle.refresh (file : Option File) (handle : Handle Time) :
    Except LedgerError Unit × Handle Time :=
  let handle := handle.statted file
  if (bytesOf file).length = handle.consumed ∧ handle.tail.isNone then (.ok (), handle)
  else
    let pieces := Lines.split 10 ((bytesOf file).drop handle.consumed)
    let start := ⟨[], handle.consumed, handle.lines.length + 1, lastTime packages handle.lines⟩
    match pieces.1.foldlM (scanLine packages) start with
    | .error error => (.error error, handle)
    | .ok scan =>
        match readTail packages pieces.2 scan with
        | .error error => (.error error, handle)
        | .ok tail =>
            let index := scan.parsed.foldl indexLine (handle.lines, handle.first)
            (.ok (), { handle with
              lines := index.1, first := index.2, consumed := scan.offset, tail := tail })

/-- `_all` -/
def Handle.all (handle : Handle Time) : List (Line Time) := handle.lines ++ handle.tail.toList

/-- `first.get(value)` -/
def placeOf (first : List (Bytes × Nat)) (value : Bytes) : Option Nat :=
  (first.find? (fun entry => entry.1 = value)).map Prod.snd

/-- `_find` -/
def Handle.find (handle : Handle Time) (value : Bytes) : Option (Line Time) :=
  match placeOf handle.first value with
  | some index => handle.lines[index]?
  | none => handle.tail.filter (fun line => line.entry.value = value)

/-! ## The whole file -/

/-- The lines of a text file in Python, which has its carriage returns as newlines. -/
def textLines (text : List Char) : List (List Char) :=
  let pieces := Lines.split '\n' (Python.translateNewlines text)
  pieces.1 ++ [pieces.2]

/-- `read_ledger_entries` of the lines of a file. -/
def readLines : List (List Char) → Except LedgerError (List Value)
  | [] => .ok []
  | raw :: rest =>
      if strip raw = [] then readLines rest
      else
        match packages.loads (String.ofList (strip raw)) with
        | .error .decode => readLines rest
        | .error (.raised why) => .error (.raised why)
        | .ok value => (readLines rest).map (value :: ·)

/-- `read_ledger_entries` -/
def readLedgerEntries (file : Option File) : Except LedgerError (List Value) :=
  match file with
  | none => .ok []
  | some file =>
      match utf8? file.bytes with
      | none => .error (.raised "'utf-8' codec can't decode the file")
      | some text => readLines packages (textLines text.toList)

end

end FlatLedger
end CapsuleEmit
