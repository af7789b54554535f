import CapsuleEmit.Foundation.Lines
import CapsuleEmit.Foundation.Machine
import CapsuleEmit.GoArtifact.Record

namespace CapsuleEmit
namespace GoArtifact

/-!
# The Go store on a JSONL file

The file holds one record a line, and an index in memory has the span of the
line of each Capsule ID.  A store that is opened scans the file for the index;
a put adds a line; a purge writes the file again with the line of one record
replaced, and builds the index a second time on the way.
-/

open ArtifactStore (validId)

/-- The spans of the lines by Capsule ID. -/
abbrev Index := String → Option Lines.Span

section

variable (packages : Packages)

/-! ## Reading lines -/

def maxLine : Nat := 16 * 1024 * 1024

/-- The lines of a file and what follows the last newline.  A line with its
newline fits the buffer of the scanner, and the remainder leaves a byte of it. -/
def scanRawLines (file : Bytes) : Result (List Bytes × Bytes) :=
  let pieces := Lines.split newline file
  if pieces.1.all (fun line => line.length + 1 ≤ maxLine) && pieces.2.length + 1 ≤ maxLine then
    .ok pieces
  else .error (.other "bufio.Scanner: token too long")

/-- The id of a line that is read without an error. -/
def scannedId (line : Bytes) : Option String :=
  if (packages.peek line).2 && (packages.peek line).1 ≠ "" then some (packages.peek line).1 else none

/-- The id a line sets, with or without an error after it. -/
def setId (line : Bytes) : Option String :=
  if (packages.peek line).1 ≠ "" then some (packages.peek line).1 else none

/-- The index of a file.  The last line with an id is the one that counts. -/
def scanIndex (file : Bytes) : Result Index := do
  let pieces ← scanRawLines file
  .ok (Lines.Index.scan (scannedId packages) pieces.1).spans

def readAt (file : Bytes) (entry : Lines.Span) : Result Record :=
  match Lines.readAt file entry with
  | none => .error (.corrupt "read failed")
  | some line =>
      match packages.unmarshal line with
      | .error e => .error (.corrupt ("parse failed: " ++ e))
      | .ok record => .ok record

/-! ## Operations -/

variable (trusted : List Bytes)

def get (file : Bytes) (index : Index) (id : String) : Result Record := do
  ensure (validId id) (.invalid "")
  match index id with
  | none => .error .notFound
  | some entry => do
      let record ← readAt packages file entry
      ensure (record.capsuleId = id) (.corrupt "index points to a different capsule")
      let _ ← verify packages record trusted
      .ok record

/-- Whether a record may be put again over the stored one. -/
def retry (file : Bytes) (entry : Lines.Span) (record : Record) (checksum : String) : Result Unit := do
  let existing ← readAt packages file entry
  ensure (existing.capsuleId = record.capsuleId) (.corrupt "index points to a different capsule")
  let _ ← verify packages existing trusted
  let stored ← storageChecksum packages existing
  ensure (stored = checksum) .conflict
  ensure (!existing.artifacts.any (fun a => a.state = purgedState)) .purged

/-- Add a line at the end of the file, after a newline if the file lacks one. -/
def appendLine (file : Bytes) (index : Index) (id : String) (data : Bytes) : Bytes × Index :=
  let start := if file ≠ [] ∧ file.getLast? ≠ some newline then file ++ [newline] else file
  (start ++ data ++ [newline], Function.update index id (some (start.length, data.length)))

def put (file : Bytes) (index : Index) (record : Record) : Result Unit × Bytes × Index :=
  let checked : Result (Record × String) := do
    let record ← prepare packages record
    let _ ← verify packages record trusted
    .ok (record, ← storageChecksum packages record)
  match checked with
  | .error e => (.error e, file, index)
  | .ok (record, checksum) =>
      match index record.capsuleId with
      | some entry => (retry packages trusted file entry record checksum, file, index)
      | none =>
          match packages.marshal record with
          | .error e => (.error (.other e), file, index)
          | .ok data => (.ok (), appendLine file index record.capsuleId data)

/-- Copy the lines from an offset, with the lines of one id replaced, and index
the copies. -/
def copyLines (target : String) (replacement : Bytes) : Nat → Index → List Bytes → List Bytes × Index
  | _, index, [] => ([], index)
  | offset, index, line :: lines =>
      let id := (packages.peek line).1
      let out := if id = target then replacement else line
      let index := if id ≠ "" then Function.update index id (some (offset, out.length)) else index
      let rest := copyLines target replacement (offset + out.length + 1) index lines
      (out :: rest.1, rest.2)

/-- Write the file again with the line of a record replaced.  An error leaves
the file and the index as they are. -/
def rewrite (file : Bytes) (target : String) (replacement : Record) : Result (Bytes × Index) := do
  let pieces ← scanRawLines file
  ensure (pieces.1.any (fun line => (packages.peek line).1 = target))
    (.corrupt "target line vanished during rewrite")
  match packages.marshal replacement with
  | .error e => .error (.other e)
  | .ok data =>
      let copied := copyLines packages target data 0 (fun _ => none) pieces.1
      .ok (Lines.join newline copied.1 pieces.2, copied.2)

def purge (file : Bytes) (index : Index) (id : String) : Result (Bytes × Index) := do
  ensure (validId id) (.invalid "")
  match index id with
  | none => .error .notFound
  | some entry => do
      let target ← readAt packages file entry
      ensure (target.capsuleId = id) (.corrupt "index points to a different capsule")
      rewrite packages file id (tombstoned target)

/-! ## Runs -/

/-- A file with the store that is open on it. -/
structure State where
  file : Bytes
  index : Option Index

inductive Op where
  | new
  | put (record : Record)
  | purge (id : String)

/-- The error of a call, if it failed; a call without a store has no answer. -/
abbrev Answer := Option (Result Unit)

def step (ns : String) (state : State) : Op → Answer × State
  | .new =>
      match (do checkConfig ns trusted; scanIndex packages state.file) with
      | .error e => (some (.error e), { state with index := none })
      | .ok index => (some (.ok ()), { state with index := some index })
  | .put record =>
      match state.index with
      | none => (none, state)
      | some index =>
          let (reply, file, index) := put packages trusted state.file index record
          (some reply, ⟨file, some index⟩)
  | .purge id =>
      match state.index with
      | none => (none, state)
      | some index =>
          match purge packages state.file index id with
          | .error e => (some (.error e), state)
          | .ok (file, index) => (some (.ok ()), ⟨file, some index⟩)

end

end GoArtifact
end CapsuleEmit
