import CapsuleEmit.ArtifactStore.Record
import Mathlib.Data.List.Sort

namespace CapsuleEmit
namespace ArtifactStore

/-!
# The line codec and the storage checksum

A record is one line of compact JSON.  Derived serializers write the fields
in declaration order and leave out what is empty; derived deserializers take
an object with each known member at most once, unknown members ignored, or an
array of the fields by position.  A store reads a line in two ways: `peekId`
looks only at the Capsule ID, `decodeRecord` reads the whole record.

The storage checksum commits the Capsule, the envelope and the inventory
sorted by name, with a purged original counted as present, so a purge does
not change it.
-/

section

variable (packages : Packages)

/-! ## Writing -/

def jsonBytes (bytes : Bytes) : Json := Json.ofString (packages.encode64 bytes)

def Artifact.toJson (a : Artifact) : Json :=
  .object (
    [(utf8 "name", Json.ofString a.name)] ++
    (if a.binding.isEmpty then [] else [(utf8 "binding", Json.ofString a.binding)]) ++
    (match a.content with
      | none => []
      | some content => [(utf8 "content", jsonBytes packages content)]) ++
    [(utf8 "state", Json.ofString a.state.asStr)] ++
    (if a.contentSha256.isEmpty then []
      else [(utf8 "content_sha256", Json.ofString a.contentSha256)]))

def Record.toJson (record : Record) : Json :=
  .object [
    (utf8 "capsule_id", Json.ofString record.capsuleId),
    (utf8 "capsule", jsonBytes packages record.capsule),
    (utf8 "producer_envelope", jsonBytes packages record.producerEnvelope),
    (utf8 "artifacts", .array (record.artifacts.map (Artifact.toJson packages)))]

/-- The one-line wire form of a record. -/
def encodeRecord (record : Record) : Bytes := packages.json.toText (record.toJson packages)

/-! ## Reading -/

/-- What a derived deserializer finds for the named fields of a structure. -/
def structFields (names : List String) : Json → Option (List (Option Json))
  | .object members =>
      if members.all (fun member => (utf8? member.1).isSome) &&
          names.all (fun name => (members.filter (fun member => member.1 = utf8 name)).length ≤ 1)
      then some (names.map (fun name =>
        (members.find? (fun member => member.1 = utf8 name)).map Prod.snd))
      else none
  | .array items =>
      if items.length ≤ names.length then
        some ((List.range names.length).map (fun i => items[i]?))
      else none
  | _ => none

/-- A field that must be there. -/
def required {α : Type} (read : Json → Option α) (field : Option Json) : Option α := field.bind read

/-- A field with a default. -/
def defaulted {α : Type} (default : α) (read : Json → Option α) : Option Json → Option α
  | none => some default
  | some value => read value

def readBytes (value : Json) : Option Bytes := value.asStr.bind packages.decode64

/-- A unit variant: its name, or an object that maps its name to null. -/
def RetentionState.ofJson : Json → Option RetentionState
  | .string bytes => (utf8? bytes).bind RetentionState.parse
  | .object [(name, .null)] => (utf8? name).bind RetentionState.parse
  | _ => none

def artifactFields : List String := ["name", "binding", "content", "state", "content_sha256"]

def recordFields : List String := ["capsule_id", "capsule", "producer_envelope", "artifacts"]

def Artifact.ofJson (tree : Json) : Option Artifact :=
  match structFields artifactFields tree with
  | some [name, binding, content, state, contentSha256] => do
      let name ← required Json.asStr name
      let binding ← defaulted "" Json.asStr binding
      let content ← defaulted none (fun value => (readBytes packages value).map some) content
      let state ← required RetentionState.ofJson state
      let contentSha256 ← defaulted "" Json.asStr contentSha256
      return ⟨name, binding, content, state, contentSha256⟩
  | _ => none

def readList {α : Type} (read : Json → Option α) (value : Json) : Option (List α) :=
  value.asArray.bind (fun items => items.mapM read)

def Record.ofJson (tree : Json) : Option Record :=
  match structFields recordFields tree with
  | some [capsuleId, capsule, producerEnvelope, artifacts] => do
      let capsuleId ← required Json.asStr capsuleId
      let capsule ← required (readBytes packages) capsule
      let producerEnvelope ← required (readBytes packages) producerEnvelope
      let artifacts ← required (readList (Artifact.ofJson packages)) artifacts
      return ⟨capsuleId, capsule, producerEnvelope, artifacts⟩
  | _ => none

/-- Whether a tree is an artifact with the state as any string. -/
def anyStateOk (tree : Json) : Option Unit :=
  match structFields artifactFields tree with
  | some [name, binding, content, state, contentSha256] => do
      let _ ← required Json.asStr name
      let _ ← defaulted "" Json.asStr binding
      let _ ← defaulted none (fun value => (readBytes packages value).map some) content
      let _ ← defaulted "" Json.asStr state
      let _ ← defaulted "" Json.asStr contentSha256
      return ()
  | _ => none

/-- Whether a tree is a record with the states as any strings. -/
def lenientOk (tree : Json) : Bool :=
  match structFields recordFields tree with
  | some [capsuleId, capsule, producerEnvelope, artifacts] =>
      (required Json.asStr capsuleId).isSome && (required (readBytes packages) capsule).isSome &&
        (required (readBytes packages) producerEnvelope).isSome &&
        (required (readList (anyStateOk packages)) artifacts).isSome
  | _ => false

/-- Parses a wire line.  A record whose only fault is a retention state that
the codec cannot represent is invalid; any other line is corrupt. -/
def decodeRecord (line : Bytes) : Result Record :=
  match packages.json.ofText line with
  | none => .error (.corrupt ("parse failed: " ++ packages.jsonError line))
  | some tree =>
      match Record.ofJson packages tree with
      | some record => .ok record
      | none =>
          if lenientOk packages tree then .error (.invalid "retention state")
          else .error (.corrupt ("parse failed: " ++ packages.jsonError line))

/-- The Capsule ID a line carries, if it is not empty. -/
def peekId (line : Bytes) : Option String :=
  match packages.json.ofText line with
  | none => none
  | some tree =>
      match structFields ["capsule_id"] tree with
      | some [capsuleId] => (required Json.asStr capsuleId).filter (fun id => !id.isEmpty)
      | _ => none

/-! ## The storage checksum -/

/-- One row of the inventory a checksum commits. -/
structure ChecksumArtifact where
  name : String
  binding : String
  state : String
  contentSha256 : String

def ChecksumArtifact.toJson (row : ChecksumArtifact) : Json :=
  .object (
    [(utf8 "name", Json.ofString row.name)] ++
    (if row.binding.isEmpty then [] else [(utf8 "binding", Json.ofString row.binding)]) ++
    [(utf8 "state", Json.ofString row.state)] ++
    (if row.contentSha256.isEmpty then []
      else [(utf8 "content_sha256", Json.ofString row.contentSha256)]))

/-- The row of an original; a purged one counts as present. -/
def checksumRow (a : Artifact) : ChecksumArtifact where
  name := a.name
  binding := a.binding
  state := if a.state.asStr = "purged" then "present" else a.state.asStr
  contentSha256 := a.contentSha256

/-- The inventory sorted by the bytes of the names. -/
def checksumRows (artifacts : List Artifact) : List ChecksumArtifact :=
  (artifacts.map checksumRow).insertionSort (fun x y => utf8 x.name ≤ utf8 y.name)

/-- What the checksum of a record is taken of. -/
def checksumPreimage (record : Record) : Bytes :=
  packages.json.toText (.object [
    (utf8 "capsule_id", Json.ofString record.capsuleId),
    (utf8 "capsule", jsonBytes packages record.capsule),
    (utf8 "producer_envelope", jsonBytes packages record.producerEnvelope),
    (utf8 "artifacts", .array ((checksumRows record.artifacts).map ChecksumArtifact.toJson))])

def storageChecksum (record : Record) : String :=
  sha256Hex packages (checksumPreimage packages record)

end

/-! ## Reading back a written record -/

variable {packages : Packages}

@[simp] theorem readBytes_jsonBytes (lawful : packages.Lawful) (bytes : Bytes) :
    readBytes packages (jsonBytes packages bytes) = some bytes := by
  simp [readBytes, jsonBytes, lawful.decode64_encode64]

@[simp] theorem RetentionState.ofJson_asStr (state : RetentionState) :
    RetentionState.ofJson (Json.ofString state.asStr) = some state := by
  simp [RetentionState.ofJson, Json.ofString]

theorem Artifact.ofJson_toJson (lawful : packages.Lawful) (a : Artifact) :
    Artifact.ofJson packages (a.toJson packages) = some a := by
  obtain ⟨name, binding, content, state, contentSha256⟩ := a
  have fields : structFields artifactFields
      (Artifact.toJson packages ⟨name, binding, content, state, contentSha256⟩) =
      some [some (Json.ofString name),
        if binding.isEmpty then none else some (Json.ofString binding),
        content.map (jsonBytes packages),
        some (Json.ofString state.asStr),
        if contentSha256.isEmpty then none else some (Json.ofString contentSha256)] := by
    cases content <;> cases bound : binding.isEmpty <;> cases summed : contentSha256.isEmpty <;>
      simp [Artifact.toJson, structFields, artifactFields, bound, summed]
  rw [Artifact.ofJson, fields]
  cases content <;> cases bound : binding.isEmpty <;> cases summed : contentSha256.isEmpty <;>
    simp_all [required, defaulted, readBytes_jsonBytes lawful]

theorem mapM_map_some {α β : Type} {write : α → β} {read : β → Option α}
    (back : ∀ a, read (write a) = some a) (items : List α) :
    (items.map write).mapM read = some items := by
  induction items with
  | nil => rfl
  | cons a items ih => simp [List.mapM_cons, back, ih]

theorem structFields_record (record : Record) :
    structFields recordFields (record.toJson packages) =
      some [some (Json.ofString record.capsuleId), some (jsonBytes packages record.capsule),
        some (jsonBytes packages record.producerEnvelope),
        some (.array (record.artifacts.map (Artifact.toJson packages)))] := by
  simp [Record.toJson, structFields, recordFields]

theorem Record.ofJson_toJson (lawful : packages.Lawful) (record : Record) :
    Record.ofJson packages (record.toJson packages) = some record := by
  rw [Record.ofJson, structFields_record]
  simp [required, readList, Json.asArray, readBytes_jsonBytes lawful,
    mapM_map_some (Artifact.ofJson_toJson lawful)]

theorem Artifact.within_toJson (a : Artifact) (limit : Nat) :
    Json.Within (limit + 1) (a.toJson packages) := by
  cases content : a.content <;> cases bound : a.binding.isEmpty <;>
    cases summed : a.contentSha256.isEmpty <;>
    simp [Artifact.toJson, jsonBytes, content, bound, summed]

theorem Record.within_toJson (record : Record) :
    Json.Within depthLimit (record.toJson packages) := by
  simp [depthLimit, Record.toJson, jsonBytes, Artifact.within_toJson]

theorem ofText_encodeRecord (lawful : packages.Lawful) (record : Record) :
    packages.json.ofText (encodeRecord packages record) = some (record.toJson packages) :=
  lawful.json.ofText_toText _ record.within_toJson

/-- A written record reads back. -/
theorem decodeRecord_encodeRecord (lawful : packages.Lawful) (record : Record) :
    decodeRecord packages (encodeRecord packages record) = .ok record := by
  rw [decodeRecord, ofText_encodeRecord lawful]
  simp only [Record.ofJson_toJson lawful]

/-- The line of a record carries its Capsule ID. -/
theorem peekId_encodeRecord (lawful : packages.Lawful) {record : Record}
    (named : record.capsuleId ≠ "") :
    peekId packages (encodeRecord packages record) = some record.capsuleId := by
  rw [peekId, ofText_encodeRecord lawful]
  simp [Record.toJson, structFields, required, Option.filter, named]

theorem encodeRecord_clean (lawful : packages.Lawful) (record : Record) :
    Lines.Clean newline (encodeRecord packages record) :=
  lawful.json.newline_free _

theorem peekId_nil (lawful : packages.Lawful) : peekId packages [] = none := by
  rw [peekId, lawful.json.ofText_nil]

/-- The front of a line that was not written to its end carries no Capsule ID. -/
theorem peekId_incomplete (lawful : packages.Lawful) {record : Record} {front rest : Bytes}
    (line : encodeRecord packages record = front ++ rest) (more : rest ≠ []) :
    peekId packages front = none := by
  rw [peekId, lawful.json.incomplete _ front rest line more]

/-! ## A purge does not change the checksum -/

theorem checksumRow_purgedArtifact (a : Artifact) : checksumRow (purgedArtifact a) = checksumRow a := by
  unfold purgedArtifact
  split
  · next present => simp [checksumRow, present, RetentionState.asStr]
  · rfl

theorem checksumRows_purged (record : Record) :
    checksumRows (purged record).artifacts = checksumRows record.artifacts := by
  have rows : (record.artifacts.map purgedArtifact).map checksumRow =
      record.artifacts.map checksumRow := by
    rw [List.map_map]
    exact List.map_congr_left (fun a _ => checksumRow_purgedArtifact a)
  rw [checksumRows, purged, rows, checksumRows]

theorem checksumPreimage_purged (record : Record) :
    checksumPreimage packages (purged record) = checksumPreimage packages record := by
  rw [checksumPreimage, checksumRows_purged]
  rfl

theorem storageChecksum_purged (record : Record) :
    storageChecksum packages (purged record) = storageChecksum packages record := by
  rw [storageChecksum, checksumPreimage_purged, storageChecksum]

end ArtifactStore
end CapsuleEmit
