import CapsuleEmit.ArtifactStore.Checksum
import CapsuleEmit.Foundation.OrderedMap
import CapsuleEmit.Produce.Canonical
import CapsuleEmit.RustLedger.Flat
import CapsuleEmit.StoreLedger.Ledger

namespace CapsuleEmit
namespace RustLedger

/-!
# The store layout

A store-backed ledger keeps a line as a record of an artifact store and an
entry of an entry log.  The record has the line without its signature and its
key, the producer envelope these two carry, and the signed statement as an
attachment; reading puts the two members back.  The entry is the commit point.

The artifact crate and the ledger take their JSON decoder and canonicalizer
from the same package.
-/

open ArtifactStore (ArtifactError Artifact Record acceptRecord storageChecksum hasPurged validId)
open StoreLedger (AppendOutcome EntryLog)

universe u v

/-! ## Packages of the two crates -/

/-- What the ledger and the artifact store take from other packages. -/
structure StorePackages where
  ledger : Packages
  artifacts : ArtifactStore.Packages

/-- Both crates are served as they rely on, the store writes JSON as the ledger
does, the decoder and the canonicalizer are the same, and a digest is of the
normal form. -/
structure StorePackages.Lawful (packages : StorePackages) : Prop where
  ledger : packages.ledger.Lawful
  artifacts : packages.artifacts.Lawful
  text : packages.artifacts.json = JsonText.form
  decoder : ∀ data, packages.artifacts.decodeCapsuleJson data =
    (packages.ledger.decodeRecord data).map Value.tree
  digests : ∀ value, packages.artifacts.jsonDigest value =
    (packages.ledger.jsonDigest value).toOption
  normal : ∀ left right, left.normal = right.normal →
    packages.ledger.jsonDigest left = packages.ledger.jsonDigest right

/-! ## Members of a value -/

theorem object_sound_iff {members : List (Bytes × Json)} :
    (Json.object members).textual = true ∧ (Json.object members).distinct = true ↔
      (members.map Prod.fst).Nodup ∧ ∀ member ∈ members,
        (utf8? member.1).isSome = true ∧ member.2.textual = true ∧ member.2.distinct = true := by
  rw [Json.textual, Json.distinct, textualMembers_iff, distinctMembers_iff]
  constructor
  · rintro ⟨texts, once, -, values⟩
    exact ⟨once, fun member inside =>
      ⟨(texts member inside).1, (texts member inside).2, values member inside⟩⟩
  · rintro ⟨once, each⟩
    exact ⟨fun member inside => ⟨(each member inside).1, (each member inside).2.1⟩, once,
      fun _ _ => List.not_mem_nil, fun member inside => (each member inside).2.2⟩

namespace Value

/-- An object with other members; any other value as it is. -/
def mapMembers (f : List (Bytes × Json) → List (Bytes × Json)) : Json → Json
  | .object members => .object (f members)
  | other => other

theorem mapMembers_sound {f : List (Bytes × Json) → List (Bytes × Json)} (value : Value)
    (once : ∀ members, (members.map Prod.fst).Nodup → ((f members).map Prod.fst).Nodup)
    (each : ∀ members, ∀ member ∈ f members, member ∈ members ∨
      (utf8? member.1).isSome = true ∧ member.2.textual = true ∧ member.2.distinct = true) :
    (mapMembers f value.tree).textual = true ∧ (mapMembers f value.tree).distinct = true := by
  rcases value with ⟨tree, textual, distinct⟩
  cases tree with
  | object members =>
      rcases object_sound_iff.mp ⟨textual, distinct⟩ with ⟨unique, sound⟩
      exact object_sound_iff.mpr ⟨once members unique, fun member inside =>
        (each members member inside).elim (sound member) id⟩
  | null => exact ⟨textual, distinct⟩
  | bool _ => exact ⟨textual, distinct⟩
  | number _ => exact ⟨textual, distinct⟩
  | string _ => exact ⟨textual, distinct⟩
  | array _ => exact ⟨textual, distinct⟩

theorem remove_sound (name : String) (value : Value) :
    (mapMembers (OrderedMap.swapRemove (utf8 name)) value.tree).textual = true ∧
      (mapMembers (OrderedMap.swapRemove (utf8 name)) value.tree).distinct = true :=
  value.mapMembers_sound (fun _ once => (OrderedMap.nodup_swapRemove once).1)
    (fun _ _ inside => Or.inl (OrderedMap.mem_of_mem_swapRemove inside))

/-- `Map::remove` on the object of a line. -/
def remove (name : String) (value : Value) : Value where
  tree := mapMembers (OrderedMap.swapRemove (utf8 name)) value.tree
  textual := (value.remove_sound name).1
  distinct := (value.remove_sound name).2

theorem insert_sound (name : String) (text : String) (value : Value) :
    (mapMembers (OrderedMap.insert (utf8 name) (Json.ofString text)) value.tree).textual = true ∧
      (mapMembers (OrderedMap.insert (utf8 name) (Json.ofString text)) value.tree).distinct =
        true := by
  apply value.mapMembers_sound (fun _ once => OrderedMap.nodup_insert once)
  intro _ member inside
  rcases OrderedMap.mem_insert inside with old | rfl
  · exact Or.inl old
  · exact Or.inr ⟨by rw [utf8?_utf8]; rfl, (textOf text).textual, rfl⟩

/-- `Map::insert` of a string into the object of a line. -/
def insert (name : String) (text : String) (value : Value) : Value where
  tree := mapMembers (OrderedMap.insert (utf8 name) (Json.ofString text)) value.tree
  textual := (value.insert_sound name text).1
  distinct := (value.insert_sound name text).2

end Value

/-! ## Records of lines -/

/-- The name of the attachment that holds a line's signed statement. -/
def statementName : String := "signed-statement"

/-- The signature and the key of a line, if both are strings. -/
def envelopeMembers (line : Value) : Option (String × String) := do
  let signature ← line.str? "signature"
  let keyId ← line.str? "key_id"
  return (signature, keyId)

/-- A line without its envelope. -/
def bareLine (line : Value) : Value := (line.remove "signature").remove "key_id"

/-- A line with the envelope of its record. -/
def withEnvelope (bare : Value) (signature keyId : String) : Value :=
  (bare.insert "signature" signature).insert "key_id" keyId

/-- The error text of an artifact store. -/
def errorText : ArtifactError → String
  | .invalid why => "invalid artifact record: " ++ why
  | .conflict => "immutable record conflict"
  | .notFound => "capsule not found"
  | .purged => "originals were purged"
  | .digestMismatch which => "original does not match capsule digest: " ++ which
  | .untrustedSigner => "producer signer is not trusted"
  | .corrupt why => "stored record integrity failure: " ++ why
  | .unsupported why => "unsupported: " ++ why
  | .storage why => "storage: " ++ why

/-- An artifact store in some state. -/
structure RecordStore (α : Type u) where
  get : α → String → ArtifactStore.Result Record
  put : α → Record → ArtifactStore.Result Unit × α

/-- The states of the two stores. -/
structure Backing (α : Type u) (β : Type v) where
  artifacts : α
  log : β

/-- The interfaces of the two stores. -/
structure Stores (α : Type u) (β : Type v) where
  artifacts : RecordStore α
  log : EntryLog β

section

variable (packages : StorePackages)

/-- `statement_artifact` -/
def statementArtifact (statement : Bytes) : Artifact where
  name := statementName
  binding := ""
  content := some statement
  state := .present
  contentSha256 := ArtifactStore.sha256Hex packages.artifacts statement

/-- `to_record` -/
def toRecord (capsuleId : String) (line : Value) (statement : Bytes) :
    Except LedgerError Record := do
  let _ ← line.tree.asObject.elim
    (.error (.envelope capsuleId "the line is not a JSON object")) .ok
  let (signature, keyId) ← (envelopeMembers line).elim (.error (.envelope capsuleId
    "a store-backed ledger needs the line's producer envelope (signature and key_id)")) .ok
  let envelope ← (hexDecode signature).elim
    (.error (.envelope capsuleId "signature is not hex")) .ok
  let verified := packages.artifacts.envelope capsuleId envelope
  ensure verified.ok (.envelope capsuleId "the envelope does not verify over the capsule_id")
  ensure (keyId = Sha256.hex verified.publicKey)
    (.envelope capsuleId "key_id is not the envelope's signer")
  ensure (signature = Sha256.hex envelope) (.envelope capsuleId "signature is not lowercase hex")
  return ⟨capsuleId, (bareLine line).toText, envelope, [statementArtifact packages statement]⟩

/-- The line a record holds and its signed statement, if it is there. -/
def readRecord (line : Nat) (capsuleId : String) (record : Record) :
    Except LedgerError (Value × Option Bytes) := do
  let parsed ← (packages.ledger.decodeRecord record.capsule).mapError .decode
  let envelope := packages.artifacts.envelope capsuleId record.producerEnvelope
  let _ ← parsed.tree.asObject.elim (.error (.missingCapsuleId line)) .ok
  let statement := (record.artifacts.find? (fun a =>
    a.name = statementName && a.binding.isEmpty)).bind Artifact.content
  return (withEnvelope parsed (Sha256.hex record.producerEnvelope)
    (Sha256.hex envelope.publicKey), statement)

variable {α : Type u} {β : Type v} (stores : Stores α β)

/-- `Stores::read` -/
def Stores.read (state : Backing α β) (line : Nat) (capsuleId : String) :
    Except LedgerError (Value × Option Bytes) :=
  match stores.artifacts.get state.artifacts capsuleId with
  | .error .notFound => .error (.missingRecord line capsuleId)
  | .error e => .error (.store (errorText e))
  | .ok record => readRecord packages line capsuleId record

/-- `Stores::capsule_id_at` -/
def Stores.capsuleIdAt (state : Backing α β) (seq : Nat) : Except LedgerError String := do
  let entries ← (stores.log.scanEntries state.log (seq - 1) 1).mapError .log
  let entry ← (entries.head?.filter (fun entry => 0 < seq && entry.1 = seq)).elim
    (.error (.log "no log entry at this seq")) .ok
  return Sha256.hex entry.2

/-- `Stores::write`: the record, and then the entry of the log. -/
def Stores.write (state : Backing α β) (capsuleId : String) (line : Value) (statement : Bytes) :
    Except LedgerError Nat × Backing α β :=
  match toRecord packages capsuleId line statement with
  | .error e => (.error e, state)
  | .ok record =>
      match stores.artifacts.put state.artifacts record with
      | (.error e, artifacts) => (.error (.store (errorText e)), { state with artifacts })
      | (.ok _, artifacts) =>
          match hexDecode capsuleId with
          | none => (.error .noCapsuleId, { state with artifacts })
          | some value =>
              match stores.log.append state.log value with
              | .error e => (.error (.log e), { state with artifacts })
              | .ok ((.inserted, seq), log) => (.ok seq, ⟨artifacts, log⟩)
              | .ok ((.idempotent, _), log) => (.error (.alreadyInLog capsuleId), ⟨artifacts, log⟩)

/-! ## Opening -/

variable (indexer : Value → List String)

/-- One entry of a replay: the record it names, admitted as a line. -/
def Stores.admitEntry (state : Backing α β) (ledger : Ledger) (entry : Nat × Bytes) :
    Except LedgerError Ledger := do
  let capsuleId := Sha256.hex entry.2
  let (parsed, statement) ← stores.read packages state entry.1 capsuleId
  ensure (parsed.capsuleId = some capsuleId)
    (.capsuleIdMismatch entry.1 (parsed.capsuleId.getD "") capsuleId)
  ledger.admit packages.ledger indexer entry.1 entry.1 parsed (fun storedId =>
    statement.elim (.error (.statementInvalid entry.1 storedId .missing)) .ok)

/-- The pages of the log behind a sequence number. -/
def Stores.replayPages (state : Backing α β) : Nat → Nat → Ledger → Except LedgerError Ledger
  | 0, _, ledger => .ok ledger
  | fuel + 1, after, ledger =>
      match stores.log.scanEntries state.log after stores.log.maxScanLimit with
      | .error e => .error (.log e)
      | .ok page =>
          match page.getLast? with
          | none => .ok ledger
          | some last => do
              let ledger ← page.foldlM (stores.admitEntry packages indexer state) ledger
              replayPages state fuel last.1 ledger

/-- `Ledger::open_stores_with_indexer`.  Each page has an entry at least, so the
log is read after as many pages as it has entries. -/
def Stores.openStores (state : Backing α β) : Except LedgerError Ledger :=
  stores.replayPages packages indexer state ((stores.log.values state.log).length + 1) 0 .empty

end

/-! ## The contract of an artifact store -/

/-- An artifact store refuses what is not admitted and then changes nothing.  It
keeps what was admitted under a new Capsule ID as it was prepared, and compares
a record under a Capsule ID it has by the checksum. -/
structure RecordStore.Lawful {α : Type u} (packages : ArtifactStore.Packages)
    (trusted : List Bytes) (store : RecordStore α) : Prop where
  verified : ∀ {state id record}, store.get state id = .ok record →
    record.capsuleId = id ∧ succeeds (ArtifactStore.verify packages record trusted) = true
  absent : ∀ {state id e}, validId id = true → store.get state id = .error e → e = .notFound
  refused : ∀ {state record e}, acceptRecord packages trusted record = .error e →
    store.put state record = (.error e, state)
  fresh : ∀ {state record prepared}, acceptRecord packages trusted record = .ok prepared →
    store.get state record.capsuleId = .error .notFound →
      ∃ state', store.put state record = (.ok (), state') ∧
        store.get state' record.capsuleId = .ok prepared ∧
        ∀ id, id ≠ record.capsuleId → store.get state' id = store.get state id
  held : ∀ {state record prepared existing}, acceptRecord packages trusted record = .ok prepared →
    store.get state record.capsuleId = .ok existing →
      store.put state record =
        (if storageChecksum packages existing ≠ storageChecksum packages prepared then
          .error .conflict
        else if hasPurged existing then .error .purged else .ok (), state)

end RustLedger
end CapsuleEmit
