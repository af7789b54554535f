import CapsuleEmit.ArtifactStore.Index
import CapsuleEmit.ArtifactStore.Wire

namespace CapsuleEmit
namespace ArtifactStore

/-!
# The in-memory store

Prepared records by Capsule ID, with the IDs in admission order.  A record
once admitted is replaced only by its tombstoned form.
-/

/-- Admission as every backend does it: preparation, then verification. -/
def acceptRecord (packages : Packages) (trusted : List Bytes) (record : Record) : Result Record := do
  let prepared ← prepare packages record
  let _ ← verify packages prepared trusted
  .ok prepared

structure MemoryStore where
  byId : String → Option Record
  order : List String
  lookup : MemoryIndex

namespace MemoryStore

/-- Validates the namespace and the trusted keys. -/
def new (ns : String) (keys : List Bytes) : Result (List Bytes × MemoryStore) := do
  let trusted ← checkConfig ns keys
  .ok (trusted, ⟨fun _ => none, [], MemoryIndex.default⟩)

section

variable (packages : Packages) (trusted : List Bytes)

/-- Admits an immutable record, accepting byte-identical retries. -/
def put (store : MemoryStore) (record : Record) : Result Unit × MemoryStore :=
  match acceptRecord packages trusted record with
  | .error e => (.error e, store)
  | .ok prepared =>
      match store.byId prepared.capsuleId with
      | none =>
          let inserted := { store with
            byId := Function.update store.byId prepared.capsuleId (some prepared)
            order := store.order ++ [prepared.capsuleId] }
          match store.lookup.add packages prepared.capsuleId prepared.capsule with
          | .ok lookup => (.ok (), { inserted with lookup := lookup })
          | .error e => (.error e, inserted)
      | some existing =>
          if storageChecksum packages existing ≠ storageChecksum packages prepared then
            (.error .conflict, store)
          else if hasPurged existing then (.error .purged, store)
          else (.ok (), store)

/-- Returns a stored record after verification. -/
def get (store : MemoryStore) (id : String) : Result Record := do
  ensure (validId id) (.invalid "capsule id")
  match store.byId id with
  | none => .error .notFound
  | some record =>
      let _ ← verify packages record trusted
      .ok record

/-- Erases a record's present originals, keeping their commitments. -/
def purge (store : MemoryStore) (id : String) : Result Unit × MemoryStore :=
  if validId id then
    match store.byId id with
    | none => (.error .notFound, store)
    | some stored =>
        (.ok (), { store with byId := Function.update store.byId id (some (purged stored)) })
  else (.error (.invalid "capsule id"), store)

/-! ## The index extension -/

/-- Index the records with the given ids, in order.  Every listed id has a
record; the source would panic on one that has none. -/
def indexAll (store : MemoryStore) : List String → Result Unit × MemoryStore
  | [] => (.ok (), store)
  | id :: ids =>
      match store.byId id with
      | none => indexAll store ids
      | some record =>
          match store.lookup.add packages id record.capsule with
          | .ok lookup => indexAll { store with lookup := lookup } ids
          | .error e => (.error e, store)

/-- Declares paths and indexes the records already stored. -/
def initIndex (store : MemoryStore) (paths : List String) : Result Unit × MemoryStore :=
  match store.lookup.declare packages paths with
  | .error e => (.error e, store)
  | .ok (existing, lookup) =>
      if existing then indexAll packages { store with lookup := lookup } store.order
      else (.ok (), { store with lookup := lookup })

def find (store : MemoryStore) (query : Query) : Result Page := store.lookup.find packages query

end

end MemoryStore

/-! ## What admission gives -/

variable {packages : Packages} {trusted : List Bytes}

/-- An admitted record verifies, carries the checksums of its originals, and
has nothing purged. -/
theorem acceptRecord_ok {record prepared : Record} (ok : acceptRecord packages trusted record = .ok prepared) :
    prepare packages record = .ok prepared ∧
      succeeds (verify packages prepared trusted) = true ∧
      (∀ a ∈ prepared.artifacts, Settled packages a) ∧ hasPurged prepared = false := by
  obtain ⟨other, made, ok⟩ := bind_eq_ok_iff.mp ok
  obtain ⟨_, verified, same⟩ := bind_eq_ok_iff.mp ok
  cases same
  exact ⟨made, succeeds_iff.mpr ⟨_, verified⟩, prepare_settled made, hasPurged_prepare made⟩

/-- A record that verifies has a valid Capsule ID. -/
theorem validId_of_verify {record : Record}
    (ok : succeeds (verify packages record trusted) = true) : validId record.capsuleId = true := by
  obtain ⟨_, ok⟩ := succeeds_iff.mp ok
  obtain ⟨_, authentic, _⟩ := bind_eq_ok_iff.mp ok
  obtain ⟨_, valid, _⟩ := bind_eq_ok_iff.mp authentic
  exact ensure_eq_ok_iff.mp valid

end ArtifactStore
end CapsuleEmit
