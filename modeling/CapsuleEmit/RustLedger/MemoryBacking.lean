import CapsuleEmit.ArtifactStore.Identity
import CapsuleEmit.RustLedger.StorePadding
import CapsuleEmit.StoreLedger.Concrete

namespace CapsuleEmit
namespace RustLedger

/-!
# Stores in memory

The in-memory artifact store meets the contract a store-backed ledger relies
on, as long as no index was declared on it.  With the entry log in memory it
makes the stores of a ledger.
-/

open ArtifactStore (MemoryStore Record acceptRecord validId verify)

/-! ## The in-memory store -/

variable {packages : ArtifactStore.Packages} {trusted : List Bytes}

/-- Every record is kept under its Capsule ID and verifies, and no index was declared. -/
structure Kept (packages : ArtifactStore.Packages) (trusted : List Bytes) (store : MemoryStore) :
    Prop where
  record : ∀ id record, store.byId id = some record →
    record.capsuleId = id ∧ succeeds (verify packages record trusted) = true
  undeclared : store.lookup.paths = none

/-- An in-memory store of a ledger. -/
abbrev MemoryRecords (packages : ArtifactStore.Packages) (trusted : List Bytes) :=
  { store : MemoryStore // Kept packages trusted store }

def MemoryRecords.empty (packages : ArtifactStore.Packages) (trusted : List Bytes) :
    MemoryRecords packages trusted :=
  ⟨⟨fun _ => none, [], .default⟩, ⟨fun _ _ found => (nomatch found), rfl⟩⟩

theorem add_undeclared {index : ArtifactStore.MemoryIndex} (undeclared : index.paths = none)
    (id : String) (capsule : Bytes) : index.add packages id capsule = .ok index := by
  rw [ArtifactStore.MemoryIndex.add, undeclared]

/-- A put of an admitted record under a new Capsule ID. -/
theorem put_fresh {store : MemoryStore} (undeclared : store.lookup.paths = none)
    {record prepared : Record} (accepted : acceptRecord packages trusted record = .ok prepared)
    (fresh : store.byId prepared.capsuleId = none) :
    store.put packages trusted record = (.ok (), { store with
      byId := Function.update store.byId prepared.capsuleId (some prepared)
      order := store.order ++ [prepared.capsuleId] }) := by
  simp only [MemoryStore.put, accepted, fresh, add_undeclared undeclared]

theorem kept_put {store : MemoryStore} (kept : Kept packages trusted store) (record : Record) :
    Kept packages trusted (store.put packages trusted record).2 := by
  cases accepted : acceptRecord packages trusted record with
  | error e =>
      have same : (store.put packages trusted record).2 = store := by
        simp only [MemoryStore.put, accepted]
      rw [same]
      exact kept
  | ok prepared =>
      cases held : store.byId prepared.capsuleId with
      | none =>
          rw [put_fresh kept.undeclared accepted held]
          refine ⟨fun id other found => ?_, kept.undeclared⟩
          dsimp only at found
          by_cases same : id = prepared.capsuleId
          · subst same
            rw [Function.update_self, Option.some.injEq] at found
            subst found
            exact ⟨rfl, (ArtifactStore.acceptRecord_ok accepted).2.1⟩
          · rw [Function.update_of_ne same] at found
            exact kept.record id other found
      | some existing =>
          rw [MemoryStore.put_held accepted held]
          exact kept

/-- The in-memory store as the store of a ledger. -/
def memoryRecords (packages : ArtifactStore.Packages) (trusted : List Bytes) :
    RecordStore (MemoryRecords packages trusted) where
  get store id := store.1.get packages trusted id
  put store record := ((store.1.put packages trusted record).1,
    ⟨(store.1.put packages trusted record).2, kept_put store.2 record⟩)

theorem get_eq_ok_iff {store : MemoryRecords packages trusted} {id : String} {record : Record} :
    (memoryRecords packages trusted).get store id = .ok record ↔
      validId id = true ∧ store.1.byId id = some record := by
  change store.1.get packages trusted id = .ok record ↔ _
  rw [MemoryStore.get, bind_eq_ok_iff]
  constructor
  · rintro ⟨done, valid, found⟩
    refine ⟨ensure_eq_ok_iff.mp valid, ?_⟩
    split at found
    · cases found
    · next other held =>
        rcases bind_eq_ok_iff.mp found with ⟨_, -, same⟩
        cases same
        exact held
  · rintro ⟨valid, held⟩
    rcases succeeds_iff.mp (store.2.record id record held).2 with ⟨results, verified⟩
    refine ⟨(), ensure_eq_ok_iff.mpr valid, ?_⟩
    rw [held]
    dsimp only
    rw [verified]
    rfl

theorem get_absent {store : MemoryRecords packages trusted} {id : String} (valid : validId id = true)
    (absent : store.1.byId id = none) :
    (memoryRecords packages trusted).get store id = .error .notFound := by
  change store.1.get packages trusted id = _
  rw [MemoryStore.get, valid, ensure_true, ok_bind, absent]

/-- The in-memory store meets the contract. -/
theorem memoryRecords_lawful : (memoryRecords packages trusted).Lawful packages trusted where
  verified := by
    intro store id record got
    exact store.2.record id record (get_eq_ok_iff.mp got).2
  absent := by
    intro store id e valid got
    cases held : store.1.byId id with
    | none =>
        rw [get_absent valid held] at got
        exact (Except.error.inj got).symm
    | some record =>
        rw [get_eq_ok_iff.mpr ⟨valid, held⟩] at got
        cases got
  refused := by
    intro store record e refused
    simp only [memoryRecords, MemoryStore.put, refused]
  fresh := by
    intro store record prepared accepted absent
    have named : prepared.capsuleId = record.capsuleId :=
      (ArtifactStore.prepare_ok (ArtifactStore.acceptRecord_ok accepted).1).1
    have valid := ArtifactStore.validId_of_verify (ArtifactStore.acceptRecord_ok accepted).2.1
    have free : store.1.byId prepared.capsuleId = none := by
      cases held : store.1.byId prepared.capsuleId with
      | none => rfl
      | some existing =>
          rw [← named, get_eq_ok_iff.mpr ⟨valid, held⟩] at absent
          cases absent
    have put := put_fresh store.2.undeclared accepted free
    have byId : (store.1.put packages trusted record).2.byId =
        Function.update store.1.byId prepared.capsuleId (some prepared) := by
      rw [put]
    have answer : ((memoryRecords packages trusted).put store record).1 = .ok () :=
      (congrArg Prod.fst put : (store.1.put packages trusted record).1 = .ok ())
    refine ⟨_, Prod.ext answer rfl, ?_, fun id other => ?_⟩
    · refine get_eq_ok_iff.mpr ⟨named ▸ valid, ?_⟩
      change (store.1.put packages trusted record).2.byId record.capsuleId = some prepared
      rw [byId, named, Function.update_self]
    · change (store.1.put packages trusted record).2.get packages trusted id =
        store.1.get packages trusted id
      rw [MemoryStore.get, MemoryStore.get, byId, Function.update_of_ne (named ▸ other)]
  held := by
    intro store record prepared existing accepted got
    have named : prepared.capsuleId = record.capsuleId :=
      (ArtifactStore.prepare_ok (ArtifactStore.acceptRecord_ok accepted).1).1
    have held := (get_eq_ok_iff.mp got).2
    rw [← named] at held
    have put := MemoryStore.put_held accepted held
    refine Prod.ext ?_ (Subtype.ext ?_)
    · change (store.1.put packages trusted record).1 = _
      rw [put]
    · change (store.1.put packages trusted record).2 = _
      rw [put]

/-- The stores of a ledger in memory. -/
def memoryStores (packages : ArtifactStore.Packages) (trusted : List Bytes) :
    Stores (MemoryRecords packages trusted) (List Bytes) where
  artifacts := memoryRecords packages trusted
  log := StoreLedger.listLog

/-! ## Packages over tables -/

/-- The packages of a ledger and of its artifact store, with the given Class 1
check and signed envelopes. -/
def storePackages (ledger : Packages) (class1 : Json → ArtifactStore.Class1)
    (signed : List ArtifactStore.SignedEnvelope) : StorePackages where
  ledger := ledger
  artifacts := { ArtifactStore.concretePackages class1 signed with
    decodeCapsuleJson := fun data => (ledger.decodeRecord data).map Value.tree
    jsonDigest := fun value => (ledger.jsonDigest value).toOption }

theorem storePackages_lawful {ledger : Packages} (lawful : ledger.Lawful)
    (normal : ∀ left right, left.normal = right.normal →
      ledger.jsonDigest left = ledger.jsonDigest right)
    (class1 : Json → ArtifactStore.Class1) (signed : List ArtifactStore.SignedEnvelope) :
    (storePackages ledger class1 signed).Lawful where
  ledger := lawful
  artifacts := ⟨(ArtifactStore.concretePackages_lawful class1 signed).json,
    (ArtifactStore.concretePackages_lawful class1 signed).decode64_encode64,
    (ArtifactStore.concretePackages_lawful class1 signed).sha256_size⟩
  text := rfl
  decoder _ := rfl
  digests _ := rfl
  normal := normal

theorem tablePackages_normal {digests : List (Bytes × Bytes)} {signed : List SignedStatement}
    {left right : Json} (same : left.normal = right.normal) :
    (tablePackages digests signed).jsonDigest left =
      (tablePackages digests signed).jsonDigest right := by
  have numbers : left.everyNumber (fun _ => false) = right.everyNumber (fun _ => false) := by
    rw [← Json.everyNumber_normal (fun _ => rfl) left, same,
      Json.everyNumber_normal (fun _ => rfl) right]
  simp only [tablePackages, same, numbers]

/-- The signature of the envelope of the padding record. -/
def firstSignature : Bytes :=
  ArtifactStore.bigEndian 32 0x1b07758088f772b7950bd4627e5e32b9f13f9e2f7d1aa0a9fa365ce5c2620262 ++
    ArtifactStore.bigEndian 32 0x8d36e57d8c3283fc09aa8284d44cb5aa8776f5be66a4445a75e0a8d1174de50e

def firstEnvelope : Bytes := producerEnvelope signerKey paddingDigest firstSignature

/-- The packages that know the padding record and its envelope. -/
def paddingStorePackages : StorePackages :=
  storePackages paddingPackages (fun _ => ⟨false, none, []⟩) [⟨paddingId, signerKey, firstEnvelope⟩]

theorem paddingStorePackages_lawful : paddingStorePackages.Lawful :=
  storePackages_lawful paddingPackages_lawful (fun _ _ => tablePackages_normal) _ _

/-! ## The limits of a store -/

theorem length_cborHead_le (major n : Nat) : (cborHead major n).length ≤ 3 := by
  unfold cborHead
  split_ifs <;> simp

theorem length_cborBytes_le (bytes : Bytes) : (cborBytes bytes).length ≤ bytes.length + 3 := by
  have head := length_cborHead_le 2 bytes.length
  rw [cborBytes, List.length_append]
  omega

theorem length_cborText_le (text : String) : (cborText text).length ≤ (utf8 text).length + 3 := by
  have head := length_cborHead_le 3 (utf8 text).length
  rw [cborText, List.length_append]
  omega

theorem length_producerEnvelope_le (key digest signature : Bytes) :
    (producerEnvelope key digest signature).length ≤
      70 + key.length + digest.length + signature.length := by
  have media : (cborText "application/agent-action-capsule-id").length ≤ 38 :=
    (length_cborText_le _).trans (by decide)
  have header := length_cborBytes_le ([0xa3, 0x01, 0x27, 0x03] ++
    cborText "application/agent-action-capsule-id" ++ [0x04] ++ cborBytes key)
  have keyed := length_cborBytes_le key
  have payload := length_cborBytes_le digest
  have signed := length_cborBytes_le signature
  simp only [producerEnvelope, List.length_append, List.length_cons, List.length_nil] at header ⊢
  omega

theorem length_message_le (statement : SignedStatement) : statement.message.length ≤ 40 +
    (utf8 statement.contentType).length + (utf8 statement.issuer).length +
      (utf8 statement.subject).length + statement.payload.length + statement.signature.length := by
  have contentType := length_cborText_le statement.contentType
  have issuer := length_cborText_le statement.issuer
  have subject := length_cborText_le statement.subject
  have header := length_cborBytes_le statement.protectedHeader
  have payload := length_cborBytes_le statement.payload
  have signed := length_cborBytes_le statement.signature
  simp only [SignedStatement.message, SignedStatement.protectedHeader, List.length_append,
    List.length_cons, List.length_nil] at header ⊢
  omega

@[simp] theorem length_bigEndian (len n : Nat) : (ArtifactStore.bigEndian len n).length = len := by
  rw [ArtifactStore.bigEndian, List.length_map, List.length_range]

/-- The record of a padding line is within the limits. -/
theorem sized_paddingRecord {digest nonce key signature : Bytes} {statement : SignedStatement}
    (sizes : digest.length = 32 ∧ nonce.length = 32 ∧ key.length = 32 ∧ signature.length = 64)
    (texts : (utf8 statement.contentType).length + (utf8 statement.issuer).length ≤ 1000)
    (subject : statement.subject = Sha256.hex digest) (signed : statement.signature.length = 64)
    (payload : statement.payload = (paddingRecord (Sha256.hex digest) (Sha256.hex nonce)
      (producerEnvelope key digest signature) key).toText)
    (artifacts : List ArtifactStore.Artifact) :
    Sized ⟨Sha256.hex digest, (bareLine (paddingRecord (Sha256.hex digest) (Sha256.hex nonce)
      (producerEnvelope key digest signature) key)).toText, producerEnvelope key digest signature,
      artifacts⟩ statement.message := by
  have envelope := length_producerEnvelope_le key digest signature
  have lengths := length_paddingRecord_le digest nonce (producerEnvelope key digest signature) key
  have message := length_message_le statement
  rw [payload, subject, Sha256.length_utf8_hex] at message
  have limits : ArtifactStore.maxEnvelope = 65535 ∧ ArtifactStore.maxTotal = 8388608 := ⟨rfl, rfl⟩
  rw [Sized, limits.1, limits.2]
  dsimp only
  omega

end RustLedger
end CapsuleEmit
