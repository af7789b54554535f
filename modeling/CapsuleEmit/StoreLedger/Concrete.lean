import CapsuleEmit.ArtifactStore.Concrete
import CapsuleEmit.Foundation.PythonText
import CapsuleEmit.StoreLedger.Reopen

namespace CapsuleEmit
namespace StoreLedger

/-!
# A ledger over lists

An entry log and an artifact store in memory that meet their contracts, and
the packages as they answer on two signed padding records.
-/

open Python (Dict Value)
open ArtifactStore (Record Artifact ArtifactError bigEndian coseEnvelope)

/-! ## Stores in memory -/

def listLog : EntryLog (List Bytes) where
  values := id
  maxScanLimit := 1000
  scanEntries state after limit := .ok (((numbered state).drop after).take limit)
  append state value :=
    if value ∈ state then .ok ((.idempotent, state.idxOf value + 1), state)
    else .ok ((.inserted, state.length + 1), state ++ [value])

theorem listLog_lawful : listLog.Lawful where
  limit_pos := by decide
  scan := fun _ _ _ => rfl
  append_new := by
    intro state value fresh
    exact ⟨state ++ [value], if_neg fresh, rfl⟩
  append_known := by
    intro state value known
    exact ⟨state.idxOf value + 1, if_pos known⟩

/-- A record that a store may hold. -/
def Admissible (packages : Packages) (record : Record) : Prop :=
  ArtifactStore.validId record.capsuleId = true ∧
    ∃ members, Python.decodeStrictJson packages.json record.capsule = .ok (.dict members)

/-- The records a store holds. -/
structure Records (packages : Packages) where
  held : List Record
  admissible : ∀ record ∈ held, Admissible packages record

def Records.empty (packages : Packages) : Records packages := ⟨[], fun _ inside => nomatch inside⟩

instance (packages : Packages) (record : Record) : Decidable (Admissible packages record) :=
  decidable_of_iff (ArtifactStore.validId record.capsuleId = true ∧
      ((Python.decodeStrictJson packages.json record.capsule).toOption.bind Value.dict?).isSome = true) (by
    rw [Admissible]
    cases Python.decodeStrictJson packages.json record.capsule with
    | error e => simp [Except.toOption]
    | ok value => cases value <;> simp [Except.toOption, Value.dict?])

def Records.find (packages : Packages) (state : Records packages) (id : String) : Option Record :=
  state.held.find? (fun record => record.capsuleId = id)

/-- A store in memory. -/
def listStore (packages : Packages) : RecordStore (Records packages) where
  get state id :=
    match state.find packages id with
    | some record => .ok record
    | none => .error .notFound
  put state record :=
    match state.find packages record.capsuleId with
    | some held => if held = prepared packages record then .ok state else .error .conflict
    | none =>
        if admissible : Admissible packages record then
          .ok ⟨state.held ++ [prepared packages record], by
            intro other inside
            rcases List.mem_append.mp inside with before | last
            · exact state.admissible other before
            · rw [List.mem_singleton.mp last]
              exact admissible⟩
        else .error (.invalid "record")

section

variable {packages : Packages}

theorem listStore_get {state : Records packages} {id : String} {record : Record} :
    (listStore packages).get state id = .ok record ↔ state.find packages id = some record := by
  unfold listStore
  dsimp only
  split
  · next found => simp [found]
  · next absent => simp [absent]

theorem listStore_put {state state' : Records packages} {record : Record}
    (put : (listStore packages).put state record = .ok state') :
    state.find packages record.capsuleId = none ∧ Admissible packages record ∧
        state'.held = state.held ++ [prepared packages record] ∨
      state.find packages record.capsuleId = some (prepared packages record) ∧ state' = state := by
  unfold listStore at put
  dsimp only at put
  split at put
  · next held found =>
      split at put
      · next same =>
          cases put
          exact Or.inr ⟨same ▸ found, rfl⟩
      · cases put
  · next absent =>
      split at put
      · next admissible =>
          cases put
          exact Or.inl ⟨absent, admissible, rfl⟩
      · cases put

theorem admissible_of_find {state : Records packages} {id : String} {record : Record}
    (found : state.find packages id = some record) : Admissible packages record :=
  state.admissible record (List.mem_of_find?_eq_some found)

theorem listStore_lawful : (listStore packages).Lawful packages where
  admitted := by
    intro state record state' put
    rcases listStore_put put with ⟨_, admissible, _⟩ | ⟨found, _⟩
    · exact admissible
    · exact (admissible_of_find found : Admissible packages (prepared packages record))
  stored := by
    intro state record state' put
    rw [listStore_get]
    rcases listStore_put put with ⟨absent, _, added⟩ | ⟨found, rfl⟩
    · rw [Records.find] at absent
      rw [Records.find, added, List.find?_append, absent]
      simp [prepared]
    · exact found
  kept := by
    intro state record state' id held put got
    rw [listStore_get] at got ⊢
    rcases listStore_put put with ⟨_, _, added⟩ | ⟨_, rfl⟩
    · rw [Records.find] at got
      rw [Records.find, added, List.find?_append, got]
      rfl
    · exact got
  known := by
    intro state record state' held put got
    rw [listStore_get] at got
    rcases listStore_put put with ⟨absent, _, _⟩ | ⟨_, same⟩
    · rw [absent] at got
      cases got
    · exact same
  retried := by
    intro state record got _
    rw [listStore_get] at got
    rw [listStore]
    dsimp only
    rw [got]
    exact if_pos rfl

end

/-! ## Signed padding records -/

def signerKey : Bytes :=
  bigEndian 32 0xea4a6c63e29c520abef5507b132ec5f9954776aebebe7b92421eea691446d22c

/-- A padding record with its envelope and its signed statement. -/
structure SignedPadding where
  capsuleId : String
  idBytes : Bytes
  storeNonce : String
  envelopeSignature : Bytes
  statementSignature : Bytes

namespace SignedPadding

variable (padding : SignedPadding)

def envelope : Bytes := coseEnvelope signerKey padding.idBytes padding.envelopeSignature

def line : Dict := [
  ("capsule_id", .str padding.capsuleId), ("record_type", .str "padding"),
  ("epistemic_type", .str "producer_claim"), ("store_nonce", .str padding.storeNonce),
  ("signature", .str (Sha256.hex padding.envelope)), ("key_id", .str (Sha256.hex signerKey))]

def payload : Bytes :=
  match Python.compactText.dumps (.dict padding.line) with
  | .ok bytes => bytes
  | .error _ => []

def statement : Bytes :=
  [0xd2, 0x84, 0x58, 0x93, 0xa4, 0x03, 0x70] ++ utf8 "application/json" ++
    [0x0f, 0xa2, 0x01, 0x74] ++ utf8 "store-ledger-vectors" ++ [0x02, 0x78, 0x40] ++
    utf8 padding.capsuleId ++ [0x04, 0x58, 0x20] ++ signerKey ++
    [0x01, 0x27, 0xa0, 0x59, 0x02, 0xa1] ++ padding.payload ++ [0x58, 0x40] ++
    padding.statementSignature

end SignedPadding

def firstPadding : SignedPadding where
  capsuleId := "3ceb4dff078ac36e216ae4336f8628ce07ad7efd44d4478dc451cb5d95286f64"
  idBytes := bigEndian 32 0x3ceb4dff078ac36e216ae4336f8628ce07ad7efd44d4478dc451cb5d95286f64
  storeNonce := "cccccccccccccccccccccccccccccccccccccccccccccccccccccccccccccccc"
  envelopeSignature :=
    bigEndian 32 0x727aae137c78b367ac92ec3a177e5f2ab5c96a5017e3c197072ac71b198333b0 ++
    bigEndian 32 0x71af2f0d73ba27e9de6a377d3d5a6bf6e388816dcd0401fbbb53521e78364609
  statementSignature :=
    bigEndian 32 0x259f6635ab7af75898bae9cf0600f7caa39e96e11e97521b80f32924aaa1d44c ++
    bigEndian 32 0x5dbe0bce1fed0e0aff7f3b75b33e61309fac8f6b35c0748079131e6eba51760d

def secondPadding : SignedPadding where
  capsuleId := "93720ee8f89af6a91e8c23bcdbcb5cb01c95650a54e7e0331eeec5c81219261f"
  idBytes := bigEndian 32 0x93720ee8f89af6a91e8c23bcdbcb5cb01c95650a54e7e0331eeec5c81219261f
  storeNonce := "dddddddddddddddddddddddddddddddddddddddddddddddddddddddddddddddd"
  envelopeSignature :=
    bigEndian 32 0x0e790a2ea48aa7e9742a6419fc10691584c61e697d235c11f3b408f6ff79f4cb ++
    bigEndian 32 0xb006c416889986e0365835da4e3043a99c5d3655ad4fc47a18a072641d61380c
  statementSignature :=
    bigEndian 32 0x9acc4941f1a15b3c63b7704b60136ba2c49478ea997625ebcc660682d17f5b35 ++
    bigEndian 32 0xc60376fef2fbcc32b3809fed5ba94f007079b3fe8b657bd05b001224d427620b

def pem (raw : Bytes) : String :=
  "-----BEGIN PUBLIC KEY-----\n" ++
    Base64.encode ([0x30, 0x2a, 0x30, 0x05, 0x06, 0x03, 0x2b, 0x65, 0x70, 0x03, 0x21, 0x00] ++ raw) ++
    "\n-----END PUBLIC KEY-----\n"

/-- The packages as they answer on the given signed paddings. -/
def paddingPackages (signed : List SignedPadding) : Packages where
  json := Python.compactText
  jsonDigest value :=
    match signed.find? (fun padding =>
        value.dict?.bind (str? "store_nonce") = some padding.storeNonce) with
    | some padding => .ok padding.capsuleId
    | none => .error "no digest"
  verifyProducerEnvelope capsuleId envelope :=
    if signed.any (fun padding => padding.capsuleId = capsuleId && padding.envelope = envelope) then
      ⟨true, some signerKey⟩
    else ⟨false, none⟩
  publicPem raw := if raw.length = 32 then some (pem raw) else none
  verifySign1 statement key :=
    match signed.find? (fun padding => padding.statement = statement && key = pem signerKey) with
    | some padding => .ok (some padding.payload)
    | none => .error "signature"
  strictDecode _ := .error "not a message"
  sha256Hex data := Sha256.hex (Sha256.digest data)
  repr value := (value.str?).getD "None"

def sampleConfig : Config := ⟨counterpartyCitationKeys, true, true⟩

def samplePackages : Packages := paddingPackages [firstPadding, secondPadding]

def sampleStores : Stores (Records samplePackages) (List Bytes) := ⟨Records.empty samplePackages, []⟩

end StoreLedger
end CapsuleEmit
