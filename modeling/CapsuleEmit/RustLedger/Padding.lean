import CapsuleEmit.RustLedger.Reopen

namespace CapsuleEmit
namespace RustLedger

/-!
# Padding

A store pads its ledger to a multiple of a bucket with records whose only
content is a fresh nonce.  Each is signed by the store and appended like any
other padding record, and none is ever refused.
-/

/-- A signing key, with what its envelopes and statements are relied on for: the
statement is a COSE_Sign1 with its payload, and verifies under the public key. -/
structure Signer (packages : Packages) where
  publicKey : Bytes
  envelope : Bytes → Bytes
  statement : Bytes → String → String → String → Bytes
  keySize : publicKey.length = 32
  isKey : packages.isVerifyingKey publicKey = true
  parses : ∀ payload issuer subject contentType,
    packages.parseSign1 (statement payload issuer subject contentType) = .ok (some payload)
  verifies : ∀ payload issuer subject contentType,
    packages.verifySignature (statement payload issuer subject contentType) publicKey = true

/-- Thirty-two bytes from the system's random source. -/
abbrev Nonce := { bytes : Bytes // bytes.length = 32 }

def paddingContentType : String := "application/json"

/-- The padding record a store seals. -/
def sealedPadding {packages : Packages} (signer : Signer packages) (capsuleId storeNonce : String) :
    Value :=
  paddingRecord capsuleId storeNonce (signer.envelope ((hexDecode capsuleId).getD []))
    signer.publicKey

section

variable (packages : Packages) (signer : Signer packages) (issuer : String)

/-- `build_padding_record` and `attach_producer_envelope` -/
def buildPadding (nonce : Nonce) : Except JcsError (String × Value) := do
  let storeNonce := Sha256.hex nonce.1
  let capsuleId ← computeCapsuleId packages (paddingBody storeNonce)
  return (capsuleId, sealedPadding signer capsuleId storeNonce)

/-- The statement of a padding record. -/
def paddingStatement (capsuleId : String) (record : Value) : Bytes :=
  signer.statement record.toText issuer capsuleId paddingContentType

/-- The loop of `pad_to_bucket`, over the nonces it draws. -/
def padRecords : List Nonce → State → Except LedgerError Unit × State
  | [], state => (.ok (), state)
  | nonce :: nonces, state =>
      match buildPadding packages signer nonce with
      | .error e => (.error (.jcs e), state)
      | .ok (capsuleId, record) =>
          match appendPadding packages none state record
              (paddingStatement packages signer issuer capsuleId record) with
          | (.error e, after) => (.error e, after)
          | (.ok _, after) => padRecords nonces after

/-- How many lines a ledger lacks to the next multiple of a bucket. -/
def missingLines (bucket entries : Nat) : Nat :=
  if bucket = 0 then 0 else (bucket - entries % bucket) % bucket

/-- `Ledger::pad_to_bucket`, with what the random source gives. -/
def padToBucket (draw : Nat → Nonce) (state : State) (bucket : Nat) :
    Except LedgerError Nat × State :=
  match padRecords packages signer issuer
      ((List.range (missingLines bucket state.ledger.entries)).map draw) state with
  | (.error e, after) => (.error e, after)
  | (.ok _, after) => (.ok after.ledger.entries, after)

end

/-! ## No padding is refused -/

section

section

variable (capsuleId storeNonce : String) (envelope publicKey : Bytes)

@[simp] theorem paddingRecord_capsuleId :
    (paddingRecord capsuleId storeNonce envelope publicKey).capsuleId = some capsuleId := by
  simp [paddingRecord, Value.capsuleId, Value.str?, objectOf, textOf, Json.get, Json.lookup]

@[simp] theorem isPadding_paddingRecord :
    isPadding (paddingRecord capsuleId storeNonce envelope publicKey) = true := by
  simp [isPadding, paddingRecord, Value.str?, objectOf, textOf, Json.get, Json.lookup]

theorem paddingRecord_keyId :
    (paddingRecord capsuleId storeNonce envelope publicKey).str? "key_id" =
      some (Sha256.hex publicKey) := by
  simp [paddingRecord, Value.str?, objectOf, textOf, Json.get, Json.lookup]

theorem checkPaddingShape_paddingRecord (nonce : isNonce storeNonce = true) :
    checkPaddingShape (paddingRecord capsuleId storeNonce envelope publicKey) = .ok () := by
  have members : (paddingMembers.map utf8) = [utf8 "capsule_id", utf8 "record_type",
      utf8 "epistemic_type", utf8 "store_nonce", utf8 "signature", utf8 "key_id"] := rfl
  simp [checkPaddingShape, paddingRecord, Value.str?, objectOf, textOf, Json.get, Json.lookup,
    Json.asObject, members, nonce]

theorem nesting_paddingRecord :
    (paddingRecord capsuleId storeNonce envelope publicKey).tree.nesting ≤ decoderLevels := by
  simp [paddingRecord, objectOf, textOf, Json.ofString, Json.nesting, Json.nestingMembers,
    decoderLevels]

variable {packages : Packages} (lawful : packages.Lawful)

include lawful

theorem computeCapsuleId_paddingBody : computeCapsuleId packages (paddingBody storeNonce) =
    packages.jsonDigest (paddingBody storeNonce).tree := by
  simp [computeCapsuleId, paddingBody, objectOf, preimage, lawful.localOnly]

theorem computeCapsuleId_paddingRecord :
    computeCapsuleId packages (paddingRecord capsuleId storeNonce envelope publicKey) =
      computeCapsuleId packages (paddingBody storeNonce) := by
  simp [computeCapsuleId, paddingRecord, paddingBody, objectOf, preimage, lawful.localOnly]

/-- A padding record under a key matches a statement with it that verifies under the key. -/
theorem checkStatementMatches_paddingRecord {statement : Bytes} (keySize : publicKey.length = 32)
    (isKey : packages.isVerifyingKey publicKey = true)
    (parsed : packages.parseSign1 statement =
      .ok (some (paddingRecord capsuleId storeNonce envelope publicKey).toText))
    (verified : packages.verifySignature statement publicKey = true) :
    checkStatementMatches packages (paddingRecord capsuleId storeNonce envelope publicKey) capsuleId
      statement = .ok () := by
  have key : producerVerifyingKey packages (paddingRecord capsuleId storeNonce envelope publicKey) =
      some (.ok publicKey) := by
    simp [producerVerifyingKey, paddingRecord_keyId, keySize, isKey]
  have decoded := lawful.reads _ (nesting_paddingRecord capsuleId storeNonce envelope publicKey)
  have named := paddingRecord_capsuleId capsuleId storeNonce envelope publicKey
  rw [Value.capsuleId] at named
  rw [checkStatementMatches, matchedPayload, key]
  simp only [verifySignedStatement, parsed, verified, Except.mapError, ok_bind, ensure_true,
    Option.elim_some, Value.toText, decoded, named, decide_true]

end

variable {packages : Packages} (signer : Signer packages)

theorem isNonce_hex (nonce : Nonce) : isNonce (Sha256.hex nonce.1) = true := by
  simp [isNonce, Sha256.length_utf8_hex, nonce.2, Sha256.utf8_hex_all]

/-- Every nonce gives a padding record. -/
theorem buildPadding_ok (lawful : packages.Lawful) (nonce : Nonce) :
    ∃ capsuleId, computeCapsuleId packages (paddingBody (Sha256.hex nonce.1)) = .ok capsuleId ∧
      buildPadding packages signer nonce =
        .ok (capsuleId, sealedPadding signer capsuleId (Sha256.hex nonce.1)) := by
  have unnumbered : (paddingBody (Sha256.hex nonce.1)).tree.everyNumber (fun _ => false) = true :=
    rfl
  rcases lawful.total _ unnumbered with ⟨capsuleId, computed⟩
  rw [← computeCapsuleId_paddingBody _ lawful] at computed
  refine ⟨capsuleId, computed, ?_⟩
  rw [buildPadding, computed]
  rfl

/-- A padding record a store makes passes every check. -/
theorem admissible_sealedPadding (lawful : packages.Lawful) (issuer : String) (ledger : Ledger)
    {nonce : Nonce} {capsuleId : String}
    (computed : computeCapsuleId packages (paddingBody (Sha256.hex nonce.1)) = .ok capsuleId) :
    Admissible packages ledger (sealedPadding signer capsuleId (Sha256.hex nonce.1)) capsuleId
      (paddingStatement packages signer issuer capsuleId
        (sealedPadding signer capsuleId (Sha256.hex nonce.1))) where
  stored := paddingRecord_capsuleId ..
  computed := (computeCapsuleId_paddingRecord _ _ _ _ lawful).trans computed
  shaped _ := checkPaddingShape_paddingRecord _ _ _ _ (isNonce_hex nonce)
  linked := Or.inl (isPadding_paddingRecord ..)
  matched := checkStatementMatches_paddingRecord _ _ _ _ lawful signer.keySize signer.isKey
    (signer.parses ..) (signer.verifies ..)

/-- An admissible padding record is appended. -/
theorem appendPadding_admissible (indexer : Value → List String) {state : State} {record : Value}
    {id : String} {statement : Bytes} (padding : isPadding record = true)
    (admissible : Admissible packages state.ledger record id statement) :
    appendPadding packages none state record statement =
      (.ok (), state.written indexer record id statement) := by
  have checks : lineChecks packages (state.ledger.entries + 1) record id statement = .ok () :=
    lineChecks_eq_ok_iff.mpr ⟨admissible.computed, admissible.matched⟩
  rw [appendPadding, if_neg (by simp [padding]), admissible.shaped padding]
  simp only [admissible.stored, writeLine, checks, State.written, Ledger.enter, if_pos padding]

/-- What one padding record does to the ledger. -/
theorem padRecords_cons (lawful : packages.Lawful) (indexer : Value → List String)
    (issuer : String) (nonce : Nonce) (nonces : List Nonce) (state : State) :
    ∃ id, computeCapsuleId packages (paddingBody (Sha256.hex nonce.1)) = .ok id ∧
      padRecords packages signer issuer (nonce :: nonces) state =
        padRecords packages signer issuer nonces (state.written indexer
          (sealedPadding signer id (Sha256.hex nonce.1)) id
          (paddingStatement packages signer issuer id
            (sealedPadding signer id (Sha256.hex nonce.1)))) := by
  rcases buildPadding_ok signer lawful nonce with ⟨id, computed, built⟩
  have admissible := admissible_sealedPadding signer lawful issuer state.ledger computed
  have padding : isPadding (sealedPadding signer id (Sha256.hex nonce.1)) = true :=
    isPadding_paddingRecord ..
  refine ⟨id, computed, ?_⟩
  rw [padRecords, built]
  simp only [appendPadding_admissible indexer padding admissible]

theorem padRecords_ok (lawful : packages.Lawful) (issuer : String) (nonces : List Nonce)
    (state : State) :
    ∃ after, padRecords packages signer issuer nonces state = (.ok (), after) := by
  induction nonces generalizing state with
  | nil => exact ⟨state, rfl⟩
  | cons nonce nonces ih =>
      rcases padRecords_cons signer lawful (fun _ => []) issuer nonce nonces state
        with ⟨id, -, same⟩
      rw [same]
      exact ih _

/-- `pad_to_bucket` is never refused. -/
theorem padToBucket_ok (lawful : packages.Lawful) (issuer : String) (draw : Nat → Nonce)
    (state : State) (bucket : Nat) :
    ∃ after, padToBucket packages signer issuer draw state bucket =
      (.ok after.ledger.entries, after) := by
  rcases padRecords_ok signer lawful issuer
    ((List.range (missingLines bucket state.ledger.entries)).map draw) state with ⟨after, same⟩
  exact ⟨after, by rw [padToBucket, same]⟩

end

end RustLedger
end CapsuleEmit
