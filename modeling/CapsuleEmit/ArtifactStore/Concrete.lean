import CapsuleEmit.ArtifactStore.Memory
import CapsuleEmit.Foundation.Base64
import CapsuleEmit.Foundation.JsonText

namespace CapsuleEmit
namespace ArtifactStore

/-!
# Concrete packages

The text layer, Base64 and SHA-256 of this development, put together as the
packages of a store.  The JSON digest is the SHA-256 of the canonical text,
which sorts the members of every object; numbers are kept as they are
written.  Signatures are not computed: an envelope check accepts the listed
envelopes and no others.
-/

/-- Insert a member at its place among sorted members. -/
def insertMember (member : Bytes × Json) : List (Bytes × Json) → List (Bytes × Json)
  | [] => [member]
  | other :: members =>
      if member.1 ≤ other.1 then member :: other :: members
      else other :: insertMember member members

mutual
/-- The tree with the members of every object sorted by key. -/
def canonical : Json → Json
  | .array items => .array (canonicalItems items)
  | .object members => .object (canonicalMembers members)
  | scalar => scalar

def canonicalItems : List Json → List Json
  | [] => []
  | item :: items => canonical item :: canonicalItems items

def canonicalMembers : List (Bytes × Json) → List (Bytes × Json)
  | [] => []
  | (key, value) :: members => insertMember (key, canonical value) (canonicalMembers members)
end

/-- The bytes of a number, most significant first. -/
def bigEndian (len n : Nat) : Bytes :=
  (List.range len).map (fun i => UInt8.ofNat (n / 256 ^ (len - 1 - i)))

/-- An envelope: a Capsule ID under a protected header with the public key, and
its signature. -/
def coseEnvelope (publicKey idBytes signature : Bytes) : Bytes :=
  [0xd2, 0x84, 0x58, 0x4c, 0xa3, 0x03, 0x78, 0x23] ++
    utf8 "application/agent-action-capsule-id" ++ [0x04, 0x58, 0x20] ++ publicKey ++
    [0x01, 0x27, 0xa0, 0x58, 0x20] ++ idBytes ++ [0x58, 0x40] ++ signature

/-- An envelope known to be signed, with the Capsule ID and the key it is for. -/
structure SignedEnvelope where
  capsuleId : String
  publicKey : Bytes
  envelope : Bytes

/-- The check of an envelope against the signed ones. -/
def checkEnvelope (signed : List SignedEnvelope) (capsuleId : String) (envelope : Bytes) :
    EnvelopeCheck :=
  match signed.find? (fun s => s.capsuleId = capsuleId && s.envelope = envelope) with
  | some s => ⟨true, s.publicKey, []⟩
  | none => ⟨false, [], [⟨"error", "signature"⟩]⟩

/-- The packages over a given Class 1 check and given signed envelopes. -/
def concretePackages (class1 : Json → Class1) (signed : List SignedEnvelope) : Packages where
  json := JsonText.form
  jsonError := fun _ => "expected value"
  debugString := fun s => "\"" ++ s ++ "\""
  encode64 := Base64.encode
  decode64 := Base64.decode
  sha256 := Sha256.digest
  decodeCapsuleJson := fun data =>
    match JsonText.readDocument data with
    | some value => .ok value
    | none => .error "expected value"
  jsonDigest := fun value => some (Sha256.hex (Sha256.digest (JsonText.write (canonical value))))
  class1 := class1
  envelope := checkEnvelope signed

theorem concretePackages_lawful (class1 : Json → Class1) (signed : List SignedEnvelope) :
    (concretePackages class1 signed).Lawful where
  json := JsonText.form_lawful
  decode64_encode64 := Base64.decode_encode
  sha256_size := Sha256.length_digest

/-! ## Padding records

The shortest records a store admits: a padding record and its envelope. -/

/-- The bytes of a padding record. -/
def paddingCapsule (capsuleId nonce : String) : Bytes :=
  JsonText.write (.object [
    (utf8 "capsule_id", Json.ofString capsuleId),
    (utf8 "epistemic_type", Json.ofString "producer_claim"),
    (utf8 "record_type", Json.ofString paddingRecordType),
    (utf8 "store_nonce", Json.ofString nonce)])

/-- A padding record under a signed envelope, with the given originals. -/
def paddingRecord (nonce : String) (signed : SignedEnvelope) (artifacts : List Artifact) : Record :=
  ⟨signed.capsuleId, paddingCapsule signed.capsuleId nonce, signed.envelope, artifacts⟩

def trustedKey : Bytes :=
  bigEndian 32 0x8a88e3dd7409f195fd52db2d3cba5d72ca6709bf1d94121bf3748801b40f6f5c

def firstNonce : String := "1111111111111111111111111111111111111111111111111111111111111111"

def secondNonce : String := "2222222222222222222222222222222222222222222222222222222222222222"

def firstEnvelope : SignedEnvelope where
  capsuleId := "0ee354fcb46a2795b4d6bd463736d832b4b9a28c9e6fba7cf9a94b87c846130a"
  publicKey := trustedKey
  envelope := coseEnvelope trustedKey
    (bigEndian 32 0x0ee354fcb46a2795b4d6bd463736d832b4b9a28c9e6fba7cf9a94b87c846130a)
    (bigEndian 32 0xc233001817effcd2b9731f2dbc633de3811f092a3844663e07166937e3b3e8e6 ++
      bigEndian 32 0x3c857e29afbd4d78f9536cd1512ef40dde25378a3f23caf9a876431a63f7af00)

def secondEnvelope : SignedEnvelope where
  capsuleId := "5bf7148bed2e0f3e044ac72e854cf8762015d0641e1b645e7b419c13bd8878d7"
  publicKey := trustedKey
  envelope := coseEnvelope trustedKey
    (bigEndian 32 0x5bf7148bed2e0f3e044ac72e854cf8762015d0641e1b645e7b419c13bd8878d7)
    (bigEndian 32 0xe5555212b6efb03c7e7d64865f7c136984ab5c8bdb2542bb09971cc283eba11a ++
      bigEndian 32 0x7c9a0eca3801dc116b6b2ee1c4de5b466ffabd957aaff2c23810f6fbf0cbfe0c)

/-- The packages that know the two signed padding records. -/
def paddingPackages : Packages :=
  concretePackages (fun _ => ⟨false, none, []⟩) [firstEnvelope, secondEnvelope]

theorem paddingPackages_lawful : paddingPackages.Lawful := concretePackages_lawful _ _

/-- An original that is not bound to the Capsule. -/
def privateNote : Artifact where
  name := "private_note"
  binding := ""
  content := some (utf8 "not a producer-authenticated assertion")
  state := .present
  contentSha256 := ""

def firstRecord : Record := paddingRecord firstNonce firstEnvelope []

def secondRecord : Record := paddingRecord secondNonce secondEnvelope []

/-- Another record under the Capsule ID of `secondRecord`. -/
def notedRecord : Record := paddingRecord secondNonce secondEnvelope [privateNote]

/-- What a store keeps of `notedRecord`. -/
def notedStored : Record :=
  paddingRecord secondNonce secondEnvelope [{ privateNote with
    contentSha256 := "813b5238828c59014697a162f49c400dd1cac1c14fecbd8950890d32b94ac72b" }]

/-- The signatures and digests of the three records, checked in one evaluation. -/
theorem verify_samples : ∀ record ∈ [firstRecord, secondRecord, notedStored],
    succeeds (verify paddingPackages record [trustedKey]) = true := by
  decide +kernel

theorem prepare_samples : prepare paddingPackages firstRecord = .ok firstRecord ∧
    prepare paddingPackages secondRecord = .ok secondRecord ∧
    prepare paddingPackages notedRecord = .ok notedStored ∧
    checkConfig "conformance" [trustedKey] = .ok [trustedKey] ∧
    secondRecord.capsuleId ≠ firstRecord.capsuleId := by
  decide +kernel

theorem verify_firstRecord : succeeds (verify paddingPackages firstRecord [trustedKey]) = true :=
  verify_samples firstRecord (by simp)

theorem verify_secondRecord :
    succeeds (verify paddingPackages secondRecord [trustedKey]) = true :=
  verify_samples secondRecord (by simp)

theorem verify_notedStored : succeeds (verify paddingPackages notedStored [trustedKey]) = true :=
  verify_samples notedStored (by simp)

theorem capsuleId_ne : secondRecord.capsuleId ≠ firstRecord.capsuleId :=
  prepare_samples.2.2.2.2

theorem paddingConfig : checkConfig "conformance" [trustedKey] = .ok [trustedKey] :=
  prepare_samples.2.2.2.1

theorem acceptRecord_of_parts {packages : Packages} {trusted : List Bytes}
    {record prepared : Record} (made : prepare packages record = .ok prepared)
    (verified : succeeds (verify packages prepared trusted) = true) :
    acceptRecord packages trusted record = .ok prepared := by
  obtain ⟨results, verified⟩ := succeeds_iff.mp verified
  rw [acceptRecord, made, ok_bind, verified, ok_bind]

theorem acceptRecord_firstRecord :
    acceptRecord paddingPackages [trustedKey] firstRecord = .ok firstRecord :=
  acceptRecord_of_parts prepare_samples.1 verify_firstRecord

theorem acceptRecord_secondRecord :
    acceptRecord paddingPackages [trustedKey] secondRecord = .ok secondRecord :=
  acceptRecord_of_parts prepare_samples.2.1 verify_secondRecord

theorem acceptRecord_notedRecord :
    acceptRecord paddingPackages [trustedKey] notedRecord = .ok notedStored :=
  acceptRecord_of_parts prepare_samples.2.2.1 verify_notedStored

end ArtifactStore
end CapsuleEmit
