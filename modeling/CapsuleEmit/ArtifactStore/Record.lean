import CapsuleEmit.Foundation.Json
import CapsuleEmit.Foundation.Lines
import CapsuleEmit.Foundation.Outcome
import CapsuleEmit.Foundation.Sha256
import Mathlib.Data.List.Sort
import Mathlib.Data.String.Basic

namespace CapsuleEmit
namespace ArtifactStore

/-!
# The record model

A record is a Capsule with one producer envelope and the originals it
declares.  This module has the admission of a record, its authentication,
the storage checksum, and the tombstoned form a purge leaves.

What other packages provide is a parameter, `Packages`: the JSON text layer,
Base64, SHA-256, the Capsule decoder and digest, the Class 1 check and the
envelope check.  `Packages.Lawful` lists the few facts the stores rely on.
No property of the Capsule and envelope checks is among them, so every result
holds for an arbitrary authentication predicate.
-/

/-! ## Errors -/

/-- A store failure. -/
inductive ArtifactError where
  | invalid (why : String)
  | conflict
  | notFound
  | purged
  | digestMismatch (which : String)
  | untrustedSigner
  | corrupt (why : String)
  | unsupported (why : String)
  | storage (why : String)
  deriving DecidableEq, Repr

namespace ArtifactError

/-- The contract error code, or nothing for a storage failure. -/
def code : ArtifactError → Option String
  | invalid _ => some "invalid"
  | conflict => some "conflict"
  | notFound => some "not_found"
  | purged => some "purged"
  | digestMismatch _ => some "digest_mismatch"
  | untrustedSigner => some "untrusted_signer"
  | corrupt _ => some "corrupt"
  | unsupported _ => some "unsupported"
  | storage _ => none

end ArtifactError

abbrev Result (α : Type) := Except ArtifactError α

/-! ## Records -/

/-- Availability, not authenticity. -/
inductive RetentionState where
  | present
  | purged
  | neverRetained
  deriving DecidableEq, Repr

namespace RetentionState

/-- The wire spelling. -/
def asStr : RetentionState → String
  | present => "present"
  | purged => "purged"
  | neverRetained => "never_retained"

/-- Parses the wire spelling. -/
def parse (value : String) : Option RetentionState :=
  if value = "present" then some present
  else if value = "purged" then some purged
  else if value = "never_retained" then some neverRetained
  else none

@[simp] theorem parse_asStr (state : RetentionState) : parse state.asStr = some state := by
  cases state <;> decide

end RetentionState

/-- An exact original.  An empty `binding` means that the Capsule does not
authenticate it; `content` is `none` when absent. -/
@[ext]
structure Artifact where
  name : String
  binding : String
  content : Option Bytes
  state : RetentionState
  contentSha256 : String
  deriving DecidableEq

/-- A Capsule with one producer envelope and its declared originals. -/
@[ext]
structure Record where
  capsuleId : String
  capsule : Bytes
  producerEnvelope : Bytes
  artifacts : List Artifact
  deriving DecidableEq

/-- Separates a verified preimage from an unbound attachment. -/
structure ArtifactVerification where
  state : RetentionState
  bound : Bool
  verified : Bool
  deriving DecidableEq

/-! ## What other packages provide -/

/-- One finding of a check, with its severity. -/
structure Finding where
  severity : String
  code : String

/-- The outcome of the Class 1 check of a Capsule. -/
structure Class1 where
  ok : Bool
  capsuleId : Option String
  findings : List Finding

/-- The outcome of the check of a producer envelope. -/
structure EnvelopeCheck where
  ok : Bool
  publicKey : Bytes
  findings : List Finding

/-- The functions of other packages the store calls.  `jsonError` is the text
of the JSON decoder's error on a line and `debugString` the quoted form of a
string in an error text. -/
structure Packages where
  json : TextForm
  jsonError : Bytes → String
  debugString : String → String
  encode64 : Bytes → String
  decode64 : String → Option Bytes
  sha256 : Bytes → Bytes
  decodeCapsuleJson : Bytes → Except String Json
  jsonDigest : Json → Option String
  class1 : Json → Class1
  envelope : String → Bytes → EnvelopeCheck

/-- What the stores rely on: JSON and Base64 read back what they wrote, and
SHA-256 digests have 32 bytes. -/
structure Packages.Lawful (packages : Packages) : Prop where
  json : packages.json.Lawful
  decode64_encode64 : ∀ bytes, packages.decode64 (packages.encode64 bytes) = some bytes
  sha256_size : ∀ data, (packages.sha256 data).length = 32

/-! ## Names, identifiers and digests -/

def payloadDigest : String := "model_attestation.compute_attestation.agent_input_digest"
def agentOutputDigest : String := "model_attestation.compute_attestation.agent_output_digest"
def effectRequestDigest : String := "effect.request_digest"
def effectResponseDigest : String := "effect.response_digest"

def digestFields : List String :=
  [payloadDigest, agentOutputDigest, effectRequestDigest, effectResponseDigest]

def maxArtifacts : Nat := 64
def maxEnvelope : Nat := 65535
def maxTotal : Nat := 8 * 1024 * 1024

def isAsciiAlphanumeric (b : UInt8) : Bool :=
  (48 ≤ b && b ≤ 57) || (65 ≤ b && b ≤ 90) || (97 ≤ b && b ≤ 122)

/-- Whether a value is a valid namespace or artifact name. -/
def validName (value : String) : Bool :=
  match utf8 value with
  | [] => false
  | first :: rest =>
      rest.length + 1 ≤ 64 && isAsciiAlphanumeric first &&
        rest.all (fun b => isAsciiAlphanumeric b || b = 46 || b = 95 || b = 45)

/-- Whether a value is 64 lower-case hexadecimal characters. -/
def validId (value : String) : Bool :=
  (utf8 value).length = 64 && (utf8 value).all Sha256.isHexByte

/-- The parts of a text between the given separator. -/
def splitOnChar (separator : Char) (text : String) : List String :=
  let pieces := Lines.split separator text.toList
  (pieces.1 ++ [pieces.2]).map String.ofList

section

variable (packages : Packages)

def sha256Hex (data : Bytes) : String := Sha256.hex (packages.sha256 data)

/-- The deepest nesting the JSON decoder follows while it visits values. -/
def visitLimit : Nat := depthLimit

mutual
/-- Visit a tree as the duplicate-key check does: every string and key must
be text, and no object may repeat a key. -/
def noDuplicates : Nat → Json → Bool
  | _, .null => true
  | _, .bool _ => true
  | _, .number _ => true
  | _, .string bytes => (utf8? bytes).isSome
  | 0, .array _ => false
  | 0, .object _ => false
  | limit + 1, .array items => noDuplicatesItems limit items
  | limit + 1, .object members => noDuplicatesMembers limit [] members

def noDuplicatesItems (limit : Nat) : List Json → Bool
  | [] => true
  | item :: items => noDuplicates limit item && noDuplicatesItems limit items

def noDuplicatesMembers (limit : Nat) (seen : List Bytes) : List (Bytes × Json) → Bool
  | [] => true
  | (key, value) :: members =>
      (utf8? key).isSome && !seen.contains key && noDuplicates limit value &&
        noDuplicatesMembers limit (key :: seen) members
end

/-- Decodes strict JSON: UTF-8, no repeated keys, nothing after the document. -/
def decodeStrictJson (data : Bytes) : Except String Json :=
  match packages.json.ofText data with
  | none => .error (packages.jsonError data)
  | some tree =>
      if noDuplicates visitLimit tree then packages.decodeCapsuleJson data
      else .error (packages.jsonError data)

/-- The digest a Capsule commits at one of the digest fields. -/
def digestAt (capsule : Json) (binding : String) : Result String := do
  ensure (digestFields.contains binding) (.invalid ("unsupported digest field " ++ binding))
  let value ← (splitOnChar '.' binding).foldlM (fun value key =>
    match value.get key with
    | some inner => Except.ok inner
    | none => Except.error (ArtifactError.invalid ("missing " ++ binding))) capsule
  match value.asStr with
  | some digest =>
      if validId digest then .ok digest else .error (.invalid ("malformed " ++ binding))
  | none => .error (.invalid ("malformed " ++ binding))

/-! ## Authentication -/

def paddingRecordType : String := "padding"

/-- The closed member set of a stored padding record. -/
def paddingMembers : List String := ["capsule_id", "record_type", "epistemic_type", "store_nonce"]

/-- The string at a member of an object. -/
def memberStr (name : String) (value : Json) : Option String := (value.get name).bind Json.asStr

/-- Whether decoded record bytes are a padding record. -/
def isPadding (capsule : Json) : Bool := memberStr "record_type" capsule = some paddingRecordType

/-- Format 4 with JCS, Class 1, and the expected computed Capsule ID. -/
def verifyCapsule (capsuleId : String) (capsule : Json) : Result Unit := do
  ensure (memberStr "format_version" capsule = some "4" &&
      memberStr "canonicalization_id" capsule = some "jcs")
    (.invalid "capsule verification: only AAC format 4 with canonicalization_id \"jcs\"")
  let class1 := packages.class1 capsule
  ensure (class1.ok && class1.capsuleId = some capsuleId)
    (.invalid ("capsule verification: " ++ ",".intercalate
      ((class1.findings.filter (fun finding => finding.severity = "error")).map Finding.code)))

/-- The keys of an object in the order a sorted map lists them. -/
def sortedKeys (members : List (Bytes × Json)) : List String :=
  ((members.map Prod.fst).insertionSort (· ≤ ·)).filterMap utf8?

/-- A padding record: exactly its four members, and a Capsule ID that is the
digest of the record without it. -/
def verifyPadding (capsuleId : String) (padding : Json) : Result Unit := do
  match padding.asObject with
  | none => .error (.invalid "padding record is not an object")
  | some members =>
      match (sortedKeys members).find? (fun key => !paddingMembers.contains key) with
      | some extra =>
          .error (.invalid ("padding record carries " ++ packages.debugString extra))
      | none =>
          ensure (memberStr "epistemic_type" padding = some "producer_claim")
            (.invalid "padding record epistemic_type")
          ensure (((memberStr "store_nonce" padding).map validId).getD false)
            (.invalid "padding record store_nonce")
          let body := members.filter (fun member => member.1 ≠ utf8 "capsule_id")
          let computed := packages.jsonDigest (.object body)
          ensure (memberStr "capsule_id" padding = some capsuleId && computed = some capsuleId)
            (.invalid "padding record capsule id")

/-- The part of verification that is about the Capsule and its signer. -/
def authenticate (record : Record) (trusted : List Bytes) : Result Json := do
  ensure (validId record.capsuleId) (.invalid "capsule id")
  let capsule ← match decodeStrictJson packages record.capsule with
    | .ok capsule => Except.ok capsule
    | .error e => Except.error (.invalid ("capsule verification: " ++ e))
  if isPadding capsule then verifyPadding packages record.capsuleId capsule
  else verifyCapsule packages record.capsuleId capsule
  let envelope := packages.envelope record.capsuleId record.producerEnvelope
  ensure envelope.ok
    (.invalid ("envelope: " ++ ",".intercalate (envelope.findings.map Finding.code)))
  ensure (trusted.any (fun key => key = envelope.publicKey)) .untrustedSigner
  return capsule

/-- The digest of an original that is JSON. -/
def contentDigest (content : Bytes) : Option String :=
  match decodeStrictJson packages content with
  | .ok value => packages.jsonDigest value
  | .error _ => none

/-- The check of one original's state; whether its preimage was verified. -/
def verifyState (committed : String) (a : Artifact) : Result Bool :=
  match a.state with
  | .present =>
      match a.content with
      | none => .error (.invalid ("missing content for " ++ a.name))
      | some content => do
          ensure (a.contentSha256.isEmpty || a.contentSha256 = sha256Hex packages content)
            (.corrupt a.name)
          if a.binding.isEmpty then .ok false
          else do
            ensure (contentDigest packages content = some committed)
              (.digestMismatch (a.name ++ " (" ++ a.binding ++ ")"))
            .ok true
  | .purged => do
      ensure (a.content.isNone && validId a.contentSha256) (.invalid "invalid purge tombstone")
      .ok false
  | .neverRetained => do
      ensure (a.content.isNone && a.contentSha256.isEmpty) (.invalid "never-retained content")
      .ok false

/-- The digest the Capsule commits for an original; empty when it is not bound. -/
def committedDigest (capsule : Json) (a : Artifact) : Result String :=
  if a.binding.isEmpty then .ok "" else digestAt capsule a.binding

/-- The check of one original, and its entry in the results. -/
def verifyArtifact (capsule : Json) (results : String → Option ArtifactVerification)
    (a : Artifact) : Result (String → Option ArtifactVerification) := do
  ensure (validName a.name) (.invalid "artifact name")
  ensure (results a.name).isNone (.invalid ("duplicate artifact " ++ a.name))
  let committed ← committedDigest capsule a
  let verified ← verifyState packages committed a
  .ok (Function.update results a.name (some ⟨a.state, !a.binding.isEmpty, verified⟩))

/-- Authenticates the Capsule, authorizes its signer against the trusted keys
and verifies every available bound original. -/
def verify (record : Record) (trusted : List Bytes) :
    Result (String → Option ArtifactVerification) := do
  let capsule ← authenticate packages record trusted
  record.artifacts.foldlM (verifyArtifact packages capsule) (fun _ => none)

/-! ## Admission and purge -/

/-- Admission of one original: a present one gets its exact-byte checksum. -/
def prepareArtifact (a : Artifact) : Result Artifact :=
  match a.state with
  | .purged => .error .purged
  | .present => do
      let digest := sha256Hex packages (a.content.getD [])
      ensure (a.contentSha256.isEmpty || a.contentSha256 = digest) (.corrupt "content checksum")
      .ok { a with contentSha256 := digest }
  | .neverRetained => .ok a

def contentLength (a : Artifact) : Nat := (a.content.map List.length).getD 0

/-- Fills exact-byte checksums and enforces the admission limits. -/
def prepare (record : Record) : Result Record := do
  ensure (record.artifacts.length ≤ maxArtifacts && record.producerEnvelope.length ≤ maxEnvelope)
    (.invalid "record limits")
  let artifacts ← record.artifacts.mapM (prepareArtifact packages)
  ensure (record.capsule.length + record.producerEnvelope.length +
      (record.artifacts.map contentLength).sum ≤ maxTotal)
    (.invalid "record exceeds 8 MiB")
  .ok { record with artifacts := artifacts }

/-- A tombstone keeps the SHA-256 of a present original. -/
def purgedArtifact (a : Artifact) : Artifact :=
  if a.state = .present then { a with content := none, state := .purged } else a

/-- The record with every present original replaced by a tombstone. -/
def purged (record : Record) : Record :=
  { record with artifacts := record.artifacts.map purgedArtifact }

def hasPurged (record : Record) : Bool := record.artifacts.any (fun a => a.state = .purged)

/-- Validates a constructor's namespace and trusted keys. -/
def checkConfig (ns : String) (trusted : List Bytes) : Result (List Bytes) := do
  ensure (validName ns) (.invalid "store configuration")
  let keys ← trusted.mapM (fun key =>
    if key.length = 32 then Except.ok key
    else Except.error (ArtifactError.invalid "public key size"))
  ensure (!keys.isEmpty) (.invalid "store configuration")
  .ok keys

end

/-! ## Digest texts are identifiers -/

variable {packages : Packages}

theorem validId_sha256Hex (lawful : packages.Lawful) (data : Bytes) :
    validId (sha256Hex packages data) = true := by
  have length := Sha256.length_utf8_hex (packages.sha256 data)
  rw [lawful.sha256_size] at length
  simp [validId, sha256Hex, length, Sha256.utf8_hex_all]

theorem ne_empty_of_validId {value : String} (valid : validId value = true) : value ≠ "" := by
  intro empty
  subst empty
  exact absurd valid (by decide)

/-! ## What preparation does -/

/-- An original as an admitted record stores it: a present one carries the
checksum of its content. -/
def Settled (packages : Packages) (a : Artifact) : Prop :=
  a.state = .present → a.contentSha256 = sha256Hex packages (a.content.getD [])

theorem prepareArtifact_ok {a b : Artifact} (ok : prepareArtifact packages a = .ok b) :
    Settled packages b ∧ b.state = a.state ∧ a.state ≠ .purged ∧
      b = { a with contentSha256 := b.contentSha256 } := by
  unfold prepareArtifact at ok
  split at ok
  · cases ok
  · next present =>
      obtain ⟨_, _, same⟩ := bind_eq_ok_iff.mp ok
      cases same
      exact ⟨fun _ => rfl, rfl, by simp [present], rfl⟩
  · next never =>
      cases ok
      exact ⟨fun present => by simp [never] at present, rfl, by simp [never], rfl⟩

theorem mapM_ok_forall {α β : Type} {f : α → Result β} {P : β → Prop}
    (each : ∀ a b, f a = .ok b → P b) {items : List α} {results : List β}
    (ok : items.mapM f = .ok results) : ∀ b ∈ results, P b := by
  induction items generalizing results with
  | nil =>
      rw [List.mapM_nil] at ok
      cases ok
      simp
  | cons a items ih =>
      rw [List.mapM_cons] at ok
      obtain ⟨b, first, ok⟩ := bind_eq_ok_iff.mp ok
      obtain ⟨others, rest, same⟩ := bind_eq_ok_iff.mp ok
      cases same
      intro c member
      rcases List.mem_cons.mp member with rfl | member
      · exact each a c first
      · exact ih rest c member

/-- A prepared record keeps everything but the checksums of its originals. -/
theorem prepare_ok {record prepared : Record} (ok : prepare packages record = .ok prepared) :
    prepared.capsuleId = record.capsuleId ∧ prepared.capsule = record.capsule ∧
      prepared.producerEnvelope = record.producerEnvelope ∧
      record.artifacts.mapM (prepareArtifact packages) = .ok prepared.artifacts := by
  obtain ⟨_, _, ok⟩ := bind_eq_ok_iff.mp ok
  obtain ⟨artifacts, mapped, ok⟩ := bind_eq_ok_iff.mp ok
  obtain ⟨_, _, same⟩ := bind_eq_ok_iff.mp ok
  cases same
  exact ⟨rfl, rfl, rfl, mapped⟩

theorem prepare_settled {record prepared : Record} (ok : prepare packages record = .ok prepared) :
    ∀ a ∈ prepared.artifacts, Settled packages a :=
  mapM_ok_forall (fun _ _ first => (prepareArtifact_ok first).1) (prepare_ok ok).2.2.2

theorem hasPurged_prepare {record prepared : Record} (ok : prepare packages record = .ok prepared) :
    hasPurged prepared = false := by
  have states : ∀ a ∈ prepared.artifacts, a.state ≠ .purged :=
    mapM_ok_forall (fun a b first => by
      have facts := prepareArtifact_ok first
      rw [facts.2.1]
      exact facts.2.2.1) (prepare_ok ok).2.2.2
  simpa [hasPurged] using states

/-! ## A purge keeps a record valid -/

@[simp] theorem purged_capsuleId (record : Record) : (purged record).capsuleId = record.capsuleId :=
  rfl

theorem purged_purged (record : Record) : purged (purged record) = purged record := by
  have twice : ∀ a : Artifact, purgedArtifact (purgedArtifact a) = purgedArtifact a := by
    intro a
    by_cases present : a.state = .present <;> simp [purgedArtifact, present]
  simp [purged, twice]

theorem settled_purgedArtifact (a : Artifact) : Settled packages (purgedArtifact a) := by
  unfold purgedArtifact
  split
  · intro present
    cases present
  · next other => exact fun present => absurd present other

theorem purged_settled (record : Record) : ∀ a ∈ (purged record).artifacts, Settled packages a := by
  intro a member
  obtain ⟨b, _, rfl⟩ := List.mem_map.mp member
  exact settled_purgedArtifact b

/-- A tombstone passes the state check its original passed. -/
theorem verifyState_purgedArtifact (lawful : packages.Lawful) {a : Artifact}
    (settled : Settled packages a) {committed : String} {verified : Bool}
    (ok : verifyState packages committed a = .ok verified) :
    ∃ verified', verifyState packages committed (purgedArtifact a) = .ok verified' := by
  by_cases present : a.state = .present
  · refine ⟨false, ?_⟩
    have checksum : validId a.contentSha256 = true := by
      rw [settled present]
      exact validId_sha256Hex lawful _
    simp [purgedArtifact, present, verifyState, checksum]
  · exact ⟨verified, by rwa [purgedArtifact, if_neg present]⟩

/-- The check of an original depends on earlier results only through their names. -/
theorem verifyArtifact_purgedArtifact (lawful : packages.Lawful) {a : Artifact}
    (settled : Settled packages a) {capsule : Json}
    {results results' other : String → Option ArtifactVerification}
    (ok : verifyArtifact packages capsule results a = .ok results')
    (names : ∀ name, (other name).isSome = (results name).isSome) :
    ∃ other', verifyArtifact packages capsule other (purgedArtifact a) = .ok other' ∧
      ∀ name, (other' name).isSome = (results' name).isSome := by
  obtain ⟨_, named, ok⟩ := bind_eq_ok_iff.mp ok
  obtain ⟨_, fresh, ok⟩ := bind_eq_ok_iff.mp ok
  obtain ⟨committed, digest, ok⟩ := bind_eq_ok_iff.mp ok
  obtain ⟨verified, state, ok⟩ := bind_eq_ok_iff.mp ok
  cases ok
  obtain ⟨verified', state'⟩ := verifyState_purgedArtifact lawful settled state
  have sameName : (purgedArtifact a).name = a.name := by
    unfold purgedArtifact
    split <;> rfl
  have sameBinding : (purgedArtifact a).binding = a.binding := by
    unfold purgedArtifact
    split <;> rfl
  have sameDigest : committedDigest capsule (purgedArtifact a) = .ok committed := by
    rw [committedDigest, sameBinding, ← digest, committedDigest]
  have fresh' : (other a.name).isNone = true := by
    rw [← Option.not_isSome, names, Option.not_isSome]
    exact ensure_eq_ok_iff.mp fresh
  refine ⟨Function.update other a.name
    (some ⟨(purgedArtifact a).state, !a.binding.isEmpty, verified'⟩), ?_, ?_⟩
  · rw [verifyArtifact, sameName, sameBinding, sameDigest, named, fresh']
    simp only [ok_bind, ensure_true, state']
  · intro name
    by_cases same : name = a.name
    · subst same
      simp
    · simp [Function.update_of_ne same, names name]

theorem authenticate_purged (record : Record) (trusted : List Bytes) :
    authenticate packages (purged record) trusted = authenticate packages record trusted := rfl

/-- The tombstoned form of a record that verifies also verifies. -/
theorem verify_purged (lawful : packages.Lawful) {record : Record} {trusted : List Bytes}
    (settled : ∀ a ∈ record.artifacts, Settled packages a)
    (ok : succeeds (verify packages record trusted) = true) :
    succeeds (verify packages (purged record) trusted) = true := by
  obtain ⟨results, ok⟩ := succeeds_iff.mp ok
  obtain ⟨capsule, authentic, ok⟩ := bind_eq_ok_iff.mp ok
  rw [verify, authenticate_purged, authentic, ok_bind, purged]
  have run : ∀ (artifacts : List Artifact) (results results' other : String → Option
      ArtifactVerification), (∀ a ∈ artifacts, Settled packages a) →
      artifacts.foldlM (verifyArtifact packages capsule) results = .ok results' →
      (∀ name, (other name).isSome = (results name).isSome) →
      succeeds ((artifacts.map purgedArtifact).foldlM (verifyArtifact packages capsule) other) =
        true := by
    intro artifacts
    induction artifacts with
    | nil => intros; rfl
    | cons a artifacts ih =>
        intro results results' other settled ok names
        rw [List.foldlM_cons] at ok
        obtain ⟨middle, first, rest⟩ := bind_eq_ok_iff.mp ok
        obtain ⟨other', first', names'⟩ :=
          verifyArtifact_purgedArtifact lawful (settled a List.mem_cons_self) first names
        rw [List.map_cons, List.foldlM_cons, first', ok_bind]
        exact ih middle results' other'
          (fun b member => settled b (List.mem_cons_of_mem _ member)) rest names'
  exact run record.artifacts _ results _ settled ok (fun _ => rfl)

end ArtifactStore
end CapsuleEmit
