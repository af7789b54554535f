import CapsuleEmit.ArtifactStore.Record

namespace CapsuleEmit
namespace GoArtifact

/-!
# Artifact records in Go

A record of the Go artifact package, its admission and its verification.  The
retention state is a string here, so a stored record can carry any text in it,
and the content of an artifact is absent or a byte sequence.  What the sealing
library and the JSON library compute are parameters.
-/

open ArtifactStore (validName validId maxArtifacts maxEnvelope maxTotal)

/-! ## Errors -/

/-- The sentinel errors of the package, and the errors it passes on. -/
inductive ArtifactError where
  | invalid (why : String)
  | conflict
  | notFound
  | purged
  | digestMismatch (which : String)
  | untrustedSigner
  | corrupt (why : String)
  | other (why : String)
  deriving DecidableEq

abbrev Result (α : Type) := Except ArtifactError α

/-! ## Records -/

structure Artifact where
  name : String
  binding : String
  content : Option Bytes
  state : String
  contentSha256 : String
  deriving DecidableEq

structure Record where
  capsuleId : String
  capsule : Bytes
  producerEnvelope : Bytes
  artifacts : List Artifact
  deriving DecidableEq

structure ArtifactVerification where
  state : String
  bound : Bool
  verified : Bool

def present : String := "present"
def purgedState : String := "purged"
def neverRetained : String := "never_retained"

/-! ## What other packages compute -/

/-- The answer of the Capsule verifier. -/
structure CapsuleCheck where
  ok : Bool
  capsuleId : Option String

/-- The sealing library and the JSON library.  `peek` is what reading only the
member `capsule_id` of a line sets, and whether it read the line without an
error. -/
structure Packages where
  decodePayload : Bytes → Except String Json
  verifyCapsule : Bytes → Except String CapsuleCheck
  verifyEnvelope : String → Bytes → Except String Bytes
  digestJson : Json → Except String String
  digestRaw : Bytes → Except String String
  sha256Hex : Bytes → String
  marshal : Record → Except String Bytes
  unmarshal : Bytes → Except String Record
  peek : Bytes → String × Bool

/-- A record is written on one line, and its id is read back from it. -/
structure Packages.Lawful (packages : Packages) : Prop where
  newline_free : ∀ {record line}, packages.marshal record = .ok line → newline ∉ line
  peek_marshal : ∀ {record line}, packages.marshal record = .ok line →
    packages.peek line = (record.capsuleId, true)

section

variable (packages : Packages)

/-! ## Verification -/

/-- The digest the Capsule commits at a supported field. -/
def digestAt (capsule : Json) (field : String) : Result String := do
  ensure (ArtifactStore.digestFields.contains field) (.invalid ("unsupported digest field " ++ field))
  let value ← (ArtifactStore.splitOnChar '.' field).foldlM (fun (value : Json) key =>
    match value.get key with
    | some inner => Except.ok inner
    | none => Except.error (ArtifactError.invalid ("missing " ++ field))) capsule
  match value.asStr with
  | some digest => if validId digest then .ok digest else .error (.invalid ("malformed " ++ field))
  | none => .error (.invalid ("malformed " ++ field))

def paddingMembers : List String := ["capsule_id", "record_type", "epistemic_type", "store_nonce"]

def memberStr (name : String) (value : Json) : Option String := (value.get name).bind Json.asStr

/-- A padding record: its four members and no other, and its own digest as id. -/
def verifyPadding (id : String) (padding : Json) : Result Unit := do
  let members := (padding.asObject).getD []
  ensure (members.all (fun member => paddingMembers.any (fun name => member.1 = utf8 name)))
    (.invalid "padding record carries another member")
  ensure (memberStr "epistemic_type" padding = some "producer_claim")
    (.invalid "padding record epistemic_type")
  ensure (((memberStr "store_nonce" padding).map validId).getD false)
    (.invalid "padding record store_nonce")
  let body := members.filter (fun member => member.1 ≠ utf8 "capsule_id")
  match packages.digestJson (.object body) with
  | .error _ => .error (.invalid "padding record capsule id")
  | .ok computed =>
      ensure (memberStr "capsule_id" padding = some id && computed = id)
        (.invalid "padding record capsule id")

def verifyCapsuleBytes (record : Record) : Result Unit :=
  match (packages.decodePayload record.capsule).toOption.filter
      (fun decoded => memberStr "record_type" decoded = some "padding") with
  | some padding => verifyPadding packages record.capsuleId padding
  | none =>
      match packages.verifyCapsule record.capsule with
      | .error e => .error (.invalid ("capsule verification: " ++ e))
      | .ok check => ensure (check.ok && check.capsuleId = some record.capsuleId)
          (.invalid "capsule verification")

/-- The check of one artifact, and its entry in the results. -/
def verifyArtifact (capsule : Json) (results : List (String × ArtifactVerification)) (a : Artifact) :
    Result (List (String × ArtifactVerification)) := do
  ensure (validName a.name) (.invalid "artifact name")
  ensure (!results.any (fun result => result.1 = a.name)) (.invalid ("duplicate artifact " ++ a.name))
  let committed ← if a.binding = "" then .ok "" else digestAt capsule a.binding
  let verified ←
    if a.state = present then
      match a.content with
      | none => Except.error (ArtifactError.invalid ("missing content for " ++ a.name))
      | some content => do
          ensure (a.contentSha256 = "" || a.contentSha256 = packages.sha256Hex content) (.corrupt a.name)
          if a.binding = "" then .ok false
          else do
            ensure (match packages.digestRaw content with
                | .ok digest => digest = committed
                | .error _ => false)
              (.digestMismatch (a.name ++ " (" ++ a.binding ++ ")"))
            .ok true
    else if a.state = purgedState then do
      ensure (a.content.isNone && validId a.contentSha256) (.invalid "invalid purge tombstone")
      .ok false
    else if a.state = neverRetained then do
      ensure (a.content.isNone && a.contentSha256 = "") (.invalid "never-retained content")
      .ok false
    else .error (.invalid "retention state")
  .ok (results ++ [(a.name, ⟨a.state, a.binding ≠ "", verified⟩)])

/-- Authenticate the Capsule, authorize its signer and verify the originals. -/
def verify (record : Record) (trusted : List Bytes) : Result (List (String × ArtifactVerification)) := do
  ensure (validId record.capsuleId) (.invalid "capsule id")
  verifyCapsuleBytes packages record
  match packages.verifyEnvelope record.capsuleId record.producerEnvelope with
  | .error e => .error (.invalid ("envelope: " ++ e))
  | .ok publicKey => do
      ensure (trusted.any (fun key => key.length = 32 && key = publicKey)) .untrustedSigner
      match packages.decodePayload record.capsule with
      | .error e => .error (.other e)
      | .ok capsule => record.artifacts.foldlM (verifyArtifact packages capsule) []

/-! ## Admission and purge -/

/-- The checksum of the envelope, the Capsule and the inventory, which a purge
does not change. -/
def storageChecksum (record : Record) : Result String :=
  let artifacts := record.artifacts.map (fun a =>
    { a with content := none, state := if a.state = purgedState then present else a.state })
  match packages.marshal { record with
      artifacts := artifacts.insertionSort (fun x y => utf8 x.name ≤ utf8 y.name) } with
  | .error e => .error (.other e)
  | .ok data => .ok (packages.sha256Hex data)

def prepareArtifact (a : Artifact) : Result Artifact := do
  ensure (a.state ≠ purgedState) .purged
  if a.state = present then do
    let digest := packages.sha256Hex (a.content.getD [])
    ensure (a.contentSha256 = "" || a.contentSha256 = digest) (.corrupt "")
    .ok { a with contentSha256 := digest }
  else .ok a

/-- Fill the checksums of the originals and enforce the admission limits. -/
def prepare (record : Record) : Result Record := do
  ensure (record.artifacts.length ≤ maxArtifacts && record.producerEnvelope.length ≤ maxEnvelope)
    (.invalid "record limits")
  let artifacts ← record.artifacts.mapM (prepareArtifact packages)
  ensure (record.capsule.length + record.producerEnvelope.length +
      (record.artifacts.map (fun a => (a.content.getD []).length)).sum ≤ maxTotal)
    (.invalid "record exceeds 8 MiB")
  .ok { record with artifacts := artifacts }

/-- The record with a tombstone for each present original. -/
def tombstoned (record : Record) : Record :=
  { record with artifacts := record.artifacts.map (fun a =>
      if a.state = present then { a with content := none, state := purgedState } else a) }

/-- What a constructor checks of its namespace and keys. -/
def checkConfig (ns : String) (trusted : List Bytes) : Result Unit := do
  ensure (validName ns) (.invalid "namespace")
  ensure (!trusted.isEmpty) (.invalid "no trusted keys")
  ensure (trusted.all (fun key => key.length = 32)) (.invalid "public key size")

end

end GoArtifact
end CapsuleEmit
