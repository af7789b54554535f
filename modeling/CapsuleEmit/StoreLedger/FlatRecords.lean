import CapsuleEmit.FlatLedger.Runs
import CapsuleEmit.Foundation.Base64
import CapsuleEmit.StoreLedger.Ledger

namespace CapsuleEmit
namespace StoreLedger

/-!
# The records of a flat ledger

`LegacyLedger.get` reads a line of a flat ledger once more and checks the record
it holds: its content address, Class 1 for the `jcs` profile, and the producer
envelope that its two inline members claim.  An import takes the record as `get`
gives it, and only one that an artifact store would admit.

The functions of the Capsule package are parameters.
-/

open Python (Dict Value)
open ArtifactStore (Record Artifact ArtifactError)
open FlatLedger (File Handle)

/-- The outcome of the Class 1 check of a capsule. -/
structure Class1 where
  ok : Bool
  capsuleId : Option String
  errors : List String

/-- What an import calls: what the two ledgers call, and the checks of a capsule.
`findings` are the codes of the check of a producer envelope. -/
structure ImportPackages (Time : Type) where
  flat : FlatLedger.Packages Time
  stores : Packages
  computeCapsuleId : Dict → Except String String
  resolveCanonicalizationId : Dict → String
  verifyCapsule : Dict → Class1
  findings : String → Bytes → List String

/-- How a record is not read: with an error of the artifact contract, for want of an envelope, or
with another exception. -/
inductive ReadError where
  | artifact (error : ArtifactError)
  | unsigned
  | raised (why : String)

/-- Go on if a condition holds; the record is invalid otherwise. -/
def require (condition : Bool) (why : String) : Except ReadError Unit :=
  ensure condition (.artifact (.invalid why))

section

variable {Time : Type} (packages : ImportPackages Time)

/-! ## The checks of a capsule -/

/-- `_verify_padding` -/
def verifyPadding (capsuleId : String) (padding : Dict) : Except ReadError Unit := do
  match ((padding.map Prod.fst).filter (fun name => !paddingMembers.contains name)).insertionSort
      (· ≤ ·) with
  | extra :: _ => .error (.artifact (.invalid
      ("padding record carries " ++ packages.stores.repr (.str extra))))
  | [] => do
      require (str? "epistemic_type" padding = some "producer_claim") "padding record epistemic_type"
      require (((str? "store_nonce" padding).map ArtifactStore.validId).getD false)
        "padding record store_nonce"
      require (str? "capsule_id" padding = some capsuleId) "padding record capsule id"
      let digest ← (packages.stores.jsonDigest (.dict (padding.without "capsule_id"))).mapError .raised
      require (digest = capsuleId) "padding record capsule id"

/-- The key that signed an envelope. -/
def signerOf (capsuleId : String) (envelope : Bytes) : Except ReadError Bytes :=
  let verified := packages.stores.verifyProducerEnvelope capsuleId envelope
  match verified.publicKey.filter (fun _ => verified.ok) with
  | some key => .ok key
  | none => .error (.artifact (.invalid
      ("envelope: " ++ ",".intercalate (packages.findings capsuleId envelope))))

/-- The part of `_verify_capsule` that is about the capsule. -/
def checkContent (capsuleId : String) (capsule : Dict) (signed : Bool) : Except ReadError Unit := do
  require (str? "capsule_id" capsule = some capsuleId)
    "capsule verification: carried capsule_id differs"
  if isPadding capsule then do
    verifyPadding packages capsuleId capsule
    require signed "envelope: a padding record carries its producer envelope"
  else
    match packages.computeCapsuleId capsule with
    | .error why => .error (.artifact (.invalid ("capsule verification: " ++ why)))
    | .ok computed => do
        require (computed = capsuleId) "capsule verification: capsule id mismatch"
        require (packages.resolveCanonicalizationId capsule ≠ "jcs" || (packages.verifyCapsule capsule).ok)
          ("capsule verification: " ++ ",".intercalate (packages.verifyCapsule capsule).errors)

/-- The envelope that the two members claim. -/
def claimedEnvelope (obj : Dict) : Except ReadError (Option Bytes) :=
  match obj.get? "signature", obj.get? "key_id" with
  | none, none => .ok none
  | some (.str signature), some (.str _) =>
      match Python.fromHex signature with
      | none => .error (.artifact (.invalid "envelope: signature is not hex"))
      | some [] => .error (.artifact (.invalid "envelope: signature is empty"))
      | some envelope => .ok (some envelope)
  | _, _ => .error (.artifact (.invalid "envelope: signature and key_id must both be present strings"))

/-- The signer is the one that `key_id` names.  Only ASCII letters become hexadecimal digits in lower
case. -/
def checkSigner (capsuleId : String) (keyId : Option String) :
    Option Bytes → Except ReadError Unit
  | none => .ok ()
  | some envelope => do
      let key ← signerOf packages capsuleId envelope
      require (keyId.map String.toLower = some (Sha256.hex key))
        "envelope: key_id is not the envelope's signer"

/-- `checked_record` -/
def checkedRecord (capsuleId : String) (obj : Dict) : Except ReadError Record := do
  let envelope ← claimedEnvelope obj
  let body := (obj.without "signature").without "key_id"
  checkContent packages capsuleId body envelope.isSome
  checkSigner packages capsuleId (str? "key_id" obj) envelope
  let text ← (packages.flat.dumps body).mapError .raised
  .ok ⟨capsuleId, utf8 text, envelope.getD [], []⟩

/-! ## Reading a record -/

/-- `_record` -/
def recordOf (file : Option File) (line : FlatLedger.Line Time) : Except ReadError Record :=
  match Python.decodeStrictJson packages.stores.json (FlatLedger.readRaw file line) with
  | .error why => .error (.artifact (.invalid ("capsule verification: " ++ why)))
  | .ok (.dict obj) => checkedRecord packages (Sha256.hex line.entry.value) obj
  | .ok _ => .error (.artifact (.invalid "capsule verification: capsule is not an object"))

/-- A corrupt line is the corruption of the artifact contract. -/
def asArtifactError : FlatLedger.LedgerError → ReadError
  | .corrupt why => .artifact (.corrupt why)
  | .raised why => .raised why

/-- The record that an index finds. -/
def found (file : Option File) (handle : Handle Time) (capsuleId : String) : Except ReadError Record :=
  match ((Python.fromHex capsuleId).bind handle.find).filter FlatLedger.Line.capsule with
  | none => .error (.artifact .notFound)
  | some line => recordOf packages file line

/-- `LegacyLedger.get` -/
def legacyGet (file : Option File) (handle : Handle Time) (capsuleId : String) :
    Except ReadError Record × Handle Time :=
  if ArtifactStore.validId capsuleId then
    match handle.refresh packages.flat file with
    | (.error error, handle) => (.error (asArtifactError error), handle)
    | (.ok (), handle) => (found packages file handle capsuleId, handle)
  else (.error (.artifact (.invalid "capsule id")), handle)

/-! ## What a store admits -/

/-- An original with its digest. -/
def prepareArtifact (a : Artifact) : Except ReadError Artifact :=
  match a.state with
  | .purged => .error (.artifact .purged)
  | .neverRetained => .ok a
  | .present => do
      let digest := packages.stores.sha256Hex (a.content.getD [])
      ensure (a.contentSha256.isEmpty || a.contentSha256 = digest) (.artifact (.corrupt "content checksum"))
      .ok { a with contentSha256 := digest }

/-- `prepare` -/
def prepare (record : Record) : Except ReadError Record := do
  require (record.artifacts.length ≤ ArtifactStore.maxArtifacts &&
    record.producerEnvelope.length ≤ ArtifactStore.maxEnvelope) "record limits"
  let artifacts ← record.artifacts.mapM (prepareArtifact packages)
  let size := record.capsule.length + record.producerEnvelope.length +
    (artifacts.map (fun a => (a.content.getD []).length)).sum
  require (size ≤ ArtifactStore.maxTotal) "record exceeds 8 MiB"
  .ok { record with artifacts := artifacts }

/-- The part of `verify` that is about the capsule. -/
def verifyContent (record : Record) : Except ReadError Unit :=
  match Python.decodeStrictJson packages.stores.json record.capsule with
  | .error why => .error (.artifact (.invalid ("capsule verification: " ++ why)))
  | .ok (.dict decoded) =>
      if isPadding decoded then verifyPadding packages record.capsuleId decoded
      else do
        require (str? "format_version" decoded = some "4" &&
            str? "canonicalization_id" decoded = some "jcs")
          ("capsule verification: only AAC format 4 with canonicalization_id \"jcs\" is supported")
        let class1 := packages.verifyCapsule decoded
        require (class1.ok && class1.capsuleId = some record.capsuleId)
          ("capsule verification: " ++ if class1.errors.isEmpty then "capsule id mismatch"
            else ",".intercalate class1.errors)
  | .ok _ => .error (.artifact (.invalid "capsule verification: capsule payload is not an object"))

/-- `verify`, of a record without originals. -/
def verify (record : Record) (trusted : List Bytes) : Except ReadError Unit := do
  require (ArtifactStore.validId record.capsuleId) "capsule id"
  verifyContent packages record
  let key ← signerOf packages record.capsuleId record.producerEnvelope
  ensure (trusted.any (fun held => held.length = 32 && held = key)) (.artifact .untrustedSigner)

/-- `_signer_key` -/
def signerKeyOf (record : Record) : Bytes :=
  (packages.stores.verifyProducerEnvelope record.capsuleId record.producerEnvelope).publicKey.getD []

/-- A record that a store can keep. -/
def checkCopy (record : Record) : Except ReadError Record := do
  ensure (!record.producerEnvelope.isEmpty) .unsigned
  let prepared ← prepare packages record
  verify packages prepared [signerKeyOf packages record]
  .ok record

end

/-! ## What is read -/

section

variable {Time : Type} {packages : ImportPackages Time}

theorem spec_checkedRecord {capsuleId : String} {obj : Dict} {record : Record}
    (checked : checkedRecord packages capsuleId obj = .ok record) :
    record.capsuleId = capsuleId ∧ record.artifacts = [] := by
  unfold checkedRecord at checked
  rcases bind_eq_ok_iff.mp checked with ⟨envelope, -, checked⟩
  rcases bind_eq_ok_iff.mp checked with ⟨-, -, checked⟩
  rcases bind_eq_ok_iff.mp checked with ⟨-, -, checked⟩
  rcases bind_eq_ok_iff.mp checked with ⟨text, -, checked⟩
  cases checked
  exact ⟨rfl, rfl⟩

theorem value_of_find {handle : Handle Time} {file : Option File}
    (read : FlatLedger.indexOf packages.flat file = .ok handle) {value : Bytes}
    {line : FlatLedger.Line Time} (here : handle.find value = some line) : line.entry.value = value := by
  rw [FlatLedger.find_eq (FlatLedger.first_indexOf read)] at here
  have same := List.find?_some here
  rwa [decide_eq_true_eq] at same

/-- A record that is read has the id it was asked for, and no originals. -/
theorem spec_found {file : Option File} {handle : Handle Time}
    (read : FlatLedger.indexOf packages.flat file = .ok handle) {capsuleId : String}
    (valid : ArtifactStore.validId capsuleId = true) {record : Record}
    (got : found packages file handle capsuleId = .ok record) :
    record.capsuleId = capsuleId ∧ record.artifacts = [] := by
  rcases FlatLedger.hex_of_validId valid with ⟨value, decoded, text, -⟩
  rw [found, decoded, Option.bind_some] at got
  cases here : (handle.find value).filter FlatLedger.Line.capsule with
  | none =>
      rw [here] at got
      cases got
  | some line =>
      rw [here] at got
      have same := value_of_find read (Option.filter_eq_some_iff.mp here).1
      dsimp only at got
      rw [recordOf] at got
      split at got
      · cases got
      · rw [same, text] at got
        exact spec_checkedRecord got
      · cases got

/-- A handle that follows its file reads a record as a new handle does, and follows it still. -/
theorem legacyGet_eq {file : Option File} {handle : Handle Time}
    (follows : handle.Follows packages.flat file) (capsuleId : String) :
    (legacyGet packages file handle capsuleId).1 = (legacyGet packages file Handle.reset capsuleId).1 ∧
      (legacyGet packages file handle capsuleId).2.Follows packages.flat file := by
  have refreshed := follows.refresh
  have fresh := FlatLedger.refresh_eq (@FlatLedger.follows_reset Time packages.flat file)
  rw [legacyGet, legacyGet]
  rw [FlatLedger.refresh_eq follows] at refreshed ⊢
  rw [fresh]
  by_cases valid : ArtifactStore.validId capsuleId = true
  · rw [if_pos valid, if_pos valid]
    cases read : FlatLedger.indexOf packages.flat file with
    | error error =>
        rw [read] at refreshed
        exact ⟨rfl, refreshed⟩
    | ok index =>
        rw [read] at refreshed
        exact ⟨rfl, refreshed⟩
  · rw [if_neg valid, if_neg valid]
    exact ⟨rfl, follows⟩

/-- What a flat ledger gives for an id. -/
def recordAt (packages : ImportPackages Time) (file : Option File) (capsuleId : String) :
    Except ReadError Record :=
  (legacyGet packages file Handle.reset capsuleId).1

theorem spec_recordAt {file : Option File} {capsuleId : String} {record : Record}
    (got : recordAt packages file capsuleId = .ok record) :
    ArtifactStore.validId record.capsuleId = true ∧ record.capsuleId = capsuleId ∧
      record.artifacts = [] := by
  rw [recordAt, legacyGet,
    FlatLedger.refresh_eq (@FlatLedger.follows_reset Time packages.flat file)] at got
  split at got
  · next valid =>
      cases read : FlatLedger.indexOf packages.flat file with
      | error error =>
          rw [read] at got
          cases got
      | ok index =>
          rw [read] at got
          have spec := spec_found read valid got
          exact ⟨spec.1.symm ▸ valid, spec⟩
  · cases got

/-- Preparing a record without originals leaves it. -/
theorem prepare_bare {record prepared : Record} (bare : record.artifacts = [])
    (made : prepare packages record = .ok prepared) : prepared = record := by
  unfold prepare at made
  rcases bind_eq_ok_iff.mp made with ⟨-, -, made⟩
  rcases bind_eq_ok_iff.mp made with ⟨artifacts, none, made⟩
  rw [bare, List.mapM_nil] at none
  cases none
  rcases bind_eq_ok_iff.mp made with ⟨-, -, made⟩
  cases made
  rw [← bare]

end

end StoreLedger
end CapsuleEmit
