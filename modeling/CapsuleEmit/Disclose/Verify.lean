import CapsuleEmit.Foundation.Python
import CapsuleEmit.Foundation.Outcome
import CapsuleEmit.Foundation.Sha256

namespace CapsuleEmit
namespace Disclose

open Python

/-!
# The verification of a disclosure

A disclosure carries the same facts in several places: the ids, a record proof
and an envelope for each id, the completeness statement, and the signed
disclosure record.  The verifier compares some of them and reports an error
for each difference; it never raises.

What other packages provide is a parameter, `Packages`: the canonical forms and
the JSON digest, SHA-256, the check of a producer signature, and the check of
what a record proof says about the log.
-/

/-- What a digest raises: a value that has no canonical form, or anything else. -/
inductive Raised where
  | uncanonical (text : String)
  | other (text : String)

/-- The verdict on a producer signature. -/
inductive AuthorshipVerdict where
  | authored
  | invalid
  | unclaimed
  deriving DecidableEq

/-- One record's proof: its capsule id, its receipt, and what the log proves. -/
structure RecordProof where
  capsuleId : Value
  receipt : Value
  proof : Value

/-- A disclosure, as it is handed to an audience. -/
structure Disclosure where
  v : Int
  audience : Value
  recordIds : List String
  bundles : List (String × RecordProof)
  envelopes : List (String × Value)
  completeness : Value
  suppressedFields : List String
  disclosureRecord : Value

/-- The functions of other packages the verifier calls, and the text `repr`
gives of a value. -/
structure Packages where
  repr : Value → String
  jcs : Value → Except String Bytes
  normalize : Value → Except String Value
  sha256 : Bytes → Bytes
  jsonDigest : Value → Except Raised String
  recordSignature : Value → AuthorshipVerdict × List String
  logIntegrity : RecordProof → List (String × Bytes) → Bool × List String

/-! ## Capsule ids -/

def localOnlyFields : List String := ["signature", "key_id"]

def vintageOnlyExcludedFields : List String := ["chain"]

section

variable (packages : Packages)

/-- The preimage of a Capsule ID under the algorithm the capsule declares. -/
def canonicalCapsuleBytes (capsule : Value) : Except String Bytes := do
  let declared ← capsule.get "canonicalization_id"
  let members ← capsule.members "items"
  let canonical := members.filter (fun member =>
    member.1 ≠ "capsule_id" && !localOnlyFields.contains member.1)
  match declared with
  | .none | .str "jcs-n" => do
      let normal ← packages.normalize (.dict (canonical.filter (fun member =>
        !vintageOnlyExcludedFields.contains member.1)))
      packages.jcs normal
  | .str "jcs" => packages.jcs (.dict canonical)
  | algorithm =>
      .error ("cannot compute capsule_id with canonicalization_id " ++ packages.repr algorithm)

def computeCapsuleId (capsule : Value) : Except String String :=
  (canonicalCapsuleBytes packages capsule).map (fun bytes => Sha256.hex (packages.sha256 bytes))

/-! ## Record proofs -/

/-- A value in a message. -/
def text : Value → String
  | .str s => s
  | value => packages.repr value

/-- The check of one record's proof: its content and its producer's signature,
then everything the log proves. -/
def verifyRecordProof (trustAnchor : List (String × Bytes)) (b : RecordProof) :
    Bool × List String :=
  match b.receipt.get "capsule_id" with
  | .error raised => (false, ["unexpected error: " ++ raised])
  | .ok carried =>
      let named := carried.eq b.capsuleId
      let hashed := match computeCapsuleId packages b.receipt with
        | .error _ => false
        | .ok recomputed => (Value.str recomputed).eq carried
      let authorship := packages.recordSignature b.receipt
      let log := packages.logIntegrity b trustAnchor
      let name := "receipt " ++ text packages b.capsuleId
      (named && hashed && authorship.1 ≠ .invalid && log.1,
        (if named then [] else ["receipt.capsule_id does not match bundle.capsule_id"]) ++
        (match computeCapsuleId packages b.receipt with
          | .error raised => [name ++ " content could not be hashed: " ++ raised]
          | .ok _ => if hashed then [] else
              [name ++ " does not hash to its own capsule_id -- receipt body was tampered"]) ++
        (match authorship.1 with
          | .invalid => authorship.2
          | .unclaimed => [name ++ ": log-verified, authorship not claimed"]
          | .authored => []) ++ log.2)

/-! ## Reports -/

/-- What a check found, and what it raised, if it did. -/
structure Report where
  errors : List String
  raised : Option String

namespace Report

def clean : Report := ⟨[], none⟩

/-- One error unless a condition holds. -/
def require (condition : Bool) (error : String) : Report :=
  if condition then clean else ⟨[error], none⟩

/-- A report that needs a value; without one, it has what was raised. -/
def ofValue {α : Type} (value : Except String α) (report : α → Report) : Report :=
  match value with
  | .error raised => ⟨[], some raised⟩
  | .ok value => report value

/-- Checks in order; the first that raises is the last. -/
def all : List Report → Report
  | [] => clean
  | first :: rest =>
      match first.raised with
      | some _ => first
      | none => ⟨first.errors ++ (all rest).errors, (all rest).raised⟩

end Report

/-! ## The verifier -/

/-- The disclosed field and the digest of the compute attestation it opens. -/
def disclosureEligibleFields : List (String × String) :=
  [("agent_input", "agent_input_digest"), ("agent_output", "agent_output_digest")]

/-- The digests a receipt commits. -/
def computeAttestation (receipt : Value) : Except String Value := do
  let attestation ← receipt.get "model_attestation"
  let compute ← attestation.orEmpty.get "compute_attestation"
  .ok compute.orEmpty

/-- The digest a receipt commits for a field, if the field is eligible. -/
def committed (attestation : Value) (field : String) : Except String Value :=
  match Value.lookup field disclosureEligibleFields with
  | none => .ok .none
  | some digestField => attestation.get digestField

/-- What an envelope discloses; nothing without an envelope. -/
def disclosuresOf (envelope : Option Value) : Except String Value := do
  let disclosures ← (envelope.getD .none).orEmpty.get "disclosures"
  .ok disclosures.orEmpty

/-- One disclosed value recomputes to its committed digest. -/
def checkField (cid : String) (attestation : Value) (entry : String × Value) : Report :=
  .ofValue (committed attestation entry.1) (fun stored =>
    match stored with
    | .none => ⟨[cid ++ ": " ++ entry.1 ++ " disclosed but no committed digest exists"], none⟩
    | stored =>
        match packages.jsonDigest entry.2 with
        | .error (.uncanonical text) =>
            ⟨[cid ++ ": " ++ entry.1 ++ " cannot be canonicalized: " ++ text], none⟩
        | .error (.other text) => ⟨[], some text⟩
        | .ok computed =>
            .require ((Value.str computed).eq stored)
              (cid ++ ": " ++ entry.1 ++ " payload does not match its committed digest"))

/-- The checks of one id. -/
def checkRecord (trustAnchor : List (String × Bytes)) (d : Disclosure) (cid : String) : Report :=
  match Value.lookup cid d.bundles with
  | none => ⟨[cid ++ ": missing bundle"], none⟩
  | some b =>
      let proof := verifyRecordProof packages trustAnchor b
      .all [
        if proof.1 then .clean else ⟨proof.2.map (fun e => cid ++ ": " ++ e), none⟩,
        .ofValue (disclosuresOf (Value.lookup cid d.envelopes)) (fun disclosures =>
          .ofValue (computeAttestation b.receipt) (fun attestation =>
            .ofValue (disclosures.members "items") (fun entries =>
              .all (entries.map (checkField packages cid attestation)))))]

/-- The checks of the disclosure record against the disclosure. -/
def checkDisclosureRecord (d : Disclosure) : Report :=
  .all [
    .require ((packages.recordSignature d.disclosureRecord).1 = .authored)
      "disclosure record signature does not verify",
    .ofValue (d.disclosureRecord.get "audience") (fun audience =>
      .require (audience.eq d.audience)
        "disclosure_record.audience does not match Disclosure.audience"),
    .ofValue (do
        let members ← d.disclosureRecord.members "get"
        ((Value.lookup "disclosed_capsule_ids" members).getD (.list [])).toList) (fun ids =>
      .require (Value.eqItems ids (d.recordIds.map .str))
        "disclosure_record.disclosed_capsule_ids does not match Disclosure.record_ids"),
    .ofValue (d.disclosureRecord.get "completeness") (fun completeness =>
      .require (d.completeness.eq completeness)
        "Disclosure.completeness does not match the signed disclosure_record.completeness"),
    .ofValue (d.disclosureRecord.get "suppressed_fields") (fun suppressed =>
      .require ((Value.list (d.suppressedFields.map .str)).eq suppressed)
        "Disclosure.suppressed_fields does not match the signed disclosure_record.suppressed_fields")]

/-- Offline verification of a disclosure: no error, and the errors. -/
def verifyDisclosure (trustAnchor : List (String × Bytes)) (d : Disclosure) : Bool × List String :=
  let report := Report.all (checkDisclosureRecord packages d ::
    d.recordIds.map (checkRecord packages trustAnchor d))
  match report.raised with
  | some raised => (false, report.errors ++ ["unexpected error: " ++ raised])
  | none => (report.errors.isEmpty, report.errors)

end

end Disclose
end CapsuleEmit
