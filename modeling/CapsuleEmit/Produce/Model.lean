import CapsuleEmit.ArtifactStore.StrictJson
import CapsuleEmit.Foundation.Outcome
import CapsuleEmit.Foundation.Sha256

namespace CapsuleEmit
namespace Produce

/-!
# What a producer records, and the Capsule it builds

Every producing package takes the same application-owned values.  A text that
is empty counts as absent, and optional blocks are either there or not.  The
members of a Capsule are assembled in one order from these values; what the
packages do differently is which values they admit, how they write the
timestamp and how they copy the opaque coordinates of a reference.

Member values are JSON trees.  A timestamp is an instant, given by its fields
in UTC.
-/

abbrev Payload := List (Bytes × Json)

/-! ## Inputs -/

/-- An instant: its date and time of day in UTC, to the nanosecond. -/
structure Instant where
  year : Int
  month : Nat
  day : Nat
  hour : Nat
  minute : Nat
  second : Nat
  nanosecond : Nat
  inMonth : 1 ≤ month ∧ month ≤ 12
  inDay : 1 ≤ day ∧ day ≤ 31
  inHour : hour < 24
  inMinute : minute < 60
  inSecond : second < 60
  inNanosecond : nanosecond < 1000000000

/-- The microseconds of an instant; finer digits are truncated. -/
def Instant.microsecond (instant : Instant) : Nat := instant.nanosecond / 1000

/-- January 1 of year 1 at midnight, up to the fraction of the second. -/
def Instant.atZero (instant : Instant) : Bool :=
  instant.year = 1 && instant.month = 1 && instant.day = 1 && instant.hour = 0 &&
    instant.minute = 0 && instant.second = 0

/-- The opaque coordinates of a reference: an object of text without a
repeated name. -/
structure Coordinates where
  members : Payload
  textual : (Json.object members).textual = true
  distinct : (Json.object members).distinct = true

def Coordinates.tree (coordinates : Coordinates) : Json := .object coordinates.members

/-- Cites an external artifact under its own digest context. -/
structure Reference where
  type : String
  digestAlg : String
  digest : String
  citationPurpose : String
  logCoordinates : Option Coordinates

structure Model where
  provider : String
  modelId : String

/-- Binds the model invocation to its input, output and runtime. -/
structure ComputeAttestation where
  agentInputDigest : String
  agentOutputDigest : String
  runtime : String

/-- How a decision was disposed. -/
structure Disposition where
  decision : String
  approver : String
  humanDisposed : Bool
  verdictClass : String
  reasonDigest : String

/-- An external side effect, binding request and response by digest. -/
structure Effect where
  type : String
  status : String
  irreversibilityClass : String
  effectAttestation : String
  requestDigest : String
  responseDigest : String
  externalRef : String

structure Chain where
  parentCapsuleId : String
  relation : String

/-- Marks a Capsule as a backfilled import. -/
structure ProvenanceMode where
  mode : String
  sourceRef : Option Reference
  sourceAssertedAt : String
  importBatch : String
  importedAt : String
  timeRung : String

/-- One additional top-level member; the value is JSON text. -/
structure Extension where
  name : String
  value : Bytes

/-- The application-owned values for one Capsule. -/
structure Input where
  actionId : String
  actionType : String
  operator : String
  developer : String
  timestamp : Option Instant
  epochId : String
  domain : String
  provenance : String
  disposition : Option Disposition
  effect : Option Effect
  chain : Option Chain
  references : Option (List Reference)
  model : Option Model
  compute : Option ComputeAttestation
  provenanceMode : Option ProvenanceMode
  extensions : List Extension

/-- A signature-free Capsule: its id, its members and its canonical bytes. -/
structure BuiltPayload where
  capsuleId : String
  value : Json
  json : Bytes

/-! ## Vocabulary -/

def specVersion : String := "draft-mih-scitt-agent-action-capsule-05"
def formatVersion : String := "4"
def canonicalizationId : String := "jcs"

def actionFyi : String := "fyi"
def actionDecide : String := "decide"

def human : String := "human"
def policy : String := "policy"
def counterparty : String := "counterparty"

def planned : String := "planned"
def dispatched : String := "dispatched"
def confirmed : String := "confirmed"
def failed : String := "failed"
def reverted : String := "reverted"

def epochOpens : String := "epoch_opens"
def contemporaneous : String := "contemporaneous"
def backfilled : String := "backfilled"
def selfAttested : String := "self_attested"
def witnessed : String := "witnessed"

/-- 64 lower-case hexadecimal characters. -/
def isHex64 (value : String) : Bool :=
  (utf8 value).length = 64 && (utf8 value).all Sha256.isHexByte

/-! ## Members -/

def member (name : String) (value : Json) : Bytes × Json := (utf8 name, value)

def text (name value : String) : Bytes × Json := member name (.ofString value)

/-- The member of an optional text: absent when the text is empty. -/
def insertText (name value : String) : Payload := if value = "" then [] else [text name value]

/-- The member of an optional block. -/
def insertBlock {α : Type} (name : String) (render : α → Json) : Option α → Payload
  | none => []
  | some value => [member name (render value)]

def digestReferenceMap (type digestAlg digest : String) : Payload :=
  [text "type" type, text "digest_alg" digestAlg, text "digest" digest]

/-- The effect mode derived from an effect. -/
def effectMode : Option Effect → String
  | none => "not_applicable"
  | some effect =>
      if effect.status = confirmed then "confirmed"
      else if effect.status = planned then "not_applicable"
      else "dispatched_unconfirmed"

def assurance (effect : Option Effect) (chain : Option Chain) : Json :=
  .object [text "effect_mode" (effectMode effect), text "attestation_mode" selfAttested,
    text "ledger_mode" (if chain.isSome then "chained" else "standalone")]

def provenanceModeMap (mode : ProvenanceMode) : Json :=
  .object ([text "mode" mode.mode] ++
    insertBlock "source_ref" (fun source : Reference =>
      .object (digestReferenceMap source.type source.digestAlg source.digest)) mode.sourceRef ++
    insertText "source_asserted_at" mode.sourceAssertedAt ++
    insertText "import_batch" mode.importBatch ++ insertText "imported_at" mode.importedAt ++
    insertText "time_rung" mode.timeRung)

def dispositionMap (disposition : Disposition) : Json :=
  .object ([text "decision" disposition.decision, text "approver" disposition.approver,
      member "human_disposed" (.bool disposition.humanDisposed)] ++
    insertText "verdict_class" disposition.verdictClass ++
    insertText "reason_digest" disposition.reasonDigest)

def effectMap (effect : Effect) : Json :=
  .object ([text "type" effect.type, text "status" effect.status,
      text "irreversibility_class" effect.irreversibilityClass] ++
    insertText "effect_attestation" effect.effectAttestation ++
    insertText "request_digest" effect.requestDigest ++
    insertText "response_digest" effect.responseDigest ++
    insertText "external_ref" effect.externalRef)

def chainMap (chain : Chain) : Json :=
  .object [text "parent_capsule_id" chain.parentCapsuleId, text "relation" chain.relation]

/-- The members of a compute attestation. -/
def computeAttestationMap (compute : ComputeAttestation) : Payload :=
  insertText "agent_input_digest" compute.agentInputDigest ++
    insertText "agent_output_digest" compute.agentOutputDigest ++
    insertText "runtime" compute.runtime

/-- A block with at least one member; an empty one is left out. -/
def nonempty (name : String) (members : Payload) : Payload :=
  if members.isEmpty then [] else [member name (.object members)]

def modelAttestation (model : Option Model) (compute : Option ComputeAttestation) : Payload :=
  (match model with
    | none => []
    | some model =>
        insertText "model_id" model.modelId ++ insertText "provider" model.provider) ++
  nonempty "compute_attestation" (match compute with
    | none => []
    | some compute => computeAttestationMap compute)

/-- A reference with its coordinates as a package copied them. -/
def referenceMap (reference : Reference) (coordinates : Option Json) : Json :=
  .object (digestReferenceMap reference.type reference.digestAlg reference.digest ++
    insertText "citation_purpose" reference.citationPurpose ++
    insertBlock "log_coordinates" id coordinates)

/-- The members of a Capsule before its extensions and its id. -/
def assemble (input : Input) (timestamp : String) (references : Option (List Json)) : Payload :=
  [text "spec_version" specVersion, text "format_version" formatVersion,
    text "canonicalization_id" canonicalizationId, text "action_id" input.actionId,
    text "action_type" input.actionType, text "operator" input.operator,
    text "developer" input.developer, text "timestamp" timestamp,
    member "assurance" (assurance input.effect input.chain)] ++
  insertText "epoch_id" input.epochId ++ insertText "domain" input.domain ++
  insertText "provenance" input.provenance ++
  insertBlock "provenance_mode" provenanceModeMap input.provenanceMode ++
  insertBlock "disposition" dispositionMap input.disposition ++
  insertBlock "effect" effectMap input.effect ++
  insertBlock "chain" chainMap input.chain ++
  nonempty "model_attestation" (modelAttestation input.model input.compute) ++
  insertBlock "references" Json.array references

/-! ## Timestamps -/

/-- A number in decimal, with at least the given number of digits. -/
def padded (width n : Nat) : String :=
  String.ofList (List.replicate (width - (toString n).length) '0') ++ toString n

/-- The wire form of an instant over the text of its year: whole seconds omit
the fraction, any other instant has six digits of it. -/
def wireTimestamp (year : String) (instant : Instant) : String :=
  year ++ "-" ++ padded 2 instant.month ++ "-" ++ padded 2 instant.day ++ "T" ++
    padded 2 instant.hour ++ ":" ++ padded 2 instant.minute ++ ":" ++ padded 2 instant.second ++
    (if instant.microsecond = 0 then "" else "." ++ padded 6 instant.microsecond) ++ "Z"

end Produce
end CapsuleEmit
