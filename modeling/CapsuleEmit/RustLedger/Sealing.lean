import CapsuleEmit.RustLedger.MemoryBacking

namespace CapsuleEmit
namespace RustLedger

/-!
# Sealing a Capsule

The Capsule ID is computed over the body of a Capsule, and the Capsule is laid
out around it: the version members, the ID, then what the body adds.  The
version members are written over the body's own after the ID is computed, so
the Capsule of a body has the ID that recomputes from it exactly when the body
already has the sealer's version members.  The bodies `seal_body` builds do,
and a producer envelope is no part of the ID of any Capsule.

The store nonce and the minute of a local record are drawn, and parameters here,
as the producer envelope of a signing key is.
-/

/-! ## Maps -/

/-- A `Map<String, Value>`, its entries in the order of insertion. -/
@[ext]
structure Members where
  entries : List (String × Value)
  once : (entries.map Prod.fst).Nodup

namespace Members

/-- `Map::insert` -/
def insert (name : String) (value : Value) (members : Members) : Members :=
  ⟨OrderedMap.insert name value members.entries, OrderedMap.nodup_insert members.once⟩

/-- Entries inserted one after the other. -/
def extend (members : Members) (more : List (String × Value)) : Members :=
  ⟨OrderedMap.insertAll more members.entries, OrderedMap.nodup_insertAll members.once⟩

/-- Entries inserted into an empty map. -/
def of (entries : List (String × Value)) : Members := extend ⟨[], List.nodup_nil⟩ entries

/-- `entry(name).or_insert(value)` for each entry of a map. -/
def keepAll (members more : Members) : Members :=
  ⟨OrderedMap.keepAll more.entries members.entries, OrderedMap.nodup_keepAll members.once⟩

def containsKey (members : Members) (name : String) : Bool :=
  name ∈ members.entries.map Prod.fst

/-- `Value::Object` -/
def toValue (members : Members) : Value := objectOf members.entries members.once

theorem of_entries {entries : List (String × Value)} (once : (entries.map Prod.fst).Nodup) :
    (of entries).entries = entries := OrderedMap.insertAll_of_fresh once

end Members

/-- A member of the text of a value. -/
def rawMember (member : String × Value) : Bytes × Json := (utf8 member.1, member.2.tree)

def boolOf (value : Bool) : Value := ⟨.bool value, rfl, rfl⟩

def emptyArray : Value := ⟨.array [], rfl, rfl⟩

/-- A member that is left out where there is no value. -/
def optional (name : String) (value : Option Value) : List (String × Value) :=
  (value.map (fun value => (name, value))).toList

/-! ## What is sealed -/

def specVersion : String := "draft-mih-scitt-agent-action-capsule-05"

def formatVersion : String := "4"

def canonicalizationId : String := "jcs"

def storeNonceField : String := "store_nonce"

/-- The `compute_attestation` members the sealer writes. -/
def coreComputeAttestationMembers : List String :=
  ["agent_input_digest", "agent_output_digest", "tool_calls_digest", "reasoning_digest",
    "host_binding", "runtime", "attestation_refs", storeNonceField]

structure ChainLink where
  parentCapsuleId : String
  relation : String

def ChainLink.toValue (link : ChainLink) : Value :=
  (Members.of [("parent_capsule_id", textOf link.parentCapsuleId),
    ("relation", textOf link.relation)]).toValue

structure HostBinding where
  digest : String
  construction : String
  purpose : String

def HostBinding.toValue (binding : HostBinding) : Value :=
  (Members.of [("digest", textOf binding.digest), ("construction", textOf binding.construction),
    ("purpose", textOf binding.purpose)]).toValue

/-- Everything `seal` commits to for one action. -/
structure CapsuleInput where
  actionId : String
  actionType : String
  operator : String
  developer : String
  timestamp : String
  domain : Option String
  provenance : Option String
  modelId : String
  provider : String
  agentInputDigest : String
  agentOutputDigest : Option String
  toolCallsDigest : Option String
  reasoningDigest : Option String
  hostBinding : Option HostBinding
  runtime : Value
  computeAttestationExtensions : Members
  effectStatus : String
  effectType : String
  effectRequestDigest : Option String
  effectResponseDigest : Option String
  effectAttestation : String
  dispositionDecision : String
  dispositionApprover : String
  dispositionHumanDisposed : Bool
  dispositionVerdictClass : String
  chain : Option ChainLink
  storeNonce : String

/-- 64 lower-case hexadecimal digits. -/
def isHex64 (value : String) : Bool := isNonce value

inductive SealError where
  | jcs (error : JcsError)
  | effectInvariant (text : String)
  | storeNonce
  | reservedExtensionKey (key : String)
  | reservedMember (name : String)
  deriving DecidableEq

/-- The effect's status and digests. -/
def checkEffect (input : CapsuleInput) : Except SealError Unit :=
  let req := input.effectRequestDigest
  let resp := input.effectResponseDigest
  if req.any (!isHex64 ·) || resp.any (!isHex64 ·) then
    .error (.effectInvariant
      "request_digest/response_digest must be a 64-hex JSON-DIGEST when present")
  else if input.effectStatus = "confirmed" && resp.isNone then
    .error (.effectInvariant "confirmed requires a response_digest over the observed output")
  else if input.effectStatus = "planned" && (req.isSome || resp.isSome) then
    .error (.effectInvariant "planned requires request_digest and response_digest absent")
  else if input.effectStatus = "dispatched" && resp.isSome then
    .error (.effectInvariant "dispatched requires response_digest absent")
  else .ok ()

def deriveEffectMode (status : String) (responseDigest : Option String) : String :=
  if status = "planned" then "not_applicable"
  else if status = "confirmed" && responseDigest.any isHex64 then "confirmed"
  else "dispatched_unconfirmed"

def checkExtensions (extensions : Members) : Except SealError Unit :=
  (extensions.entries.find? (fun member => member.1 ∈ coreComputeAttestationMembers)).elim (.ok ())
    (fun member => .error (.reservedExtensionKey member.1))

/-! ## Bodies -/

/-- The `compute_attestation` members before the extensions. -/
def coreAttestation (input : CapsuleInput) : List (String × Value) :=
  [("agent_input_digest", textOf input.agentInputDigest)] ++
    optional "agent_output_digest" (input.agentOutputDigest.map textOf) ++
    optional "tool_calls_digest" (input.toolCallsDigest.map textOf) ++
    optional "reasoning_digest" (input.reasoningDigest.map textOf) ++
    optional "host_binding" (input.hostBinding.map HostBinding.toValue) ++
    [("runtime", input.runtime), ("attestation_refs", emptyArray)]

def computeAttestation (input : CapsuleInput) : Members :=
  ((Members.of (coreAttestation input)).extend input.computeAttestationExtensions.entries).insert
    storeNonceField (textOf input.storeNonce)

def modelAttestation (modelId provider : String) (computeAttestation : Members) : Value :=
  (Members.of [("model_id", textOf modelId), ("provider", textOf provider),
    ("compute_attestation", computeAttestation.toValue)]).toValue

def effectBlock (input : CapsuleInput) : Value :=
  (Members.of ([("status", textOf input.effectStatus), ("type", textOf input.effectType),
    ("effect_attestation", textOf input.effectAttestation)] ++
    optional "request_digest" (input.effectRequestDigest.map textOf) ++
    optional "response_digest" (input.effectResponseDigest.map textOf))).toValue

def assuranceBlock (effectMode : String) (chain : Option ChainLink) : Value :=
  (Members.of [("attestation_mode", textOf "self_attested"), ("effect_mode", textOf effectMode),
    ("ledger_mode", textOf (if chain.isSome then "chained" else "standalone"))]).toValue

def dispositionBlock (decision approver : String) (humanDisposed : Bool) (verdictClass : String) :
    Value :=
  (Members.of [("decision", textOf decision), ("approver", textOf approver),
    ("human_disposed", boolOf humanDisposed), ("verdict_class", textOf verdictClass)]).toValue

/-- The members of a body, in order. -/
def bodyMembers (input : CapsuleInput) : List (String × Value) :=
  [("spec_version", textOf specVersion), ("format_version", textOf formatVersion),
    ("canonicalization_id", textOf canonicalizationId), ("action_id", textOf input.actionId),
    ("action_type", textOf input.actionType), ("operator", textOf input.operator),
    ("developer", textOf input.developer), ("timestamp", textOf input.timestamp)] ++
    optional "domain" (input.domain.map textOf) ++
    optional "provenance" (input.provenance.map textOf) ++
    [("model_attestation",
      modelAttestation input.modelId input.provider (computeAttestation input)),
    ("effect", effectBlock input),
    ("assurance", assuranceBlock (deriveEffectMode input.effectStatus input.effectResponseDigest)
      input.chain),
    ("disposition", dispositionBlock input.dispositionDecision input.dispositionApprover
      input.dispositionHumanDisposed input.dispositionVerdictClass)] ++
    optional "chain" (input.chain.map ChainLink.toValue)

def sealBody (input : CapsuleInput) : Except SealError Members := do
  checkEffect input
  ensure (isHex64 input.storeNonce) .storeNonce
  checkExtensions input.computeAttestationExtensions
  return Members.of (bodyMembers input)

/-! ## Capsules -/

section

variable (packages : Packages)

/-- The members `finish_seal` writes before those of the body. -/
def sealerMembers (capsuleId : String) : List (String × Value) :=
  [("spec_version", textOf specVersion), ("format_version", textOf formatVersion),
    ("capsule_id", textOf capsuleId)]

/-- The members of the Capsule of a body. -/
def finishedMembers (capsuleId : String) (body : Members) : Members :=
  (Members.of (sealerMembers capsuleId)).keepAll body

def finishSeal (body : Members) : Except SealError Value := do
  let capsuleId ← (computeCapsuleId packages body.toValue).mapError .jcs
  return (finishedMembers capsuleId body).toValue

/-- `seal` -/
def sealCapsule (input : CapsuleInput) : Except SealError Value := do
  finishSeal packages (← sealBody input)

/-- A producer's signing key: its public key, and the envelope it signs over a digest. -/
structure SigningKey where
  publicKey : Bytes
  signProducerEnvelope : Bytes → Bytes

inductive EnvelopeError where
  | notAnObject
  | missingCapsuleId
  | capsuleIdNotHex
  deriving DecidableEq

def attachProducerEnvelope (signingKey : SigningKey) (capsule : Value) :
    Except EnvelopeError Value := do
  let _ ← capsule.tree.asObject.elim (.error .notAnObject) .ok
  let capsuleId ← (capsule.str? "capsule_id").elim (.error .missingCapsuleId) .ok
  let digest ← (hexDecode capsuleId).elim (.error .capsuleIdNotHex) .ok
  let envelope := signingKey.signProducerEnvelope digest
  return (capsule.insert "signature" (Sha256.hex envelope)).insert "key_id"
    (Sha256.hex signingKey.publicKey)

/-! ## Local records -/

structure LocalRecordHeader where
  operator : String
  developer : String
  provider : String
  modelId : String

/-- The members of a local record that the sealer writes. -/
def localMembers (header : LocalRecordHeader) (actionId timestamp : String)
    (computeAttestation : Members) (references : Option Value) (chain : Option ChainLink) :
    List (String × Value) :=
  [("spec_version", textOf specVersion), ("format_version", textOf formatVersion),
    ("canonicalization_id", textOf canonicalizationId), ("action_id", textOf actionId),
    ("action_type", textOf "fyi"), ("operator", textOf header.operator),
    ("developer", textOf header.developer), ("timestamp", textOf timestamp),
    ("domain", textOf "action"), ("provenance", textOf "collector"),
    ("model_attestation", modelAttestation header.modelId header.provider computeAttestation),
    ("assurance", assuranceBlock "not_applicable" chain),
    ("disposition", dispositionBlock "accept" "policy" false "executed")] ++
    optional "chain" (chain.map ChainLink.toValue) ++ optional "references" references

/-- A profile's members, each refused where it would replace one. -/
def addMembers : List (String × Value) → Members → Except SealError Members
  | [], body => .ok body
  | (name, value) :: members, body =>
      if body.containsKey name || name ∈ ["capsule_id", "signature", "key_id"] then
        .error (.reservedMember name)
      else addMembers members (body.insert name value)

/-- `seal_local_record_with_members`, up to the envelope the source expects to be attached. -/
def sealLocalRecordWithMembers (header : LocalRecordHeader) (actionId : String)
    (blocks members : Members) (references : Option Value) (chain : Option ChainLink)
    (signingKey : SigningKey) (timestamp nonce : String) :
    Except SealError (Except EnvelopeError Value) := do
  ensure (!blocks.containsKey storeNonceField) (.reservedExtensionKey storeNonceField)
  let computeAttestation := blocks.insert storeNonceField (textOf nonce)
  let body ← addMembers members.entries (Members.of
    (localMembers header actionId timestamp computeAttestation references chain))
  let capsuleId ← (computeCapsuleId packages body.toValue).mapError .jcs
  let sealed := (Members.of [("capsule_id", textOf capsuleId)]).keepAll body
  return attachProducerEnvelope signingKey sealed.toValue

/-- `seal_local_record` -/
def sealLocalRecord (header : LocalRecordHeader) (actionId : String) (blocks : Members)
    (references : Option Value) (chain : Option ChainLink) (signingKey : SigningKey)
    (timestamp nonce : String) : Except SealError (Except EnvelopeError Value) :=
  sealLocalRecordWithMembers packages header actionId blocks (.of []) references chain signingKey
    timestamp nonce

end

end RustLedger
end CapsuleEmit
