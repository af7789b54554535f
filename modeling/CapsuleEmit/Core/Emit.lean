import CapsuleEmit.ArtifactStore.Record
import CapsuleEmit.Core.Digest
import CapsuleEmit.Foundation.OrderedMap
import CapsuleEmit.Foundation.Python
import CapsuleEmit.Foundation.Sha256

namespace CapsuleEmit
namespace Core

open ArtifactStore (validId)

/-!
# Emitting a capsule

`_emit_capsule` digests its payloads, collects a compute attestation, decides
whether what it confirms is its parent or a citation, builds and signs a capsule,
and appends it to the ledger.

The attestation is one dictionary.  The digests and the salt are put into it
first, and the members of `extra_compute` and of the model map are written over
them.
-/

/-- The members of a dictionary, in order. -/
abbrev Members := List (String × Python.Value)

/-! ## What a capsule is built from -/

/-- `ReferenceEntry` -/
structure ReferenceEntry where
  type : String
  digestAlg : String
  digest : String
  citationPurpose : Option String
  logCoordinates : Option Python.Value

/-- `EffectRecord`, as far as it is set here. -/
structure EffectRecord where
  type : Python.Value
  status : Python.Value
  responseDigest : Option String
  effectAttestation : Option String

/-- `Disposition` -/
structure Disposition where
  decision : String
  approver : String
  humanDisposed : Bool
  verdictClass : String
  authority : Option String

/-- `ModelAttestation` -/
structure ModelAttestation where
  modelId : Option Python.Value
  provider : Option Python.Value
  computeAttestation : Option Members

/-- `Chain` -/
structure Chain where
  parentCapsuleId : String
  relation : String

/-- `AssuranceBlock` -/
structure AssuranceBlock where
  attestationMode : String
  effectMode : String
  ledgerMode : String

/-- `Capsule`, before it is sealed. -/
structure Capsule where
  specVersion : String
  formatVersion : String
  actionId : String
  actionType : String
  operator : String
  developer : String
  timestamp : String
  canonicalizationId : String
  provenanceMode : Option String
  modelAttestation : Option ModelAttestation
  effect : Option EffectRecord
  assurance : AssuranceBlock
  disposition : Disposition
  chain : Option Chain
  references : Option (List ReferenceEntry)

/-! ## The call -/

/-- The arguments of a call.  `.none` is a payload that is not given. -/
structure Call where
  action : String
  operator : String
  developer : String
  runtime : Option String
  agentInput : Core.Value
  agentOutput : Core.Value
  model : Members
  verdict : String
  effect : Option Members
  confirms : Option String
  relation : Option String
  humanDisposed : Bool
  approver : String
  decision : String
  actionType : Option String
  extraCompute : Members
  dispositionAuthority : Option String
  saltDigests : Bool
  canonicalizationId : String
  references : Option (List ReferenceEntry)
  payloadMembers : Members
  provenanceMode : Option String
  modelOnce : (model.map Prod.fst).Nodup
  extraOnce : (extraCompute.map Prod.fst).Nodup
  membersOnce : (payloadMembers.map Prod.fst).Nodup

inductive EmitError where
  | humanDisposed
  | unregisteredRelation (relation : String)
  | relationWithoutTarget (relation : String)
  | stubInProduction
  | digest (raised : Raised)
  | payloadMember (name : String)
  | unsupportedCanonicalization
  | invalidId
  | conflict
  | corrupt
  | other

/-- What happens around a call: the salt and the UUID that are drawn, the time,
whether stub witnessing is refused, what refuses the locks or a new line, and what
becomes of witnesses and anchors after the append. -/
structure Surroundings where
  salt : String
  uuid : String
  now : String
  stubRefused : Bool
  locked : Option EmitError
  stopped : Option EmitError
  publish : Except EmitError Unit

/-- What a call is made with: the digests, the sealing of a capsule object, the
RFC 8785 texts of a dictionary without and with normalization, its ledger line, the
effect mode of an effect, and the signer. -/
structure Emitter where
  packages : Packages
  sealObject : Capsule → Except EmitError Members
  jcs : Members → Except EmitError Bytes
  normalizedJcs : Members → Except EmitError Bytes
  lineForm : Members → Except EmitError Bytes
  effectMode : Option EffectRecord → String
  sign : String → Except EmitError (String × String)

/-! ## The ledger -/

/-- A line as the ledger indexes it: the Capsule ID, the text, and whether it is a
record. -/
structure Line where
  capsuleId : String
  text : Bytes
  capsule : Bool

/-- The lines of a ledger; a corrupt one raises when it is read. -/
structure Ledger where
  lines : List Line
  corrupt : Bool

/-- `_find`, with the position of the line. -/
def Ledger.find (ledger : Ledger) (capsuleId : String) : Option (Nat × Line) :=
  (ledger.lines.zipIdx.find? (fun line => line.1.capsuleId = capsuleId)).map
    (fun line => (line.2 + 1, line.1))

/-- `_in_ledger`: what is not an id is left to the chain, which rejects it. -/
def inLedger (ledger : Ledger) (capsuleId : String) : Except EmitError Bool :=
  if !validId capsuleId then .ok true
  else if ledger.corrupt then .error .corrupt
  else .ok (ledger.find capsuleId).isSome

/-- `ledger.NON_CAPSULE_KINDS` -/
def nonCapsuleKinds : List String :=
  ["checkpoint_stamp", "disclosure_record", "checkpoint_witness_backfill", "archived_segment"]

/-- `_is_record` -/
def isRecord (line : Members) : Bool :=
  match line.lookup "kind" with
  | some (.str kind) => kind ∉ nonCapsuleKinds
  | _ => true

/-- `append_line`: the position of the line, and the ledger.  A write that fails in
the file system is left out. -/
def appendLine (emitter : Emitter) (around : Surroundings) (line : Members) (capsuleId : String)
    (ledger : Ledger) : Except EmitError (Nat × Ledger) := do
  ensure (validId capsuleId && isRecord line) .invalidId
  let text ← emitter.lineForm line
  around.locked.elim (.ok ()) .error
  ensure (!ledger.corrupt) .corrupt
  match ledger.find capsuleId with
  | some (seq, existing) =>
      if existing.capsule && existing.text = text then .ok (seq, ledger) else .error .conflict
  | none => do
      around.stopped.elim (.ok ()) .error
      .ok (ledger.lines.length + 1,
        { ledger with lines := ledger.lines ++ [⟨capsuleId, text, true⟩] })

/-! ## The attestation -/

variable (emitter : Emitter) (around : Surroundings) (call : Call)

/-- A payload that is given. -/
def given : Core.Value → Option Core.Value
  | .none => none
  | value => some value

/-- The salt of a call. -/
def emitSalt : Option String := if call.saltDigests then some around.salt else none

/-- `_digest(value, salt=emit_salt)`, in hex. -/
def digestHex (value : Core.Value) (salt : Option String) : Except EmitError String :=
  match digest emitter.packages value (salt.map utf8) with
  | .ok d => .ok (Sha256.hex d)
  | .error raised => .error (.digest raised)

/-- The digest of a payload, when it is given. -/
def payloadDigest (value : Core.Value) : Except EmitError (Option String) :=
  (given value).elim (.ok none) (fun value =>
    (digestHex emitter value (emitSalt around call)).map some)

def member (name : String) (text : Option String) : Members :=
  (text.map (fun text => (name, Python.Value.str text))).toList

/-- The model map without the identity of the model. -/
def extraChip : Members :=
  call.model.filter (fun entry => entry.1 ≠ "model_id" && entry.1 ≠ "provider")

/-- What the emitter itself writes into the attestation. -/
def ownMembers (input output : Option String) : Members :=
  member "agent_input_digest" input ++ member "agent_output_digest" output ++
    member "digest_salt" (if input.isSome || output.isSome then emitSalt around call else none) ++
    member "runtime" call.runtime

/-- `compute_att` -/
def computeAttestation (input output : Option String) : Members :=
  OrderedMap.insertAll (extraChip call)
    (OrderedMap.insertAll call.extraCompute (ownMembers around call input output))

/-! ## The capsule -/

/-- What the response of a confirmed effect is digested from. -/
def responseOf : Option Core.Value :=
  (given call.agentOutput).or (call.confirms.map (fun id =>
    .dict 0 [(.str ("confirmed_capsule_id".toList.map Char.toNat), .str (id.toList.map Char.toNat))]))

def isText (text : String) : Python.Value → Bool
  | .str other => other = text
  | _ => false

/-- `EffectRecord(...)` of an effect. -/
def effectRecord (effect : Members) : Except EmitError EffectRecord := do
  let status := (effect.lookup "status").getD (.str "dispatched")
  let response ← (if isText "confirmed" status then responseOf call else none).elim (.ok none)
    (fun value => (digestHex emitter value (emitSalt around call)).map some)
  .ok ⟨(effect.lookup "type").getD (.str call.action), status, response, none⟩

def effectOf : Except EmitError (Option EffectRecord) :=
  call.effect.elim (.ok none) (fun effect => (effectRecord emitter around call effect).map some)

/-- `relations.REGISTERED_RELATIONS` -/
def registeredRelations : List String :=
  ["follows", "confirms", "supersedes", "epoch_opens", "duplicates"]

/-- `_cite_foreign` -/
def citeForeign (capsuleId : String) (references : Option (List ReferenceEntry)) :
    List ReferenceEntry :=
  let references := references.getD []
  if references.any (fun r => r.digestAlg = "SHA-256" && r.digest = capsuleId) then references
  else references ++
    [⟨"agent-action-capsule", "SHA-256", capsuleId, some "responds_to", none⟩]

/-- The parent of the capsule and its references. -/
def placed (ledger : Ledger) : Except EmitError (Option String × Option (List ReferenceEntry)) :=
  match call.confirms with
  | none => .ok (none, call.references)
  | some id => do
      let same ← inLedger ledger id
      .ok (if same then (some id, call.references)
        else (none, some (citeForeign id call.references)))

/-- The statuses that are attested by the runtime. -/
def claimedStatuses : List String := ["dispatched", "confirmed", "failed", "reverted"]

/-- A value that is not `None`. -/
def notNone : Python.Value → Bool
  | .none => false
  | _ => true

/-- `build_capsule`, with the arguments it is given here. -/
def buildCapsule (compute : Members) (effect : Option EffectRecord) (parent : Option String)
    (references : Option (List ReferenceEntry)) : Except EmitError Members :=
  let modelId := (call.model.lookup "model_id").filter notNone
  let provider := (call.model.lookup "provider").filter notNone
  let compute := if compute.isEmpty then none else some compute
  let attestation : Option ModelAttestation := match modelId, provider with
    | some modelId, some provider => some ⟨some modelId, some provider, compute⟩
    | _, _ => compute.map (fun compute => ⟨none, none, some compute⟩)
  let chain := parent.map (fun parent => Chain.mk parent (call.relation.getD "follows"))
  let effect := effect.map (fun effect => match effect.status with
    | .str status =>
        if status ∈ claimedStatuses then { effect with effectAttestation := some "runtime_claimed" }
        else effect
    | _ => effect)
  emitter.sealObject {
    specVersion := "draft-mih-scitt-agent-action-capsule-05"
    formatVersion := "4"
    actionId := (if call.action = "" then "tool-call" else call.action) ++ "/" ++ around.uuid
    actionType := call.actionType.getD
      (if call.verdict ∈ ["executed", "confirmed", "denied", "blocked", "assessed"] then "decide"
        else "fyi")
    operator := call.operator
    developer := call.developer
    timestamp := around.now
    canonicalizationId := "jcs"
    provenanceMode := call.provenanceMode
    modelAttestation := attestation
    effect := effect
    assurance := ⟨"self_attested", emitter.effectMode effect,
      if chain.isSome then "chained" else "standalone"⟩
    disposition := ⟨call.decision, call.approver, call.humanDisposed, call.verdict,
      call.dispositionAuthority⟩
    chain := chain
    references := references }

/-- The members no profile may write. -/
def reservedMembers : List String := ["canonicalization_id", "capsule_id", "signature", "key_id"]

/-- The members of a profile are added; one that is there already is refused. -/
def addMembers : Members → Members → Except EmitError Members
  | [], capsule => .ok capsule
  | (name, value) :: members, capsule =>
      if name ∈ capsule.map Prod.fst ∨ name ∈ reservedMembers then .error (.payloadMember name)
      else addMembers members (capsule ++ [(name, value)])

/-- The id covers a member. -/
def isCovered (name : String) : Bool := name ∉ ["capsule_id", "signature", "key_id"]

/-- `compute_capsule_id` -/
def computeCapsuleId (capsule : Members) : Except EmitError String :=
  let canonical := capsule.filter (fun entry => isCovered entry.1)
  let text := match capsule.lookup "canonicalization_id" with
    | none => emitter.normalizedJcs (canonical.filter (fun entry => entry.1 ≠ "chain"))
    | some .none => emitter.normalizedJcs (canonical.filter (fun entry => entry.1 ≠ "chain"))
    | some (.str algorithm) =>
        if algorithm = "jcs-n" then
          emitter.normalizedJcs (canonical.filter (fun entry => entry.1 ≠ "chain"))
        else if algorithm = "jcs" then emitter.jcs canonical
        else .error .unsupportedCanonicalization
    | some _ => .error .unsupportedCanonicalization
  text.map (fun text => Sha256.hex (emitter.packages.sha256 text))

/-- A capsule with its id and its signature. -/
def signCapsule (capsule : Members) : Except EmitError (String × Members) := do
  let capsule := OrderedMap.insert "canonicalization_id" (.str call.canonicalizationId) capsule
  let capsuleId ← computeCapsuleId emitter capsule
  let capsule := OrderedMap.insert "capsule_id" (.str capsuleId) capsule
  let (signature, keyId) ← emitter.sign capsuleId
  .ok (capsuleId, OrderedMap.insert "key_id" (.str keyId)
    (OrderedMap.insert "signature" (.str signature) capsule))

/-- The arguments are checked. -/
def checkCall : Except EmitError Unit := do
  ensure (!call.humanDisposed || call.approver = "human") .humanDisposed
  call.relation.elim (.ok ()) (fun relation => do
    ensure (relation ∈ registeredRelations) (.unregisteredRelation relation)
    ensure (relation = "confirms" || call.confirms.isSome) (.relationWithoutTarget relation))
  ensure (!around.stubRefused) .stubInProduction

/-- Everything up to the append: the id and the capsule. -/
def sealCall (ledger : Ledger) : Except EmitError (String × Members) := do
  checkCall around call
  let input ← payloadDigest emitter around call call.agentInput
  let output ← payloadDigest emitter around call call.agentOutput
  let effect ← effectOf emitter around call
  let (parent, references) ← placed call ledger
  let capsule ← buildCapsule emitter around call (computeAttestation around call input output)
    effect parent references
  let capsule ← addMembers call.payloadMembers capsule
  signCapsule emitter call capsule

/-- `EmitResult`, without what witnesses and anchors answered. -/
structure EmitResult where
  capsuleId : String
  capsule : Members
  seq : Nat

/-- `_emit_capsule`: what it returns or raises, and the ledger after it. -/
def emitCapsule (ledger : Ledger) : Except EmitError EmitResult × Ledger :=
  match sealCall emitter around call ledger with
  | .error e => (.error e, ledger)
  | .ok (capsuleId, capsule) =>
      match appendLine emitter around capsule capsuleId ledger with
      | .error e => (.error e, ledger)
      | .ok (seq, ledger') => (around.publish.map (fun _ => ⟨capsuleId, capsule, seq⟩), ledger')

end Core
end CapsuleEmit
