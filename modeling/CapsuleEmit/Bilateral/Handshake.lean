import CapsuleEmit.Foundation.Machine
import CapsuleEmit.Produce.Concrete

namespace CapsuleEmit
namespace Bilateral

/-!
# The bilateral handshake

A requester signs a request, the responder signs the action, and each party
confirms the attestation of the other.  The records are kept by handshake id;
every call looks its record up, checks the state it is legal from, verifies
one signature over a payload computed from the record, and stores a new
record.  All of it happens under one lock, except for the verification of a
request, which reads no record.

Each payload is the canonical JSON of its phase.  Later phases name earlier
signatures by a digest of their three texts joined with colons, so two
signatures that join to one text are one signature to them.
-/

/-! ## Records -/

/-- An organizational signature over a canonical payload. -/
structure BilateralSig where
  alg : String
  keyId : String
  signature : String
deriving DecidableEq

inductive BilateralState where
  | requested
  | acted
  | bilateral
  | oneSided
  | countersignRefused
deriving DecidableEq

/-- The text of a state. -/
def BilateralState.value : BilateralState → String
  | requested => "requested"
  | acted => "acted"
  | bilateral => "bilateral"
  | oneSided => "one_sided"
  | countersignRefused => "countersign_refused"

/-- A state no call is legal from. -/
def BilateralState.terminal : BilateralState → Bool
  | requested => false
  | acted => false
  | _ => true

structure BilateralRecord where
  handshakeId : String
  requesterOrg : String
  responderOrg : Option String
  actionDigest : String
  state : BilateralState
  requestSig : Option BilateralSig
  actionSig : Option BilateralSig
  requesterConfirm : Option BilateralSig
  responderConfirm : Option BilateralSig
deriving DecidableEq

/-! ## Payloads -/

/-- What the handshake takes from elsewhere: the verifier that is brought
along, canonical JSON, SHA-256 in hexadecimal and the quotation of a text. -/
structure Runtime where
  verifyFn : String → Bytes → BilateralSig → Bool
  jcs : Json → Bytes
  sha256 : Bytes → String
  repr : String → String

variable (runtime : Runtime)

/-- The text a signature is digested over. -/
def BilateralSig.joined (sig : BilateralSig) : String :=
  sig.alg ++ ":" ++ sig.keyId ++ ":" ++ sig.signature

/-- The digest by which later phases name a signature. -/
def sigDigest (sig : BilateralSig) : String := runtime.sha256 (utf8 sig.joined)

/-- What the requester signs. -/
def requestPayload (requesterOrg : String) (responderOrg : Option String) (actionDigest : String) :
    Bytes :=
  runtime.jcs (.object [(utf8 "phase", .ofString "request"),
    (utf8 "requester_org", .ofString requesterOrg),
    (utf8 "responder_org", responderOrg.elim .null .ofString),
    (utf8 "action_digest", .ofString actionDigest)])

/-- What the responder signs over a request. -/
def actionPayload (handshakeId responderOrg requestSigDigest : String) : Bytes :=
  runtime.jcs (.object [(utf8 "phase", .ofString "action"),
    (utf8 "handshake_id", .ofString handshakeId),
    (utf8 "responder_org", .ofString responderOrg),
    (utf8 "request_sig_digest", .ofString requestSigDigest)])

/-- What a party signs to acknowledge the attestation of the other. -/
def confirmPayload (handshakeId partyOrg ackedSigDigest : String) : Bytes :=
  runtime.jcs (.object [(utf8 "phase", .ofString "confirm"),
    (utf8 "handshake_id", .ofString handshakeId),
    (utf8 "party_org", .ofString partyOrg),
    (utf8 "acked_sig_digest", .ofString ackedSigDigest)])

/-! ## Calls -/

abbrev Records := String → Option BilateralRecord

/-- The check of a signature. -/
def verify (orgId : String) (payload : Bytes) (sig : BilateralSig) : Except String Unit :=
  ensure (runtime.verifyFn orgId payload sig)
    ("signature did not verify for org " ++ runtime.repr orgId)

/-- A value that an assertion says is there. -/
def asserted {α : Type} : Option α → Except String α
  | some value => .ok value
  | none => .error "AssertionError"

/-- The record of a handshake. -/
def lookup (records : Records) (handshakeId : String) : Except String BilateralRecord :=
  match records handshakeId with
  | some record => .ok record
  | none => .error ("handshake " ++ runtime.repr handshakeId ++ " not found")

/-- The requester signs the request; the id is the next random one. -/
def openHandshake (requesterOrg : String) (responderOrg : Option String) (actionDigest : String)
    (requestSig : BilateralSig) (uuid : String) : Except String BilateralRecord := do
  verify runtime requesterOrg (requestPayload runtime requesterOrg responderOrg actionDigest)
    requestSig
  return {
    handshakeId := uuid
    requesterOrg := requesterOrg
    responderOrg := responderOrg
    actionDigest := actionDigest
    state := if responderOrg.isNone then .oneSided else .requested
    requestSig := some requestSig
    actionSig := none
    requesterConfirm := none
    responderConfirm := none }

/-- The responder signs the action. -/
def respond (records : Records) (handshakeId : String) (actionSig : BilateralSig) :
    Except String BilateralRecord := do
  let record ← lookup runtime records handshakeId
  ensure (record.state = .requested) ("respond requires REQUESTED, got " ++ record.state.value)
  let responderOrg ← asserted record.responderOrg
  let requestSig ← asserted record.requestSig
  verify runtime responderOrg
    (actionPayload runtime handshakeId responderOrg (sigDigest runtime requestSig)) actionSig
  return { record with actionSig := some actionSig, state := .acted }

/-- A record once both parties have confirmed. -/
def BilateralRecord.settle (record : BilateralRecord) : BilateralRecord :=
  if record.requesterConfirm.isSome && record.responderConfirm.isSome then
    { record with state := .bilateral }
  else record

/-- A party acknowledges the attestation of the other. -/
def confirm (records : Records) (handshakeId partyOrg : String) (confirmSig : BilateralSig) :
    Except String BilateralRecord := do
  let record ← lookup runtime records handshakeId
  ensure (record.state = .acted) ("confirm requires ACTED, got " ++ record.state.value)
  let requestSig ← asserted record.requestSig
  let actionSig ← asserted record.actionSig
  if partyOrg = record.requesterOrg then do
    verify runtime partyOrg
      (confirmPayload runtime handshakeId partyOrg (sigDigest runtime actionSig)) confirmSig
    return { record with requesterConfirm := some confirmSig }.settle
  else if some partyOrg = record.responderOrg then do
    verify runtime partyOrg
      (confirmPayload runtime handshakeId partyOrg (sigDigest runtime requestSig)) confirmSig
    return { record with responderConfirm := some confirmSig }.settle
  else .error (runtime.repr partyOrg ++ " is neither requester nor responder")

/-- The responder was present and did not countersign. -/
def ghost (records : Records) (handshakeId : String) : Except String BilateralRecord := do
  let record ← lookup runtime records handshakeId
  ensure (record.state = .requested) ("ghost requires REQUESTED, got " ++ record.state.value)
  return { record with state := .countersignRefused }

/-- A call on the handshakes, with the random id an opening draws. -/
inductive Call where
  | openHandshake (requesterOrg : String) (responderOrg : Option String) (actionDigest : String)
      (requestSig : BilateralSig) (uuid : String)
  | respond (handshakeId : String) (actionSig : BilateralSig)
  | confirm (handshakeId partyOrg : String) (confirmSig : BilateralSig)
  | ghost (handshakeId : String)

/-- The handshake a call is about. -/
def Call.handshakeId : Call → String
  | .openHandshake _ _ _ _ uuid => uuid
  | .respond handshakeId _ => handshakeId
  | .confirm handshakeId _ _ => handshakeId
  | .ghost handshakeId => handshakeId

/-- The record a call computes. -/
def outcome (records : Records) : Call → Except String BilateralRecord
  | .openHandshake requesterOrg responderOrg actionDigest requestSig uuid =>
      openHandshake runtime requesterOrg responderOrg actionDigest requestSig uuid
  | .respond handshakeId actionSig => respond runtime records handshakeId actionSig
  | .confirm handshakeId partyOrg confirmSig =>
      confirm runtime records handshakeId partyOrg confirmSig
  | .ghost handshakeId => ghost runtime records handshakeId

/-- A call returns its record and stores it, or raises. -/
def step (records : Records) (call : Call) : Except String BilateralRecord × Records :=
  match outcome runtime records call with
  | .ok record => (.ok record, Function.update records call.handshakeId (some record))
  | .error e => (.error e, records)

/-- No handshake yet. -/
def noRecords : Records := fun _ => none

/-! ## What a record is bound to -/

/-- The request signature was verified for the requester over the parties and
the action digest of the record. -/
def RequestBound (record : BilateralRecord) : Prop :=
  ∃ sig, record.requestSig = some sig ∧ runtime.verifyFn record.requesterOrg
    (requestPayload runtime record.requesterOrg record.responderOrg record.actionDigest) sig = true

/-- The action signature was verified for the responder over a payload naming
this handshake and the request signature. -/
def ActionBound (record : BilateralRecord) : Prop :=
  ∃ responder request sig, record.responderOrg = some responder ∧
    record.requestSig = some request ∧ record.actionSig = some sig ∧
      runtime.verifyFn responder (actionPayload runtime record.handshakeId responder
        (sigDigest runtime request)) sig = true

/-- A confirmation was verified for a party over a payload naming this
handshake, the party and the signature of the other. -/
def ConfirmBound (record : BilateralRecord) (party : String) (acked confirm : Option BilateralSig) :
    Prop :=
  ∃ other sig, acked = some other ∧ confirm = some sig ∧
    runtime.verifyFn party (confirmPayload runtime record.handshakeId party
      (sigDigest runtime other)) sig = true

/-- Everything a bilateral record claims was verified. -/
def Bound (record : BilateralRecord) : Prop :=
  RequestBound runtime record ∧ ActionBound runtime record ∧
    ConfirmBound runtime record record.requesterOrg record.actionSig record.requesterConfirm ∧
    ∃ responder, record.responderOrg = some responder ∧
      ConfirmBound runtime record responder record.requestSig record.responderConfirm

/-- What holds of a record in any state. -/
structure Attested (record : BilateralRecord) : Prop where
  request : RequestBound runtime record
  action : record.state = .acted ∨ record.state = .bilateral → ActionBound runtime record
  unconfirmed : record.state = .requested → record.requesterConfirm = none ∧
    record.responderConfirm = none
  requester : record.requesterConfirm.isSome → ConfirmBound runtime record record.requesterOrg
    record.actionSig record.requesterConfirm
  responder : record.responderConfirm.isSome → ∃ responder, record.responderOrg = some responder ∧
    ConfirmBound runtime record responder record.requestSig record.responderConfirm
  both : record.state = .bilateral → record.requesterConfirm.isSome ∧ record.responderConfirm.isSome

variable {runtime}

/-- A bilateral record is bound. -/
theorem Attested.bound {record : BilateralRecord} (attested : Attested runtime record)
    (bilateral : record.state = .bilateral) : Bound runtime record :=
  ⟨attested.request, attested.action (Or.inr bilateral),
    attested.requester (attested.both bilateral).1, attested.responder (attested.both bilateral).2⟩

/-- Every stored record is attested, under its own id. -/
def AllAttested (runtime : Runtime) (records : Records) : Prop :=
  ∀ id record, records id = some record → record.handshakeId = id ∧ Attested runtime record

/-! ## What a call can do -/

theorem verify_eq_ok_iff {orgId : String} {payload : Bytes} {sig : BilateralSig} {done : Unit} :
    verify runtime orgId payload sig = .ok done ↔ runtime.verifyFn orgId payload sig = true :=
  ensure_eq_ok_iff

theorem asserted_eq_ok_iff {α : Type} {value : Option α} {a : α} :
    asserted value = .ok a ↔ value = some a := by
  cases value <;> simp [asserted]

theorem lookup_eq_ok_iff {records : Records} {id : String} {record : BilateralRecord} :
    lookup runtime records id = .ok record ↔ records id = some record := by
  unfold lookup
  cases records id <;> simp

theorem openHandshake_eq_ok {requester digest uuid : String} {responder : Option String}
    {sig : BilateralSig} {record : BilateralRecord}
    (opened : openHandshake runtime requester responder digest sig uuid = .ok record) :
    runtime.verifyFn requester (requestPayload runtime requester responder digest) sig = true ∧
      record = ⟨uuid, requester, responder, digest,
        if responder.isNone then .oneSided else .requested, some sig, none, none, none⟩ := by
  simp only [openHandshake, bind_eq_ok_iff, verify_eq_ok_iff] at opened
  rcases opened with ⟨_, verified, same⟩
  cases same
  exact ⟨verified, rfl⟩

theorem respond_eq_ok {records : Records} {id : String} {sig : BilateralSig}
    {record : BilateralRecord} (responded : respond runtime records id sig = .ok record) :
    ∃ old responder request, records id = some old ∧ old.state = .requested ∧
      old.responderOrg = some responder ∧ old.requestSig = some request ∧
      runtime.verifyFn responder (actionPayload runtime id responder (sigDigest runtime request))
        sig = true ∧ record = { old with actionSig := some sig, state := .acted } := by
  simp only [respond, bind_eq_ok_iff, lookup_eq_ok_iff, ensure_eq_ok_iff, asserted_eq_ok_iff,
    verify_eq_ok_iff, decide_eq_true_eq] at responded
  rcases responded with ⟨old, found, _, state, responder, named, request, signed, _, verified, same⟩
  cases same
  exact ⟨old, responder, request, found, state, named, signed, verified, rfl⟩

theorem confirm_eq_ok {records : Records} {id party : String} {sig : BilateralSig}
    {record : BilateralRecord} (confirmed : confirm runtime records id party sig = .ok record) :
    ∃ old request action, records id = some old ∧ old.state = .acted ∧
      old.requestSig = some request ∧ old.actionSig = some action ∧
      ((party = old.requesterOrg ∧
          runtime.verifyFn party (confirmPayload runtime id party (sigDigest runtime action))
            sig = true ∧ record = { old with requesterConfirm := some sig }.settle) ∨
        (old.responderOrg = some party ∧
          runtime.verifyFn party (confirmPayload runtime id party (sigDigest runtime request))
            sig = true ∧ record = { old with responderConfirm := some sig }.settle)) := by
  simp only [confirm, bind_eq_ok_iff, lookup_eq_ok_iff, ensure_eq_ok_iff, asserted_eq_ok_iff,
    decide_eq_true_eq] at confirmed
  rcases confirmed with ⟨old, found, _, state, request, signed, action, acted, decided⟩
  refine ⟨old, request, action, found, state, signed, acted, ?_⟩
  split at decided
  · next requester =>
      simp only [bind_eq_ok_iff, verify_eq_ok_iff] at decided
      rcases decided with ⟨_, verified, same⟩
      cases same
      exact Or.inl ⟨requester, verified, rfl⟩
  · split at decided
    · next responder =>
        simp only [bind_eq_ok_iff, verify_eq_ok_iff] at decided
        rcases decided with ⟨_, verified, same⟩
        cases same
        exact Or.inr ⟨responder.symm, verified, rfl⟩
    · cases decided

theorem ghost_eq_ok {records : Records} {id : String} {record : BilateralRecord}
    (refused : ghost runtime records id = .ok record) :
    ∃ old, records id = some old ∧ old.state = .requested ∧
      record = { old with state := .countersignRefused } := by
  simp only [ghost, bind_eq_ok_iff, lookup_eq_ok_iff, ensure_eq_ok_iff,
    decide_eq_true_eq] at refused
  rcases refused with ⟨old, found, _, state, same⟩
  cases same
  exact ⟨old, found, state, rfl⟩

/-! ## Every call keeps records attested -/

theorem attested_open {requester digest uuid : String} {responder : Option String}
    {sig : BilateralSig} {record : BilateralRecord}
    (opened : openHandshake runtime requester responder digest sig uuid = .ok record) :
    record.handshakeId = uuid ∧ Attested runtime record := by
  rcases openHandshake_eq_ok opened with ⟨verified, rfl⟩
  refine ⟨rfl, ⟨sig, rfl, verified⟩, ?_, fun _ => ⟨rfl, rfl⟩, nofun, nofun, ?_⟩
  · intro state
    dsimp only at state
    split at state <;> simp at state
  · intro state
    dsimp only at state
    split at state <;> cases state

theorem attested_respond {records : Records} (all : AllAttested runtime records) {id : String}
    {sig : BilateralSig} {record : BilateralRecord}
    (responded : respond runtime records id sig = .ok record) :
    record.handshakeId = id ∧ Attested runtime record := by
  rcases respond_eq_ok responded with
    ⟨old, responder, request, found, state, named, signed, verified, rfl⟩
  rcases all id old found with ⟨rfl, attested⟩
  rcases attested.unconfirmed state with ⟨first, second⟩
  refine ⟨rfl, attested.request, fun _ => ⟨responder, request, sig, named, signed, rfl, verified⟩,
    nofun, ?_, ?_, nofun⟩
  · intro some
    rw [first] at some
    cases some
  · intro some
    rw [second] at some
    cases some

/-- Settling changes the state only. -/
theorem attested_settle {record : BilateralRecord} (acted : record.state = .acted)
    (attested : Attested runtime record) : Attested runtime record.settle := by
  unfold BilateralRecord.settle
  split
  · next both =>
      rw [Bool.and_eq_true] at both
      exact ⟨attested.request, fun _ => attested.action (Or.inl acted), nofun, attested.requester,
        attested.responder, fun _ => both⟩
  · exact attested

theorem settle_handshakeId (record : BilateralRecord) :
    record.settle.handshakeId = record.handshakeId := by
  unfold BilateralRecord.settle
  split <;> rfl

theorem attested_confirm {records : Records} (all : AllAttested runtime records) {id party : String}
    {sig : BilateralSig} {record : BilateralRecord}
    (confirmed : confirm runtime records id party sig = .ok record) :
    record.handshakeId = id ∧ Attested runtime record := by
  rcases confirm_eq_ok confirmed with
    ⟨old, request, action, found, state, signed, acted, ⟨rfl, verified, rfl⟩ | ⟨named, verified, rfl⟩⟩
  · rcases all id old found with ⟨rfl, attested⟩
    refine ⟨settle_handshakeId _, attested_settle state ?_⟩
    refine ⟨attested.request, attested.action, ?_, ?_, attested.responder, ?_⟩
    · intro requested
      cases state.symm.trans requested
    · exact fun _ => ⟨action, sig, acted, rfl, verified⟩
    · intro bilateral
      cases state.symm.trans bilateral
  · rcases all id old found with ⟨rfl, attested⟩
    refine ⟨settle_handshakeId _, attested_settle state ?_⟩
    refine ⟨attested.request, attested.action, ?_, attested.requester, ?_, ?_⟩
    · intro requested
      cases state.symm.trans requested
    · exact fun _ => ⟨party, named, request, sig, signed, rfl, verified⟩
    · intro bilateral
      cases state.symm.trans bilateral

theorem attested_ghost {records : Records} (all : AllAttested runtime records) {id : String}
    {record : BilateralRecord} (refused : ghost runtime records id = .ok record) :
    record.handshakeId = id ∧ Attested runtime record := by
  rcases ghost_eq_ok refused with ⟨old, found, state, rfl⟩
  rcases all id old found with ⟨rfl, attested⟩
  refine ⟨rfl, attested.request, ?_, nofun, attested.requester, attested.responder, nofun⟩
  rintro (acted | bilateral)
  · cases acted
  · cases bilateral

theorem attested_outcome {records : Records} (all : AllAttested runtime records) {call : Call}
    {record : BilateralRecord} (returns : outcome runtime records call = .ok record) :
    record.handshakeId = call.handshakeId ∧ Attested runtime record := by
  cases call with
  | openHandshake requester responder digest sig uuid => exact attested_open returns
  | respond id sig => exact attested_respond all returns
  | confirm id party sig => exact attested_confirm all returns
  | ghost id => exact attested_ghost all returns

theorem step_ok {records : Records} {call : Call} {record : BilateralRecord}
    (returns : outcome runtime records call = .ok record) : step runtime records call =
      (.ok record, Function.update records call.handshakeId (some record)) := by
  rw [step, returns]

/-- A call that raises leaves every record unchanged. -/
theorem step_error {records : Records} {call : Call} {e : String}
    (raises : outcome runtime records call = .error e) :
    step runtime records call = (.error e, records) := by
  rw [step, raises]

theorem attested_step {records : Records} (all : AllAttested runtime records) (call : Call) :
    AllAttested runtime (step runtime records call).2 := by
  cases returns : outcome runtime records call with
  | error e =>
      rw [step_error returns]
      exact all
  | ok record =>
      rw [step_ok returns]
      intro id stored found
      dsimp only at found
      by_cases same : id = call.handshakeId
      · subst same
        rw [Function.update_self] at found
        cases found
        exact attested_outcome all returns
      · rw [Function.update_of_ne same] at found
        exact all id stored found

/-! ## Terminal records stay -/

/-- The id an opening draws is not in use. -/
def Fresh (records : Records) : Call → Prop
  | .openHandshake _ _ _ _ uuid => records uuid = none
  | _ => True

/-- A call that returns was about a fresh handshake or about one that was not
settled. -/
theorem open_of_outcome {records : Records} {call : Call} (fresh : Fresh records call)
    {record : BilateralRecord} (returns : outcome runtime records call = .ok record) :
    ∀ old, records call.handshakeId = some old → old.state.terminal = false := by
  intro old found
  cases call with
  | openHandshake requester responder digest sig uuid =>
      have unused : records uuid = none := fresh
      cases unused.symm.trans found
  | respond id sig =>
      rcases respond_eq_ok returns with ⟨other, _, _, same, state, -⟩
      cases same.symm.trans found
      rw [state]
      rfl
  | confirm id party sig =>
      rcases confirm_eq_ok returns with ⟨other, _, _, same, state, -⟩
      cases same.symm.trans found
      rw [state]
      rfl
  | ghost id =>
      rcases ghost_eq_ok returns with ⟨other, same, state, -⟩
      cases same.symm.trans found
      rw [state]
      rfl

theorem terminal_step {records : Records} {call : Call} (fresh : Fresh records call) {id : String}
    {record : BilateralRecord} (found : records id = some record)
    (terminal : record.state.terminal = true) : (step runtime records call).2 id = some record := by
  cases returns : outcome runtime records call with
  | error e =>
      rw [step_error returns]
      exact found
  | ok other =>
      rw [step_ok returns]
      by_cases same : id = call.handshakeId
      · subst same
        rw [open_of_outcome fresh returns record found] at terminal
        cases terminal
      · exact (Function.update_of_ne same _ _).trans found

end Bilateral
end CapsuleEmit
