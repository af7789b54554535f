import CapsuleEmit.Disclose.Selection
import CapsuleEmit.Foundation.OrderedMap
import Mathlib.Data.List.Dedup
import Mathlib.Data.List.Sort

namespace CapsuleEmit
namespace Disclose

open Python

/-!
# The building of a disclosure

A field of a record is disclosed with the value `reveal` has for it, or else
with the original the artifact store has.  The envelope of a record checks each
value against the digest the record commits; it takes `None` for a field that is
withheld, so a value that is `null` is checked and put in afterwards.

Everything is read and checked before the disclosure record is sealed, and the
ledger is written last.
-/

/-! ## What is called -/

/-- An artifact of a stored record. -/
structure StoredArtifact where
  binding : String
  state : String
  content : Bytes

/-- What a store raises: an error of its own, by its code, or anything else. -/
inductive StoreError where
  | notFound
  | artifact (code message : String)
  | raised (text : String)

/-- The `store` of a call: the legacy ledger, or what an artifact store has under an id. -/
inductive Store where
  | legacyLedger
  | artifacts (get : String → Except StoreError (List StoredArtifact))

/-- What `record_proof` raises. -/
inductive ProofError where
  | recordProofError (text : String)
  | raised (text : String)

/-- What the envelope builder of the other package raises. -/
inductive BuildError where
  | valueError (text : String)
  | raised (text : String)

/-- What a disclosure is built and sealed with: the log's proof of a record, the other package's
envelope builder and its code for a digest that is not committed, the decoder of an original,
the producer's signer, the writer of the ledger, and the time. -/
structure Builders where
  bundle : List Value → String → Except ProofError RecordProof
  build : Value → List (String × Value) → Except BuildError Value
  noCommittedDigest : String
  decodeStrictJson : Bytes → Except String Value
  signProducerEnvelope : String → Except String (String × String)
  appendToLedger : List Value → Value → Option String × List Value
  now : String

/-- The arguments of a call, beside the ledger. -/
structure Request where
  path : String
  selector : String
  audience : Value
  payloads : String
  reveal : List (String × List (String × Value))
  suppress : List String
  store : Option Store

variable (packages : Packages) (builders : Builders)

/-! ## Fields -/

def present : String := "present"

def notStored : String := "not_stored"

def undeclared : String := "undeclared"

/-- The field an artifact's binding is of. -/
def fieldOfBinding : List (String × String) :=
  [("model_attestation.compute_attestation.agent_input_digest", "agent_input"),
    ("model_attestation.compute_attestation.agent_output_digest", "agent_output")]

def isNone : Value → Bool
  | .none => true
  | _ => false

/-- Some eligible fields, with whether a record commits a digest for each. -/
def commitments (attestation : Value) (fields : List (String × String)) :
    Except String (List (String × Bool)) :=
  fields.mapM (fun field => (attestation.get field.2).map (fun stored => (field.1, stored.truthy)))

/-- What is under a capsule id, or nothing. -/
def entriesOf {α : Type} (cid : String) (byId : List (String × List (String × α))) :
    List (String × α) :=
  (byId.lookup cid).getD []

/-- The missing fields of one record. -/
def missingOf (supplied : List (String × Value)) (suppress : List String) (record : Value) :
    Except String (List String) := do
  let attestation ← computeAttestation record
  let stored ← commitments attestation
    (disclosureEligibleFields.filter (fun field => !suppress.contains field.1))
  return (stored.filter (fun field => field.2 && (supplied.lookup field.1).isNone)).map Prod.fst

/-- `_missing_for_all` -/
def missingForAll (reveal : List (String × List (String × Value))) (suppress : List String) :
    List Value → Except Refused (List (String × String))
  | [] => .ok []
  | record :: records => do
      let cid ← idOf record
      let missing ← orRaised (missingOf (entriesOf cid reveal) suppress record)
      let more ← missingForAll reveal suppress records
      return missing.map (cid, ·) ++ more

/-! ## Originals -/

/-- What was read of the store: the originals, and why others are not there. -/
structure Originals where
  originals : List (String × List (String × Value))
  states : List (String × List (String × String))

/-- `mapping.setdefault(cid, {})[field] = value` -/
def setField {α : Type} (cid field : String) (value : α)
    (byId : List (String × List (String × α))) : List (String × List (String × α)) :=
  OrderedMap.insert cid (OrderedMap.insert field value (entriesOf cid byId)) byId

/-- The artifact of each field: a present one wins over another, in any order. -/
def byField (artifacts : List StoredArtifact) : List (String × StoredArtifact) :=
  artifacts.foldl (fun found a =>
    match fieldOfBinding.lookup a.binding with
    | some field =>
        if (found.lookup field).isNone || a.state = present then OrderedMap.insert field a found
        else found
    | none => found) []

/-- The originals and the states of the committed fields of a record. -/
def readFields (cid : String) (found : List (String × StoredArtifact)) :
    List String → Originals → Except Refused Originals
  | [], so => .ok so
  | field :: fields, so =>
      match found.lookup field with
      | none => readFields cid found fields { so with
          states := setField cid field undeclared so.states }
      | some a =>
          if a.state ≠ present then readFields cid found fields { so with
            states := setField cid field a.state so.states }
          else do
            let value ← orRaised (builders.decodeStrictJson a.content)
            readFields cid found fields { so with
              originals := setField cid field value so.originals }

/-- The fields of a record that the store is asked for. -/
def neededOf (supplied : List (String × Value)) (suppress : List String) (record : Value) :
    Except String (List String) := do
  let attestation ← computeAttestation record
  let stored ← commitments attestation disclosureEligibleFields
  return (stored.filter (fun field => field.2 && (supplied.lookup field.1).isNone &&
    !suppress.contains field.1)).map Prod.fst

/-- The originals of one record; a record that needs none is not read. -/
def readRecord (get : String → Except StoreError (List StoredArtifact))
    (supplied : List (String × Value)) (suppress : List String) (cid : String) (record : Value)
    (so : Originals) : Except Refused Originals := do
  let needed ← orRaised (neededOf supplied suppress record)
  if needed.isEmpty then
    .ok so
  else
    match get cid with
    | .error .notFound => .ok { so with
        states := OrderedMap.insert cid (needed.map (·, notStored)) so.states }
    | .error (.artifact code message) =>
        .error (.discloseError (cid ++ ": artifact store: " ++ code ++ ": " ++ message))
    | .error (.raised text) => .error (.raised text)
    | .ok artifacts => readFields builders cid (byField artifacts) needed so

def readRecords (get : String → Except StoreError (List StoredArtifact))
    (reveal : List (String × List (String × Value))) (suppress : List String) :
    List Value → Originals → Except Refused Originals
  | [], so => .ok so
  | record :: records, so => do
      let cid ← idOf record
      let so ← readRecord builders get (entriesOf cid reveal) suppress cid record so
      readRecords get reveal suppress records so

/-- `_store_originals` -/
def storeOriginals (store : Store) (records : List Value)
    (reveal : List (String × List (String × Value))) (suppress : List String) :
    Except Refused Originals :=
  match store with
  | .legacyLedger => .error (.discloseError ("store: the legacy ledger keeps no originals; pair " ++
      "it with a separate originals-capable Artifact Store, or pass the originals through reveal"))
  | .artifacts get => readRecords builders get reveal suppress records ⟨[], []⟩

/-- What is supplied: what is revealed, and the originals under each id. -/
def supply (reveal originals : List (String × List (String × Value))) :
    List (String × List (String × Value)) :=
  originals.foldl (fun supplied entry => OrderedMap.insert entry.1
    (OrderedMap.insertAll entry.2 (entriesOf entry.1 supplied)) supplied) reveal

/-! ## Envelopes -/

/-- The digest a record commits for a member, in a message. -/
def storedText (capsule : Value) (member : String) : Except String String := do
  let attestation ← capsule.get "model_attestation"
  let members ← attestation.orEmpty.members "get"
  let stored ← ((Value.lookup "compute_attestation" members).getD (.dict [])).get
    ((Value.lookup member disclosureEligibleFields).getD member)
  return text packages stored

/-- The text up to a colon and a blank, and the text behind. -/
def partitionColon : List Char → List Char × List Char
  | [] => ([], [])
  | ':' :: ' ' :: rest => ([], rest)
  | c :: rest => (c :: (partitionColon rest).1, (partitionColon rest).2)

/-- The `DisclosureError` of what the other package raised. -/
def disclosureError (capsule : Value) (disclosures : List (String × Value)) (raised : String) :
    Except String String := do
  let code := String.ofList (partitionColon raised.toList).1
  let member := String.ofList (partitionColon raised.toList).2
  if code = builders.noCommittedDigest then
    return "capsule has no " ++ (Value.lookup member disclosureEligibleFields).getD member ++
      " committed — cannot disclose " ++ packages.repr (.str member)
  else
    match disclosures.lookup member with
    | none => .error (packages.repr (.str member))
    | some value =>
        match packages.jsonDigest value with
        | .error (.uncanonical text) => return member ++ " value cannot be canonicalized: " ++ text
        | .error (.other text) => .error text
        | .ok computed => do
            let stored ← storedText packages capsule member
            return member ++ " does not match the committed digest (computed " ++ computed ++
              ", capsule has " ++ stored ++ ") — pass strict=False to build the envelope anyway"

/-- An envelope: a capsule and what is disclosed of it. -/
def envelopeOf (capsule : Value) (disclosures : List (String × Value)) : Value :=
  .dict [("capsule", capsule), ("disclosures", .dict disclosures)]

/-- `build_disclosure_envelope`; what it refuses is refused under the id of the record. -/
def buildDisclosureEnvelope (cid : String) (capsule : Value) (fields : List (String × Value))
    (strict : Bool) : Except Refused Value :=
  let disclosures := ["agent_input", "agent_output"].filterMap (fun member =>
    ((fields.lookup member).filter (fun value => !isNone value)).map (member, ·))
  if strict = false then .ok (envelopeOf capsule disclosures)
  else
    match builders.build capsule disclosures with
    | .ok envelope => .ok envelope
    | .error (.raised text) => .error (.raised text)
    | .error (.valueError raised) =>
        match disclosureError packages builders capsule disclosures raised with
        | .ok text => .error (.discloseError (cid ++ ": " ++ text))
        | .error text => .error (.raised text)

/-- What an envelope discloses. -/
def disclosuresIn (envelope : Value) : Except String (List (String × Value)) := do
  let members ← envelope.members "get"
  match Value.lookup "disclosures" members with
  | some (.dict disclosures) => .ok disclosures
  | some other => .error ("'" ++ other.typeName ++ "' object does not support item assignment")
  | none => .error "'disclosures'"

/-- `envelope["disclosures"][field] = None` -/
def discloseNull (field : String) (envelope : Value) : Except String Value := do
  let disclosures ← disclosuresIn envelope
  let members ← envelope.members "get"
  return .dict (OrderedMap.insert "disclosures"
    (.dict (OrderedMap.insert field .none disclosures)) members)

/-- The digest of `null`. -/
def nullDigest : Except Refused String :=
  (packages.jsonDigest .none).mapError (fun raised =>
    match raised with
    | .uncanonical text => .raised text
    | .other text => .raised text)

/-- The fields whose value is `null`, put in an envelope. -/
def addNulls (cid : String) (attestation : Value) (fields : List (String × Value)) :
    List (String × String) → Value → Except Refused Value
  | [], envelope => .ok envelope
  | (field, digestField) :: rest, envelope =>
      if (fields.lookup field).any isNone then do
        let stored ← orRaised (attestation.get digestField)
        let digest ← nullDigest packages
        ensure ((Value.str digest).eq stored)
          (.discloseError (cid ++ ": " ++ field ++ " does not match the committed digest"))
        let envelope ← orRaised (discloseNull field envelope)
        addNulls cid attestation fields rest envelope
      else addNulls cid attestation fields rest envelope

/-- `record_proof`: a log without archived segments, and the proof of one record. -/
def recordProof (path : String) (entries : List Value) (cid : String) :
    Except Refused RecordProof := do
  let kinds ← orRaised (entries.mapM (fun entry => entry.get "kind"))
  ensure (!kinds.any (fun kind => (Value.str "archived_segment").eq kind))
    (.raised (path ++ ": segment is archived"))
  ensure (!entries.isEmpty) (.discloseError (cid ++ ": cannot bundle — " ++ path ++
    ": empty or not found"))
  (builders.bundle entries cid).mapError (fun raised =>
    match raised with
    | .recordProofError text => .discloseError (cid ++ ": cannot bundle — " ++ text)
    | .raised text => .raised text)

/-- The bundles and the envelopes, by capsule id. -/
structure Disclosed where
  bundles : List (String × RecordProof)
  envelopes : List (String × Value)

/-- The envelope of one record. -/
def recordEnvelope (supplied : List (String × Value)) (suppress : List String) (cid : String)
    (record : Value) : Except Refused Value := do
  let fields := supplied.filter (fun field => !suppress.contains field.1)
  let envelope ← buildDisclosureEnvelope packages builders cid record fields true
  let attestation ← orRaised (computeAttestation record)
  addNulls packages cid attestation fields disclosureEligibleFields envelope

def discloseRecords (path : String) (entries : List Value)
    (supplied : List (String × List (String × Value))) (suppress : List String) :
    List Value → Disclosed → Except Refused Disclosed
  | [], done => .ok done
  | record :: records, done => do
      let cid ← idOf record
      let bundle ← recordProof builders path entries cid
      let envelope ← recordEnvelope packages builders (entriesOf cid supplied) suppress cid record
      discloseRecords path entries supplied suppress records {
        bundles := OrderedMap.insert cid bundle done.bundles
        envelopes := OrderedMap.insert cid envelope done.envelopes }

/-! ## The completeness statement -/

/-- The first characters of an id. -/
def short (id : String) : String := String.ofList (id.toList.take 12) ++ "…"

/-- Names in order. -/
def sortNames (names : List String) : List String := names.insertionSort (fun a b => a ≤ b)

/-- The states of an id, as a value. -/
def statesValue (states : List (String × String)) : Value :=
  .dict (states.map (fun state => (state.1, .str state.2)))

def recordsNote (ids : List String) (recordsMode : String) : String :=
  let n := toString ids.length
  if recordsMode = "contiguous" then
    match ids, ids.getLast? with
    | [only], _ => "1 record (" ++ short only ++ ") — contiguous, nothing omitted"
    | first :: _, some last =>
        n ++ " of " ++ n ++ " record(s), " ++ short first ++ ".." ++ short last ++
          " — contiguous, nothing omitted"
    | _, _ => ""
  else n ++ " producer-selected record(s), explicit list — not a bound range"

def payloadsNote (payloads : String) (suppress : List String)
    (unavailable : List (String × List (String × String))) : String :=
  (if payloads = "all" then "every eligible payload field disclosed for every selected record"
    else "producer-selected payload field(s) only") ++
  (if suppress.isEmpty then ""
    else "; " ++ toString suppress.length ++
      " field(s) explicitly suppressed for this audience: " ++ ", ".intercalate suppress) ++
  (if unavailable.isEmpty then ""
    else "; " ++ toString (unavailable.map (fun entry => entry.2.length)).sum ++
      " committed field(s) not disclosed because the artifact store " ++
      "could not supply the original (see unavailable)")

/-- `_completeness` -/
def completeness (ids : List String) (recordsMode payloads : String) (suppress : List String)
    (unavailable : List (String × List (String × String))) : Value :=
  .dict ([("records_mode", .str recordsMode), ("records_note", .str (recordsNote ids recordsMode)),
    ("payloads_mode", .str payloads),
    ("payloads_note", .str (payloadsNote payloads suppress unavailable))] ++
    (if unavailable.isEmpty then []
      else [("unavailable", .dict (unavailable.map (fun entry =>
        (entry.1, statesValue entry.2))))]))

/-! ## The call -/

def payloadModes : List String := ["all", "selected"]

/-- The names of the fields, in order, as a message shows them. -/
def namesText (names : List String) : String :=
  packages.repr (.list ((sortNames names).map .str))

def eligibleFields : List String := disclosureEligibleFields.map Prod.fst

/-- The checks of `reveal` and `suppress`. -/
def checkRequest (request : Request) (selectedIds : List String) (suppress : List String) :
    Except Refused Unit := do
  for entry in request.reveal do
    ensure (selectedIds.contains entry.1) (.discloseError ("reveal supplied for capsule_id " ++
      packages.repr (.str entry.1) ++ ", which is not part of the " ++
      packages.repr (.str request.selector) ++ " selection"))
    for field in entry.2 do
      ensure (eligibleFields.contains field.1) (.discloseError ("reveal: " ++ entry.1 ++
        " names field " ++ packages.repr (.str field.1) ++ ", not one of " ++
        namesText packages eligibleFields))
  let unknown := suppress.filter (fun field => !eligibleFields.contains field)
  ensure unknown.isEmpty (.discloseError ("suppress names unknown field(s) " ++
    namesText packages unknown ++ ", not a subset of " ++ namesText packages eligibleFields))
  for entry in request.reveal do
    let conflict := suppress.filter (fun field => (entry.2.map Prod.fst).contains field)
    ensure conflict.isEmpty (.discloseError (entry.1 ++ ": reveal supplies " ++
      namesText packages conflict ++ " but the same field(s) are in " ++
      "suppress — a field cannot be disclosed and suppressed in the same call"))

/-- The originals the store has, if there is one. -/
def readStore (request : Request) (selected : List Value) (suppress : List String) :
    Except Refused Originals :=
  match request.store with
  | none => .ok ⟨[], []⟩
  | some store => storeOriginals builders store selected request.reveal suppress

/-- One missing field, in a message. -/
def missingText (states : List (String × List (String × String))) (missing : String × String) :
    String :=
  short missing.1 ++ ":" ++ missing.2 ++
    (match (entriesOf missing.1 states).lookup missing.2 with
      | some state => " (" ++ state ++ ")"
      | none => "")

/-- Nothing is missing where everything is asked for. -/
def checkMissing (request : Request) (suppress : List String) (selected : List Value)
    (supplied : List (String × List (String × Value)))
    (states : List (String × List (String × String))) : Except Refused Unit := do
  if request.payloads = "all" then
    let missing ← missingForAll supplied suppress selected
    ensure missing.isEmpty (.discloseError ("payloads='all' but " ++ toString missing.length ++
      " eligible field(s) have no supplied payload and are not suppressed: " ++
      ", ".intercalate (missing.map (missingText states)) ++
      " — supply a payload, add to suppress, or pass payloads='selected'"))
  else .ok ()

/-- A disclosure that is not sealed: what it has, and its record. -/
structure Draft where
  ids : List String
  disclosed : Disclosed
  completeness : Value
  suppressed : List String
  record : List (String × Value)

/-- The disclosed fields of each id. -/
def disclosedFields (envelopes : List (String × Value)) : Except String (List (String × Value)) :=
  envelopes.mapM (fun entry => (disclosuresIn entry.2).map (fun disclosures =>
    (entry.1, .list ((sortNames (disclosures.map Prod.fst)).map .str))))

/-- Everything `disclose` does before it seals. -/
def prepare (entries : List Value) (request : Request) : Except Refused Draft := do
  ensure (payloadModes.contains request.payloads) (.discloseError
    ("payloads must be one of ('all', 'selected'), got " ++
      packages.repr (.str request.payloads)))
  let records ← orRaised (readLedger entries)
  ensure (!records.isEmpty) (.discloseError (request.path ++ ": empty or not found"))
  let selection ← resolveSelector packages records request.selector
  let ids ← selection.1.mapM idOf
  let suppress := request.suppress.dedup
  checkRequest packages request ids suppress
  let so ← readStore builders request selection.1 suppress
  let supplied := supply request.reveal so.originals
  checkMissing request suppress selection.1 supplied so.states
  let disclosed ← discloseRecords packages builders request.path entries supplied suppress
    selection.1 ⟨[], []⟩
  let statement := completeness ids selection.2 request.payloads (sortNames suppress) so.states
  let fields ← orRaised (disclosedFields disclosed.envelopes)
  return {
    ids := ids
    disclosed := disclosed
    completeness := statement
    suppressed := sortNames suppress
    record := [("kind", .str "disclosure_record"), ("v", .int 1), ("audience", request.audience),
      ("selector", .str request.selector), ("disclosed_capsule_ids", .list (ids.map .str)),
      ("disclosed_fields", .dict fields),
      ("suppressed_fields", .list ((sortNames suppress).map .str)),
      ("completeness", statement), ("timestamp", .str builders.now)] }

/-- `_seal_record` -/
def sealRecord (record : List (String × Value)) : Except Refused Value := do
  let capsuleId ← orRaised (computeCapsuleId packages (.dict record))
  let envelope ← orRaised (builders.signProducerEnvelope capsuleId)
  return .dict (record ++ [("capsule_id", .str capsuleId), ("signature", .str envelope.1),
    ("key_id", .str envelope.2)])

/-- `disclose`: the disclosure and the ledger after it. -/
def disclose (entries : List Value) (request : Request) :
    Except Refused Disclosure × List Value :=
  match prepare packages builders entries request with
  | .error refused => (.error refused, entries)
  | .ok draft =>
      match sealRecord packages builders draft.record with
      | .error refused => (.error refused, entries)
      | .ok record =>
          match builders.appendToLedger entries record with
          | (some text, entries) => (.error (.raised text), entries)
          | (none, entries) => (.ok {
              v := 1
              audience := request.audience
              recordIds := draft.ids
              bundles := draft.disclosed.bundles
              envelopes := draft.disclosed.envelopes
              completeness := draft.completeness
              suppressedFields := draft.suppressed
              disclosureRecord := record }, entries)

end Disclose
end CapsuleEmit
