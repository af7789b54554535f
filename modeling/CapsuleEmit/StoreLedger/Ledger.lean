import CapsuleEmit.Foundation.Machine
import CapsuleEmit.StoreLedger.Lines
import Mathlib.Data.Finset.Union

namespace CapsuleEmit
namespace StoreLedger

/-!
# A ledger over an entry log and an artifact store

A line is written to two stores: its record is put into the artifact store and
its `capsule_id` is appended to the entry log.  The entry is the commit point.
Opening the ledger replays the log; appending keeps the replayed state up to
date.  Both stores are interfaces here, with the part of their contracts that
the ledger relies on.
-/

open Python (Dict Value)
open ArtifactStore (Record Artifact ArtifactError)

universe u v

/-! ## The stores -/

inductive AppendOutcome where
  | inserted
  | idempotent
  deriving DecidableEq, Repr

/-- An entry log in some state.  `values` is what it holds, in order. -/
structure EntryLog (β : Type u) where
  values : β → List Bytes
  maxScanLimit : Nat
  scanEntries : β → Nat → Nat → Except String (List (Nat × Bytes))
  append : β → Bytes → Except String ((AppendOutcome × Nat) × β)

/-- The contract of an entry log: sequence numbers are positions from one on,
and a value is entered once. -/
structure EntryLog.Lawful {β : Type u} (log : EntryLog β) : Prop where
  limit_pos : 0 < log.maxScanLimit
  scan : ∀ {state after limit}, after ≤ (log.values state).length → 0 < limit →
    limit ≤ log.maxScanLimit → log.scanEntries state after limit =
      .ok ((((log.values state).zipIdx 1).map Prod.swap |>.drop after).take limit)
  append_new : ∀ {state value}, value ∉ log.values state → ∃ state',
    log.append state value = .ok ((.inserted, (log.values state).length + 1), state') ∧
      log.values state' = log.values state ++ [value]
  append_known : ∀ {state value}, value ∈ log.values state → ∃ seq,
    log.append state value = .ok ((.idempotent, seq), state)

/-- An artifact store in some state. -/
structure RecordStore (α : Type u) where
  get : α → String → Except ArtifactError Record
  put : α → Record → Except ArtifactError α

/-- A record with the digests of its originals, as a store keeps it. -/
def prepared (packages : Packages) (record : Record) : Record :=
  { record with artifacts := record.artifacts.map (fun a =>
      if a.state = .present then { a with contentSha256 := packages.sha256Hex (a.content.getD []) }
      else a) }

/-- The contract of an artifact store: it admits records whose capsule is a
JSON object under a valid id, a record that is there stays as it is, and a
record that is put again as it was is accepted. -/
structure RecordStore.Lawful {α : Type u} (packages : Packages) (store : RecordStore α) : Prop where
  admitted : ∀ {state record state'}, store.put state record = .ok state' →
    ArtifactStore.validId record.capsuleId = true ∧
      ∃ members, Python.decodeStrictJson packages.json record.capsule = .ok (.dict members)
  stored : ∀ {state record state'}, store.put state record = .ok state' →
    store.get state' record.capsuleId = .ok (prepared packages record)
  kept : ∀ {state record state' id held}, store.put state record = .ok state' →
    store.get state id = .ok held → store.get state' id = .ok held
  known : ∀ {state record state' held}, store.put state record = .ok state' →
    store.get state record.capsuleId = .ok held → state' = state
  retried : ∀ {state record}, store.get state record.capsuleId = .ok (prepared packages record) →
    (∀ a ∈ record.artifacts, a.state = .present) → store.put state record = .ok state

/-- The two stores of a ledger. -/
structure Stores (α : Type u) (β : Type v) where
  artifacts : α
  log : β

/-! ## The ledger -/

/-- One log entry, padding included. -/
structure LedgerLine where
  capsuleId : String
  offset : Nat
  padding : Bool
  timestamp : Option String
  deriving DecidableEq

/-- What a ledger keeps in memory. -/
structure Ledger where
  index : List (String × Nat)
  indexKeys : Finset String
  lines : List LedgerLine
  chainHead : Option String
  deriving DecidableEq

def Ledger.empty : Ledger := ⟨[], ∅, [], none⟩

def Ledger.entries (ledger : Ledger) : Nat := ledger.lines.length

/-- A line whose append has returned. -/
structure Acked where
  line : Dict
  statement : Option Bytes

/-- A ledger and its stores at some moment.  `acked` is the history of the
appends that returned, which nothing reads; `up` is false once the process has
ended. -/
structure Site (α : Type u) (β : Type v) where
  ledger : Ledger
  stores : Stores α β
  acked : List Acked
  up : Bool

structure RecoveryReport where
  validEntries : Nat
  truncatedTornWriteAt : Option Nat
  deriving DecidableEq

/-- How a ledger was opened: its indexer and its two switches. -/
structure Config where
  indexer : Dict → List String
  linear : Bool
  requireStatements : Bool

/-- Index key for a record that cites another party's record of the same exchange. -/
def counterpartyHalfKey (foreignCapsuleId : String) : String :=
  "counterparty_half:" ++ foreignCapsuleId

/-- Index key for a record that cites another party's inclusion proof. -/
def counterpartyInclusionKey (foreignCapsuleId : String) : String :=
  "counterparty_inclusion:" ++ foreignCapsuleId

/-- The default indexer. -/
def counterpartyCitationKeys (capsule : Dict) : List String :=
  match capsule.get? "references" with
  | some (.list references) =>
      let purpose (reference : Value) : Option String := reference.dict?.bind (str? "citation_purpose")
      let halves := references.filterMap (fun reference =>
        if purpose reference = some "counterparty_half" then
          (reference.dict?.bind (str? "digest")).map counterpartyHalfKey
        else none)
      let member (name : String) (value : Option Value) : Option Value :=
        (value.bind Value.dict?).bind (Dict.get? name)
      if (references.map purpose).contains (some "counterparty_inclusion") then
        let half := member "half_capsule_id" (member "counterparty_inclusion"
          (member "compute_attestation" (capsule.get? "model_attestation")))
        halves ++ ((half.bind Value.str?).map counterpartyInclusionKey).toList
      else halves
  | _ => []

/-- `index[key] = seq`: in place, or at the end. -/
def assign (key : String) (seq : Nat) (index : List (String × Nat)) : List (String × Nat) :=
  if index.any (fun entry => entry.1 = key) then
    index.map (fun entry => if entry.1 = key then (key, seq) else entry)
  else index ++ [(key, seq)]

def indexLine (config : Config) (ledger : Ledger) (capsuleId : String) (seq : Nat) (record : Dict)
    (padding : Bool) : Ledger :=
  let lines := ledger.lines ++ [⟨capsuleId, seq, padding, timestamp record⟩]
  if padding then { ledger with lines := lines }
  else
    { index := assign capsuleId seq ledger.index
      indexKeys := ledger.indexKeys ∪ (config.indexer record).toFinset
      lines := lines
      chainHead := some capsuleId }

section

variable (packages : Packages) (config : Config)
variable {α : Type u} {β : Type v} (artifacts : RecordStore α) (log : EntryLog β)

/-! ## Opening -/

/-- The record under an id as a line, its statement, and whether it has the
attachment for one. -/
def readRecord (store : α) (lineNo : Nat) (capsuleId : String) :
    Result (Dict × Option Bytes × Bool) :=
  match artifacts.get store capsuleId with
  | .error .notFound => .error ⟨.missingRecord, "ledger line " ++ toString lineNo ++
      ": the log names capsule_id " ++ capsuleId ++ " but the artifact store has no record of it",
      lineNo, capsuleId⟩
  | .error _ => .error ⟨.store, "artifact store", lineNo, capsuleId⟩
  | .ok record =>
      match Python.decodeStrictJson packages.json record.capsule with
      | .error e => .error ⟨.missingCapsuleId, "ledger line " ++ toString lineNo ++
          ": record JSON error: " ++ e, lineNo, capsuleId⟩
      | .ok value =>
          match value.dict? with
          | none => .error ⟨.missingCapsuleId, "ledger line " ++ toString lineNo ++
              " corrupt: the record is not a JSON object", lineNo, capsuleId⟩
          | some body =>
              let verified := packages.verifyProducerEnvelope capsuleId record.producerEnvelope
              let statements := record.artifacts.filter
                (fun a => a.name = statementName && a.binding.isEmpty)
              .ok (restored body (Sha256.hex record.producerEnvelope)
                  ((verified.publicKey.map Sha256.hex).getD ""),
                (statements.head?.bind Artifact.content), !statements.isEmpty)

/-- Check a line as a replay does, and index it. -/
def admitLine (ledger : Ledger) (lineNo seq : Nat) (parsed : Dict) (statement : Option Bytes)
    (attached : Bool) : Result Ledger :=
  match str? "capsule_id" parsed with
  | none => .error ⟨.missingCapsuleId, "ledger line " ++ toString lineNo ++
      " corrupt: missing or non-string capsule_id field", lineNo, ""⟩
  | some stored => do
      recompute packages lineNo parsed stored
      let padding := isPadding parsed
      match if padding then checkPaddingShape packages parsed else none with
      | some detail => .error ⟨.malformedPadding, "ledger line " ++ toString lineNo ++
          ": malformed padding record: " ++ detail, lineNo, ""⟩
      | none => do
          ensure (padding || !config.linear || parent parsed = ledger.chainHead)
            ⟨.chainBroken, "ledger line " ++ toString lineNo ++ " -- chain is broken", lineNo, stored⟩
          match statement with
          | some statement => checkStatement packages lineNo parsed stored statement
          | none => ensure (!(attached || config.requireStatements)) (statementMissing lineNo stored)
          .ok (indexLine config ledger stored seq parsed padding)

def admitEntry (store : α) (ledger : Ledger) (entry : Nat × Bytes) : Result Ledger := do
  let capsuleId := Sha256.hex entry.2
  let (parsed, statement, attached) ← readRecord packages artifacts store entry.1 capsuleId
  ensure (str? "capsule_id" parsed = some capsuleId)
    ⟨.capsuleIdMismatch, "ledger line " ++ toString entry.1 ++ " corrupt: the log names " ++
      capsuleId ++ " but its record carries " ++
      packages.repr ((parsed.get? "capsule_id").getD .none), entry.1, capsuleId⟩
  admitLine packages config ledger entry.1 entry.1 parsed statement attached

/-- Replay the pages of the log behind a sequence number. -/
def replayPages (stores : Stores α β) : Nat → Nat → Ledger → Result Ledger
  | 0, _, ledger => .ok ledger
  | fuel + 1, after, ledger =>
      match log.scanEntries stores.log after log.maxScanLimit with
      | .error e => .error ⟨.log, "entry log: " ++ e, after + 1, ""⟩
      | .ok page =>
          match page.getLast? with
          | none => .ok ledger
          | some last => do
              let ledger ← page.foldlM (admitEntry packages config artifacts stores.artifacts) ledger
              replayPages stores fuel last.1 ledger

/-- Open the ledger the two stores hold.  Each page is at least one entry, so
the log is read after as many pages as it has entries. -/
def openStores (stores : Stores α β) : Result (Ledger × RecoveryReport) := do
  let ledger ← replayPages packages config artifacts log stores
    ((log.values stores.log).length + 1) 0 Ledger.empty
  .ok (ledger, ⟨ledger.lines.length, none⟩)

/-! ## Appending -/

/-- What can happen between the put of a record and the append of its entry:
nothing, the end of the process, or an error of the log. -/
inductive Fault where
  | none
  | crash
  | logFails (why : String)
  deriving DecidableEq

/-- How a call ended. -/
inductive Reply where
  | done (entries : Nat)
  | raised (e : LedgerError)
  | crashed
  deriving DecidableEq

def checkNotStale (site : Site α β) : Result Unit :=
  match log.scanEntries site.stores.log site.ledger.lines.length 1 with
  | .error e => .error ⟨.log, "entry log: " ++ e, 0, ""⟩
  | .ok [] => .ok ()
  | .ok (ahead :: _) => .error ⟨.stale, "the log holds entry " ++ toString ahead.1 ++ ", past the " ++
      toString site.ledger.lines.length ++
      " this ledger has: another writer appended; reopen under the writer lock", 0, ""⟩

/-- Write one line: its record, then its log entry. -/
def commit (site : Site α β) (capsuleId : String) (record : Record) (line : Dict)
    (statement : Option Bytes) (padding : Bool) (fault : Fault) : Reply × Site α β :=
  let lineNo := site.ledger.lines.length + 1
  match artifacts.put site.stores.artifacts record with
  | .error _ => (.raised ⟨.store, "artifact store", lineNo, capsuleId⟩, site)
  | .ok state =>
      let site := { site with stores.artifacts := state }
      match fault with
      | .crash => (.crashed, { site with up := false })
      | .logFails why => (.raised ⟨.log, "entry log: " ++ why, lineNo, capsuleId⟩, site)
      | .none =>
          match Python.fromHex capsuleId with
          | none => (.raised ⟨.value, "non-hexadecimal number found in fromhex() arg", 0, ""⟩, site)
          | some value =>
              match log.append site.stores.log value with
              | .error e => (.raised ⟨.log, "entry log: " ++ e, lineNo, capsuleId⟩, site)
              | .ok ((.idempotent, _), state) =>
                  (.raised ⟨.alreadyInLog, "refusing to append: capsule_id " ++ capsuleId ++
                    " is already in the log", 0, capsuleId⟩, { site with stores.log := state })
              | .ok ((.inserted, seq), state) =>
                  (.done seq,
                    { site with
                      stores.log := state
                      ledger := indexLine config site.ledger capsuleId seq line padding
                      acked := site.acked ++ [⟨line, statement⟩] })

/-- The checks of a line before anything is written, and its record. -/
def checkLine (site : Site α β) (capsuleId : String) (line : Dict) (statement : Bytes) :
    Result Record := do
  let lineNo := site.ledger.lines.length + 1
  recompute packages lineNo line capsuleId
  checkStatement packages lineNo line capsuleId statement
  let record ← toRecord packages capsuleId line statement
  checkNotStale log site
  .ok record

def writeLine (site : Site α β) (capsuleId : String) (line : Dict) (statement : Bytes)
    (padding : Bool) (fault : Fault) : Reply × Site α β :=
  match checkLine packages log site capsuleId line statement with
  | .error e => (.raised e, site)
  | .ok record => commit config artifacts log site capsuleId record line (some statement) padding fault

/-- The id of a capsule that may be appended here. -/
def appendable (ledger : Ledger) (capsule : Dict) : Result String := do
  ensure (!isPadding capsule)
    ⟨.paddingMisrouted, "refusing to append: a padding record goes through append_padding", 0, ""⟩
  match str? "capsule_id" capsule with
  | none => .error ⟨.missingCapsuleId, "capsule has no capsule_id field", 0, ""⟩
  | some capsuleId => do
      ensure (!config.linear || parent capsule = ledger.chainHead)
        ⟨.appendChainMismatch, "refusing to append: capsule's chain.parent_capsule_id does not " ++
          "match ledger head", 0, capsuleId⟩
      .ok capsuleId

/-- Append a sealed capsule and its signed statement. -/
def append (site : Site α β) (capsule : Dict) (statement : Bytes) (fault : Fault) :
    Reply × Site α β :=
  match appendable config site.ledger capsule with
  | .error e => (.raised e, site)
  | .ok capsuleId => writeLine packages config artifacts log site capsuleId capsule statement false fault

/-- The id of a padding record. -/
def paddable (ledger : Ledger) (record : Dict) : Result String := do
  ensure (isPadding record)
    ⟨.paddingMisrouted, "refusing to append: append_padding only takes a padding record", 0, ""⟩
  match checkPaddingShape packages record with
  | some detail => .error ⟨.malformedPadding, "ledger line " ++ toString (ledger.lines.length + 1) ++
      ": malformed padding record: " ++ detail, ledger.lines.length + 1, ""⟩
  | none =>
      match str? "capsule_id" record with
      | none => .error ⟨.missingCapsuleId, "capsule has no capsule_id field", 0, ""⟩
      | some capsuleId => .ok capsuleId

/-- Append one padding record and its signed statement. -/
def appendPadding (site : Site α β) (record : Dict) (statement : Bytes) (fault : Fault) :
    Reply × Site α β :=
  match paddable packages site.ledger record with
  | .error e => (.raised e, site)
  | .ok capsuleId => writeLine packages config artifacts log site capsuleId record statement true fault

/-! ## Padding to a bucket -/

/-- The signer of padding records: its producer envelope for a `capsule_id`
(`signature` and `key_id`) and its statement over a payload. -/
structure Signer where
  envelope : String → Except String (String × String)
  statement : Bytes → String → Except String Bytes

def paddingRecordWithNonce (storeNonce : String) : Except String Dict := do
  let body : Dict := [("record_type", .str "padding"), ("epistemic_type", .str "producer_claim"),
    ("store_nonce", .str storeNonce)]
  .ok (("capsule_id", .str (← packages.jsonDigest (.dict body))) :: body)

/-- A signed padding record with its statement. -/
def signedPadding (signer : Signer) (storeNonce : String) : Except String (Dict × Bytes) := do
  let record ← paddingRecordWithNonce packages storeNonce
  let capsuleId := (str? "capsule_id" record).getD ""
  let (signature, keyId) ← signer.envelope capsuleId
  let record := restored record signature keyId
  let statement ← signer.statement (← packages.json.dumps (.dict record)) capsuleId
  .ok (record, statement)

/-- What one padding of a bucket draws: its nonce and its fault. -/
structure Draw where
  nonce : String
  fault : Fault

/-- Append a padding record for each draw, until one is not appended. -/
def padEach (signer : Signer) (site : Site α β) : List Draw → Reply × Site α β
  | [] => (.done site.ledger.entries, site)
  | draw :: draws =>
      match signedPadding packages signer draw.nonce with
      | .error e => (.raised ⟨.value, e, 0, ""⟩, site)
      | .ok (record, statement) =>
          match appendPadding packages config artifacts log site record statement draw.fault with
          | (.done _, site) => padEach signer site draws
          | ended => ended

/-- The padding records a bucket is short of. -/
def missing (bucket : Int) (entries : Nat) : Nat :=
  if bucket ≤ 0 then 0 else ((bucket - entries % bucket) % bucket).toNat

/-- Append padding records until the line count is a multiple of the bucket. -/
def padToBucket (signer : Signer) (site : Site α β) (bucket : Int) (draws : Nat → Draw) :
    Reply × Site α β :=
  padEach packages config artifacts log signer site
    ((List.range (missing bucket site.ledger.entries)).map draws)

end

end StoreLedger
end CapsuleEmit
