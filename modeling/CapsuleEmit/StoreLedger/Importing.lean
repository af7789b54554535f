import CapsuleEmit.StoreLedger.FlatRecords

namespace CapsuleEmit
namespace StoreLedger

/-!
# Importing a flat ledger

An import reads a flat ledger, chooses the records to copy, and refuses if there
is a line that no store record can keep.  Only then does it write: every record
that is not in the log yet, and then every entry.  A budget is the number of
writes a process makes before it ends.
-/

open Python (Dict Value)
open ArtifactStore (Record Artifact ArtifactError)
open FlatLedger (File Handle)

universe u v

/-! ## Choosing the records -/

/-- Why a line is not copied. -/
inductive Refusal where
  | notObject
  | kind (kind : Value)
  | different (capsuleId : String)
  | record (error : ReadError)

/-- What becomes of a line. -/
inductive LineForm where
  | skip (kind : String)
  | refuse (why : Refusal)
  | copy (capsuleId : String) (obj : Dict)

/-- `kind` of the lines that an import leaves out. -/
def skippedKinds : List String := ["checkpoint_stamp", "checkpoint_witness_backfill"]

/-- An object of the flat ledger, behind lines that have been copied. -/
def objectForm (seen : List (String × Dict)) (obj : Dict) : LineForm :=
  match FlatLedger.given "kind" obj, obj.get? "capsule_id" with
  | some (.str kind), _ =>
      if skippedKinds.contains kind then .skip kind else .refuse (.kind (.str kind))
  | some kind, _ => .refuse (.kind kind)
  | none, some (.str capsuleId) =>
      match Value.lookup capsuleId seen with
      | some held =>
          if Value.eq (.dict obj) (.dict held) then .skip "repeat" else .refuse (.different capsuleId)
      | none => .copy capsuleId obj
  | none, _ => .refuse (.kind .none)

/-- A line of the flat ledger. -/
def lineForm (seen : List (String × Dict)) (value : Value) : LineForm :=
  match value.dict? with
  | some obj => objectForm seen obj
  | none => .refuse .notObject

/-- What has been chosen of a flat ledger. -/
structure Selection where
  copy : List (Nat × Record)
  skipped : List (String × Nat)
  refused : List (Nat × Refusal)
  seen : List (String × Dict)

def Selection.empty : Selection := ⟨[], [], [], []⟩

/-- One more line of a kind. -/
def count (kind : String) (skipped : List (String × Nat)) : List (String × Nat) :=
  OrderedMap.insert kind (((skipped.find? (fun entry => entry.1 = kind)).map Prod.snd).getD 0 + 1) skipped

section

variable {Time : Type} (packages : ImportPackages Time)

/-- Choose what becomes of a line. -/
def selectLine (file : File) (state : Selection × Handle Time) (line : Nat × Value) :
    Except String (Selection × Handle Time) :=
  let selection := state.1
  match lineForm selection.seen line.2 with
  | .skip kind => .ok ({ selection with skipped := count kind selection.skipped }, state.2)
  | .refuse why => .ok ({ selection with refused := selection.refused ++ [(line.1, why)] }, state.2)
  | .copy capsuleId obj =>
      let got := legacyGet packages (some file) state.2 capsuleId
      match got.1 >>= checkCopy packages with
      | .error (.raised why) => .error why
      | .error error =>
          .ok ({ selection with refused := selection.refused ++ [(line.1, .record error)] }, got.2)
      | .ok record =>
          .ok ({ selection with
            copy := selection.copy ++ [(line.1, record)]
            seen := selection.seen ++ [(capsuleId, obj)] }, got.2)

/-- The text of an exception of the flat ledger. -/
def raisedText : FlatLedger.LedgerError → String
  | .corrupt why => why
  | .raised why => why

/-- The first half of `import_flat`. -/
def select (file : File) : Except String Selection := do
  let values ← (FlatLedger.readLedgerEntries packages.flat (some file)).mapError raisedText
  let chosen ← ((values.zipIdx 1).map Prod.swap).foldlM (selectLine packages file)
    (Selection.empty, Handle.reset)
  .ok chosen.1

end

/-! ## Writing -/

/-- The writes a process makes before it ends; `none` for one that does not end. -/
abbrev Budget := Option Nat

/-- One more write. -/
def Budget.spend : Budget → Option Budget
  | none => some none
  | some 0 => none
  | some (n + 1) => some (some n)

structure ImportReport where
  records : Nat
  resumed : Nat
  skipped : List (String × Nat)
  chainHead : Option String
  deriving DecidableEq

/-- How an import ended. -/
inductive Ending where
  | done (ledger : Ledger) (report : ImportReport)
  | refused (lines : List Nat) (why : String)
  | raised (error : LedgerError)
  | crashed

def artifactValue (a : Artifact) : Value :=
  .dict ([("name", .str a.name)] ++ (if a.binding.isEmpty then [] else [("binding", .str a.binding)]) ++
    (a.content.map (fun content => ("content", Value.str (Base64.encode content)))).toList ++
    [("state", .str a.state.asStr)] ++
    (if a.contentSha256.isEmpty then [] else [("content_sha256", .str a.contentSha256)]))

/-- The switches of a ledger that holds the records of a flat one. -/
def importConfig (indexer : Dict → List String) : Config := ⟨indexer, false, false⟩

section

variable {Time : Type} (packages : ImportPackages Time) (indexer : Dict → List String)
variable {α : Type u} {β : Type v} (artifacts : RecordStore α) (log : EntryLog β)

/-- `encode_record` -/
def encodeRecord (record : Record) : Except String Bytes :=
  packages.stores.json.dumps (.dict [
    ("capsule_id", .str record.capsuleId),
    ("capsule", .str (Base64.encode record.capsule)),
    ("producer_envelope", .str (Base64.encode record.producerEnvelope)),
    ("artifacts", .list (record.artifacts.map artifactValue))])

/-- Whether a stored record is one of the flat ledger as it would be stored. -/
def sameRecord (held record : Record) : Except LedgerError Bool :=
  match encodeRecord packages held, prepare packages record with
  | .ok left, .ok prepared =>
      match encodeRecord packages prepared with
      | .ok right => .ok (left = right)
      | .error why => .error ⟨.value, why, 0, ""⟩
  | .error why, _ => .error ⟨.value, why, 0, ""⟩
  | _, .error _ => .error ⟨.value, "prepare", 0, ""⟩

/-- Each entry that is in the log already holds its record as stored. -/
def checkResumed (store : α) : List LedgerLine → List (Nat × Record) → Except Ending Unit
  | line :: lines, (number, record) :: copy =>
      let refusal := "the log's entry is not flat line " ++ toString number ++
        "'s record as stored: refusing to resume"
      if line.capsuleId ≠ record.capsuleId then .error (.refused [number] refusal)
      else
        match artifacts.get store line.capsuleId with
        | .error _ => .error (.raised ⟨.store, "artifact store", 0, line.capsuleId⟩)
        | .ok held =>
            match sameRecord packages held record with
            | .error e => .error (.raised e)
            | .ok false => .error (.refused [number] refusal)
            | .ok true => checkResumed store lines copy
  | _, _ => .ok ()

/-- Put every record. -/
def putEach (budget : Budget) (store : α) : List (Nat × Record) → Except Ending Budget × α
  | [] => (.ok budget, store)
  | (number, record) :: rest =>
      match budget.spend with
      | none => (.error .crashed, store)
      | some budget =>
          match artifacts.put store record with
          | .error _ =>
              (.error (.raised ⟨.store, "artifact store", number, record.capsuleId⟩), store)
          | .ok store => putEach budget store rest

/-- The two writes of a line, the second of which may not be made. -/
def commitRecord (budget : Budget) (site : Site α β) (record : Record) (line : Dict) :
    Except Ending Budget × Site α β :=
  match budget.spend with
  | none => (.error .crashed, site)
  | some budget =>
      let run := commit (importConfig indexer) artifacts log site record.capsuleId record line none
        (isPadding line)
      match budget.spend with
      | none =>
          match run .crash with
          | (.raised e, site) => (.error (.raised e), site)
          | (_, site) => (.error .crashed, site)
      | some budget =>
          match run .none with
          | (.raised e, site) => (.error (.raised e), site)
          | (_, site) => (.ok budget, site)

/-- Append the entry of every record.  A record of a flat ledger is the text of an object. -/
def commitEach (budget : Budget) (site : Site α β) : List (Nat × Record) →
    Except Ending Budget × Site α β
  | [] => (.ok budget, site)
  | (_, record) :: rest =>
      match Python.decodeStrictJson packages.stores.json record.capsule with
      | .error why => (.error (.raised ⟨.value, why, 0, ""⟩), site)
      | .ok value =>
          match checkNotStale log site with
          | .error e => (.error (.raised e), site)
          | .ok () =>
              match commitRecord indexer artifacts log budget site record (value.dict?.getD []) with
              | (.error ending, site) => (.error ending, site)
              | (.ok budget, site) => commitEach budget site rest

/-- Open the stores that an import has written. -/
def reopen (copied resumed : Nat) (skipped : List (String × Nat)) (site : Site α β) : Ending :=
  if site.ledger.entries ≠ copied then
    .refused [] ("the log holds " ++ toString site.ledger.entries ++
      " entries after the import, the flat ledger " ++ toString copied ++ " records")
  else
    match openStores packages.stores (importConfig indexer) artifacts log site.stores with
    | .error e => .raised e
    | .ok (ledger, _) => .done ledger ⟨ledger.entries, resumed, skipped, ledger.chainHead⟩

/-- Write what the log does not hold yet. -/
def writeRest (budget : Budget) (copy : List (Nat × Record)) (skipped : List (String × Nat))
    (site : Site α β) : Ending × Stores α β :=
  let rest := copy.drop site.ledger.entries
  match putEach artifacts budget site.stores.artifacts rest with
  | (.error ending, store) => (ending, { site.stores with artifacts := store })
  | (.ok budget, store) =>
      match commitEach packages indexer artifacts log budget
          { site with stores.artifacts := store } rest with
      | (.error ending, site) => (ending, site.stores)
      | (.ok _, written) =>
          (reopen packages indexer artifacts log copy.length site.ledger.entries skipped written,
            written.stores)

/-- The second half of `import_flat`. -/
def importRecords (budget : Budget) (copy : List (Nat × Record)) (skipped : List (String × Nat))
    (stores : Stores α β) : Ending × Stores α β :=
  match openStores packages.stores (importConfig indexer) artifacts log stores with
  | .error e => (.raised e, stores)
  | .ok (ledger, _) =>
      if copy.length < ledger.entries then
        (.refused [] ("the log holds " ++ toString ledger.entries ++ " entries, the flat ledger " ++
          toString copy.length ++ " records: refusing to resume"), stores)
      else
        match checkResumed packages artifacts stores.artifacts ledger.lines copy with
        | .error ending => (ending, stores)
        | .ok () =>
            writeRest packages indexer artifacts log budget copy skipped ⟨ledger, stores, [], true⟩

/-- `import_flat` -/
def importFlat (budget : Budget) (file : Option File) (stores : Stores α β) : Ending × Stores α β :=
  match file with
  | none => (.raised ⟨.value, "no flat ledger", 0, ""⟩, stores)
  | some file =>
      match select packages file with
      | .error why => (.raised ⟨.value, why, 0, ""⟩, stores)
      | .ok selection =>
          if selection.refused.isEmpty then
            importRecords packages indexer artifacts log budget selection.copy selection.skipped stores
          else
            (.refused (selection.refused.map Prod.fst) "cannot be store records, nothing was written",
              stores)

end

end StoreLedger
end CapsuleEmit
