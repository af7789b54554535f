import CapsuleEmit.ArtifactStore.Rows
import CapsuleEmit.Foundation.Tables

namespace CapsuleEmit
namespace ArtifactStore

/-!
# The SQLite store

Five tables hold the records and the index of every namespace in a file: one
row for each record, one for each original, one for the declared paths of a
namespace, one for each indexed record under the next sequence number, and one
for each value at a declared path, kept as its SHA-256.

Every operation runs in a transaction: when it fails, the tables are as they
were before.  A statement that breaks a constraint fails alone, so a put that
finds its key taken goes on inside its transaction and reads what is there.
The times of the rows come from the clock and are an argument.
-/

/-! ## Tables -/

/-- A row of `capsule_store_capsules`. -/
structure CapsuleRow where
  ns : String
  capsuleId : String
  capsuleBytes : Bytes
  producerEnvelope : Bytes
  recordSha256 : String
  createdAt : String

/-- A row of `capsule_store_artifacts`. -/
structure ArtifactRow where
  ns : String
  capsuleId : String
  name : String
  digestField : String
  contentBytes : Option Bytes
  contentSha256 : String
  retentionState : String
  purgedAt : Option String

/-- A row of `capsule_store_index_paths`. -/
structure PathsRow where
  ns : String
  paths : String

/-- A row of `capsule_store_index_records`. -/
structure IndexedRow where
  seq : Nat
  ns : String
  capsuleId : String
  ts : Option Int

/-- A row of `capsule_store_index`, which is all key. -/
structure EntryRow where
  ns : String
  path : String
  valueSha256 : String
  seq : Nat
  deriving DecidableEq

/-- The tables of a file.  Those of the index may not be there yet; `sequence`
is the largest sequence number ever given. -/
structure Database where
  indexTables : Bool
  capsules : List CapsuleRow
  artifacts : List ArtifactRow
  indexPaths : List PathsRow
  indexRecords : List IndexedRow
  index : List EntryRow
  sequence : Nat

/-- The row constraint of an original. -/
def ArtifactRow.check (row : ArtifactRow) : Bool :=
  (row.retentionState = "present" && row.contentBytes.isSome && row.contentSha256.length = 64 &&
      row.purgedAt.isNone) ||
    (row.retentionState = "purged" && row.contentBytes.isNone && row.contentSha256.length = 64 &&
      row.purgedAt.isSome) ||
    (row.retentionState = "never_retained" && row.contentBytes.isNone && row.contentSha256 = "" &&
      row.purgedAt.isNone)

/-- What a row of an original holds of it. -/
def ArtifactRow.stored (row : ArtifactRow) : StoredArtifact :=
  ⟨row.name, row.digestField, row.contentBytes, row.contentSha256, row.retentionState⟩

def uniqueFailed (columns : String) : ArtifactError :=
  .storage ("UNIQUE constraint failed: " ++ columns)

/-! ## Declared paths as text -/

/-- The stored form of a normalized path list. -/
def encodePaths (paths : List String) : String :=
  "[" ++ ",".intercalate (paths.map (fun p => "\"" ++ p ++ "\"")) ++ "]"

section

variable (packages : Packages)

/-- Reads a stored path list; what is not a valid declaration is corrupt. -/
def decodePaths (stored : String) : Result (List String) :=
  match (packages.json.ofText (utf8 stored)).bind Json.asArray with
  | none => .error (.corrupt ("stored index paths: " ++ packages.jsonError (utf8 stored)))
  | some items =>
      match items.mapM Json.asStr with
      | none => .error (.corrupt ("stored index paths: " ++ packages.jsonError (utf8 stored)))
      | some paths =>
          match normalizePaths packages paths with
          | .ok normalized => .ok normalized
          | .error (.invalid why) => .error (.corrupt ("stored index paths: invalid: " ++ why))
          | .error e => .error e

namespace Sql

/-! ## Transactions -/

/-- Run an operation on the tables; when it fails they stay as they were. -/
def withTx {α : Type} (db : Database) (run : Database → Result (α × Database)) :
    Result α × Database :=
  match run db with
  | .ok (value, db) => (.ok value, db)
  | .error e => (.error e, db)

/-! ## The index tables -/

/-- The key stored for a value. -/
def valueKey (value : String) : String := sha256Hex packages (utf8 value)

/-- The declared paths of a namespace. -/
def declared (ns : String) (db : Database) : Result (Option (List String)) :=
  if db.indexTables then
    match db.indexPaths.find? (fun row => row.ns = ns) with
    | none => .ok none
    | some row => (decodePaths packages row.paths).map some
  else .ok none

/-- Insert the row of one value. -/
def insertEntry (ns : String) (seq : Nat) (db : Database) (entry : String × String) :
    Result Database :=
  match Tables.insert id (⟨ns, entry.1, valueKey packages entry.2, seq⟩ : EntryRow) db.index with
  | some index => .ok { db with index := index }
  | none => .error (uniqueFailed ("capsule_store_index.namespace, capsule_store_index.path, " ++
      "capsule_store_index.value_sha256, capsule_store_index.seq"))

/-- Index one record under the next sequence number, unless it is indexed. -/
def add (ns : String) (paths : List String) (db : Database) (id : String) (capsule : Bytes) :
    Result Database := do
  let extracted ← extract packages capsule paths
  let seq := db.sequence + 1
  match Tables.insert (fun row => (row.ns, row.capsuleId)) (⟨seq, ns, id, extracted.ts⟩ : IndexedRow)
      db.indexRecords with
  | none => .ok db
  | some records =>
      extracted.entries.foldlM (insertEntry packages ns seq)
        { db with indexRecords := records, sequence := seq }

/-- Index a record that was just inserted, when paths are declared. -/
def indexInserted (ns : String) (db : Database) (id : String) (capsule : Bytes) : Result Database := do
  match ← declared packages ns db with
  | some paths => add packages ns paths db id capsule
  | none => .ok db

/-- The order of creation of two records. -/
def createdBefore (x y : CapsuleRow) : Bool :=
  utf8 x.createdAt < utf8 y.createdAt ||
    (utf8 x.createdAt = utf8 y.createdAt && utf8 x.capsuleId ≤ utf8 y.capsuleId)

/-- Index the stored records in creation order.  One whose Capsule no longer
decodes is left out. -/
def backfill (ns : String) (paths : List String) (db : Database) : Result Database :=
  ((db.capsules.filter (fun row => row.ns = ns)).insertionSort
      (fun x y => createdBefore x y = true)).foldlM
    (fun db row =>
      match add packages ns paths db row.capsuleId row.capsuleBytes with
      | .ok db => .ok db
      | .error (.corrupt _) => .ok db
      | .error e => .error e) db

/-- Declare paths for a namespace and index its records. -/
def declare (ns : String) (paths : List String) (db : Database) : Result Database := do
  let normalized ← normalizePaths packages paths
  match ← declared packages ns db with
  | some current => if current = normalized then .ok db else .error .conflict
  | none =>
      match Tables.insert PathsRow.ns ⟨ns, encodePaths normalized⟩ db.indexPaths with
      | none => .error (uniqueFailed "capsule_store_index_paths.namespace")
      | some rows => backfill packages ns normalized { db with indexPaths := rows }

/-- Provision the tables, then declare the paths of a namespace. -/
def initIndex (ns : String) (paths : List String) (db : Database) : Result Unit × Database :=
  match normalizePaths packages paths with
  | .error e => (.error e, db)
  | .ok _ => withTx { db with indexTables := true } (fun db =>
      (declare packages ns paths db).map (fun db => ((), db)))

/-- The rows of the records that hold every value a query asks for: all, or
those joined with the rows of its first value and tested for the others. -/
def matching (ns : String) (c : Checked) (db : Database) : List IndexedRow :=
  match c.filters with
  | [] => db.indexRecords.filter (fun r => r.ns = ns && c.after < r.seq)
  | first :: rest =>
      (db.index.filter (fun i => i.ns = ns && i.path = first.1 &&
          i.valueSha256 = valueKey packages first.2 && c.after < i.seq)).flatMap
        (fun i0 => db.indexRecords.filter (fun r => r.seq = i0.seq &&
          rest.all (fun entry => db.index.any (fun i => i.ns = r.ns && i.path = entry.1 &&
            i.valueSha256 = valueKey packages entry.2 && i.seq = r.seq))))

/-- The rows a query selects. -/
def selected (ns : String) (c : Checked) (db : Database) : List IndexedRow :=
  match c.since with
  | none => matching packages ns c db
  | some since => (matching packages ns c db).filter (fun r => r.ts.any (fun ts => since ≤ ts))

/-- Fill one page from the rows; `last` is the number of the last one taken. -/
def pageOf (limit : Int) : List IndexedRow → List String → Nat → Page
  | [], taken, _ => ⟨taken, none⟩
  | row :: rows, taken, last =>
      if (taken.length : Int) = limit then ⟨taken, some (toString last)⟩
      else pageOf limit rows (taken ++ [row.capsuleId]) row.seq

/-- Answers a query; at most one row more than the limit is read. -/
def find (ns : String) (query : Query) (db : Database) : Result Page := do
  match ← declared packages ns db with
  | none => .error (.invalid "no index paths declared")
  | some paths =>
      let c ← check packages query paths
      .ok (pageOf c.limit
        ((Tables.orderBy IndexedRow.seq (selected packages ns c db)).take (c.limit + 1).toNat) [] 0)

/-! ## Records -/

/-- Insert the row of one original. -/
def insertArtifact (ns capsuleId : String) (db : Database) (a : Artifact) : Result Database := do
  let row : ArtifactRow :=
    ⟨ns, capsuleId, a.name, a.binding, a.content, a.contentSha256, a.state.asStr, none⟩
  ensure row.check (.storage "CHECK constraint failed: capsule_store_artifacts")
  match Tables.insert (fun row => (row.ns, row.capsuleId, row.name)) row db.artifacts with
  | none => .error (uniqueFailed ("capsule_store_artifacts.namespace, " ++
      "capsule_store_artifacts.capsule_id, capsule_store_artifacts.name"))
  | some rows => do
      ensure (db.capsules.any (fun capsule => capsule.ns = ns && capsule.capsuleId = capsuleId))
        (.storage "FOREIGN KEY constraint failed")
      .ok { db with artifacts := rows }

/-- The rows of the originals of a record, by name. -/
def artifactRows (ns id : String) (db : Database) : List ArtifactRow :=
  (db.artifacts.filter (fun row => row.ns = ns && row.capsuleId = id)).insertionSort
    (fun x y => utf8 x.name ≤ utf8 y.name)

variable (trusted : List Bytes)

/-- Reads a record from its rows and verifies it. -/
def readOn (ns : String) (db : Database) (id : String) : Result Record := do
  ensure (validId id) (.invalid "capsule id")
  match db.capsules.find? (fun row => row.ns = ns && row.capsuleId = id) with
  | none => .error .notFound
  | some row =>
      readRows packages trusted id row.capsuleBytes row.producerEnvelope
        ((artifactRows ns id db).map ArtifactRow.stored) row.recordSha256

/-- Admits a record inside a transaction. -/
def putOn (ns now : String) (record : Record) (db : Database) : Result Database := do
  let prepared ← acceptRecord packages trusted record
  let checksum := storageChecksum packages prepared
  let row : CapsuleRow :=
    ⟨ns, prepared.capsuleId, prepared.capsule, prepared.producerEnvelope, checksum, now⟩
  match Tables.insert (fun row => (row.ns, row.capsuleId)) row db.capsules with
  | none => do
      let existing ← readOn packages trusted ns db prepared.capsuleId
      ensure (storageChecksum packages existing = checksum) .conflict
      ensure (!hasPurged existing) .purged
      .ok db
  | some rows => do
      let db ← prepared.artifacts.foldlM (insertArtifact ns prepared.capsuleId)
        { db with capsules := rows }
      indexInserted packages ns db prepared.capsuleId prepared.capsule

def put (ns now : String) (record : Record) (db : Database) : Result Unit × Database :=
  withTx db (fun db => (putOn packages trusted ns now record db).map (fun db => ((), db)))

def get (ns id : String) (db : Database) : Result Record :=
  if validId id then
    (withTx db (fun db => (readOn packages trusted ns db id).map (fun record => (record, db)))).1
  else .error (.invalid "capsule id")

/-- The row of a present original, purged. -/
def purgeRow (now : String) (row : ArtifactRow) : ArtifactRow :=
  { row with contentBytes := none, retentionState := "purged", purgedAt := some now }

/-- Erases the present originals of a record that is there. -/
def purgeOn (ns now id : String) (db : Database) : Result Database := do
  ensure (db.capsules.any (fun row => row.ns = ns && row.capsuleId = id)) .notFound
  let target : ArtifactRow → Bool := fun row =>
    row.ns = ns && row.capsuleId = id && row.retentionState = "present"
  ensure ((db.artifacts.filter target).all (fun row => (purgeRow now row).check))
    (.storage "CHECK constraint failed: capsule_store_artifacts")
  .ok { db with
    artifacts := db.artifacts.map (fun row => if target row then purgeRow now row else row) }

def purge (ns now id : String) (db : Database) : Result Unit × Database :=
  if validId id then
    withTx db (fun db => (purgeOn ns now id db).map (fun db => ((), db)))
  else (.error (.invalid "capsule id"), db)

end Sql

end

end ArtifactStore
end CapsuleEmit
