import CapsuleEmit.ArtifactStore.SqlRows

namespace CapsuleEmit
namespace ArtifactStore
namespace Sql

/-!
# Rows that mirror an in-memory store

The rows of a namespace mirror an in-memory store with the same declared
paths: the rows of a record are its originals in any order, and the indexed
records stand in the order of their numbers.  Every call keeps that, and is
answered as the in-memory store answers it.
-/

variable {packages : Packages} {trusted : List Bytes} {ns : String}

/-! ## Stored paths read back -/

/-- The compact text of a path list is read back.  No byte of a path needs an escape. -/
def PlainPaths (packages : Packages) (paths : List String) : Prop :=
  packages.json.ofText (utf8 (encodePaths paths)) = some (.array (paths.map Json.ofString))

/-- A normalized path list is normalized to itself. -/
theorem normalizePaths_normalized {paths normalized : List String}
    (ok : normalizePaths packages paths = .ok normalized) :
    normalizePaths packages normalized = .ok normalized := by
  obtain ⟨_, bound, ok⟩ := bind_eq_ok_iff.mp ok
  obtain ⟨_, checked, same⟩ := bind_eq_ok_iff.mp ok
  cases same
  have total : Std.Total (fun x y : String => utf8 x ≤ utf8 y) :=
    ⟨fun x y => List.le_total (utf8 x) (utf8 y)⟩
  have trans : IsTrans String (fun x y : String => utf8 x ≤ utf8 y) := ⟨fun _ _ _ => List.le_trans⟩
  have sorted := List.pairwise_insertionSort (fun x y : String => utf8 x ≤ utf8 y) paths
  rw [ensure_eq_ok_iff] at bound
  have size : decide ((paths.insertionSort (fun x y => utf8 x ≤ utf8 y)).length ≤ maxIndexPaths) =
      true := by
    rwa [List.length_insertionSort]
  simp only [normalizePaths, size, ensure_true, ok_bind, sorted.insertionSort_eq, checked]

theorem decodePaths_encodePaths {paths normalized : List String}
    (plain : PlainPaths packages normalized)
    (ok : normalizePaths packages paths = .ok normalized) :
    decodePaths packages (encodePaths normalized) = .ok normalized := by
  have again := normalizePaths_normalized ok
  have read : (normalized.map Json.ofString).mapM Json.asStr = some normalized := by
    clear plain ok again
    induction normalized with
    | nil => rfl
    | cons path paths ih =>
        rw [List.map_cons, List.mapM_cons, ih, Json.asStr_ofString]
        rfl
  rw [decodePaths, plain]
  simp only [Option.bind_some, Json.asArray, read, again]

/-! ## Rows that mirror an in-memory store -/

/-- The row of an indexed record under a number. -/
def indexedRow (packages : Packages) (ns : String) (paths : List String)
    (numbered : Nat × (String × Bytes)) : IndexedRow :=
  ⟨numbered.1, ns, numbered.2.1, (extracted packages paths numbered.2).ts⟩

/-- The rows of a record of a namespace. -/
def capsuleRows (ns id : String) (db : Database) : List CapsuleRow :=
  (db.capsules.filter (fun row => row.ns = ns)).filter (fun row => row.capsuleId = id)

/-- The rows of the originals of a record of a namespace. -/
def originalRows (ns id : String) (db : Database) : List ArtifactRow :=
  (db.artifacts.filter (fun row => row.ns = ns)).filter (fun row => row.capsuleId = id)

/-- What a record's own row holds. -/
def CapsuleRow.held (row : CapsuleRow) : Bytes × Bytes × String :=
  (row.capsuleBytes, row.producerEnvelope, row.recordSha256)

/-- What the row of a record has to hold. -/
def heldOf (packages : Packages) (record : Record) : Bytes × Bytes × String :=
  (record.capsule, record.producerEnvelope, storageChecksum packages record)

/-- The rows of a namespace hold the records of an in-memory store: their
Capsules, their originals in any order, and, under ascending numbers, their
index entries. -/
structure Mirrors (packages : Packages) (trusted : List Bytes) (ns : String) (roll : Roll)
    (numbered : List (Nat × (String × Bytes))) (db : Database) (store : MemoryStore) : Prop where
  tables : db.indexTables = true
  paths : db.indexPaths.find? (fun row => row.ns = ns) = some ⟨ns, encodePaths roll.paths⟩
  decodes : decodePaths packages (encodePaths roll.paths) = .ok roll.paths
  capsules : ∀ id, (capsuleRows ns id db).map CapsuleRow.held =
    (store.byId id).toList.map (heldOf packages)
  artifacts : ∀ id, ((originalRows ns id db).map ArtifactRow.stored).Perm
    ((store.byId id).toList.flatMap (fun record => record.artifacts.map Artifact.stored))
  admitted : ∀ id record, store.byId id = some record →
    record.capsuleId = id ∧ Admitted packages trusted record
  indexes : Indexes packages roll store.lookup
  listed : ∀ id, id ∈ roll.records.map Prod.fst ↔ (store.byId id).isSome = true
  records : db.indexRecords.filter (fun row => row.ns = ns) =
    numbered.map (indexedRow packages ns roll.paths)
  numbers : numbered.map Prod.snd = roll.records
  ascending : numbered.Pairwise (fun x y => x.1 < y.1)
  entries : ∀ row : EntryRow, row.ns = ns → (row ∈ db.index ↔ ∃ n ∈ numbered, row.seq = n.1 ∧
    ∃ value, (row.path, value) ∈ (extracted packages roll.paths n.2).entries ∧
      row.valueSha256 = valueKey packages value)
  wellFormed : WellFormed db

section Mirrored

variable {roll : Roll} {numbered : List (Nat × (String × Bytes))} {db db' : Database}
  {store : MemoryStore}

/-- What other namespaces do leaves the rows of this one a mirror. -/
theorem Mirrors.of_sameRows (mirrors : Mirrors packages trusted ns roll numbered db store)
    (same : SameRows ns db db') : Mirrors packages trusted ns roll numbered db' store where
  tables := same.tables mirrors.tables
  paths := same.paths.trans mirrors.paths
  decodes := mirrors.decodes
  capsules := by
    intro id
    rw [capsuleRows, same.capsules]
    exact mirrors.capsules id
  artifacts := by
    intro id
    rw [originalRows, same.artifacts]
    exact mirrors.artifacts id
  admitted := mirrors.admitted
  indexes := mirrors.indexes
  listed := mirrors.listed
  records := same.records.trans mirrors.records
  numbers := mirrors.numbers
  ascending := mirrors.ascending
  entries := fun row own => (same.index row own).trans (mirrors.entries row own)
  wellFormed := same.wellFormed mirrors.wellFormed

theorem declared_of_row {paths : List String} (tables : db.indexTables = true)
    (row : db.indexPaths.find? (fun row => row.ns = ns) = some ⟨ns, encodePaths paths⟩)
    (decodes : decodePaths packages (encodePaths paths) = .ok paths) :
    declared packages ns db = .ok (some paths) := by
  rw [declared, if_pos tables, row]
  simp only [decodes]
  rfl

/-- The numbers of the namespace were given. -/
theorem Mirrors.given (mirrors : Mirrors packages trusted ns roll numbered db store)
    {n : Nat × (String × Bytes)} (member : n ∈ numbered) : 1 ≤ n.1 ∧ n.1 ≤ db.sequence := by
  have row : indexedRow packages ns roll.paths n ∈
      db.indexRecords.filter (fun row => row.ns = ns) := by
    rw [mirrors.records]
    exact List.mem_map_of_mem member
  exact mirrors.wellFormed.given _ (List.mem_filter.mp row).1

/-! ## Reading a record -/

theorem filter_both {ρ : Type} (p q : ρ → Bool) (rows : List ρ) :
    rows.filter (fun row => p row && q row) = (rows.filter p).filter q := by
  rw [List.filter_filter]
  congr 1
  funext row
  exact Bool.and_comm _ _

/-- The row of a record that is mirrored. -/
theorem Mirrors.find_capsule (mirrors : Mirrors packages trusted ns roll numbered db store)
    (id : String) :
    (db.capsules.find? (fun row => row.ns = ns && row.capsuleId = id)).map CapsuleRow.held =
      (store.byId id).map (heldOf packages) := by
  have rows := congrArg List.head? (mirrors.capsules id)
  rw [List.head?_map, List.head?_map, Option.head?_toList] at rows
  rw [← rows, capsuleRows, ← filter_both, List.head?_filter]

theorem Mirrors.any_capsule (mirrors : Mirrors packages trusted ns roll numbered db store)
    (id : String) :
    db.capsules.any (fun row => row.ns = ns && row.capsuleId = id) = (store.byId id).isSome := by
  have found := congrArg Option.isSome (mirrors.find_capsule id)
  rw [Option.isSome_map, Option.isSome_map] at found
  rw [← found, List.isSome_find?]

/-- Rows that hold some originals in another order are those of a reordering. -/
theorem exists_reordering {rows : List StoredArtifact} {artifacts : List Artifact}
    (perm : rows.Perm (artifacts.map Artifact.stored)) :
    ∃ reordered : List Artifact, rows = reordered.map Artifact.stored ∧
      reordered.Perm artifacts := by
  have images : (rows.map id).Perm (artifacts.map Artifact.stored) := by
    rwa [List.map_id]
  obtain ⟨reordered, order, matched⟩ := exists_forall₂_of_map_perm
    (R := fun row a => row = Artifact.stored a) images (fun _ _ _ _ same => same)
  refine ⟨reordered, ?_, order⟩
  have same := @map_eq_of_forall₂ _ _ _ _ id Artifact.stored (fun _ _ same => same) _ _ matched
  rwa [List.map_id] at same

/-- A read gives the mirrored record, with its originals by name. -/
theorem Mirrors.readOn_eq (mirrors : Mirrors packages trusted ns roll numbered db store)
    {id : String} (valid : validId id = true) :
    match store.byId id with
    | none => readOn packages trusted ns db id = .error .notFound
    | some record => ∃ found, readOn packages trusted ns db id = .ok found ∧
        SameRecord found record := by
  have capsule := mirrors.find_capsule id
  have artifacts := mirrors.artifacts id
  cases held : store.byId id with
  | none =>
      rw [held, Option.map_none, Option.map_eq_none_iff] at capsule
      simp only [readOn, valid, ensure_true, ok_bind, capsule]
  | some record =>
      rw [held, Option.map_some] at capsule
      obtain ⟨row, found, holds⟩ := Option.map_eq_some_iff.mp capsule
      obtain ⟨bytes, rest⟩ := Prod.mk.inj holds
      obtain ⟨envelope, sum⟩ := Prod.mk.inj rest
      obtain ⟨named, admitted⟩ := mirrors.admitted id record held
      have sorted : ((artifactRows ns id db).map ArtifactRow.stored).Perm
          (record.artifacts.map Artifact.stored) := by
        rw [held, Option.toList_some, List.flatMap_singleton] at artifacts
        refine List.Perm.trans (List.Perm.map _ ?_) artifacts
        rw [artifactRows, filter_both]
        exact List.perm_insertionSort _ _
      obtain ⟨reordered, rows, order⟩ := exists_reordering sorted
      have same : SameRecord ⟨id, record.capsule, record.producerEnvelope, reordered⟩ record :=
        ⟨named.symm, rfl, rfl, order⟩
      have verified := verify_of_sameRecord same.symm admitted.verified
      have sums := @storageChecksum_of_sameRecord packages _ _ same (nodup_of_verify verified)
      obtain ⟨results, verified⟩ := succeeds_iff.mp verified
      refine ⟨_, ?_, same⟩
      simp only [readOn, valid, ensure_true, ok_bind, found, readRows, bytes, envelope, sum, rows]
      rw [@fromRows_stored packages ⟨id, record.capsule, record.producerEnvelope, reordered⟩ _ sums,
        ok_bind, verified, ok_bind]

/-! ## Putting a record -/

/-- A put under a Capsule ID that is there is answered by what is there. -/
theorem Mirrors.putOn_known (mirrors : Mirrors packages trusted ns roll numbered db store)
    {record prepared existing : Record} (now : String)
    (admission : acceptRecord packages trusted record = .ok prepared)
    (held : store.byId prepared.capsuleId = some existing) :
    putOn packages trusted ns now record db =
      if storageChecksum packages existing ≠ storageChecksum packages prepared then .error .conflict
      else if hasPurged existing then .error .purged else .ok db := by
  have valid : validId prepared.capsuleId = true := validId_of_verify (acceptRecord_ok admission).2.1
  have any := mirrors.any_capsule prepared.capsuleId
  rw [held, Option.isSome_some, List.any_eq_true] at any
  obtain ⟨row, member, named⟩ := any
  rw [Bool.and_eq_true, decide_eq_true_eq, decide_eq_true_eq] at named
  have read := mirrors.readOn_eq valid
  rw [held] at read
  obtain ⟨found, read, same⟩ := read
  have sums : storageChecksum packages found = storageChecksum packages existing :=
    storageChecksum_of_sameRecord same (nodup_of_verify (verify_of_sameRecord same.symm
      (mirrors.admitted _ _ held).2.verified))
  have purges : hasPurged found = hasPurged existing := by
    rw [Bool.eq_iff_iff, hasPurged, hasPurged, List.any_eq_true, List.any_eq_true]
    constructor <;> rintro ⟨a, inside, gone⟩
    · exact ⟨a, same.artifacts.mem_iff.mp inside, gone⟩
    · exact ⟨a, same.artifacts.mem_iff.mpr inside, gone⟩
  have taken := @Tables.insert_of_taken _ _ _ (fun row : CapsuleRow => (row.ns, row.capsuleId))
    ⟨ns, prepared.capsuleId, prepared.capsule, prepared.producerEnvelope,
      storageChecksum packages prepared, now⟩ db.capsules row member (by simp [named])
  simp only [putOn, admission, ok_bind, taken, read, sums, purges]
  by_cases same : storageChecksum packages existing = storageChecksum packages prepared
  · rw [if_neg (not_not.mpr same)]
    cases gone : hasPurged existing <;> simp [same]
  · simp [same]

/-- Indexing a record whose values have distinct keys adds its rows under the
next number. -/
theorem add_eq {paths : List String} {id : String} {capsule : Bytes} {read : Extracted}
    (reads : extract packages capsule paths = .ok read)
    (fresh : ∀ row ∈ db.indexRecords, row.ns = ns → row.capsuleId ≠ id)
    (keys : (read.entries.map (fun entry => (entry.1, valueKey packages entry.2))).Nodup)
    (below : ∀ row ∈ db.index, row.ns = ns → row.seq ≤ db.sequence) :
    add packages ns paths db id capsule = .ok { db with
      indexRecords := db.indexRecords ++ [⟨db.sequence + 1, ns, id, read.ts⟩]
      sequence := db.sequence + 1
      index := db.index ++ read.entries.map
        (fun entry => ⟨ns, entry.1, valueKey packages entry.2, db.sequence + 1⟩) } := by
  have inserted := @Tables.insert_of_fresh _ _ _ (fun row : IndexedRow => (row.ns, row.capsuleId))
    ⟨db.sequence + 1, ns, id, read.ts⟩ db.indexRecords (fun row member same =>
      fresh row member (Prod.mk.inj same).1 (Prod.mk.inj same).2)
  simp only [add, reads, ok_bind, inserted]
  refine insertEntries_eq keys (fun row member entry _ same => ?_)
  have bound := below row member (by rw [← same])
  rw [← same] at bound
  exact absurd bound (Nat.not_succ_le_self _)

/-- The rows of a namespace do not change when rows of it are added for another key. -/
theorem filter_concat_own {ρ : Type} {own : ρ → Bool} {row : ρ} (mine : own row = true)
    (rows : List ρ) : (rows ++ [row]).filter own = rows.filter own ++ [row] := by
  rw [List.filter_append, List.filter_singleton, mine]
  simp

/-- The values a record contributes to an index. -/
def valuesAt (packages : Packages) (paths : List String) (capsule : Bytes) : List Bytes :=
  match extract packages capsule paths with
  | .ok read => read.entries.map (fun entry => utf8 entry.2)
  | .error _ => []

theorem nodup_keys {paths : List String} {capsule : Bytes} {read : Extracted}
    (distinct : paths.Nodup) (reads : extract packages capsule paths = .ok read)
    (free : CollisionFree packages (valuesAt packages paths capsule)) :
    (read.entries.map (fun entry => (entry.1, valueKey packages entry.2))).Nodup := by
  refine (nodup_entries distinct reads).map_on (fun x inX y inY same => ?_)
  obtain ⟨path, key⟩ := Prod.mk.inj same
  rw [valuesAt, reads] at free
  have value := utf8_injective (free _ (List.mem_map_of_mem inX) _ (List.mem_map_of_mem inY) key)
  exact Prod.ext path value

/-- The tables after a put of a record with a new id. -/
def inserted (packages : Packages) (ns now : String) (prepared : Record) (read : Extracted)
    (db : Database) : Database :=
  { db with
    capsules := db.capsules ++ [⟨ns, prepared.capsuleId, prepared.capsule,
      prepared.producerEnvelope, storageChecksum packages prepared, now⟩]
    artifacts := db.artifacts ++ prepared.artifacts.map (rowOf ns prepared.capsuleId)
    indexRecords := db.indexRecords ++ [⟨db.sequence + 1, ns, prepared.capsuleId, read.ts⟩]
    sequence := db.sequence + 1
    index := db.index ++ read.entries.map
      (fun entry => ⟨ns, entry.1, valueKey packages entry.2, db.sequence + 1⟩) }

/-- A put under a new Capsule ID inserts the rows of the record. -/
theorem Mirrors.putOn_new (lawful : packages.Lawful)
    (mirrors : Mirrors packages trusted ns roll numbered db store)
    {record prepared : Record} (now : String)
    (admission : acceptRecord packages trusted record = .ok prepared)
    (absent : store.byId prepared.capsuleId = none) {read : Extracted}
    (reads : extract packages prepared.capsule roll.paths = .ok read)
    (free : CollisionFree packages (valuesAt packages roll.paths prepared.capsule)) :
    putOn packages trusted ns now record db = .ok (inserted packages ns now prepared read db) := by
  obtain ⟨_, verified, settled, kept⟩ := acceptRecord_ok admission
  have any := mirrors.any_capsule prepared.capsuleId
  rw [absent, Option.isSome_none, List.any_eq_false] at any
  have capsuleInserted := @Tables.insert_of_fresh _ _ _
    (fun row : CapsuleRow => (row.ns, row.capsuleId))
    ⟨ns, prepared.capsuleId, prepared.capsule, prepared.producerEnvelope,
      storageChecksum packages prepared, now⟩ db.capsules (fun row member same =>
        any row member (by
          rw [Bool.and_eq_true, decide_eq_true_eq, decide_eq_true_eq]
          exact Prod.mk.inj same))
  have originals := mirrors.artifacts prepared.capsuleId
  rw [absent, Option.toList_none, List.flatMap_nil, List.perm_nil, List.map_eq_nil_iff] at originals
  have checks : ∀ a ∈ prepared.artifacts, (rowOf ns prepared.capsuleId a).check = true := by
    intro a member
    obtain ⟨_, _, ok⟩ := verifyState_of_verify verified a member
    have none := List.any_eq_false.mp kept a member
    exact check_rowOf lawful (settled a member) (by simpa using none) ok _
  have artifactsInserted := @insertArtifacts_eq ns { db with
      capsules := db.capsules ++ [⟨ns, prepared.capsuleId, prepared.capsule,
        prepared.producerEnvelope, storageChecksum packages prepared, now⟩] }
    prepared.capsuleId prepared.artifacts checks (nodup_of_verify verified)
    (fun row member a _ own same _ => by
      have inside : row ∈ originalRows ns prepared.capsuleId db :=
        List.mem_filter.mpr ⟨List.mem_filter.mpr ⟨member, by simpa using own⟩, by simpa using same⟩
      rw [originals] at inside
      cases inside)
    (by simp)
  have paths : declared packages ns { db with
      capsules := db.capsules ++ [⟨ns, prepared.capsuleId, prepared.capsule,
        prepared.producerEnvelope, storageChecksum packages prepared, now⟩]
      artifacts := db.artifacts ++ prepared.artifacts.map (rowOf ns prepared.capsuleId) } =
      .ok (some roll.paths) :=
    declared_of_row mirrors.tables mirrors.paths mirrors.decodes
  have unlisted : ∀ row ∈ db.indexRecords, row.ns = ns → row.capsuleId ≠ prepared.capsuleId := by
    intro row member own same
    have inside : row ∈ db.indexRecords.filter (fun row => row.ns = ns) :=
      List.mem_filter.mpr ⟨member, by simpa using own⟩
    rw [mirrors.records] at inside
    obtain ⟨n, among, rfl⟩ := List.mem_map.mp inside
    have known : prepared.capsuleId ∈ roll.records.map Prod.fst := by
      rw [← mirrors.numbers, ← same]
      exact List.mem_map_of_mem (List.mem_map_of_mem among)
    have some := (mirrors.listed _).mp known
    rw [absent] at some
    cases some
  have below : ∀ row ∈ db.index, row.ns = ns → row.seq ≤ db.sequence := by
    intro row member own
    obtain ⟨n, among, at_n, _⟩ := (mirrors.entries row own).mp member
    rw [at_n]
    exact (mirrors.given among).2
  simp only [putOn, admission, ok_bind, capsuleInserted, artifactsInserted, indexInserted, paths]
  exact add_eq reads unlisted (nodup_keys roll.pathsDistinct reads free) below

/-- The rows of the originals after an insert. -/
theorem originalRows_inserted (now : String) (prepared : Record) (read : Extracted) (id : String) :
    originalRows ns id (inserted packages ns now prepared read db) =
      originalRows ns id db ++
        if id = prepared.capsuleId then prepared.artifacts.map (rowOf ns id) else [] := by
  have own : (prepared.artifacts.map (rowOf ns prepared.capsuleId)).filter
      (fun row => row.ns = ns) = prepared.artifacts.map (rowOf ns prepared.capsuleId) := by
    refine List.filter_eq_self.mpr (fun row member => ?_)
    obtain ⟨a, _, rfl⟩ := List.mem_map.mp member
    simp [rowOf]
  rw [originalRows, originalRows, inserted, List.filter_append, List.filter_append, own]
  congr 1
  by_cases same : id = prepared.capsuleId
  · subst same
    rw [if_pos rfl]
    refine List.filter_eq_self.mpr (fun row member => ?_)
    obtain ⟨a, _, rfl⟩ := List.mem_map.mp member
    simp [rowOf]
  · rw [if_neg same]
    refine List.filter_eq_nil_iff.mpr (fun row member => ?_)
    obtain ⟨a, _, rfl⟩ := List.mem_map.mp member
    rw [decide_eq_true_eq]
    exact Ne.symm same

theorem capsuleRows_inserted (now : String) (prepared : Record) (read : Extracted) (id : String) :
    (capsuleRows ns id (inserted packages ns now prepared read db)).map CapsuleRow.held =
      (capsuleRows ns id db).map CapsuleRow.held ++
        if id = prepared.capsuleId then [heldOf packages prepared] else [] := by
  rw [capsuleRows, capsuleRows, inserted, filter_concat_own (by simp)]
  by_cases same : id = prepared.capsuleId
  · rw [filter_concat_own (by simp [same]), if_pos same, List.map_append]
    rfl
  · rw [filter_concat_other (by rw [decide_eq_false_iff_not]; exact Ne.symm same), if_neg same, List.append_nil]

/-- A well-formed file stays so when a record is indexed under the next number. -/
theorem WellFormed.inserted (wf : WellFormed db) {now : String} {prepared : Record}
    {read : Extracted}
    (keys : (read.entries.map (fun entry => (entry.1, valueKey packages entry.2))).Nodup)
    (below : ∀ row ∈ db.index, row.ns = ns → row.seq ≤ db.sequence) :
    WellFormed (inserted packages ns now prepared read db) where
  distinct := by
    rw [Sql.inserted, List.map_append, List.nodup_append]
    refine ⟨wf.distinct, List.nodup_singleton _, fun a inside b new same => ?_⟩
    obtain ⟨row, member, rfl⟩ := List.mem_map.mp inside
    have bound := (wf.given row member).2
    rw [List.map_singleton, List.mem_singleton] at new
    rw [same, new] at bound
    exact absurd bound (Nat.not_succ_le_self _)
  given := by
    intro row member
    rcases List.mem_append.mp member with member | single
    · have bounds := wf.given row member
      exact ⟨bounds.1, Nat.le_succ_of_le bounds.2⟩
    · rw [List.mem_singleton.mp single]
      exact ⟨Nat.succ_le_succ (Nat.zero_le _), Nat.le_refl _⟩
  entries := by
    refine List.nodup_append.mpr ⟨wf.entries, ?_, fun row inside other new same => ?_⟩
    · have rows : read.entries.map (fun entry =>
          (⟨ns, entry.1, valueKey packages entry.2, db.sequence + 1⟩ : EntryRow)) =
          (read.entries.map (fun entry => (entry.1, valueKey packages entry.2))).map
            (fun key => ⟨ns, key.1, key.2, db.sequence + 1⟩) := by
        rw [List.map_map]
        rfl
      rw [rows]
      refine keys.map (fun x y same => ?_)
      simp only [EntryRow.mk.injEq, true_and, and_true] at same
      exact Prod.ext same.1 same.2
    · obtain ⟨entry, _, rfl⟩ := List.mem_map.mp new
      have bound := below row inside (by rw [same])
      rw [same] at bound
      exact absurd bound (Nat.not_succ_le_self _)

/-- The inserted rows mirror the store with the record. -/
theorem Mirrors.inserted (mirrors : Mirrors packages trusted ns roll numbered db store)
    {record prepared : Record} (now : String)
    (admission : acceptRecord packages trusted record = .ok prepared)
    (absent : store.byId prepared.capsuleId = none) {read : Extracted}
    (reads : extract packages prepared.capsule roll.paths = .ok read)
    (free : CollisionFree packages (valuesAt packages roll.paths prepared.capsule))
    {lookup : MemoryIndex} (order : List String)
    (fresh : prepared.capsuleId ∉ roll.records.map Prod.fst)
    (indexes : Indexes packages (roll.enter prepared.capsuleId prepared.capsule fresh) lookup) :
    Mirrors packages trusted ns (roll.enter prepared.capsuleId prepared.capsule fresh)
      (numbered ++ [(db.sequence + 1, (prepared.capsuleId, prepared.capsule))])
      (inserted packages ns now prepared read db)
      ⟨Function.update store.byId prepared.capsuleId (some prepared), order, lookup⟩ where
  tables := mirrors.tables
  paths := mirrors.paths
  decodes := mirrors.decodes
  capsules := by
    intro id
    rw [capsuleRows_inserted, mirrors.capsules]
    by_cases same : id = prepared.capsuleId
    · subst same
      simp [absent]
    · simp [same]
  artifacts := by
    intro id
    rw [originalRows_inserted, List.map_append]
    have earlier := mirrors.artifacts id
    by_cases same : id = prepared.capsuleId
    · subst same
      rw [absent, Option.toList_none, List.flatMap_nil, List.perm_nil] at earlier
      rw [earlier, if_pos rfl, List.nil_append, List.map_map]
      simp only [Function.update_self, Option.toList_some, List.flatMap_singleton]
      exact List.Perm.refl _
    · rw [if_neg same, List.map_nil, List.append_nil]
      simpa only [Function.update_of_ne same] using earlier
  admitted := by
    intro id held found
    by_cases same : id = prepared.capsuleId
    · subst same
      simp only [Function.update_self, Option.some_inj] at found
      subst found
      exact ⟨rfl, Admitted.of_acceptRecord admission⟩
    · simp only [Function.update_of_ne same] at found
      exact mirrors.admitted id held found
  indexes := indexes
  listed := by
    intro id
    rw [Roll.enter, List.map_append, List.mem_append, mirrors.listed id]
    by_cases same : id = prepared.capsuleId
    · simp [same]
    · simp [same]
  records := by
    have contributes : extracted packages roll.paths (prepared.capsuleId, prepared.capsule) = read := by
      rw [extracted, reads]
    rw [Sql.inserted, filter_concat_own (by simp), mirrors.records, List.map_append]
    simp only [List.map_cons, List.map_nil, indexedRow, Roll.enter, contributes]
  numbers := by
    rw [List.map_append, mirrors.numbers]
    rfl
  ascending := by
    refine List.pairwise_append.mpr ⟨mirrors.ascending, List.pairwise_singleton _ _, ?_⟩
    intro n member last single
    rw [List.mem_singleton.mp single]
    exact Nat.lt_succ_of_le (mirrors.given member).2
  entries := by
    intro row own
    have contributes : extracted packages roll.paths (prepared.capsuleId, prepared.capsule) = read := by
      rw [extracted, reads]
    rw [Sql.inserted, List.mem_append, mirrors.entries row own]
    constructor
    · rintro (⟨n, member, at_n, value, held, key⟩ | new)
      · exact ⟨n, List.mem_append_left _ member, at_n, value, held, key⟩
      · obtain ⟨entry, member, rfl⟩ := List.mem_map.mp new
        refine ⟨_, List.mem_append_right _ (List.mem_singleton.mpr rfl), rfl, entry.2, ?_, rfl⟩
        rw [Roll.enter, contributes]
        exact member
    · rintro ⟨n, member, at_n, value, held, key⟩
      rcases List.mem_append.mp member with member | single
      · exact Or.inl ⟨n, member, at_n, value, held, key⟩
      · rw [List.mem_singleton.mp single] at at_n held
        rw [Roll.enter, contributes] at held
        refine Or.inr (List.mem_map.mpr ⟨_, held, ?_⟩)
        have number : row.seq = db.sequence + 1 := at_n
        rw [← own, ← key, ← number]
  wellFormed := by
    refine mirrors.wellFormed.inserted (nodup_keys roll.pathsDistinct reads free) ?_
    intro row member own
    obtain ⟨n, among, at_n, _⟩ := (mirrors.entries row own).mp member
    rw [at_n]
    exact (mirrors.given among).2

/-! ## Purging a record -/

/-- What a purge leaves of a stored original. -/
def purgedStored (a : StoredArtifact) : StoredArtifact :=
  if a.state = "present" then { a with content := none, state := "purged" } else a

theorem stored_purgedArtifact (a : Artifact) : (purgedArtifact a).stored = purgedStored a.stored := by
  obtain ⟨name, binding, content, state, sum⟩ := a
  cases state <;> rfl

/-- The rows a purge erases. -/
def target (ns id : String) (row : ArtifactRow) : Bool :=
  row.ns = ns && row.capsuleId = id && row.retentionState = "present"

/-- A row after a purge of a record. -/
def purgeTarget (ns now id : String) (row : ArtifactRow) : ArtifactRow :=
  if target ns id row then purgeRow now row else row

theorem purgeTarget_keys (now id : String) (row : ArtifactRow) :
    (purgeTarget ns now id row).ns = row.ns ∧
      (purgeTarget ns now id row).capsuleId = row.capsuleId := by
  rw [purgeTarget]
  split <;> exact ⟨rfl, rfl⟩

theorem originalRows_purged (now id other : String) :
    originalRows ns other { db with artifacts := db.artifacts.map (purgeTarget ns now id) } =
      (originalRows ns other db).map (purgeTarget ns now id) := by
  rw [originalRows, originalRows, List.filter_map, List.filter_map]
  congr 2
  · funext row
    simp only [Function.comp_apply, (purgeTarget_keys now id row).2]
  · congr 1
    funext row
    simp only [Function.comp_apply, (purgeTarget_keys now id row).1]

/-- The originals of the purged record are purged, those of others are kept. -/
theorem stored_purgeTarget (now id : String) {other : String} {row : ArtifactRow}
    (member : row ∈ originalRows ns other db) :
    (purgeTarget ns now id row).stored =
      if other = id then purgedStored row.stored else row.stored := by
  obtain ⟨inside, named⟩ := List.mem_filter.mp member
  have own := (List.mem_filter.mp inside).2
  rw [decide_eq_true_eq] at named own
  rw [purgeTarget, target, own, named]
  by_cases same : other = id
  · rw [if_pos same, purgedStored]
    by_cases present : row.retentionState = "present"
    · simp [same, present, ArtifactRow.stored, purgeRow]
    · simp [present, ArtifactRow.stored]
  · simp [same]

/-- A purge of a record that is there. -/
theorem Mirrors.purgeOn_held (lawful : packages.Lawful)
    (mirrors : Mirrors packages trusted ns roll numbered db store) (now : String) {id : String}
    {stored : Record} (held : store.byId id = some stored) :
    purgeOn ns now id db =
      .ok { db with artifacts := db.artifacts.map (purgeTarget ns now id) } := by
  have checks : (db.artifacts.filter (target ns id)).all
      (fun row => (purgeRow now row).check) = true := by
    rw [List.all_eq_true]
    intro row member
    obtain ⟨inside, targeted⟩ := List.mem_filter.mp member
    rw [target, Bool.and_eq_true, Bool.and_eq_true, decide_eq_true_eq] at targeted
    have original : row ∈ originalRows ns id db :=
      List.mem_filter.mpr ⟨List.mem_filter.mpr ⟨inside, decide_eq_true targeted.1.1⟩, targeted.1.2⟩
    have listed := (mirrors.artifacts id).mem_iff.mp (List.mem_map_of_mem original)
    rw [held, Option.toList_some, List.flatMap_singleton] at listed
    obtain ⟨a, inRecord, same⟩ := List.mem_map.mp listed
    have state : a.state = .present := by
      have spelled := congrArg StoredArtifact.state same
      have parsed := RetentionState.parse_asStr a.state
      rw [show a.state.asStr = "present" from
        spelled.trans (of_decide_eq_true targeted.2)] at parsed
      exact (Option.some.inj parsed).symm
    exact check_purgeRow lawful ((mirrors.admitted id stored held).2.settled a inRecord) state
      same.symm now
  have there := mirrors.any_capsule id
  rw [held, Option.isSome_some] at there
  have targets : (fun row : ArtifactRow => row.ns = ns && row.capsuleId = id &&
      row.retentionState = "present") = target ns id := rfl
  simp only [purgeOn, there, ensure_true, ok_bind, targets, checks]
  rfl

theorem Mirrors.purged (lawful : packages.Lawful)
    (mirrors : Mirrors packages trusted ns roll numbered db store) (now : String) {id : String}
    {stored : Record} (held : store.byId id = some stored) :
    Mirrors packages trusted ns roll numbered
      { db with artifacts := db.artifacts.map (purgeTarget ns now id) }
      { store with byId := Function.update store.byId id (some (purged stored)) } where
  tables := mirrors.tables
  paths := mirrors.paths
  decodes := mirrors.decodes
  capsules := by
    intro other
    have earlier := mirrors.capsules other
    by_cases same : other = id
    · subst same
      rw [held] at earlier
      simp only [Function.update_self]
      exact earlier.trans (by
        simp only [Option.toList_some, List.map_cons, List.map_nil, heldOf, storageChecksum_purged]
        rfl)
    · simp only [Function.update_of_ne same]
      exact earlier
  artifacts := by
    intro other
    have earlier := mirrors.artifacts other
    rw [originalRows_purged, List.map_map]
    have rows := List.map_congr_left (l := originalRows ns other db)
      (f := ArtifactRow.stored ∘ purgeTarget ns now id)
      (fun row member => stored_purgeTarget now id member)
    rw [rows]
    by_cases same : other = id
    · subst same
      rw [held, Option.toList_some, List.flatMap_singleton] at earlier
      simp only [if_true, Function.update_self, Option.toList_some, List.flatMap_singleton]
      have purgedRows := earlier.map purgedStored
      rw [List.map_map, List.map_map] at purgedRows
      have originals : (ArtifactStore.purged stored).artifacts.map Artifact.stored =
          stored.artifacts.map (purgedStored ∘ Artifact.stored) := by
        rw [ArtifactStore.purged, List.map_map]
        exact List.map_congr_left (fun a _ => stored_purgedArtifact a)
      rw [originals]
      exact purgedRows
    · simpa only [if_neg same, Function.update_of_ne same] using earlier
  admitted := by
    intro other record found
    by_cases same : other = id
    · subst same
      simp only [Function.update_self, Option.some_inj] at found
      subst found
      have earlier := mirrors.admitted other stored held
      exact ⟨earlier.1, earlier.2.purged lawful⟩
    · simp only [Function.update_of_ne same] at found
      exact mirrors.admitted other record found
  indexes := mirrors.indexes
  listed := by
    intro other
    rw [mirrors.listed other]
    by_cases same : other = id
    · simp [same, held]
    · simp [same]
  records := mirrors.records
  numbers := mirrors.numbers
  ascending := mirrors.ascending
  entries := mirrors.entries
  wellFormed := ⟨mirrors.wellFormed.distinct, mirrors.wellFormed.given, mirrors.wellFormed.entries⟩

end Mirrored

end Sql
end ArtifactStore
end CapsuleEmit
