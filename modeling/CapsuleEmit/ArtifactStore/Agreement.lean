import CapsuleEmit.ArtifactStore.Concrete
import CapsuleEmit.ArtifactStore.Jsonl
import CapsuleEmit.Foundation.Machine

namespace CapsuleEmit
namespace ArtifactStore

/-!
# The file-backed store agrees with the in-memory store

Both stores implement the same thing: an archive of admitted records with
distinct Capsule IDs, in admission order.  The archive is a structure whose
fields say so, so an archive with a repeated ID or an unverified record cannot
be built.  The in-memory store represents an archive by its map, the
file-backed store by the bytes of its file and the scan of its lines.  Each
operation of either store answers as the archive does and represents the
resulting archive, and opening the file again changes nothing.  Equal answers
over whole runs follow.
-/

variable {packages : Packages} {trusted : List Bytes}

/-! ## The archive -/

/-- A record a store may hold: it verifies and carries its checksums. -/
structure Admitted (packages : Packages) (trusted : List Bytes) (record : Record) : Prop where
  verified : succeeds (verify packages record trusted) = true
  settled : ∀ a ∈ record.artifacts, Settled packages a

theorem Admitted.purged (lawful : packages.Lawful) {record : Record}
    (admitted : Admitted packages trusted record) :
    Admitted packages trusted (purged record) :=
  ⟨verify_purged lawful admitted.settled admitted.verified, purged_settled record⟩

theorem Admitted.of_acceptRecord {record prepared : Record}
    (ok : acceptRecord packages trusted record = .ok prepared) : Admitted packages trusted prepared :=
  ⟨(acceptRecord_ok ok).2.1, (acceptRecord_ok ok).2.2.1⟩

theorem Admitted.validId {record : Record} (admitted : Admitted packages trusted record) :
    validId record.capsuleId = true :=
  validId_of_verify admitted.verified

/-- Admitted records with distinct Capsule IDs, in admission order. -/
structure Archive (packages : Packages) (trusted : List Bytes) where
  records : List Record
  distinct : (records.map Record.capsuleId).Nodup
  admitted : ∀ record ∈ records, Admitted packages trusted record

namespace Archive

def empty : Archive packages trusted := ⟨[], by simp, by simp⟩

/-- The record with a Capsule ID. -/
def lookup (archive : Archive packages trusted) (id : String) : Option Record :=
  archive.records.find? (fun record => record.capsuleId = id)

theorem lookup_mem {archive : Archive packages trusted} {id : String} {record : Record}
    (found : archive.lookup id = some record) : record ∈ archive.records ∧ record.capsuleId = id :=
  ⟨List.mem_of_find?_eq_some found, by simpa using List.find?_some found⟩

theorem lookup_none {archive : Archive packages trusted} {id : String}
    (missing : archive.lookup id = none) : id ∉ archive.records.map Record.capsuleId := by
  intro member
  obtain ⟨record, found, same⟩ := List.mem_map.mp member
  simpa [same] using List.find?_eq_none.mp missing record found

theorem lookup_of_mem {archive : Archive packages trusted} {record : Record}
    (member : record ∈ archive.records) : archive.lookup record.capsuleId = some record := by
  cases found : archive.lookup record.capsuleId with
  | none => exact absurd (List.mem_map_of_mem member) (lookup_none found)
  | some other =>
      have place := lookup_mem found
      rw [List.inj_on_of_nodup_map archive.distinct place.1 member place.2]

/-- One more record, under a new Capsule ID. -/
def insert (archive : Archive packages trusted) (record : Record)
    (admitted : Admitted packages trusted record)
    (fresh : archive.lookup record.capsuleId = none) : Archive packages trusted where
  records := archive.records ++ [record]
  distinct := by
    rw [List.map_append, List.nodup_append]
    refine ⟨archive.distinct, by simp, ?_⟩
    intro id member other single same
    rw [List.map_singleton, List.mem_singleton] at single
    exact lookup_none fresh (single ▸ same ▸ member)
  admitted := by
    intro other member
    rcases List.mem_append.mp member with member | single
    · exact archive.admitted other member
    · exact List.mem_singleton.mp single ▸ admitted

/-- The tombstoned form of the record with an id, in its place. -/
def tombstone (lawful : packages.Lawful) (archive : Archive packages trusted) (id : String) :
    Archive packages trusted where
  records := archive.records.map
    (fun record => if record.capsuleId = id then purged record else record)
  distinct := by
    have names : (archive.records.map
        (fun record => if record.capsuleId = id then purged record else record)).map
          Record.capsuleId = archive.records.map Record.capsuleId := by
      rw [List.map_map]
      apply List.map_congr_left
      intro record _
      by_cases same : record.capsuleId = id <;> simp [same]
    rw [names]
    exact archive.distinct
  admitted := by
    intro record member
    obtain ⟨other, found, rfl⟩ := List.mem_map.mp member
    split
    · exact (archive.admitted other found).purged lawful
    · exact archive.admitted other found

theorem lookup_insert (archive : Archive packages trusted) {record : Record}
    (admitted : Admitted packages trusted record)
    (fresh : archive.lookup record.capsuleId = none) (id : String) :
    (archive.insert record admitted fresh).lookup id =
      if id = record.capsuleId then some record else archive.lookup id := by
  rw [lookup, insert, List.find?_append]
  by_cases same : id = record.capsuleId
  · subst same
    have missing : archive.records.find?
        (fun other => other.capsuleId = record.capsuleId) = none := fresh
    simp [missing]
  · have different : ¬ record.capsuleId = id := fun equal => same equal.symm
    simp [same, different, lookup]

theorem lookup_tombstone (lawful : packages.Lawful) (archive : Archive packages trusted)
    (id other : String) :
    (archive.tombstone lawful id).lookup other =
      if other = id then (archive.lookup id).map purged else archive.lookup other := by
  have names : ∀ record : Record,
      (if record.capsuleId = id then purged record else record).capsuleId = record.capsuleId := by
    intro record
    split <;> rfl
  rw [lookup, tombstone, List.find?_map]
  have sameTest : ((fun record : Record => decide (record.capsuleId = other)) ∘
      fun record => if record.capsuleId = id then purged record else record) =
      fun record => decide (record.capsuleId = other) := by
    funext record
    simp only [Function.comp_apply, names]
  rw [sameTest]
  by_cases same : other = id
  · subst same
    cases found : archive.lookup other with
    | none => simpa [lookup] using found
    | some record =>
        have named := (lookup_mem found).2
        rw [lookup] at found
        simp [found, named]
  · cases found : archive.lookup other with
    | none =>
        rw [lookup] at found
        simp [found, same]
    | some record =>
        have named := (lookup_mem found).2
        rw [lookup] at found
        simp [found, same, named]

/-! ## The operations of the archive -/

/-- The answer to a put under a known Capsule ID. -/
def retried (packages : Packages) (existing prepared : Record) : Result Unit := do
  ensure (storageChecksum packages existing = storageChecksum packages prepared) .conflict
  ensure (!hasPurged existing) .purged

def put (archive : Archive packages trusted) (record : Record) :
    Result Unit × Archive packages trusted :=
  match admission : acceptRecord packages trusted record with
  | .error e => (.error e, archive)
  | .ok prepared =>
      match fresh : archive.lookup prepared.capsuleId with
      | none => (.ok (), archive.insert prepared (.of_acceptRecord admission) fresh)
      | some existing => (retried packages existing prepared, archive)

def get (archive : Archive packages trusted) (id : String) : Result Record := do
  ensure (validId id) (.invalid "capsule id")
  match archive.lookup id with
  | none => .error .notFound
  | some record => .ok record

def purge (lawful : packages.Lawful) (archive : Archive packages trusted) (id : String) :
    Result Unit × Archive packages trusted :=
  if validId id then
    match archive.lookup id with
    | none => (.error .notFound, archive)
    | some _ => (.ok (), archive.tombstone lawful id)
  else (.error (.invalid "capsule id"), archive)

section

variable {archive : Archive packages trusted} {record prepared : Record}

theorem put_refused {e : ArtifactError} (refused : acceptRecord packages trusted record = .error e) :
    archive.put record = (.error e, archive) := by
  unfold put
  split
  · next other same =>
      rw [refused] at same
      cases same
      rfl
  · next _ same => simp [refused] at same

theorem put_fresh (admission : acceptRecord packages trusted record = .ok prepared)
    (fresh : archive.lookup prepared.capsuleId = none) :
    archive.put record = (.ok (), archive.insert prepared (.of_acceptRecord admission) fresh) := by
  unfold put
  split
  · next _ same => simp [admission] at same
  · next other same =>
      obtain rfl : prepared = other := Except.ok.inj (admission.symm.trans same)
      split
      · rfl
      · next _ found => simp [fresh] at found

theorem put_known {existing : Record} (admission : acceptRecord packages trusted record = .ok prepared)
    (known : archive.lookup prepared.capsuleId = some existing) :
    archive.put record = (retried packages existing prepared, archive) := by
  unfold put
  split
  · next _ same => simp [admission] at same
  · next other same =>
      obtain rfl : prepared = other := Except.ok.inj (admission.symm.trans same)
      split
      · next missing => simp [known] at missing
      · next found same =>
          obtain rfl : existing = found := Option.some.inj (known.symm.trans same)
          rfl

/-- The answer to a retry, as the stores branch on it. -/
theorem retried_eq (existing prepared : Record) :
    retried packages existing prepared =
      if storageChecksum packages existing ≠ storageChecksum packages prepared then .error .conflict
      else if hasPurged existing then .error .purged else .ok () := by
  by_cases same : storageChecksum packages existing = storageChecksum packages prepared
  · cases gone : hasPurged existing <;> simp [retried, same, gone]
  · simp [retried, same]

end

end Archive

/-! ## The in-memory store -/

namespace MemoryStore

/-- The map of the store is the lookup of an archive. -/
structure Represents (store : MemoryStore) (archive : Archive packages trusted) : Prop where
  byId : ∀ id, store.byId id = archive.lookup id
  order : store.order = archive.records.map Record.capsuleId
  undeclared : store.lookup.paths = none

variable {store : MemoryStore} {archive : Archive packages trusted}

theorem add_undeclared {index : MemoryIndex} (undeclared : index.paths = none) (id : String)
    (capsule : Bytes) : index.add packages id capsule = .ok index := by
  rw [MemoryIndex.add, undeclared]

theorem put_refines (represents : store.Represents archive) (record : Record) :
    (store.put packages trusted record).1 = (archive.put record).1 ∧
      (store.put packages trusted record).2.Represents (archive.put record).2 := by
  unfold put
  cases admission : acceptRecord packages trusted record with
  | error e =>
      rw [Archive.put_refused admission]
      exact ⟨rfl, represents⟩
  | ok prepared =>
      simp only
      cases found : archive.lookup prepared.capsuleId with
      | none =>
          rw [Archive.put_fresh admission found, represents.byId, found,
            add_undeclared represents.undeclared]
          refine ⟨rfl, fun id => ?_, ?_, represents.undeclared⟩
          · rw [Archive.lookup_insert]
            by_cases same : id = prepared.capsuleId
            · subst same
              simp
            · simp [same, represents.byId]
          · simp [Archive.insert, represents.order]
      | some existing =>
          rw [Archive.put_known admission found, represents.byId, found, Archive.retried_eq]
          simp only
          split
          · exact ⟨rfl, represents⟩
          · split <;> exact ⟨rfl, represents⟩

theorem get_refines (represents : store.Represents archive) (id : String) :
    store.get packages trusted id = archive.get id := by
  rw [get, Archive.get, represents.byId]
  cases found : archive.lookup id with
  | none => rfl
  | some record =>
      obtain ⟨results, verified⟩ :=
        succeeds_iff.mp (archive.admitted record (Archive.lookup_mem found).1).verified
      simp only [verified, ok_bind]

theorem purge_refines (lawful : packages.Lawful) (represents : store.Represents archive)
    (id : String) :
    (store.purge id).1 = (archive.purge lawful id).1 ∧
      (store.purge id).2.Represents (archive.purge lawful id).2 := by
  unfold purge Archive.purge
  split
  · rw [represents.byId]
    cases found : archive.lookup id with
    | none => exact ⟨rfl, represents⟩
    | some stored =>
        refine ⟨rfl, fun other => ?_, ?_, represents.undeclared⟩
        · rw [Archive.lookup_tombstone, found]
          by_cases same : other = id
          · subst same
            simp
          · simp [same, represents.byId]
        · rw [represents.order]
          simp only [Archive.tombstone, List.map_map]
          apply List.map_congr_left
          intro record _
          by_cases same : record.capsuleId = id <;> simp [same]
  · exact ⟨rfl, represents⟩

end MemoryStore

/-! ## The file-backed store -/

namespace JsonlStore

/-- The lines of an archive. -/
def linesOf (archive : Archive packages trusted) : List Bytes :=
  archive.records.map (encodeRecord packages)

/-- The file holds the lines of an archive and nothing else, and the index in
memory is the scan of these lines. -/
structure Represents (store : JsonlStore) (archive : Archive packages trusted) : Prop where
  file : store.file = some (joined (linesOf archive) [])
  index : store.state.toIndex = Lines.Index.scan (lineId packages) (linesOf archive)
  undeclared : store.state.lookup.paths = none

variable {store : JsonlStore} {archive : Archive packages trusted}

theorem clean_linesOf (lawful : packages.Lawful) (archive : Archive packages trusted) :
    ∀ line ∈ linesOf archive, Lines.Clean newline line := by
  intro line member
  obtain ⟨record, _, rfl⟩ := List.mem_map.mp member
  exact encodeRecord_clean lawful record

theorem keyed_linesOf (lawful : packages.Lawful) (archive : Archive packages trusted) :
    ∀ record ∈ archive.records,
      lineId packages (encodeRecord packages record) = some record.capsuleId :=
  fun record member => lineId_encodeRecord lawful (archive.admitted record member).validId

theorem lastWith_linesOf (lawful : packages.Lawful) (archive : Archive packages trusted)
    (id : String) :
    Lines.lastWith (lineId packages) id (linesOf archive) =
      (archive.lookup id).map (encodeRecord packages) :=
  Lines.lastWith_map (keyed_linesOf lawful archive) archive.distinct id

theorem spans_isSome (lawful : packages.Lawful) (represents : store.Represents archive)
    (id : String) : (store.state.spans id).isSome = (archive.lookup id).isSome := by
  rw [represents.index, Lines.scan_spans_isSome, lastWith_linesOf lawful, Option.isSome_map]

/-- A recorded span reads back the record of the archive. -/
theorem readAt_represents (lawful : packages.Lawful) (represents : store.Represents archive)
    {id : String} {record : Record} (found : archive.lookup id = some record)
    {span : Lines.Span} (recorded : store.state.spans id = some span) :
    readAt packages store.file id span = .ok record := by
  rw [represents.index] at recorded
  have line := Lines.scan_spans_read (lineId packages) newline (linesOf archive) [] recorded
  rw [lastWith_linesOf lawful, found, Option.map_some] at line
  simp only [readAt, represents.file, joined, line, decodeRecord_encodeRecord lawful, ok_bind,
    (Archive.lookup_mem found).2]
  simp

/-- Opening the file of an archive again gives the index in memory. -/
theorem reopen_represents (lawful : packages.Lawful) (represents : store.Represents archive) :
    (store.reopen packages).Represents archive where
  file := represents.file
  index := by
    simp only [reopen, fresh, represents.file]
    exact indexed_joined (clean_linesOf lawful archive) clean_nil
  undeclared := rfl

theorem append_represents (lawful : packages.Lawful) (represents : store.Represents archive)
    {prepared : Record} (admitted : Admitted packages trusted prepared)
    (fresh : archive.lookup prepared.capsuleId = none) :
    (store.append packages prepared .complete).1 = .ok () ∧
      (store.append packages prepared .complete).2.Represents
        (archive.insert prepared admitted fresh) := by
  have lines : linesOf (archive.insert prepared admitted fresh) =
      linesOf archive ++ [encodeRecord packages prepared] := by
    simp [linesOf, Archive.insert]
  have scanned := Lines.scan_concat_keyed (lineId packages)
    (lineId_encodeRecord lawful admitted.validId) (linesOf archive)
  have unseen : (store.state.spans prepared.capsuleId).isSome = false := by
    rw [spans_isSome lawful represents, fresh]
    rfl
  rw [append_joined represents.file (clean_linesOf lawful archive) clean_nil
    (MemoryStore.add_undeclared represents.undeclared _ _)]
  refine ⟨rfl, ?_, ?_, represents.undeclared⟩
  · simp [lines, closed]
  · rw [lines, scanned, ← represents.index]
    simp [Lines.Index.enter, unseen, closed]

theorem put_refines (lawful : packages.Lawful) (represents : store.Represents archive)
    (record : Record) :
    (store.put packages trusted record .complete).1 = (archive.put record).1 ∧
      (store.put packages trusted record .complete).2.Represents (archive.put record).2 := by
  unfold put
  cases admission : acceptRecord packages trusted record with
  | error e =>
      rw [Archive.put_refused admission]
      exact ⟨rfl, represents⟩
  | ok prepared =>
      simp only
      have known := spans_isSome lawful represents prepared.capsuleId
      cases found : archive.lookup prepared.capsuleId with
      | none =>
          rw [found, Option.isSome_none] at known
          rw [Option.isSome_eq_false_iff, Option.isNone_iff_eq_none] at known
          rw [Archive.put_fresh admission found, known]
          exact append_represents lawful represents (.of_acceptRecord admission) found
      | some existing =>
          rw [found, Option.isSome_some, Option.isSome_iff_exists] at known
          obtain ⟨span, recorded⟩ := known
          obtain ⟨results, verified⟩ :=
            succeeds_iff.mp (archive.admitted existing (Archive.lookup_mem found).1).verified
          rw [Archive.put_known admission found, recorded]
          refine ⟨?_, represents⟩
          simp only [retry, readAt_represents lawful represents found recorded, ok_bind, verified]
          rfl

theorem get_refines (lawful : packages.Lawful) (represents : store.Represents archive)
    (id : String) : store.get packages trusted id = archive.get id := by
  rw [get, Archive.get]
  have known := spans_isSome lawful represents id
  cases found : archive.lookup id with
  | none =>
      rw [found, Option.isSome_none, Option.isSome_eq_false_iff, Option.isNone_iff_eq_none] at known
      rw [known]
  | some record =>
      rw [found, Option.isSome_some, Option.isSome_iff_exists] at known
      obtain ⟨span, recorded⟩ := known
      obtain ⟨results, verified⟩ :=
        succeeds_iff.mp (archive.admitted record (Archive.lookup_mem found).1).verified
      simp only [recorded, readAt_represents lawful represents found recorded, ok_bind, verified]

theorem purge_refines (lawful : packages.Lawful) (represents : store.Represents archive)
    (id : String) :
    (store.purge packages id).1 = (archive.purge lawful id).1 ∧
      (store.purge packages id).2.Represents (archive.purge lawful id).2 := by
  unfold purge Archive.purge
  split
  · next valid =>
    have known := spans_isSome lawful represents id
    cases found : archive.lookup id with
    | none =>
        rw [found, Option.isSome_none, Option.isSome_eq_false_iff, Option.isNone_iff_eq_none]
          at known
        rw [known]
        exact ⟨rfl, represents⟩
    | some stored =>
        rw [found, Option.isSome_some, Option.isSome_iff_exists] at known
        obtain ⟨span, recorded⟩ := known
        have named := (Archive.lookup_mem found).2
        have keyed : lineId packages (encodeRecord packages (purged stored)) = some id := by
          rw [lineId_encodeRecord lawful ((archive.admitted stored
            (Archive.lookup_mem found).1).purged lawful).validId, purged_capsuleId, named]
        have lines : Lines.rewriteWith (lineId packages) id
            (encodeRecord packages (purged stored)) (linesOf archive) =
            linesOf (archive.tombstone lawful id) := by
          refine @Lines.rewriteWith_map _ _ _ _ _ _ _ _ (keyed_linesOf lawful archive) id purged _ ?_
          intro record member same
          have here := Archive.lookup_of_mem member
          rw [same, found, Option.some.injEq] at here
          rw [here]
        have order := Lines.scan_order_rewriteWith keyed (linesOf archive)
        rw [lines] at order
        have present : (Lines.lastWith (lineId packages) id (linesOf archive)).isSome = true := by
          rw [lastWith_linesOf lawful, found]
          rfl
        have effect := purge_joined lawful represents.file (clean_linesOf lawful archive) clean_nil
          valid recorded (readAt_represents lawful represents found recorded) present
        rw [lines, purge, if_pos valid] at effect
        rw [effect]
        refine ⟨rfl, rfl, ?_, represents.undeclared⟩
        ext1
        · rfl
        · rw [order, ← represents.index]
  · exact ⟨rfl, represents⟩

end JsonlStore

/-! ## Runs of the two stores -/

/-- An operation of a caller; a reopen drops the store and opens it again. -/
inductive Op where
  | put (record : Record)
  | get (id : String)
  | purge (id : String)
  | reopen

inductive Answer where
  | done (result : Result Unit)
  | record (result : Result Record)

def MemoryStore.step (packages : Packages) (trusted : List Bytes) (store : MemoryStore) :
    Op → Answer × MemoryStore
  | .put record =>
      let answer := store.put packages trusted record
      (.done answer.1, answer.2)
  | .get id => (.record (store.get packages trusted id), store)
  | .purge id =>
      let answer := store.purge id
      (.done answer.1, answer.2)
  | .reopen => (.done (.ok ()), store)

def JsonlStore.step (packages : Packages) (trusted : List Bytes) (store : JsonlStore) :
    Op → Answer × JsonlStore
  | .put record =>
      let answer := store.put packages trusted record .complete
      (.done answer.1, answer.2)
  | .get id => (.record (store.get packages trusted id), store)
  | .purge id =>
      let answer := store.purge packages id
      (.done answer.1, answer.2)
  | .reopen => (.done (.ok ()), store.reopen packages)

/-- The two stores represent one archive. -/
def Alike (packages : Packages) (trusted : List Bytes) (store : JsonlStore) (memory : MemoryStore) :
    Prop :=
  ∃ archive : Archive packages trusted, store.Represents archive ∧ memory.Represents archive

theorem alike_step (lawful : packages.Lawful) (store : JsonlStore) (memory : MemoryStore) (op : Op)
    (alike : Alike packages trusted store memory) :
    (store.step packages trusted op).1 = (memory.step packages trusted op).1 ∧
      Alike packages trusted (store.step packages trusted op).2
        (memory.step packages trusted op).2 := by
  obtain ⟨archive, onDisk, inMemory⟩ := alike
  cases op with
  | put record =>
      have disk := JsonlStore.put_refines lawful onDisk record
      have map := MemoryStore.put_refines inMemory record
      exact ⟨congrArg Answer.done (disk.1.trans map.1.symm), _, disk.2, map.2⟩
  | get id =>
      have disk := JsonlStore.get_refines lawful onDisk id
      have map := MemoryStore.get_refines inMemory id
      exact ⟨congrArg Answer.record (disk.trans map.symm), archive, onDisk, inMemory⟩
  | purge id =>
      have disk := JsonlStore.purge_refines lawful onDisk id
      have map := MemoryStore.purge_refines lawful inMemory id
      exact ⟨congrArg Answer.done (disk.1.trans map.1.symm), _, disk.2, map.2⟩
  | reopen =>
      exact ⟨rfl, archive, JsonlStore.reopen_represents lawful onDisk, inMemory⟩

/-- A store opened on a missing or empty file and initialized, and a new
in-memory store, represent the archive without records. -/
theorem alike_new {ns : String} {keys : List Bytes} {file : Option Bytes} {store : JsonlStore}
    {memory : MemoryStore} (empty : file.getD [] = [])
    (opened : JsonlStore.new packages ns keys file = .ok (trusted, store))
    (created : MemoryStore.new ns keys = .ok (trusted, memory)) :
    Alike packages trusted store.create memory := by
  obtain ⟨_, _, same⟩ := bind_eq_ok_iff.mp opened
  cases same
  obtain ⟨_, _, same⟩ := bind_eq_ok_iff.mp created
  cases same
  refine ⟨Archive.empty, ⟨?_, ?_, rfl⟩, ⟨fun _ => rfl, rfl, rfl⟩⟩
  · simp [JsonlStore.create, JsonlStore.fresh, empty, JsonlStore.linesOf, Archive.empty, JsonlStore.joined]
  · cases file with
    | none => rfl
    | some bytes =>
        obtain rfl : bytes = [] := empty
        rfl

/-- The file-backed store over a file that was empty answers every sequence of
puts, gets, purges and reopens as the in-memory store does. -/
theorem jsonl_answers_as_memory (lawful : packages.Lawful) {ns : String} {keys : List Bytes}
    {file : Option Bytes} {store : JsonlStore} {memory : MemoryStore} (empty : file.getD [] = [])
    (opened : JsonlStore.new packages ns keys file = .ok (trusted, store))
    (created : MemoryStore.new ns keys = .ok (trusted, memory)) (ops : List Op) :
    Machine.answers (JsonlStore.step packages trusted) store.create ops =
      Machine.answers (MemoryStore.step packages trusted) memory ops :=
  Machine.answers_eq (alike_step lawful) (alike_new empty opened created) ops

/-- Two records, one with an original that is then purged, and reopens. -/
theorem jsonl_answers_as_memory_padding :
    let memory : MemoryStore := ⟨fun _ => none, [], MemoryIndex.default⟩
    let ops : List Op := [.put firstRecord, .put notedRecord, .reopen, .purge notedRecord.capsuleId,
      .reopen, .put notedRecord, .get firstRecord.capsuleId]
    Machine.answers (JsonlStore.step paddingPackages [trustedKey])
        (JsonlStore.fresh paddingPackages none).create ops =
      Machine.answers (MemoryStore.step paddingPackages [trustedKey]) memory ops :=
  @jsonl_answers_as_memory _ _ paddingPackages_lawful _ _ none _ _ rfl
    (JsonlStore.new_eq paddingConfig none) (by rw [MemoryStore.new, paddingConfig, ok_bind]) _

end ArtifactStore
end CapsuleEmit
