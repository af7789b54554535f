import CapsuleEmit.ArtifactStore.Concrete
import CapsuleEmit.ArtifactStore.Jsonl
import CapsuleEmit.Foundation.Machine

namespace CapsuleEmit
namespace ArtifactStore
namespace JsonlStore

/-!
# Coherence of the index in memory

An open store is coherent when its spans and its order are those a fresh scan
of the file would give.  A put computes its span from the length of the file,
a purge takes the spans of a rescan and keeps the order, and neither looks at
a last line without a newline.  Such a line is not indexed at opening.  A put
that appends terminates it, and from then on a scan sees a line the store
does not know, if the line carries a Capsule ID.

So coherence is kept by exactly the steps that do not terminate such a line.
For these, the index extension also lists every record a get can return.
-/

variable {packages : Packages} {trusted : List Bytes} {store : JsonlStore}

/-- The index in memory is the one a fresh store computes from the file. -/
def Coherent (packages : Packages) (store : JsonlStore) : Prop :=
  store.state.toIndex = indexed packages store.file

/-- What a read of an id gives before verification. -/
def stored (packages : Packages) (store : JsonlStore) (id : String) : Result Record :=
  match store.state.spans id with
  | none => .error .notFound
  | some span => readAt packages store.file id span

/-- The record of the last line with an id. -/
def recordOf (packages : Packages) (id : String) (lines : List Bytes) : Result Record :=
  match Lines.lastWith (lineId packages) id lines with
  | none => .error .notFound
  | some line => do
      let record ← decodeRecord packages line
      ensure (record.capsuleId = id) (.corrupt "index points to a different capsule")
      .ok record

theorem get_eq_stored (store : JsonlStore) (id : String) :
    store.get packages trusted id = (do
      ensure (validId id) (.invalid "capsule id")
      let record ← stored packages store id
      let _ ← verify packages record trusted
      .ok record) := by
  rw [get, stored]
  cases store.state.spans id <;> rfl

section Joined

variable {lines : List Bytes} {tail : Bytes}

theorem coherent_joined_iff (file : store.file = some (joined lines tail))
    (cleanLines : ∀ line ∈ lines, Lines.Clean newline line) (cleanTail : Lines.Clean newline tail) :
    Coherent packages store ↔
      store.state.toIndex = Lines.Index.scan (lineId packages) lines := by
  rw [Coherent, file, indexed_joined cleanLines cleanTail]

/-- A span of the scan of the lines reads the last line with its id. -/
theorem stored_eq_recordOf (file : store.file = some (joined lines tail))
    (scanned : store.state.spans = (Lines.Index.scan (lineId packages) lines).spans) (id : String) :
    stored packages store id = recordOf packages id lines := by
  have known := Lines.scan_spans_isSome (lineId packages) lines id
  rw [stored, recordOf, scanned]
  cases recorded : (Lines.Index.scan (lineId packages) lines).spans id with
  | none =>
      rw [recorded, Option.isSome_none] at known
      rw [Option.isSome_eq_false_iff.mp known.symm |> Option.isNone_iff_eq_none.mp]
  | some span =>
      have line := Lines.scan_spans_read (lineId packages) newline lines tail recorded
      rw [recorded, Option.isSome_some, eq_comm, Option.isSome_iff_exists] at known
      obtain ⟨last, found⟩ := known
      rw [found] at line ⊢
      simp only [readAt, file, joined, line]

/-- Closing a torn line leaves the last lines of other ids in place. -/
theorem recordOf_closed (lawful : packages.Lawful) {id : String}
    (other : peekId packages tail ≠ some id) :
    recordOf packages id (lines ++ closed tail) = recordOf packages id lines := by
  unfold closed
  split
  · rw [List.append_nil]
  · rw [recordOf, Lines.lastWith_concat, lineId_of_peekId lawful, if_neg other]
    rfl

/-- A torn line and a line after it with a new id are one entry of the scan,
if the torn line carries no id or the same one. -/
theorem scan_closed_concat (lawful : packages.Lawful) {id : String} {line : Bytes}
    (keyed : lineId packages line = some id)
    (fresh : (Lines.Index.scan (lineId packages) lines).spans id = none)
    (own : ∀ other, peekId packages tail = some other → other = id) :
    Lines.Index.scan (lineId packages) (lines ++ closed tail ++ [line]) =
      (Lines.Index.scan (lineId packages) lines).enter id
        (Lines.extent (lines ++ closed tail), line.length) := by
  rw [Lines.scan_concat_keyed _ keyed]
  unfold closed
  split
  · rw [List.append_nil]
  · cases read : peekId packages tail with
    | none =>
        have unkeyed : lineId packages tail = none := by rw [lineId_of_peekId lawful, read]
        rw [Lines.scan_concat_unkeyed _ unkeyed]
    | some other =>
        obtain rfl := own other read
        have same : lineId packages tail = some other := by rw [lineId_of_peekId lawful, read]
        rw [Lines.scan_concat_keyed _ same]
        simp [Lines.Index.enter, fresh, Function.update_idem]

/-- After a line for a record, that record is read under its id. -/
theorem recordOf_concat (lawful : packages.Lawful) {record : Record}
    (valid : validId record.capsuleId = true) (id : String) :
    recordOf packages id (lines ++ [encodeRecord packages record]) =
      if id = record.capsuleId then .ok record else recordOf packages id lines := by
  rw [recordOf, Lines.lastWith_concat, lineId_encodeRecord lawful valid]
  by_cases same : id = record.capsuleId
  · subst same
    simp [decodeRecord_encodeRecord lawful]
  · have different : ¬ record.capsuleId = id := fun equal => same equal.symm
    simp [same, different, recordOf]

/-- After a rewrite, the replacement is read under its id. -/
theorem recordOf_rewriteWith (lawful : packages.Lawful) {record : Record}
    (valid : validId record.capsuleId = true)
    (present : (Lines.lastWith (lineId packages) record.capsuleId lines).isSome = true)
    (id : String) :
    recordOf packages id (Lines.rewriteWith (lineId packages) record.capsuleId
        (encodeRecord packages record) lines) =
      if id = record.capsuleId then .ok record else recordOf packages id lines := by
  rw [recordOf, Lines.lastWith_rewriteWith (lineId_encodeRecord lawful valid)]
  by_cases same : id = record.capsuleId
  · subst same
    obtain ⟨line, found⟩ := Option.isSome_iff_exists.mp present
    simp [found, decodeRecord_encodeRecord lawful]
  · simp [same, recordOf]

end Joined

/-! ## The index extension lists what a get can return -/

/-- A record can be read under an id, and an index can take its Capsule. -/
def Indexable (packages : Packages) (store : JsonlStore) (id : String) : Prop :=
  ∃ record, stored packages store id = .ok record ∧
    succeeds (decodeStrictJson packages record.capsule) = true

/-- Once paths are declared, the index lists every id that can be indexed. -/
structure Complete (packages : Packages) (store : JsonlStore) : Prop where
  listed : store.state.lookup.Listed
  all : store.state.lookup.isDeclared = true → ∀ id, Indexable packages store id →
    id ∈ store.state.lookup.ids

/-- A build lists every id it was given that can be indexed. -/
theorem addAll_ok {index index' : MemoryIndex} {ids : List String} (listed : index.Listed)
    (declared : index.paths.isSome = true)
    (spanned : ∀ id ∈ ids, (store.state.spans id).isSome = true)
    (ok : addAll packages store index ids = .ok index') :
    index'.Listed ∧ index'.paths = index.paths ∧ (∀ id ∈ index.ids, id ∈ index'.ids) ∧
      ∀ id ∈ ids, Indexable packages store id → id ∈ index'.ids := by
  induction ids generalizing index with
  | nil =>
      cases ok
      exact ⟨listed, rfl, fun _ member => member, by simp⟩
  | cons first ids ih =>
      have spannedRest := fun id member => spanned id (List.mem_cons_of_mem first member)
      obtain ⟨span, recorded⟩ := Option.isSome_iff_exists.mp (spanned first List.mem_cons_self)
      have here : stored packages store first =
          readAt packages store.file first ((store.state.spans first).getD (0, 0)) := by
        rw [stored, recorded]
        rfl
      -- an id that is left out cannot be indexed
      have skip : addAll packages store index ids = .ok index' →
          ¬ Indexable packages store first →
          index'.Listed ∧ index'.paths = index.paths ∧ (∀ id ∈ index.ids, id ∈ index'.ids) ∧
            ∀ id ∈ first :: ids, Indexable packages store id → id ∈ index'.ids := by
        intro ok not
        obtain ⟨listed', paths, kept, all⟩ := ih listed declared spannedRest ok
        refine ⟨listed', paths, kept, fun id member indexable => ?_⟩
        rcases List.mem_cons.mp member with rfl | member
        · exact absurd indexable not
        · exact all id member indexable
      rw [addAll, ← here] at ok
      split at ok
      · next unread =>
          refine skip ok (fun indexable => ?_)
          obtain ⟨record, read, _⟩ := indexable
          simp [read] at unread
      · next unread =>
          refine skip ok (fun indexable => ?_)
          obtain ⟨record, read, _⟩ := indexable
          simp [read] at unread
      · cases ok
      · next record read =>
          split at ok
          · next middle added =>
              obtain ⟨listedM, pathsM, keptM, entered⟩ := MemoryIndex.add_ok listed added
              obtain ⟨listed', paths, kept, all⟩ := ih listedM (pathsM ▸ declared) spannedRest ok
              refine ⟨listed', paths.trans pathsM, fun id member => kept id (keptM id member),
                fun id member indexable => ?_⟩
              rcases List.mem_cons.mp member with rfl | member
              · exact kept _ (entered declared)
              · exact all id member indexable
          · next failed =>
              refine skip ok (fun indexable => ?_)
              obtain ⟨other, readOther, decodes⟩ := indexable
              obtain rfl : record = other := Except.ok.inj (read.symm.trans readOther)
              obtain ⟨index', added⟩ := MemoryIndex.add_of_decodes index decodes first
              simp [added] at failed
          · cases ok

/-- A get that answers a record read it, and its Capsule can be indexed. -/
theorem indexable_of_get {id : String} {record : Record}
    (answered : store.get packages trusted id = .ok record) : Indexable packages store id := by
  rw [get_eq_stored] at answered
  obtain ⟨_, _, answered⟩ := bind_eq_ok_iff.mp answered
  obtain ⟨other, read, answered⟩ := bind_eq_ok_iff.mp answered
  obtain ⟨results, verified, same⟩ := bind_eq_ok_iff.mp answered
  cases same
  exact ⟨record, read, decodes_of_verify (succeeds_iff.mpr ⟨_, verified⟩)⟩

/-! ## What each operation keeps -/

/-- A coherent store whose index is complete. -/
structure Sound (packages : Packages) (store : JsonlStore) : Prop where
  coherent : Coherent packages store
  complete : Complete packages store

theorem order_of_coherent (coherent : Coherent packages store) (id : String) :
    id ∈ store.state.order ↔ (store.state.spans id).isSome = true := by
  cases file : store.file with
  | none =>
      rw [Coherent, file] at coherent
      rw [coherent]
      simp [indexed, Lines.Index.empty]
  | some bytes =>
      obtain ⟨lines, tail, rfl, cleanLines, cleanTail⟩ := exists_joined bytes
      rw [(coherent_joined_iff file cleanLines cleanTail).mp coherent]
      exact Lines.mem_scan_order_iff (lineId packages) lines id

/-- Changing only the index extension keeps coherence. -/
theorem coherent_of_same {other : JsonlStore} (coherent : Coherent packages store)
    (file : other.file = store.file) (index : other.state.toIndex = store.state.toIndex) :
    Coherent packages other := by
  rw [Coherent, file, index]
  exact coherent

theorem append_sound (lawful : packages.Lawful) {lines : List Bytes} {tail : Bytes}
    (file : store.file = some (joined lines tail))
    (cleanLines : ∀ line ∈ lines, Lines.Clean newline line) (cleanTail : Lines.Clean newline tail)
    (sound : Sound packages store) {prepared : Record}
    (verified : succeeds (verify packages prepared trusted) = true)
    (fresh : store.state.spans prepared.capsuleId = none)
    (own : ∀ other, peekId packages tail = some other → other = prepared.capsuleId) :
    Sound packages (store.append packages prepared .complete).2 := by
  have valid := validId_of_verify verified
  obtain ⟨lookup, added⟩ := MemoryIndex.add_of_decodes store.state.lookup
    (decodes_of_verify verified) prepared.capsuleId
  obtain ⟨listed, paths, kept, entered⟩ := MemoryIndex.add_ok sound.complete.listed added
  have scanned := (coherent_joined_iff file cleanLines cleanTail).mp sound.coherent
  have cleanNew := clean_put lawful cleanLines cleanTail prepared
  have grown : Lines.Index.scan (lineId packages)
      (lines ++ closed tail ++ [encodeRecord packages prepared]) =
      { spans := Function.update store.state.spans prepared.capsuleId
          (some (Lines.extent (lines ++ closed tail), (encodeRecord packages prepared).length))
        order := store.state.order ++ [prepared.capsuleId] } := by
    rw [scan_closed_concat lawful (lineId_encodeRecord lawful valid) (scanned ▸ fresh) own,
      ← scanned, Lines.Index.enter]
    simp [fresh]
  rw [append_joined file cleanLines cleanTail added]
  have newFile : (⟨some (joined (lines ++ closed tail ++ [encodeRecord packages prepared]) []),
      { spans := Function.update store.state.spans prepared.capsuleId
          (some (Lines.extent (lines ++ closed tail), (encodeRecord packages prepared).length))
        order := store.state.order ++ [prepared.capsuleId]
        lookup := lookup }⟩ : JsonlStore).file =
      some (joined (lines ++ closed tail ++ [encodeRecord packages prepared]) []) := rfl
  refine ⟨(coherent_joined_iff newFile cleanNew clean_nil).mpr grown.symm,
    listed, fun declared id indexable => ?_⟩
  have stillDeclared : store.state.lookup.paths.isSome = true := by
    rw [← paths]
    exact declared
  by_cases same : id = prepared.capsuleId
  · exact same ▸ entered stillDeclared
  · refine kept id (sound.complete.all stillDeclared id ?_)
    obtain ⟨record, read, decodes⟩ := indexable
    refine ⟨record, ?_, decodes⟩
    rw [stored_eq_recordOf newFile (congrArg Lines.Index.spans grown.symm),
      recordOf_concat lawful valid, if_neg same,
      recordOf_closed lawful (fun mine => same (own id mine))] at read
    rw [stored_eq_recordOf file (congrArg Lines.Index.spans scanned), read]

theorem purge_sound (lawful : packages.Lawful) (sound : Sound packages store) (id : String) :
    Sound packages (store.purge packages id).2 := by
  by_cases valid : validId id = true
  swap
  · rw [purge, if_neg valid]
    exact sound
  cases recorded : store.state.spans id with
  | none =>
      rw [purge, if_pos valid, recorded]
      exact sound
  | some span =>
      cases read : readAt packages store.file id span with
      | error e =>
          rw [purge, if_pos valid, recorded]
          simp only [read]
          exact sound
      | ok record =>
          obtain ⟨rfl, bytes, _, file, _⟩ := readAt_ok read
          obtain ⟨lines, tail, rfl, cleanLines, cleanTail⟩ := exists_joined bytes
          have scanned := (coherent_joined_iff file cleanLines cleanTail).mp sound.coherent
          have present : (Lines.lastWith (lineId packages) record.capsuleId lines).isSome = true := by
            rw [← Lines.scan_spans_isSome, ← scanned, recorded]
            rfl
          have keyed := @lineId_encodeRecord packages lawful (purged record) valid
          have cleanNew : ∀ line ∈ Lines.rewriteWith (lineId packages) record.capsuleId
              (encodeRecord packages (purged record)) lines, Lines.Clean newline line := by
            intro line member
            obtain ⟨old, place, rfl⟩ := List.mem_map.mp member
            split
            · exact encodeRecord_clean lawful _
            · exact cleanLines old place
          have order := Lines.scan_order_rewriteWith keyed lines
          rw [purged_capsuleId, ← scanned] at order
          rw [purge_joined lawful file cleanLines cleanTail valid recorded read present]
          have grown : Lines.Index.scan (lineId packages) (Lines.rewriteWith (lineId packages)
              record.capsuleId (encodeRecord packages (purged record)) lines) =
              { spans := (Lines.Index.scan (lineId packages) (Lines.rewriteWith (lineId packages)
                  record.capsuleId (encodeRecord packages (purged record)) lines)).spans
                order := store.state.order } := by
            rw [← order]
          refine ⟨(coherent_joined_iff rfl cleanNew cleanTail).mpr grown.symm,
            sound.complete.listed, fun declared other indexable => ?_⟩
          refine sound.complete.all declared other ?_
          obtain ⟨found, readOther, decodes⟩ := indexable
          have reads := @recordOf_rewriteWith _ _ lawful (purged record) valid present other
          rw [purged_capsuleId] at reads
          rw [stored_eq_recordOf rfl rfl, reads] at readOther
          by_cases same : other = record.capsuleId
          · rw [if_pos same, Except.ok.injEq] at readOther
            refine ⟨record, ?_, ?_⟩
            · rw [stored, same, recorded]
              exact read
            · rw [← readOther] at decodes
              exact decodes
          · rw [if_neg same] at readOther
            exact ⟨found, by rw [stored_eq_recordOf file (congrArg Lines.Index.spans scanned),
              readOther], decodes⟩

theorem create_of_file {bytes : Bytes} (file : store.file = some bytes) : store.create = store := by
  cases store
  cases file
  rfl

theorem create_coherent (coherent : Coherent packages store) : Coherent packages store.create := by
  cases file : store.file with
  | none =>
      rw [Coherent, file] at coherent
      rw [Coherent]
      simp only [create, file]
      exact coherent
  | some bytes => rwa [create_of_file file]

theorem indexable_create (coherent : Coherent packages store) {id : String}
    (indexable : Indexable packages store.create id) : Indexable packages store id := by
  cases file : store.file with
  | none =>
      obtain ⟨record, read, _⟩ := indexable
      rw [Coherent, file] at coherent
      have unspanned : store.create.state.spans id = none := by
        simp [create, coherent, indexed, Lines.Index.empty]
      simp [stored, unspanned] at read
  | some bytes =>
      rwa [create_of_file file] at indexable

theorem create_sound (sound : Sound packages store) : Sound packages store.create :=
  ⟨create_coherent sound.coherent, sound.complete.listed, fun declared id indexable =>
    sound.complete.all declared id (indexable_create sound.coherent indexable)⟩

/-- An index rebuilt over a coherent store is complete. -/
theorem rebuilt_sound (coherent : Coherent packages store) {normalized : List String}
    {lookup : MemoryIndex} (built : rebuilt packages store normalized = .ok lookup) :
    Sound packages { store with state := { store.state with lookup := lookup } } ∧
      lookup.isDeclared = true := by
  obtain ⟨listed, paths, _, all⟩ := addAll_ok (MemoryIndex.listed_reset normalized) rfl
    (fun id member => (order_of_coherent coherent id).mp member) built
  refine ⟨⟨coherent_of_same coherent rfl rfl, listed, fun _ id indexable => ?_⟩, ?_⟩
  · refine all id ((order_of_coherent coherent id).mpr ?_) indexable
    obtain ⟨record, read, _⟩ := indexable
    simp only [stored] at read
    cases recorded : store.state.spans id with
    | none => simp [recorded] at read
    | some span => rfl
  · rw [MemoryIndex.isDeclared, paths]
    rfl

/-- Building the index answers with an error and the store as it was, or leaves
a sound store with declared paths. -/
theorem swap_rebuilt_sound (sound : Sound packages store) (normalized : List String) :
    Sound packages (swapLookup store (rebuilt packages store normalized)).2 ∧
      ((swapLookup store (rebuilt packages store normalized)).1 = .ok () →
        (swapLookup store (rebuilt packages store normalized)).2.state.lookup.isDeclared = true) := by
  cases built : rebuilt packages store normalized with
  | error e => exact ⟨sound, fun ok => by cases ok⟩
  | ok lookup =>
      have made := rebuilt_sound sound.coherent built
      exact ⟨made.1, fun _ => made.2⟩

theorem reindex_sound (sound : Sound packages store) (paths : List String) :
    Sound packages (store.reindex packages paths).2 ∧
      ((store.reindex packages paths).1 = .ok () →
        (store.reindex packages paths).2.state.lookup.isDeclared = true) := by
  rw [reindex]
  cases normalizePaths packages paths with
  | error e => exact ⟨sound, fun ok => by cases ok⟩
  | ok normalized => exact swap_rebuilt_sound (create_sound sound) normalized

theorem declare_same {index : MemoryIndex} {paths : List String} {answer : Bool × MemoryIndex}
    (declared : index.isDeclared = true) (ok : index.declare packages paths = .ok answer) :
    answer.2 = index := by
  obtain ⟨current, known⟩ := Option.isSome_iff_exists.mp declared
  obtain ⟨normalized, _, ok⟩ := bind_eq_ok_iff.mp ok
  simp only [known] at ok
  split at ok
  · cases ok
    rfl
  · cases ok

theorem initIndex_sound (sound : Sound packages store) (paths : List String) :
    Sound packages (store.initIndex packages paths).2 ∧
      ((store.initIndex packages paths).1 = .ok () →
        (store.initIndex packages paths).2.state.lookup.isDeclared = true) := by
  rw [initIndex]
  cases normalizePaths packages paths with
  | error e => exact ⟨sound, fun ok => by cases ok⟩
  | ok normalized =>
      simp only
      split
      · next declared =>
          cases answered : store.state.lookup.declare packages paths with
          | error e => exact ⟨create_sound sound, fun ok => by cases ok⟩
          | ok answer =>
              have same := declare_same declared answered
              simp only [Except.map, swapLookup, same]
              exact ⟨create_sound sound, fun _ => declared⟩
      · exact swap_rebuilt_sound (create_sound sound) normalized

/-! ## Runs -/

/-- An operation on an open store; every write completes. -/
inductive IndexOp where
  | put (record : Record)
  | purge (id : String)
  | initIndex (paths : List String)
  | reindex (paths : List String)

def indexStep (packages : Packages) (trusted : List Bytes) (store : JsonlStore) :
    IndexOp → Result Unit × JsonlStore
  | .put record => store.put packages trusted record .complete
  | .purge id => store.purge packages id
  | .initIndex paths => store.initIndex packages paths
  | .reindex paths => store.reindex packages paths

/-- A put that appends after an unterminated last line finds no Capsule ID in
it, or only the one it puts. -/
def ClosesOwn (packages : Packages) (trusted : List Bytes) (store : JsonlStore) : IndexOp → Prop
  | .put record => ∀ prepared bytes, acceptRecord packages trusted record = .ok prepared →
      store.state.spans prepared.capsuleId = none → store.file = some bytes →
      ∀ other, peekId packages (Lines.split newline bytes).2 = some other →
        other = prepared.capsuleId
  | _ => True

theorem put_sound (lawful : packages.Lawful) (sound : Sound packages store) (record : Record)
    (guard : ClosesOwn packages trusted store (.put record)) :
    Sound packages (store.put packages trusted record .complete).2 := by
  rw [put]
  cases admission : acceptRecord packages trusted record with
  | error e => exact sound
  | ok prepared =>
      simp only
      cases recorded : store.state.spans prepared.capsuleId with
      | some span => exact sound
      | none =>
          cases file : store.file with
          | none =>
              simp only [append, file]
              exact sound
          | some bytes =>
              have own := guard prepared bytes admission recorded file
              obtain ⟨lines, tail, rfl, cleanLines, cleanTail⟩ := exists_joined bytes
              rw [Lines.split_join cleanLines cleanTail] at own
              exact append_sound lawful file cleanLines cleanTail sound (acceptRecord_ok admission).2.1
                recorded own

theorem indexStep_sound (lawful : packages.Lawful) (store : JsonlStore) (op : IndexOp)
    (sound : Sound packages store) (guard : ClosesOwn packages trusted store op) :
    Sound packages (indexStep packages trusted store op).2 := by
  cases op with
  | put record => exact put_sound lawful sound record guard
  | purge id => exact purge_sound lawful sound id
  | initIndex paths => exact (initIndex_sound sound paths).1
  | reindex paths => exact (reindex_sound sound paths).1

theorem new_sound {ns : String} {keys : List Bytes} {file : Option Bytes}
    (opened : JsonlStore.new packages ns keys file = .ok (trusted, store)) :
    Sound packages store := by
  obtain ⟨_, _, same⟩ := bind_eq_ok_iff.mp opened
  cases same
  exact ⟨rfl, MemoryIndex.listed_default, fun declared => by cases declared⟩

/-- Over any file, in every run whose puts close no line with a foreign Capsule
ID, the index in memory is the one a fresh store would compute, its order lists
the keys of its spans, a get answers as after a reopen, and once paths are
declared an unfiltered find reaches every record a get can return. -/
theorem coherent_of_guarded (lawful : packages.Lawful) {ns : String} {keys : List Bytes}
    {file : Option Bytes} {start : JsonlStore}
    (opened : JsonlStore.new packages ns keys file = .ok (trusted, start)) {ops : List IndexOp}
    (guarded : Machine.Guarded (indexStep packages trusted) (ClosesOwn packages trusted) start ops) :
    let store := Machine.after (indexStep packages trusted) start ops
    store.state.toIndex = indexed packages store.file ∧
      (∀ id, id ∈ store.state.order ↔ (store.state.spans id).isSome = true) ∧
      (∀ id, store.get packages trusted id = (store.reopen packages).get packages trusted id) ∧
      (∀ paths, (store.initIndex packages paths).1 = .ok () →
        (store.initIndex packages paths).2.state.lookup.isDeclared = true) ∧
      (store.state.lookup.isDeclared = true → store.state.lookup.ids.length ≤ maxI64 →
        ∀ (limit : Nat), 1 ≤ limit → (limit : Int) ≤ maxFindLimit → ∀ id record,
          store.get packages trusted id = .ok record →
          MemoryIndex.Found packages store.state.lookup limit id) := by
  intro store
  have sound : Sound packages store :=
    Machine.invariant_of_guarded (indexStep_sound lawful) (new_sound opened) guarded
  refine ⟨sound.coherent, order_of_coherent sound.coherent, fun id => ?_,
    fun paths => (initIndex_sound sound paths).2, ?_⟩
  · have spans : store.state.spans = (store.reopen packages).state.spans :=
      congrArg Lines.Index.spans sound.coherent
    rw [get, get, spans]
    rfl
  · intro declared small limit positive bounded id record answered
    obtain ⟨paths, known⟩ := Option.isSome_iff_exists.mp declared
    exact MemoryIndex.found_of_mem known positive bounded small
      (sound.complete.all declared id (indexable_of_get answered))

/-- A file with the front of a record that was not written to its end, one put
and a declaration. -/
theorem coherent_of_guarded_torn :
    let start := fresh paddingPackages (some (utf8 "\x7b\"capsule_id\":"))
    let store := Machine.after (indexStep paddingPackages [trustedKey]) start
      [.put firstRecord, .initIndex []]
    store.state.toIndex = indexed paddingPackages store.file := by
  have guard : ClosesOwn paddingPackages [trustedKey]
      (fresh paddingPackages (some (utf8 "\x7b\"capsule_id\":"))) (.put firstRecord) := by
    intro prepared bytes _ _ file other read
    have unread : peekId paddingPackages
        (Lines.split newline (utf8 "\x7b\"capsule_id\":")).2 = none := by decide +kernel
    obtain rfl : utf8 "\x7b\"capsule_id\":" = bytes := Option.some.inj file
    rw [unread] at read
    cases read
  have guarded : Machine.Guarded (indexStep paddingPackages [trustedKey])
      (ClosesOwn paddingPackages [trustedKey])
      (fresh paddingPackages (some (utf8 "\x7b\"capsule_id\":")))
      [.put firstRecord, .initIndex []] := ⟨guard, trivial, trivial⟩
  exact (coherent_of_guarded paddingPackages_lawful (new_eq paddingConfig _) guarded).1

/-! ## A last line without its newline -/

/-- Over a file that ends in the whole line of a record without its newline, a
put of another record leaves the store incoherent: it does not find the first
record, and a store opened again does. -/
theorem put_over_unterminated (lawful : packages.Lawful) {record other prepared : Record}
    (admission : acceptRecord packages trusted other = .ok prepared)
    (verified : succeeds (verify packages record trusted) = true)
    (different : record.capsuleId ≠ prepared.capsuleId) :
    let store := Machine.after (indexStep packages trusted)
      (fresh packages (some (encodeRecord packages record))) [.put other]
    store.state.toIndex ≠ indexed packages store.file ∧
      store.get packages trusted record.capsuleId = .error .notFound ∧
      (store.reopen packages).get packages trusted record.capsuleId = .ok record := by
  intro store
  have valid := validId_of_verify verified
  have validOther := validId_of_verify (acceptRecord_ok admission).2.1
  have cleanTail : Lines.Clean newline (encodeRecord packages record) := encodeRecord_clean lawful _
  have whole : (encodeRecord packages record).isEmpty = false := by
    rw [Bool.eq_false_iff]
    intro nothing
    have read := peekId_encodeRecord lawful (ne_empty_of_validId valid)
    rw [List.isEmpty_iff.mp nothing, peekId_nil lawful] at read
    cases read
  have empty : (fresh packages (some (encodeRecord packages record))).state.toIndex =
      Lines.Index.empty :=
    @fresh_joined _ [] _ (by simp) cleanTail
  have unspanned : (fresh packages (some (encodeRecord packages record))).state.spans
      prepared.capsuleId = none := by
    rw [empty]
    rfl
  have appended := @append_joined packages (fresh packages (some (encodeRecord packages record))) []
    (encodeRecord packages record) rfl (by simp) cleanTail prepared MemoryIndex.default rfl
  have after : store = ⟨some (joined [encodeRecord packages record, encodeRecord packages prepared] []),
      { spans := Function.update (fun _ => none) prepared.capsuleId
          (some (Lines.extent [encodeRecord packages record],
            (encodeRecord packages prepared).length))
        order := [prepared.capsuleId]
        lookup := MemoryIndex.default }⟩ := by
    simp only [store, Machine.after, indexStep, put, admission, unspanned, appended]
    simp [closed, whole, empty, Lines.Index.empty]
  have cleanBoth : ∀ line ∈ [encodeRecord packages record, encodeRecord packages prepared],
      Lines.Clean newline line := by
    intro line member
    rcases List.mem_pair.mp member with rfl | rfl <;> exact encodeRecord_clean lawful _
  have reopened : (store.reopen packages).state.spans = (Lines.Index.scan (lineId packages)
      [encodeRecord packages record, encodeRecord packages prepared]).spans := by
    rw [after]
    exact congrArg Lines.Index.spans (fresh_joined cleanBoth clean_nil)
  have missing : store.state.spans record.capsuleId = none := by
    rw [after]
    simp only [Function.update_of_ne different]
  have found : stored packages (store.reopen packages) record.capsuleId = .ok record := by
    have last := @recordOf_concat packages [encodeRecord packages record] lawful _ validOther
      record.capsuleId
    rw [if_neg different] at last
    have first := @recordOf_concat packages [] lawful _ valid record.capsuleId
    rw [if_pos rfl] at first
    rw [stored_eq_recordOf (by rw [after]; rfl) reopened]
    exact last.trans first
  refine ⟨fun same => ?_, ?_, ?_⟩
  · have spans : store.state.spans = (store.reopen packages).state.spans :=
      congrArg Lines.Index.spans same
    rw [stored, ← spans, missing] at found
    cases found
  · rw [get, missing, valid]
    rfl
  · obtain ⟨results, verified⟩ := succeeds_iff.mp verified
    rw [get_eq_stored, found, valid]
    simp only [ensure_true, ok_bind, verified]

/-- Two padding records: the file holds the line of the second without its
newline, and the first is put. -/
theorem not_coherent_padding :
    ∃ start : JsonlStore,
      JsonlStore.new paddingPackages "conformance" [trustedKey]
          (some (encodeRecord paddingPackages secondRecord)) = .ok ([trustedKey], start) ∧
        let store := Machine.after (indexStep paddingPackages [trustedKey]) start [.put firstRecord]
        store.state.toIndex ≠ indexed paddingPackages store.file ∧
          store.get paddingPackages [trustedKey] secondRecord.capsuleId = .error .notFound ∧
          (store.reopen paddingPackages).get paddingPackages [trustedKey]
            secondRecord.capsuleId = .ok secondRecord :=
  ⟨_, new_eq paddingConfig _, put_over_unterminated paddingPackages_lawful acceptRecord_firstRecord
    verify_secondRecord capsuleId_ne⟩

end JsonlStore
end ArtifactStore
end CapsuleEmit
