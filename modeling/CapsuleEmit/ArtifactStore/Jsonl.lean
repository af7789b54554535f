import CapsuleEmit.ArtifactStore.Memory
import CapsuleEmit.Foundation.Lines

namespace CapsuleEmit
namespace ArtifactStore

/-!
# The file-backed store

One file, one record per line.  The store keeps for each Capsule ID the byte
span of its line, the IDs in the order of their first lines, and the index of
the index extension.  A put appends one line, and first terminates a last
line that an interrupted write left open.  A purge rewrites the file.  A read
opens the file again at the recorded span.

The file is part of the modelled state, so an interrupted write and a reopen
are steps like the others.  The system calls that open, read and rename are
taken to succeed when the file is there; what may fail is the write of a put,
after any number of bytes.
-/

/-- The id a scan gives a line; an empty line is not read. -/
def lineId (packages : Packages) (line : Bytes) : Option String :=
  if line.isEmpty then none else peekId packages line

/-- One line from a streaming scan, or a last line without its newline. -/
inductive Scanned where
  | line (offset : Nat) (bytes : Bytes) (id : Option String)
  | torn (bytes : Bytes)

/-- What a scan of the file passes on, in order. -/
def scanLines (packages : Packages) (bytes : Bytes) : List Scanned :=
  let pieces := Lines.split newline bytes
  (Lines.offsets 0 pieces.1).map (fun entry => .line entry.1 entry.2 (lineId packages entry.2)) ++
    if pieces.2.isEmpty then [] else [.torn pieces.2]

/-- What the store keeps in memory. -/
structure State extends Lines.Index String where
  lookup : MemoryIndex

/-- The store: its file, absent before it is created, and what it keeps in memory. -/
structure JsonlStore where
  file : Option Bytes
  state : State

/-- How the write of a put ends. -/
inductive Write where
  | complete
  | failed (written : Nat) (why : String)

def noSuchFile : ArtifactError := .storage "No such file or directory (os error 2)"

namespace JsonlStore

section

variable (packages : Packages) (trusted : List Bytes)

/-! ## Opening -/

/-- Index one scanned line; the last line with an id wins. -/
def indexLine (index : Lines.Index String) : Scanned → Lines.Index String
  | .line offset bytes (some id) =>
      { order := if (index.spans id).isSome then index.order else index.order ++ [id]
        spans := Function.update index.spans id (some (offset, bytes.length)) }
  | _ => index

/-- Indexes the file if it exists. -/
def indexed (file : Option Bytes) : Lines.Index String :=
  match file with
  | some bytes => (scanLines packages bytes).foldl indexLine Lines.Index.empty
  | none => Lines.Index.empty

/-- A store just opened over a file: its index, and no declared paths. -/
def fresh (file : Option Bytes) : JsonlStore :=
  ⟨file, { indexed packages file with lookup := MemoryIndex.default }⟩

/-- Validates the configuration and indexes the file if it exists. -/
def new (ns : String) (keys : List Bytes) (file : Option Bytes) : Result (List Bytes × JsonlStore) := do
  let trusted ← checkConfig ns keys
  .ok (trusted, fresh packages file)

/-- Drops the store and opens the file again with the same configuration. -/
def reopen (store : JsonlStore) : JsonlStore := fresh packages store.file

/-- Creates an empty file if none exists. -/
def create (store : JsonlStore) : JsonlStore := { store with file := some (store.file.getD []) }

/-! ## Reading -/

/-- The record at a span, if it is the expected one. -/
def readAt (file : Option Bytes) (id : String) (span : Lines.Span) : Result Record :=
  match file with
  | none => .error noSuchFile
  | some bytes =>
      match Lines.readAt bytes span with
      | none => .error (.corrupt "read failed: failed to fill whole buffer")
      | some line => do
          let record ← decodeRecord packages line
          ensure (record.capsuleId = id) (.corrupt "index points to a different capsule")
          .ok record

/-- Returns a stored record after fail-closed verification. -/
def get (store : JsonlStore) (id : String) : Result Record := do
  ensure (validId id) (.invalid "capsule id")
  match store.state.spans id with
  | none => .error .notFound
  | some span =>
      let record ← readAt packages store.file id span
      let _ ← verify packages record trusted
      .ok record

/-! ## Writing -/

/-- A put of a record whose id is known: an identical retry succeeds. -/
def retry (store : JsonlStore) (prepared : Record) (span : Lines.Span) : Result Unit := do
  let existing ← readAt packages store.file prepared.capsuleId span
  let _ ← verify packages existing trusted
  ensure (storageChecksum packages existing = storageChecksum packages prepared) .conflict
  ensure (!hasPurged existing) .purged

/-- What a put writes before its line: the newline a torn last line lacks. -/
def lead (bytes : Bytes) : Bytes :=
  if bytes.isEmpty || bytes.getLast? = some newline then [] else [newline]

/-- A put of a record whose id is new: one line at the end of the file. -/
def append (store : JsonlStore) (prepared : Record) (write : Write) : Result Unit × JsonlStore :=
  match store.file with
  | none => (.error noSuchFile, store)
  | some bytes =>
      let recordLine := encodeRecord packages prepared
      let offset := bytes.length + (lead bytes).length
      let line := lead bytes ++ recordLine ++ [newline]
      match write with
      | .failed written why =>
          (.error (.storage why), { store with file := some (bytes ++ line.take written) })
      | .complete =>
          let inserted := { store.state with
            spans := Function.update store.state.spans prepared.capsuleId
              (some (offset, recordLine.length))
            order := store.state.order ++ [prepared.capsuleId] }
          match store.state.lookup.add packages prepared.capsuleId prepared.capsule with
          | .ok lookup => (.ok (), ⟨some (bytes ++ line), { inserted with lookup := lookup }⟩)
          | .error e => (.error e, ⟨some (bytes ++ line), inserted⟩)

/-- Admits an immutable record, accepting byte-identical retries. -/
def put (store : JsonlStore) (record : Record) (write : Write) : Result Unit × JsonlStore :=
  match acceptRecord packages trusted record with
  | .error e => (.error e, store)
  | .ok prepared =>
      match store.state.spans prepared.capsuleId with
      | some span => (retry packages trusted store prepared span, store)
      | none => append packages store prepared write

/-- A rewrite in progress: the bytes written, their number, the new spans and
whether the target line was seen. -/
structure Rewriting where
  out : Bytes
  position : Nat
  spans : String → Option Lines.Span
  found : Bool

/-- Copy one scanned line, or write the replacement for a line with the id.  A
torn last line is kept byte for byte and stays unindexed. -/
def rewriteLine (id : String) (replacement : Bytes) (r : Rewriting) : Scanned → Rewriting
  | .torn bytes => { r with out := r.out ++ bytes }
  | .line _ bytes lineId =>
      let written := if lineId = some id then replacement else bytes
      { out := r.out ++ written ++ [newline]
        position := r.position + written.length + 1
        spans := match lineId with
          | some other => Function.update r.spans other (some (r.position, written.length))
          | none => r.spans
        found := r.found || lineId = some id }

/-- The whole rewrite of a file. -/
def rewriting (id : String) (replacement bytes : Bytes) : Rewriting :=
  (scanLines packages bytes).foldl (rewriteLine id replacement) ⟨[], 0, fun _ => none, false⟩

/-- Replaces the line of an id through a temporary file and a rename. -/
def rewrite (store : JsonlStore) (id : String) (replacement : Bytes) :
    Result Unit × JsonlStore :=
  match store.file with
  | none => (.error noSuchFile, store)
  | some bytes =>
      let r := rewriting packages id replacement bytes
      if r.found then
        (.ok (), ⟨some r.out, { store.state with spans := r.spans }⟩)
      else (.error (.corrupt "target line vanished during rewrite"), store)

/-- A line that no longer decodes cannot be rewritten: that is corrupt. -/
def asCorrupt : ArtifactError → ArtifactError
  | .invalid why => .corrupt why
  | other => other

/-- Rewrites the record's line with present originals tombstoned. -/
def purge (store : JsonlStore) (id : String) : Result Unit × JsonlStore :=
  if validId id then
    match store.state.spans id with
    | none => (.error .notFound, store)
    | some span =>
        match readAt packages store.file id span with
        | .error e => (.error (asCorrupt e), store)
        | .ok stored => rewrite packages store id (encodeRecord packages (purged stored))
  else (.error (.invalid "capsule id"), store)

/-! ## The index extension -/

/-- Index the records with the given ids, in order.  A line that no longer
decodes is left out; an id without a span does not occur and would panic. -/
def addAll (store : JsonlStore) (lookup : MemoryIndex) : List String → Result MemoryIndex
  | [] => .ok lookup
  | id :: ids =>
      match readAt packages store.file id ((store.state.spans id).getD (0, 0)) with
      | .error (.corrupt _) | .error (.invalid _) => addAll store lookup ids
      | .error e => .error e
      | .ok record =>
          match lookup.add packages id record.capsule with
          | .ok lookup => addAll store lookup ids
          | .error (.corrupt _) => addAll store lookup ids
          | .error e => .error e

/-- A new index over every readable record, in file order. -/
def rebuilt (store : JsonlStore) (normalized : List String) : Result MemoryIndex :=
  addAll packages store (MemoryIndex.reset normalized) store.state.order

/-- Swap in an index that was built, or keep the one in place. -/
def swapLookup (store : JsonlStore) : Result MemoryIndex → Result Unit × JsonlStore
  | .ok lookup => (.ok (), { store with state := { store.state with lookup := lookup } })
  | .error e => (.error e, store)

/-- Replaces the declared paths and rebuilds the index from the file. -/
def reindex (store : JsonlStore) (paths : List String) : Result Unit × JsonlStore :=
  match normalizePaths packages paths with
  | .error e => (.error e, store)
  | .ok normalized => swapLookup (create store) (rebuilt packages (create store) normalized)

/-- Declares paths for this store and indexes the records in the file. -/
def initIndex (store : JsonlStore) (paths : List String) : Result Unit × JsonlStore :=
  match normalizePaths packages paths with
  | .error e => (.error e, store)
  | .ok normalized =>
      if store.state.lookup.isDeclared then
        swapLookup (create store)
          ((store.state.lookup.declare packages paths).map Prod.snd)
      else swapLookup (create store) (rebuilt packages (create store) normalized)

def find (store : JsonlStore) (query : Query) : Result Page := store.state.lookup.find packages query

end

/-! ## A scan on the split form of the file

Every file is the join of its lines and its remainder.  On that form opening
is the keyed scan of the lines, and a rewrite replaces lines in place.
-/

section Scan

variable {packages : Packages} {lines : List Bytes} {tail : Bytes}

/-- A file on its split form. -/
abbrev joined (lines : List Bytes) (tail : Bytes) : Bytes := Lines.join newline lines tail

/-- Every file has a split form. -/
theorem exists_joined (bytes : Bytes) : ∃ lines tail, bytes = joined lines tail ∧
    (∀ line ∈ lines, Lines.Clean newline line) ∧ Lines.Clean newline tail :=
  ⟨_, _, (Lines.join_split newline bytes).symm, Lines.split_pieces_clean newline bytes⟩

theorem scanLines_joined (cleanLines : ∀ line ∈ lines, Lines.Clean newline line)
    (cleanTail : Lines.Clean newline tail) :
    scanLines packages (joined lines tail) =
      (Lines.offsets 0 lines).map
          (fun entry => .line entry.1 entry.2 (lineId packages entry.2)) ++
        if tail.isEmpty then [] else [.torn tail] := by
  rw [scanLines, Lines.split_join cleanLines cleanTail]

theorem indexLine_line (index : Lines.Index String) (entry : Nat × Bytes) :
    indexLine index (.line entry.1 entry.2 (lineId packages entry.2)) =
      index.read (lineId packages) entry := by
  cases keyed : lineId packages entry.2 with
  | none => simp [indexLine, Lines.Index.read, keyed]
  | some id => simp [indexLine, Lines.Index.read, Lines.Index.enter, keyed]

/-- Opening a file indexes its terminated lines. -/
theorem indexed_joined (cleanLines : ∀ line ∈ lines, Lines.Clean newline line)
    (cleanTail : Lines.Clean newline tail) :
    indexed packages (some (joined lines tail)) = Lines.Index.scan (lineId packages) lines := by
  have torn : ∀ index : Lines.Index String,
      (if tail.isEmpty then [] else [Scanned.torn tail]).foldl indexLine index = index := by
    intro index
    split <;> rfl
  simp only [indexed, scanLines_joined cleanLines cleanTail, List.foldl_append, torn,
    List.foldl_map, indexLine_line]
  rfl

/-- A rewrite replaces the lines with the id in place and indexes the result. -/
theorem rewriting_joined {id : String} {replacement : Bytes}
    (keyed : lineId packages replacement = some id)
    (cleanLines : ∀ line ∈ lines, Lines.Clean newline line)
    (cleanTail : Lines.Clean newline tail) :
    rewriting packages id replacement (joined lines tail) =
      { out := joined (Lines.rewriteWith (lineId packages) id replacement lines) tail
        position := Lines.extent (Lines.rewriteWith (lineId packages) id replacement lines)
        spans := (Lines.Index.scan (lineId packages)
          (Lines.rewriteWith (lineId packages) id replacement lines)).spans
        found := (Lines.lastWith (lineId packages) id lines).isSome } := by
  have copied : ((Lines.offsets 0 lines).map
      (fun entry => Scanned.line entry.1 entry.2 (lineId packages entry.2))).foldl
        (rewriteLine id replacement) ⟨[], 0, fun _ => none, false⟩ =
      { out := joined (Lines.rewriteWith (lineId packages) id replacement lines) []
        position := Lines.extent (Lines.rewriteWith (lineId packages) id replacement lines)
        spans := (Lines.Index.scan (lineId packages)
          (Lines.rewriteWith (lineId packages) id replacement lines)).spans
        found := (Lines.lastWith (lineId packages) id lines).isSome } := by
    clear cleanLines
    induction lines using List.reverseRecOn with
    | nil => rfl
    | append_singleton lines line ih =>
        rw [Lines.offsets_append, List.map_append, List.foldl_append, ih]
        have rewritten : Lines.rewriteWith (lineId packages) id replacement (lines ++ [line]) =
            Lines.rewriteWith (lineId packages) id replacement lines ++
              [if lineId packages line = some id then replacement else line] := by
          simp [Lines.rewriteWith]
        have sameKey := Lines.key_rewrite keyed line
        rw [rewritten, Lines.lastWith_concat]
        simp only [Lines.offsets, List.map_cons, List.map_nil, List.foldl_cons, List.foldl_nil,
          rewriteLine]
        generalize (if lineId packages line = some id then replacement else line) = written
          at sameKey ⊢
        congr 1
        · simp only [joined, Lines.join_append, Lines.join_cons, Lines.join_nil,
            Lines.join_tail_append, List.nil_append]
        · simp [Lines.extent_append]
          omega
        · cases carried : lineId packages line with
          | none =>
              rw [Lines.scan_concat_unkeyed _ (sameKey.trans carried)]
          | some other =>
              rw [Lines.scan_concat_keyed _ (sameKey.trans carried)]
              rfl
        · by_cases same : lineId packages line = some id <;> simp [same]
  rw [rewriting, scanLines_joined cleanLines cleanTail, List.foldl_append, copied]
  cases tail with
  | nil => rfl
  | cons b rest => simp [rewriteLine, joined, Lines.join_tail_append]

/-! ## The bytes a put writes -/

/-- The lines a put adds before its own: the torn last line, if there is one. -/
def closed (tail : Bytes) : List Bytes := if tail.isEmpty then [] else [tail]

theorem lead_joined (cleanTail : Lines.Clean newline tail)
    (cleanLines : ∀ line ∈ lines, Lines.Clean newline line) :
    lead (joined lines tail) = if tail.isEmpty then [] else [newline] := by
  have ends := Lines.split_tail_eq_nil_iff newline (joined lines tail)
  rw [Lines.split_join cleanLines cleanTail] at ends
  simp only at ends
  by_cases empty : tail = []
  · rw [lead, if_pos (by simpa using ends.mp empty), if_pos (by simp [empty])]
  · have closes : ¬ ((joined lines tail).isEmpty ||
        decide ((joined lines tail).getLast? = some newline)) = true := by
      simpa using fun h => empty (ends.mpr h)
    rw [lead, if_neg closes, if_neg (by simpa using empty)]

/-- A torn last line and the newline before a put make a line of their own. -/
theorem joined_lead (rest : Bytes) :
    joined lines tail ++ (if tail.isEmpty then [] else [newline]) ++ rest =
      joined (lines ++ closed tail) rest := by
  cases tail with
  | nil => simp [joined, closed, Lines.join_tail_append]
  | cons b tail =>
      simp only [joined, closed, List.isEmpty_cons, Bool.false_eq_true, if_false]
      rw [Lines.join_tail_append, Lines.join_tail_append, List.append_assoc,
        List.singleton_append, Lines.join_terminate]

theorem extent_closed :
    Lines.extent (lines ++ closed tail) =
      (joined lines tail).length +
        (if tail.isEmpty then ([] : Bytes) else [newline]).length := by
  have whole := congrArg List.length (@joined_lead lines tail [])
  simp only [joined, Lines.length_join, List.append_nil, List.length_append, List.length_nil,
    Nat.add_zero] at whole ⊢
  exact whole.symm

end Scan

/-! ## What a put and a purge do to the file -/

section Effects

variable {packages : Packages} {store : JsonlStore} {lines : List Bytes} {tail : Bytes}

theorem new_eq {ns : String} {keys trusted : List Bytes} (config : checkConfig ns keys = .ok trusted)
    (file : Option Bytes) : new packages ns keys file = .ok (trusted, fresh packages file) := by
  rw [new, config, ok_bind]

theorem fresh_joined (cleanLines : ∀ line ∈ lines, Lines.Clean newline line)
    (cleanTail : Lines.Clean newline tail) :
    (fresh packages (some (joined lines tail))).state.toIndex =
      Lines.Index.scan (lineId packages) lines :=
  indexed_joined cleanLines cleanTail

/-- A put of a new record closes a torn last line and adds one line. -/
theorem append_joined (file : store.file = some (joined lines tail))
    (cleanLines : ∀ line ∈ lines, Lines.Clean newline line) (cleanTail : Lines.Clean newline tail)
    {prepared : Record} {lookup : MemoryIndex}
    (added : store.state.lookup.add packages prepared.capsuleId prepared.capsule = .ok lookup) :
    store.append packages prepared .complete =
      (.ok (), ⟨some (joined (lines ++ closed tail ++ [encodeRecord packages prepared]) []),
        { spans := Function.update store.state.spans prepared.capsuleId
            (some (Lines.extent (lines ++ closed tail), (encodeRecord packages prepared).length))
          order := store.state.order ++ [prepared.capsuleId]
          lookup := lookup }⟩) := by
  have start := lead_joined cleanTail cleanLines
  have whole := @joined_lead lines tail
    (encodeRecord packages prepared ++ [newline])
  have place := @extent_closed lines tail
  have ended : joined (lines ++ closed tail) (encodeRecord packages prepared ++ [newline]) =
      joined (lines ++ closed tail ++ [encodeRecord packages prepared]) [] :=
    Lines.join_terminate newline _ _ []
  rw [ended, List.append_assoc] at whole
  rw [append, file]
  simp only [start, added, place, List.append_assoc] at whole ⊢
  rw [whole]

/-- The lines after a put of a new record. -/
theorem clean_put (lawful : packages.Lawful)
    (cleanLines : ∀ line ∈ lines, Lines.Clean newline line) (cleanTail : Lines.Clean newline tail)
    (prepared : Record) : ∀ line ∈ lines ++ closed tail ++ [encodeRecord packages prepared],
      Lines.Clean newline line := by
  intro line member
  rcases List.mem_append.mp member with member | single
  · rcases List.mem_append.mp member with member | member
    · exact cleanLines line member
    · unfold closed at member
      split at member
      · cases member
      · exact List.mem_singleton.mp member ▸ cleanTail
  · exact List.mem_singleton.mp single ▸ lawful.json.newline_free _

theorem clean_nil : Lines.Clean newline ([] : Bytes) := by
  simp [Lines.Clean]

theorem lineId_of_peekId (lawful : packages.Lawful) {line : Bytes} :
    lineId packages line = peekId packages line := by
  rw [lineId]
  split
  · next empty => rw [List.isEmpty_iff.mp empty, peekId_nil lawful]
  · rfl

theorem lineId_encodeRecord (lawful : packages.Lawful) {record : Record}
    (valid : validId record.capsuleId = true) :
    lineId packages (encodeRecord packages record) = some record.capsuleId := by
  rw [lineId_of_peekId lawful, peekId_encodeRecord lawful (ne_empty_of_validId valid)]

/-- A record read at a span has the expected Capsule ID. -/
theorem readAt_ok {file : Option Bytes} {id : String} {span : Lines.Span} {record : Record}
    (ok : readAt packages file id span = .ok record) :
    record.capsuleId = id ∧ ∃ bytes line, file = some bytes ∧
      Lines.readAt bytes span = some line ∧ decodeRecord packages line = .ok record := by
  unfold readAt at ok
  split at ok
  · cases ok
  · next bytes =>
      split at ok
      · cases ok
      · next line found =>
          obtain ⟨other, decoded, ok⟩ := bind_eq_ok_iff.mp ok
          obtain ⟨_, same, ok⟩ := bind_eq_ok_iff.mp ok
          cases ok
          exact ⟨by simpa using ensure_eq_ok_iff.mp same, bytes, line, rfl, found, decoded⟩

/-- A purge of a record that reads rewrites the lines with its id in place, if
there are any. -/
theorem purge_read (lawful : packages.Lawful) (file : store.file = some (joined lines tail))
    (cleanLines : ∀ line ∈ lines, Lines.Clean newline line) (cleanTail : Lines.Clean newline tail)
    {id : String} (valid : validId id = true) {span : Lines.Span}
    (recorded : store.state.spans id = some span) {stored : Record}
    (read : readAt packages store.file id span = .ok stored) :
    store.purge packages id =
      if (Lines.lastWith (lineId packages) id lines).isSome then
        (.ok (), ⟨some (joined (Lines.rewriteWith (lineId packages) id
            (encodeRecord packages (purged stored)) lines) tail),
          { store.state with
            spans := (Lines.Index.scan (lineId packages) (Lines.rewriteWith (lineId packages) id
              (encodeRecord packages (purged stored)) lines)).spans }⟩)
      else (.error (.corrupt "target line vanished during rewrite"), store) := by
  have named := (readAt_ok read).1
  have keyed : lineId packages (encodeRecord packages (purged stored)) = some id := by
    have validStored : validId (purged stored).capsuleId = true := by
      rw [purged_capsuleId, named, valid]
    rw [lineId_encodeRecord lawful validStored, purged_capsuleId, named]
  rw [purge, if_pos valid, recorded]
  simp only [read]
  simp only [rewrite, file, rewriting_joined keyed cleanLines cleanTail]

/-- A purge that finds the record rewrites its lines in place. -/
theorem purge_joined (lawful : packages.Lawful) (file : store.file = some (joined lines tail))
    (cleanLines : ∀ line ∈ lines, Lines.Clean newline line) (cleanTail : Lines.Clean newline tail)
    {id : String} (valid : validId id = true) {span : Lines.Span}
    (recorded : store.state.spans id = some span) {stored : Record}
    (read : readAt packages store.file id span = .ok stored)
    (present : (Lines.lastWith (lineId packages) id lines).isSome = true) :
    store.purge packages id =
      (.ok (), ⟨some (joined (Lines.rewriteWith (lineId packages) id
          (encodeRecord packages (purged stored)) lines) tail),
        { store.state with
          spans := (Lines.Index.scan (lineId packages) (Lines.rewriteWith (lineId packages) id
            (encodeRecord packages (purged stored)) lines)).spans }⟩) := by
  rw [purge_read lawful file cleanLines cleanTail valid recorded read, if_pos present]

end Effects

end JsonlStore
end ArtifactStore
end CapsuleEmit
