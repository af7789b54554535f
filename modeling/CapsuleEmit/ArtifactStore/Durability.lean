import CapsuleEmit.ArtifactStore.Agreement
import CapsuleEmit.ArtifactStore.Checksum
import CapsuleEmit.ArtifactStore.Coherence

namespace CapsuleEmit
namespace ArtifactStore
namespace JsonlStore

/-!
# Acknowledged records survive torn writes

The write of a put may stop after any number of bytes.  What it leaves is a
last line without a newline, or a whole line the store does not know.  The
next put that appends terminates the torn line.  A store opened again then
reads it, and the last line with an id wins.

What has to be kept is that a store opened again reads what the open store
reads.  A step breaks this only if it terminates a last line that carries a
known Capsule ID and holds something else than the record known under it.  In
every run without such a step, a record whose put succeeded is returned by
every later get, in its tombstoned form once it was purged.
-/

variable {packages : Packages} {trusted : List Bytes} {store : JsonlStore}

/-! ## The file after a put -/

section PutLines

variable {lines : List Bytes} {tail : Bytes} {prepared : Record}

/-- The bytes a put of a new record means to write. -/
def putLine (packages : Packages) (bytes : Bytes) (prepared : Record) : Bytes :=
  lead bytes ++ encodeRecord packages prepared ++ [newline]

/-- Whatever part of its bytes a put wrote, the lines it added are the torn
last line and the line of the record. -/
theorem put_lines (lawful : packages.Lawful)
    (cleanLines : ∀ line ∈ lines, Lines.Clean newline line) (cleanTail : Lines.Clean newline tail)
    (written : Nat) :
    ∃ added rest, joined lines tail ++ (putLine packages (joined lines tail) prepared).take written =
        joined (lines ++ added) rest ∧
      (∀ line ∈ lines ++ added, Lines.Clean newline line) ∧ Lines.Clean newline rest ∧
      ∀ line ∈ added, line = tail ∨ line = encodeRecord packages prepared := by
  let more := (putLine packages (joined lines tail) prepared).take written
  let unwritten := (putLine packages (joined lines tail) prepared).drop written
  have pieces := Lines.split_append newline (joined lines tail) more
  rw [Lines.split_join cleanLines cleanTail] at pieces
  have clean := Lines.split_pieces_clean newline (joined lines tail ++ more)
  have whole := Lines.join_split newline (joined lines tail ++ more)
  rw [pieces] at clean whole
  refine ⟨(Lines.split newline (tail ++ more)).1, (Lines.split newline (tail ++ more)).2,
    whole.symm, clean.1, clean.2, ?_⟩
  have full : tail ++ more ++ unwritten =
      joined (closed tail ++ [encodeRecord packages prepared]) [] := by
    calc
      tail ++ more ++ unwritten = tail ++ putLine packages (joined lines tail) prepared := by
        rw [List.append_assoc, List.take_append_drop]
      _ = joined [] tail ++ (if tail.isEmpty then [] else [newline]) ++
          (encodeRecord packages prepared ++ [newline]) := by
        rw [putLine, lead_joined cleanTail cleanLines]
        simp [joined]
      _ = joined (closed tail) (encodeRecord packages prepared ++ [newline]) :=
        @joined_lead [] _ _
      _ = joined (closed tail ++ [encodeRecord packages prepared]) [] :=
        Lines.join_terminate newline _ _ []
  have cleanFull := @clean_put _ [] _ lawful (by simp) cleanTail prepared
  rw [List.nil_append] at cleanFull
  have front := Lines.split_prefix newline (tail ++ more) unwritten
  rw [full, Lines.split_join cleanFull clean_nil] at front
  intro line member
  rcases List.mem_append.mp (front.subset member) with member | single
  · unfold closed at member
    split at member
    · cases member
    · exact Or.inl (List.mem_singleton.mp member)
  · exact Or.inr (List.mem_singleton.mp single)

/-- Added lines leave the record of an id in place, if each of them that
carries the id holds that record. -/
theorem recordOf_added (lawful : packages.Lawful) {added : List Bytes} {id : String}
    {record : Record} (valid : validId prepared.capsuleId = true)
    (other : id ≠ prepared.capsuleId)
    (from_put : ∀ line ∈ added, line = tail ∨ line = encodeRecord packages prepared)
    (same : peekId packages tail = some id → decodeRecord packages tail = .ok record)
    (found : recordOf packages id lines = .ok record) :
    recordOf packages id (lines ++ added) = .ok record := by
  rw [recordOf, Lines.lastWith_append]
  cases last : Lines.lastWith (lineId packages) id added with
  | none => simpa [recordOf] using found
  | some line =>
      have keyed := Lines.key_of_lastWith _ last
      have named : record.capsuleId = id := by
        rw [recordOf] at found
        split at found
        · cases found
        · obtain ⟨_, _, found⟩ := bind_eq_ok_iff.mp found
          obtain ⟨_, named, found⟩ := bind_eq_ok_iff.mp found
          cases found
          simpa using ensure_eq_ok_iff.mp named
      rcases from_put line (Lines.lastWith_mem _ last) with rfl | rfl
      · rw [lineId_of_peekId lawful] at keyed
        simp [same keyed, named]
      · rw [lineId_encodeRecord lawful valid] at keyed
        exact absurd (Option.some.inj keyed).symm other

end PutLines

/-! ## What a store opened again reads -/

/-- Every span lies in the file, and a store opened again reads the records
this one reads. -/
structure Faithful (packages : Packages) (store : JsonlStore) : Prop where
  readable : ∀ id span, store.state.spans id = some span →
    ∃ bytes line, store.file = some bytes ∧ Lines.readAt bytes span = some line
  reread : ∀ id record, stored packages store id = .ok record →
    stored packages (store.reopen packages) id = .ok record

section Joined

variable {lines : List Bytes} {tail : Bytes}

theorem stored_reopen (file : store.file = some (joined lines tail))
    (cleanLines : ∀ line ∈ lines, Lines.Clean newline line) (cleanTail : Lines.Clean newline tail)
    (id : String) : stored packages (store.reopen packages) id = recordOf packages id lines := by
  have reopened : (store.reopen packages).file = some (joined lines tail) := file
  refine stored_eq_recordOf reopened ?_ id
  rw [reopen, file]
  exact congrArg Lines.Index.spans (fresh_joined cleanLines cleanTail)

/-- A store whose spans are those of the scan of its lines is faithful. -/
theorem faithful_of_scanned (file : store.file = some (joined lines tail))
    (cleanLines : ∀ line ∈ lines, Lines.Clean newline line) (cleanTail : Lines.Clean newline tail)
    (scanned : store.state.spans = (Lines.Index.scan (lineId packages) lines).spans) :
    Faithful packages store where
  readable := by
    intro id span recorded
    rw [scanned] at recorded
    have known := Lines.scan_spans_isSome (lineId packages) lines id
    have line := Lines.scan_spans_read (lineId packages) newline lines tail recorded
    rw [recorded, Option.isSome_some, eq_comm, Option.isSome_iff_exists] at known
    obtain ⟨last, found⟩ := known
    exact ⟨_, last, file, line.trans found⟩
  reread := by
    intro id record read
    rwa [stored_reopen file cleanLines cleanTail, ← stored_eq_recordOf file scanned]

end Joined

theorem faithful_fresh (file : Option Bytes) : Faithful packages (fresh packages file) := by
  cases file with
  | none =>
      constructor
      · intro id span recorded
        cases recorded
      · intro id record read
        cases read
  | some bytes =>
      obtain ⟨lines, tail, rfl, cleanLines, cleanTail⟩ := exists_joined bytes
      exact faithful_of_scanned rfl cleanLines cleanTail
        (congrArg Lines.Index.spans (fresh_joined cleanLines cleanTail))

/-! ## Steps -/

/-- An operation; the write of a put may fail after any number of bytes. -/
inductive WriteOp where
  | put (record : Record) (write : Write)
  | purge (id : String)
  | reopen

def writeStep (packages : Packages) (trusted : List Bytes) (store : JsonlStore) :
    WriteOp → Result Unit × JsonlStore
  | .put record write => store.put packages trusted record write
  | .purge id => store.purge packages id
  | .reopen => (.ok (), store.reopen packages)

/-- A put that appends after an unterminated last line finds no known Capsule
ID in it, or finds the record that is known under it. -/
def ClosesSame (packages : Packages) (trusted : List Bytes) (store : JsonlStore) : WriteOp → Prop
  | .put record _ => ∀ prepared bytes, acceptRecord packages trusted record = .ok prepared →
      store.state.spans prepared.capsuleId = none → store.file = some bytes →
      ∀ id known, peekId packages (Lines.split newline bytes).2 = some id →
        stored packages store id = .ok known →
        decodeRecord packages (Lines.split newline bytes).2 = .ok known
  | _ => True

/-- The number of bytes of its line a put writes. -/
def writtenBytes (line : Bytes) : Write → Nat
  | .complete => line.length
  | .failed written _ => written

/-- The spans after a put of a new record. -/
theorem append_effect {bytes : Bytes} (file : store.file = some bytes) {prepared : Record}
    (verified : succeeds (verify packages prepared trusted) = true) (write : Write) :
    (store.append packages prepared write).2.file = some (bytes ++
        (putLine packages bytes prepared).take (writtenBytes (putLine packages bytes prepared) write)) ∧
      ∀ id, id ≠ prepared.capsuleId →
        (store.append packages prepared write).2.state.spans id = store.state.spans id := by
  obtain ⟨lookup, added⟩ := MemoryIndex.add_of_decodes store.state.lookup
    (decodes_of_verify verified) prepared.capsuleId
  rw [append, file]
  cases write with
  | complete =>
      simp only [added]
      refine ⟨?_, fun id different => Function.update_of_ne different _ _⟩
      rw [writtenBytes, List.take_length]
      rfl
  | failed written why => exact ⟨rfl, fun _ _ => rfl⟩

/-- The record a put of a new id leaves under it, if its write completes. -/
theorem stored_append (lawful : packages.Lawful) {bytes : Bytes} (file : store.file = some bytes)
    {prepared : Record} (verified : succeeds (verify packages prepared trusted) = true) :
    (store.append packages prepared .complete).1 = .ok () ∧
      stored packages (store.append packages prepared .complete).2 prepared.capsuleId =
        .ok prepared := by
  obtain ⟨lookup, added⟩ := MemoryIndex.add_of_decodes store.state.lookup
    (decodes_of_verify verified) prepared.capsuleId
  obtain ⟨lines, tail, rfl, cleanLines, cleanTail⟩ := exists_joined bytes
  rw [append_joined file cleanLines cleanTail added]
  refine ⟨rfl, ?_⟩
  have place := Lines.readAt_join newline (lines ++ closed tail)
    (encodeRecord packages prepared) [newline]
  rw [Lines.join_terminate newline (lines ++ closed tail) (encodeRecord packages prepared) []]
    at place
  simp only [stored, Function.update_self, readAt, joined, place, decodeRecord_encodeRecord lawful,
    ok_bind, decide_true, ensure_true]

/-- A record read under another id stays the same after a put. -/
theorem stored_extend {more : Bytes} {bytes : Bytes} (file : store.file = some bytes)
    {other : JsonlStore} (grown : other.file = some (bytes ++ more)) {id : String}
    (spans : other.state.spans id = store.state.spans id) {record : Record}
    (read : stored packages store id = .ok record) : stored packages other id = .ok record := by
  rw [stored] at read ⊢
  rw [spans]
  cases recorded : store.state.spans id with
  | none => simp [recorded] at read
  | some span =>
      rw [recorded] at read
      simp only [readAt, file, grown] at read ⊢
      cases line : Lines.readAt bytes span with
      | none => simp [line] at read
      | some bytes' =>
          rw [Lines.readAt_extend more line]
          rwa [line] at read

section Append

variable {lines : List Bytes} {tail : Bytes} {prepared : Record}

/-- A put of a new record keeps a store faithful, if it closes no other record
under a known id. -/
theorem append_faithful (lawful : packages.Lawful) (file : store.file = some (joined lines tail))
    (cleanLines : ∀ line ∈ lines, Lines.Clean newline line) (cleanTail : Lines.Clean newline tail)
    (faithful : Faithful packages store)
    (verified : succeeds (verify packages prepared trusted) = true)
    (new : store.state.spans prepared.capsuleId = none)
    (same : ∀ id known, peekId packages tail = some id → stored packages store id = .ok known →
      decodeRecord packages tail = .ok known) (write : Write) :
    Faithful packages (store.append packages prepared write).2 := by
  have valid := validId_of_verify verified
  obtain ⟨grown, spans⟩ := append_effect file verified write
  obtain ⟨added, rest, shape, cleanAdded, cleanRest, from_put⟩ := @put_lines _ _ _ prepared
    lawful cleanLines cleanTail
    (writtenBytes (putLine packages (joined lines tail) prepared) write)
  have newFile := grown
  rw [shape] at newFile
  have newSpan : write ≠ .complete →
      (store.append packages prepared write).2.state.spans prepared.capsuleId = none := by
    intro incomplete
    cases write with
    | complete => exact absurd rfl incomplete
    | failed written why =>
        rw [append, file]
        exact new
  constructor
  · intro id span recorded
    by_cases own : id = prepared.capsuleId
    · subst own
      cases write with
      | failed written why => simp [newSpan (by simp)] at recorded
      | complete =>
          have read := (stored_append lawful file verified).2
          rw [stored, recorded] at read
          obtain ⟨_, bytes, line, file', line', _⟩ := readAt_ok read
          exact ⟨bytes, line, file', line'⟩
    · rw [spans id own] at recorded
      obtain ⟨bytes, line, file', line'⟩ := faithful.readable id span recorded
      obtain rfl : joined lines tail = bytes := Option.some.inj (file.symm.trans file')
      exact ⟨_, line, grown, Lines.readAt_extend _ line'⟩
  · intro id record read
    by_cases own : id = prepared.capsuleId
    · subst own
      cases write with
      | failed written why => simp [stored, newSpan (by simp)] at read
      | complete =>
          obtain rfl : prepared = record :=
            Except.ok.inj ((stored_append lawful file verified).2.symm.trans read)
          obtain ⟨lookup, taken⟩ := MemoryIndex.add_of_decodes store.state.lookup
            (decodes_of_verify verified) prepared.capsuleId
          have ended := congrArg (fun answer => answer.2.file)
            (append_joined file cleanLines cleanTail taken)
          rw [stored_reopen ended (clean_put lawful cleanLines cleanTail prepared) clean_nil,
            recordOf_concat lawful valid, if_pos rfl]
    · have before : stored packages store id = .ok record := by
        rw [stored, spans id own] at read
        rw [stored]
        cases recorded : store.state.spans id with
        | none => simp [recorded] at read
        | some span =>
            obtain ⟨bytes, line, file', line'⟩ := faithful.readable id span recorded
            obtain rfl : joined lines tail = bytes := Option.some.inj (file.symm.trans file')
            rw [recorded] at read
            simp only [readAt, grown, Lines.readAt_extend _ line'] at read
            simp only [readAt, file, line']
            exact read
      have reread := faithful.reread id record before
      rw [stored_reopen file cleanLines cleanTail] at reread
      rw [stored_reopen newFile cleanAdded cleanRest]
      exact recordOf_added lawful valid own from_put
        (fun carries => same id record carries before) reread

/-- Every other record read before a put of a new one is read after it. -/
theorem append_stored (file : store.file = some (joined lines tail))
    (verified : succeeds (verify packages prepared trusted) = true) (write : Write) {id : String}
    (own : id ≠ prepared.capsuleId) {record : Record}
    (read : stored packages store id = .ok record) :
    stored packages (store.append packages prepared write).2 id = .ok record := by
  obtain ⟨grown, spans⟩ := append_effect file verified write
  exact stored_extend file grown (spans id own) read

end Append

/-- A purge of a record that reads leaves the scan of a rewritten file, or
nothing happens. -/
theorem purge_faithful (lawful : packages.Lawful) (faithful : Faithful packages store)
    (id : String) : Faithful packages (store.purge packages id).2 := by
  by_cases valid : validId id = true
  swap
  · rwa [purge, if_neg valid]
  cases recorded : store.state.spans id with
  | none => rwa [purge, if_pos valid, recorded]
  | some span =>
      cases read : readAt packages store.file id span with
      | error e =>
          rw [purge, if_pos valid, recorded]
          simp only [read]
          exact faithful
      | ok record =>
          obtain ⟨_, bytes, _, file, _⟩ := readAt_ok read
          obtain ⟨lines, tail, rfl, cleanLines, cleanTail⟩ := exists_joined bytes
          rw [purge_read lawful file cleanLines cleanTail valid recorded read]
          split
          · refine faithful_of_scanned rfl (fun line member => ?_) cleanTail rfl
            obtain ⟨old, place, rfl⟩ := List.mem_map.mp member
            split
            · exact encodeRecord_clean lawful _
            · exact cleanLines old place
          · exact faithful

/-- The record under an id after an operation: a purge of the id leaves its
tombstoned form. -/
def revised (id : String) (record : Record) : WriteOp → Record
  | .purge target => if target = id then purged record else record
  | _ => record

/-- A purge keeps every record that is read, in its revised form. -/
theorem purge_stored (lawful : packages.Lawful) (faithful : Faithful packages store)
    {id : String} {record : Record} (read : stored packages store id = .ok record)
    (valid : validId id = true) (target : String) :
    stored packages (store.purge packages target).2 id =
      .ok (revised id record (.purge target)) := by
  have unchanged : target ≠ id → stored packages store id =
      .ok (revised id record (.purge target)) := fun different => by
    rw [revised, if_neg different, read]
  -- the record under the id is the one of its last line
  have reread := faithful.reread id record read
  by_cases validTarget : validId target = true
  swap
  · rw [purge, if_neg validTarget]
    exact unchanged (fun same => validTarget (same ▸ valid))
  cases recorded : store.state.spans target with
  | none =>
      rw [purge, if_pos validTarget, recorded]
      refine unchanged (fun same => ?_)
      subst same
      simp [stored, recorded] at read
  | some span =>
      cases readTarget : readAt packages store.file target span with
      | error e =>
          rw [purge, if_pos validTarget, recorded]
          simp only [readTarget]
          refine unchanged (fun same => ?_)
          subst same
          simp [stored, recorded, readTarget] at read
      | ok found =>
          obtain ⟨rfl, bytes, _, file, _⟩ := readAt_ok readTarget
          obtain ⟨lines, tail, rfl, cleanLines, cleanTail⟩ := exists_joined bytes
          rw [stored_reopen file cleanLines cleanTail] at reread
          rw [purge_read lawful file cleanLines cleanTail validTarget recorded readTarget]
          split
          · next present =>
              have reads := @recordOf_rewriteWith _ _ lawful (purged found) validTarget
                present id
              rw [purged_capsuleId] at reads
              rw [stored_eq_recordOf rfl rfl, reads, revised]
              by_cases same : found.capsuleId = id
              · subst same
                rw [stored, recorded] at read
                obtain rfl : found = record := Except.ok.inj (readTarget.symm.trans read)
                simp
              · rw [if_neg same, if_neg (fun equal => same equal.symm), reread]
          · next missing =>
              refine unchanged (fun same => ?_)
              subst same
              rw [recordOf] at reread
              split at reread
              · cases reread
              · next line last => simp [last] at missing

theorem writeStep_faithful (lawful : packages.Lawful) (store : JsonlStore) (op : WriteOp)
    (faithful : Faithful packages store) (guard : ClosesSame packages trusted store op) :
    Faithful packages (writeStep packages trusted store op).2 := by
  cases op with
  | reopen => exact faithful_fresh store.file
  | purge id => exact purge_faithful lawful faithful id
  | put record write =>
      simp only [writeStep, put]
      cases admission : acceptRecord packages trusted record with
      | error e => exact faithful
      | ok prepared =>
          simp only
          cases new : store.state.spans prepared.capsuleId with
          | some span => exact faithful
          | none =>
              cases file : store.file with
              | none =>
                  simp only [append, file]
                  exact faithful
              | some bytes =>
                  have same := guard prepared bytes admission new file
                  obtain ⟨lines, tail, rfl, cleanLines, cleanTail⟩ := exists_joined bytes
                  rw [Lines.split_join cleanLines cleanTail] at same
                  exact append_faithful lawful file cleanLines cleanTail faithful
                    (acceptRecord_ok admission).2.1 new same write

/-- A record that is read is read after every step, in its revised form. -/
theorem writeStep_stored (lawful : packages.Lawful) (faithful : Faithful packages store)
    {id : String} {record : Record} (read : stored packages store id = .ok record)
    (valid : validId id = true) (op : WriteOp) :
    stored packages (writeStep packages trusted store op).2 id = .ok (revised id record op) := by
  cases op with
  | reopen => exact faithful.reread id record read
  | purge target => exact purge_stored lawful faithful read valid target
  | put other write =>
      simp only [writeStep, put, revised]
      cases admission : acceptRecord packages trusted other with
      | error e => exact read
      | ok prepared =>
          simp only
          cases new : store.state.spans prepared.capsuleId with
          | some span => exact read
          | none =>
              have own : id ≠ prepared.capsuleId := by
                intro same
                simp [stored, same, new] at read
              cases file : store.file with
              | none =>
                  simp only [append, file]
                  exact read
              | some bytes =>
                  obtain ⟨lines, tail, rfl, _, _⟩ := exists_joined bytes
                  exact append_stored file (acceptRecord_ok admission).2.1 write own read

/-! ## Runs -/

/-- Over a guarded run a record that is read stays, tombstoned once it is purged. -/
theorem stored_after (lawful : packages.Lawful) (faithful : Faithful packages store)
    {id : String} (valid : validId id = true) {ops : List WriteOp}
    (guarded : Machine.Guarded (writeStep packages trusted) (ClosesSame packages trusted) store ops)
    {record : Record} (read : stored packages store id = .ok record) :
    ∃ found, stored packages (Machine.after (writeStep packages trusted) store ops) id = .ok found ∧
      (.purge id ∉ ops → found = record) ∧ (.purge id ∈ ops → found = purged record) := by
  induction ops generalizing store record with
  | nil => exact ⟨record, read, fun _ => rfl, fun member => by cases member⟩
  | cons op ops ih =>
      have next := @writeStep_stored _ trusted _ lawful faithful _ _ read valid op
      obtain ⟨found, last, kept, gone⟩ :=
        ih (writeStep_faithful lawful store op faithful guarded.1) guarded.2 next
      refine ⟨found, last, fun absent => ?_, fun member => ?_⟩
      · rw [List.mem_cons, not_or] at absent
        rw [kept absent.2]
        cases op with
        | purge target =>
            have different : ¬ target = id := fun same => absent.1 (by rw [same])
            rw [revised, if_neg different]
        | put record write => rfl
        | reopen => rfl
      · by_cases later : .purge id ∈ ops
        · rw [gone later]
          cases op with
          | purge target =>
              rw [revised]
              split
              · exact purged_purged record
              · rfl
          | put record write => rfl
          | reopen => rfl
        · rw [kept later]
          obtain rfl : .purge id = op := (List.mem_cons.mp member).resolve_right later
          rw [revised, if_pos rfl]

/-- A put that succeeded leaves a verified record that is the one put. -/
theorem stored_of_acknowledged (lawful : packages.Lawful) {record prepared : Record}
    {write : Write} (admission : acceptRecord packages trusted record = .ok prepared)
    (acknowledged : (store.put packages trusted record write).1 = .ok ())
    (free : ∀ existing, stored packages store prepared.capsuleId = .ok existing →
      CollisionFree packages (hashed packages existing ++ hashed packages prepared)) :
    ∃ found, stored packages (store.put packages trusted record write).2 prepared.capsuleId =
        .ok found ∧ Admitted packages trusted found ∧ SameRecord found prepared := by
  have admitted := Admitted.of_acceptRecord admission
  rw [put, admission] at acknowledged ⊢
  simp only at acknowledged ⊢
  cases recorded : store.state.spans prepared.capsuleId with
  | none =>
      rw [recorded] at acknowledged
      simp only at acknowledged
      cases file : store.file with
      | none =>
          simp only [append, file] at acknowledged
          cases acknowledged
      | some bytes =>
          cases write with
          | failed written why =>
              simp only [append, file] at acknowledged
              cases acknowledged
          | complete =>
              exact ⟨prepared, (stored_append lawful file admitted.verified).2, admitted,
                .refl prepared⟩
  | some span =>
      rw [recorded] at acknowledged
      obtain ⟨existing, read, acknowledged⟩ := bind_eq_ok_iff.mp acknowledged
      obtain ⟨_, verified, acknowledged⟩ := bind_eq_ok_iff.mp acknowledged
      obtain ⟨_, same, kept⟩ := bind_eq_ok_iff.mp acknowledged
      have here : stored packages store prepared.capsuleId = .ok existing := by
        rw [stored, recorded]
        exact read
      have verified : succeeds (verify packages existing trusted) = true :=
        succeeds_iff.mpr ⟨_, verified⟩
      have record := sameRecord_of_checksum lawful admission verified
        (by simpa using ensure_eq_ok_iff.mp kept) (free existing here)
        (by simpa using ensure_eq_ok_iff.mp same)
      refine ⟨existing, here, ⟨verified, fun a member => ?_⟩, record⟩
      exact admitted.settled a (record.artifacts.mem_iff.mp member)

/-- A get answers a record that is read and admitted. -/
theorem get_of_stored {id : String} {record : Record} (valid : validId id = true)
    (read : stored packages store id = .ok record)
    (admitted : Admitted packages trusted record) :
    store.get packages trusted id = .ok record := by
  obtain ⟨results, verified⟩ := succeeds_iff.mp admitted.verified
  rw [get_eq_stored, valid, read]
  simp only [ensure_true, ok_bind, verified]

/-- Over any file, in every run of puts that may fail anywhere in their write,
purges and reopens, if no put closes a last line with another record under a
known Capsule ID, a record whose put succeeded is returned by a get at the end
of the run and after opening the file again: as put, or in its tombstoned form
if it was purged. -/
theorem acknowledged_record_kept (lawful : packages.Lawful) {ns : String} {keys : List Bytes}
    {file : Option Bytes} {start : JsonlStore}
    (opened : JsonlStore.new packages ns keys file = .ok (trusted, start))
    {front back : List WriteOp} {record prepared : Record} {write : Write}
    (guarded : Machine.Guarded (writeStep packages trusted) (ClosesSame packages trusted) start
      (front ++ .put record write :: back))
    (admission : acceptRecord packages trusted record = .ok prepared)
    (acknowledged : (writeStep packages trusted
      (Machine.after (writeStep packages trusted) start front) (.put record write)).1 = .ok ())
    (free : ∀ existing, stored packages (Machine.after (writeStep packages trusted) start front)
        prepared.capsuleId = .ok existing →
      CollisionFree packages (hashed packages existing ++ hashed packages prepared)) :
    let store := Machine.after (writeStep packages trusted) start
      (front ++ .put record write :: back)
    ∃ found, store.get packages trusted prepared.capsuleId = .ok found ∧
      (store.reopen packages).get packages trusted prepared.capsuleId = .ok found ∧
      (.purge prepared.capsuleId ∉ back → SameRecord found prepared) ∧
      (.purge prepared.capsuleId ∈ back → SameRecord found (purged prepared)) := by
  intro store
  obtain ⟨_, _, same⟩ := bind_eq_ok_iff.mp opened
  cases same
  rw [Machine.guarded_append] at guarded
  obtain ⟨guardedFront, guardedPut, guardedBack⟩ := guarded
  have faithful := Machine.invariant_of_guarded (writeStep_faithful lawful)
    (faithful_fresh file) guardedFront
  have valid := (Admitted.of_acceptRecord admission).validId
  obtain ⟨put, read, admitted, same⟩ := stored_of_acknowledged lawful admission acknowledged free
  have faithfulPut := writeStep_faithful lawful _ _ faithful guardedPut
  obtain ⟨found, last, kept, gone⟩ :=
    stored_after lawful faithfulPut valid guardedBack read
  have whole : store = Machine.after (writeStep packages trusted) (writeStep packages trusted
      (Machine.after (writeStep packages trusted) (fresh packages file) front)
        (.put record write)).2 back := Machine.after_append _ _ _
  have faithfulStore : Faithful packages store := by
    rw [whole]
    exact Machine.invariant_of_guarded (writeStep_faithful lawful) faithfulPut guardedBack
  rw [← whole] at last
  have admittedFound : Admitted packages trusted found := by
    by_cases purge : .purge prepared.capsuleId ∈ back
    · rw [gone purge]
      exact admitted.purged lawful
    · rw [kept purge]
      exact admitted
  refine ⟨found, get_of_stored valid last admittedFound,
    get_of_stored valid (faithfulStore.reread _ _ last) admittedFound,
    fun absent => ?_, fun member => ?_⟩
  · rw [kept absent]
    exact same
  · rw [gone member]
    exact same.purged

/-- One record over an empty file, a reopen and a purge. -/
theorem acknowledged_record_kept_padding :
    let store := Machine.after (writeStep paddingPackages [trustedKey])
      (fresh paddingPackages (some []))
      ([] ++ .put firstRecord .complete :: [.reopen, .purge firstRecord.capsuleId])
    ∃ found, store.get paddingPackages [trustedKey] firstRecord.capsuleId = .ok found ∧
      SameRecord found (purged firstRecord) := by
  have unspanned : (fresh paddingPackages (some [])).state.spans firstRecord.capsuleId = none := rfl
  have guard : ClosesSame paddingPackages [trustedKey] (fresh paddingPackages (some []))
      (.put firstRecord .complete) := by
    intro _ bytes _ _ file id known read
    obtain rfl : [] = bytes := Option.some.inj file
    rw [show (Lines.split newline ([] : Bytes)).2 = [] from rfl,
      peekId_nil paddingPackages_lawful] at read
    cases read
  have acknowledged : (writeStep paddingPackages [trustedKey] (fresh paddingPackages (some []))
      (.put firstRecord .complete)).1 = .ok () := by
    simp only [writeStep, put, acceptRecord_firstRecord, unspanned]
    exact (stored_append paddingPackages_lawful rfl verify_firstRecord).1
  have guarded : Machine.Guarded (writeStep paddingPackages [trustedKey])
      (ClosesSame paddingPackages [trustedKey]) (fresh paddingPackages (some []))
      ([] ++ .put firstRecord .complete :: [.reopen, .purge firstRecord.capsuleId]) :=
    ⟨guard, trivial, trivial, trivial⟩
  obtain ⟨found, got, _, _, gone⟩ := acknowledged_record_kept paddingPackages_lawful
    (new_eq paddingConfig (some [])) guarded acceptRecord_firstRecord acknowledged (fun existing read => by
      rw [Machine.after_nil, stored, unspanned] at read
      cases read)
  exact ⟨found, got, gone (by simp)⟩

/-! ## A torn line under a known Capsule ID -/

/-- Two puts under one Capsule ID fail, the first after its whole line and the
second before its newline.  Opened again, the store acknowledges the first
record, and the next put terminates the line of the second, which wins. -/
theorem get_after_shadowed (lawful : packages.Lawful) {first second other : Record}
    {kept lost next : Record} (admission : acceptRecord packages trusted first = .ok kept)
    (admissionLost : acceptRecord packages trusted second = .ok lost)
    (admissionNext : acceptRecord packages trusted other = .ok next)
    (sameId : lost.capsuleId = kept.capsuleId) (different : kept.capsuleId ≠ next.capsuleId)
    (why : String) :
    let ops : List WriteOp := [
      .put first (.failed ((encodeRecord packages kept).length + 1) why),
      .put second (.failed (encodeRecord packages lost).length why),
      .reopen, .put first .complete, .put other .complete, .reopen]
    Machine.answers (writeStep packages trusted) (fresh packages (some [])) ops =
        [.error (.storage why), .error (.storage why), .ok (), .ok (), .ok (), .ok ()] ∧
      (Machine.after (writeStep packages trusted) (fresh packages (some [])) ops).get packages
        trusted kept.capsuleId = .ok lost := by
  intro ops
  have admittedKept := Admitted.of_acceptRecord admission
  have admittedLost := Admitted.of_acceptRecord admissionLost
  have admittedNext := Admitted.of_acceptRecord admissionNext
  let one := fresh packages (some [])
  let two : JsonlStore := ⟨some (joined [encodeRecord packages kept] []), one.state⟩
  let three : JsonlStore :=
    ⟨some (joined [encodeRecord packages kept] (encodeRecord packages lost)), one.state⟩
  let four := fresh packages three.file
  have cleanKept : ∀ line ∈ [encodeRecord packages kept], Lines.Clean newline line := by
    intro line member
    exact List.mem_singleton.mp member ▸ encodeRecord_clean lawful kept
  have cleanLost : Lines.Clean newline (encodeRecord packages lost) := encodeRecord_clean lawful lost
  have step1 : writeStep packages trusted one
      (.put first (.failed ((encodeRecord packages kept).length + 1) why)) =
        (.error (.storage why), two) := by
    have unspanned : one.state.spans kept.capsuleId = none := rfl
    have size : (encodeRecord packages kept ++ [newline]).take
        ((encodeRecord packages kept).length + 1) = encodeRecord packages kept ++ [newline] :=
      List.take_of_length_le (by simp)
    simp only [writeStep, put, admission, unspanned, append]
    simp [one, two, fresh, lead, size, joined, Lines.join]
  have step2 : writeStep packages trusted two
      (.put second (.failed (encodeRecord packages lost).length why)) =
        (.error (.storage why), three) := by
    have unspanned : two.state.spans lost.capsuleId = none := rfl
    have start := lead_joined clean_nil cleanKept
    simp only [writeStep, put, admissionLost, unspanned, append]
    simp only [two, three, start]
    simp [joined, Lines.join_tail_append]
  have scanned : four.state.toIndex =
      Lines.Index.scan (lineId packages) [encodeRecord packages kept] :=
    fresh_joined cleanKept cleanLost
  have faithful : Faithful packages four := faithful_fresh _
  have read : stored packages four kept.capsuleId = .ok kept := by
    rw [stored_eq_recordOf rfl (congrArg Lines.Index.spans scanned)]
    exact (@recordOf_concat _ [] lawful _ admittedKept.validId kept.capsuleId).trans
      (if_pos rfl)
  have step4 : writeStep packages trusted four (.put first .complete) = (.ok (), four) := by
    have answered := read
    rw [stored] at answered
    cases recorded : four.state.spans kept.capsuleId with
    | none => simp [recorded] at answered
    | some span =>
        rw [recorded] at answered
        obtain ⟨results, verified⟩ := succeeds_iff.mp admittedKept.verified
        have whole := (acceptRecord_ok admission).2.2.2
        simp only [writeStep, put, admission, recorded, retry]
        simp only at answered
        simp only [answered, verified, ok_bind, decide_true, ensure_true, whole]
        rfl
  obtain ⟨lookup, taken⟩ := MemoryIndex.add_of_decodes four.state.lookup
    (decodes_of_verify admittedNext.verified) next.capsuleId
  have appended := @append_joined _ four _ _ rfl cleanKept cleanLost _ _ taken
  have whole : (encodeRecord packages lost).isEmpty = false := by
    rw [Bool.eq_false_iff]
    intro nothing
    have read := peekId_encodeRecord lawful (ne_empty_of_validId admittedLost.validId)
    rw [List.isEmpty_iff.mp nothing, peekId_nil lawful] at read
    cases read
  have unspanned : four.state.spans next.capsuleId = none := by
    have single := Lines.scan_concat_keyed (lineId packages)
      (lineId_encodeRecord lawful admittedKept.validId) []
    rw [List.nil_append] at single
    rw [scanned, single, Lines.Index.enter_spans_of_ne _ different.symm]
    rfl
  have step5 : writeStep packages trusted four (.put other .complete) =
      four.append packages next .complete := by
    simp only [writeStep, put, admissionNext, unspanned]
  have ended : (four.append packages next .complete).2.file = some (joined
      [encodeRecord packages kept, encodeRecord packages lost, encodeRecord packages next] []) := by
    rw [appended]
    simp [closed, whole]
  have cleanAll : ∀ line ∈ [encodeRecord packages kept, encodeRecord packages lost,
      encodeRecord packages next], Lines.Clean newline line := by
    have clean := clean_put lawful cleanKept cleanLost next
    rw [closed, whole] at clean
    exact clean
  have final : stored packages ((four.append packages next .complete).2.reopen packages)
      kept.capsuleId = .ok lost := by
    rw [stored_reopen ended cleanAll clean_nil]
    have last := @recordOf_concat _ [encodeRecord packages kept, encodeRecord packages lost] lawful
      _ admittedNext.validId kept.capsuleId
    have middle := @recordOf_concat _ [encodeRecord packages kept] lawful _
      admittedLost.validId kept.capsuleId
    rw [if_neg different] at last
    rw [if_pos sameId.symm] at middle
    exact last.trans middle
  have reopened : writeStep packages trusted three .reopen = (.ok (), four) := rfl
  have start : fresh packages (some []) = one := rfl
  constructor
  · simp only [ops, start, Machine.answers, step1, step2, reopened, step4, step5, appended]
    rfl
  · simp only [ops, start, Machine.after, step1, step2, reopened, step4, step5]
    exact get_of_stored admittedKept.validId final admittedLost

/-- Two padding records under one Capsule ID, one with an original: the one
with the original is acknowledged and the other is returned. -/
theorem not_kept_padding :
    ∃ start : JsonlStore, ∃ ops : List WriteOp,
      JsonlStore.new paddingPackages "conformance" [trustedKey] (some []) =
          .ok ([trustedKey], start) ∧
        ops[3]? = some (.put notedRecord .complete) ∧
        (Machine.answers (writeStep paddingPackages [trustedKey]) start ops)[3]? =
          some (.ok ()) ∧
        (Machine.after (writeStep paddingPackages [trustedKey]) start ops).get paddingPackages
          [trustedKey] notedStored.capsuleId = .ok secondRecord ∧
        ¬ SameRecord secondRecord notedStored := by
  obtain ⟨answers, got⟩ := get_after_shadowed paddingPackages_lawful acceptRecord_notedRecord
    acceptRecord_secondRecord acceptRecord_firstRecord rfl capsuleId_ne "No space left on device (os error 28)"
  refine ⟨_, _, new_eq paddingConfig _, ?_, ?_, got, fun same => ?_⟩
  · rfl
  · rw [answers]
    rfl
  · have lengths := same.artifacts.length_eq
    cases lengths

end JsonlStore
end ArtifactStore
end CapsuleEmit
