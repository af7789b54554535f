import CapsuleEmit.ArtifactStore.Durability
import CapsuleEmit.ArtifactStore.Identity

namespace CapsuleEmit
namespace ArtifactStore
namespace JsonlStore

/-!
# What a purge erases

A purge that succeeds replaces every complete line of the record by its
tombstoned form and copies everything else: the other lines, in order, and the
bytes after the last newline.  The recorded spans are those of the new lines.

Those bytes are the one way back.  When they are a whole record under the id
that lacks only its newline, the next put terminates them, and a store opened
after that reads the record they hold.  When they do not carry the id, nothing
that is done to the store later makes a get return the erased originals.
-/

variable {packages : Packages} {trusted : List Bytes} {store : JsonlStore}

/-! ## The lines of an erased record -/

section Tombstones

variable {lines : List Bytes} {tail : Bytes} {tomb : Record}

/-- Every line with the id of a record holds that record, and one does. -/
structure OnlyLine (packages : Packages) (tomb : Record) (lines : List Bytes) : Prop where
  only : ∀ line ∈ lines, lineId packages line = some tomb.capsuleId →
    line = encodeRecord packages tomb
  present : ∃ line ∈ lines, lineId packages line = some tomb.capsuleId

theorem OnlyLine.recordOf_eq (lawful : packages.Lawful) (held : OnlyLine packages tomb lines) :
    recordOf packages tomb.capsuleId lines = .ok tomb := by
  obtain ⟨line, last⟩ := Option.isSome_iff_exists.mp
    ((Lines.lastWith_isSome_iff (lineId packages) tomb.capsuleId lines).mpr held.present)
  rw [recordOf, last, held.only line (Lines.lastWith_mem _ last) (Lines.key_of_lastWith _ last)]
  simp [decodeRecord_encodeRecord lawful]

/-- Rewriting the lines of a record leaves only lines that hold the replacement. -/
theorem onlyLine_rewriteWith (lawful : packages.Lawful) (valid : validId tomb.capsuleId = true)
    (present : (Lines.lastWith (lineId packages) tomb.capsuleId lines).isSome = true) :
    OnlyLine packages tomb (Lines.rewriteWith (lineId packages) tomb.capsuleId
      (encodeRecord packages tomb) lines) := by
  obtain ⟨old, member, carries⟩ := (Lines.lastWith_isSome_iff _ _ _).mp present
  have keyed := lineId_encodeRecord lawful valid
  constructor
  · intro line member carries
    obtain ⟨old, _, rfl⟩ := List.mem_map.mp member
    by_cases same : lineId packages old = some tomb.capsuleId
    · exact if_pos same
    · rw [if_neg same] at carries
      exact absurd carries same
  · exact ⟨_, List.mem_map_of_mem member, by rw [if_pos carries, keyed]⟩

theorem OnlyLine.rewrite_other (held : OnlyLine packages tomb lines) {other : String}
    {replacement : Bytes} (keyed : lineId packages replacement = some other)
    (different : other ≠ tomb.capsuleId) :
    OnlyLine packages tomb (Lines.rewriteWith (lineId packages) other replacement lines) := by
  obtain ⟨line, member, carries⟩ := held.present
  constructor
  · intro new member carries
    obtain ⟨old, inside, rfl⟩ := List.mem_map.mp member
    by_cases same : lineId packages old = some other
    · rw [if_pos same, keyed] at carries
      exact absurd (Option.some.inj carries) different
    · rw [if_neg same] at carries ⊢
      exact held.only old inside carries
  · refine ⟨line, List.mem_map.mpr ⟨line, member, if_neg ?_⟩, carries⟩
    intro same
    exact different (Option.some.inj (same.symm.trans carries))

theorem OnlyLine.append (held : OnlyLine packages tomb lines) {added : List Bytes}
    (others : ∀ line ∈ added, lineId packages line ≠ some tomb.capsuleId) :
    OnlyLine packages tomb (lines ++ added) := by
  obtain ⟨line, member, carries⟩ := held.present
  refine ⟨fun line member carries => ?_, line, List.mem_append_left _ member, carries⟩
  rcases List.mem_append.mp member with member | member
  · exact held.only line member carries
  · exact absurd carries (others line member)

end Tombstones

/-! ## The bytes after the last newline -/

/-- Whatever part of its bytes a put wrote, what follows the last newline is
what did before, or part of the line of the record. -/
theorem put_tail (lawful : packages.Lawful) {lines : List Bytes} {tail : Bytes} {prepared : Record}
    (cleanLines : ∀ line ∈ lines, Lines.Clean newline line) (cleanTail : Lines.Clean newline tail)
    (written : Nat) {lines' : List Bytes} {rest : Bytes}
    (shape : joined lines tail ++ (putLine packages (joined lines tail) prepared).take written =
      joined lines' rest)
    (cleanLines' : ∀ line ∈ lines', Lines.Clean newline line) (cleanRest : Lines.Clean newline rest) :
    rest = tail ∨ ∃ n, rest = (encodeRecord packages prepared).take n := by
  have cleanRecord := encodeRecord_clean lawful prepared
  have partOf : ∀ (front : List Bytes) (n : Nat), (∀ line ∈ front, Lines.Clean newline line) →
      joined front ((encodeRecord packages prepared ++ [newline]).take n) = joined lines' rest →
      ∃ n, rest = (encodeRecord packages prepared).take n := by
    intro front n cleanFront same
    by_cases whole : n ≤ (encodeRecord packages prepared).length
    · rw [List.take_append_of_le_length whole] at same
      have pieces := congrArg (Lines.split newline) same
      rw [Lines.split_join cleanFront (fun inside => cleanRecord (List.mem_of_mem_take inside)),
        Lines.split_join cleanLines' cleanRest] at pieces
      exact ⟨n, (congrArg Prod.snd pieces).symm⟩
    · rw [List.take_of_length_le (by simp; omega), joined, Lines.join_terminate] at same
      have pieces := congrArg (Lines.split newline) same
      rw [Lines.split_join (by
          intro line member
          rcases List.mem_append.mp member with member | single
          · exact cleanFront line member
          · exact List.mem_singleton.mp single ▸ cleanRecord) clean_nil,
        Lines.split_join cleanLines' cleanRest] at pieces
      exact ⟨0, (congrArg Prod.snd pieces).symm⟩
  rw [putLine, lead_joined cleanTail cleanLines] at shape
  cases tail with
  | nil =>
      refine Or.inr (partOf lines written cleanLines ?_)
      rw [← shape]
      simp [joined, Lines.join_tail_append]
  | cons b tail =>
      cases written with
      | zero =>
          left
          rw [List.take_zero, List.append_nil] at shape
          have pieces := congrArg (Lines.split newline) shape
          rw [Lines.split_join cleanLines cleanTail, Lines.split_join cleanLines' cleanRest] at pieces
          exact (congrArg Prod.snd pieces).symm
      | succ written =>
          refine Or.inr (partOf (lines ++ [b :: tail]) written ?_ ?_)
          · intro line member
            rcases List.mem_append.mp member with member | single
            · exact cleanLines line member
            · exact List.mem_singleton.mp single ▸ cleanTail
          · have closes := @joined_lead lines (b :: tail)
              ((encodeRecord packages prepared ++ [newline]).take written)
            simp only [closed, List.isEmpty_cons, Bool.false_eq_true, if_false, List.append_assoc,
              List.singleton_append] at closes shape
            rw [← closes, ← shape, List.cons_append, List.take_succ_cons]

/-- Part of the line of a record carries its Capsule ID or none. -/
theorem peekId_take (lawful : packages.Lawful) {prepared : Record}
    (valid : validId prepared.capsuleId = true) (n : Nat) {id : String}
    (carries : peekId packages ((encodeRecord packages prepared).take n) = some id) :
    id = prepared.capsuleId := by
  by_cases whole : (encodeRecord packages prepared).drop n = []
  · have full : (encodeRecord packages prepared).take n = encodeRecord packages prepared := by
      have parts := List.take_append_drop n (encodeRecord packages prepared)
      rwa [whole, List.append_nil] at parts
    rw [full, peekId_encodeRecord lawful (ne_empty_of_validId valid)] at carries
    exact (Option.some.inj carries).symm
  · rw [peekId_incomplete lawful (List.take_append_drop n _).symm whole] at carries
    cases carries

/-! ## Nothing brings the originals back -/

theorem not_present_of_purged {record : Record} {a : Artifact}
    (member : a ∈ (purged record).artifacts) : a.state ≠ .present := by
  obtain ⟨b, _, rfl⟩ := List.mem_map.mp member
  unfold purgedArtifact
  split
  · exact fun present => by cases present
  · next other => exact other

/-- A store whose file holds a tombstoned record, and only that, under its id,
and whose last line, if it is not terminated, does not carry the id. -/
structure Erased (packages : Packages) (tomb : Record) (store : JsonlStore) : Prop where
  held : ∃ lines tail, store.file = some (joined lines tail) ∧
    (∀ line ∈ lines, Lines.Clean newline line) ∧ Lines.Clean newline tail ∧
    OnlyLine packages tomb lines ∧ peekId packages tail ≠ some tomb.capsuleId
  read : stored packages store tomb.capsuleId = .ok tomb

theorem Erased.reopen (lawful : packages.Lawful) {tomb : Record}
    (erased : Erased packages tomb store) : Erased packages tomb (store.reopen packages) := by
  obtain ⟨lines, tail, file, cleanLines, cleanTail, held, other⟩ := erased.held
  constructor
  · exact ⟨lines, tail, file, cleanLines, cleanTail, held, other⟩
  · rw [stored_reopen file cleanLines cleanTail]
    exact held.recordOf_eq lawful

theorem Erased.purge (lawful : packages.Lawful) {tomb : Record} (gone : purged tomb = tomb)
    (erased : Erased packages tomb store) (target : String) :
    Erased packages tomb (store.purge packages target).2 := by
  obtain ⟨lines, tail, file, cleanLines, cleanTail, held, other⟩ := erased.held
  by_cases valid : validId target = true
  swap
  · rwa [JsonlStore.purge, if_neg valid]
  cases recorded : store.state.spans target with
  | none => rwa [JsonlStore.purge, if_pos valid, recorded]
  | some span =>
      cases readTarget : readAt packages store.file target span with
      | error e =>
          rw [JsonlStore.purge, if_pos valid, recorded]
          simp only [readTarget]
          exact erased
      | ok found =>
          obtain rfl := (readAt_ok readTarget).1
          rw [purge_read lawful file cleanLines cleanTail valid recorded readTarget]
          split
          swap
          · exact erased
          next present =>
          have cleanNew : ∀ line ∈ Lines.rewriteWith (lineId packages) found.capsuleId
              (encodeRecord packages (purged found)) lines, Lines.Clean newline line := by
            intro line member
            obtain ⟨old, place, rfl⟩ := List.mem_map.mp member
            split
            · exact encodeRecord_clean lawful _
            · exact cleanLines old place
          have heldNew : OnlyLine packages tomb (Lines.rewriteWith (lineId packages)
              found.capsuleId (encodeRecord packages (purged found)) lines) := by
            by_cases same : found.capsuleId = tomb.capsuleId
            · have read := erased.read
              rw [← same, stored, recorded] at read
              obtain rfl : found = tomb := Except.ok.inj (readTarget.symm.trans read)
              rw [gone]
              exact onlyLine_rewriteWith lawful valid present
            · exact held.rewrite_other (lineId_encodeRecord lawful valid) same
          constructor
          · exact ⟨_, tail, rfl, cleanNew, cleanTail, heldNew, other⟩
          · rw [stored_eq_recordOf rfl rfl]
            exact heldNew.recordOf_eq lawful

theorem Erased.append (lawful : packages.Lawful) {tomb prepared : Record}
    (erased : Erased packages tomb store)
    (verified : succeeds (verify packages prepared trusted) = true)
    (different : tomb.capsuleId ≠ prepared.capsuleId) (write : Write) :
    Erased packages tomb (store.append packages prepared write).2 := by
  have valid := validId_of_verify verified
  obtain ⟨lines, tail, file, cleanLines, cleanTail, held, other⟩ := erased.held
  obtain ⟨grown, _⟩ := append_effect file verified write
  obtain ⟨added, rest, shape, cleanAdded, cleanRest, from_put⟩ := @put_lines _ _ _ prepared
    lawful cleanLines cleanTail
    (writtenBytes (putLine packages (joined lines tail) prepared) write)
  constructor
  · refine ⟨lines ++ added, rest, grown.trans (congrArg some shape), cleanAdded, cleanRest,
      held.append (fun line member => ?_), fun carries => ?_⟩
    · rcases from_put line member with rfl | rfl
      · rw [lineId_of_peekId lawful]
        exact other
      · rw [lineId_encodeRecord lawful valid]
        exact fun same => different (Option.some.inj same).symm
    · rcases put_tail lawful cleanLines cleanTail _ shape cleanAdded cleanRest with rfl | ⟨n, rfl⟩
      · exact other carries
      · exact different (peekId_take lawful valid n carries)
  · exact append_stored file verified write different erased.read

/-- Every operation leaves the tombstoned record as the only one under its id. -/
theorem Erased.step (lawful : packages.Lawful) {tomb : Record} (gone : purged tomb = tomb)
    (store : JsonlStore) (op : WriteOp) (erased : Erased packages tomb store) :
    Erased packages tomb (writeStep packages trusted store op).2 := by
  cases op with
  | reopen => exact erased.reopen lawful
  | purge target => exact erased.purge lawful gone target
  | put record write =>
      simp only [writeStep, put]
      cases admission : acceptRecord packages trusted record with
      | error e => exact erased
      | ok prepared =>
          simp only
          cases new : store.state.spans prepared.capsuleId with
          | some span => exact erased
          | none =>
              refine erased.append lawful (acceptRecord_ok admission).2.1 (fun same => ?_) write
              have read := erased.read
              simp [stored, same, new] at read

/-- A get answers a record with the id only as it was read. -/
theorem Erased.get {tomb record : Record} (erased : Erased packages tomb store)
    (answered : store.get packages trusted tomb.capsuleId = .ok record) : record = tomb := by
  rw [get_eq_stored] at answered
  obtain ⟨_, _, answered⟩ := bind_eq_ok_iff.mp answered
  obtain ⟨found, read, answered⟩ := bind_eq_ok_iff.mp answered
  obtain ⟨_, _, same⟩ := bind_eq_ok_iff.mp answered
  rw [erased.read] at read
  rw [← Except.ok.inj same, Except.ok.inj read]

/-- A put under the id compares with the tombstoned record and changes nothing. -/
theorem Erased.put {tomb b prepared : Record} (erased : Erased packages tomb store)
    (admission : acceptRecord packages trusted b = .ok prepared)
    (sameId : prepared.capsuleId = tomb.capsuleId) (write : Write) :
    store.put packages trusted b write =
      ((do
        let _ ← verify packages tomb trusted
        ensure (storageChecksum packages tomb = storageChecksum packages prepared) .conflict
        ensure (!hasPurged tomb) .purged), store) := by
  have read := erased.read
  rw [stored] at read
  rw [JsonlStore.put, admission]
  simp only [sameId]
  cases recorded : store.state.spans tomb.capsuleId with
  | none => simp [recorded] at read
  | some span =>
      rw [recorded] at read
      simp only at read
      simp only [retry, sameId, read, ok_bind]

/-- A put of a record with the same tombstoned form is refused as purged. -/
theorem Erased.put_same (lawful : packages.Lawful) {tomb b prepared : Record}
    (erased : Erased packages tomb store)
    (admission : acceptRecord packages trusted b = .ok prepared)
    (same : SameRecord tomb (purged prepared)) (gone : hasPurged tomb = true) (write : Write) :
    store.put packages trusted b write = (.error .purged, store) := by
  have verified := verify_of_sameRecord same.symm
    ((Admitted.of_acceptRecord admission).purged lawful).verified
  have sums : storageChecksum packages tomb = storageChecksum packages prepared := by
    rw [storageChecksum_of_sameRecord same (nodup_of_verify verified), storageChecksum_purged]
  obtain ⟨_, verified⟩ := succeeds_iff.mp verified
  rw [erased.put admission same.capsuleId.symm, verified]
  simp [sums, gone]

/-- Tombstoned originals with the same row are equal. -/
theorem tombstone_eq {committed committed' : String} {a b : Artifact} {verified verified' : Bool}
    (okA : verifyState packages committed a = .ok verified)
    (okB : verifyState packages committed' b = .ok verified') (goneA : a.state ≠ .present)
    (goneB : b.state ≠ .present) (rows : checksumRow a = checksumRow b) : a = b := by
  have empty : ∀ {committed : String} {a : Artifact} {verified : Bool},
      verifyState packages committed a = .ok verified → a.state ≠ .present → a.content = none := by
    intro committed a verified ok gone
    unfold verifyState at ok
    split at ok
    · next present => exact absurd present gone
    all_goals
      obtain ⟨_, shape, _⟩ := bind_eq_ok_iff.mp ok
      rw [ensure_eq_ok_iff, Bool.and_eq_true, Option.isNone_iff_eq_none] at shape
      exact shape.1
  have noneA := empty okA goneA
  have noneB := empty okB goneB
  obtain ⟨name, binding, content, state, sum⟩ := a
  obtain ⟨name', binding', content', state', sum'⟩ := b
  simp only [checksumRow, ChecksumArtifact.mk.injEq] at rows noneA noneB goneA goneB
  obtain ⟨rfl, rfl, states, rfl⟩ := rows
  subst noneA noneB
  cases state <;> cases state' <;> first | rfl | exact absurd rfl goneA | exact absurd rfl goneB |
    exact absurd states (by decide)

/-- A put of a record with another tombstoned form is a conflict. -/
theorem Erased.put_other (lawful : packages.Lawful) {tomb b prepared : Record}
    (erased : Erased packages tomb store) (purgedTomb : ∀ a ∈ tomb.artifacts, a.state ≠ .present)
    (admission : acceptRecord packages trusted b = .ok prepared)
    (sameId : prepared.capsuleId = tomb.capsuleId)
    (verified : succeeds (verify packages tomb trusted) = true)
    (free : CollisionFree packages
      [checksumPreimage packages tomb, checksumPreimage packages prepared])
    (different : ¬ SameRecord tomb (purged prepared)) (write : Write) :
    store.put packages trusted b write = (.error .conflict, store) := by
  have sums : storageChecksum packages tomb ≠ storageChecksum packages prepared := by
    intro same
    have preimage := free _ List.mem_cons_self _
      (List.mem_cons_of_mem _ List.mem_cons_self) same
    obtain ⟨id, capsule, envelope, rows⟩ := of_checksumPreimage_eq lawful preimage
    refine different ⟨id, capsule, envelope, perm_of_map_perm (f := checksumRow) ?_ ?_⟩
    · rw [← checksumRows_purged prepared] at rows
      exact perm_of_checksumRows_eq rows
    · intro a inTomb b inPurged row
      have verifiedB := ((Admitted.of_acceptRecord admission).purged lawful).verified
      obtain ⟨_, _, okA⟩ := verifyState_of_verify verified a inTomb
      obtain ⟨_, _, okB⟩ := verifyState_of_verify verifiedB b inPurged
      exact tombstone_eq okA okB (purgedTomb a inTomb) (not_present_of_purged inPurged) row
  obtain ⟨_, verified⟩ := succeeds_iff.mp verified
  rw [erased.put admission sameId, verified]
  simp [sums]

/-! ## A purge that succeeds -/

/-- How a purge of a record leaves the lines of the file and the spans. -/
structure Rewritten (packages : Packages) (record : Record) (lines lines' : List Bytes)
    (tail : Bytes) (spans : String → Option Lines.Span) : Prop where
  copied : List.Forall₂ (fun old new => new =
    if lineId packages old = some record.capsuleId then encodeRecord packages (purged record)
    else old) lines lines'
  erased : ∀ line ∈ lines', peekId packages line = some record.capsuleId →
    decodeRecord packages line = .ok (purged record)
  places : ∀ id span, spans id = some span → ∃ line, (span.1, line) ∈ Lines.offsets 0 lines' ∧
    span.2 = line.length ∧ peekId packages line = some id ∧
    Lines.readAt (joined lines' tail) span = some line

/-- The tombstone of a present original keeps its name, binding and SHA-256. -/
theorem purgedArtifact_present {a : Artifact} (present : a.state = .present) :
    purgedArtifact a = ⟨a.name, a.binding, none, .purged, a.contentSha256⟩ := by
  rw [purgedArtifact, if_pos present]

theorem rewritten_rewriteWith (lawful : packages.Lawful) {record : Record}
    (lines : List Bytes) (tail : Bytes) :
    let lines' := Lines.rewriteWith (lineId packages) record.capsuleId
      (encodeRecord packages (purged record)) lines
    Rewritten packages record lines lines' tail
      (Lines.Index.scan (lineId packages) lines').spans := by
  intro lines'
  constructor
  · exact List.forall₂_map_right_iff.mpr (List.forall₂_same.mpr (fun _ _ => rfl))
  · intro line member carries
    obtain ⟨old, _, rfl⟩ := List.mem_map.mp member
    by_cases same : lineId packages old = some record.capsuleId
    · rw [if_pos same]
      exact decodeRecord_encodeRecord lawful _
    · rw [if_neg same, ← lineId_of_peekId lawful] at carries
      exact absurd carries same
  · intro id span recorded
    obtain ⟨line, place, size, keyed⟩ := Lines.scan_spans_place (lineId packages) lines' recorded
    refine ⟨line, place, size, by rw [← lineId_of_peekId lawful, keyed], ?_⟩
    obtain ⟨offset, length⟩ := span
    cases size
    exact Lines.readAt_of_mem_offsets newline place tail

/-- What a purge that succeeds found, and what it leaves. -/
theorem purge_ok (lawful : packages.Lawful) {id : String}
    (done : (store.purge packages id).1 = .ok ()) :
    ∃ record lines tail, stored packages store id = .ok record ∧ record.capsuleId = id ∧
      validId id = true ∧ store.file = some (joined lines tail) ∧
      (∀ line ∈ lines, Lines.Clean newline line) ∧ Lines.Clean newline tail ∧
      (Lines.lastWith (lineId packages) id lines).isSome = true ∧
      (store.purge packages id).2 = ⟨some (joined (Lines.rewriteWith (lineId packages) id
          (encodeRecord packages (purged record)) lines) tail),
        { store.state with
          spans := (Lines.Index.scan (lineId packages) (Lines.rewriteWith (lineId packages) id
            (encodeRecord packages (purged record)) lines)).spans }⟩ := by
  have purges := done
  rw [JsonlStore.purge] at purges
  split at purges
  swap
  · cases purges
  next valid =>
  split at purges
  · cases purges
  next span recorded =>
  split at purges
  · cases purges
  next record read =>
  obtain ⟨named, bytes, _, file, _⟩ := readAt_ok read
  obtain ⟨lines, tail, rfl, cleanLines, cleanTail⟩ := exists_joined bytes
  have effect := purge_read lawful file cleanLines cleanTail valid recorded read
  by_cases present : (Lines.lastWith (lineId packages) id lines).isSome = true
  · rw [if_pos present] at effect
    refine ⟨record, lines, tail, ?_, named, valid, file, cleanLines, cleanTail, present, ?_⟩
    · rw [stored, recorded]
      exact read
    · rw [effect]
  · rw [if_neg present] at effect
    rw [effect] at done
    cases done

/-- A purge that succeeds rewrites the lines of its record to the tombstoned
form and nothing else: the other lines and the bytes after the last newline
stay, and every span is the place of a line with its id.  If those bytes do not
carry the id, then after every later run a get of the id answers the tombstoned
record, a put of a record with that form is refused as purged, and a put of
another record is a conflict when the tombstoned one verifies and fails as its
verification does when not. -/
theorem purge_erases (lawful : packages.Lawful) (store : JsonlStore) (id : String)
    (done : (store.purge packages id).1 = .ok ()) :
    ∃ record lines lines' tail, stored packages store id = .ok record ∧ record.capsuleId = id ∧
      (∀ a ∈ (purged record).artifacts, a.state ≠ .present) ∧
      store.file = some (joined lines tail) ∧
      (store.purge packages id).2.file = some (joined lines' tail) ∧
      (∀ line ∈ lines ++ lines', Lines.Clean newline line) ∧ Lines.Clean newline tail ∧
      Rewritten packages record lines lines' tail (store.purge packages id).2.state.spans ∧
      (peekId packages tail ≠ some id → ∀ ops,
        let later := Machine.after (writeStep packages trusted) (store.purge packages id).2 ops
        (∀ found, later.get packages trusted id = .ok found → found = purged record) ∧
        ∀ b prepared write, acceptRecord packages trusted b = .ok prepared →
          prepared.capsuleId = id →
          (SameRecord (purged record) (purged prepared) → hasPurged (purged record) = true →
            later.put packages trusted b write = (.error .purged, later)) ∧
          (succeeds (verify packages (purged record) trusted) = true →
            CollisionFree packages
              [checksumPreimage packages record, checksumPreimage packages prepared] →
            ¬ SameRecord (purged record) (purged prepared) →
            later.put packages trusted b write = (.error .conflict, later)) ∧
          ∀ e, verify packages (purged record) trusted = .error e →
            later.put packages trusted b write = (.error e, later)) := by
  obtain ⟨record, lines, tail, read, rfl, valid, file, cleanLines, cleanTail, present, effect⟩ :=
    purge_ok lawful done
  have rewritten := @rewritten_rewriteWith _ lawful record lines tail
  have onlyTomb := @onlyLine_rewriteWith _ lines (purged record) lawful valid present
  have cleanNew : ∀ line ∈ Lines.rewriteWith (lineId packages) record.capsuleId
      (encodeRecord packages (purged record)) lines, Lines.Clean newline line := by
    intro line member
    obtain ⟨old, place, rfl⟩ := List.mem_map.mp member
    split
    · exact encodeRecord_clean lawful _
    · exact cleanLines old place
  refine ⟨record, lines, _, tail, read, rfl, fun a => not_present_of_purged, file, by rw [effect],
    fun line member => (List.mem_append.mp member).elim (cleanLines line) (cleanNew line),
    cleanTail, by rw [effect]; exact rewritten, fun other ops => ?_⟩
  intro later
  have start : Erased packages (purged record) (store.purge packages record.capsuleId).2 := by
    rw [effect]
    refine ⟨⟨_, tail, rfl, cleanNew, cleanTail, onlyTomb, other⟩, ?_⟩
    rw [stored_eq_recordOf rfl rfl]
    exact onlyTomb.recordOf_eq lawful
  have erased : Erased packages (purged record) later :=
    Machine.invariant (Erased.step lawful (purged_purged record)) start ops
  refine ⟨fun found answered => erased.get answered, fun b prepared write admission sameId => ?_⟩
  refine ⟨fun same gone => erased.put_same lawful admission same gone write,
    fun verified free different => ?_, fun e failed => ?_⟩
  · rw [← checksumPreimage_purged record] at free
    exact erased.put_other lawful (fun a => not_present_of_purged) admission sameId verified free
      different write
  · rw [erased.put admission sameId, failed]
    rfl

section Opened

variable {record : Record} {tail : Bytes}

theorem clean_single (lawful : packages.Lawful) (record : Record) :
    ∀ line ∈ [encodeRecord packages record], Lines.Clean newline line := by
  intro line member
  exact List.mem_singleton.mp member ▸ encodeRecord_clean lawful record

/-- A store opened over the line of a record and an unterminated last line. -/
theorem scan_single (lawful : packages.Lawful) (valid : validId record.capsuleId = true) :
    Lines.Index.scan (lineId packages) [encodeRecord packages record] =
      Lines.Index.empty.enter record.capsuleId (0, (encodeRecord packages record).length) := by
  have single := Lines.scan_concat_keyed (lineId packages) (lineId_encodeRecord lawful valid) []
  rwa [List.nil_append] at single

/-- A purge of the only record of a file rewrites its line. -/
theorem purge_single (lawful : packages.Lawful) (valid : validId record.capsuleId = true)
    (cleanTail : Lines.Clean newline tail) :
    (fresh packages (some (joined [encodeRecord packages record] tail))).purge packages
        record.capsuleId =
      (.ok (), fresh packages (some (joined [encodeRecord packages (purged record)] tail))) := by
  have keyed := lineId_encodeRecord lawful valid
  have scanned := @fresh_joined packages _ _ (clean_single lawful record) cleanTail
  have recorded : (fresh packages (some (joined [encodeRecord packages record] tail))).state.spans
      record.capsuleId = some (0, (encodeRecord packages record).length) := by
    rw [scanned, scan_single lawful valid, Lines.Index.enter_spans_self]
  have read : readAt packages (fresh packages (some (joined [encodeRecord packages record] tail))).file
      record.capsuleId (0, (encodeRecord packages record).length) = .ok record := by
    have place := Lines.readAt_of_mem_offsets newline
      (show (0, encodeRecord packages record) ∈ Lines.offsets 0 [encodeRecord packages record] from
        List.mem_singleton.mpr rfl) tail
    simp only [readAt, fresh, joined, place, decodeRecord_encodeRecord lawful, ok_bind, decide_true,
      ensure_true]
  rw [purge_joined lawful rfl (clean_single lawful record) cleanTail valid recorded read
    ((Lines.lastWith_isSome_iff _ _ _).mpr ⟨_, List.mem_singleton.mpr rfl, keyed⟩)]
  have rewritten : Lines.rewriteWith (lineId packages) record.capsuleId
      (encodeRecord packages (purged record)) [encodeRecord packages record] =
        [encodeRecord packages (purged record)] := by
    simp [Lines.rewriteWith, keyed]
  simp only [rewritten, fresh, indexed_joined (clean_single lawful record) cleanTail,
    indexed_joined (clean_single lawful (purged record)) cleanTail, scan_single lawful valid,
    @scan_single _ (purged record) lawful valid]
  rfl

/-! ## What a put can make readable again -/

/-- The record of a purged line is whole after the last newline.  The next put
terminates it, and a store opened after that reads the erased originals. -/
theorem get_after_unterminated (lawful : packages.Lawful)
    (admitted : Admitted packages trusted record) {other next : Record}
    (admission : acceptRecord packages trusted other = .ok next)
    (different : record.capsuleId ≠ next.capsuleId) :
    let start := fresh packages
      (some (joined [encodeRecord packages record] (encodeRecord packages record)))
    (start.purge packages record.capsuleId).1 = .ok () ∧
      (Machine.after (writeStep packages trusted) (start.purge packages record.capsuleId).2
        [.put other .complete, .reopen]).get packages trusted record.capsuleId = .ok record := by
  intro start
  have cleanTail : Lines.Clean newline (encodeRecord packages record) :=
    encodeRecord_clean lawful record
  have purges := purge_single lawful admitted.validId cleanTail
  let rest := fresh packages
    (some (joined [encodeRecord packages (purged record)] (encodeRecord packages record)))
  have admittedNext := Admitted.of_acceptRecord admission
  have cleanTomb := clean_single lawful (purged record)
  have whole : (encodeRecord packages record).isEmpty = false := by
    rw [Bool.eq_false_iff]
    intro nothing
    have read := peekId_encodeRecord lawful (ne_empty_of_validId admitted.validId)
    rw [List.isEmpty_iff.mp nothing, peekId_nil lawful] at read
    cases read
  have unspanned : rest.state.spans next.capsuleId = none := by
    have scanned : rest.state.toIndex = _ := fresh_joined cleanTomb cleanTail
    rw [scanned, @scan_single _ (purged record) lawful admitted.validId, purged_capsuleId,
      Lines.Index.enter_spans_of_ne _ different.symm]
    rfl
  obtain ⟨lookup, taken⟩ := MemoryIndex.add_of_decodes rest.state.lookup
    (decodes_of_verify admittedNext.verified) next.capsuleId
  have appended := @append_joined packages rest _ _ rfl cleanTomb cleanTail _ _ taken
  have put : (writeStep packages trusted rest (.put other .complete)).2.file = some (joined
      [encodeRecord packages (purged record), encodeRecord packages record,
        encodeRecord packages next] []) := by
    simp only [writeStep, JsonlStore.put, admission, unspanned, appended]
    simp [closed, whole]
  have cleanAll := clean_put lawful cleanTomb cleanTail next
  rw [closed, whole] at cleanAll
  have last := @recordOf_concat _ [encodeRecord packages (purged record), encodeRecord packages record]
    lawful _ admittedNext.validId record.capsuleId
  have middle := @recordOf_concat _ [encodeRecord packages (purged record)] lawful _
    admitted.validId record.capsuleId
  rw [if_neg different] at last
  rw [if_pos rfl] at middle
  rw [purges]
  refine ⟨rfl, get_of_stored admitted.validId ?_ admitted⟩
  exact (stored_reopen put cleanAll clean_nil _).trans (last.trans middle)

/-- A record that does not verify is purged, and a put of another record under
its Capsule ID then fails as the verification of the tombstoned one does. -/
theorem put_after_unverified (lawful : packages.Lawful) (valid : validId record.capsuleId = true)
    {b prepared : Record} (admission : acceptRecord packages trusted b = .ok prepared)
    (sameId : prepared.capsuleId = record.capsuleId) {e : ArtifactError}
    (failed : verify packages (purged record) trusted = .error e) :
    let start := fresh packages (some (joined [encodeRecord packages record] []))
    (start.purge packages record.capsuleId).1 = .ok () ∧
      ((start.purge packages record.capsuleId).2.put packages trusted b .complete).1 = .error e := by
  intro start
  have purges := purge_single lawful valid clean_nil
  have onlyTomb : OnlyLine packages (purged record) [encodeRecord packages (purged record)] := by
    constructor
    · exact fun line member _ => List.mem_singleton.mp member
    · exact ⟨_, List.mem_singleton.mpr rfl,
        @lineId_encodeRecord _ lawful (purged record) valid⟩
  have cleanTomb := clean_single lawful (purged record)
  have erased : Erased packages (purged record)
      (fresh packages (some (joined [encodeRecord packages (purged record)] []))) := by
    constructor
    · refine ⟨_, [], rfl, cleanTomb, clean_nil, onlyTomb, ?_⟩
      rw [peekId_nil lawful]
      exact fun same => by cases same
    · rw [stored_eq_recordOf rfl (congrArg Lines.Index.spans (fresh_joined cleanTomb clean_nil))]
      exact onlyTomb.recordOf_eq lawful
  rw [purges]
  refine ⟨rfl, ?_⟩
  rw [erased.put admission sameId, failed]
  rfl

end Opened

/-- A purge of a record with an original, and the put that is refused after it. -/
theorem purge_erases_noted :
    let start := fresh paddingPackages (some (joined [encodeRecord paddingPackages notedStored] []))
    ∃ store line, start.purge paddingPackages notedStored.capsuleId = (.ok (), store) ∧
      store.file = some (joined [line] []) ∧
      decodeRecord paddingPackages line = .ok (purged notedStored) ∧
      store.put paddingPackages [trustedKey] notedRecord .complete = (.error .purged, store) := by
  intro start
  have valid : validId notedStored.capsuleId = true := validId_of_verify verify_notedStored
  have purges := purge_single paddingPackages_lawful valid clean_nil
  have read : stored paddingPackages start notedStored.capsuleId = .ok notedStored := by
    rw [stored_eq_recordOf rfl (congrArg Lines.Index.spans
      (fresh_joined (clean_single paddingPackages_lawful notedStored) clean_nil))]
    exact (@recordOf_concat _ [] paddingPackages_lawful _ valid _).trans (if_pos rfl)
  obtain ⟨record, lines, lines', tail, found, _, _, file, _, cleanAll, cleanTail, _, later⟩ :=
    @purge_erases _ [trustedKey] paddingPackages_lawful start notedStored.capsuleId
      (by rw [purges])
  obtain rfl : notedStored = record := Except.ok.inj (read.symm.trans found)
  have noTail : tail = [] := by
    have pieces := congrArg (Lines.split newline) (Option.some.inj file)
    rw [Lines.split_join (clean_single paddingPackages_lawful notedStored) clean_nil,
      Lines.split_join (fun line member => cleanAll line (List.mem_append_left _ member))
        cleanTail] at pieces
    exact (congrArg Prod.snd pieces).symm
  have other : peekId paddingPackages tail ≠ some notedStored.capsuleId := by
    rw [noTail, peekId_nil paddingPackages_lawful]
    exact fun same => by cases same
  have gone : hasPurged (purged notedStored) = true :=
    (hasPurged_purged_iff (hasPurged_prepare (acceptRecord_ok acceptRecord_notedRecord).1)).mpr
      ⟨_, List.mem_singleton.mpr rfl, rfl⟩
  have refused := (later other []).2 notedRecord notedStored .complete acceptRecord_notedRecord rfl
  rw [purges] at refused
  exact ⟨_, _, purges, rfl, decodeRecord_encodeRecord paddingPackages_lawful _,
    refused.1 (.refl _) gone⟩

/-- A record whose producer envelope is missing. -/
def unsignedRecord : Record := { secondRecord with producerEnvelope := [] }

/-- Over a file whose last line is whole but for its newline, a put after the
purge of its record makes a get answer the erased original.  Over a file with a
record that does not verify, a put of another record under its Capsule ID after
its purge is not a conflict. -/
theorem not_erased_padding :
    (∃ file start ops, JsonlStore.new paddingPackages "conformance" [trustedKey] (some file) =
          .ok ([trustedKey], start) ∧
        (start.purge paddingPackages notedStored.capsuleId).1 = .ok () ∧
        hasPurged (purged notedStored) = true ∧
        (Machine.after (writeStep paddingPackages [trustedKey])
          (start.purge paddingPackages notedStored.capsuleId).2 ops).get paddingPackages
            [trustedKey] notedStored.capsuleId = .ok notedStored) ∧
      ∃ file start, JsonlStore.new paddingPackages "conformance" [trustedKey] (some file) =
          .ok ([trustedKey], start) ∧
        stored paddingPackages start secondRecord.capsuleId = .ok unsignedRecord ∧
        (start.purge paddingPackages secondRecord.capsuleId).1 = .ok () ∧
        ((start.purge paddingPackages secondRecord.capsuleId).2.put paddingPackages [trustedKey]
          secondRecord .complete).1 = .error (.invalid "envelope: signature") := by
  have sameId : unsignedRecord.capsuleId = secondRecord.capsuleId := rfl
  have valid : validId unsignedRecord.capsuleId = true := by
    rw [sameId]
    exact validId_of_verify verify_secondRecord
  have failed : verify paddingPackages (purged unsignedRecord) [trustedKey] =
      .error (.invalid "envelope: signature") :=
    eq_error_of_failure (by decide +kernel)
  have gone : hasPurged (purged notedStored) = true :=
    (hasPurged_purged_iff (hasPurged_prepare (acceptRecord_ok acceptRecord_notedRecord).1)).mpr
      ⟨_, List.mem_singleton.mpr rfl, rfl⟩
  constructor
  · obtain ⟨purges, got⟩ := get_after_unterminated paddingPackages_lawful
      (Admitted.of_acceptRecord acceptRecord_notedRecord) acceptRecord_firstRecord capsuleId_ne
    exact ⟨_, _, _, new_eq paddingConfig _, purges, gone, got⟩
  · obtain ⟨purges, refused⟩ := put_after_unverified paddingPackages_lawful valid
      acceptRecord_secondRecord sameId.symm failed
    refine ⟨_, _, new_eq paddingConfig _, ?_, purges, refused⟩
    rw [stored_eq_recordOf rfl (congrArg Lines.Index.spans
      (fresh_joined (clean_single paddingPackages_lawful unsignedRecord) clean_nil))]
    exact (@recordOf_concat _ [] paddingPackages_lawful _ valid _).trans (if_pos rfl)

end JsonlStore
end ArtifactStore
end CapsuleEmit
