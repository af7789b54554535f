import CapsuleEmit.ArtifactStore.Concrete
import CapsuleEmit.ArtifactStore.Identity

namespace CapsuleEmit
namespace ArtifactStore

/-!
# A record as rows

A table-backed store keeps the Capsule, the envelope and the storage checksum
in one row and each original in a row of its own, with the retention state as
text.  A read takes the checksum over the rows as they are stored, then parses
the states, then verifies the record.

The checksum leaves the content of an original out and counts a purged one as
present.  What it leaves open is closed by verification, so whatever is done
to the rows, a read that succeeds gives the record that was stored, with some
present originals purged at most.
-/

/-- An original as a table-backed store reads it. -/
structure StoredArtifact where
  name : String
  binding : String
  content : Option Bytes
  contentSha256 : String
  state : String

/-- What the checksum takes of a stored original. -/
def StoredArtifact.row (a : StoredArtifact) : ChecksumArtifact where
  name := a.name
  binding := a.binding
  state := if a.state = "purged" then "present" else a.state
  contentSha256 := a.contentSha256

/-- The rows an original is stored as. -/
def Artifact.stored (a : Artifact) : StoredArtifact :=
  ⟨a.name, a.binding, a.content, a.contentSha256, a.state.asStr⟩

/-- The original of a stored row whose state parses. -/
def StoredArtifact.read (a : StoredArtifact) : Result Artifact :=
  match RetentionState.parse a.state with
  | some state => .ok ⟨a.name, a.binding, a.content, state, a.contentSha256⟩
  | none => .error (.invalid "retention state")

section

variable (packages : Packages)

/-- What the storage checksum over stored rows is taken of. -/
def rowsPreimage (capsuleId : String) (capsule producerEnvelope : Bytes)
    (rows : List StoredArtifact) : Bytes :=
  packages.json.toText (.object [
    (utf8 "capsule_id", Json.ofString capsuleId),
    (utf8 "capsule", jsonBytes packages capsule),
    (utf8 "producer_envelope", jsonBytes packages producerEnvelope),
    (utf8 "artifacts", .array (((rows.map StoredArtifact.row).insertionSort
      (fun x y => utf8 x.name ≤ utf8 y.name)).map ChecksumArtifact.toJson))])

def checksumOf (capsuleId : String) (capsule producerEnvelope : Bytes)
    (rows : List StoredArtifact) : String :=
  sha256Hex packages (rowsPreimage packages capsuleId capsule producerEnvelope rows)

/-- Builds a record from its rows, the checksum before the states. -/
def fromRows (capsuleId : String) (capsule producerEnvelope : Bytes) (rows : List StoredArtifact)
    (expected : String) : Result Record := do
  ensure (checksumOf packages capsuleId capsule producerEnvelope rows = expected)
    (.corrupt "record checksum")
  let artifacts ← rows.mapM StoredArtifact.read
  .ok ⟨capsuleId, capsule, producerEnvelope, artifacts⟩

/-- Builds and verifies the record of some rows. -/
def readRows (trusted : List Bytes) (capsuleId : String) (capsule producerEnvelope : Bytes)
    (rows : List StoredArtifact) (expected : String) : Result Record := do
  let record ← fromRows packages capsuleId capsule producerEnvelope rows expected
  let _ ← verify packages record trusted
  .ok record

end

variable {packages : Packages} {trusted : List Bytes}

/-! ## Rows and originals -/

theorem asStr_of_parse {text : String} {state : RetentionState}
    (parsed : RetentionState.parse text = some state) : state.asStr = text := by
  unfold RetentionState.parse at parsed
  split_ifs at parsed with first second third <;> cases parsed
  · exact first.symm
  · exact second.symm
  · exact third.symm

@[simp] theorem read_stored (a : Artifact) : a.stored.read = .ok a := by
  simp [StoredArtifact.read, Artifact.stored]

theorem row_stored (a : Artifact) : a.stored.row = checksumRow a := rfl

theorem row_of_read {a : StoredArtifact} {b : Artifact} (read : a.read = .ok b) :
    checksumRow b = a.row := by
  unfold StoredArtifact.read at read
  split at read
  · next state parsed =>
      cases read
      simp only [checksumRow, StoredArtifact.row, asStr_of_parse parsed]
  · cases read

theorem content_of_read {a : StoredArtifact} {b : Artifact} (read : a.read = .ok b) :
    b.content = a.content := by
  unfold StoredArtifact.read at read
  split at read <;> cases read
  rfl

theorem mapM_read_stored (artifacts : List Artifact) :
    (artifacts.map Artifact.stored).mapM StoredArtifact.read = .ok artifacts := by
  induction artifacts with
  | nil => rfl
  | cons a artifacts ih => rw [List.map_cons, List.mapM_cons, read_stored, ok_bind, ih, ok_bind]; rfl

/-- The checksum over the rows of a record is its storage checksum. -/
theorem checksumOf_stored (record : Record) :
    checksumOf packages record.capsuleId record.capsule record.producerEnvelope
      (record.artifacts.map Artifact.stored) = storageChecksum packages record := by
  rw [checksumOf, rowsPreimage, List.map_map]
  rfl

/-- The record the rows of some originals give back. -/
theorem fromRows_stored {record : Record} {expected : String}
    (sum : storageChecksum packages record = expected) :
    fromRows packages record.capsuleId record.capsule record.producerEnvelope
      (record.artifacts.map Artifact.stored) expected = .ok record := by
  rw [fromRows, checksumOf_stored, sum, mapM_read_stored]
  simp

/-! ## What a read can give -/

/-- An original as it was stored, or its tombstone if it was present. -/
def Recovered (original a : Artifact) : Prop :=
  a = original ∨ original.state = .present ∧ a = purgedArtifact original

/-- The stored record, up to the order of its originals and to purges of them. -/
structure RecoveredFrom (stored record : Record) : Prop where
  capsuleId : record.capsuleId = stored.capsuleId
  capsule : record.capsule = stored.capsule
  producerEnvelope : record.producerEnvelope = stored.producerEnvelope
  artifacts : ∃ artifacts, artifacts.Perm record.artifacts ∧
    List.Forall₂ Recovered stored.artifacts artifacts

/-- Lists with permuted images can be matched member by member. -/
theorem exists_forall₂_of_map_perm {α β γ : Type} {f : α → γ} {g : β → γ} {R : α → β → Prop} :
    ∀ {left : List α} {right : List β}, (left.map f).Perm (right.map g) →
      (∀ a ∈ left, ∀ b ∈ right, f a = g b → R a b) →
      ∃ matched, matched.Perm right ∧ List.Forall₂ R left matched
  | [], right, perm, _ => by
      rw [List.map_nil, List.nil_perm, List.map_eq_nil_iff] at perm
      exact ⟨[], perm ▸ List.Perm.refl _, List.Forall₂.nil⟩
  | a :: left, right, perm, related => by
      obtain ⟨b, member, image⟩ := List.mem_map.mp
        (perm.mem_iff.mp (List.mem_map_of_mem (List.mem_cons_self (a := a) (l := left))))
      obtain ⟨front, back, rfl⟩ := List.append_of_mem member
      have middle : (front ++ b :: back).Perm (b :: (front ++ back)) := List.perm_middle
      have rest : (left.map f).Perm ((front ++ back).map g) := by
        refine (List.perm_cons (f a)).mp (perm.trans ?_)
        rw [← image, ← List.map_cons]
        exact middle.map g
      have inside : ∀ d ∈ front ++ back, d ∈ front ++ b :: back := fun d member =>
        middle.mem_iff.mpr (List.mem_cons_of_mem _ member)
      obtain ⟨matched, order, pairs⟩ := exists_forall₂_of_map_perm rest (fun c inLeft d inRight =>
        related c (List.mem_cons_of_mem _ inLeft) d (inside d inRight))
      exact ⟨b :: matched, (order.cons b).trans middle.symm,
        List.Forall₂.cons (related a List.mem_cons_self b member image.symm) pairs⟩

/-- A verified original with the row of a stored one is that one or its tombstone. -/
theorem recovered_of_row (lawful : packages.Lawful) {committed committed' : String} {a b : Artifact}
    {verified verified' : Bool} (okA : verifyState packages committed a = .ok verified)
    (okB : verifyState packages committed' b = .ok verified') (settled : Settled packages a)
    (kept : a.state ≠ .purged)
    (free : ∀ x ∈ a.content, ∀ y ∈ b.content, sha256Hex packages x = sha256Hex packages y → x = y)
    (rows : checksumRow a = checksumRow b) : Recovered a b := by
  by_cases gone : b.state = .purged
  · obtain ⟨name, binding, content, state, sum⟩ := a
    obtain ⟨name', binding', content', state', sum'⟩ := b
    simp only at gone
    subst gone
    simp only [checksumRow, ChecksumArtifact.mk.injEq] at rows
    obtain ⟨rfl, rfl, states, rfl⟩ := rows
    obtain ⟨_, tombstone, _⟩ := bind_eq_ok_iff.mp okB
    rw [ensure_eq_ok_iff, Bool.and_eq_true, Option.isNone_iff_eq_none] at tombstone
    simp only at tombstone
    cases state with
    | purged => exact absurd rfl kept
    | neverRetained => exact absurd states (by decide)
    | present =>
        refine Or.inr ⟨rfl, ?_⟩
        rw [purgedArtifact, if_pos rfl, tombstone.1]
  · refine Or.inl (original_eq lawful okB okA settled gone kept ?_ rows.symm)
    exact fun y inB x inA same => (free x inA y inB same.symm).symm

/-- Rows that were altered in any way, under the checksum of an accepted
record, are refused or give that record back, up to the order of its originals
and with some present ones purged. -/
theorem readRows_recovered (lawful : packages.Lawful) {keys : List Bytes} {record prepared : Record}
    (admission : acceptRecord packages keys record = .ok prepared)
    (capsuleId : String) (capsule producerEnvelope : Bytes) (rows : List StoredArtifact)
    (free : CollisionFree packages
      (rowsPreimage packages capsuleId capsule producerEnvelope rows ::
        rows.filterMap StoredArtifact.content ++ hashed packages prepared)) :
    (∃ e, readRows packages trusted capsuleId capsule producerEnvelope rows
        (storageChecksum packages prepared) = .error e) ∨
      ∃ found, readRows packages trusted capsuleId capsule producerEnvelope rows
        (storageChecksum packages prepared) = .ok found ∧ RecoveredFrom prepared found := by
  cases answer : readRows packages trusted capsuleId capsule producerEnvelope rows
      (storageChecksum packages prepared) with
  | error e => exact Or.inl ⟨e, rfl⟩
  | ok found =>
      refine Or.inr ⟨found, rfl, ?_⟩
      obtain ⟨other, built, answer⟩ := bind_eq_ok_iff.mp answer
      obtain ⟨results, verified, same⟩ := bind_eq_ok_iff.mp answer
      cases same
      obtain ⟨_, sums, built⟩ := bind_eq_ok_iff.mp built
      obtain ⟨artifacts, parsed, same⟩ := bind_eq_ok_iff.mp built
      cases same
      obtain ⟨_, verifiedPrepared, settled, kept⟩ := acceptRecord_ok admission
      have parsed := forall₂_of_mapM parsed
      have rowsOf : rows.map StoredArtifact.row = artifacts.map checksumRow :=
        map_eq_of_forall₂ (fun a b read => (@row_of_read a b read).symm) parsed
      have contentsOf : rows.map StoredArtifact.content = artifacts.map Artifact.content :=
        map_eq_of_forall₂ (fun a b read => (@content_of_read a b read).symm) parsed
      have preimages := free _ (List.mem_append_left _ List.mem_cons_self) _
        (List.mem_append_right _ List.mem_cons_self)
        (of_decide_eq_true (ensure_eq_ok_iff.mp sums))
      have preimage : rowsPreimage packages capsuleId capsule producerEnvelope rows =
          checksumPreimage packages ⟨capsuleId, capsule, producerEnvelope, artifacts⟩ := by
        rw [rowsPreimage, checksumPreimage, checksumRows, rowsOf]
      rw [preimage] at preimages
      obtain ⟨id, capsules, envelopes, sorted⟩ := of_checksumPreimage_eq lawful preimages
      have perm : (prepared.artifacts.map checksumRow).Perm (artifacts.map checksumRow) := by
        have left := List.perm_insertionSort
          (fun x y : ChecksumArtifact => utf8 x.name ≤ utf8 y.name) (artifacts.map checksumRow)
        have right := List.perm_insertionSort
          (fun x y : ChecksumArtifact => utf8 x.name ≤ utf8 y.name)
          (prepared.artifacts.map checksumRow)
        rw [checksumRows, checksumRows] at sorted
        rw [sorted] at left
        exact right.symm.trans left
      have contents : ∀ b ∈ artifacts, ∀ y ∈ b.content, y ∈ rows.filterMap StoredArtifact.content := by
        intro b member y inside
        have held : b.content ∈ rows.map StoredArtifact.content :=
          contentsOf ▸ List.mem_map_of_mem member
        obtain ⟨a, inRows, same⟩ := List.mem_map.mp held
        exact List.mem_filterMap.mpr ⟨a, inRows, same.trans inside⟩
      refine ⟨id, capsules, envelopes, exists_forall₂_of_map_perm perm ?_⟩
      intro a inPrepared b inFound same
      obtain ⟨_, _, okA⟩ := verifyState_of_verify verifiedPrepared a inPrepared
      obtain ⟨_, _, okB⟩ := verifyState_of_verify (succeeds_iff.mpr ⟨results, verified⟩) b inFound
      refine recovered_of_row lawful okA okB (settled a inPrepared) ?_ ?_ same
      · have none := List.any_eq_false.mp kept a inPrepared
        simpa using none
      · intro x inA y inB digests
        refine free x ?_ y ?_ digests
        · exact List.mem_append_right _ (List.mem_cons_of_mem _
            (List.mem_filterMap.mpr ⟨a, inPrepared, inA⟩))
        · exact List.mem_append_left _ (List.mem_cons_of_mem _ (contents b inFound y inB))

/-- The rows of a record whose original was blanked and marked as purged. -/
theorem readRows_recovered_noted :
    let rows := (purged notedStored).artifacts.map Artifact.stored
    let answer := readRows paddingPackages [trustedKey] notedStored.capsuleId notedStored.capsule
      notedStored.producerEnvelope rows (storageChecksum paddingPackages notedStored)
    (∃ e, answer = .error e) ∨ ∃ found, answer = .ok found ∧ RecoveredFrom notedStored found := by
  intro rows answer
  refine readRows_recovered paddingPackages_lawful acceptRecord_notedRecord _ _ _ rows ?_
  have preimage : rowsPreimage paddingPackages notedStored.capsuleId notedStored.capsule
      notedStored.producerEnvelope rows = checksumPreimage paddingPackages notedStored := by
    rw [← checksumPreimage_purged]
    rfl
  have content : rows.filterMap StoredArtifact.content = [] := rfl
  have contents : hashed paddingPackages notedStored =
      [checksumPreimage paddingPackages notedStored,
        utf8 "not a producer-authenticated assertion"] := rfl
  intro x inX y inY same
  rw [preimage, content, contents] at inX inY
  simp only [List.cons_append, List.nil_append, List.mem_cons, List.not_mem_nil, or_false,
    or_self_left] at inX inY
  rcases inX with rfl | rfl <;> rcases inY with rfl | rfl
  · rfl
  · exact absurd same hashed_notedStored_separate
  · exact absurd same.symm hashed_notedStored_separate
  · rfl

end ArtifactStore
end CapsuleEmit
