import CapsuleEmit.ArtifactStore.Memory
import Mathlib.Data.List.Perm.Basic

namespace CapsuleEmit
namespace ArtifactStore

/-!
# What the storage checksum identifies

The order of a record's originals is not part of the record: the checksum
sorts them by name, and a retry with the originals in another order is the
same record.  If no two of the byte sequences at hand share a digest, then an
admitted record with nothing purged and a prepared record with the same
checksum are the same record in this sense.
-/

variable {packages : Packages} {trusted : List Bytes}

/-- Equal up to the order of the originals. -/
structure SameRecord (left right : Record) : Prop where
  capsuleId : left.capsuleId = right.capsuleId
  capsule : left.capsule = right.capsule
  producerEnvelope : left.producerEnvelope = right.producerEnvelope
  artifacts : left.artifacts.Perm right.artifacts

theorem SameRecord.refl (record : Record) : SameRecord record record :=
  ⟨rfl, rfl, rfl, List.Perm.refl _⟩

theorem SameRecord.symm {left right : Record} (same : SameRecord left right) :
    SameRecord right left :=
  ⟨same.capsuleId.symm, same.capsule.symm, same.producerEnvelope.symm, same.artifacts.symm⟩

theorem SameRecord.purged {left right : Record} (same : SameRecord left right) :
    SameRecord (purged left) (purged right) :=
  ⟨same.capsuleId, same.capsule, same.producerEnvelope, same.artifacts.map purgedArtifact⟩

/-- No two of the byte sequences share a digest. -/
def CollisionFree (packages : Packages) (data : List Bytes) : Prop :=
  ∀ x ∈ data, ∀ y ∈ data, sha256Hex packages x = sha256Hex packages y → x = y

theorem CollisionFree.mono {values fewer : List Bytes} (free : CollisionFree packages values)
    (subset : ∀ x ∈ fewer, x ∈ values) : CollisionFree packages fewer :=
  fun x inX y inY same => free x (subset x inX) y (subset y inY) same

/-- What is hashed of a record: the preimage of its checksum and its contents. -/
def hashed (packages : Packages) (record : Record) : List Bytes :=
  checksumPreimage packages record :: record.artifacts.filterMap Artifact.content

/-! ## The checksum preimage determines the inventory -/

theorem ofString_injective : Function.Injective Json.ofString := by
  intro left right same
  exact utf8_injective (Json.string.inj same)

theorem jsonBytes_injective (lawful : packages.Lawful) :
    Function.Injective (jsonBytes packages) := by
  intro left right same
  have read := lawful.decode64_encode64 left
  rw [ofString_injective same, lawful.decode64_encode64] at read
  exact (Option.some.inj read).symm

/-- The string at a member, empty when there is none. -/
def strAt (name : String) (tree : Json) : String := (memberStr name tree).getD ""

/-- The row a tree was written from. -/
def ChecksumArtifact.ofTree (tree : Json) : ChecksumArtifact where
  name := strAt "name" tree
  binding := strAt "binding" tree
  state := strAt "state" tree
  contentSha256 := strAt "content_sha256" tree

theorem ChecksumArtifact.ofTree_toJson (row : ChecksumArtifact) : ofTree row.toJson = row := by
  obtain ⟨name, binding, state, sum⟩ := row
  by_cases bound : binding = "" <;> by_cases summed : sum = "" <;>
    simp [ofTree, strAt, memberStr, toJson, Json.get, Json.lookup, bound, summed]

theorem ChecksumArtifact.toJson_injective : Function.Injective ChecksumArtifact.toJson :=
  Function.LeftInverse.injective ChecksumArtifact.ofTree_toJson

theorem ChecksumArtifact.within_toJson (row : ChecksumArtifact) (limit : Nat) :
    Json.Within (limit + 1) row.toJson := by
  cases bound : row.binding.isEmpty <;> cases summed : row.contentSha256.isEmpty <;>
    simp [toJson, bound, summed]

/-- Equal preimages commit the same Capsule, envelope and sorted inventory. -/
theorem of_checksumPreimage_eq (lawful : packages.Lawful) {left right : Record}
    (same : checksumPreimage packages left = checksumPreimage packages right) :
    left.capsuleId = right.capsuleId ∧ left.capsule = right.capsule ∧
      left.producerEnvelope = right.producerEnvelope ∧
      checksumRows left.artifacts = checksumRows right.artifacts := by
  have trees := lawful.json.toText_inj
    (by simp [depthLimit, jsonBytes, ChecksumArtifact.within_toJson])
    (by simp [depthLimit, jsonBytes, ChecksumArtifact.within_toJson]) same
  simp only [Json.object.injEq, List.cons.injEq, Prod.mk.injEq, true_and, and_true,
    Json.array.injEq] at trees
  obtain ⟨id, capsule, envelope, rows⟩ := trees
  exact ⟨ofString_injective id, jsonBytes_injective lawful capsule,
    jsonBytes_injective lawful envelope,
    List.map_injective_iff.mpr ChecksumArtifact.toJson_injective rows⟩

/-! ## Equal rows of originals that were verified and prepared -/

theorem sha256Hex_ne_empty (lawful : packages.Lawful) (data : Bytes) :
    sha256Hex packages data ≠ "" :=
  ne_empty_of_validId (validId_sha256Hex lawful data)

/-- A verified original that is not purged and a prepared one with the same row
are equal, when their contents do not collide. -/
theorem original_eq (lawful : packages.Lawful) {committed committed' : String} {a b : Artifact}
    {verified verified' : Bool} (okA : verifyState packages committed a = .ok verified)
    (okB : verifyState packages committed' b = .ok verified') (settled : Settled packages b)
    (present : a.state ≠ .purged) (presentB : b.state ≠ .purged)
    (free : ∀ x ∈ a.content, ∀ y ∈ b.content, sha256Hex packages x = sha256Hex packages y → x = y)
    (rows : checksumRow a = checksumRow b) : a = b := by
  obtain ⟨name, binding, content, state, sum⟩ := a
  obtain ⟨name', binding', content', state', sum'⟩ := b
  simp only [checksumRow, ChecksumArtifact.mk.injEq] at rows
  obtain ⟨rfl, rfl, states, rfl⟩ := rows
  cases state with
  | purged => exact absurd rfl present
  | neverRetained =>
      cases state' with
      | purged => exact absurd rfl presentB
      | present => exact absurd states (by decide)
      | neverRetained =>
          obtain ⟨_, goneA, _⟩ := bind_eq_ok_iff.mp okA
          obtain ⟨_, goneB, _⟩ := bind_eq_ok_iff.mp okB
          rw [ensure_eq_ok_iff, Bool.and_eq_true, Option.isNone_iff_eq_none] at goneA goneB
          simp only at goneA goneB
          rw [goneA.1, goneB.1]
  | present =>
      cases state' with
      | purged => exact absurd rfl presentB
      | neverRetained => exact absurd states (by decide)
      | present =>
          cases content with
          | none => cases okA
          | some x =>
              cases content' with
              | none => cases okB
              | some y =>
                  obtain ⟨_, sumA, _⟩ := bind_eq_ok_iff.mp okA
                  have sumB : sum = sha256Hex packages y := settled rfl
                  have filled : sum.isEmpty = false := by
                    rw [sumB, Bool.eq_false_iff]
                    intro empty
                    exact sha256Hex_ne_empty lawful y (String.isEmpty_iff.mp empty)
                  rw [ensure_eq_ok_iff, filled, Bool.false_or, decide_eq_true_eq] at sumA
                  have contents := free x rfl y rfl (sumA.symm.trans sumB)
                  rw [contents]

/-- Lists whose images are permutations are permutations, if the map does not
identify members of the two. -/
theorem perm_of_map_perm {α β : Type} {f : α → β} :
    ∀ {left right : List α}, (left.map f).Perm (right.map f) →
      (∀ a ∈ left, ∀ b ∈ right, f a = f b → a = b) → left.Perm right
  | [], right, perm, _ => by
      rw [List.map_nil, List.nil_perm, List.map_eq_nil_iff] at perm
      rw [perm]
  | a :: left, right, perm, separate => by
      classical
      obtain ⟨b, member, image⟩ := List.mem_map.mp
        (perm.mem_iff.mp (List.mem_map_of_mem (List.mem_cons_self (a := a) (l := left))))
      obtain rfl := separate a List.mem_cons_self b member image.symm
      have front := List.perm_cons_erase member
      have rest : (left.map f).Perm ((right.erase a).map f) :=
        (List.perm_cons (f a)).mp (perm.trans (front.map f))
      refine ((perm_of_map_perm rest ?_).cons a).trans front.symm
      exact fun c inLeft d inRight =>
        separate c (List.mem_cons_of_mem _ inLeft) d (List.mem_of_mem_erase inRight)

/-- Equal sorted inventories list the same rows. -/
theorem perm_of_checksumRows_eq {left right : List Artifact}
    (same : checksumRows left = checksumRows right) :
    (left.map checksumRow).Perm (right.map checksumRow) := by
  have sortedLeft := List.perm_insertionSort
    (fun x y : ChecksumArtifact => utf8 x.name ≤ utf8 y.name) (left.map checksumRow)
  have sortedRight := List.perm_insertionSort
    (fun x y : ChecksumArtifact => utf8 x.name ≤ utf8 y.name) (right.map checksumRow)
  rw [checksumRows, checksumRows] at same
  rw [same] at sortedLeft
  exact sortedLeft.symm.trans sortedRight

/-- Every original of a verified record passed its state check. -/
theorem verifyState_of_verify {record : Record}
    (ok : succeeds (verify packages record trusted) = true) :
    ∀ a ∈ record.artifacts, ∃ committed verified, verifyState packages committed a = .ok verified := by
  obtain ⟨results, ok⟩ := succeeds_iff.mp ok
  obtain ⟨capsule, _, ok⟩ := bind_eq_ok_iff.mp ok
  have run : ∀ (artifacts : List Artifact) (start results : String → Option ArtifactVerification),
      artifacts.foldlM (verifyArtifact packages capsule) start = .ok results →
      ∀ a ∈ artifacts, ∃ committed verified, verifyState packages committed a = .ok verified := by
    intro artifacts
    induction artifacts with
    | nil => simp
    | cons first artifacts ih =>
        intro start results ok a member
        rw [List.foldlM_cons] at ok
        obtain ⟨middle, here, rest⟩ := bind_eq_ok_iff.mp ok
        rcases List.mem_cons.mp member with rfl | member
        · obtain ⟨_, _, here⟩ := bind_eq_ok_iff.mp here
          obtain ⟨_, _, here⟩ := bind_eq_ok_iff.mp here
          obtain ⟨committed, _, here⟩ := bind_eq_ok_iff.mp here
          obtain ⟨verified, state, _⟩ := bind_eq_ok_iff.mp here
          exact ⟨committed, verified, state⟩
        · exact ih middle results rest a member
  exact run record.artifacts _ results ok

/-- A verified record with nothing purged and an admitted one with the same
checksum are the same record. -/
theorem sameRecord_of_checksum (lawful : packages.Lawful) {existing record prepared : Record}
    (admission : acceptRecord packages trusted record = .ok prepared)
    (verified : succeeds (verify packages existing trusted) = true)
    (kept : hasPurged existing = false)
    (free : CollisionFree packages (hashed packages existing ++ hashed packages prepared))
    (same : storageChecksum packages existing = storageChecksum packages prepared) :
    SameRecord existing prepared := by
  obtain ⟨_, verifiedPrepared, settled, keptPrepared⟩ := acceptRecord_ok admission
  have preimage := free _ (List.mem_append_left _ List.mem_cons_self) _
    (List.mem_append_right _ List.mem_cons_self) same
  obtain ⟨id, capsule, envelope, rows⟩ := of_checksumPreimage_eq lawful preimage
  refine ⟨id, capsule, envelope, perm_of_map_perm (f := checksumRow) ?_ ?_⟩
  · exact perm_of_checksumRows_eq rows
  · intro a inExisting b inPrepared row
    obtain ⟨_, _, okA⟩ := verifyState_of_verify verified a inExisting
    obtain ⟨_, _, okB⟩ := verifyState_of_verify verifiedPrepared b inPrepared
    refine original_eq lawful okA okB (settled b inPrepared) ?_ ?_ ?_ row
    · have none := List.any_eq_false.mp kept a inExisting
      simpa using none
    · have none := List.any_eq_false.mp keptPrepared b inPrepared
      simpa using none
    · intro x contentA y contentB digests
      refine free x ?_ y ?_ digests
      · exact List.mem_append_left _ (List.mem_cons_of_mem _
          (List.mem_filterMap.mpr ⟨a, inExisting, contentA⟩))
      · exact List.mem_append_right _ (List.mem_cons_of_mem _
          (List.mem_filterMap.mpr ⟨b, inPrepared, contentB⟩))

end ArtifactStore
end CapsuleEmit
