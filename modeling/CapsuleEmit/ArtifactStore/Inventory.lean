import CapsuleEmit.ArtifactStore.Checksum
import Mathlib.Data.List.Sort

namespace CapsuleEmit
namespace ArtifactStore

/-!
# The inventory of a verified record

Verification goes through the originals one by one and refuses a name it has
seen.  Whether it succeeds does not depend on the order: the Capsule and its
signer authenticate, the names are distinct, and each original passes its own
check.  Sorting by name then gives the same rows for every order.
-/

variable {packages : Packages} {trusted : List Bytes}

/-! ## Verification original by original -/

/-- What the check of an original requires of the original alone. -/
def Passes (packages : Packages) (capsule : Json) (a : Artifact) : Prop :=
  validName a.name = true ∧ ∃ committed verified, committedDigest capsule a = .ok committed ∧
    verifyState packages committed a = .ok verified

/-- The check of an original also requires that its name is new. -/
theorem verifyArtifact_iff {capsule : Json} {results results' : String → Option ArtifactVerification}
    {a : Artifact} (ok : verifyArtifact packages capsule results a = .ok results') :
    Passes packages capsule a ∧ results a.name = none ∧
      ∀ name, results' name = none ↔ results name = none ∧ name ≠ a.name := by
  obtain ⟨_, named, ok⟩ := bind_eq_ok_iff.mp ok
  obtain ⟨_, fresh, ok⟩ := bind_eq_ok_iff.mp ok
  obtain ⟨committed, digest, ok⟩ := bind_eq_ok_iff.mp ok
  obtain ⟨verified, state, ok⟩ := bind_eq_ok_iff.mp ok
  cases ok
  refine ⟨⟨ensure_eq_ok_iff.mp named, committed, verified, digest, state⟩,
    Option.isNone_iff_eq_none.mp (ensure_eq_ok_iff.mp fresh), fun name => ?_⟩
  by_cases same : name = a.name
  · subst same
    simp
  · simp [same]

theorem verifyArtifact_of_passes {capsule : Json} {a : Artifact}
    (passes : Passes packages capsule a) {results : String → Option ArtifactVerification}
    (fresh : results a.name = none) :
    ∃ results', verifyArtifact packages capsule results a = .ok results' := by
  obtain ⟨named, committed, verified, digest, state⟩ := passes
  rw [verifyArtifact, named, fresh, digest]
  simp only [Option.isNone_none, ensure_true, ok_bind, state]
  exact ⟨_, rfl⟩

theorem foldlM_verifyArtifact_iff (capsule : Json) (artifacts : List Artifact)
    (results : String → Option ArtifactVerification) :
    succeeds (artifacts.foldlM (verifyArtifact packages capsule) results) = true ↔
      (artifacts.map Artifact.name).Nodup ∧ (∀ a ∈ artifacts, results a.name = none) ∧
        ∀ a ∈ artifacts, Passes packages capsule a := by
  induction artifacts generalizing results with
  | nil => simp [List.foldlM_nil]
  | cons a artifacts ih =>
      rw [List.foldlM_cons, List.map_cons, List.nodup_cons]
      constructor
      · intro ok
        obtain ⟨last, ok⟩ := succeeds_iff.mp ok
        obtain ⟨middle, first, rest⟩ := bind_eq_ok_iff.mp ok
        obtain ⟨passes, fresh, after⟩ := verifyArtifact_iff first
        obtain ⟨distinct, unseen, others⟩ := (ih middle).mp (succeeds_iff.mpr ⟨last, rest⟩)
        refine ⟨⟨?_, distinct⟩, ?_, ?_⟩
        · intro member
          obtain ⟨b, inside, same⟩ := List.mem_map.mp member
          exact ((after b.name).mp (unseen b inside)).2 same
        · intro b member
          rcases List.mem_cons.mp member with rfl | member
          · exact fresh
          · exact ((after b.name).mp (unseen b member)).1
        · intro b member
          rcases List.mem_cons.mp member with rfl | member
          · exact passes
          · exact others b member
      · rintro ⟨⟨new, distinct⟩, unseen, passes⟩
        obtain ⟨middle, first⟩ := verifyArtifact_of_passes (passes a List.mem_cons_self)
          (unseen a List.mem_cons_self)
        have after := (verifyArtifact_iff first).2.2
        rw [first, ok_bind]
        refine (ih middle).mpr ⟨distinct, fun b member => ?_, fun b member =>
          passes b (List.mem_cons_of_mem _ member)⟩
        refine (after b.name).mpr ⟨unseen b (List.mem_cons_of_mem _ member), fun same => ?_⟩
        exact new (same ▸ List.mem_map_of_mem member)

/-- A record verifies when its Capsule and signer authenticate, the names of its
originals are distinct, and each original passes. -/
theorem verify_iff (record : Record) :
    succeeds (verify packages record trusted) = true ↔
      ∃ capsule, authenticate packages record trusted = .ok capsule ∧
        (record.artifacts.map Artifact.name).Nodup ∧
        ∀ a ∈ record.artifacts, Passes packages capsule a := by
  rw [verify]
  cases authentic : authenticate packages record trusted with
  | error e => simp
  | ok capsule =>
      rw [ok_bind, foldlM_verifyArtifact_iff]
      simp

theorem nodup_of_verify {record : Record}
    (ok : succeeds (verify packages record trusted) = true) :
    (record.artifacts.map Artifact.name).Nodup := by
  obtain ⟨_, _, distinct, _⟩ := (verify_iff record).mp ok
  exact distinct

/-- The order of the originals does not matter to verification. -/
theorem verify_of_sameRecord {left right : Record} (same : SameRecord left right)
    (ok : succeeds (verify packages left trusted) = true) :
    succeeds (verify packages right trusted) = true := by
  obtain ⟨capsule, authentic, distinct, passes⟩ := (verify_iff left).mp ok
  refine (verify_iff right).mpr ⟨capsule, ?_, ?_, fun a member => ?_⟩
  · rw [← authentic]
    simp only [authenticate, same.capsuleId, same.capsule, same.producerEnvelope]
  · exact (same.artifacts.map Artifact.name).nodup_iff.mp distinct
  · exact passes a (same.artifacts.mem_iff.mpr member)

/-! ## Sorting by name -/

/-- Rows with distinct names are sorted the same way from every order. -/
theorem sorted_eq_of_perm {α : Type} {key : α → Bytes} {left right : List α} (perm : left.Perm right)
    (distinct : (left.map key).Nodup) :
    left.insertionSort (fun x y => key x ≤ key y) = right.insertionSort (fun x y => key x ≤ key y) := by
  have total : Std.Total (fun x y : α => key x ≤ key y) := ⟨fun x y => List.le_total (key x) (key y)⟩
  have trans : IsTrans α (fun x y : α => key x ≤ key y) := ⟨fun _ _ _ => List.le_trans⟩
  have sortedLeft := List.pairwise_insertionSort (fun x y : α => key x ≤ key y) left
  have sortedRight := List.pairwise_insertionSort (fun x y : α => key x ≤ key y) right
  have permLeft := List.perm_insertionSort (fun x y : α => key x ≤ key y) left
  have permRight := List.perm_insertionSort (fun x y : α => key x ≤ key y) right
  refine List.Perm.eq_of_pairwise ?_ sortedLeft sortedRight
    (permLeft.trans (perm.trans permRight.symm))
  intro x y inLeft inRight below above
  exact List.inj_on_of_nodup_map distinct (permLeft.mem_iff.mp inLeft)
    (perm.mem_iff.mpr (permRight.mem_iff.mp inRight)) (List.le_antisymm below above)

theorem nodup_rowNames {artifacts : List Artifact} (distinct : (artifacts.map Artifact.name).Nodup) :
    ((artifacts.map checksumRow).map (fun row => utf8 row.name)).Nodup := by
  have names : (artifacts.map checksumRow).map (fun row => utf8 row.name) =
      (artifacts.map Artifact.name).map utf8 := by
    simp [checksumRow]
  rw [names]
  exact distinct.map utf8_injective

theorem checksumRows_of_perm {left right : List Artifact} (perm : left.Perm right)
    (distinct : (left.map Artifact.name).Nodup) : checksumRows left = checksumRows right :=
  sorted_eq_of_perm (perm.map checksumRow) (nodup_rowNames distinct)

/-- The order of the originals does not matter to the checksum. -/
theorem storageChecksum_of_sameRecord {left right : Record} (same : SameRecord left right)
    (distinct : (left.artifacts.map Artifact.name).Nodup) :
    storageChecksum packages left = storageChecksum packages right := by
  rw [storageChecksum, storageChecksum, checksumPreimage, checksumPreimage, same.capsuleId,
    same.capsule, same.producerEnvelope, checksumRows_of_perm same.artifacts distinct]

end ArtifactStore
end CapsuleEmit
