import CapsuleEmit.ArtifactStore.Concrete
import CapsuleEmit.Produce.Canonical

namespace CapsuleEmit

/-!
# A concrete canonicalizer

The text layer and SHA-256 of this development, put together as the package
the producers rely on.  A Capsule ID is the digest of the canonical text of
the members, and every value without floats and unsafe integers has one.
-/

namespace Json

/-! ## Normal forms -/

/-- Members in the order of their names. -/
def Ordered (members : List (Bytes × Json)) : Prop := members.Pairwise (fun a b => a.1 ≤ b.1)

theorem insertMember_ordered {member : Bytes × Json} {members : List (Bytes × Json)}
    (ordered : Ordered members) : Ordered (ArtifactStore.insertMember member members) := by
  induction members with
  | nil => exact List.pairwise_singleton _ _
  | cons other members ih =>
      rcases List.pairwise_cons.mp ordered with ⟨least, rest⟩
      rw [ArtifactStore.insertMember]
      split
      · next le =>
          refine List.pairwise_cons.mpr ⟨fun m inside => ?_, ordered⟩
          rcases List.mem_cons.mp inside with rfl | inside
          · exact le
          · exact List.le_trans le (least m inside)
      · next above =>
          refine List.pairwise_cons.mpr ⟨fun m inside => ?_, ih rest⟩
          rcases mem_insertMember.mp inside with rfl | inside
          · exact (List.le_total _ _).resolve_left above
          · exact least m inside

theorem normalMembers_ordered (members : List (Bytes × Json)) :
    Ordered (normalMembers members) := by
  induction members with
  | nil => exact List.Pairwise.nil
  | cons member members ih => exact insertMember_ordered ih

/-- A member that comes first is inserted at the front. -/
theorem insertMember_first {member : Bytes × Json} {members : List (Bytes × Json)}
    (first : ∀ m ∈ members, member.1 ≤ m.1) :
    ArtifactStore.insertMember member members = member :: members := by
  cases members with
  | nil => rfl
  | cons other members => rw [ArtifactStore.insertMember, if_pos (first other List.mem_cons_self)]

/-- Ordered members that are normal are their own normal form. -/
theorem normalMembers_eq_self {members : List (Bytes × Json)} (ordered : Ordered members)
    (normal : ∀ m ∈ members, m.2.normal = m.2) : normalMembers members = members := by
  induction members with
  | nil => rfl
  | cons member members ih =>
      rcases List.pairwise_cons.mp ordered with ⟨least, rest⟩
      rw [normalMembers, ih rest (fun m inside => normal m (List.mem_cons_of_mem _ inside)),
        normal member List.mem_cons_self]
      exact insertMember_first least

theorem normalMembers_map_perm (members : List (Bytes × Json)) :
    (normalMembers members).Perm (members.map (fun member => (member.1, member.2.normal))) := by
  induction members with
  | nil => exact List.Perm.refl _
  | cons member members ih => exact (insertMember_perm _ _).trans (ih.cons _)

/-- The order of members is not part of the normal form. -/
theorem normalMembers_perm {left right : List (Bytes × Json)} (perm : left.Perm right)
    (once : (left.map Prod.fst).Nodup) : normalMembers left = normalMembers right := by
  have names : ((normalMembers left).map Prod.fst).Nodup := by
    refine ((normalMembers_map_perm left).map Prod.fst).nodup_iff.mpr ?_
    rwa [List.map_map]
  have sorted := (normalMembers_map_perm left).trans
    ((perm.map _).trans (normalMembers_map_perm right).symm)
  refine sorted.eq_of_pairwise ?_ (normalMembers_ordered left) (normalMembers_ordered right)
  intro first second inFirst inSecond le ge
  exact List.inj_on_of_nodup_map names inFirst (sorted.mem_iff.mpr inSecond)
    (List.le_antisymm le ge)

theorem normalNumber_normalNumber (number : JsonNumber) :
    normalNumber (normalNumber number) = normalNumber number := by
  by_cases minus : number.text = [45, 48]
  · have same : normalNumber number = zero := if_pos minus
    rw [same]
    rfl
  · have same : normalNumber number = number := if_neg minus
    rw [same, same]

mutual
@[simp] theorem normal_normal : ∀ value : Json, value.normal.normal = value.normal
  | .null => rfl
  | .bool _ => rfl
  | .number value => congrArg Json.number (normalNumber_normalNumber value)
  | .string _ => rfl
  | .array items => congrArg Json.array (normalItems_normalItems items)
  | .object members => congrArg Json.object
      (normalMembers_eq_self (normalMembers_ordered members) (normal_of_mem members))

theorem normalItems_normalItems : ∀ items : List Json,
    normalItems (normalItems items) = normalItems items
  | [] => rfl
  | item :: items => by
      rw [normalItems, normalItems, normal_normal item, normalItems_normalItems items]

theorem normal_of_mem : ∀ (members : List (Bytes × Json)), ∀ m ∈ normalMembers members,
    m.2.normal = m.2
  | [], m, inside => by cases inside
  | (name, value) :: members, m, inside => by
      rw [normalMembers] at inside
      rcases mem_insertMember.mp inside with rfl | inside
      · exact normal_normal value
      · exact normal_of_mem members m inside
end

section

variable {p : JsonNumber → Bool}

mutual
theorem everyNumber_normal (blind : ∀ number, p (normalNumber number) = p number) :
    ∀ value : Json, value.normal.everyNumber p = value.everyNumber p
  | .null => rfl
  | .bool _ => rfl
  | .number value => blind value
  | .string _ => rfl
  | .array items => everyNumberItems_normal blind items
  | .object members => everyNumberMembers_normal blind members

theorem everyNumberItems_normal (blind : ∀ number, p (normalNumber number) = p number) :
    ∀ items : List Json, everyNumberItems p (normalItems items) = everyNumberItems p items
  | [] => rfl
  | item :: items => by
      rw [normalItems, everyNumberItems, everyNumberItems, everyNumber_normal blind item,
        everyNumberItems_normal blind items]

theorem everyNumberMembers_normal (blind : ∀ number, p (normalNumber number) = p number) :
    ∀ members : List (Bytes × Json),
      everyNumberMembers p (normalMembers members) = everyNumberMembers p members
  | [] => rfl
  | (name, value) :: members => by
      have rest := everyNumberMembers_normal blind members
      rw [normalMembers, Bool.eq_iff_iff, everyNumberMembers_iff]
      simp only [mem_insertMember, forall_eq_or_imp]
      rw [← everyNumberMembers_iff, rest, everyNumberMembers, everyNumber_normal blind value,
        Bool.and_eq_true]
end

end

end Json

namespace Produce

/-! ## The package -/

theorem isSafe_normalNumber (number : JsonNumber) :
    isSafe (Json.normalNumber number) = isSafe number := by
  by_cases minus : number.text = [45, 48]
  · rw [Json.normalNumber, if_pos minus]
    simp only [isSafe, isUnsafeInt, isFloat, ArtifactStore.Python.isIntText, minus]
    decide
  · rw [Json.normalNumber, if_neg minus]

def plainCanonicalizer : Canonicalizer where
  computeCapsuleId payload :=
    let value := (Json.object payload).normal
    if value.everyNumber isSafe then .ok (Sha256.hex (Sha256.digest (JsonText.write value)))
    else .error "float or unsafe integer"
  class1 _ := .ok ()
  jcs value :=
    if value.normal.everyNumber isSafe then .ok (JsonText.write value.normal)
    else .error "float or unsafe integer"
  loads data := (JsonText.readDocument data).getD .null

theorem plainCanonicalizer_lawful : plainCanonicalizer.Lawful where
  id_congr left right same := by simp only [plainCanonicalizer, same]
  class1_congr _ _ _ := rfl
  jcs_congr left right same := by simp only [plainCanonicalizer, same]
  id_safe payload id computed := by
    simp only [plainCanonicalizer] at computed
    split at computed
    · next safe => rwa [Json.everyNumber_normal isSafe_normalNumber] at safe
    · cases computed
  jcs_total value canonicalizable := by
    have safe := canonicalizable.2.2.1
    rw [← Json.everyNumber_normal isSafe_normalNumber] at safe
    exact ⟨_, if_pos safe⟩
  jcs_safe value bytes written := by
    simp only [plainCanonicalizer] at written
    split at written
    · next safe => rwa [Json.everyNumber_normal isSafe_normalNumber] at safe
    · cases written
  loads_jcs value bytes written := by
    simp only [plainCanonicalizer] at written ⊢
    split at written
    · cases written
      rw [JsonText.readDocument_write, Option.getD_some, Json.normal_normal]
    · cases written

/-- The decoder of this development within the limit of the crate. -/
def plainDecoder (data : Bytes) : Except String Json :=
  match JsonText.readDocument data with
  | some tree =>
      if tree.textual && tree.nesting ≤ Rust.decoderLevels then .ok tree
      else .error "expected value"
  | none => .error "expected value"

theorem plainDecoder_capsule : Rust.CapsuleDecoder plainDecoder where
  takes data := by
    unfold plainDecoder
    cases JsonText.readDocument data with
    | none => simp
    | some tree =>
        simp only [Option.some.injEq, exists_eq_left', Bool.and_eq_true, decide_eq_true_eq]
        split
        · next within => exact ⟨fun _ => within, fun _ => ⟨tree, rfl⟩⟩
        · next outside => exact ⟨nofun, fun within => absurd within outside⟩
  gives data tree read textual shallow _ := by
    simp only [plainDecoder, read]
    rw [if_pos]
    rw [textual, Bool.true_and, decide_eq_true_eq]
    exact shallow

/-- Members with safe numbers have a Capsule ID and a canonical text. -/
theorem plainCanonicalizer_seals {payload : Payload}
    (safe : (Json.object payload).everyNumber isSafe = true) :
    ∃ id bytes, plainCanonicalizer.computeCapsuleId payload = .ok id ∧
      plainCanonicalizer.jcs (.object (payload ++ [text "capsule_id" id])) = .ok bytes := by
  have whole : ∀ id,
      (Json.object (payload ++ [text "capsule_id" id])).everyNumber isSafe = true := by
    intro id
    rw [Json.everyNumber, Json.everyNumberMembers_iff] at safe ⊢
    rw [List.forall_mem_append, List.forall_mem_singleton]
    exact ⟨safe, rfl⟩
  have written := whole (Sha256.hex (Sha256.digest (JsonText.write (Json.object payload).normal)))
  rw [← Json.everyNumber_normal isSafe_normalNumber] at safe written
  exact ⟨_, _, if_pos safe, if_pos written⟩

end Produce
end CapsuleEmit
