import CapsuleEmit.ArtifactStore.Agreement
import CapsuleEmit.ArtifactStore.Inventory

namespace CapsuleEmit
namespace ArtifactStore

/-!
# Which records are the same record

A caller hands in a Capsule, an envelope and originals, each with a name, a
binding, a state and its content; the checksums it may also hand in are
computed again.  Two admitted records under one Capsule ID have the same
storage checksum exactly when they agree in all of this up to the order of the
originals.  So the answer to a second put tells the same record from every
other one, before a purge and after it.
-/

variable {packages : Packages} {trusted : List Bytes}

/-- What a caller hands in of an original. -/
structure Original where
  name : String
  binding : String
  state : RetentionState
  content : Option Bytes

def Artifact.original (a : Artifact) : Original := ⟨a.name, a.binding, a.state, a.content⟩

/-- Equal Capsule and envelope bytes, and equal originals up to their order. -/
structure SameContent (left right : Record) : Prop where
  capsule : left.capsule = right.capsule
  producerEnvelope : left.producerEnvelope = right.producerEnvelope
  originals : (left.artifacts.map Artifact.original).Perm (right.artifacts.map Artifact.original)

/-! ## Preparation keeps what was handed in -/

theorem originals_prepared {record prepared : Record} (ok : prepare packages record = .ok prepared) :
    prepared.artifacts.map Artifact.original = record.artifacts.map Artifact.original := by
  refine (map_eq_of_forall₂ ?_ (forall₂_of_mapM (prepare_ok ok).2.2.2)).symm
  intro a b made
  rw [(prepareArtifact_ok made).2.2.2]
  rfl

theorem sameContent_prepared_iff {a b a' b' : Record} (first : prepare packages a = .ok a')
    (second : prepare packages b = .ok b') : SameContent a' b' ↔ SameContent a b := by
  have left := prepare_ok first
  have right := prepare_ok second
  constructor
  · intro same
    refine ⟨?_, ?_, ?_⟩
    · rw [← left.2.1, ← right.2.1, same.capsule]
    · rw [← left.2.2.1, ← right.2.2.1, same.producerEnvelope]
    · rw [← originals_prepared first, ← originals_prepared second]
      exact same.originals
  · intro same
    refine ⟨?_, ?_, ?_⟩
    · rw [left.2.1, right.2.1, same.capsule]
    · rw [left.2.2.1, right.2.2.1, same.producerEnvelope]
    · rw [originals_prepared first, originals_prepared second]
      exact same.originals

/-- An original of an admitted record is settled by what was handed in. -/
theorem eq_of_original {committed committed' : String} {a b : Artifact} {verified verified' : Bool}
    (okA : verifyState packages committed a = .ok verified)
    (okB : verifyState packages committed' b = .ok verified') (settledA : Settled packages a)
    (settledB : Settled packages b) (kept : a.state ≠ .purged)
    (same : a.original = b.original) : a = b := by
  obtain ⟨name, binding, content, state, sum⟩ := a
  obtain ⟨name', binding', content', state', sum'⟩ := b
  simp only [Artifact.original, Original.mk.injEq] at same
  obtain ⟨rfl, rfl, rfl, rfl⟩ := same
  cases state with
  | purged => exact absurd rfl kept
  | present =>
      have sumA : sum = _ := settledA rfl
      have sumB : sum' = _ := settledB rfl
      rw [sumA, sumB]
  | neverRetained =>
      obtain ⟨_, goneA, _⟩ := bind_eq_ok_iff.mp okA
      obtain ⟨_, goneB, _⟩ := bind_eq_ok_iff.mp okB
      rw [ensure_eq_ok_iff, Bool.and_eq_true, String.isEmpty_iff] at goneA goneB
      simp only at goneA goneB
      rw [goneA.2, goneB.2]

/-- Admitted records with the same content are the same record up to the order
of the originals. -/
theorem sameRecord_of_sameContent {a b a' b' : Record}
    (first : acceptRecord packages trusted a = .ok a')
    (second : acceptRecord packages trusted b = .ok b') (sameId : a.capsuleId = b.capsuleId)
    (same : SameContent a b) : SameRecord a' b' := by
  obtain ⟨madeA, verifiedA, settledA, keptA⟩ := acceptRecord_ok first
  obtain ⟨madeB, verifiedB, settledB, _⟩ := acceptRecord_ok second
  have prepared := (sameContent_prepared_iff madeA madeB).mpr same
  refine ⟨?_, prepared.capsule, prepared.producerEnvelope,
    perm_of_map_perm prepared.originals ?_⟩
  · rw [(prepare_ok madeA).1, (prepare_ok madeB).1, sameId]
  · intro x inA y inB equal
    obtain ⟨_, _, okX⟩ := verifyState_of_verify verifiedA x inA
    obtain ⟨_, _, okY⟩ := verifyState_of_verify verifiedB y inB
    refine eq_of_original okX okY (settledA x inA) (settledB y inB) ?_ equal
    have none := List.any_eq_false.mp keptA x inA
    simpa using none

theorem sameContent_of_sameRecord {left right : Record} (same : SameRecord left right) :
    SameContent left right :=
  ⟨same.capsule, same.producerEnvelope, same.artifacts.map Artifact.original⟩

/-- The checksum tells admitted records under one Capsule ID apart, up to the
order of their originals. -/
theorem storageChecksum_eq_iff (lawful : packages.Lawful) {a b a' b' : Record}
    (first : acceptRecord packages trusted a = .ok a')
    (second : acceptRecord packages trusted b = .ok b') (sameId : a.capsuleId = b.capsuleId)
    (free : CollisionFree packages (hashed packages a' ++ hashed packages b')) :
    storageChecksum packages a' = storageChecksum packages b' ↔ SameContent a b := by
  obtain ⟨madeA, verifiedA, _, keptA⟩ := acceptRecord_ok first
  obtain ⟨madeB, _, _, _⟩ := acceptRecord_ok second
  constructor
  · intro sums
    have same := sameRecord_of_checksum lawful second verifiedA keptA free sums
    exact (sameContent_prepared_iff madeA madeB).mp (sameContent_of_sameRecord same)
  · intro same
    exact storageChecksum_of_sameRecord (sameRecord_of_sameContent first second sameId same)
      (nodup_of_verify verifiedA)

/-! ## What a store holds under an id -/

/-- A purge erases something exactly when an original is present. -/
theorem hasPurged_purged_iff {record : Record} (kept : hasPurged record = false) :
    hasPurged (purged record) = true ↔ ∃ a ∈ record.artifacts, a.state = .present := by
  simp only [hasPurged, purged, List.any_map, List.any_eq_true, Function.comp_apply,
    decide_eq_true_eq]
  constructor
  · rintro ⟨a, member, gone⟩
    refine ⟨a, member, ?_⟩
    by_contra other
    rw [purgedArtifact, if_neg other] at gone
    have none := List.any_eq_false.mp kept a member
    simp [gone] at none
  · rintro ⟨a, member, present⟩
    exact ⟨a, member, by simp [purgedArtifact, present]⟩

namespace MemoryStore

/-- What an operation leaves of a record under an id. -/
def kept (id : String) (record : Record) : Op → Record
  | .purge target => if target = id then purged record else record
  | _ => record

/-- A record stays under its id, tombstoned once it is purged. -/
theorem byId_step {store : MemoryStore} {id : String} {record : Record} (valid : validId id = true)
    (held : store.byId id = some record) (op : Op) :
    (step packages trusted store op).2.byId id = some (kept id record op) := by
  cases op with
  | get other => exact held
  | reopen => exact held
  | put other =>
      simp only [step, put, kept]
      cases admission : acceptRecord packages trusted other with
      | error e => exact held
      | ok prepared =>
          simp only
          cases known : store.byId prepared.capsuleId with
          | some existing =>
              simp only
              split_ifs <;> exact held
          | none =>
              have different : id ≠ prepared.capsuleId := by
                intro same
                rw [same, known] at held
                cases held
              simp only
              split <;> simp [Function.update_of_ne different, held]
  | purge other =>
      simp only [step, purge, kept]
      by_cases same : other = id
      · subst same
        simp [valid, held]
      · rw [if_neg same]
        split
        · cases known : store.byId other with
          | none => exact held
          | some stored => simp [Function.update_of_ne (Ne.symm same), held]
        · exact held

theorem byId_after {store : MemoryStore} {id : String} {record : Record} (valid : validId id = true)
    (held : store.byId id = some record) (ops : List Op) :
    (Machine.after (step packages trusted) store ops).byId id = some record ∧ .purge id ∉ ops ∨
      (Machine.after (step packages trusted) store ops).byId id = some (purged record) ∧
        .purge id ∈ ops := by
  induction ops generalizing store record with
  | nil => exact Or.inl ⟨held, List.not_mem_nil⟩
  | cons op ops ih =>
      have next := @byId_step packages trusted _ _ _ valid held op
      by_cases erases : Op.purge id = op
      · subst erases
        rw [kept, if_pos rfl] at next
        refine Or.inr ⟨?_, List.mem_cons_self⟩
        rcases ih next with ⟨stays, _⟩ | ⟨gone, _⟩
        · exact stays
        · rw [Machine.after_cons, gone, purged_purged]
      · have same : kept id record op = record := by
          cases op with
          | purge target => exact if_neg (fun equal => erases (congrArg Op.purge equal.symm))
          | put record => rfl
          | get id => rfl
          | reopen => rfl
        rw [same] at next
        rcases ih next with ⟨stays, never⟩ | ⟨gone, later⟩
        · exact Or.inl ⟨stays, by simp [erases, never]⟩
        · exact Or.inr ⟨gone, List.mem_cons_of_mem _ later⟩

/-- A put under a new Capsule ID stores the prepared record. -/
theorem byId_put {store : MemoryStore} {record prepared : Record}
    (admission : acceptRecord packages trusted record = .ok prepared)
    (fresh : store.byId prepared.capsuleId = none) :
    (store.put packages trusted record).2.byId prepared.capsuleId = some prepared := by
  simp only [put, admission, fresh]
  split <;> simp

/-- The answer to a put under a known Capsule ID. -/
theorem put_held {store : MemoryStore} {record prepared existing : Record}
    (admission : acceptRecord packages trusted record = .ok prepared)
    (held : store.byId prepared.capsuleId = some existing) :
    store.put packages trusted record =
      (if storageChecksum packages existing ≠ storageChecksum packages prepared then .error .conflict
        else if hasPurged existing then .error .purged else .ok (), store) := by
  simp only [put, admission, held]
  split_ifs <;> rfl

end MemoryStore

/-! ## Admission identity -/

/-- Admitted records under one Capsule ID have the same checksum exactly when
they have the same content, a purge does not change it, and a second put is
answered accordingly after any run: the same record is accepted and changes
nothing before a purge and is refused as purged after one that erased
something, and every other record is a conflict. -/
theorem admission_identity (lawful : packages.Lawful) {a b a' b' : Record}
    (first : acceptRecord packages trusted a = .ok a')
    (second : acceptRecord packages trusted b = .ok b') (sameId : a.capsuleId = b.capsuleId)
    (free : CollisionFree packages (hashed packages a' ++ hashed packages b')) :
    (storageChecksum packages a' = storageChecksum packages b' ↔ SameContent a b) ∧
      storageChecksum packages (purged a') = storageChecksum packages a' ∧
      ∀ (store : MemoryStore) (ops : List Op), store.byId a.capsuleId = none →
        let held := Machine.after (MemoryStore.step packages trusted) store (.put a :: ops)
        (¬ SameContent a b → held.put packages trusted b = (.error .conflict, held)) ∧
          (SameContent a b → (.purge a.capsuleId ∉ ops ∨ ∀ o ∈ a.artifacts, o.state ≠ .present) →
            held.put packages trusted b = (.ok (), held)) ∧
          (SameContent a b → .purge a.capsuleId ∈ ops → (∃ o ∈ a.artifacts, o.state = .present) →
            held.put packages trusted b = (.error .purged, held)) := by
  have sums := storageChecksum_eq_iff lawful first second sameId free
  refine ⟨sums, storageChecksum_purged a', fun store ops fresh => ?_⟩
  intro held
  obtain ⟨madeA, verifiedA, _, keptA⟩ := acceptRecord_ok first
  have idA : a'.capsuleId = a.capsuleId := (prepare_ok madeA).1
  have idB : b'.capsuleId = a.capsuleId := by
    rw [(prepare_ok (acceptRecord_ok second).1).1, sameId]
  have valid : validId a.capsuleId = true := idA ▸ validId_of_verify verifiedA
  have stored : (MemoryStore.step packages trusted store (.put a)).2.byId a.capsuleId = some a' := by
    have put := @MemoryStore.byId_put packages trusted store a a' first (by rw [idA, fresh])
    rw [idA] at put
    exact put
  have presence : (∃ o ∈ a'.artifacts, o.state = .present) ↔
      ∃ o ∈ a.artifacts, o.state = .present := by
    have states := congrArg (List.map Original.state) (originals_prepared madeA)
    rw [List.map_map, List.map_map] at states
    have member : ∀ record : Record, (∃ o ∈ record.artifacts, o.state = .present) ↔
        RetentionState.present ∈
          record.artifacts.map (Original.state ∘ Artifact.original) := by
      intro record
      rw [List.mem_map]
      rfl
    rw [member, member, states]
  have erased := (hasPurged_purged_iff keptA).trans presence
  rcases @MemoryStore.byId_after packages trusted _ _ _ valid stored ops with ⟨kept, never⟩ | ⟨gone, later⟩
  · have answer := @MemoryStore.put_held packages trusted held b b' a' second (by rw [idB]; exact kept)
    rw [keptA] at answer
    refine ⟨fun other => ?_, fun same _ => ?_, fun _ later => absurd later never⟩
    · rw [answer, if_pos (fun equal => other (sums.mp equal))]
    · rw [answer, if_neg (not_not.mpr (sums.mpr same))]
      rfl
  · have answer := @MemoryStore.put_held packages trusted held b b' (purged a') second
      (by rw [idB]; exact gone)
    rw [storageChecksum_purged] at answer
    refine ⟨fun other => ?_, fun same absent => ?_, fun same _ present => ?_⟩
    · rw [answer, if_pos (fun equal => other (sums.mp equal))]
    · rw [answer, if_neg (not_not.mpr (sums.mpr same)), if_neg]
      intro erases
      obtain ⟨o, member, present⟩ := erased.mp erases
      exact absent.elim (fun never => never later) (fun none => none o member present)
    · rw [answer, if_neg (not_not.mpr (sums.mpr same)), if_pos (erased.mpr present)]

set_option maxRecDepth 20000 in
theorem hashed_notedStored_separate :
    sha256Hex paddingPackages (checksumPreimage paddingPackages notedStored) ≠
      sha256Hex paddingPackages (utf8 "not a producer-authenticated assertion") := by
  decide +kernel

/-- A record with an original, put again after a purge. -/
theorem admission_identity_noted :
    let empty : MemoryStore := ⟨fun _ => none, [], MemoryIndex.default⟩
    let held := Machine.after (MemoryStore.step paddingPackages [trustedKey]) empty
      [.put notedRecord, .purge notedRecord.capsuleId]
    held.put paddingPackages [trustedKey] notedRecord = (.error .purged, held) := by
  intro empty held
  have free : CollisionFree paddingPackages
      (hashed paddingPackages notedStored ++ hashed paddingPackages notedStored) := by
    have contents : hashed paddingPackages notedStored =
        [checksumPreimage paddingPackages notedStored,
          utf8 "not a producer-authenticated assertion"] := rfl
    intro x inX y inY same
    rw [contents] at inX inY
    simp only [List.mem_append, List.mem_pair, or_self] at inX inY
    rcases inX with rfl | rfl <;> rcases inY with rfl | rfl
    · rfl
    · exact absurd same hashed_notedStored_separate
    · exact absurd same.symm hashed_notedStored_separate
    · rfl
  have answers := (admission_identity paddingPackages_lawful acceptRecord_notedRecord
    acceptRecord_notedRecord rfl free).2.2 empty [.purge notedRecord.capsuleId] rfl
  exact answers.2.2 ⟨rfl, rfl, List.Perm.refl _⟩ List.mem_cons_self
    ⟨privateNote, List.mem_cons_self, rfl⟩

end ArtifactStore
end CapsuleEmit
