import CapsuleEmit.Witnessing.Cycle

namespace CapsuleEmit
namespace Witnessing

open Continuity

/-!
# Checkpoints offered and stamped

What offering a checkpoint does to the witnesses and to the checkpoint, and
ledgers whose stamps form the chain of their log.  A checkpoint that goes on
from such a ledger makes it longer.
-/

/-! ## Offering a checkpoint -/

@[simp] theorem Checkpoint.link_body (cp : Checkpoint) : cp.body.link = cp.link := rfl

theorem Checkpoint.link_eq_of_body {cp other : Checkpoint} (same : cp.body = other.body) :
    cp.link = other.link := by
  rw [← link_body, same, link_body]

section

variable {sign : Bool} {deliveries : String → Delivery}

/-- A witness asked to register a checkpoint stays where it is or accepts it. -/
theorem registerWith_party (party : Party) (url : String) (cp : Checkpoint) (delivery : Delivery) :
    (registerWith party url cp delivery).1 = party ∨
      (registerWith party url cp delivery).1 = some cp.link.next := by
  cases delivery with
  | unreached => exact Or.inl rfl
  | unheard =>
      simp only [registerWith, Party.receive]
      split <;> simp
  | answered receipt =>
      simp only [registerWith, Party.receive]
      split <;> simp

/-- A witness that confirmed a checkpoint is at it. -/
theorem registerWith_stamped {party : Party} {url : String} {cp : Checkpoint}
    {delivery : Delivery} {witness : WitnessRecord}
    (stamped : (registerWith party url cp delivery).2 = .stamped witness) :
    witness.tsUrl = url ∧ (registerWith party url cp delivery).1 = some cp.link.next := by
  cases delivery with
  | unreached => cases stamped
  | unheard => cases stamped
  | answered receipt =>
      cases party with
      | none =>
          cases stamped
          exact ⟨rfl, rfl⟩
      | some last =>
          simp only [registerWith] at stamped
          split at stamped
          · next accepted =>
              cases stamped
              exact ⟨rfl, if_pos accepted⟩
          · cases stamped

@[simp] theorem Checkpoint.body_keep (cp : Checkpoint) (response : Response) :
    (cp.keep response).body = cp.body := by
  cases response <;> rfl

@[simp] theorem Checkpoint.link_keep (cp : Checkpoint) (response : Response) :
    (cp.keep response).link = cp.link := by
  cases response <;> rfl

/-- The confirmations a checkpoint collects do not change what is signed. -/
theorem registerAll_body (urls : List String) (parties : String → Party) (cp : Checkpoint) :
    (registerAll sign deliveries urls parties cp).checkpoint.body = cp.body := by
  induction urls generalizing parties cp with
  | nil => rfl
  | cons url urls ih => exact (ih _ _).trans (cp.body_keep _)

/-- Every request of an offer is for the checkpoint. -/
theorem registerAll_requests (urls : List String) (parties : String → Party) (cp : Checkpoint) :
    ∀ request ∈ (registerAll sign deliveries urls parties cp).requests,
      request.checkpoint = cp.body := by
  induction urls generalizing parties cp with
  | nil => exact List.forall_mem_nil _
  | cons url urls ih =>
      intro request member
      rw [registerAll, List.mem_cons] at member
      rcases member with rfl | member
      · rfl
      · exact (ih _ _ request member).trans (cp.body_keep _)

/-- Every witness stays where it is or accepts the checkpoint. -/
theorem registerAll_parties (urls : List String) (parties : String → Party) (cp : Checkpoint)
    (other : String) :
    (registerAll sign deliveries urls parties cp).parties other = parties other ∨
      (registerAll sign deliveries urls parties cp).parties other = some cp.link.next := by
  induction urls generalizing parties cp with
  | nil => exact Or.inl rfl
  | cons url urls ih =>
      rw [registerAll]
      rcases ih (Function.update parties url (registerWith (parties url) url cp
        (deliveryTo sign deliveries url)).1) (cp.keep _) with same | moved
      · rw [same]
        by_cases this : other = url
        · rw [this, Function.update_self]
          exact registerWith_party _ _ _ _
        · rw [Function.update_of_ne this]
          exact Or.inl rfl
      · rw [Checkpoint.link_keep] at moved
        exact Or.inr moved

/-- A witness at the checkpoint stays there. -/
theorem registerAll_stays {urls : List String} {parties : String → Party} {cp : Checkpoint}
    {url : String} (reached : parties url = some cp.link.next) :
    (registerAll sign deliveries urls parties cp).parties url = some cp.link.next := by
  rcases registerAll_parties urls parties cp url with same | moved
  · exact same.trans reached
  · exact moved

/-- A confirmation collected for a checkpoint is from a witness at it. -/
theorem registerAll_witnesses (urls : List String) (parties : String → Party) (cp : Checkpoint) :
    ∀ witness ∈ (registerAll sign deliveries urls parties cp).checkpoint.witnesses,
      witness ∈ cp.witnesses ∨
        (registerAll sign deliveries urls parties cp).parties witness.tsUrl =
          some cp.link.next := by
  induction urls generalizing parties cp with
  | nil => exact fun witness member => Or.inl member
  | cons url urls ih =>
      intro witness member
      rw [registerAll] at member ⊢
      rcases ih _ _ witness member with before | moved
      · cases response : (registerWith (parties url) url cp (deliveryTo sign deliveries url)).2 with
        | stamped confirmed =>
            rw [response] at before
            rcases List.mem_append.mp before with before | now
            · exact Or.inl before
            · cases List.mem_singleton.mp now
              obtain ⟨rfl, reached⟩ := registerWith_stamped response
              right
              have stays := @registerAll_stays sign deliveries urls
                (Function.update parties witness.tsUrl (registerWith (parties witness.tsUrl)
                  witness.tsUrl cp (deliveryTo sign deliveries witness.tsUrl)).1)
                (cp.keep (.stamped witness)) witness.tsUrl
              rw [Function.update_self, Checkpoint.link_keep] at stays
              exact stays reached
        | refused last =>
            rw [response] at before
            exact Or.inl before
        | failed =>
            rw [response] at before
            exact Or.inl before
      · rw [Checkpoint.link_keep] at moved
        exact Or.inr moved

/-- A witness that answers and accepts the checkpoint is brought to it. -/
theorem registerAll_accepts {urls : List String} {url : String} (asked : url ∈ urls)
    {receipt : String} (answers : deliveryTo sign deliveries url = .answered receipt)
    (parties : String → Party) (cp : Checkpoint)
    (accepted : accepts (parties url) cp.link = true) :
    (registerAll sign deliveries urls parties cp).parties url = some cp.link.next := by
  induction urls generalizing parties cp with
  | nil => cases asked
  | cons first urls ih =>
      rw [registerAll]
      by_cases this : first = url
      · subst this
        have reached : (registerWith (parties first) first cp
            (deliveryTo sign deliveries first)).1 = some cp.link.next := by
          rw [answers]
          exact if_pos accepted
        have stays := @registerAll_stays sign deliveries urls
          (Function.update parties first (registerWith (parties first) first cp
            (deliveryTo sign deliveries first)).1)
          (cp.keep (registerWith (parties first) first cp (deliveryTo sign deliveries first)).2)
          first
        rw [Function.update_self, Checkpoint.link_keep] at stays
        exact stays reached
      · have later : url ∈ urls := by
          rcases List.mem_cons.mp asked with same | later
          · exact absurd same.symm this
          · exact later
        have moved := ih later (Function.update parties first (registerWith (parties first) first
          cp (deliveryTo sign deliveries first)).1)
          (cp.keep (registerWith (parties first) first cp (deliveryTo sign deliveries first)).2)
        rw [Function.update_of_ne (Ne.symm this), Checkpoint.link_keep] at moved
        exact moved accepted

end

/-! ## Ledgers whose stamps are a chain -/

/-- The checkpoints of a ledger's stamps. -/
def checkpoints (ledger : List Entry) : List Checkpoint := (stamps ledger).map Stamp.checkpoint

/-- The stamps are of one log and form its chain, each with its wire form. -/
structure Chained (digests : Digests) (logId : String) (ledger : List Entry) : Prop
    extends OneLog digests ledger where
  chain : Linked none ((checkpoints ledger).map Checkpoint.link)
  forms : ∀ stamp ∈ stamps ledger, stamp.checkpointCose.isSome = true
  own : ∀ cp ∈ checkpoints ledger, cp.logId = logId

/-- Every late confirmation is of a stamp. -/
def Known (ledger : List Entry) : Prop :=
  ∀ digest, backfills ledger digest ≠ [] → digest ∈ (stamps ledger).map Stamp.entryDigest

/-- A checkpoint goes on from the stamps of a ledger. -/
structure GoesOn (logId : String) (ledger : List Entry) (cp : Checkpoint) : Prop where
  starts : ∀ position ∈ reached none ((checkpoints ledger).map Checkpoint.link),
    cp.link.prev = position
  forward : cp.prevSize < cp.mmrSize
  grows : ∀ before ∈ checkpoints ledger, before.mmrSize < cp.mmrSize
  own : cp.logId = logId

section

variable {digests : Digests} {logId : String} {ledger ledger' : List Entry}

theorem Chained.of_stamps (chained : Chained digests logId ledger)
    (same : stamps ledger' = stamps ledger) : Chained digests logId ledger' := by
  have checkpoints' : checkpoints ledger' = checkpoints ledger := by
    rw [checkpoints, checkpoints, same]
  refine ⟨chained.toOneLog.of_stamps same, ?_, ?_, ?_⟩
  · rw [checkpoints']
    exact chained.chain
  · rw [same]
    exact chained.forms
  · rw [checkpoints']
    exact chained.own

theorem GoesOn.of_stamps {cp : Checkpoint} (goesOn : GoesOn logId ledger cp)
    (same : stamps ledger' = stamps ledger) : GoesOn logId ledger' cp := by
  have checkpoints' : checkpoints ledger' = checkpoints ledger := by
    rw [checkpoints, checkpoints, same]
  refine ⟨?_, goesOn.forward, ?_, goesOn.own⟩
  · rw [checkpoints']
    exact goesOn.starts
  · rw [checkpoints']
    exact goesOn.grows

/-- What is signed decides whether a checkpoint goes on. -/
theorem GoesOn.of_body {cp other : Checkpoint} (goesOn : GoesOn logId ledger cp)
    (same : other.body = cp.body) : GoesOn logId ledger other := by
  have prevSize : other.body.prevSize = cp.body.prevSize := congrArg Checkpoint.prevSize same
  have mmrSize : other.body.mmrSize = cp.body.mmrSize := congrArg Checkpoint.mmrSize same
  have logId : other.body.logId = cp.body.logId := congrArg Checkpoint.logId same
  have sizes : other.prevSize = cp.prevSize ∧ other.mmrSize = cp.mmrSize := ⟨prevSize, mmrSize⟩
  refine ⟨?_, ?_, ?_, logId.trans goesOn.own⟩
  · rw [Checkpoint.link_eq_of_body same]
    exact goesOn.starts
  · rw [sizes.1, sizes.2]
    exact goesOn.forward
  · rw [sizes.2]
    exact goesOn.grows

/-- The stamp and the state of a checkpoint carry the same. -/
theorem mem_states_iff (oneLog : OneLog digests ledger) {state : CheckpointWitnessState} :
    state ∈ checkpointWitnessStates ledger ↔ ∃ stamp ∈ stamps ledger,
      state = ⟨stamp.entryDigest, stamp.checkpoint,
        stamp.checkpoint.witnesses ++ backfills ledger stamp.entryDigest,
        stamp.checkpointCose⟩ := by
  rw [states_eq oneLog.ids, List.mem_map]
  exact exists_congr (fun _ => and_congr_right (fun _ => eq_comm))

theorem mem_checkpoints_of_state (oneLog : OneLog digests ledger) {state : CheckpointWitnessState}
    (member : state ∈ checkpointWitnessStates ledger) :
    state.checkpoint ∈ checkpoints ledger := by
  obtain ⟨stamp, listed, rfl⟩ := (mem_states_iff oneLog).mp member
  exact List.mem_map_of_mem listed

/-- A checkpoint is confirmed by a witness in a ledger when its stamp carries the
confirmation, or a later line does. -/
theorem confirmed_stamp_iff (oneLog : OneLog digests ledger) {stamp : Stamp}
    (member : stamp ∈ stamps ledger) {url : String} :
    Confirmed ledger url stamp.entryDigest ↔
      ∃ witness ∈ stamp.checkpoint.witnesses ++ backfills ledger stamp.entryDigest,
        witness.tsUrl = url := by
  have listed := (mem_states_iff oneLog).mpr ⟨stamp, member, rfl⟩
  rw [confirmed_iff oneLog listed, CheckpointWitnessState.confirmedBy, List.any_eq_true]
  simp only [decide_eq_true_eq]

/-- Where a chain of stamps leads is its newest stamp. -/
theorem reached_checkpoints (cps : List Checkpoint) :
    reached none (cps.map Checkpoint.link) = cps.getLast?.map (fun cp => cp.link.next) := by
  rcases List.eq_nil_or_concat cps with rfl | ⟨front, last, rfl⟩
  · rfl
  · rw [List.concat_eq_append, List.map_append, List.map_singleton, reached_concat,
      List.getLast?_concat]
    rfl

/-- The newest persisted checkpoint is that of the newest stamp. -/
theorem lastPersistedCheckpoint_eq (chained : Chained digests logId ledger) :
    lastPersistedCheckpoint ledger logId = (checkpoints ledger).getLast? := by
  rw [lastPersistedCheckpoint, states_eq chained.ids, checkpoints, List.getLast?_map,
    List.getLast?_map]
  cases found : (stamps ledger).getLast? with
  | none => rfl
  | some stamp =>
      have own := chained.own stamp.checkpoint
        (List.mem_map_of_mem (List.mem_of_getLast? found))
      exact if_pos own

/-- A chain of stamps goes on by the stamp of a checkpoint that goes on from it. -/
theorem Chained.concat (chained : Chained digests logId ledger) {cp : Checkpoint}
    (goesOn : GoesOn logId ledger cp) {cose : Option String} (form : cose.isSome = true)
    (fresh : ∀ stamp ∈ stamps ledger, stamp.entryDigest ≠ digests.entryDigest cp)
    (grown : stamps ledger' = stamps ledger ++ [⟨digests.entryDigest cp, cp, cose⟩]) :
    Chained digests logId ledger' := by
  have checkpoints' : checkpoints ledger' = checkpoints ledger ++ [cp] := by
    rw [checkpoints, checkpoints, grown, List.map_append, List.map_singleton]
  constructor
  case chain =>
    rw [checkpoints', List.map_append, List.map_singleton, linked_concat]
    exact ⟨chained.chain, goesOn.starts⟩
  case forms =>
    rw [grown, List.forall_mem_append, List.forall_mem_singleton]
    exact ⟨chained.forms, form⟩
  case own =>
    rw [checkpoints', List.forall_mem_append, List.forall_mem_singleton]
    exact ⟨chained.own, goesOn.own⟩
  case toOneLog =>
    constructor
    case ids =>
      rw [grown, List.map_append, List.map_singleton, List.nodup_append]
      refine ⟨chained.ids, List.nodup_singleton _, ?_⟩
      intro id member other single
      obtain ⟨stamp, listed, rfl⟩ := List.mem_map.mp member
      rw [List.mem_singleton.mp single]
      exact fresh stamp listed
    case digest =>
      rw [grown, List.forall_mem_append, List.forall_mem_singleton]
      exact ⟨chained.digest, rfl⟩
    case grows =>
      rw [grown, List.pairwise_append]
      refine ⟨chained.grows, List.pairwise_singleton _ _, ?_⟩
      intro stamp member other single
      rw [List.mem_singleton.mp single]
      exact goesOn.grows _ (List.mem_map_of_mem member)
    case forward =>
      rw [grown, List.forall_mem_append, List.forall_mem_singleton]
      exact ⟨chained.forward, goesOn.forward⟩

end

end Witnessing
end CapsuleEmit
