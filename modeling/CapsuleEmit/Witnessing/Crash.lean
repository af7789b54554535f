import CapsuleEmit.Witnessing.Chain
import Mathlib.Data.Nat.Bits

namespace CapsuleEmit
namespace Witnessing

open Continuity

/-!
# Runs of the checkpoint cycle

A checkpoint is remembered, offered and written in three steps.  When every
checkpoint that is offered is also written, the stamps are the chain that all
requests are on, a witness is always at one of them, and a cycle in which it
answers brings it up to the newest.  A process that stops between the offer
and the write, or whose write fails, leaves a witness at a checkpoint that no
ledger has; from then on it refuses whatever the process builds.
-/

/-! ## A pass over a chain -/

section

variable {digests : Digests} {logId : String} {world : World} {call : Call} {url : String}

/-- Every offer of a pass is of a stamp of the ledger. -/
theorem offers_mem {states : List CheckpointWitnessState} {sign : Bool}
    {attempts : String → Nat → Attempt} (urls : List String) (world : World) :
    ∀ offer ∈ (drainAll digests states sign attempts urls world).offers, offer.state ∈ states := by
  induction urls generalizing world with
  | nil => exact List.forall_mem_nil _
  | cons url urls ih =>
      intro offer member
      rw [drainAll] at member
      split at member
      · exact ih _ offer member
      · rcases List.mem_append.mp member with first | later
        · have listed := (drain_offers_initial _ _ _ _).subset (List.mem_map_of_mem first)
          rw [pending_eq_filter] at listed
          exact List.mem_of_mem_filter listed
        · exact ih _ offer later

theorem retry_offers_mem :
    ∀ offer ∈ (retryPendingWitnessStamps digests call world).offers,
      offer.state ∈ checkpointWitnessStates world.ledger := by
  unfold retryPendingWitnessStamps
  split
  · exact offers_mem _ _
  · exact List.forall_mem_nil _

/-- A pass writes late confirmations of stamps only. -/
theorem drainAll_known {states : List CheckpointWitnessState} {sign : Bool}
    {attempts : String → Nat → Attempt} {ids : List String}
    (stamped : ∀ state ∈ states, digests.entryDigest state.checkpoint ∈ ids)
    (urls : List String) (world : World)
    (known : ∀ digest, backfills world.ledger digest ≠ [] → digest ∈ ids) :
    ∀ digest,
      backfills (drainAll digests states sign attempts urls world).world.ledger digest ≠ [] →
        digest ∈ ids := by
  induction urls generalizing world with
  | nil => exact known
  | cons url urls ih =>
      rw [drainAll]
      split
      · exact ih _ known
      · apply ih
        refine @drain_induct digests states url (attempts url)
          (fun _ ledger => ∀ digest, backfills ledger digest ≠ [] → digest ∈ ids) states ?_ 0
          (world.parties url) world.ledger known
        intro place state member party ledger kept
        rcases turn_cases digests states url (attempts url place) state party ledger with
          ⟨-, does⟩ | ⟨-, -, witness, -, does⟩ | ⟨-, goesOn, does⟩ | ⟨-, -, does⟩
        · rw [does]
          exact kept
        · rw [does]
          intro digest some
          unfold persistWitnessBackfill at some
          rcases persist_eq (attempts url place).stored
            (backfillEntry digests state.checkpoint witness) ledger with same | appended
          · rw [same] at some
            exact kept digest some
          · rw [appended, backfills_backfill] at some
            by_cases this : digests.entryDigest state.checkpoint = digest
            · rw [← this]
              exact stamped state member
            · rw [if_neg this, List.append_nil] at some
              exact kept digest some
        · rw [does]
          exact kept
        · rw [does]
          exact kept

theorem retry_known (oneLog : OneLog digests world.ledger) (known : Known world.ledger) :
    Known (retryPendingWitnessStamps digests call world).world.ledger := by
  rw [Known, retry_stamps call oneLog]
  unfold retryPendingWitnessStamps
  split
  · apply drainAll_known _ _ _ known
    intro state member
    obtain ⟨stamp, listed, rfl⟩ := (mem_states_iff oneLog).mp member
    rw [oneLog.digest stamp listed]
    exact List.mem_map_of_mem listed
  · exact known

/-- After a pass a witness is where it was, or at a stamp. -/
theorem retry_party (oneLog : OneLog digests world.ledger) {last : Position}
    (reached : (retryPendingWitnessStamps digests call world).world.parties url = some last) :
    world.parties url = some last ∨ ∃ cp ∈ checkpoints world.ledger, cp.link.next = last := by
  by_cases served : call.Serves url
  · obtain ⟨ledger, -, -, party, -⟩ := retry_served served oneLog
    rw [party] at reached
    revert reached
    refine @drain_induct digests (checkpointWitnessStates world.ledger) url (call.attempts url)
      (fun party _ => party = some last → world.parties url = some last ∨
        ∃ cp ∈ checkpoints world.ledger, cp.link.next = last)
      (checkpointWitnessStates world.ledger) ?_ 0 (world.parties url) ledger Or.inl
    intro place state member party' ledger' kept
    have here : some state.checkpoint.link.next = some last →
        world.parties url = some last ∨ ∃ cp ∈ checkpoints world.ledger, cp.link.next = last :=
      fun same => Or.inr ⟨_, mem_checkpoints_of_state oneLog member, Option.some.inj same⟩
    rcases turn_cases digests (checkpointWitnessStates world.ledger) url (call.attempts url place)
      state party' ledger' with
      ⟨-, does⟩ | ⟨-, -, witness, -, does⟩ | ⟨-, goesOn, does⟩ | ⟨-, -, does⟩
    · rw [does]
      exact kept
    · rw [does]
      exact here
    · rw [does]
      exact kept
    · rw [does]
      exact here
  · rw [(retry_absent served oneLog).2.1] at reached
    exact Or.inl reached

/-- What a ledger records as confirmed, the witness is at or past. -/
def Recorded (ledger : List Entry) (parties : String → Party) : Prop :=
  ∀ url, ∀ stamp ∈ stamps ledger, Confirmed ledger url stamp.entryDigest →
    AtOrPast (parties url) stamp.checkpoint

theorem retry_recorded (oneLog : OneLog digests world.ledger)
    (recorded : Recorded world.ledger world.parties) :
    Recorded (retryPendingWitnessStamps digests call world).world.ledger
      (retryPendingWitnessStamps digests call world).world.parties := by
  intro url stamp member confirmed
  rw [retry_stamps call oneLog] at member
  by_cases served : call.Serves url
  · obtain ⟨ledger, before, -, party, after⟩ := retry_served served oneLog
    rw [party]
    rcases confirmed_drain oneLog.ordered.forward ((after.2 _).mp confirmed) with
      earlier | ⟨-, state, listed, is, past⟩
    · exact (recorded url stamp member ((before.2 _).mp earlier)).drain oneLog.ordered.forward
    · obtain ⟨other, found, rfl⟩ := (mem_states_iff oneLog).mp listed
      rw [oneLog.digest other found] at is
      rw [← List.inj_on_of_nodup_map oneLog.ids found member is]
      exact past
  · obtain ⟨-, party, alike⟩ := retry_absent served oneLog
    rw [party]
    exact recorded url stamp member ((alike.2 _).mp confirmed)

/-- A witness is nowhere yet, or at a stamp. -/
def Placed (cps : List Checkpoint) (party : Party) : Prop :=
  ∀ last, party = some last → ∃ cp ∈ cps, cp.link.next = last

/-- The checkpoints behind one of a growing chain go on from it. -/
theorem linked_behind {cps : List Checkpoint} (chain : Linked none (cps.map Checkpoint.link))
    (grows : cps.Pairwise (fun a b => a.mmrSize < b.mmrSize)) {cp : Checkpoint} (member : cp ∈ cps) :
    Linked (some cp.link.next)
      ((cps.filter (fun other => cp.mmrSize < other.mmrSize)).map Checkpoint.link) := by
  obtain ⟨front, back, rfl⟩ := List.append_of_mem member
  rw [List.pairwise_append, List.pairwise_cons] at grows
  obtain ⟨-, ⟨larger, -⟩, smaller⟩ := grows
  have none : front.filter (fun other => cp.mmrSize < other.mmrSize) = [] := by
    rw [List.filter_eq_nil_iff]
    intro other listed
    have := smaller other listed cp List.mem_cons_self
    simp only [decide_eq_true_eq]
    omega
  have all : back.filter (fun other => cp.mmrSize < other.mmrSize) = back := by
    rw [List.filter_eq_self]
    exact fun other listed => decide_eq_true (larger other listed)
  rw [List.filter_append, none, List.nil_append, List.filter_cons_of_neg (by simp), all]
  rw [List.map_append, linked_append] at chain
  exact chain.2.2

theorem map_checkpoint_states (oneLog : OneLog digests world.ledger) :
    (checkpointWitnessStates world.ledger).map CheckpointWitnessState.checkpoint =
      checkpoints world.ledger := by
  rw [states_eq oneLog.ids, List.map_map]
  rfl

/-- A pass in which a witness answers finds its pending stamps in a chain from
where it is. -/
theorem continues_of_chained (chained : Chained digests logId world.ledger)
    (recorded : Recorded world.ledger world.parties)
    (placed : Placed (checkpoints world.ledger) (world.parties url)) :
    Continues (checkpointWitnessStates world.ledger)
      (pending url (checkpointWitnessStates world.ledger)) (world.parties url) := by
  have oneLog := chained.toOneLog
  have growing : (checkpoints world.ledger).Pairwise (fun a b => a.mmrSize < b.mmrSize) :=
    List.pairwise_map.mpr oneLog.grows
  -- A stamp the witness is behind of is not confirmed, and it has a wire form.
  have open' : ∀ state ∈ checkpointWitnessStates world.ledger,
      ¬ AtOrPast (world.parties url) state.checkpoint → state.isPending url = true := by
    intro state member behind
    obtain ⟨stamp, listed, rfl⟩ := (mem_states_iff oneLog).mp member
    rw [CheckpointWitnessState.isPending, Bool.and_eq_true, Bool.not_eq_true']
    refine ⟨?_, chained.forms stamp listed⟩
    rw [← Bool.not_eq_true]
    intro confirmed
    exact behind (recorded url stamp listed ((confirmed_iff oneLog member).mpr confirmed))
  cases party : world.parties url with
  | none =>
      rw [party] at open'
      have all : pending url (checkpointWitnessStates world.ledger) =
          checkpointWitnessStates world.ledger := by
        rw [pending_eq_filter, List.filter_eq_self]
        exact fun state member => open' state member (fun past => by
          obtain ⟨last, is, -⟩ := past
          cases is)
      rw [Continues, all]
      refine ⟨?_, Or.inr (Or.inl rfl)⟩
      rw [due, links]
      have chain := chained.chain
      rw [← map_checkpoint_states oneLog, List.map_map] at chain
      exact chain
  | some last =>
      obtain ⟨cp, member, rfl⟩ := placed last party
      rw [party] at open'
      refine ⟨?_, Or.inr (Or.inr ?_)⟩
      · have same : links (due (some cp.link.next)
            (pending url (checkpointWitnessStates world.ledger))) =
            ((checkpoints world.ledger).filter
              (fun other => cp.mmrSize < other.mmrSize)).map Checkpoint.link := by
          rw [due, pending_eq_filter, List.filter_filter, ← map_checkpoint_states oneLog,
            List.filter_map, links, List.map_map]
          refine congrArg _ (List.filter_congr ?_)
          intro state listed
          rw [Function.comp_apply]
          cases behind : decide (cp.link.next.mmrSize < state.checkpoint.mmrSize) with
          | false => exact behind.symm
          | true =>
              rw [open' state listed]
              · exact behind.symm
              · rintro ⟨last, is, le⟩
                cases is
                exact absurd (of_decide_eq_true behind) (Nat.not_lt_of_le le)
        rw [same]
        exact linked_behind chained.chain growing member
      · rw [← map_checkpoint_states oneLog] at member
        obtain ⟨state, listed, rfl⟩ := List.mem_map.mp member
        exact ⟨state, listed, rfl⟩

/-- A pass in which a witness answers brings it to the newest stamp. -/
theorem retry_newest (chained : Chained digests logId world.ledger)
    (recorded : Recorded world.ledger world.parties)
    (placed : Placed (checkpoints world.ledger) (world.parties url)) (served : call.Serves url)
    (answers : ∀ place, ∃ receipt, (call.attempts url place).delivery = .answered receipt) :
    (retryPendingWitnessStamps digests call world).world.parties url =
      reached none ((checkpoints world.ledger).map Checkpoint.link) := by
  have oneLog := chained.toOneLog
  have ordered := oneLog.ordered
  obtain ⟨ledger, -, -, party, -⟩ := retry_served served oneLog
  have each := (@drain_answered digests (checkpointWitnessStates world.ledger) url
    (call.attempts url) 0 (checkpointWitnessStates world.ledger) (world.parties url) ledger answers
    ordered.grows ordered.forward).mpr (continues_of_chained chained recorded placed)
  rw [← party] at each
  have past : ∀ cp ∈ checkpoints world.ledger,
      AtOrPast ((retryPendingWitnessStamps digests call world).world.parties url) cp := by
    intro cp member
    rw [← map_checkpoint_states oneLog] at member
    obtain ⟨state, listed, rfl⟩ := List.mem_map.mp member
    cases offered : state.isPending url with
    | true =>
        apply each state
        rw [pending_eq_filter, List.mem_filter]
        exact ⟨listed, offered⟩
    | false =>
        obtain ⟨stamp, known, rfl⟩ := (mem_states_iff oneLog).mp listed
        rw [CheckpointWitnessState.isPending, chained.forms stamp known, Bool.and_true,
          Bool.not_eq_false'] at offered
        have before := recorded url stamp known ((confirmed_iff oneLog listed).mpr offered)
        rw [party]
        exact before.drain ordered.forward
  rw [reached_checkpoints]
  cases newest : (checkpoints world.ledger).getLast? with
  | none =>
      have empty := List.getLast?_eq_none_iff.mp newest
      cases moved : (retryPendingWitnessStamps digests call world).world.parties url with
      | none => rfl
      | some last =>
          rcases retry_party oneLog moved with before | ⟨cp, member, -⟩
          · obtain ⟨cp, member, -⟩ := placed last before
            rw [empty] at member
            cases member
          · rw [empty] at member
            cases member
  | some cp =>
      obtain ⟨last, moved, le⟩ := past cp (List.mem_of_getLast? newest)
      obtain ⟨other, member, rfl⟩ : ∃ other ∈ checkpoints world.ledger, other.link.next = last := by
        rcases retry_party oneLog moved with before | found
        · exact placed last before
        · exact found
      obtain ⟨front, split⟩ := List.getLast?_eq_some_iff.mp newest
      have growing : (checkpoints world.ledger).Pairwise (fun a b => a.mmrSize < b.mmrSize) :=
        List.pairwise_map.mpr oneLog.grows
      rw [split] at member growing
      rcases List.mem_append.mp member with earlier | same
      · have := (List.pairwise_append.mp growing).2.2 other earlier cp (List.mem_singleton.mpr rfl)
        exact absurd this (Nat.not_lt_of_le le)
      · rw [moved, List.mem_singleton.mp same]
        rfl

end

/-! ## The invariant -/

/-- The checkpoint that is offered and not yet written. -/
def Site.offered (site : Site) : List Checkpoint :=
  match site.phase with
  | .registered cp _ => [cp]
  | _ => []

/-- The checkpoints of the log: the stamps, and the one that is being offered. -/
def Site.known (site : Site) : List Checkpoint := checkpoints site.ledger ++ site.offered

/-- What is remembered agrees with the newest stamp. -/
def Remembers (site : Site) : Prop :=
  ∀ prev, site.memory = some prev →
    prev.map Checkpoint.body = (checkpoints site.ledger).getLast?.map Checkpoint.body

/-- What holds of a site beside the cycle. -/
structure Sound (digests : Digests) (logId : String) (site : Site) : Prop where
  chained : Chained digests logId site.ledger
  lines : Known site.ledger
  recorded : Recorded site.ledger site.parties
  placed : ∀ url, Placed site.known (site.parties url)
  requests : ∀ request ∈ site.requests, ∃ cp ∈ site.known, cp.body = request.checkpoint

/-- What holds of the cycle: a checkpoint that is built goes on from the stamps, and
what it is confirmed by is at it. -/
def CycleSound (logId : String) (site : Site) : Prop :=
  match site.phase with
  | .idle => Remembers site
  | .drained _ => Remembers site
  | .built _ cp cose => site.memory = some (some cp) ∧ GoesOn logId site.ledger cp ∧
      cp.witnesses = [] ∧ cose.isSome = true
  | .registered cp cose => site.memory = some (some cp) ∧ GoesOn logId site.ledger cp ∧
      cose.isSome = true ∧ ∀ witness ∈ cp.witnesses, AtOrPast (site.parties witness.tsUrl) cp

/-- An event that loses no checkpoint: a checkpoint that is built has its wire form,
and one that was offered is written before the process stops. -/
def Safe (digests : Digests) (site : Site) : Event → Prop
  | .build _ cose => cose.isSome = true
  | .persistStamp stored => ∀ cp ∈ site.offered, stored = true ∧
      ∀ stamp ∈ stamps site.ledger, stamp.entryDigest ≠ digests.entryDigest cp
  | .crash => site.offered = []
  | _ => True

section

variable {digests : Digests} {log : LogPackage} {logId : String} {sign : Bool} {site : Site}

/-- Without a cycle the remembered checkpoint is, up to its confirmations, the
newest stamp. -/
theorem prev_body (chained : Chained digests logId site.ledger) (remembers : Remembers site) :
    (site.prev logId).map Checkpoint.body =
      (checkpoints site.ledger).getLast?.map Checkpoint.body := by
  rw [Site.prev]
  cases memory : site.memory with
  | none => exact congrArg _ (lastPersistedCheckpoint_eq chained)
  | some prev => exact remembers prev memory

/-- What the log package builds on the remembered checkpoint goes on from the
stamps. -/
theorem goesOn_emit (lawful : log.Lawful) (chained : Chained digests logId site.ledger)
    (remembers : Remembers site) {now : String} {cp : Checkpoint}
    (built : log.emitCheckpoint site.ledger logId (site.prev logId) now = some cp) :
    GoesOn logId site.ledger cp := by
  have same := prev_body chained remembers
  have starts : ∀ before ∈ (checkpoints site.ledger).getLast?, cp.link.prev = before.link.next := by
    intro before newest
    rw [Option.mem_def.mp newest, Option.map_some, Option.map_eq_some_iff] at same
    obtain ⟨prev, is, body⟩ := same
    rw [lawful.starts built prev is, Checkpoint.link_eq_of_body body]
  refine ⟨?_, lawful.forward built, ?_, lawful.logId built⟩
  · intro position leads
    rw [reached_checkpoints, Option.mem_def, Option.map_eq_some_iff] at leads
    obtain ⟨newest, is, rfl⟩ := leads
    exact starts newest is
  · intro before member
    have growing : (checkpoints site.ledger).Pairwise (fun a b => a.mmrSize < b.mmrSize) :=
      List.pairwise_map.mpr chained.grows
    have forward := lawful.forward built
    cases newest : (checkpoints site.ledger).getLast? with
    | none =>
        rw [List.getLast?_eq_none_iff.mp newest] at member
        cases member
    | some last =>
        have from' : cp.prevSize = last.mmrSize :=
          congrArg Position.mmrSize (starts last newest)
        obtain ⟨front, split⟩ := List.getLast?_eq_some_iff.mp newest
        rw [split] at member growing
        rcases List.mem_append.mp member with earlier | same
        · have := (List.pairwise_append.mp growing).2.2 before earlier last
            (List.mem_singleton.mpr rfl)
          omega
        · rw [List.mem_singleton.mp same]
          omega

/-- A pass keeps a sound site sound. -/
theorem sound_beginCycle (sound : Sound digests logId site) (idle : site.phase = .idle)
    (remembers : Remembers site) (urls : List String) (attempts : String → Nat → Attempt) :
    Sound digests logId (beginCycle digests logId sign urls attempts site) ∧
      CycleSound logId (beginCycle digests logId sign urls attempts site) := by
  unfold beginCycle
  split
  · refine ⟨sound, ?_⟩
    rw [CycleSound, idle]
    exact remembers
  · have oneLog := sound.chained.toOneLog
    have same := @retry_stamps digests ⟨true, urls, sign, attempts⟩ ⟨site.ledger, site.parties⟩ oneLog
    have checkpoints' := congrArg (List.map Stamp.checkpoint) same
    have offered : site.offered = [] := by rw [Site.offered, idle]
    have known : site.known = checkpoints site.ledger := by
      rw [Site.known, offered, List.append_nil]
    refine ⟨?_, ?_⟩
    · constructor
      case chained => exact sound.chained.of_stamps same
      case lines => exact @retry_known digests ⟨site.ledger, site.parties⟩ _ oneLog sound.lines
      case recorded =>
        exact @retry_recorded digests ⟨site.ledger, site.parties⟩ _ oneLog sound.recorded
      case placed =>
        intro url last reached
        simp only [Site.known, Site.offered, List.append_nil]
        rw [checkpoints, checkpoints', ← checkpoints, ← known]
        rcases @retry_party digests ⟨site.ledger, site.parties⟩ _ url oneLog last reached with
          before | found
        · exact sound.placed url last before
        · rw [known]
          exact found
      case requests =>
        intro request member
        simp only [Site.known, Site.offered, List.append_nil]
        rw [checkpoints, checkpoints', ← checkpoints, ← known]
        rcases List.mem_append.mp member with before | now
        · exact sound.requests request before
        · obtain ⟨offer, made, rfl⟩ := List.mem_map.mp now
          rw [known]
          exact ⟨_, mem_checkpoints_of_state oneLog (retry_offers_mem offer made), rfl⟩
    · rw [CycleSound]
      intro prev is
      cases is
      rw [prev_body sound.chained remembers, checkpoints, checkpoints, same]

/-- A line that is neither a stamp nor a late confirmation is not read. -/
theorem appendToLedger_other (ledger : List Entry) (capsuleId content : String) :
    stamps (appendToLedger (.other capsuleId content) ledger) = stamps ledger ∧
      ∀ digest, backfills (appendToLedger (.other capsuleId content) ledger) digest =
        backfills ledger digest := by
  unfold appendToLedger
  split
  · exact ⟨rfl, fun _ => rfl⟩
  · refine ⟨?_, fun digest => ?_⟩
    · simp [stamps, Entry.stamp?]
    · simp [backfills, Entry.backfill?]

theorem states_congr {ledger ledger' : List Entry} (stamped : stamps ledger' = stamps ledger)
    (late : ∀ digest, backfills ledger' digest = backfills ledger digest) :
    checkpointWitnessStates ledger' = checkpointWitnessStates ledger := by
  simp only [checkpointWitnessStates, lastStamp, stamped, late]

theorem sound_append (sound : Sound digests logId site) (cycle : CycleSound logId site)
    (capsuleId content : String) :
    Sound digests logId (next digests log logId sign site (.append capsuleId content)) ∧
      CycleSound logId (next digests log logId sign site (.append capsuleId content)) := by
  obtain ⟨stamped, late⟩ := appendToLedger_other site.ledger capsuleId content
  have checkpoints' : checkpoints (appendToLedger (.other capsuleId content) site.ledger) =
      checkpoints site.ledger := congrArg (List.map Stamp.checkpoint) stamped
  have known : (next digests log logId sign site (.append capsuleId content)).known =
      site.known := congrArg (fun cps => cps ++ site.offered) checkpoints'
  refine ⟨?_, ?_⟩
  · constructor
    case chained => exact sound.chained.of_stamps stamped
    case lines =>
      intro digest some
      rw [next] at some ⊢
      simp only [late, stamped] at some ⊢
      exact sound.lines digest some
    case recorded =>
      intro url stamp member confirmed
      rw [next] at member confirmed
      simp only [Confirmed, states_congr stamped late, stamped] at member confirmed
      exact sound.recorded url stamp member confirmed
    case placed =>
      rw [known]
      exact sound.placed
    case requests =>
      rw [known]
      exact sound.requests
  · rw [CycleSound] at cycle ⊢
    simp only [next]
    cases phase : site.phase with
    | idle =>
        simp only [phase] at cycle ⊢
        rw [Remembers, checkpoints']
        exact cycle
    | drained urls =>
        simp only [phase] at cycle ⊢
        rw [Remembers, checkpoints']
        exact cycle
    | built urls cp cose =>
        simp only [phase] at cycle ⊢
        exact ⟨cycle.1, cycle.2.1.of_stamps stamped, cycle.2.2⟩
    | registered cp cose =>
        simp only [phase] at cycle ⊢
        exact ⟨cycle.1, cycle.2.1.of_stamps stamped, cycle.2.2⟩

/-- A cycle that falls due, or is pushed for, keeps a sound site sound. -/
theorem sound_due (sound : Sound digests logId site) (cycle : CycleSound logId site)
    (urls : List String) (attempts : String → Nat → Attempt) :
    Sound digests logId (next digests log logId sign site (.due urls attempts)) ∧
      CycleSound logId (next digests log logId sign site (.due urls attempts)) := by
  rw [next]
  split
  · next idle =>
      rw [CycleSound, idle] at cycle
      exact sound_beginCycle sound idle cycle urls attempts
  · exact ⟨sound, cycle⟩

theorem sound_push (sound : Sound digests logId site) (cycle : CycleSound logId site)
    (urls : List String) (attempts : String → Nat → Attempt) :
    Sound digests logId (next digests log logId sign site (.push urls attempts)) ∧
      CycleSound logId (next digests log logId sign site (.push urls attempts)) := by
  rw [next]
  split
  · next idle =>
      have remembers := cycle
      rw [CycleSound, idle] at remembers
      split
      · exact ⟨sound, cycle⟩
      · split
        · refine ⟨⟨sound.chained, sound.lines, sound.recorded, sound.placed, sound.requests⟩, ?_⟩
          rw [CycleSound]
          simp only [idle]
          intro prev is
          cases is
          exact prev_body sound.chained remembers
        · exact sound_beginCycle sound idle remembers urls attempts
  · exact ⟨sound, cycle⟩

/-- A checkpoint that is built goes on from the stamps. -/
theorem sound_build (lawful : log.Lawful) (sound : Sound digests logId site)
    (cycle : CycleSound logId site) (now : String) {cose : Option String}
    (form : cose.isSome = true) :
    Sound digests logId (next digests log logId sign site (.build now cose)) ∧
      CycleSound logId (next digests log logId sign site (.build now cose)) := by
  rw [next]
  split
  · next urls phase =>
      rw [CycleSound, phase] at cycle
      have offered : site.offered = [] := by rw [Site.offered, phase]
      have placed := sound.placed
      have requests := sound.requests
      simp only [Site.known, offered] at placed requests
      split
      · exact ⟨⟨sound.chained, sound.lines, sound.recorded, placed, requests⟩, cycle⟩
      · next cp built =>
          refine ⟨⟨sound.chained, sound.lines, sound.recorded, placed, requests⟩, rfl, ?_, ?_, form⟩
          · exact goesOn_emit lawful sound.chained cycle built
          · exact lawful.unwitnessed built
  · exact ⟨sound, cycle⟩

/-- A checkpoint that is offered is known, and what it is confirmed by is at it. -/
theorem sound_register (sound : Sound digests logId site) (cycle : CycleSound logId site)
    (deliveries : String → Delivery) :
    Sound digests logId (next digests log logId sign site (.register deliveries)) ∧
      CycleSound logId (next digests log logId sign site (.register deliveries)) := by
  rw [next]
  split
  · next urls cp phase =>
      rw [CycleSound, phase] at cycle
      cases cycle.2.2.2
  · next urls cp cose phase =>
      rw [CycleSound, phase] at cycle
      obtain ⟨-, goesOn, unwitnessed, -⟩ := cycle
      dsimp only
      have body := @registerAll_body sign deliveries urls site.parties cp
      have link := Checkpoint.link_eq_of_body body
      have offered : site.offered = [] := by rw [Site.offered, phase]
      have known : site.known = checkpoints site.ledger := by
        rw [Site.known, offered, List.append_nil]
      refine ⟨?_, rfl, goesOn.of_body body, rfl, ?_⟩
      · constructor
        case chained => exact sound.chained
        case lines => exact sound.lines
        case recorded =>
          intro url stamp member confirmed
          change AtOrPast ((registerAll sign deliveries urls site.parties cp).parties url) _
          rcases @registerAll_parties sign deliveries urls site.parties cp url with same | moved
          · rw [same]
            exact sound.recorded url stamp member confirmed
          · rw [moved]
            exact ⟨_, rfl, Nat.le_of_lt (goesOn.grows _ (List.mem_map_of_mem member))⟩
        case placed =>
          intro url last reached
          change (registerAll sign deliveries urls site.parties cp).parties url = some last at reached
          simp only [Site.known, Site.offered]
          rcases @registerAll_parties sign deliveries urls site.parties cp url with same | moved
          · rw [same] at reached
            obtain ⟨found, member, is⟩ := sound.placed url last reached
            rw [known] at member
            exact ⟨found, List.mem_append_left _ member, is⟩
          · rw [moved] at reached
            refine ⟨_, List.mem_append_right _ (List.mem_singleton.mpr rfl), ?_⟩
            rw [link]
            exact Option.some.inj reached
        case requests =>
          intro request member
          simp only [Site.known, Site.offered]
          rcases List.mem_append.mp member with before | now
          · obtain ⟨found, member, is⟩ := sound.requests request before
            rw [known] at member
            exact ⟨found, List.mem_append_left _ member, is⟩
          · refine ⟨_, List.mem_append_right _ (List.mem_singleton.mpr rfl), ?_⟩
            exact body.trans (registerAll_requests _ _ _ request now).symm
      · intro witness member
        rcases registerAll_witnesses urls site.parties cp witness member with before | moved
        · rw [unwitnessed] at before
          cases before
        · have size : (registerAll sign deliveries urls site.parties cp).checkpoint.body.mmrSize =
              cp.body.mmrSize := congrArg Checkpoint.mmrSize body
          exact ⟨_, moved, Nat.le_of_eq size⟩
  · exact ⟨sound, cycle⟩

/-- A stamp line is read as a stamp and not as a late confirmation. -/
theorem persistCheckpointStamp_eq {cp : Checkpoint} {cose : Option String} {ledger : List Entry}
    (fresh : ∀ stamp ∈ stamps ledger, stamp.entryDigest ≠ digests.entryDigest cp) :
    stamps (persistCheckpointStamp digests true cp cose ledger) =
        stamps ledger ++ [⟨digests.entryDigest cp, cp, cose⟩] ∧
      ∀ digest, backfills (persistCheckpointStamp digests true cp cose ledger) digest =
        backfills ledger digest := by
  have absent : checkpointEntry digests cp cose ∉ ledger := by
    intro member
    exact fresh ⟨digests.entryDigest cp, cp, cose⟩
      (List.mem_filterMap.mpr ⟨_, member, rfl⟩) rfl
  rw [persistCheckpointStamp, persist, if_pos rfl, appendToLedger, if_neg absent]
  refine ⟨?_, fun digest => ?_⟩
  · simp [stamps, checkpointEntry, Entry.stamp?]
  · simp [backfills, checkpointEntry, Entry.backfill?]

/-- A checkpoint that was offered and is written is the newest stamp. -/
theorem sound_persistStamp (sound : Sound digests logId site) (cycle : CycleSound logId site)
    {stored : Bool} (safe : Safe digests site (.persistStamp stored)) :
    Sound digests logId (next digests log logId sign site (.persistStamp stored)) ∧
      CycleSound logId (next digests log logId sign site (.persistStamp stored)) := by
  rw [next]
  split
  · next cp cose phase =>
      rw [CycleSound, phase] at cycle
      obtain ⟨memory, goesOn, form, confirms⟩ := cycle
      rw [Safe, Site.offered, phase] at safe
      obtain ⟨rfl, fresh⟩ := safe cp (List.mem_singleton.mpr rfl)
      obtain ⟨grown, late⟩ := @persistCheckpointStamp_eq digests cp cose site.ledger fresh
      have chained := sound.chained.concat goesOn form fresh grown
      have checkpoints' : checkpoints (persistCheckpointStamp digests true cp cose site.ledger) =
          checkpoints site.ledger ++ [cp] := by
        rw [checkpoints, checkpoints, grown, List.map_append, List.map_singleton]
      have known : site.known = checkpoints site.ledger ++ [cp] := by
        rw [Site.known, Site.offered, phase]
      have placed := sound.placed
      have requests := sound.requests
      rw [known] at placed requests
      refine ⟨?_, ?_⟩
      · constructor
        case chained => exact chained
        case lines =>
          intro digest some
          rw [late] at some
          rw [grown, List.map_append]
          exact List.mem_append_left _ (sound.lines digest some)
        case recorded =>
          intro url stamp member confirmed
          rw [confirmed_stamp_iff chained.toOneLog member, late] at confirmed
          rw [grown] at member
          rcases List.mem_append.mp member with before | now
          · exact sound.recorded url stamp before
              ((confirmed_stamp_iff sound.chained.toOneLog before).mpr confirmed)
          · rw [List.mem_singleton.mp now] at confirmed ⊢
            have none : backfills site.ledger (digests.entryDigest cp) = [] := by
              by_contra some
              obtain ⟨stamp, listed, same⟩ := List.mem_map.mp (sound.lines _ some)
              exact fresh stamp listed same
            rw [none, List.append_nil] at confirmed
            obtain ⟨witness, collected, rfl⟩ := confirmed
            exact confirms witness collected
        case placed =>
          simp only [Site.known, Site.offered, List.append_nil, checkpoints']
          exact placed
        case requests =>
          simp only [Site.known, Site.offered, List.append_nil, checkpoints']
          exact requests
      · rw [CycleSound]
        intro prev is
        rw [memory] at is
        cases is
        rw [checkpoints', List.getLast?_concat]
  · exact ⟨sound, cycle⟩

/-- A process that stops with nothing offered loses nothing. -/
theorem sound_crash (sound : Sound digests logId site) (safe : Safe digests site .crash) :
    Sound digests logId (next digests log logId sign site .crash) ∧
      CycleSound logId (next digests log logId sign site .crash) := by
  have offered : site.offered = [] := safe
  have placed := sound.placed
  have requests := sound.requests
  simp only [Site.known, offered] at placed requests
  refine ⟨⟨sound.chained, sound.lines, sound.recorded, placed, requests⟩, ?_⟩
  intro prev is
  cases is

/-- A safe event keeps a sound site sound. -/
theorem sound_next (lawful : log.Lawful) (sound : Sound digests logId site)
    (cycle : CycleSound logId site) {event : Event} (safe : Safe digests site event) :
    Sound digests logId (next digests log logId sign site event) ∧
      CycleSound logId (next digests log logId sign site event) := by
  cases event with
  | append capsuleId content => exact sound_append sound cycle capsuleId content
  | due urls attempts => exact sound_due sound cycle urls attempts
  | push urls attempts => exact sound_push sound cycle urls attempts
  | build now cose => exact sound_build lawful sound cycle now safe
  | register deliveries => exact sound_register sound cycle deliveries
  | persistStamp stored => exact sound_persistStamp sound cycle safe
  | crash => exact sound_crash sound safe

theorem sound_start : Sound digests logId Site.start ∧ CycleSound logId Site.start := by
  refine ⟨?_, ?_⟩
  · constructor
    case chained =>
      refine ⟨⟨List.nodup_nil, ?_, List.Pairwise.nil, ?_⟩, trivial, ?_, ?_⟩ <;>
        exact List.forall_mem_nil _
    case lines => exact fun digest some => absurd rfl some
    case recorded => exact fun url => List.forall_mem_nil _
    case placed =>
      intro url last is
      cases is
    case requests => exact List.forall_mem_nil _
  · intro prev is
    cases is

/-- After a safe run the site is sound. -/
theorem sound_run (lawful : log.Lawful) {events : List Event}
    (safe : Machine.Guarded (step digests log logId sign) (Safe digests) Site.start events) :
    Sound digests logId (Machine.after (step digests log logId sign) Site.start events) ∧
      CycleSound logId (Machine.after (step digests log logId sign) Site.start events) := by
  refine @Machine.invariant_of_guarded Site Event Unit (step digests log logId sign) (Safe digests)
    (fun site => Sound digests logId site ∧ CycleSound logId site) ?_ Site.start sound_start
    events safe
  intro site event kept safe
  exact sound_next lawful kept.1 kept.2 safe

/-! ## No checkpoint is lost -/

end

/-- What survives at a site: every checkpoint a witness accepted has its stamp,
unless it is just being offered; all requests are on one chain; and in a
cycle in which a witness answers every request it accepts the new checkpoint. -/
structure Survives (digests : Digests) (log : LogPackage) (logId : String) (sign : Bool)
    (site : Site) : Prop where
  stamped : ∀ request ∈ site.requests, request.accepted = true →
    ∃ cp ∈ checkpoints site.ledger ++ site.offered, cp.body = request.checkpoint
  chain : ∃ chain : List Checkpoint, Linked none (chain.map Checkpoint.link) ∧
    ∀ request ∈ site.requests, ∃ cp ∈ chain, cp.body = request.checkpoint
  heard : ∀ (urls : List String) (url : String) (attempts : String → Nat → Attempt) (now : String)
    (cose : String) (deliveries : String → Delivery) (receipt : String),
    site.phase = .idle → url ∈ resolvedWitnessUrls urls →
    (!sign && bindingOf url = .rekor) = false →
    (∀ place, ∃ receipt, (attempts url place).delivery = .answered receipt) →
    deliveries url = .answered receipt → ∀ served cp,
    (next digests log logId sign (next digests log logId sign site (.due urls attempts))
      (.build now (some cose))).phase = .built served cp (some cose) →
    (next digests log logId sign (next digests log logId sign
      (next digests log logId sign site (.due urls attempts)) (.build now (some cose)))
      (.register deliveries)).parties url = some cp.link.next

section

variable {digests : Digests} {log : LogPackage} {logId : String} {sign : Bool} {site : Site}

/-- At a sound site without a cycle a witness that answers accepts the next
checkpoint. -/
theorem heard_of_sound (lawful : log.Lawful) (sound : Sound digests logId site)
    (cycle : CycleSound logId site) (idle : site.phase = .idle) {urls : List String} {url : String}
    (named : url ∈ resolvedWitnessUrls urls) (waits : (!sign && bindingOf url = .rekor) = false)
    {attempts : String → Nat → Attempt}
    (answers : ∀ place, ∃ receipt, (attempts url place).delivery = .answered receipt)
    {now cose : String} {deliveries : String → Delivery} {receipt : String}
    (delivered : deliveries url = .answered receipt) {served : List String} {cp : Checkpoint}
    (built : (next digests log logId sign (next digests log logId sign site (.due urls attempts))
      (.build now (some cose))).phase = .built served cp (some cose)) :
    (next digests log logId sign (next digests log logId sign
      (next digests log logId sign site (.due urls attempts)) (.build now (some cose)))
      (.register deliveries)).parties url = some cp.link.next := by
  have known : site.known = checkpoints site.ledger := by
    rw [Site.known, Site.offered, idle, List.append_nil]
  have oneLog := sound.chained.toOneLog
  have begun : next digests log logId sign site (.due urls attempts) =
      { ledger := (retryPendingWitnessStamps digests ⟨true, urls, sign, attempts⟩
          ⟨site.ledger, site.parties⟩).world.ledger
        parties := (retryPendingWitnessStamps digests ⟨true, urls, sign, attempts⟩
          ⟨site.ledger, site.parties⟩).world.parties
        memory := some (site.prev logId)
        phase := .drained (resolvedWitnessUrls urls)
        requests := site.requests ++ (retryPendingWitnessStamps digests
          ⟨true, urls, sign, attempts⟩ ⟨site.ledger, site.parties⟩).requests } := by
    rw [next, idle]
    exact if_neg (List.ne_nil_of_mem named)
  have placed := sound.placed url
  rw [known] at placed
  have newest := @retry_newest digests logId ⟨site.ledger, site.parties⟩
    ⟨true, urls, sign, attempts⟩ url sound.chained sound.recorded placed ⟨rfl, named, waits⟩ answers
  have stamped := @retry_stamps digests ⟨true, urls, sign, attempts⟩ ⟨site.ledger, site.parties⟩ oneLog
  obtain ⟨sound', cycle'⟩ := @sound_due digests log logId sign site sound cycle urls attempts
  rw [begun] at built sound' cycle' ⊢
  cases emitted : log.emitCheckpoint (retryPendingWitnessStamps digests
      ⟨true, urls, sign, attempts⟩ ⟨site.ledger, site.parties⟩).world.ledger logId
      (site.prev logId) now with
  | none =>
      rw [next] at built
      simp only [Site.prev, Option.getD_some] at built emitted
      rw [emitted] at built
      cases built
  | some made =>
      have goesOn := @goesOn_emit digests log logId _ lawful sound'.chained cycle' now made emitted
      have starts := goesOn.starts
      rw [checkpoints, stamped, ← checkpoints] at starts
      rw [next] at built ⊢
      simp only [Site.prev, Option.getD_some] at built emitted ⊢
      rw [emitted] at built ⊢
      simp only [Phase.built.injEq] at built
      obtain ⟨rfl, rfl, -⟩ := built
      have asked : deliveryTo sign deliveries url = .answered receipt := by
        rw [deliveryTo, waits, if_neg Bool.false_ne_true, delivered]
      apply registerAll_accepts named asked
      rw [accepts_iff]
      intro position leads
      simp only at leads
      rw [newest] at leads
      exact starts position leads

end

/-! ## A log of leaves -/

instance (digests : Digests) (site : Site) : ∀ event, Decidable (Safe digests site event)
  | .build _ cose => inferInstanceAs (Decidable (cose.isSome = true))
  | .persistStamp _ => inferInstanceAs (Decidable (∀ cp ∈ site.offered, _ ∧ _))
  | .crash => inferInstanceAs (Decidable (site.offered = []))
  | .append _ _ | .due _ _ | .push _ _ | .register _ => isTrue trivial

/-- The number of nodes over a number of leaves, with one tree for each power of
two. -/
def nodeCount (leaves : Nat) : Nat := 2 * leaves - (Nat.bits leaves).count true

/-- A log whose root is the SHA-256 of its line ids; its checkpoints are not
signed. -/
def leafLog : LogPackage where
  mmrSize := fun ledger => nodeCount ledger.length
  emitCheckpoint := fun ledger id prev now =>
    let link := (prev.map (fun cp => cp.link.next)).getD ⟨0, ""⟩
    if link.mmrSize < nodeCount ledger.length then
      some ⟨id, nodeCount ledger.length,
        Sha256.hex (Sha256.digest (utf8 (String.intercalate "\n" (ledger.map (fun entry =>
          match entry with
          | .checkpointStamp capsuleId _ _ => capsuleId
          | .witnessBackfill capsuleId _ _ => capsuleId
          | .other capsuleId _ => capsuleId))))),
        link.mmrSize, link.root, now, "key", "", []⟩
    else none

theorem leafLog_lawful : leafLog.Lawful where
  logId := by
    intro ledger id prev now cp built
    simp only [leafLog, Option.ite_none_right_eq_some] at built
    rw [← Option.some.inj built.2]
  unwitnessed := by
    intro ledger id prev now cp built
    simp only [leafLog, Option.ite_none_right_eq_some] at built
    rw [← Option.some.inj built.2]
  starts := by
    intro ledger id prev now cp built before is
    simp only [leafLog, Option.ite_none_right_eq_some] at built
    rw [← Option.some.inj built.2, Option.mem_def.mp is]
    rfl
  forward := by
    intro ledger id prev now cp built
    simp only [leafLog, Option.ite_none_right_eq_some] at built
    rw [← Option.some.inj built.2]
    exact built.1

/-- A cycle up to the offer, with a witness that answers. -/
def offeredCycle : List Event :=
  [.due ["https://witness.example"] (fun _ _ => ⟨.answered "receipt", true⟩),
    .build "2026-01-01T00:00:00Z" (some "d284"),
    .register (fun _ => .answered "receipt")]

/-- Two cycles with a restart between them. -/
def restartedRun : List Event :=
  [.append "c0" "first"] ++ offeredCycle ++ [.persistStamp true, .crash, .append "c1" "second"] ++
    offeredCycle ++ [.persistStamp true]

end Witnessing
end CapsuleEmit
