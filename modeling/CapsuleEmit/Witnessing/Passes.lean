import CapsuleEmit.Witnessing.Backlog
import CapsuleEmit.Foundation.Sha256
import CapsuleEmit.Foundation.Json

namespace CapsuleEmit
namespace Witnessing

open Continuity

/-!
# Passes over several witnesses

A pass serves each witness by a drain of its own.  What another witness does
changes only lines that are not about this one, so the offers to a witness are
those of its drain, and two runs that differ in what other witnesses do make it
the same offers.
-/

/-! ## The witnesses of a pass -/

theorem not_mem_seen_of_mem {seen candidates : List String} {url : String}
    (member : url ∈ distinctUrls seen candidates) : url ∉ seen := by
  induction candidates generalizing seen with
  | nil => cases member
  | cons candidate candidates ih =>
      rw [distinctUrls] at member
      split at member
      · exact ih member
      · next kept =>
          rcases List.mem_cons.mp member with rfl | member
          · exact fun already => kept (Or.inr already)
          · exact fun already => ih member (List.mem_cons_of_mem _ already)

theorem nodup_distinctUrls (seen candidates : List String) :
    (distinctUrls seen candidates).Nodup := by
  induction candidates generalizing seen with
  | nil => exact List.nodup_nil
  | cons candidate candidates ih =>
      rw [distinctUrls]
      split
      · exact ih seen
      · refine List.nodup_cons.mpr ⟨?_, ih _⟩
        exact fun member => not_mem_seen_of_mem member List.mem_cons_self

/-- A pass serves each witness once. -/
theorem nodup_resolvedWitnessUrls (candidates : List String) :
    (resolvedWitnessUrls candidates).Nodup := nodup_distinctUrls [] candidates

/-! ## One witness's part of a pass -/

/-- Two ledgers are alike for a witness: they have the same stamps, and record the
same of them as confirmed by it. -/
def Alike (url : String) (ledger ledger' : List Entry) : Prop :=
  stamps ledger = stamps ledger' ∧
    ∀ digest, Confirmed ledger url digest ↔ Confirmed ledger' url digest

theorem Alike.refl (url : String) (ledger : List Entry) : Alike url ledger ledger :=
  ⟨rfl, fun _ => Iff.rfl⟩

theorem Alike.symm {url : String} {ledger ledger' : List Entry} (alike : Alike url ledger ledger') :
    Alike url ledger' ledger :=
  ⟨alike.1.symm, fun digest => (alike.2 digest).symm⟩

theorem Alike.trans {url : String} {ledger ledger' ledger'' : List Entry}
    (first : Alike url ledger ledger') (next : Alike url ledger' ledger'') :
    Alike url ledger ledger'' :=
  ⟨first.1.trans next.1, fun digest => (first.2 digest).trans (next.2 digest)⟩

section

variable {digests : Digests} {states : List CheckpointWitnessState} {sign : Bool}
  {attempts : String → Nat → Attempt} {url : String}

/-- A drain of another witness leaves the ledger alike. -/
theorem alike_drain {other : String} (different : other ≠ url) {attempts : Nat → Attempt}
    {place : Nat} {rest : List CheckpointWitnessState} {party : Party} {ledger : List Entry}
    (forward : ∀ state ∈ rest, state.checkpoint.prevSize < state.checkpoint.mmrSize) :
    Alike url (drain digests states other attempts place rest party ledger).ledger ledger := by
  refine ⟨stamps_drain _ _ _ _, fun digest => ⟨fun confirmed => ?_, Confirmed.drain⟩⟩
  rcases confirmed_drain forward confirmed with before | ⟨same, -⟩
  · exact before
  · exact absurd same different

/-- A pass that does not serve a witness makes it no offer and leaves it. -/
theorem drainAll_absent {urls : List String}
    (absent : url ∈ urls → (!sign && bindingOf url = .rekor) = true)
    (forward : ∀ state ∈ states, state.checkpoint.prevSize < state.checkpoint.mmrSize)
    (world : World) :
    (drainAll digests states sign attempts urls world).offersTo url = [] ∧
      (drainAll digests states sign attempts urls world).world.parties url = world.parties url ∧
      Alike url (drainAll digests states sign attempts urls world).world.ledger world.ledger := by
  induction urls generalizing world with
  | nil => exact ⟨rfl, rfl, Alike.refl _ _⟩
  | cons other urls ih =>
      have later : url ∈ urls → (!sign && bindingOf url = .rekor) = true :=
        fun member => absent (List.mem_cons_of_mem _ member)
      rw [drainAll]
      split
      · exact ih later world
      · next serves =>
          have different : other ≠ url := by
            rintro rfl
            exact serves (absent List.mem_cons_self)
          obtain ⟨none, same, alike⟩ := ih later
            ⟨(drain digests states other (attempts other) 0 states (world.parties other)
                world.ledger).ledger,
              Function.update world.parties other
                (drain digests states other (attempts other) 0 states (world.parties other)
                  world.ledger).party⟩
          refine ⟨?_, ?_, ?_⟩
          · rw [Pass.offersTo] at none ⊢
            rw [List.filter_append, none, List.append_nil, List.filter_eq_nil_iff]
            intro offer member
            rw [url_of_drain _ _ _ _ offer member]
            simpa using different
          · exact same.trans (Function.update_of_ne (Ne.symm different) _ _)
          · exact alike.trans (alike_drain different forward)

/-- What a pass does for a witness it serves is one drain, over a ledger alike for
it. -/
theorem drainAll_served {urls : List String} (distinct : urls.Nodup) (served : url ∈ urls)
    (waits : (!sign && bindingOf url = .rekor) = false)
    (forward : ∀ state ∈ states, state.checkpoint.prevSize < state.checkpoint.mmrSize)
    (world : World) :
    ∃ ledger, Alike url ledger world.ledger ∧
      (drainAll digests states sign attempts urls world).offersTo url =
        (drain digests states url (attempts url) 0 states (world.parties url) ledger).offers ∧
      (drainAll digests states sign attempts urls world).world.parties url =
        (drain digests states url (attempts url) 0 states (world.parties url) ledger).party ∧
      Alike url (drainAll digests states sign attempts urls world).world.ledger
        (drain digests states url (attempts url) 0 states (world.parties url) ledger).ledger := by
  induction urls generalizing world with
  | nil => cases served
  | cons other urls ih =>
      rw [List.nodup_cons] at distinct
      rw [drainAll]
      by_cases same : other = url
      · subst same
        rw [waits, if_neg Bool.false_ne_true]
        obtain ⟨none, party, alike⟩ := @drainAll_absent digests states sign attempts other urls
          (fun member => absurd member distinct.1) forward
          ⟨(drain digests states other (attempts other) 0 states (world.parties other)
              world.ledger).ledger,
            Function.update world.parties other
              (drain digests states other (attempts other) 0 states (world.parties other)
                world.ledger).party⟩
        refine ⟨world.ledger, Alike.refl _ _, ?_, ?_, alike⟩
        · rw [Pass.offersTo] at none ⊢
          rw [List.filter_append, none, List.append_nil, List.filter_eq_self]
          intro offer member
          exact decide_eq_true (url_of_drain _ _ _ _ offer member)
        · exact party.trans (Function.update_self _ _ _)
      · have later : url ∈ urls := by
          rcases List.mem_cons.mp served with first | later
          · exact absurd first.symm same
          · exact later
        split
        · exact ih distinct.2 later world
        · obtain ⟨ledger, before, offers, party, after⟩ := ih distinct.2 later
            ⟨(drain digests states other (attempts other) 0 states (world.parties other)
                world.ledger).ledger,
              Function.update world.parties other
                (drain digests states other (attempts other) 0 states (world.parties other)
                  world.ledger).party⟩
          have unmoved : Function.update world.parties other
              (drain digests states other (attempts other) 0 states (world.parties other)
                world.ledger).party url = world.parties url :=
            Function.update_of_ne (Ne.symm same) _ _
          simp only [unmoved] at offers party after
          refine ⟨ledger, before.trans (alike_drain same forward), ?_, party, after⟩
          rw [← offers, Pass.offersTo, List.filter_append]
          have none : (drain digests states other (attempts other) 0 states (world.parties other)
              world.ledger).offers.filter (fun offer => offer.url = url) = [] := by
            rw [List.filter_eq_nil_iff]
            intro offer member
            rw [url_of_drain _ _ _ _ offer member]
            simpa using same
          rw [none]
          rfl

/-- What a pass reads of a state for a witness. -/
def CheckpointWitnessState.seenBy (state : CheckpointWitnessState) (url : String) :
    Checkpoint × Option String × Bool :=
  (state.checkpoint, state.checkpointCoseHex, state.confirmedBy url)

theorem CheckpointWitnessState.seenBy_eq {state state' : CheckpointWitnessState} :
    state.seenBy url = state'.seenBy url ↔ state.checkpoint = state'.checkpoint ∧
      state.checkpointCoseHex = state'.checkpointCoseHex ∧
      state.confirmedBy url = state'.confirmedBy url := by
  simp [seenBy]

/-- The states of ledgers that are alike for a witness read alike. -/
theorem Alike.seenBy {ledger ledger' : List Entry} (oneLog : OneLog digests ledger)
    (alike : Alike url ledger ledger') :
    List.Forall₂ (fun state state' => state.seenBy url = state'.seenBy url)
      (checkpointWitnessStates ledger) (checkpointWitnessStates ledger') := by
  have oneLog' := oneLog.of_stamps alike.1.symm
  rw [states_eq oneLog.ids, states_eq oneLog'.ids, ← alike.1, List.forall₂_map_left_iff,
    List.forall₂_map_right_iff, List.forall₂_same]
  intro stamp member
  have listed : ∀ other, OneLog digests other → stamps other = stamps ledger →
      (⟨stamp.entryDigest, stamp.checkpoint,
        stamp.checkpoint.witnesses ++ backfills other stamp.entryDigest,
        stamp.checkpointCose⟩ : CheckpointWitnessState) ∈ checkpointWitnessStates other := by
    intro other oneLog same
    rw [states_eq oneLog.ids, same]
    exact List.mem_map_of_mem member
  have same := (confirmed_iff oneLog (listed ledger oneLog rfl)).symm.trans
    ((alike.2 stamp.entryDigest).trans
      (confirmed_iff oneLog' (listed ledger' oneLog' alike.1.symm)))
  rw [CheckpointWitnessState.seenBy, CheckpointWitnessState.seenBy, Bool.eq_iff_iff.mpr same]

theorem isAhead_alike {states states' : List CheckpointWitnessState}
    (alike : List.Forall₂ (fun state state' => state.seenBy url = state'.seenBy url) states states')
    (cp : Checkpoint) (last : Position) : isAhead states cp last = isAhead states' cp last := by
  have any : states.any (fun s => s.checkpoint.link.next = last) =
      states'.any (fun s => s.checkpoint.link.next = last) := by
    induction alike with
    | nil => rfl
    | cons same _ ih => rw [List.any_cons, List.any_cons, ih, (Prod.mk.inj same).1]
  rw [isAhead, isAhead, any]

/-- A turn reads only what a witness's states show, and keeps ledgers alike. -/
theorem turn_alike {states states' : List CheckpointWitnessState}
    (alike : List.Forall₂ (fun state state' => state.seenBy url = state'.seenBy url) states states')
    {state state' : CheckpointWitnessState} (same : state.seenBy url = state'.seenBy url)
    {ledger ledger' : List Entry} (start : Alike url ledger ledger') (attempt : Attempt)
    (party : Party) :
    (turn digests states url attempt state party ledger).sent =
        (turn digests states' url attempt state' party ledger').sent ∧
      (turn digests states url attempt state party ledger).party =
        (turn digests states' url attempt state' party ledger').party ∧
      (turn digests states url attempt state party ledger).goesOn =
        (turn digests states' url attempt state' party ledger').goesOn ∧
      Alike url (turn digests states url attempt state party ledger).ledger
        (turn digests states' url attempt state' party ledger').ledger := by
  obtain ⟨checkpoint, form, confirmed⟩ := CheckpointWitnessState.seenBy_eq.mp same
  unfold turn
  rw [← checkpoint, ← form, ← confirmed]
  split
  · exact ⟨rfl, rfl, rfl, start⟩
  · split
    · exact ⟨rfl, rfl, rfl, start⟩
    · split
      · next party' witness _ =>
          refine ⟨rfl, rfl, rfl, ?_, fun digest => ?_⟩
          · rw [stamps_persist, stamps_persist, start.1]
          · rw [confirmed_persist_iff, confirmed_persist_iff, start.1, start.2 digest]
      · exact ⟨rfl, rfl, isAhead_alike alike _ _, start⟩
      · exact ⟨rfl, rfl, rfl, start⟩

/-- Drains over states that read alike make the same offers. -/
theorem drain_alike {states states' : List CheckpointWitnessState}
    (alike : List.Forall₂ (fun state state' => state.seenBy url = state'.seenBy url) states states')
    {rest rest' : List CheckpointWitnessState}
    (same : List.Forall₂ (fun state state' => state.seenBy url = state'.seenBy url) rest rest')
    (attempts : Nat → Attempt) (place : Nat) (party : Party) {ledger ledger' : List Entry}
    (start : Alike url ledger ledger') :
    (drain digests states url attempts place rest party ledger).offers.map
          (fun offer => offer.state.checkpoint) =
        (drain digests states' url attempts place rest' party ledger').offers.map
          (fun offer => offer.state.checkpoint) ∧
      (drain digests states url attempts place rest party ledger).party =
        (drain digests states' url attempts place rest' party ledger').party ∧
      Alike url (drain digests states url attempts place rest party ledger).ledger
        (drain digests states' url attempts place rest' party ledger').ledger := by
  induction same generalizing place party ledger ledger' with
  | nil => exact ⟨rfl, rfl, start⟩
  | @cons state state' rest rest' first _ ih =>
      obtain ⟨sent, moved, goesOn, alike'⟩ := @turn_alike digests url _ _ alike _ _ first _ _ start
        (attempts place) party
      obtain ⟨checkpoint, -⟩ := CheckpointWitnessState.seenBy_eq.mp first
      obtain ⟨offers, reached, after⟩ := ih (place + 1)
        (turn digests states url (attempts place) state party ledger).party alike'
      rw [drain, drain, ← sent, ← moved, ← goesOn]
      have offered : ∀ sent accepted accepted' : Bool,
          (if sent then [(⟨url, state, ledger, accepted⟩ : Offer)] else []).map
              (fun offer => offer.state.checkpoint) =
            (if sent then [(⟨url, state', ledger', accepted'⟩ : Offer)] else []).map
              (fun offer => offer.state.checkpoint) := by
        intro sent accepted accepted'
        cases sent with
        | false => rfl
        | true => exact congrArg (fun cp => [cp]) checkpoint
      simp only [List.map_append]
      rw [offered]
      cases (turn digests states url (attempts place) state party ledger).goesOn with
      | true => exact ⟨congrArg _ offers, reached, after⟩
      | false => exact ⟨rfl, rfl, alike'⟩

end

/-! ## Runs of passes -/

section

variable {digests : Digests} {url : String}

/-- A call serves a witness. -/
def Call.Serves (call : Call) (url : String) : Prop :=
  call.enabled = true ∧ url ∈ resolvedWitnessUrls call.tsUrl ∧
    (!call.sign && bindingOf url = .rekor) = false

instance (call : Call) (url : String) : Decidable (call.Serves url) :=
  inferInstanceAs (Decidable (_ ∧ _ ∧ _))

/-- A pass makes no offer to a witness it does not serve, and leaves it. -/
theorem retry_absent {call : Call} (absent : ¬ call.Serves url) {world : World}
    (oneLog : OneLog digests world.ledger) :
    (retryPendingWitnessStamps digests call world).offersTo url = [] ∧
      (retryPendingWitnessStamps digests call world).world.parties url = world.parties url ∧
      Alike url (retryPendingWitnessStamps digests call world).world.ledger world.ledger := by
  unfold retryPendingWitnessStamps
  split
  · next enabled =>
      apply drainAll_absent _ oneLog.ordered.forward
      intro named
      by_contra waits
      exact absent ⟨enabled, named, Bool.eq_false_iff.mpr waits⟩
  · exact ⟨rfl, rfl, Alike.refl _ _⟩

/-- What a pass does for a witness it serves is one drain. -/
theorem retry_served {call : Call} (served : call.Serves url) {world : World}
    (oneLog : OneLog digests world.ledger) :
    ∃ ledger, Alike url ledger world.ledger ∧
      (retryPendingWitnessStamps digests call world).offersTo url =
        (drain digests (checkpointWitnessStates world.ledger) url (call.attempts url) 0
          (checkpointWitnessStates world.ledger) (world.parties url) ledger).offers ∧
      (retryPendingWitnessStamps digests call world).world.parties url =
        (drain digests (checkpointWitnessStates world.ledger) url (call.attempts url) 0
          (checkpointWitnessStates world.ledger) (world.parties url) ledger).party ∧
      Alike url (retryPendingWitnessStamps digests call world).world.ledger
        (drain digests (checkpointWitnessStates world.ledger) url (call.attempts url) 0
          (checkpointWitnessStates world.ledger) (world.parties url) ledger).ledger := by
  obtain ⟨enabled, named, waits⟩ := served
  rw [retryPendingWitnessStamps, if_pos enabled]
  exact drainAll_served (nodup_resolvedWitnessUrls _) named waits oneLog.ordered.forward world

/-- A pass adds no stamp. -/
theorem retry_stamps (call : Call) {world : World} (oneLog : OneLog digests world.ledger) :
    stamps (retryPendingWitnessStamps digests call world).world.ledger = stamps world.ledger := by
  by_cases served : call.Serves ""
  · obtain ⟨ledger, before, -, -, after⟩ := retry_served served oneLog
    exact after.1.trans ((stamps_drain _ _ _ _).trans before.1)
  · exact (retry_absent served oneLog).2.2.1

/-- What is recorded as confirmed stays recorded. -/
theorem retry_confirmed (call : Call) {world : World} (oneLog : OneLog digests world.ledger)
    {digest : String} (confirmed : Confirmed world.ledger url digest) :
    Confirmed (retryPendingWitnessStamps digests call world).world.ledger url digest := by
  by_cases served : call.Serves url
  · obtain ⟨ledger, before, -, -, after⟩ := retry_served served oneLog
    exact (after.2 digest).mpr ((before.2 digest).mpr confirmed).drain
  · exact ((retry_absent served oneLog).2.2.2 digest).mpr confirmed

/-- After any passes the ledger is of one log, and keeps its confirmations. -/
theorem after_passes {start : World} (oneLog : OneLog digests start.ledger) (calls : List Call) :
    OneLog digests (Machine.after (retryStep digests) start calls).ledger ∧
      ∀ digest, Confirmed start.ledger url digest →
        Confirmed (Machine.after (retryStep digests) start calls).ledger url digest := by
  refine @Machine.invariant World Call Pass (retryStep digests)
    (fun world => OneLog digests world.ledger ∧
      ∀ digest, Confirmed start.ledger url digest → Confirmed world.ledger url digest)
    ?_ start ?_ calls
  · intro world call kept
    exact ⟨kept.1.of_stamps (retry_stamps call kept.1),
      fun digest before => retry_confirmed call kept.1 (kept.2 digest before)⟩
  · exact ⟨oneLog, fun _ before => before⟩

/-- Calls that differ in what becomes of other witnesses' attempts only. -/
structure Call.AgreesFor (url : String) (call call' : Call) : Prop where
  enabled : call.enabled = call'.enabled
  tsUrl : call.tsUrl = call'.tsUrl
  sign : call.sign = call'.sign
  attempts : call.attempts url = call'.attempts url

/-- Calls that agree for a witness make it the same offers in worlds that are alike
for it. -/
theorem retry_alike {call call' : Call} (agrees : call.AgreesFor url call') {world world' : World}
    (oneLog : OneLog digests world.ledger) (party : world.parties url = world'.parties url)
    (alike : Alike url world.ledger world'.ledger) :
    ((retryPendingWitnessStamps digests call world).offersTo url).map
          (fun offer => offer.state.checkpoint) =
        ((retryPendingWitnessStamps digests call' world').offersTo url).map
          (fun offer => offer.state.checkpoint) ∧
      (retryPendingWitnessStamps digests call world).world.parties url =
        (retryPendingWitnessStamps digests call' world').world.parties url ∧
      Alike url (retryPendingWitnessStamps digests call world).world.ledger
        (retryPendingWitnessStamps digests call' world').world.ledger := by
  have oneLog' := oneLog.of_stamps alike.1.symm
  have serves : call.Serves url ↔ call'.Serves url := by
    rw [Call.Serves, Call.Serves, agrees.enabled, agrees.tsUrl, agrees.sign]
  by_cases served : call.Serves url
  · obtain ⟨ledger, before, offers, reached, after⟩ := retry_served served oneLog
    obtain ⟨ledger', before', offers', reached', after'⟩ :=
      retry_served (serves.mp served) oneLog'
    have seen := alike.seenBy oneLog
    obtain ⟨same, moved, alike'⟩ := @drain_alike digests url _ _ seen _ _ seen
      (call.attempts url) 0 (world.parties url) _ _ ((before.trans alike).trans before'.symm)
    rw [offers, offers', reached, reached', ← agrees.attempts, ← party]
    refine ⟨same, moved, after.trans (alike'.trans ?_)⟩
    rw [agrees.attempts, party]
    exact after'.symm
  · obtain ⟨none, same, kept⟩ := retry_absent served oneLog
    obtain ⟨none', same', kept'⟩ := retry_absent (mt serves.mpr served) oneLog'
    rw [none, none', same, same', party]
    exact ⟨rfl, rfl, kept.trans (alike.trans kept'.symm)⟩

/-- Runs of calls that agree for a witness keep worlds alike for it. -/
theorem after_alike {calls calls' : List Call}
    (agree : List.Forall₂ (fun call call' => call.AgreesFor url call') calls calls')
    {world world' : World} (oneLog : OneLog digests world.ledger)
    (party : world.parties url = world'.parties url)
    (alike : Alike url world.ledger world'.ledger) :
    (Machine.after (retryStep digests) world calls).parties url =
        (Machine.after (retryStep digests) world' calls').parties url ∧
      Alike url (Machine.after (retryStep digests) world calls).ledger
        (Machine.after (retryStep digests) world' calls').ledger := by
  induction agree generalizing world world' with
  | nil => exact ⟨party, alike⟩
  | cons first _ ih =>
      obtain ⟨-, moved, alike'⟩ := retry_alike first oneLog party alike
      exact ih (oneLog.of_stamps (retry_stamps _ oneLog)) moved alike'

end

/-! ## A log of three stamps -/

instance (ledger : List Entry) (url digest : String) : Decidable (Confirmed ledger url digest) :=
  inferInstanceAs (Decidable (∃ state ∈ _, _ ∧ _))

instance (party : Party) (cp : Checkpoint) : Decidable (AtOrPast party cp) :=
  inferInstanceAs (Decidable (∃ last ∈ party, _))

/-- Line ids as the SHA-256 of a text of what they are for. -/
def textDigests : Digests where
  entryDigest := fun cp => Sha256.hex (Sha256.digest (utf8 (String.intercalate "\n"
    ([cp.logId, toString cp.mmrSize, cp.root, toString cp.prevSize, cp.prevRoot, cp.timestamp,
      cp.keyId, cp.signature] ++ cp.witnesses.flatMap (fun w => [w.tsUrl, w.receipt])))))
  backfillId := fun digest witness => Sha256.hex (Sha256.digest (utf8 (String.intercalate "\n"
    [digest, witness.tsUrl, witness.receipt])))

def firstCheckpoint : Checkpoint :=
  ⟨"log", 1, "a0", 0, "", "2026-01-01T00:00:00Z", "key", "s0", []⟩

def secondCheckpoint : Checkpoint :=
  ⟨"log", 4, "a1", 1, "a0", "2026-01-01T00:15:00Z", "key", "s1", []⟩

def thirdCheckpoint : Checkpoint :=
  ⟨"log", 8, "a2", 4, "a1", "2026-01-01T00:30:00Z", "key", "s2", []⟩

def stampEntry (cp : Checkpoint) (cose : Option String) : Entry :=
  .checkpointStamp (textDigests.entryDigest cp) cp cose

/-- A log of three checkpoints, the second with the given wire form. -/
def threeStamps (second : Option String) : List Entry :=
  [stampEntry firstCheckpoint (some "d284a0"), stampEntry secondCheckpoint second,
    stampEntry thirdCheckpoint (some "d284a2")]

theorem oneLog_threeStamps (second : Option String) :
    OneLog textDigests (threeStamps second) where
  ids := by
    change [textDigests.entryDigest firstCheckpoint, textDigests.entryDigest secondCheckpoint,
      textDigests.entryDigest thirdCheckpoint].Nodup
    decide +kernel
  digest := by
    intro stamp member
    simp only [stamps, threeStamps, stampEntry, List.filterMap_cons, Entry.stamp?,
      List.filterMap_nil, List.mem_cons, List.not_mem_nil, or_false] at member
    rcases member with rfl | rfl | rfl <;> rfl
  grows := by
    simp [stamps, threeStamps, stampEntry, Entry.stamp?, firstCheckpoint, secondCheckpoint,
      thirdCheckpoint]
  forward := by
    simp [stamps, threeStamps, stampEntry, Entry.stamp?, firstCheckpoint, secondCheckpoint,
      thirdCheckpoint]

/-- A call in which a witness answers every request and every write succeeds. -/
def answeredCall : Call :=
  ⟨true, ["https://witness.example"], false, fun _ _ => ⟨.answered "receipt", true⟩⟩

end Witnessing
end CapsuleEmit
