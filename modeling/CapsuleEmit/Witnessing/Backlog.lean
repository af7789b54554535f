import CapsuleEmit.Witnessing.Retry
import Mathlib.Data.List.Nodup

namespace CapsuleEmit
namespace Witnessing

open Continuity

/-!
# What a drain leaves

The stamps of one log have their own digests as ids and grow.  Over such a
ledger every witness is offered its pending stamps in order, none of them
twice, whatever the other witnesses do.  A witness that answers every request
ends at or past all of them exactly when the ones it is behind of form a chain
from its last position.  A stamp that was passed over, for want of a wire form,
breaks that chain: the next one does not go on from where the witness is.
-/

/-! ## Ledgers of one log -/

/-- The stamps of one log: each under its digest, each larger than the one before
it, and each going forward. -/
structure OneLog (digests : Digests) (ledger : List Entry) : Prop where
  ids : ((stamps ledger).map Stamp.entryDigest).Nodup
  digest : ∀ stamp ∈ stamps ledger, digests.entryDigest stamp.checkpoint = stamp.entryDigest
  grows : (stamps ledger).Pairwise (fun a b => a.checkpoint.mmrSize < b.checkpoint.mmrSize)
  forward : ∀ stamp ∈ stamps ledger, stamp.checkpoint.prevSize < stamp.checkpoint.mmrSize

/-- The same of the states of a ledger. -/
structure Ordered (digests : Digests) (states : List CheckpointWitnessState) : Prop where
  ids : (states.map CheckpointWitnessState.entryDigest).Nodup
  digest : ∀ state ∈ states, digests.entryDigest state.checkpoint = state.entryDigest
  grows : states.Pairwise (fun a b => a.checkpoint.mmrSize < b.checkpoint.mmrSize)
  forward : ∀ state ∈ states, state.checkpoint.prevSize < state.checkpoint.mmrSize

theorem lastStamp_eq {ledger : List Entry} (ids : ((stamps ledger).map Stamp.entryDigest).Nodup)
    {stamp : Stamp} (member : stamp ∈ stamps ledger) : lastStamp ledger stamp = stamp := by
  unfold lastStamp
  cases found : (stamps ledger).reverse.find?
      (fun other => other.entryDigest = stamp.entryDigest) with
  | none => rfl
  | some other =>
      have same : other.entryDigest = stamp.entryDigest := by simpa using List.find?_some found
      have listed := List.mem_reverse.mp (List.mem_of_find?_eq_some found)
      exact List.inj_on_of_nodup_map ids listed member same

/-- The states of the stamps of one log carry the stamps. -/
theorem states_eq {ledger : List Entry} (ids : ((stamps ledger).map Stamp.entryDigest).Nodup) :
    checkpointWitnessStates ledger = (stamps ledger).map (fun stamp =>
      ⟨stamp.entryDigest, stamp.checkpoint,
        stamp.checkpoint.witnesses ++ backfills ledger stamp.entryDigest,
        stamp.checkpointCose⟩) := by
  apply List.map_congr_left
  intro stamp member
  rw [lastStamp_eq ids member]

theorem OneLog.ordered {digests : Digests} {ledger : List Entry} (oneLog : OneLog digests ledger) :
    Ordered digests (checkpointWitnessStates ledger) := by
  rw [states_eq oneLog.ids]
  constructor
  · rw [List.map_map]
    exact oneLog.ids
  · exact List.forall_mem_map.mpr oneLog.digest
  · exact List.pairwise_map.mpr oneLog.grows
  · exact List.forall_mem_map.mpr oneLog.forward

/-- Over one log a stamp is confirmed when its state says so. -/
theorem confirmed_iff {digests : Digests} {ledger : List Entry} (oneLog : OneLog digests ledger)
    {state : CheckpointWitnessState} (member : state ∈ checkpointWitnessStates ledger)
    {url : String} : Confirmed ledger url state.entryDigest ↔ state.confirmedBy url = true := by
  constructor
  · intro confirmed
    obtain ⟨other, listed, same, found⟩ := confirmed
    rw [← List.inj_on_of_nodup_map oneLog.ordered.ids listed member same]
    exact found
  · intro found
    exact ⟨state, member, rfl, found⟩

theorem stamps_persist (digests : Digests) (stored : Bool) (cp : Checkpoint)
    (witness : WitnessRecord) (ledger : List Entry) :
    stamps (persistWitnessBackfill digests stored cp witness ledger) = stamps ledger := by
  unfold persistWitnessBackfill
  rcases persist_eq stored (backfillEntry digests cp witness) ledger with same | appended
  · rw [same]
  · rw [appended, stamps_backfill]

theorem OneLog.of_stamps {digests : Digests} {ledger ledger' : List Entry}
    (oneLog : OneLog digests ledger) (same : stamps ledger' = stamps ledger) :
    OneLog digests ledger' := by
  obtain ⟨ids, digest, grows, forward⟩ := oneLog
  constructor <;> rw [same] <;> assumption

/-! ## The ledger and the witness after a drain -/

/-- A witness is at a checkpoint or past it. -/
def AtOrPast (party : Party) (cp : Checkpoint) : Prop :=
  ∃ last ∈ party, cp.mmrSize ≤ last.mmrSize

section

variable {digests : Digests} {states : List CheckpointWitnessState} {url : String}
  {attempts : Nat → Attempt}

/-- A drain keeps what every turn keeps. -/
theorem drain_induct {Inv : Party → List Entry → Prop} {rest : List CheckpointWitnessState}
    (keep : ∀ place, ∀ state ∈ rest, ∀ party ledger, Inv party ledger →
      Inv (turn digests states url (attempts place) state party ledger).party
        (turn digests states url (attempts place) state party ledger).ledger)
    (place : Nat) {party : Party} {ledger : List Entry} (start : Inv party ledger) :
    Inv (drain digests states url attempts place rest party ledger).party
      (drain digests states url attempts place rest party ledger).ledger := by
  induction rest generalizing place party ledger with
  | nil => exact start
  | cons state rest ih =>
      have first := keep place state List.mem_cons_self party ledger start
      have later : ∀ place, ∀ state ∈ rest, ∀ party ledger, Inv party ledger →
          Inv (turn digests states url (attempts place) state party ledger).party
            (turn digests states url (attempts place) state party ledger).ledger :=
        fun place state member => keep place state (List.mem_cons_of_mem _ member)
      rw [drain]
      split
      · exact ih later (place + 1) first
      · exact first

theorem stamps_drain (place : Nat) (rest : List CheckpointWitnessState) (party : Party)
    (ledger : List Entry) :
    stamps (drain digests states url attempts place rest party ledger).ledger = stamps ledger := by
  refine @drain_induct digests states url attempts
    (fun _ other => stamps other = stamps ledger) rest ?_ place party ledger rfl
  intro place state _ party' ledger' same
  rcases turn_cases digests states url (attempts place) state party' ledger' with
    ⟨-, does⟩ | ⟨-, -, witness, -, does⟩ | ⟨-, goesOn, does⟩ | ⟨-, -, does⟩
  · rw [does]
    exact same
  · rw [does]
    exact (stamps_persist _ _ _ _ _).trans same
  · rw [does]
    exact same
  · rw [does]
    exact same

theorem Confirmed.drain {place : Nat} {rest : List CheckpointWitnessState} {party : Party}
    {ledger : List Entry} {other digest : String} (confirmed : Confirmed ledger other digest) :
    Confirmed (drain digests states url attempts place rest party ledger).ledger other digest := by
  refine @drain_induct digests states url attempts
    (fun _ ledger => Confirmed ledger other digest) rest ?_ place party ledger confirmed
  intro place state _ party' ledger' recorded
  rcases turn_cases digests states url (attempts place) state party' ledger' with
    ⟨-, does⟩ | ⟨-, -, witness, -, does⟩ | ⟨-, goesOn, does⟩ | ⟨-, -, does⟩
  · rw [does]
    exact recorded
  · rw [does]
    exact recorded.persist
  · rw [does]
    exact recorded
  · rw [does]
    exact recorded

/-- A witness that accepts goes forward. -/
theorem AtOrPast.accept {party : Party} {cp state : Checkpoint} (past : AtOrPast party cp)
    (forward : state.prevSize < state.mmrSize) (accepted : accepts party state.link = true) :
    AtOrPast (some state.link.next) cp := by
  obtain ⟨last, at', reached⟩ := past
  have from' := accepts_iff.mp accepted last at'
  refine ⟨state.link.next, rfl, ?_⟩
  have start : state.prevSize = last.mmrSize := congrArg Position.mmrSize from'
  change cp.mmrSize ≤ state.mmrSize
  omega

/-- A witness does not go back. -/
theorem AtOrPast.drain {place : Nat} {rest : List CheckpointWitnessState} {party : Party}
    {ledger : List Entry} {cp : Checkpoint} (past : AtOrPast party cp)
    (forward : ∀ state ∈ rest, state.checkpoint.prevSize < state.checkpoint.mmrSize) :
    AtOrPast (drain digests states url attempts place rest party ledger).party cp := by
  refine @drain_induct digests states url attempts (fun party _ => AtOrPast party cp) rest ?_
    place party ledger past
  intro place state member party' ledger' reached
  rcases turn_cases digests states url (attempts place) state party' ledger' with
    ⟨-, does⟩ | ⟨-, accepted, witness, -, does⟩ | ⟨-, goesOn, does⟩ | ⟨-, accepted, does⟩
  · rw [does]
    exact reached
  · rw [does]
    exact reached.accept (forward state member) accepted
  · rw [does]
    exact reached
  · rw [does]
    exact reached.accept (forward state member) accepted

/-- What a drain records, the witness accepted: it is at or past it. -/
theorem confirmed_drain {place : Nat} {rest : List CheckpointWitnessState} {party : Party}
    {ledger : List Entry} {other digest : String}
    (forward : ∀ state ∈ rest, state.checkpoint.prevSize < state.checkpoint.mmrSize)
    (confirmed : Confirmed (drain digests states url attempts place rest party ledger).ledger
      other digest) :
    Confirmed ledger other digest ∨ (url = other ∧ ∃ state ∈ rest,
      digests.entryDigest state.checkpoint = digest ∧
      AtOrPast (drain digests states url attempts place rest party ledger).party
        state.checkpoint) := by
  induction rest generalizing place party ledger with
  | nil => exact Or.inl confirmed
  | cons state rest ih =>
      have later : ∀ state ∈ rest, state.checkpoint.prevSize < state.checkpoint.mmrSize :=
        fun state member => forward state (List.mem_cons_of_mem _ member)
      rcases turn_cases digests states url (attempts place) state party ledger with
        ⟨-, does⟩ | ⟨-, -, witness, named, does⟩ | ⟨-, goesOn, does⟩ | ⟨-, -, does⟩
      · simp only [Witnessing.drain, does, if_true] at confirmed ⊢
        rcases ih later confirmed with before | ⟨same, found, member, is, past⟩
        · exact Or.inl before
        · exact Or.inr ⟨same, found, List.mem_cons_of_mem _ member, is, past⟩
      · simp only [Witnessing.drain, does, if_true] at confirmed ⊢
        rcases ih later confirmed with before | ⟨same, found, member, is, past⟩
        · rcases confirmed_persist before with before | ⟨same, is⟩
          · exact Or.inl before
          · refine Or.inr ⟨named.symm.trans same, state, List.mem_cons_self, is, ?_⟩
            exact AtOrPast.drain ⟨_, rfl, Nat.le_refl _⟩ later
        · exact Or.inr ⟨same, found, List.mem_cons_of_mem _ member, is, past⟩
      · cases goesOn with
        | true =>
            simp only [Witnessing.drain, does, if_true] at confirmed ⊢
            rcases ih later confirmed with before | ⟨same, found, member, is, past⟩
            · exact Or.inl before
            · exact Or.inr ⟨same, found, List.mem_cons_of_mem _ member, is, past⟩
        | false =>
            simp only [Witnessing.drain, does, Bool.false_eq_true, if_false] at confirmed
            exact Or.inl confirmed
      · simp only [Witnessing.drain, does, Bool.false_eq_true, if_false] at confirmed
        exact Or.inl confirmed

/-! ## Offers are of unconfirmed stamps -/

/-- A drain offers no stamp that the ledger records as confirmed at the time, when
it starts so. -/
theorem drain_offers_unconfirmed {place : Nat} {rest : List CheckpointWitnessState} {party : Party}
    {ledger : List Entry} (ids : (rest.map CheckpointWitnessState.entryDigest).Nodup)
    (digest : ∀ state ∈ rest, digests.entryDigest state.checkpoint = state.entryDigest)
    (fresh : ∀ state ∈ rest, state.isPending url = true →
      ¬ Confirmed ledger url state.entryDigest) :
    ∀ offer ∈ (drain digests states url attempts place rest party ledger).offers,
      ¬ Confirmed offer.ledger url offer.state.entryDigest := by
  induction rest generalizing place party ledger with
  | nil => simp [Witnessing.drain]
  | cons state rest ih =>
      rw [List.map_cons, List.nodup_cons] at ids
      have first := fresh state List.mem_cons_self
      have later : ∀ state ∈ rest, digests.entryDigest state.checkpoint = state.entryDigest :=
        fun state member => digest state (List.mem_cons_of_mem _ member)
      have unwritten : ∀ stored witness, ∀ next ∈ rest, next.isPending url = true →
          ¬ Confirmed (persistWitnessBackfill digests stored state.checkpoint witness ledger) url
            next.entryDigest := by
        intro stored witness next member offered confirmed
        rcases confirmed_persist confirmed with before | ⟨-, same⟩
        · exact fresh next (List.mem_cons_of_mem _ member) offered before
        · apply ids.1
          rw [← digest state List.mem_cons_self, same]
          exact List.mem_map_of_mem member
      have unchanged : ∀ next ∈ rest, next.isPending url = true →
          ¬ Confirmed ledger url next.entryDigest :=
        fun next member => fresh next (List.mem_cons_of_mem _ member)
      intro offer member
      rw [Witnessing.drain] at member
      rcases turn_cases digests states url (attempts place) state party ledger with
        ⟨-, does⟩ | ⟨offered, -, witness, -, does⟩ | ⟨offered, goesOn, does⟩ | ⟨offered, -, does⟩
      · simp only [does, if_true, Bool.false_eq_true, if_false, List.nil_append] at member
        exact ih ids.2 later unchanged offer member
      · simp only [does, if_true, List.singleton_append, List.mem_cons] at member
        rcases member with rfl | member
        · exact first offered
        · exact ih ids.2 later (unwritten _ _) offer member
      · cases goesOn with
        | true =>
            simp only [does, if_true, List.singleton_append, List.mem_cons] at member
            rcases member with rfl | member
            · exact first offered
            · exact ih ids.2 later unchanged offer member
        | false =>
            simp only [does, if_true, Bool.false_eq_true, if_false, List.append_nil,
              List.mem_singleton] at member
            rw [member]
            exact first offered
      · simp only [does, if_true, Bool.false_eq_true, if_false, List.append_nil,
          List.mem_singleton] at member
        rw [member]
        exact first offered

/-! ## What a witness that answers ends at -/

/-- The stamps a witness is behind of. -/
def due (party : Party) (states : List CheckpointWitnessState) : List CheckpointWitnessState :=
  match party with
  | none => states
  | some last => states.filter (fun state => last.mmrSize < state.checkpoint.mmrSize)

/-- The links of stamps. -/
def links (states : List CheckpointWitnessState) : List (Link Position) :=
  states.map (fun state => state.checkpoint.link)

theorem isAhead_iff {cp : Checkpoint} {last : Position} :
    isAhead states cp last = true ↔ cp.mmrSize ≤ last.mmrSize ∧
      ∃ state ∈ states, some state.checkpoint.link.next = some last := by
  simp [isAhead]

theorem linked_links_cons {party : Party} {state : CheckpointWitnessState}
    {rest : List CheckpointWitnessState} :
    Linked party (links (state :: rest)) ↔
      accepts party state.checkpoint.link = true ∧
        Linked (some state.checkpoint.link.next) (links rest) := by
  rw [accepts_iff]
  rfl

theorem mem_due {party : Party} {stamps : List CheckpointWitnessState}
    {state : CheckpointWitnessState} :
    state ∈ due party stamps ↔ state ∈ stamps ∧ ¬ AtOrPast party state.checkpoint := by
  cases party with
  | none => simp [due, AtOrPast]
  | some last => simp [due, AtOrPast]

/-- A witness that is behind every pending stamp and answers ends at or past all
of them exactly when they form a chain from its position. -/
theorem drain_behind {place : Nat} {rest : List CheckpointWitnessState} {party : Party}
    {ledger : List Entry} (answers : ∀ place, ∃ receipt, (attempts place).delivery = .answered receipt)
    (grows : rest.Pairwise (fun a b => a.checkpoint.mmrSize < b.checkpoint.mmrSize))
    (forward : ∀ state ∈ rest, state.checkpoint.prevSize < state.checkpoint.mmrSize)
    (behind : ∀ state ∈ pending url rest, ¬ AtOrPast party state.checkpoint) :
    (∀ state ∈ pending url rest,
      AtOrPast (drain digests states url attempts place rest party ledger).party
        state.checkpoint) ↔ Linked party (links (pending url rest)) := by
  induction rest generalizing place party ledger with
  | nil => simp [pending, backlog, links]
  | cons state rest ih =>
      rw [List.pairwise_cons] at grows
      have later : ∀ state ∈ rest, state.checkpoint.prevSize < state.checkpoint.mmrSize :=
        fun state member => forward state (List.mem_cons_of_mem _ member)
      rw [pending_eq_filter, List.filter_cons, ← pending_eq_filter] at behind ⊢
      cases offered : state.isPending url with
      | false =>
          rw [offered, if_neg Bool.false_ne_true] at behind
          rw [if_neg Bool.false_ne_true, Witnessing.drain, turn_passed offered]
          exact ih grows.2 later behind
      | true =>
          rw [offered, if_pos rfl] at behind
          rw [if_pos rfl, Witnessing.drain]
          obtain ⟨receipt, answered⟩ := answers place
          cases accepted : accepts party state.checkpoint.link with
          | true =>
              rw [turn_accepted offered answered accepted]
              have past : AtOrPast (some state.checkpoint.link.next) state.checkpoint :=
                ⟨_, rfl, Nat.le_refl _⟩
              have ahead : ∀ next ∈ pending url rest,
                  ¬ AtOrPast (some state.checkpoint.link.next) next.checkpoint := by
                intro next member reached
                obtain ⟨last, is, le⟩ := reached
                cases is
                rw [pending_eq_filter] at member
                have := grows.1 next (List.mem_of_mem_filter member)
                exact absurd this (Nat.not_lt_of_le le)
              simp only [if_true]
              rw [List.forall_mem_cons, ih grows.2 later ahead, linked_links_cons]
              constructor
              · intro each
                exact ⟨accepted, each.2⟩
              · intro linked
                exact ⟨past.drain later, linked.2⟩
          | false =>
              obtain ⟨last, rfl⟩ : ∃ last, party = some last := by
                cases party with
                | none => cases accepted
                | some last => exact ⟨last, rfl⟩
              have short := behind state List.mem_cons_self
              have stops : isAhead states state.checkpoint last = false := by
                rw [← Bool.not_eq_true, isAhead_iff]
                exact fun ahead => short ⟨last, rfl, ahead.1⟩
              rw [turn_refused offered answered accepted, stops]
              simp only [Bool.false_eq_true, if_false]
              constructor
              · intro each
                exact absurd (each state List.mem_cons_self) short
              · intro linked
                rw [linked_links_cons, accepted] at linked
                cases linked.1

/-- The pending stamps a witness is behind of form a chain from its position, and
if it is not behind of all, its position is a stamp of the ledger. -/
def Continues (states pending : List CheckpointWitnessState) (party : Party) : Prop :=
  Linked party (links (due party pending)) ∧
  (due party pending = [] ∨ due party pending = pending ∨
    ∃ state ∈ states, some state.checkpoint.link.next = party)

/-- A checkpoint that a witness is at or past does not go on from it. -/
theorem accepts_of_past {last : Position} {cp : Checkpoint} (forward : cp.prevSize < cp.mmrSize)
    (past : cp.mmrSize ≤ last.mmrSize) : accepts (some last) cp.link = false := by
  rw [← Bool.not_eq_true, accepts_iff]
  intro starts
  have same : cp.prevSize = last.mmrSize := congrArg Position.mmrSize (starts last rfl)
  omega

/-- A witness that answers ends at or past its pending stamps exactly when they
continue it. -/
theorem drain_answered {place : Nat} {rest : List CheckpointWitnessState} {party : Party}
    {ledger : List Entry} (answers : ∀ place, ∃ receipt, (attempts place).delivery = .answered receipt)
    (grows : rest.Pairwise (fun a b => a.checkpoint.mmrSize < b.checkpoint.mmrSize))
    (forward : ∀ state ∈ rest, state.checkpoint.prevSize < state.checkpoint.mmrSize) :
    (∀ state ∈ pending url rest,
      AtOrPast (drain digests states url attempts place rest party ledger).party
        state.checkpoint) ↔ Continues states (pending url rest) party := by
  induction rest generalizing place ledger with
  | nil =>
      have none : due party (pending url []) = [] := by cases party <;> rfl
      rw [Continues, none]
      exact ⟨fun _ => ⟨trivial, Or.inl rfl⟩, fun _ => List.forall_mem_nil _⟩
  | cons state rest ih =>
      have whole := grows
      rw [List.pairwise_cons] at grows
      have later : ∀ state ∈ rest, state.checkpoint.prevSize < state.checkpoint.mmrSize :=
        fun state member => forward state (List.mem_cons_of_mem _ member)
      by_cases behind : ∀ next ∈ pending url (state :: rest), ¬ AtOrPast party next.checkpoint
      · have all : due party (pending url (state :: rest)) = pending url (state :: rest) := by
          cases party with
          | none => rfl
          | some last =>
              apply List.filter_eq_self.mpr
              intro next member
              simpa [AtOrPast] using behind next member
        rw [drain_behind answers whole forward behind, Continues, all]
        simp
      · rw [pending_eq_filter, List.filter_cons, ← pending_eq_filter] at behind ⊢
        cases offered : state.isPending url with
        | false =>
            rw [if_neg Bool.false_ne_true, Witnessing.drain, turn_passed offered]
            exact ih grows.2 later
        | true =>
            rw [offered, if_pos rfl] at behind
            rw [if_pos rfl]
            -- The stamps grow, so the first is not ahead of the witness.
            obtain ⟨last, rfl, past⟩ : AtOrPast party state.checkpoint := by
              push Not at behind
              obtain ⟨next, member, last, is, le⟩ := behind
              refine ⟨last, is, ?_⟩
              rcases List.mem_cons.mp member with rfl | member
              · exact le
              · rw [pending_eq_filter] at member
                have := grows.1 next (List.mem_of_mem_filter member)
                omega
            have passes : due (some last) (state :: pending url rest) =
                due (some last) (pending url rest) := by
              rw [due, due, List.filter_cons_of_neg (by simpa using past)]
            have shorter : (due (some last) (pending url rest)).length ≤
                (pending url rest).length := List.length_filter_le _ _
            have fewer : due (some last) (pending url rest) ≠ state :: pending url rest := by
              intro same
              rw [same, List.length_cons] at shorter
              omega
            obtain ⟨receipt, answered⟩ := answers place
            have refused := accepts_of_past (forward state List.mem_cons_self) past
            rw [Witnessing.drain, turn_refused offered answered refused, Continues, passes]
            have reached : AtOrPast (some last) state.checkpoint := ⟨last, rfl, past⟩
            by_cases shown : ∃ state ∈ states, some state.checkpoint.link.next = some last
            · have goesOn : isAhead states state.checkpoint last = true :=
                isAhead_iff.mpr ⟨past, shown⟩
              simp only [goesOn, if_true]
              rw [List.forall_mem_cons, ih grows.2 later, Continues]
              constructor
              · intro each
                exact ⟨each.2.1, Or.inr (Or.inr shown)⟩
              · intro continues
                exact ⟨reached.drain later, continues.1, Or.inr (Or.inr shown)⟩
            · have stops : isAhead states state.checkpoint last = false := by
                rw [← Bool.not_eq_true, isAhead_iff]
                exact fun ahead => shown ahead.2
              simp only [stops, Bool.false_eq_true, if_false]
              rw [List.forall_mem_cons]
              constructor
              · intro each
                have none : due (some last) (pending url rest) = [] := by
                  rw [List.eq_nil_iff_forall_not_mem]
                  intro next member
                  exact (mem_due.mp member).2 (each.2 next (mem_due.mp member).1)
                rw [none]
                exact ⟨trivial, Or.inl rfl⟩
              · intro continues
                rcases continues.2 with none | all | shown'
                · refine ⟨reached, fun next member => ?_⟩
                  by_contra behind
                  have : next ∈ due (some last) (pending url rest) := mem_due.mpr ⟨member, behind⟩
                  rw [none] at this
                  cases this
                · exact absurd all fewer
                · exact absurd shown' shown

end

end Witnessing
end CapsuleEmit
