import CapsuleEmit.Foundation.Machine
import CapsuleEmit.Witnessing.Stamps
import Mathlib.Logic.Function.Basic

namespace CapsuleEmit
namespace Witnessing

open Continuity

/-!
# The retry of pending stamps

A pass reads the stamps once and then serves the witnesses one by one.  It
offers a witness the wire form of each stamp that the witness has not
confirmed, in ledger order.  A confirmation is recorded as a backfill.  A
witness that refuses names the checkpoint it last accepted; the pass goes on
when that is a stamp of the ledger at or past the one offered, and otherwise,
as after any other failure, leaves the rest of this witness for a later pass.

A witness keeps the position it last accepted.  What becomes of a request and
of the record of its success is given from outside, by an `Attempt`.
-/

/-! ## Requests -/

/-- What becomes of a request: the witness answers it, it answers but the answer
is lost, or the request does not arrive. -/
inductive Delivery where
  | answered (receipt : String)
  | unheard
  | unreached

/-- What becomes of a request and of the write that records its success. -/
structure Attempt where
  delivery : Delivery
  stored : Bool

/-- What the process sees of a request. -/
inductive Response where
  | stamped (witness : WitnessRecord)
  | refused (last : Position)
  | failed

/-- The last position a witness accepted. -/
abbrev Party := Option Position

/-- A witness that receives a checkpoint accepts it when it goes on from its last
position. -/
def Party.receive (party : Party) (cp : Checkpoint) : Party :=
  if accepts party cp.link then some cp.link.next else party

/-- Register a checkpoint with a witness: the witness after it, and the response. -/
def registerWith (party : Party) (url : String) (cp : Checkpoint) : Delivery → Party × Response
  | .unreached => (party, .failed)
  | .unheard => (party.receive cp, .failed)
  | .answered receipt =>
      (party.receive cp,
        match party with
        | none => .stamped ⟨url, receipt⟩
        | some last =>
            if accepts party cp.link then .stamped ⟨url, receipt⟩ else .refused last)

/-- A witness accepts a checkpoint it is asked to register. -/
def Delivery.accepted (delivery : Delivery) (party : Party) (cp : Checkpoint) : Bool :=
  match delivery with
  | .unreached => false
  | _ => accepts party cp.link

/-! ## Configuration -/

/-- The way a witness is spoken to. -/
inductive Binding where
  | cll
  | rekor
  | scrapi
  deriving DecidableEq

/-- The binding a witness URL names. -/
def bindingOf (url : String) : Binding :=
  if "rekor+".toList.isPrefixOf url.toList then .rekor
  else if "scrapi+".toList.isPrefixOf url.toList then .scrapi
  else .cll

/-- The URLs that are not blank, each once. -/
def distinctUrls (seen : List String) : List String → List String
  | [] => []
  | url :: urls =>
      if url = "" ∨ url ∈ seen then distinctUrls seen urls
      else url :: distinctUrls (url :: seen) urls

/-- The witnesses named by the given candidates, whose surrounding blanks are
removed. -/
def resolvedWitnessUrls (candidates : List String) : List String := distinctUrls [] candidates

/-- A call of the retry: its arguments, and what becomes of each attempt, by the
witness and the place of the stamp. -/
structure Call where
  enabled : Bool
  tsUrl : List String
  sign : Bool
  attempts : String → Nat → Attempt

/-- A ledger and its witnesses. -/
structure World where
  ledger : List Entry
  parties : String → Party

/-! ## The pass -/

/-- An offer of a stamp to a witness, the ledger when it was made, and whether the
witness accepted it. -/
structure Offer where
  url : String
  state : CheckpointWitnessState
  ledger : List Entry
  accepted : Bool

/-- What one stamp's turn does. -/
structure Turn where
  sent : Bool
  party : Party
  ledger : List Entry
  backfilled : Bool
  goesOn : Bool

/-- A witness that refuses a checkpoint is ahead of it on this ledger's chain. -/
def isAhead (states : List CheckpointWitnessState) (cp : Checkpoint) (last : Position) : Bool :=
  cp.mmrSize ≤ last.mmrSize && states.any (fun s => s.checkpoint.link.next = last)

/-- One stamp's turn with a witness. -/
def turn (digests : Digests) (states : List CheckpointWitnessState) (url : String)
    (attempt : Attempt) (state : CheckpointWitnessState) (party : Party) (ledger : List Entry) :
    Turn :=
  if state.confirmedBy url then ⟨false, party, ledger, false, true⟩
  else match state.checkpointCoseHex with
    | none => ⟨false, party, ledger, false, true⟩
    | some _ =>
        match registerWith party url state.checkpoint attempt.delivery with
        | (party, .stamped witness) =>
            ⟨true, party,
              persistWitnessBackfill digests attempt.stored state.checkpoint witness ledger,
              true, true⟩
        | (party, .refused last) =>
            ⟨true, party, ledger, false, isAhead states state.checkpoint last⟩
        | (party, .failed) => ⟨true, party, ledger, false, false⟩

/-- What serving one witness does. -/
structure Drained where
  party : Party
  ledger : List Entry
  offers : List Offer
  backfilled : Nat

/-- Serve one witness: each stamp's turn in order, until one stops it. -/
def drain (digests : Digests) (states : List CheckpointWitnessState) (url : String)
    (attempts : Nat → Attempt) :
    Nat → List CheckpointWitnessState → Party → List Entry → Drained
  | _, [], party, ledger => ⟨party, ledger, [], 0⟩
  | place, state :: rest, party, ledger =>
      let t := turn digests states url (attempts place) state party ledger
      let d :=
        if t.goesOn then drain digests states url attempts (place + 1) rest t.party t.ledger
        else ⟨t.party, t.ledger, [], 0⟩
      ⟨d.party, d.ledger,
        (if t.sent then
          [⟨url, state, ledger, (attempts place).delivery.accepted party state.checkpoint⟩]
        else []) ++ d.offers,
        (if t.backfilled then 1 else 0) + d.backfilled⟩

/-- What a pass does. -/
structure Pass where
  world : World
  offers : List Offer
  backfilled : List (String × Nat)

/-- Serve the witnesses in turn; one that needs the signer waits for a pass that
has it. -/
def drainAll (digests : Digests) (states : List CheckpointWitnessState) (sign : Bool)
    (attempts : String → Nat → Attempt) : List String → World → Pass
  | [], world => ⟨world, [], []⟩
  | url :: urls, world =>
      if !sign && bindingOf url = .rekor then
        let pass := drainAll digests states sign attempts urls world
        ⟨pass.world, pass.offers, (url, 0) :: pass.backfilled⟩
      else
        let d := drain digests states url (attempts url) 0 states (world.parties url) world.ledger
        let pass := drainAll digests states sign attempts urls
          ⟨d.ledger, Function.update world.parties url d.party⟩
        ⟨pass.world, d.offers ++ pass.offers, (url, d.backfilled) :: pass.backfilled⟩

/-- A pass over the pending stamps of every configured witness. -/
def retryPendingWitnessStamps (digests : Digests) (call : Call) (world : World) : Pass :=
  if call.enabled then
    drainAll digests (checkpointWitnessStates world.ledger) call.sign call.attempts
      (resolvedWitnessUrls call.tsUrl) world
  else ⟨world, [], []⟩

/-- A ledger and its witnesses as a machine that answers calls of the retry. -/
def retryStep (digests : Digests) (world : World) (call : Call) : Pass × World :=
  let pass := retryPendingWitnessStamps digests call world
  (pass, pass.world)

/-- The offers a pass makes to a witness. -/
def Pass.offersTo (pass : Pass) (url : String) : List Offer :=
  pass.offers.filter (fun offer => offer.url = url)

/-! ## What a turn can do -/

/-- The stamps a pass offers a witness as long as nothing stops it. -/
def pending (url : String) (states : List CheckpointWitnessState) : List CheckpointWitnessState :=
  (backlog url states).filter (fun state => state.checkpointCoseHex.isSome)

/-- A stamp has its turn in a pass over a witness. -/
def CheckpointWitnessState.isPending (state : CheckpointWitnessState) (url : String) : Bool :=
  !state.confirmedBy url && state.checkpointCoseHex.isSome

theorem pending_eq_filter (url : String) (states : List CheckpointWitnessState) :
    pending url states = states.filter (fun state => state.isPending url) := by
  rw [pending, backlog, List.filter_filter]
  apply List.filter_congr
  intro state _
  rw [CheckpointWitnessState.isPending, Bool.and_comm]

section

variable {digests : Digests} {states : List CheckpointWitnessState} {url : String}
  {attempt : Attempt} {state : CheckpointWitnessState} {party : Party} {ledger : List Entry}

/-- A stamp that is confirmed or has no wire form is passed over. -/
theorem turn_passed (passed : state.isPending url = false) :
    turn digests states url attempt state party ledger = ⟨false, party, ledger, false, true⟩ := by
  unfold turn
  split
  · rfl
  · next unconfirmed =>
      rw [CheckpointWitnessState.isPending, Bool.and_eq_false_iff] at passed
      rcases passed with confirmed | formless
      · exact absurd (by simpa using confirmed) unconfirmed
      · rw [Option.isSome_eq_false_iff, Option.isNone_iff_eq_none] at formless
        rw [formless]

/-- A pending stamp is offered. -/
theorem turn_pending (offered : state.isPending url = true) :
    turn digests states url attempt state party ledger =
      match registerWith party url state.checkpoint attempt.delivery with
      | (party, .stamped witness) =>
          ⟨true, party,
            persistWitnessBackfill digests attempt.stored state.checkpoint witness ledger,
            true, true⟩
      | (party, .refused last) =>
          ⟨true, party, ledger, false, isAhead states state.checkpoint last⟩
      | (party, .failed) => ⟨true, party, ledger, false, false⟩ := by
  rw [CheckpointWitnessState.isPending, Bool.and_eq_true] at offered
  obtain ⟨cose, form⟩ := Option.isSome_iff_exists.mp offered.2
  have unconfirmed : state.confirmedBy url = false := by simpa using offered.1
  unfold turn
  rw [if_neg (by simp [unconfirmed]), form]

/-- An accepted offer is recorded, and the pass goes on. -/
theorem turn_accepted (offered : state.isPending url = true) {receipt : String}
    (answered : attempt.delivery = .answered receipt)
    (accepted : accepts party state.checkpoint.link = true) :
    turn digests states url attempt state party ledger =
      ⟨true, some state.checkpoint.link.next,
        persistWitnessBackfill digests attempt.stored state.checkpoint ⟨url, receipt⟩ ledger,
        true, true⟩ := by
  rw [turn_pending offered, answered]
  cases party with
  | none => rfl
  | some last => simp only [registerWith, Party.receive, if_pos accepted]

/-- A refused offer leaves the witness, and the pass goes on when it is ahead. -/
theorem turn_refused (offered : state.isPending url = true) {receipt : String} {last : Position}
    (answered : attempt.delivery = .answered receipt)
    (refused : accepts (some last) state.checkpoint.link = false) :
    turn digests states url attempt state (some last) ledger =
      ⟨true, some last, ledger, false, isAhead states state.checkpoint last⟩ := by
  have not : ¬ accepts (some last) state.checkpoint.link = true := by simp [refused]
  rw [turn_pending offered, answered]
  simp only [registerWith, Party.receive, if_neg not]

/-- What a turn can do: nothing; record a stamp the witness accepted; or stop or
go on without a record, with a witness that stays or accepts. -/
theorem turn_cases (digests : Digests) (states : List CheckpointWitnessState) (url : String)
    (attempt : Attempt) (state : CheckpointWitnessState) (party : Party) (ledger : List Entry) :
    (state.isPending url = false ∧ turn digests states url attempt state party ledger =
      ⟨false, party, ledger, false, true⟩) ∨
    (state.isPending url = true ∧ accepts party state.checkpoint.link = true ∧ ∃ witness,
      witness.tsUrl = url ∧ turn digests states url attempt state party ledger =
        ⟨true, some state.checkpoint.link.next,
          persistWitnessBackfill digests attempt.stored state.checkpoint witness ledger,
          true, true⟩) ∨
    (state.isPending url = true ∧ ∃ goesOn, turn digests states url attempt state party ledger =
      ⟨true, party, ledger, false, goesOn⟩) ∨
    (state.isPending url = true ∧ accepts party state.checkpoint.link = true ∧
      turn digests states url attempt state party ledger =
        ⟨true, some state.checkpoint.link.next, ledger, false, false⟩) := by
  cases offered : state.isPending url with
  | false => exact Or.inl ⟨rfl, turn_passed offered⟩
  | true =>
      right
      cases answered : attempt.delivery with
      | answered receipt =>
          cases accepted : accepts party state.checkpoint.link with
          | true => exact Or.inl ⟨rfl, rfl, _, rfl, turn_accepted offered answered accepted⟩
          | false =>
              cases party with
              | none => cases accepted
              | some last =>
                  exact Or.inr (Or.inl ⟨rfl, _, turn_refused offered answered accepted⟩)
      | unheard =>
          right
          cases accepted : accepts party state.checkpoint.link with
          | true =>
              refine Or.inr ⟨rfl, rfl, ?_⟩
              rw [turn_pending offered, answered]
              simp only [registerWith, Party.receive, if_pos accepted]
          | false =>
              have not : ¬ accepts party state.checkpoint.link = true := by simp [accepted]
              refine Or.inl ⟨rfl, false, ?_⟩
              rw [turn_pending offered, answered]
              simp only [registerWith, Party.receive, if_neg not]
      | unreached =>
          refine Or.inr (Or.inl ⟨rfl, false, ?_⟩)
          rw [turn_pending offered, answered]
          rfl

end

/-! ## What a drain can do -/

section

variable {digests : Digests} {states : List CheckpointWitnessState} {url : String}
  {attempts : Nat → Attempt}

/-- A witness is offered its pending stamps in order, from the first. -/
theorem drain_offers_initial (place : Nat) (rest : List CheckpointWitnessState) (party : Party)
    (ledger : List Entry) :
    (drain digests states url attempts place rest party ledger).offers.map Offer.state <+:
      pending url rest := by
  induction rest generalizing place party ledger with
  | nil => exact List.prefix_rfl
  | cons state rest ih =>
      rw [pending_eq_filter, List.filter_cons, ← pending_eq_filter]
      rcases turn_cases digests states url (attempts place) state party ledger with
        ⟨passed, does⟩ | ⟨offered, -, witness, -, does⟩ | ⟨offered, goesOn, does⟩ |
        ⟨offered, -, does⟩
      · rw [if_neg (by simp [passed])]
        simpa [drain, does] using ih (place + 1) party ledger
      · rw [if_pos offered]
        simpa [drain, does] using ih _ _ _
      · rw [if_pos offered]
        cases goesOn with
        | true => simpa [drain, does] using ih _ _ _
        | false => simp [drain, does]
      · rw [if_pos offered]
        simp [drain, does]

theorem url_of_drain (place : Nat) (rest : List CheckpointWitnessState) (party : Party)
    (ledger : List Entry) :
    ∀ offer ∈ (drain digests states url attempts place rest party ledger).offers,
      offer.url = url := by
  induction rest generalizing place party ledger with
  | nil => simp [drain]
  | cons state rest ih =>
      intro offer member
      simp only [drain, List.mem_append] at member
      rcases member with first | later
      · split at first
        · cases List.mem_singleton.mp first
          rfl
        · cases first
      · split at later
        · exact ih _ _ _ offer later
        · cases later

end

end Witnessing
end CapsuleEmit
