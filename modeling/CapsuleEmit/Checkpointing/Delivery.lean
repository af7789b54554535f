import CapsuleEmit.Checkpointing.Rows

namespace CapsuleEmit
namespace Checkpointing
namespace Substrate

/-!
# Delivering witness rows

The rows of a checkpoint are written in the commit that persists it.  The clock
sends each configured witness its oldest undelivered checkpoint, then the next,
up to the first that fails, and records on the row what came of it.  A witness
that is behind is caught up from the rows of any witness; one that is ahead on
the same log has its rows closed.

The witnesses, the reads and writes of the backend and the clock are outside, and
so are other runners of the same backend, which may change the rows whenever a
read or a write reaches it.
-/

universe u

namespace Delivery

/-! ## Outside -/

/-- What a witness answers to a checkpoint it accepts. -/
structure Receipt where
  bytes : Bytes
  entryHash : String
  entryHashScheme : String
  leafIndex : Int
  treeSize : Int

/-- What sending a checkpoint comes to; a refusal for continuity names the size and root of
the checkpoint the witness accepted last. -/
inductive Submission where
  | accepted (receipt : Receipt)
  | refused (accepted : Nat) (root text : String)
  | failed (text : String)

/-- The URLs a client can be made for, the answers of the witnesses, what other runners do to
the rows, the outcome of each read and write, and the time in milliseconds. -/
structure Outside (W : Type u) where
  clientFor : String → Bool
  submit : String → Bytes → W → Submission × W
  others : List WitnessState → W → List WitnessState × W
  reads : W → Option String × W
  writes : W → Committing × W
  now : W → Int × W
  maxReasonBytes : Nat

/-- What was sent to a witness, with the rows there were. -/
structure Sent where
  witnessId : String
  checkpoint : Bytes
  rows : List WitnessState

/-- The rows of the backend and the world, with everything that was sent, newest first. -/
structure Scene (W : Type u) where
  rows : List WitnessState
  world : W
  sent : List Sent

/-- What delivers the rows of a witness: the latest checkpoint, every witness with rows, and
the time between attempts. -/
structure RowDelivery where
  witnessId : String
  latest : Option CheckpointRecord
  allWitnessIds : List String
  cadenceSeconds : Nat

/-! ## The backend and a witness -/

section

variable (cll : Cll) {W : Type u} (outside : Outside W)

/-- A read or a write reaches the backend, after whatever other runners did. -/
def arrive (s : Scene W) : Scene W where
  rows := (outside.others s.rows s.world).1
  world := (outside.others s.rows s.world).2
  sent := s.sent

/-- `get_witness` -/
def getWitness (witnessId : String) (size : Nat) (s : Scene W) :
    Except String (Option WitnessState) × Scene W :=
  let s := arrive outside s
  match outside.reads s.world with
  | (some why, world) => (.error why, { s with world := world })
  | (none, world) => (.ok (findRow s.rows witnessId size), { s with world := world })

/-- `commit_witness`: a row is replaced when it has the number of attempts it had before. -/
def commitWitness (expected : Nat) (next : WitnessState) (s : Scene W) : Bool × Scene W :=
  let s := arrive outside s
  match findRow s.rows next.witnessId next.checkpointSize with
  | none => (false, s)
  | some row =>
      if row.attempts = expected then
        match outside.writes s.world with
        | (.done, world) => (true, { s with rows := replaceRow s.rows next, world := world })
        | (.failed, world) => (false, { s with world := world })
        | (.unheard, world) => (false, { s with rows := replaceRow s.rows next, world := world })
      else (false, s)

/-- `HttpWitnessClient::submit` -/
def submit (witnessId : String) (checkpoint : Bytes) (s : Scene W) : Submission × Scene W :=
  ((outside.submit witnessId checkpoint s.world).1,
    { s with
      world := (outside.submit witnessId checkpoint s.world).2
      sent := ⟨witnessId, checkpoint, s.rows⟩ :: s.sent })

/-! ## One row -/

/-- The characters that fit in a number of bytes. -/
def takeBytes : Nat → List Char → List Char
  | _, [] => []
  | bytes, c :: rest => if c.utf8Size ≤ bytes then c :: takeBytes (bytes - c.utf8Size) rest else []

/-- `row_error` -/
def rowError (why : String) : String :=
  String.ofList (takeBytes outside.maxReasonBytes why.toList)

/-- `receipt_for` -/
def receiptFor (receipt : Receipt) : WitnessReceiptState where
  bytes := receipt.bytes
  entryHash := some receipt.entryHash
  entryHashScheme := some receipt.entryHashScheme
  leafIndex := some receipt.leafIndex
  treeSize := some receipt.treeSize

/-- When a row is due next: an open one with the cadence. -/
def RowDelivery.nextAttempt (delivery : RowDelivery) (row : WitnessState)
    (receipt : Option WitnessReceiptState) (permanent : Bool) (world : W) : Int × W :=
  if receipt.isNone && !permanent then
    ((outside.now world).1 + delivery.cadenceSeconds * 1000, (outside.now world).2)
  else (row.nextAttemptAt, world)

/-- `RowDelivery::commit`: a row replaced with one more attempt. -/
def RowDelivery.commit (delivery : RowDelivery) (row : WitnessState)
    (receipt : Option WitnessReceiptState) (permanent : Bool) (lastError : Option String)
    (s : Scene W) : Bool × Scene W :=
  let next := delivery.nextAttempt outside row receipt permanent s.world
  commitWitness outside row.attempts
    { row with
      attempts := row.attempts + 1
      nextAttemptAt := next.1
      receipt := receipt
      permanent := permanent
      lastError := lastError } { s with world := next.2 }

/-- `RowDelivery::fail`: a failed attempt, whether or not it can be recorded. -/
def RowDelivery.fail (delivery : RowDelivery) (row : WitnessState) (why : String) (s : Scene W) :
    Scene W :=
  (delivery.commit outside row none false (some (rowError outside why)) s).2

/-- The row of the first of some witnesses that has one at a size. -/
def firstCut (size : Nat) : List String → Scene W → Except String (Option Bytes) × Scene W
  | [], s => (.ok none, s)
  | other :: rest, s =>
      match getWitness outside other size s with
      | (.error why, s) => (.error why, s)
      | (.ok (some row), s) => (.ok (some row.checkpoint), s)
      | (.ok none, s) => firstCut size rest s

/-- `RowDelivery::cut_at`: the row of the witness, and the checkpoint from it or another. -/
def RowDelivery.cutAt (delivery : RowDelivery) (size : Nat) (s : Scene W) :
    Except String (Option WitnessState × Option Bytes) × Scene W :=
  match getWitness outside delivery.witnessId size s with
  | (.error why, s) => (.error why, s)
  | (.ok (some row), s) => (.ok (some row, some row.checkpoint), s)
  | (.ok none, s) =>
      match firstCut outside size delivery.allWitnessIds s with
      | (.error why, s) => (.error why, s)
      | (.ok cose, s) => (.ok (none, cose), s)

/-- `decoded_root` -/
def decodedRoot (cose : Bytes) : Option String := (cll.decode cose).map CheckpointRecord.root

/-- `RowDelivery::holds`: whether a size and root are of a checkpoint of this log. -/
def RowDelivery.holds (delivery : RowDelivery) (size : Nat) (root : String) (s : Scene W) :
    Bool × Scene W :=
  if delivery.latest.any (fun cp => cp.mmrSize = size && cp.root = root) then (true, s)
  else
    match delivery.cutAt outside size s with
    | (.ok (_, some cose), s) => (decodedRoot cll cose = some root, s)
    | (_, s) => (false, s)

/-- `RowDelivery::close_ahead`: whether to go on, and what is left of a queue. -/
def RowDelivery.closeAhead (delivery : RowDelivery) (accepted : Nat) :
    List Nat → Scene W → (Bool × List Nat) × Scene W
  | [], s => ((true, []), s)
  | size :: queue, s =>
      if accepted < size then ((true, size :: queue), s)
      else
        match getWitness outside delivery.witnessId size s with
        | (.error _, s) => ((false, size :: queue), s)
        | (.ok none, s) => delivery.closeAhead accepted queue s
        | (.ok (some row), s) =>
            if row.holds then ((true, size :: queue), s)
            else if row.receipt.isNone && !row.permanent then
              match delivery.commit outside row none true (some (witnessAhead ++ toString accepted))
                  s with
              | (false, s) => ((false, size :: queue), s)
              | (true, s) => delivery.closeAhead accepted queue s
            else delivery.closeAhead accepted queue s

/-! ## Catching up -/

/-- A checkpoint to send, with the row of the witness for it. -/
structure Between where
  size : Nat
  cose : Bytes
  own : Option WitnessState

def notHeld (accepted : Nat) (root : String) : String :=
  "the witness accepted a checkpoint at size " ++ toString accepted ++ " with root " ++ root ++
    ", which this log does not hold (a fork, or a log restarted under a reused log id: a " ++
    "node that lost its local state must start a new log id)"

/-- The checkpoints from a size back to the accepted one, oldest first, in at most a number of
steps. -/
def RowDelivery.walk (delivery : RowDelivery) (accepted : Nat) (root : String) :
    Nat → Nat → List Between → Scene W → Except String (List Between) × Scene W
  | 0, _, _, s => (.error (notHeld accepted root), s)
  | steps + 1, size, between, s =>
      if size < accepted ∨ size = 0 then (.error (notHeld accepted root), s)
      else
        match delivery.cutAt outside size s with
        | (.error why, s) => (.error why, s)
        | (.ok (_, none), s) => (.error (notHeld accepted root), s)
        | (.ok (own, some cose), s) =>
            match cll.decode cose with
            | none => (.error (notHeld accepted root), s)
            | some cp =>
                if size = accepted then
                  if cp.root = root then (.ok between, s) else (.error (notHeld accepted root), s)
                else delivery.walk accepted root steps cp.prevSize (⟨size, cose, own⟩ :: between) s

/-- The second half of `catch_up`: the checkpoints sent in order, and how many were. -/
def RowDelivery.sendBetween (delivery : RowDelivery) :
    List Between → Nat → Scene W → Except String Nat × Scene W
  | [], count, s => (.ok count, s)
  | item :: rest, count, s =>
      match submit outside delivery.witnessId item.cose s with
      | (.refused _ _ text, s) => (.error ("sending size " ++ toString item.size ++ ": " ++ text), s)
      | (.failed text, s) => (.error ("sending size " ++ toString item.size ++ ": " ++ text), s)
      | (.accepted receipt, s) =>
          match item.own.filter (fun row => row.receipt.isNone && !row.permanent) with
          | none => delivery.sendBetween rest (count + 1) s
          | some own =>
              match delivery.commit outside own (some (receiptFor receipt)) false none s with
              | (false, s) =>
                  (.error ("could not record the receipt for size " ++ toString item.size), s)
              | (true, s) => delivery.sendBetween rest (count + 1) s

/-- `RowDelivery::catch_up`; the sizes of a chain decrease, so it takes no more steps than the
size it starts at. -/
def RowDelivery.catchUp (delivery : RowDelivery) (row : WitnessState) (accepted : Nat)
    (root : String) (s : Scene W) : Except String Nat × Scene W :=
  match cll.decode row.checkpoint with
  | none => (.error "the row holds no readable checkpoint", s)
  | some cp =>
      match delivery.walk cll outside accepted root (cp.prevSize + 1) cp.prevSize [] s with
      | (.error why, s) => (.error why, s)
      | (.ok between, s) => delivery.sendBetween outside between 0 s

/-! ## A pass -/

/-- What a pass over one witness comes to: whether a receipt was recorded, and the queue. -/
abbrev Pass := Bool × List Nat

def aheadOnAnother (witnessId : String) (accepted : Nat) (root : String) : String :=
  witnessId ++ " holds a checkpoint at size " ++ toString accepted ++ " with root " ++ root ++
    ", which this log does not hold (a fork, or a log restarted under a reused log id: a " ++
    "node that lost its local state must start a new log id)"

def notCaughtUp (witnessId : String) (accepted : Nat) (why : String) : String :=
  "could not catch " ++ witnessId ++ " up from size " ++ toString accepted ++ ": " ++ why

/-- Where the loop of a pass stands: whether it goes on, the queue, whether the witness was
caught up in this pass, and whether a receipt was recorded. -/
structure Round where
  again : Bool
  queue : List Nat
  caughtUp : Bool
  recorded : Bool

/-- The loop stops where it stands. -/
def Round.stop (round : Round) : Round := { round with again := false }

/-- A refusal for continuity of the front of the queue. -/
def RowDelivery.afterRefusal (delivery : RowDelivery) (size : Nat) (row : WitnessState)
    (round : Round) (accepted : Nat) (root text : String) (s : Scene W) : Round × Scene W :=
  if size ≤ accepted then
    match delivery.holds cll outside accepted root s with
    | (false, s) => (round.stop, delivery.fail outside row
        (aheadOnAnother delivery.witnessId accepted root) s)
    | (true, s) =>
        match delivery.closeAhead outside accepted round.queue s with
        | ((again, queue), s) => ({ round with again := again, queue := queue }, s)
  else if round.caughtUp then (round.stop, delivery.fail outside row text s)
  else
    match delivery.catchUp cll outside row accepted root s with
    | (.error why, s) => (round.stop, delivery.fail outside row
        (notCaughtUp delivery.witnessId accepted why) s)
    | (.ok _, s) => ({ round with caughtUp := true }, s)

/-- An open row, the front of the queue before the rest, sent to the witness. -/
def RowDelivery.sendFront (delivery : RowDelivery) (size : Nat) (rest : List Nat)
    (row : WitnessState) (round : Round) (s : Scene W) : Round × Scene W :=
  match submit outside delivery.witnessId row.checkpoint s with
  | (.accepted receipt, s) =>
      match delivery.commit outside row (some (receiptFor receipt)) false none s with
      | (false, s) => (round.stop, s)
      | (true, s) => ({ round with queue := rest, recorded := true }, s)
  | (.failed text, s) => (round.stop, delivery.fail outside row text s)
  | (.refused accepted root text, s) =>
      delivery.afterRefusal cll outside size row round accepted root text s

/-- The body of the loop of `RowDelivery::run`. -/
def RowDelivery.turn (delivery : RowDelivery) (size : Nat) (rest : List Nat) (round : Round)
    (s : Scene W) : Round × Scene W :=
  match getWitness outside delivery.witnessId size s with
  | (.error _, s) => (round.stop, s)
  | (.ok none, s) => ({ round with queue := rest }, s)
  | (.ok (some row), s) =>
      if row.closed then ({ round with queue := rest }, s)
      else if row.permanent then (round.stop, s)
      else delivery.sendFront cll outside size rest row round s

/-- `RowDelivery::run`, stopped after a number of rounds. -/
def RowDelivery.run (delivery : RowDelivery) : Nat → Round → Scene W → Pass × Scene W
  | 0, round, s => ((round.recorded, round.queue), s)
  | rounds + 1, round, s =>
      match round.queue with
      | [] => ((round.recorded, []), s)
      | size :: rest =>
          match delivery.turn cll outside size rest round s with
          | (next, s) =>
              if next.again then delivery.run rounds next s else ((next.recorded, next.queue), s)

/-- `deliver_witness_rows` over the queues of the configured witnesses. -/
def deliverWitnessRows (latest : Option CheckpointRecord) (allWitnessIds : List String)
    (cadenceSeconds rounds : Nat) : List (String × List Nat) → Scene W →
    (Bool × List (String × List Nat)) × Scene W
  | [], s => ((false, []), s)
  | (witnessId, queue) :: rest, s =>
      if outside.clientFor witnessId then
        let delivery : RowDelivery := ⟨witnessId, latest, allWitnessIds, cadenceSeconds⟩
        let pass := delivery.run cll outside rounds ⟨true, queue, false, false⟩ s
        let others := deliverWitnessRows latest allWitnessIds cadenceSeconds rounds rest pass.2
        ((pass.1.1 || others.1.1, (witnessId, pass.1.2) :: others.1.2), others.2)
      else
        let others := deliverWitnessRows latest allWitnessIds cadenceSeconds rounds rest s
        ((others.1.1, (witnessId, queue) :: others.1.2), others.2)

end

/-! ## What a pass keeps -/

/-- Other runners keep the rows ordered and each row. -/
def Outside.Disciplined {W : Type u} (outside : Outside W) : Prop :=
  ∀ rows world, Onward rows (outside.others rows world).1

/-- A row carries a committed checkpoint of its size. -/
def Carries (cll : Cll) (committed : List CheckpointRecord) (size : Nat) (bytes : Bytes) : Prop :=
  ∃ cp ∈ committed, cll.decode bytes = some cp ∧ cp.mmrSize = size

/-- What is sent is a committed checkpoint, when every row of the witness under it is closed. -/
def InTurn (cll : Cll) (committed : List CheckpointRecord) (sent : Sent) : Prop :=
  ∃ size, Carries cll committed size sent.checkpoint ∧ ClosedBelow sent.rows sent.witnessId size

/-- The rows of every witness are in order and carry committed checkpoints. -/
structure Sorted (cll : Cll) (committed : List CheckpointRecord) (rows : List WitnessState) :
    Prop where
  ordered : ∀ witnessId, Ordered (ownRows rows witnessId)
  carried : ∀ row ∈ rows, Carries cll committed row.checkpointSize row.checkpoint

/-- Rows went on and everything sent was in turn. -/
structure Advances (cll : Cll) (committed : List CheckpointRecord) {W : Type u} (s s' : Scene W) :
    Prop where
  onward : Onward s.rows s'.rows
  sent : ∃ more, s'.sent = more ++ s.sent ∧ ∀ item ∈ more, InTurn cll committed item

/-- A queue has every open row of a witness up to a size. -/
structure Covered (rows : List WitnessState) (witnessId : String) (known : Nat)
    (queue : List Nat) : Prop where
  sorted : queue.Pairwise (· < ·)
  within : ∀ size ∈ queue, size ≤ known
  covers : ∀ row ∈ ownRows rows witnessId, row.checkpointSize ≤ known → row.closed = false →
    row.checkpointSize ∈ queue

section

variable {cll : Cll} {committed : List CheckpointRecord} {W : Type u}

theorem Sorted.onward {rows rows' : List WitnessState} (sorted : Sorted cll committed rows)
    (onward : Onward rows rows') : Sorted cll committed rows' where
  ordered := onward.ordered sorted.ordered
  carried := by
    intro next inside
    rcases (exists_of_forall₂_keep onward.keep).2 next inside with ⟨row, there, kept⟩
    rw [kept.size, kept.cut]
    exact sorted.carried row there

theorem Advances.refl (s : Scene W) : Advances cll committed s s :=
  ⟨Onward.refl _, [], rfl, fun _ inside => by cases inside⟩

theorem Advances.trans {s s' s'' : Scene W} (one : Advances cll committed s s')
    (two : Advances cll committed s' s'') : Advances cll committed s s'' where
  onward := one.onward.trans two.onward
  sent := by
    rcases one.sent with ⟨first, grown, early⟩
    rcases two.sent with ⟨second, grown', late⟩
    refine ⟨second ++ first, by rw [grown', grown, List.append_assoc], fun item inside => ?_⟩
    rcases List.mem_append.mp inside with here | there
    · exact late item here
    · exact early item there

/-- Rows that went on without anything sent. -/
theorem Advances.of_onward {s s' : Scene W} (onward : Onward s.rows s'.rows)
    (same : s'.sent = s.sent) : Advances cll committed s s' :=
  ⟨onward, [], same, fun _ inside => by cases inside⟩

theorem Covered.onward {rows rows' : List WitnessState} {witnessId : String} {known : Nat}
    {queue : List Nat} (covered : Covered rows witnessId known queue)
    (onward : Onward rows rows') : Covered rows' witnessId known queue where
  sorted := covered.sorted
  within := covered.within
  covers := by
    intro next inside small opened
    rcases (exists_of_forall₂_keep (forall₂_ownRows onward.keep witnessId)).2 next inside with
      ⟨row, there, kept⟩
    rw [kept.size] at small ⊢
    apply covered.covers row there small
    rw [← Bool.not_eq_true]
    intro closed
    rw [kept.closed closed, closed] at opened
    cases opened

/-- The rows under the front of a queue are closed. -/
theorem Covered.closedBelow {rows : List WitnessState} {witnessId : String} {known size : Nat}
    {queue : List Nat} (covered : Covered rows witnessId known (size :: queue)) :
    ClosedBelow rows witnessId size := by
  intro row inside less
  rw [← Bool.not_eq_false]
  intro opened
  have within := covered.within size List.mem_cons_self
  have queued := covered.covers row inside (Nat.le_trans (Nat.le_of_lt less) within) opened
  rcases List.mem_cons.mp queued with same | later
  · exact Nat.ne_of_lt less same
  · exact Nat.lt_asymm less ((List.pairwise_cons.mp covered.sorted).1 _ later)

/-- A front whose row is closed, or that has none, is taken off. -/
theorem Covered.pop {rows : List WitnessState} {witnessId : String} {known size : Nat}
    {queue : List Nat} (covered : Covered rows witnessId known (size :: queue))
    (closed : ∀ row ∈ ownRows rows witnessId, row.checkpointSize = size → row.closed = true) :
    Covered rows witnessId known queue where
  sorted := (List.pairwise_cons.mp covered.sorted).2
  within := fun size inside => covered.within size (List.mem_cons_of_mem _ inside)
  covers := by
    intro row inside small opened
    rcases List.mem_cons.mp (covered.covers row inside small opened) with same | later
    · rw [closed row inside same] at opened
      cases opened
    · exact later

/-! ### The backend -/

variable {outside : Outside W}

theorem arrive_advances (fair : outside.Disciplined) (s : Scene W) :
    Advances cll committed s (arrive outside s) :=
  Advances.of_onward (fair s.rows s.world) rfl

/-- What reading a row gives. -/
structure Read (cll : Cll) (committed : List CheckpointRecord) (witnessId : String) (size : Nat)
    (s : Scene W) (answer : Except String (Option WitnessState) × Scene W) : Prop where
  advances : Advances cll committed s answer.2
  answered : ∀ found, answer.1 = .ok found → found = findRow answer.2.rows witnessId size

theorem getWitness_read (fair : outside.Disciplined) (witnessId : String) (size : Nat)
    (s : Scene W) : Read cll committed witnessId size s (getWitness outside witnessId size s) := by
  have arrived := @arrive_advances cll committed W outside fair s
  simp only [getWitness]
  split
  · exact ⟨⟨arrived.onward, arrived.sent⟩, fun _ ok => by cases ok⟩
  · refine ⟨⟨arrived.onward, arrived.sent⟩, fun found ok => ?_⟩
    cases ok
    rfl

/-- A row as it was read, whatever has become of it. -/
def Seen (rows : List WitnessState) (row : WitnessState) : Prop := ∃ now ∈ rows, Keep row now

theorem Seen.of_mem {rows : List WitnessState} {row : WitnessState} (inside : row ∈ rows) :
    Seen rows row := ⟨row, inside, Keep.refl row⟩

theorem Seen.onward {rows rows' : List WitnessState} {row : WitnessState} (seen : Seen rows row)
    (onward : Onward rows rows') : Seen rows' row := by
  rcases seen with ⟨now, inside, keep⟩
  rcases (exists_of_forall₂_keep onward.keep).1 now inside with ⟨later, there, further⟩
  exact ⟨later, there, keep.trans further⟩

/-- A row replaced by its runner, or left as it is. -/
theorem commitWitness_advances (fair : outside.Disciplined) {s : Scene W} {row next : WitnessState}
    (sorted : Sorted cll committed s.rows) (seen : Seen s.rows row) (opened : row.closed = false)
    (witness : next.witnessId = row.witnessId) (size : next.checkpointSize = row.checkpointSize)
    (cut : next.checkpoint = row.checkpoint) (attempt : next.attempts = row.attempts + 1)
    (below : next.closed = true → ClosedBelow s.rows row.witnessId row.checkpointSize) :
    Advances cll committed s (commitWitness outside row.attempts next s).2 ∧
      ((commitWitness outside row.attempts next s).1 = true →
        next ∈ (commitWitness outside row.attempts next s).2.rows) := by
  have arrived := @arrive_advances cll committed W outside fair s
  have still := sorted.onward arrived.onward
  simp only [commitWitness]
  split
  · exact ⟨⟨arrived.onward, arrived.sent⟩, fun wrote => by cases wrote⟩
  · next current found =>
      split
      · next same =>
          -- The row has as many attempts as before, so no other runner has changed it.
          have key := findRow_eq_some found
          have unchanged : current = row := by
            rcases seen.onward arrived.onward with ⟨kept, there, keep⟩
            have one : current = kept := (still.ordered next.witnessId).unique key.1
              (mem_ownRows.mpr ⟨there, keep.witness.trans witness.symm⟩)
              (key.2.trans (size.trans keep.size.symm))
            rcases keep.changed with equal | more
            · exact one.trans equal
            · rw [← one, same] at more
              exact absurd more (Nat.lt_irrefl _)
          rw [unchanged] at key
          have here := (mem_ownRows.mp key.1).1
          have replaced := onward_replaceRow (still.ordered row.witnessId) here opened witness size
            cut (attempt ▸ Nat.lt_succ_self _)
            (fun closed => arrived.onward.closedBelow (below closed))
          have advances : Onward s.rows (replaceRow (arrive outside s).rows next) :=
            arrived.onward.trans replaced
          have member : next ∈ replaceRow (arrive outside s).rows next := by
            apply List.mem_map.mpr
            exact ⟨row, here, if_pos ⟨witness.symm, size.symm⟩⟩
          split
          · exact ⟨⟨advances, arrived.sent⟩, fun _ => member⟩
          · exact ⟨⟨arrived.onward, arrived.sent⟩, fun wrote => by cases wrote⟩
          · exact ⟨⟨advances, arrived.sent⟩, fun wrote => by cases wrote⟩
      · exact ⟨⟨arrived.onward, arrived.sent⟩, fun wrote => by cases wrote⟩

theorem submit_advances {s : Scene W} {witnessId : String} {checkpoint : Bytes}
    (turn : InTurn cll committed ⟨witnessId, checkpoint, s.rows⟩) :
    Advances cll committed s (submit outside witnessId checkpoint s).2 :=
  ⟨Onward.refl _, [⟨witnessId, checkpoint, s.rows⟩], rfl,
    fun _ inside => List.mem_singleton.mp inside ▸ turn⟩

/-! ### One row -/

variable {delivery : RowDelivery}

theorem closed_of_receipt {row : WitnessState} (receipt : row.receipt.isSome = true) :
    row.closed = true := by
  rw [WitnessState.closed, receipt, Bool.true_or]

theorem closed_of_ahead {row : WitnessState} {accepted : Nat} (permanent : row.permanent = true)
    (why : row.lastError = some (witnessAhead ++ toString accepted)) : row.closed = true := by
  have known : isWitnessAhead row = true := by
    rw [isWitnessAhead, permanent, why, Bool.true_and, Option.map_some, Option.getD_some,
      List.isPrefixOf_iff_prefix, String.toList_append]
    exact List.prefix_append _ _
  rw [WitnessState.closed, known, Bool.or_true]

theorem opened_of_failed {row : WitnessState} (receipt : row.receipt = none)
    (permanent : row.permanent = false) : row.closed = false := by
  rw [WitnessState.closed, isWitnessAhead, receipt, permanent]
  rfl

/-- What recording an attempt on an open row gives; a closing one needs the rows under it
closed, and leaves the row closed. -/
structure Recorded (cll : Cll) (committed : List CheckpointRecord) (row : WitnessState)
    (closing : Bool) (s : Scene W) (answer : Bool × Scene W) : Prop where
  advances : Advances cll committed s answer.2
  closed : answer.1 = true → closing = true →
    ∀ other ∈ ownRows answer.2.rows row.witnessId,
      other.checkpointSize = row.checkpointSize → other.closed = true

theorem commit_recorded (fair : outside.Disciplined) {s : Scene W} {row : WitnessState}
    (sorted : Sorted cll committed s.rows) (seen : Seen s.rows row) (opened : row.closed = false)
    (receipt : Option WitnessReceiptState) (permanent : Bool) (lastError : Option String)
    (closing : Bool)
    (closes : ∀ next : WitnessState, next.receipt = receipt → next.permanent = permanent →
      next.lastError = lastError → next.closed = closing)
    (below : closing = true → ClosedBelow s.rows row.witnessId row.checkpointSize) :
    Recorded cll committed row closing s
      (delivery.commit outside row receipt permanent lastError s) := by
  have written := @commitWitness_advances cll committed W outside fair
    { s with world := (delivery.nextAttempt outside row receipt permanent s.world).2 } row
    { row with
      attempts := row.attempts + 1
      nextAttemptAt := (delivery.nextAttempt outside row receipt permanent s.world).1
      receipt := receipt
      permanent := permanent
      lastError := lastError } sorted seen opened rfl rfl rfl rfl
    (fun closed => below ((closes _ rfl rfl rfl).symm.trans closed))
  refine ⟨⟨written.1.onward, written.1.sent⟩, fun wrote isClosing other there same => ?_⟩
  have still := sorted.onward written.1.onward
  have one := (still.ordered row.witnessId).unique there
    (mem_ownRows.mpr ⟨written.2 wrote, rfl⟩) same
  rw [one]
  exact (closes _ rfl rfl rfl).trans isClosing

theorem commit_receipt (fair : outside.Disciplined) {s : Scene W} {row : WitnessState}
    (sorted : Sorted cll committed s.rows) (seen : Seen s.rows row) (opened : row.closed = false)
    (below : ClosedBelow s.rows row.witnessId row.checkpointSize) (receipt : Receipt) :
    Recorded cll committed row true s
      (delivery.commit outside row (some (receiptFor receipt)) false none s) :=
  commit_recorded fair sorted seen opened _ _ _ true
    (fun _ known _ _ => closed_of_receipt (by rw [known]; rfl)) (fun _ => below)

theorem commit_ahead (fair : outside.Disciplined) {s : Scene W} {row : WitnessState}
    (sorted : Sorted cll committed s.rows) (seen : Seen s.rows row) (opened : row.closed = false)
    (below : ClosedBelow s.rows row.witnessId row.checkpointSize) (accepted : Nat) :
    Recorded cll committed row true s
      (delivery.commit outside row none true (some (witnessAhead ++ toString accepted)) s) :=
  commit_recorded fair sorted seen opened _ _ _ true
    (fun _ _ permanent why => closed_of_ahead permanent why) (fun _ => below)

theorem fail_advances (fair : outside.Disciplined) {s : Scene W} {row : WitnessState}
    (sorted : Sorted cll committed s.rows) (seen : Seen s.rows row) (opened : row.closed = false)
    (why : String) : Advances cll committed s (delivery.fail outside row why s) :=
  (commit_recorded fair sorted seen opened none false _ false
    (fun _ receipt permanent _ => opened_of_failed receipt permanent) (fun closing => by cases closing)).advances

/-! ### Reading a checkpoint -/

theorem firstCut_advances (fair : outside.Disciplined) (size : Nat) (witnessIds : List String)
    (s : Scene W) : Advances cll committed s (firstCut outside size witnessIds s).2 ∧
      ∀ cose, (firstCut outside size witnessIds s).1 = .ok (some cose) →
        ∃ row ∈ (firstCut outside size witnessIds s).2.rows,
          row.checkpointSize = size ∧ row.checkpoint = cose := by
  induction witnessIds generalizing s with
  | nil => exact ⟨Advances.refl s, fun _ ok => by cases ok⟩
  | cons other rest ih =>
      have read := @getWitness_read cll committed W outside fair other size s
      rw [firstCut]
      split
      · next why s' answer =>
          rw [answer] at read
          exact ⟨read.advances, fun _ ok => by cases ok⟩
      · next row s' answer =>
          rw [answer] at read
          refine ⟨read.advances, fun cose ok => ?_⟩
          cases ok
          have key := findRow_eq_some (read.answered _ rfl).symm
          exact ⟨row, (mem_ownRows.mp key.1).1, key.2, rfl⟩
      · next s' answer =>
          rw [answer] at read
          have later := ih s'
          exact ⟨read.advances.trans later.1, later.2⟩

/-- What reading the checkpoint of a size gives. -/
structure ReadCut (cll : Cll) (committed : List CheckpointRecord) (witnessId : String)
    (size : Nat) (s : Scene W)
    (answer : Except String (Option WitnessState × Option Bytes) × Scene W) : Prop where
  advances : Advances cll committed s answer.2
  own : ∀ row cose, answer.1 = .ok (some row, cose) →
    row ∈ ownRows answer.2.rows witnessId ∧ row.checkpointSize = size
  cut : ∀ own cose, answer.1 = .ok (own, some cose) →
    ∃ row ∈ answer.2.rows, row.checkpointSize = size ∧ row.checkpoint = cose

theorem cutAt_readCut (fair : outside.Disciplined) (size : Nat) (s : Scene W) :
    ReadCut cll committed delivery.witnessId size s (delivery.cutAt outside size s) := by
  have read := @getWitness_read cll committed W outside fair delivery.witnessId size s
  rw [RowDelivery.cutAt]
  split
  · next why s' answer =>
      rw [answer] at read
      exact ⟨read.advances, fun _ _ ok => (by cases ok), fun _ _ ok => (by cases ok)⟩
  · next row s' answer =>
      rw [answer] at read
      have key := findRow_eq_some (read.answered _ rfl).symm
      refine ⟨read.advances, fun own cose ok => ?_, fun own cose ok => ?_⟩
      · cases ok
        exact key
      · cases ok
        exact ⟨row, (mem_ownRows.mp key.1).1, key.2, rfl⟩
  · next s' answer =>
      rw [answer] at read
      have others := @firstCut_advances cll committed W outside fair size delivery.allWitnessIds s'
      split
      · next why s'' found =>
          rw [found] at others
          exact ⟨read.advances.trans others.1, fun _ _ ok => (by cases ok),
            fun _ _ ok => (by cases ok)⟩
      · next cose s'' found =>
          rw [found] at others
          refine ⟨read.advances.trans others.1, fun own cose ok => (by cases ok), ?_⟩
          intro own cose ok
          cases ok
          exact others.2 _ rfl

theorem holds_advances (fair : outside.Disciplined) (size : Nat) (root : String) (s : Scene W) :
    Advances cll committed s (delivery.holds cll outside size root s).2 := by
  have read := @cutAt_readCut cll committed W outside delivery fair size s
  rw [RowDelivery.holds]
  split
  · exact Advances.refl s
  · split
    · next own cose s' answer =>
        rw [answer] at read
        exact read.advances
    · next other s' _ answer =>
        rw [answer] at read
        exact read.advances

/-! ### A queue -/

/-- What a loop over a queue gives: what is left of the queue is its end and has every open row
of the witness up to the same size. -/
structure Worked (cll : Cll) (committed : List CheckpointRecord) (witnessId : String)
    (known : Nat) (queue : List Nat) (s : Scene W) (left : List Nat) (s' : Scene W) : Prop where
  advances : Advances cll committed s s'
  covered : Covered s'.rows witnessId known left
  suffix : left <:+ queue

theorem Worked.still {witnessId : String} {known : Nat} {queue : List Nat} {s s' : Scene W}
    (covered : Covered s.rows witnessId known queue) (advances : Advances cll committed s s') :
    Worked cll committed witnessId known queue s queue s' :=
  ⟨advances, covered.onward advances.onward, List.suffix_rfl⟩

theorem Worked.after {witnessId : String} {known : Nat} {queue rest left : List Nat}
    {s s' s'' : Scene W} (advances : Advances cll committed s s') (shorter : rest <:+ queue)
    (worked : Worked cll committed witnessId known rest s' left s'') :
    Worked cll committed witnessId known queue s left s'' :=
  ⟨advances.trans worked.advances, worked.covered, worked.suffix.trans shorter⟩

/-- The row that is found at a size is the only one of the witness there. -/
theorem found_only {rows : List WitnessState} {witnessId : String} {size : Nat}
    {row : WitnessState} (sorted : Sorted cll committed rows)
    (found : findRow rows witnessId size = some row) :
    ∀ other ∈ ownRows rows witnessId, other.checkpointSize = size → other = row := by
  intro other there same
  have key := findRow_eq_some found
  exact (sorted.ordered witnessId).unique there key.1 (same.trans key.2.symm)

theorem closed_of_not_holds {row : WitnessState} (free : row.holds = false)
    (done : (row.receipt.isNone && !row.permanent) = false) : row.closed = true := by
  rw [WitnessState.holds] at free
  rw [WitnessState.closed]
  cases receipt : row.receipt with
  | some receipt => rfl
  | none =>
      cases permanent : row.permanent <;> simp_all

theorem closeAhead_worked (fair : outside.Disciplined) {known : Nat} (accepted : Nat)
    {queue : List Nat} {s : Scene W} (sorted : Sorted cll committed s.rows)
    (covered : Covered s.rows delivery.witnessId known queue) :
    Worked cll committed delivery.witnessId known queue s
      (delivery.closeAhead outside accepted queue s).1.2
      (delivery.closeAhead outside accepted queue s).2 := by
  induction queue generalizing s with
  | nil => exact Worked.still covered (Advances.refl s)
  | cons size queue ih =>
      have read := @getWitness_read cll committed W outside fair delivery.witnessId size s
      have onward := read.advances.onward
      have covered' := covered.onward onward
      have sorted' := sorted.onward onward
      have shorter : queue <:+ size :: queue := List.suffix_cons size queue
      rw [RowDelivery.closeAhead]
      split
      · exact Worked.still covered (Advances.refl s)
      · split
        · next why s' answer =>
            rw [answer] at read
            exact Worked.still covered read.advances
        · next s' answer =>
            rw [answer] at read covered' sorted'
            have missing := (read.answered _ rfl).symm
            apply Worked.after read.advances shorter
            exact ih sorted' (covered'.pop
              (fun row inside same => absurd same (findRow_eq_none missing inside)))
        · next row s' answer =>
            rw [answer] at read covered' sorted'
            have found := (read.answered _ rfl).symm
            have key := findRow_eq_some found
            have owner := (mem_ownRows.mp key.1).2
            split
            · exact Worked.still covered read.advances
            · next free =>
                split
                · next due =>
                    rw [Bool.and_eq_true, Option.isNone_iff_eq_none, Bool.not_eq_true'] at due
                    have recorded := @commit_ahead cll committed W outside delivery fair s' row
                      sorted' (Seen.of_mem (mem_ownRows.mp key.1).1)
                      (opened_of_failed due.1 due.2)
                      (by rw [owner, key.2]; exact covered'.closedBelow) accepted
                    split
                    · next s'' wrote =>
                        rw [wrote] at recorded
                        exact Worked.still covered (read.advances.trans recorded.advances)
                    · next s'' wrote =>
                        rw [wrote] at recorded
                        apply Worked.after (read.advances.trans recorded.advances) shorter
                        apply ih (sorted'.onward recorded.advances.onward)
                        apply (covered'.onward recorded.advances.onward).pop
                        intro other there same
                        exact recorded.closed rfl rfl other (owner ▸ there)
                          (same.trans key.2.symm)
                · next done =>
                    rw [Bool.not_eq_true] at done free
                    apply Worked.after read.advances shorter
                    apply ih sorted' (covered'.pop ?_)
                    intro other there same
                    rw [found_only sorted' found other there same]
                    exact closed_of_not_holds free done

/-! ### Catching up -/

/-- What is found to send: committed checkpoints under a size, whose rows are closed. -/
def Behind (cll : Cll) (committed : List CheckpointRecord) (bound : Nat) (item : Between) : Prop :=
  Carries cll committed item.size item.cose ∧ item.size < bound ∧
    ∀ row ∈ item.own, row.closed = true

theorem walk_advances (fair : outside.Disciplined) {accepted bound : Nat} {root : String}
    (shrink : ∀ cp ∈ committed, cp.prevSize < cp.mmrSize) {steps size : Nat}
    {between : List Between} {s : Scene W} (sorted : Sorted cll committed s.rows)
    (below : ClosedBelow s.rows delivery.witnessId bound) (less : size < bound)
    (behind : ∀ item ∈ between, Behind cll committed bound item) :
    Advances cll committed s
        (delivery.walk cll outside accepted root steps size between s).2 ∧
      ∀ found, (delivery.walk cll outside accepted root steps size between s).1 = .ok found →
        ∀ item ∈ found, Behind cll committed bound item := by
  induction steps generalizing size between s with
  | zero => exact ⟨Advances.refl s, fun _ ok => by cases ok⟩
  | succ steps ih =>
      have read := @cutAt_readCut cll committed W outside delivery fair size s
      rw [RowDelivery.walk]
      split
      · exact ⟨Advances.refl s, fun _ ok => by cases ok⟩
      · split
        · next why s' answer =>
            rw [answer] at read
            exact ⟨read.advances, fun _ ok => by cases ok⟩
        · next own s' answer =>
            rw [answer] at read
            exact ⟨read.advances, fun _ ok => by cases ok⟩
        · next own cose s' answer =>
            rw [answer] at read
            have sorted' := sorted.onward read.advances.onward
            have below' := read.advances.onward.closedBelow below
            rcases read.cut own cose rfl with ⟨row, inside, sized, rfl⟩
            have carried := sorted'.carried row inside
            rw [sized] at carried
            rcases carried with ⟨cp, member, decoded, covers⟩
            split
            · exact ⟨read.advances, fun _ ok => by cases ok⟩
            · next cp' decoded' =>
                cases decoded.symm.trans decoded'
                split
                · split
                  · refine ⟨read.advances, fun found ok => ?_⟩
                    cases ok
                    exact behind
                  · exact ⟨read.advances, fun _ ok => by cases ok⟩
                · have further := @ih cp.prevSize (⟨size, row.checkpoint, own⟩ :: between) s'
                    sorted' below' (Nat.lt_trans (covers ▸ shrink cp member) less) ?_
                  · exact ⟨read.advances.trans further.1, further.2⟩
                  · intro item here
                    rcases List.mem_cons.mp here with rfl | there
                    · refine ⟨⟨cp, member, decoded, covers⟩, less, ?_⟩
                      rintro row' ⟨⟩
                      have own := read.own _ _ rfl
                      exact below' row' own.1 (own.2 ▸ less)
                    · exact behind item there

theorem sendBetween_advances {bound : Nat} {items : List Between} {count : Nat}
    {s : Scene W} (below : ClosedBelow s.rows delivery.witnessId bound)
    (behind : ∀ item ∈ items, Behind cll committed bound item) :
    Advances cll committed s (delivery.sendBetween outside items count s).2 := by
  induction items generalizing count s with
  | nil => exact Advances.refl s
  | cons item rest ih =>
      rcases behind item List.mem_cons_self with ⟨carried, less, closed⟩
      have sent := @submit_advances cll committed W outside s delivery.witnessId item.cose
        ⟨item.size, carried, fun row inside small => below row inside (Nat.lt_trans small less)⟩
      rw [RowDelivery.sendBetween]
      split
      · next answer =>
          rw [answer] at sent
          exact sent
      · next answer =>
          rw [answer] at sent
          exact sent
      · next receipt s' answer =>
          rw [answer] at sent
          have later := @ih (count + 1) s' (sent.onward.closedBelow below)
            (fun item inside => behind item (List.mem_cons_of_mem _ inside))
          split
          · exact sent.trans later
          · next own taken =>
              -- A row under the front of the queue is closed, so it is not written.
              have due := Option.filter_eq_some_iff.mp taken
              rw [Bool.and_eq_true, Option.isNone_iff_eq_none, Bool.not_eq_true'] at due
              have opened := opened_of_failed due.2.1 due.2.2
              rw [closed own due.1] at opened
              cases opened

theorem catchUp_advances (fair : outside.Disciplined) {accepted : Nat} {root : String}
    (shrink : ∀ cp ∈ committed, cp.prevSize < cp.mmrSize) {row : WitnessState} {s : Scene W}
    (sorted : Sorted cll committed s.rows)
    (carried : Carries cll committed row.checkpointSize row.checkpoint)
    (below : ClosedBelow s.rows delivery.witnessId row.checkpointSize) :
    Advances cll committed s (delivery.catchUp cll outside row accepted root s).2 := by
  rcases carried with ⟨cp, member, decoded, covers⟩
  simp only [RowDelivery.catchUp, decoded]
  have walked := @walk_advances cll committed W outside delivery fair accepted
    row.checkpointSize root shrink (cp.prevSize + 1) cp.prevSize [] s sorted below
    (covers ▸ shrink cp member) (fun _ none => by cases none)
  split
  · next why s' answer =>
      rw [answer] at walked
      exact walked.1
  · next between s' answer =>
      rw [answer] at walked
      exact walked.1.trans (sendBetween_advances (walked.1.onward.closedBelow below)
        (walked.2 between rfl))

/-! ### A pass over a witness -/

theorem afterRefusal_worked (fair : outside.Disciplined)
    (shrink : ∀ cp ∈ committed, cp.prevSize < cp.mmrSize) {known size accepted : Nat}
    {root text : String} {row : WitnessState} {round : Round} {s : Scene W}
    (sorted : Sorted cll committed s.rows) (seen : Seen s.rows row) (opened : row.closed = false)
    (carried : Carries cll committed row.checkpointSize row.checkpoint)
    (below : ClosedBelow s.rows delivery.witnessId row.checkpointSize)
    (covered : Covered s.rows delivery.witnessId known round.queue) :
    Worked cll committed delivery.witnessId known round.queue s
      (delivery.afterRefusal cll outside size row round accepted root text s).1.queue
      (delivery.afterRefusal cll outside size row round accepted root text s).2 := by
  rw [RowDelivery.afterRefusal]
  split
  · have held := @holds_advances cll committed W outside delivery fair accepted root s
    split
    · next t answered =>
        rw [answered] at held
        exact Worked.still covered (held.trans (fail_advances fair (sorted.onward held.onward)
          (seen.onward held.onward) opened _))
    · next t answered =>
        rw [answered] at held
        have closing := @closeAhead_worked cll committed W outside delivery fair known accepted
          round.queue t (sorted.onward held.onward) (covered.onward held.onward)
        exact Worked.after held List.suffix_rfl closing
  · split
    · exact Worked.still covered (fail_advances fair sorted seen opened _)
    · have caught := @catchUp_advances cll committed W outside delivery fair accepted root shrink
        row s sorted carried below
      split
      · next why t answered =>
          rw [answered] at caught
          exact Worked.still covered (caught.trans (fail_advances fair
            (sorted.onward caught.onward) (seen.onward caught.onward) opened _))
      · next count t answered =>
          rw [answered] at caught
          exact Worked.still covered caught

theorem sendFront_worked (fair : outside.Disciplined)
    (shrink : ∀ cp ∈ committed, cp.prevSize < cp.mmrSize) {known size : Nat} {rest : List Nat}
    {row : WitnessState} {round : Round} {s : Scene W} (sorted : Sorted cll committed s.rows)
    (found : findRow s.rows delivery.witnessId size = some row) (opened : row.closed = false)
    (front : round.queue = size :: rest)
    (covered : Covered s.rows delivery.witnessId known round.queue) :
    Worked cll committed delivery.witnessId known round.queue s
      (delivery.sendFront cll outside size rest row round s).1.queue
      (delivery.sendFront cll outside size rest row round s).2 := by
  have key := findRow_eq_some found
  have inside := (mem_ownRows.mp key.1).1
  have owner := (mem_ownRows.mp key.1).2
  have carried := sorted.carried row inside
  have below : ClosedBelow s.rows delivery.witnessId row.checkpointSize := by
    rw [front] at covered
    rw [key.2]
    exact covered.closedBelow
  have sent := @submit_advances cll committed W outside s delivery.witnessId row.checkpoint
    ⟨row.checkpointSize, carried, below⟩
  have still := sorted.onward sent.onward
  have seen := (Seen.of_mem inside).onward sent.onward
  have under := sent.onward.closedBelow below
  rw [RowDelivery.sendFront]
  split
  · next receipt t answer =>
      rw [answer] at sent still seen under
      have recorded := @commit_receipt cll committed W outside delivery fair t row still seen
        opened (owner ▸ under) receipt
      split
      · next u wrote =>
          rw [wrote] at recorded
          exact Worked.still covered (sent.trans recorded.advances)
      · next u wrote =>
          rw [wrote] at recorded
          have reached := sent.trans recorded.advances
          refine ⟨reached, ?_, front ▸ List.suffix_cons size rest⟩
          apply (front ▸ covered.onward reached.onward).pop
          intro other there same
          exact recorded.closed rfl rfl other (owner ▸ there) (same.trans key.2.symm)
  · next text t answer =>
      rw [answer] at sent still seen
      exact Worked.still covered (sent.trans (fail_advances fair still seen opened _))
  · next accepted root text t answer =>
      rw [answer] at sent still seen under
      exact Worked.after sent List.suffix_rfl (afterRefusal_worked fair shrink still seen opened
        carried under (covered.onward sent.onward))

theorem turn_worked (fair : outside.Disciplined)
    (shrink : ∀ cp ∈ committed, cp.prevSize < cp.mmrSize) {known size : Nat} {rest : List Nat}
    {round : Round} {s : Scene W} (sorted : Sorted cll committed s.rows)
    (front : round.queue = size :: rest)
    (covered : Covered s.rows delivery.witnessId known round.queue) :
    Worked cll committed delivery.witnessId known round.queue s
      (delivery.turn cll outside size rest round s).1.queue
      (delivery.turn cll outside size rest round s).2 := by
  have read := @getWitness_read cll committed W outside fair delivery.witnessId size s
  have still := sorted.onward read.advances.onward
  have reached := covered.onward read.advances.onward
  have shorter : rest <:+ round.queue := front ▸ List.suffix_cons size rest
  rw [RowDelivery.turn]
  split
  · next why t answer =>
      rw [answer] at read
      exact Worked.still covered read.advances
  · next t answer =>
      rw [answer] at read reached
      have missing := (read.answered _ rfl).symm
      refine ⟨read.advances, (front ▸ reached).pop ?_, shorter⟩
      exact fun row inside same => absurd same (findRow_eq_none missing inside)
  · next row t answer =>
      rw [answer] at read reached still
      have found := (read.answered _ rfl).symm
      split
      · next closed =>
          refine ⟨read.advances, (front ▸ reached).pop ?_, shorter⟩
          intro other there same
          rw [found_only still found other there same]
          exact closed
      · next opened =>
          split
          · exact Worked.still covered read.advances
          · exact Worked.after read.advances List.suffix_rfl (sendFront_worked fair shrink still
              found ((Bool.not_eq_true _).mp opened) front reached)

/-- However a pass goes, what it sends is in turn, and its queue has every open row. -/
theorem run_worked (fair : outside.Disciplined)
    (shrink : ∀ cp ∈ committed, cp.prevSize < cp.mmrSize) {known rounds : Nat} {round : Round}
    {s : Scene W} (sorted : Sorted cll committed s.rows)
    (covered : Covered s.rows delivery.witnessId known round.queue) :
    Worked cll committed delivery.witnessId known round.queue s
      (delivery.run cll outside rounds round s).1.2
      (delivery.run cll outside rounds round s).2 := by
  induction rounds generalizing round s with
  | zero => exact Worked.still covered (Advances.refl s)
  | succ rounds ih =>
      rw [RowDelivery.run]
      split
      · next done => exact ⟨Advances.refl s, done ▸ covered, List.nil_suffix⟩
      · next size rest front =>
          have worked := @turn_worked cll committed W outside delivery fair shrink known size rest
            round s sorted front covered
          split
          next next' t answered =>
          rw [answered] at worked
          split
          · exact Worked.after worked.advances worked.suffix
              (ih (sorted.onward worked.advances.onward) worked.covered)
          · exact worked

/-! ### A pass over every witness -/

/-- Every queue has the open rows of its witness up to a size. -/
def AllCovered (rows : List WitnessState) (known : Nat) (queues : List (String × List Nat)) :
    Prop :=
  ∀ item ∈ queues, Covered rows item.1 known item.2

theorem AllCovered.onward {rows rows' : List WitnessState} {known : Nat}
    {queues : List (String × List Nat)} (covered : AllCovered rows known queues)
    (onward : Onward rows rows') : AllCovered rows' known queues :=
  fun item inside => (covered item inside).onward onward

/-- What a pass over every configured witness keeps; a queue loses only what is in front. -/
structure Delivered (cll : Cll) (committed : List CheckpointRecord) (known : Nat)
    (queues : List (String × List Nat)) (s : Scene W) (left : List (String × List Nat))
    (s' : Scene W) : Prop where
  advances : Advances cll committed s s'
  covered : AllCovered s'.rows known left
  shorter : List.Forall₂ (fun after before => after.1 = before.1 ∧ after.2 <:+ before.2) left queues

theorem deliverWitnessRows_delivered (fair : outside.Disciplined)
    (shrink : ∀ cp ∈ committed, cp.prevSize < cp.mmrSize) {latest : Option CheckpointRecord}
    {allWitnessIds : List String} {cadenceSeconds rounds known : Nat}
    {queues : List (String × List Nat)} {s : Scene W} (sorted : Sorted cll committed s.rows)
    (covered : AllCovered s.rows known queues) :
    Delivered cll committed known queues s
      (deliverWitnessRows cll outside latest allWitnessIds cadenceSeconds rounds queues s).1.2
      (deliverWitnessRows cll outside latest allWitnessIds cadenceSeconds rounds queues s).2 := by
  induction queues generalizing s with
  | nil => exact ⟨Advances.refl s, covered, List.Forall₂.nil⟩
  | cons item rest ih =>
      rcases item with ⟨witnessId, queue⟩
      have here := covered (witnessId, queue) List.mem_cons_self
      have there : AllCovered s.rows known rest :=
        fun item inside => covered item (List.mem_cons_of_mem _ inside)
      simp only [deliverWitnessRows]
      split
      · have worked := @run_worked cll committed W outside
          ⟨witnessId, latest, allWitnessIds, cadenceSeconds⟩ fair shrink known rounds
          ⟨true, queue, false, false⟩ s sorted here
        have later := ih (sorted.onward worked.advances.onward)
          (there.onward worked.advances.onward)
        refine ⟨worked.advances.trans later.advances, fun item inside => ?_,
          List.Forall₂.cons ⟨rfl, worked.suffix⟩ later.shorter⟩
        rcases List.mem_cons.mp inside with rfl | behind
        · exact worked.covered.onward later.advances.onward
        · exact later.covered item behind
      · have later := ih sorted there
        refine ⟨later.advances, fun item inside => ?_,
          List.Forall₂.cons ⟨rfl, List.suffix_rfl⟩ later.shorter⟩
        rcases List.mem_cons.mp inside with rfl | behind
        · exact here.onward later.advances.onward
        · exact later.covered item behind

end

end Delivery

end Substrate
end Checkpointing
end CapsuleEmit
