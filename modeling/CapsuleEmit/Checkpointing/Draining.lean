import CapsuleEmit.Checkpointing.Witnesses
import CapsuleEmit.Foundation.Continuity

namespace CapsuleEmit
namespace Checkpointing
namespace Substrate
namespace Delivery

/-!
# A witness that answers

A witness keeps the last checkpoint it accepted, accepts one that is chained to
it, and names it when it refuses one.  As long as it answers, the reads and
writes succeed and no other runner works, every pass takes the front off its
queue: the row is accepted, closed because the witness is ahead, or accepted
once the checkpoints in between were sent.

What a pass can do to a scene is a succession of reads, writes and sends; what
each of them keeps, a pass keeps.
-/

universe u

/-! ## What a pass is made of -/

/-- A row that an attempt leaves behind does not hold its witness. -/
def Releases (permanent : Bool) (lastError : Option String) : Prop :=
  permanent = false ∨ ∃ accepted : Nat, lastError = some (witnessAhead ++ toString accepted)

/-- What is done for a witness: reads, recorded attempts and sends, one after another. -/
inductive Effects {W : Type u} (outside : Outside W) (witnessId : String) :
    Scene W → Scene W → Prop where
  | still (s : Scene W) : Effects outside witnessId s s
  | read {s t : Scene W} (owner : String) (size : Nat) : Effects outside witnessId s t →
      Effects outside witnessId s (getWitness outside owner size t).2
  | write {s t : Scene W} (delivery : RowDelivery) (row : WitnessState)
      (receipt : Option WitnessReceiptState) {permanent : Bool} {lastError : Option String} :
      Effects outside witnessId s t → Releases permanent lastError →
      Effects outside witnessId s (delivery.commit outside row receipt permanent lastError t).2
  | send {s t : Scene W} (checkpoint : Bytes) : Effects outside witnessId s t →
      Effects outside witnessId s (submit outside witnessId checkpoint t).2

section

variable {cll : Cll} {W : Type u} {outside : Outside W} {witnessId : String}
  {delivery : RowDelivery}

theorem Effects.fail {s t : Scene W} (effects : Effects outside witnessId s t)
    (row : WitnessState) (why : String) :
    Effects outside witnessId s (delivery.fail outside row why t) :=
  effects.write delivery row none (Or.inl rfl)

theorem Effects.firstCut {s t : Scene W} (effects : Effects outside witnessId s t) (size : Nat)
    (owners : List String) : Effects outside witnessId s (firstCut outside size owners t).2 := by
  induction owners generalizing t with
  | nil => exact effects
  | cons owner rest ih =>
      have read := effects.read owner size
      rw [Delivery.firstCut]
      split
      · next answer =>
          rw [answer] at read
          exact read
      · next answer =>
          rw [answer] at read
          exact read
      · next t' answer =>
          rw [answer] at read
          exact ih read

theorem Effects.cutAt {s t : Scene W} (effects : Effects outside witnessId s t) (size : Nat) :
    Effects outside witnessId s (delivery.cutAt outside size t).2 := by
  have read := effects.read delivery.witnessId size
  rw [RowDelivery.cutAt]
  split
  · next answer =>
      rw [answer] at read
      exact read
  · next answer =>
      rw [answer] at read
      exact read
  · next t' answer =>
      rw [answer] at read
      have others := read.firstCut size delivery.allWitnessIds
      split
      · next found =>
          rw [found] at others
          exact others
      · next found =>
          rw [found] at others
          exact others

theorem Effects.holds {s t : Scene W} (effects : Effects outside witnessId s t) (size : Nat)
    (root : String) : Effects outside witnessId s (delivery.holds cll outside size root t).2 := by
  have read := @Effects.cutAt W outside witnessId delivery s t effects size
  rw [RowDelivery.holds]
  split
  · exact effects
  · split
    · next answer =>
        rw [answer] at read
        exact read
    · next answer =>
        rw [answer] at read
        exact read

theorem Effects.closeAhead {s t : Scene W} (effects : Effects outside witnessId s t)
    (accepted : Nat) (queue : List Nat) :
    Effects outside witnessId s (delivery.closeAhead outside accepted queue t).2 := by
  induction queue generalizing t with
  | nil => exact effects
  | cons size queue ih =>
      have read := effects.read delivery.witnessId size
      rw [RowDelivery.closeAhead]
      split
      · exact effects
      · split
        · next answer =>
            rw [answer] at read
            exact read
        · next t' answer =>
            rw [answer] at read
            exact ih read
        · next row t' answer =>
            rw [answer] at read
            split
            · exact read
            · split
              · have wrote := read.write delivery row none
                  (Or.inr ⟨accepted, rfl⟩ : Releases true (some (witnessAhead ++ toString accepted)))
                split
                · next written =>
                    rw [written] at wrote
                    exact wrote
                · next t'' written =>
                    rw [written] at wrote
                    exact ih wrote
              · exact ih read

theorem Effects.walk {s t : Scene W} (effects : Effects outside witnessId s t) (accepted : Nat)
    (root : String) (steps size : Nat) (between : List Between) :
    Effects outside witnessId s
      (delivery.walk cll outside accepted root steps size between t).2 := by
  induction steps generalizing size between t with
  | zero => exact effects
  | succ steps ih =>
      have read := @Effects.cutAt W outside witnessId delivery s t effects size
      rw [RowDelivery.walk]
      split
      · exact effects
      · split
        · next answer =>
            rw [answer] at read
            exact read
        · next answer =>
            rw [answer] at read
            exact read
        · next own cose t' answer =>
            rw [answer] at read
            split
            · exact read
            · split
              · split <;> exact read
              · exact ih read _ _

theorem Effects.sendBetween {s t : Scene W} (effects : Effects outside delivery.witnessId s t)
    (items : List Between) (count : Nat) : Effects outside delivery.witnessId s
      (delivery.sendBetween outside items count t).2 := by
  induction items generalizing count t with
  | nil => exact effects
  | cons item rest ih =>
      have sent := effects.send item.cose
      rw [RowDelivery.sendBetween]
      split
      · next answer =>
          rw [answer] at sent
          exact sent
      · next answer =>
          rw [answer] at sent
          exact sent
      · next receipt t' answer =>
          rw [answer] at sent
          split
          · exact ih sent _
          · next row _ =>
              have wrote := sent.write delivery row (some (receiptFor receipt))
                (Or.inl rfl : Releases false none)
              split
              · next written =>
                  rw [written] at wrote
                  exact wrote
              · next t'' written =>
                  rw [written] at wrote
                  exact ih wrote _

theorem Effects.catchUp {s t : Scene W} (effects : Effects outside delivery.witnessId s t)
    (row : WitnessState) (accepted : Nat) (root : String) :
    Effects outside delivery.witnessId s (delivery.catchUp cll outside row accepted root t).2 := by
  rw [RowDelivery.catchUp]
  split
  · exact effects
  · next cp _ =>
      have walked := @Effects.walk cll W outside delivery.witnessId delivery s t effects accepted
        root (cp.prevSize + 1) cp.prevSize []
      split
      · next answer =>
          rw [answer] at walked
          exact walked
      · next answer =>
          rw [answer] at walked
          exact walked.sendBetween _ _

theorem Effects.afterRefusal {s t : Scene W} (effects : Effects outside delivery.witnessId s t)
    (size : Nat) (row : WitnessState) (round : Round) (accepted : Nat) (root text : String) :
    Effects outside delivery.witnessId s
      (delivery.afterRefusal cll outside size row round accepted root text t).2 := by
  have held := @Effects.holds cll W outside delivery.witnessId delivery s t effects accepted root
  have caught := @Effects.catchUp cll W outside delivery s t effects row accepted root
  rw [RowDelivery.afterRefusal]
  split
  · split
    · next answer =>
        rw [answer] at held
        exact held.fail row _
    · next answer =>
        rw [answer] at held
        exact held.closeAhead accepted round.queue
  · split
    · exact effects.fail row text
    · split
      · next answer =>
          rw [answer] at caught
          exact caught.fail row _
      · next answer =>
          rw [answer] at caught
          exact caught

theorem Effects.turn {s t : Scene W} (effects : Effects outside delivery.witnessId s t)
    (size : Nat) (rest : List Nat) (round : Round) : Effects outside delivery.witnessId s
      (delivery.turn cll outside size rest round t).2 := by
  have read := effects.read delivery.witnessId size
  rw [RowDelivery.turn]
  split
  · next answer =>
      rw [answer] at read
      exact read
  · next answer =>
      rw [answer] at read
      exact read
  · next row t' answer =>
      rw [answer] at read
      split
      · exact read
      · split
        · exact read
        · have sent := read.send row.checkpoint
          rw [RowDelivery.sendFront]
          split
          · next receipt t'' answer =>
              rw [answer] at sent
              have wrote := sent.write delivery row (some (receiptFor receipt))
                (Or.inl rfl : Releases false none)
              split
              · next written =>
                  rw [written] at wrote
                  exact wrote
              · next written =>
                  rw [written] at wrote
                  exact wrote
          · next answer =>
              rw [answer] at sent
              exact sent.fail row _
          · next answer =>
              rw [answer] at sent
              exact sent.afterRefusal size row round _ _ _

theorem Effects.run {s t : Scene W} (effects : Effects outside delivery.witnessId s t)
    (rounds : Nat) (round : Round) : Effects outside delivery.witnessId s
      (delivery.run cll outside rounds round t).2 := by
  induction rounds generalizing round t with
  | zero => exact effects
  | succ rounds ih =>
      rw [RowDelivery.run]
      split
      · exact effects
      · next size rest _ =>
          have turned := @Effects.turn cll W outside delivery s t effects size rest round
          split
          next answer =>
          rw [answer] at turned
          split
          · exact ih turned _
          · exact turned

end

/-! ## A witness that answers -/

/-- The step of the chain that a checkpoint is. -/
def link (cp : CheckpointRecord) : Continuity.Link (Nat × String) :=
  ⟨(cp.prevSize, cp.prevRoot), (cp.mmrSize, cp.root)⟩

/-- A witness that keeps the position it accepted last and answers by it, while reads and writes
succeed, no other runner works and nothing else moves it. -/
structure Answering (cll : Cll) {W : Type u} (outside : Outside W) (witnessId : String)
    (position : W → Option (Nat × String)) : Prop where
  reachable : outside.clientFor witnessId = true
  accepts : ∀ bytes cp world, cll.decode bytes = some cp →
    Continuity.accepts (position world) (link cp) = true →
    (∃ receipt, (outside.submit witnessId bytes world).1 = .accepted receipt) ∧
      position (outside.submit witnessId bytes world).2 = some (cp.mmrSize, cp.root)
  refuses : ∀ bytes cp world last, cll.decode bytes = some cp → position world = some last →
    Continuity.accepts (some last) (link cp) = false →
    (∃ text, (outside.submit witnessId bytes world).1 = .refused last.1 last.2 text) ∧
      position (outside.submit witnessId bytes world).2 = position world
  moves : ∀ bytes world, position (outside.submit witnessId bytes world).2 = position world ∨
    ∃ cp, cll.decode bytes = some cp ∧
      position (outside.submit witnessId bytes world).2 = some (cp.mmrSize, cp.root)
  others : ∀ owner bytes world, owner ≠ witnessId →
    position (outside.submit owner bytes world).2 = position world
  alone : ∀ rows world, (outside.others rows world).1 = rows ∧
    position (outside.others rows world).2 = position world
  reads : ∀ world, (outside.reads world).1 = none ∧
    position (outside.reads world).2 = position world
  writes : ∀ world, (outside.writes world).1 = .done ∧
    position (outside.writes world).2 = position world
  now : ∀ world, position (outside.now world).2 = position world

/-- No row of a witness holds it. -/
def Free (rows : List WitnessState) (witnessId : String) : Prop :=
  ∀ row ∈ rows, row.witnessId = witnessId → row.holds = false

section

variable {cll : Cll} {W : Type u} {outside : Outside W} {witnessId : String}
  {position : W → Option (Nat × String)}

theorem Answering.disciplined (answering : Answering cll outside witnessId position) :
    outside.Disciplined := by
  intro rows world
  rw [(answering.alone rows world).1]
  exact Onward.refl rows

theorem getWitness_answering (answering : Answering cll outside witnessId position)
    (owner : String) (size : Nat) (s : Scene W) : ∃ world, position world = position s.world ∧
      getWitness outside owner size s = (.ok (findRow s.rows owner size), { s with world := world }) := by
  have alone := answering.alone s.rows s.world
  have read := answering.reads (outside.others s.rows s.world).2
  refine ⟨(outside.reads (outside.others s.rows s.world).2).2, read.2.trans alone.2, ?_⟩
  simp only [getWitness, arrive, alone.1]
  split
  · next answer =>
      rw [answer] at read
      cases read.1
  · next answer => rw [answer]

theorem not_holds_of_releases {row : WitnessState} (releases : Releases row.permanent row.lastError) :
    row.holds = false := by
  rw [WitnessState.holds]
  rcases releases with free | ⟨accepted, why⟩
  · rw [free]
    rfl
  · cases permanent : row.permanent with
    | false => rfl
    | true =>
        have closed := closed_of_ahead permanent why
        rw [WitnessState.closed] at closed
        cases receipt : row.receipt with
        | some receipt => rfl
        | none =>
            rw [receipt, Option.isSome_none, Bool.false_or] at closed
            rw [closed]
            rfl

/-- What recording an attempt does to the rows: a row that releases its witness is put in, or
none is; the position of the witness stays. -/
theorem commit_rows (answering : Answering cll outside witnessId position) (delivery : RowDelivery)
    (row : WitnessState) (receipt : Option WitnessReceiptState) (permanent : Bool)
    (lastError : Option String) (s : Scene W) :
    position (delivery.commit outside row receipt permanent lastError s).2.world =
        position s.world ∧
      (delivery.commit outside row receipt permanent lastError s).2.sent = s.sent ∧
      ((delivery.commit outside row receipt permanent lastError s).2.rows = s.rows ∨
        ∃ next, next.permanent = permanent ∧ next.lastError = lastError ∧
          (delivery.commit outside row receipt permanent lastError s).2.rows =
            replaceRow s.rows next) ∧
      (findRow s.rows row.witnessId row.checkpointSize = some row →
        (delivery.commit outside row receipt permanent lastError s).1 = true) := by
  have due : position (delivery.nextAttempt outside row receipt permanent s.world).2 =
      position s.world := by
    rw [RowDelivery.nextAttempt]
    split
    · exact answering.now s.world
    · rfl
  simp only [RowDelivery.commit, commitWitness, arrive]
  generalize (delivery.nextAttempt outside row receipt permanent s.world).1 = attemptAt
  generalize (delivery.nextAttempt outside row receipt permanent s.world).2 = world at due
  have alone := answering.alone s.rows world
  have moved := alone.2.trans due
  rw [alone.1]
  split
  · next missing =>
      exact ⟨moved, rfl, Or.inl rfl, fun found => by rw [missing] at found; cases found⟩
  · next current there =>
      split
      · have wrote := answering.writes (outside.others s.rows world).2
        split
        · next answer =>
            rw [answer] at wrote
            exact ⟨wrote.2.trans moved, rfl, Or.inr ⟨_, rfl, rfl, rfl⟩, fun _ => rfl⟩
        · next answer =>
            rw [answer] at wrote
            cases wrote.1
        · next answer =>
            rw [answer] at wrote
            cases wrote.1
      · next other =>
          refine ⟨moved, rfl, Or.inl rfl, fun found => ?_⟩
          cases Option.some.inj (found.symm.trans there)
          exact absurd rfl other

theorem free_replaceRow {rows : List WitnessState} {next : WitnessState}
    (free : Free rows witnessId) (releases : next.holds = false) :
    Free (replaceRow rows next) witnessId := by
  intro row inside owner
  rcases List.mem_map.mp inside with ⟨before, there, rfl⟩
  by_cases key : before.witnessId = next.witnessId ∧ before.checkpointSize = next.checkpointSize
  · rw [if_pos key]
    exact releases
  · rw [if_neg key] at owner ⊢
    exact free before there owner

/-- What is done for any witness leaves a free witness free. -/
theorem Effects.free (answering : Answering cll outside witnessId position) {owner : String}
    {s t : Scene W} (effects : Effects outside owner s t) (free : Free s.rows witnessId) :
    Free t.rows witnessId := by
  induction effects with
  | still => exact free
  | read reader size _ ih =>
      rename_i t _
      rcases getWitness_answering answering reader size t with ⟨world, -, same⟩
      rw [same]
      exact ih
  | write delivery row receipt _ releases ih =>
      rename_i t permanent lastError _
      rcases (commit_rows answering delivery row receipt permanent lastError t).2.2.1 with
        same | ⟨next, rfl, rfl, same⟩
      · rw [same]
        exact ih
      · rw [same]
        exact free_replaceRow ih (not_holds_of_releases releases)
  | send checkpoint _ ih => exact ih

/-- A witness is where it was, or at a checkpoint that was sent. -/
theorem Effects.placed (answering : Answering cll outside witnessId position) {owner : String}
    {s t : Scene W} (effects : Effects outside owner s t) :
    position t.world = position s.world ∨ ∃ item ∈ t.sent, ∃ cp,
      cll.decode item.checkpoint = some cp ∧ position t.world = some (cp.mmrSize, cp.root) := by
  induction effects with
  | still => exact Or.inl rfl
  | read reader size _ ih =>
      rename_i t _
      rcases getWitness_answering answering reader size t with ⟨world, still, same⟩
      rw [same]
      simp only [still]
      exact ih
  | write delivery row receipt _ _ ih =>
      rename_i t permanent lastError _ _
      have wrote := commit_rows answering delivery row receipt permanent lastError t
      rw [wrote.1, wrote.2.1]
      exact ih
  | send checkpoint _ ih =>
      rename_i t _
      have kept : position (outside.submit owner checkpoint t.world).2 = position t.world ∨
          ∃ cp, cll.decode checkpoint = some cp ∧
            position (outside.submit owner checkpoint t.world).2 = some (cp.mmrSize, cp.root) := by
        by_cases same : owner = witnessId
        · rw [same]
          exact answering.moves checkpoint t.world
        · exact Or.inl (answering.others owner checkpoint t.world same)
      rcases kept with still | ⟨cp, decoded, there⟩
      · rcases ih with before | ⟨item, inside, cp, decoded, there⟩
        · exact Or.inl (still.trans before)
        · exact Or.inr ⟨item, List.mem_cons_of_mem _ inside, cp, decoded, still.trans there⟩
      · exact Or.inr ⟨_, List.mem_cons_self, cp, decoded, there⟩

/-! ## Reading the chain -/

variable {committed : List CheckpointRecord} {delivery : RowDelivery}

/-- Every committed checkpoint has the row of a witness that is known. -/
def Present (committed : List CheckpointRecord) (rows : List WitnessState)
    (witnessIds : List String) : Prop :=
  ∀ cp ∈ committed, ∃ row ∈ rows, row.checkpointSize = cp.mmrSize ∧ row.witnessId ∈ witnessIds

/-- Committed checkpoints of one size are one checkpoint. -/
theorem committed_unique
    (grow : committed.Pairwise (fun newer older => older.mmrSize < newer.mmrSize))
    {cp other : CheckpointRecord} (inside : cp ∈ committed) (there : other ∈ committed)
    (same : cp.mmrSize = other.mmrSize) : cp = other := by
  by_contra differ
  have symmetric : Std.Symm (fun cp other : CheckpointRecord => cp.mmrSize ≠ other.mmrSize) :=
    ⟨fun _ _ => Ne.symm⟩
  have distinct := grow.imp (fun less => (Nat.ne_of_lt less).symm)
  exact distinct.forall inside there differ same

theorem firstCut_answering (answering : Answering cll outside witnessId position) (size : Nat)
    {owners : List String} {s : Scene W}
    (present : ∃ row ∈ s.rows, row.checkpointSize = size ∧ row.witnessId ∈ owners) :
    ∃ row ∈ s.rows, row.checkpointSize = size ∧ ∃ world, position world = position s.world ∧
      firstCut outside size owners s = (.ok (some row.checkpoint), { s with world := world }) := by
  induction owners generalizing s with
  | nil =>
      rcases present with ⟨_, _, _, none⟩
      cases none
  | cons owner rest ih =>
      rcases getWitness_answering answering owner size s with ⟨world, still, answer⟩
      cases found : findRow s.rows owner size with
      | some row =>
          have key := findRow_eq_some found
          refine ⟨row, (mem_ownRows.mp key.1).1, key.2, world, still, ?_⟩
          rw [firstCut, answer, found]
      | none =>
          have later : ∃ row ∈ s.rows, row.checkpointSize = size ∧ row.witnessId ∈ rest := by
            rcases present with ⟨row, inside, sized, owned⟩
            rcases List.mem_cons.mp owned with same | behind
            · exact absurd sized (findRow_eq_none found (mem_ownRows.mpr ⟨inside, same⟩))
            · exact ⟨row, inside, sized, behind⟩
          rcases @ih { s with world := world } later with ⟨row, inside, sized, last, moved, cut⟩
          refine ⟨row, inside, sized, last, moved.trans still, ?_⟩
          rw [firstCut, answer, found]
          exact cut

theorem cutAt_answering (answering : Answering cll outside witnessId position)
    {s : Scene W} (sorted : Sorted cll committed s.rows)
    (grow : committed.Pairwise (fun newer older => older.mmrSize < newer.mmrSize))
    (present : Present committed s.rows delivery.allWitnessIds) {cp : CheckpointRecord}
    (member : cp ∈ committed) : ∃ own cose world, cll.decode cose = some cp ∧
      position world = position s.world ∧
      delivery.cutAt outside cp.mmrSize s = (.ok (own, some cose), { s with world := world }) := by
  have carries : ∀ row ∈ s.rows, row.checkpointSize = cp.mmrSize →
      cll.decode row.checkpoint = some cp := by
    intro row inside sized
    rcases sorted.carried row inside with ⟨other, there, decoded, covers⟩
    rw [decoded, committed_unique grow there member (covers.trans sized)]
  rcases getWitness_answering answering delivery.witnessId cp.mmrSize s with ⟨world, still, answer⟩
  cases found : findRow s.rows delivery.witnessId cp.mmrSize with
  | some row =>
      have key := findRow_eq_some found
      refine ⟨some row, row.checkpoint, world, carries row (mem_ownRows.mp key.1).1 key.2, still, ?_⟩
      rw [RowDelivery.cutAt, answer, found]
  | none =>
      rcases @firstCut_answering cll W outside witnessId position answering cp.mmrSize
        delivery.allWitnessIds { s with world := world } (present cp member) with
        ⟨row, inside, sized, last, moved, cut⟩
      refine ⟨none, row.checkpoint, last, carries row inside sized, moved.trans still, ?_⟩
      rw [RowDelivery.cutAt, answer, found]
      simp only
      rw [cut]

theorem holds_answering (answering : Answering cll outside witnessId position)
    {s : Scene W} (sorted : Sorted cll committed s.rows)
    (grow : committed.Pairwise (fun newer older => older.mmrSize < newer.mmrSize))
    (present : Present committed s.rows delivery.allWitnessIds) {cp : CheckpointRecord}
    (member : cp ∈ committed) : ∃ world, position world = position s.world ∧
      delivery.holds cll outside cp.mmrSize cp.root s = (true, { s with world := world }) := by
  rw [RowDelivery.holds]
  split
  · exact ⟨s.world, rfl, rfl⟩
  · rcases @cutAt_answering cll W outside witnessId position committed delivery answering s sorted
      grow present cp member with ⟨own, cose, world, decoded, still, cut⟩
    refine ⟨world, still, ?_⟩
    rw [cut]
    simp only
    rw [decodedRoot, decoded, Option.map_some, decide_eq_true rfl]

/-- Items that lead from a position to another, each chained to the one before. -/
def Leads (cll : Cll) (start : Nat × String) : List Between → Nat × String → Prop
  | [], target => start = target
  | item :: rest, target => ∃ cp, cll.decode item.cose = some cp ∧
      (cp.prevSize, cp.prevRoot) = start ∧ Leads cll (cp.mmrSize, cp.root) rest target

/-- Walking back stops at the checkpoint that was accepted. -/
theorem walk_here (answering : Answering cll outside witnessId position)
    (grow : committed.Pairwise (fun newer older => older.mmrSize < newer.mmrSize))
    (shrink : ∀ cp ∈ committed, cp.prevSize < cp.mmrSize) {target : Nat × String}
    {cp : CheckpointRecord} {between : List Between} {s : Scene W} {steps : Nat}
    (sorted : Sorted cll committed s.rows)
    (present : Present committed s.rows delivery.allWitnessIds) (member : cp ∈ committed)
    (leads : Leads cll (cp.mmrSize, cp.root) between target) (enough : cp.mmrSize < steps) :
    ∃ found world, Leads cll (cp.mmrSize, cp.root) found target ∧
      position world = position s.world ∧
      delivery.walk cll outside cp.mmrSize cp.root steps cp.mmrSize between s =
        (.ok found, { s with world := world }) := by
  rcases @cutAt_answering cll W outside witnessId position committed delivery answering s sorted
    grow present cp member with ⟨own, cose, world, decoded, still, cut⟩
  have positive := Nat.lt_of_le_of_lt (Nat.zero_le _) (shrink cp member)
  cases steps with
  | zero => exact absurd enough (Nat.not_lt_zero _)
  | succ steps =>
      refine ⟨between, world, leads, still, ?_⟩
      rw [RowDelivery.walk, if_neg (by omega), cut]
      simp only
      rw [decoded]
      simp only [if_true]

/-- Walking back along the chain reaches any checkpoint before it. -/
theorem walk_answering (answering : Answering cll outside witnessId position)
    (grow : committed.Pairwise (fun newer older => older.mmrSize < newer.mmrSize))
    (shrink : ∀ cp ∈ committed, cp.prevSize < cp.mmrSize) {accepted : CheckpointRecord}
    {target : Nat × String} {older : List CheckpointRecord} {cp : CheckpointRecord}
    {between : List Between} {s : Scene W} {steps : Nat}
    (sorted : Sorted cll committed s.rows)
    (present : Present committed s.rows delivery.allWitnessIds)
    (behind : cp :: older <:+ committed) (linked : Succession.Linked Names (cp :: older))
    (member : accepted ∈ cp :: older) (leads : Leads cll (cp.mmrSize, cp.root) between target)
    (enough : cp.mmrSize < steps) : ∃ found world, Leads cll (accepted.mmrSize, accepted.root)
        found target ∧ position world = position s.world ∧
      delivery.walk cll outside accepted.mmrSize accepted.root steps cp.mmrSize between s =
        (.ok found, { s with world := world }) := by
  induction older generalizing cp between s steps with
  | nil =>
      rw [List.mem_singleton.mp member] at *
      exact walk_here answering grow shrink sorted present (behind.mem List.mem_cons_self) leads
        enough
  | cons next older ih =>
      have inside : cp ∈ committed := behind.mem List.mem_cons_self
      by_cases same : accepted = cp
      · rw [same]
        exact walk_here answering grow shrink sorted present inside leads enough
      · have before : accepted ∈ next :: older :=
          (List.mem_cons.mp member).resolve_left same
        have sizes := grow.sublist behind.sublist
        have less : accepted.mmrSize < cp.mmrSize :=
          (List.pairwise_cons.mp sizes).1 accepted before
        rcases @cutAt_answering cll W outside witnessId position committed delivery answering s
          sorted grow present cp inside with ⟨own, cose, world, decoded, still, cut⟩
        have prev : cp.prevSize = next.mmrSize ∧ cp.prevRoot = next.root := linked.1
        cases steps with
        | zero => exact absurd enough (Nat.not_lt_zero _)
        | succ steps =>
            have shorter := shrink cp inside
            rw [prev.1] at shorter
            rcases @ih next (⟨cp.mmrSize, cose, own⟩ :: between) { s with world := world } steps
              sorted present ((List.suffix_cons cp _).trans behind) linked.2 before
              ⟨cp, decoded, Prod.ext prev.1 prev.2, leads⟩
              (Nat.lt_of_lt_of_le shorter (Nat.le_of_lt_succ enough)) with
              ⟨found, last, reached, moved, walked⟩
            refine ⟨found, last, reached, moved.trans still, ?_⟩
            rw [RowDelivery.walk, if_neg (by omega), cut]
            simp only
            rw [decoded]
            simp only
            rw [if_neg (Nat.ne_of_gt less), prev.1]
            exact walked

/-! ## Catching up -/

/-- A witness that is where a chain of items starts accepts all of them. -/
theorem sendBetween_answering (answering : Answering cll outside witnessId position)
    (own : delivery.witnessId = witnessId) {items : List Between} {start target : Nat × String}
    {count : Nat} {s : Scene W} (leads : Leads cll start items target)
    (here : position s.world = some start)
    (closed : ∀ item ∈ items, ∀ row ∈ item.own, row.closed = true) :
    ∃ sent s', delivery.sendBetween outside items count s = (.ok sent, s') ∧ s'.rows = s.rows ∧
      position s'.world = some target := by
  induction items generalizing start count s with
  | nil => exact ⟨count, s, rfl, rfl, here.trans (congrArg some leads)⟩
  | cons item rest ih =>
      rcases leads with ⟨cp, decoded, rfl, leads⟩
      have accepted := answering.accepts item.cose cp s.world decoded
        (by rw [here]; exact decide_eq_true rfl)
      rcases accepted with ⟨⟨receipt, answer⟩, moved⟩
      have notDue : item.own.filter (fun row => row.receipt.isNone && !row.permanent) = none := by
        rw [Option.filter_eq_none_iff]
        intro row inside due
        rw [Bool.and_eq_true, Option.isNone_iff_eq_none, Bool.not_eq_true'] at due
        have opened := opened_of_failed due.1 due.2
        rw [closed item List.mem_cons_self row inside] at opened
        cases opened
      rw [RowDelivery.sendBetween, submit, own, answer]
      simp only
      rw [notDue]
      exact ih leads moved (fun item inside => closed item (List.mem_cons_of_mem _ inside))

/-- A witness at a committed checkpoint before a row is caught up to the one before the row. -/
theorem catchUp_answering (answering : Answering cll outside witnessId position)
    (own : delivery.witnessId = witnessId)
    (linked : Succession.Linked Names committed)
    (grow : committed.Pairwise (fun newer older => older.mmrSize < newer.mmrSize))
    (shrink : ∀ cp ∈ committed, cp.prevSize < cp.mmrSize) {row : WitnessState}
    {cp accepted : CheckpointRecord} {s : Scene W} (sorted : Sorted cll committed s.rows)
    (present : Present committed s.rows delivery.allWitnessIds)
    (below : ClosedBelow s.rows delivery.witnessId cp.mmrSize)
    (decoded : cll.decode row.checkpoint = some cp) (member : cp ∈ committed)
    (before : accepted ∈ committed) (less : accepted.mmrSize < cp.mmrSize)
    (here : position s.world = some (accepted.mmrSize, accepted.root)) :
    ∃ sent s', delivery.catchUp cll outside row accepted.mmrSize accepted.root s = (.ok sent, s') ∧
      s'.rows = s.rows ∧ position s'.world = some (cp.prevSize, cp.prevRoot) := by
  rcases List.mem_iff_append.mp member with ⟨newer, older, split⟩
  have parts := List.pairwise_append.mp (split ▸ grow)
  have behind : accepted ∈ older := by
    rcases List.mem_append.mp (split ▸ before) with new | old
    · exact absurd less (Nat.lt_asymm (parts.2.2 accepted new cp List.mem_cons_self))
    · rcases List.mem_cons.mp old with rfl | earlier
      · exact absurd less (Nat.lt_irrefl _)
      · exact earlier
  have names := (Succession.Linked.older (split ▸ linked : Succession.Linked Names
    (newer ++ cp :: older)))
  cases older with
  | nil => cases behind
  | cons next older =>
      have prev : cp.prevSize = next.mmrSize ∧ cp.prevRoot = next.root := names.1
      have suffix : next :: older <:+ committed :=
        ⟨newer ++ [cp], by rw [split, List.append_assoc]; rfl⟩
      rcases @walk_answering cll W outside witnessId position committed delivery answering grow
        shrink accepted (next.mmrSize, next.root) older next [] s (cp.prevSize + 1) sorted present
        suffix names.2 behind rfl (by rw [prev.1]; exact Nat.lt_succ_self _) with
        ⟨found, world, leads, still, walked⟩
      have closed := (@walk_advances cll committed W outside delivery answering.disciplined
        accepted.mmrSize cp.mmrSize accepted.root shrink (cp.prevSize + 1) cp.prevSize [] s sorted
        below (shrink cp member) (fun _ none => by cases none)).2
      rw [prev.1] at closed
      rw [prev.1] at walked
      rw [walked] at closed
      rw [RowDelivery.catchUp, decoded]
      simp only
      rw [prev.1, walked]
      rw [prev.2]
      exact @sendBetween_answering cll W outside witnessId position delivery answering own found
        (accepted.mmrSize, accepted.root) (next.mmrSize, next.root) 0 { s with world := world }
        leads (still.trans here) (fun item inside => (closed found rfl item inside).2.2)

/-! ## The front of a queue -/

theorem closeAhead_suffix (accepted : Nat) (queue : List Nat) (s : Scene W) :
    (delivery.closeAhead outside accepted queue s).1.2 <:+ queue := by
  induction queue generalizing s with
  | nil => exact List.suffix_rfl
  | cons size queue ih =>
      have shorter : queue <:+ size :: queue := List.suffix_cons size queue
      rw [RowDelivery.closeAhead]
      split
      · exact List.suffix_rfl
      · split
        · exact List.suffix_rfl
        · exact (ih _).trans shorter
        · split
          · exact List.suffix_rfl
          · split
            · split
              · exact List.suffix_rfl
              · exact (ih _).trans shorter
            · exact (ih _).trans shorter

/-- A row that is open and does not hold its witness is due. -/
theorem due_of_open {row : WitnessState} (opened : row.closed = false) (free : row.holds = false) :
    row.receipt = none ∧ row.permanent = false := by
  rw [WitnessState.closed, Bool.or_eq_false_iff, Option.isSome_eq_false_iff,
    Option.isNone_iff_eq_none] at opened
  rw [WitnessState.holds, opened.1, opened.2, Option.isNone_none, Bool.and_true, Bool.not_false,
    Bool.and_true] at free
  exact ⟨opened.1, free⟩

theorem closeAhead_front (answering : Answering cll outside witnessId position)
    {accepted size : Nat} {rest : List Nat} {row : WitnessState} {s : Scene W}
    (found : findRow s.rows delivery.witnessId size = some row) (opened : row.closed = false)
    (free : row.holds = false) (ahead : size ≤ accepted) :
    (delivery.closeAhead outside accepted (size :: rest) s).1.2 <:+ rest := by
  have due := due_of_open opened free
  have key := findRow_eq_some found
  rcases getWitness_answering answering delivery.witnessId size s with ⟨world, -, answer⟩
  have wrote := (commit_rows answering delivery row none true
    (some (witnessAhead ++ toString accepted)) { s with world := world }).2.2.2
    (by rw [(mem_ownRows.mp key.1).2, key.2]; exact found)
  rw [RowDelivery.closeAhead, if_neg (Nat.not_lt.mpr ahead), answer, found]
  simp only
  rw [free, due.1, due.2, if_neg Bool.false_ne_true, if_pos (by rfl)]
  split
  · next written =>
      rw [written] at wrote
      cases wrote
  · exact closeAhead_suffix accepted rest _

/-- The chain of the committed checkpoints. -/
structure Grown (committed : List CheckpointRecord) : Prop where
  linked : Succession.Linked Names committed
  grow : committed.Pairwise (fun newer older => older.mmrSize < newer.mmrSize)
  shrink : ∀ cp ∈ committed, cp.prevSize < cp.mmrSize

/-- A witness is nowhere, or at a committed checkpoint. -/
def Placed (committed : List CheckpointRecord) (at' : Option (Nat × String)) : Prop :=
  at' = none ∨ ∃ cp ∈ committed, at' = some (cp.mmrSize, cp.root)

/-- A pass may start, or go on: the queue has the open rows, none of which holds, every
committed checkpoint can be read, and the witness is at one of them. -/
structure Ready (cll : Cll) (committed : List CheckpointRecord) {W : Type u}
    (position : W → Option (Nat × String)) (delivery : RowDelivery) (known : Nat)
    (queue : List Nat) (s : Scene W) : Prop where
  sorted : Sorted cll committed s.rows
  covered : Covered s.rows delivery.witnessId known queue
  free : Free s.rows delivery.witnessId
  present : Present committed s.rows delivery.allWitnessIds
  placed : Placed committed (position s.world)

/-- A witness that accepts the front takes it off the queue. -/
theorem sendFront_accepted (answering : Answering cll outside witnessId position)
    (own : delivery.witnessId = witnessId) {size : Nat} {rest : List Nat} {row : WitnessState}
    {cp : CheckpointRecord} {round : Round} {s : Scene W}
    (found : findRow s.rows delivery.witnessId size = some row)
    (decoded : cll.decode row.checkpoint = some cp)
    (willing : Continuity.accepts (position s.world) (link cp) = true) :
    (delivery.sendFront cll outside size rest row round s).1 =
      { round with queue := rest, recorded := true } := by
  have key := findRow_eq_some found
  rcases (answering.accepts row.checkpoint cp s.world decoded willing).1 with ⟨receipt, answer⟩
  have wrote := (commit_rows answering delivery row (some (receiptFor receipt)) false none
    (submit outside delivery.witnessId row.checkpoint s).2).2.2.2
    (by rw [(mem_ownRows.mp key.1).2, key.2]; exact found)
  rw [RowDelivery.sendFront]
  simp only [submit, own, answer] at wrote ⊢
  split
  · next written =>
      rw [written] at wrote
      cases wrote
  · rfl

/-- What a turn of a ready pass comes to: the front is off the queue, or the witness was caught
up to the checkpoint before the front. -/
theorem turn_answering (answering : Answering cll outside witnessId position)
    (own : delivery.witnessId = witnessId) (grown : Grown committed) {known size : Nat}
    {rest : List Nat} {round : Round} {s : Scene W}
    (ready : Ready cll committed position delivery known round.queue s)
    (front : round.queue = size :: rest) (notYet : round.caughtUp = false) :
    (delivery.turn cll outside size rest round s).1.queue <:+ rest ∨
      (delivery.turn cll outside size rest round s).1 = { round with caughtUp := true } ∧
      (delivery.turn cll outside size rest round s).2.rows = s.rows ∧
      ∃ row cp, findRow s.rows delivery.witnessId size = some row ∧
        cll.decode row.checkpoint = some cp ∧ row.closed = false ∧ row.permanent = false ∧
        position (delivery.turn cll outside size rest round s).2.world =
          some (cp.prevSize, cp.prevRoot) := by
  rcases getWitness_answering answering delivery.witnessId size s with ⟨world, still, answer⟩
  rw [RowDelivery.turn, answer]
  cases found : findRow s.rows delivery.witnessId size with
  | none => exact Or.inl List.suffix_rfl
  | some row =>
      simp only
      have key := findRow_eq_some found
      have inside := (mem_ownRows.mp key.1).1
      cases opened : row.closed with
      | true =>
          rw [if_pos rfl]
          exact Or.inl List.suffix_rfl
      | false =>
          have free := ready.free row inside (mem_ownRows.mp key.1).2
          have due := due_of_open opened free
          rw [if_neg Bool.false_ne_true, due.2, if_neg Bool.false_ne_true]
          rcases ready.sorted.carried row inside with ⟨cp, member, decoded, covers⟩
          rw [key.2] at covers
          cases willing : Continuity.accepts (position world) (link cp) with
          | true =>
              have sent := @sendFront_accepted cll W outside witnessId position delivery answering
                own size rest row cp round { s with world := world } found decoded willing
              rw [sent]
              exact Or.inl List.suffix_rfl
          | false =>
              rcases ready.placed with nowhere | ⟨accepted, before, here⟩
              · rw [still, nowhere] at willing
                cases willing
              · have there := still.trans here
                rw [there] at willing
                rcases answering.refuses row.checkpoint cp world _ decoded there willing with
                  ⟨⟨text, refused⟩, moved⟩
                rw [RowDelivery.sendFront, submit, own, refused]
                simp only
                rw [RowDelivery.afterRefusal]
                by_cases ahead : size ≤ accepted.mmrSize
                · rw [if_pos ahead]
                  rcases @holds_answering cll W outside witnessId position committed delivery
                    answering { s with
                      world := (outside.submit witnessId row.checkpoint world).2
                      sent := ⟨witnessId, row.checkpoint, s.rows⟩ :: s.sent } ready.sorted
                    grown.grow ready.present accepted before with ⟨last, -, held⟩
                  rw [held]
                  left
                  simp only
                  rw [front]
                  exact @closeAhead_front cll W outside witnessId position delivery answering
                    accepted.mmrSize size rest row { s with
                      world := last
                      sent := ⟨witnessId, row.checkpoint, s.rows⟩ :: s.sent } found opened free ahead
                · have covered := ready.covered
                  rw [front] at covered
                  have below := covered.closedBelow
                  rw [if_neg ahead, notYet, if_neg Bool.false_ne_true]
                  rw [← covers] at ahead below
                  rcases @catchUp_answering cll W outside witnessId position committed delivery
                    answering own grown.linked grown.grow grown.shrink row cp accepted { s with
                      world := (outside.submit witnessId row.checkpoint world).2
                      sent := ⟨witnessId, row.checkpoint, s.rows⟩ :: s.sent } ready.sorted
                    ready.present below decoded member before (Nat.lt_of_not_le ahead)
                    (moved.trans there) with ⟨count, s', caught, same, reached⟩
                  rw [caught]
                  exact Or.inr ⟨rfl, same, row, cp, rfl, decoded, opened, due.2, reached⟩

/-- A pass takes the front off the queue of a witness that answers. -/
theorem run_shortens (answering : Answering cll outside witnessId position)
    (own : delivery.witnessId = witnessId) (grown : Grown committed) {known size : Nat}
    {rest : List Nat} {rounds : Nat} {s : Scene W}
    (ready : Ready cll committed position delivery known (size :: rest) s) :
    (delivery.run cll outside (rounds + 2) ⟨true, size :: rest, false, false⟩ s).1.2 <:+ rest := by
  have fair := answering.disciplined
  have turned := @turn_worked cll committed W outside delivery fair grown.shrink known size rest
    ⟨true, size :: rest, false, false⟩ s ready.sorted rfl ready.covered
  rw [RowDelivery.run]
  simp only
  rcases @turn_answering cll W outside witnessId position committed delivery answering own grown
    known size rest ⟨true, size :: rest, false, false⟩ s ready rfl rfl with
    shorter | ⟨same, rows, row, cp, found, decoded, opened, free, here⟩
  · split
    · have going := @run_worked cll committed W outside delivery fair grown.shrink known
        (rounds + 1) _ _ (ready.sorted.onward turned.advances.onward) turned.covered
      exact going.suffix.trans shorter
    · exact shorter
  · rw [same] at turned ⊢
    simp only [if_true]
    generalize (delivery.turn cll outside size rest ⟨true, size :: rest, false, false⟩ s).2 = t
      at turned rows here
    rw [RowDelivery.run]
    simp only
    have sorted := ready.sorted.onward turned.advances.onward
    have again := @turn_worked cll committed W outside delivery fair grown.shrink known size rest
      ⟨true, size :: rest, true, false⟩ t sorted rfl turned.covered
    -- The witness is at the checkpoint before the front, so it accepts the front.
    have accepted : (delivery.turn cll outside size rest ⟨true, size :: rest, true, false⟩ t).1 =
        ⟨true, rest, true, true⟩ := by
      rcases getWitness_answering answering delivery.witnessId size t with ⟨world, still, answer⟩
      rw [← rows] at found
      rw [RowDelivery.turn, answer, found]
      simp only
      rw [opened, free, if_neg Bool.false_ne_true, if_neg Bool.false_ne_true]
      refine @sendFront_accepted cll W outside witnessId position delivery answering own size rest
        row cp _ { t with world := world } found decoded ?_
      rw [still.trans here]
      exact decide_eq_true rfl
    rw [accepted] at again ⊢
    simp only [if_true]
    exact (@run_worked cll committed W outside delivery fair grown.shrink known rounds _ _
      (sorted.onward again.advances.onward) again.covered).suffix

/-! ## Every witness -/

/-- What a pass over any witness leaves as it is for one that answers. -/
structure Stands (cll : Cll) (committed : List CheckpointRecord) {W : Type u}
    (position : W → Option (Nat × String)) (witnessId : String) (allWitnessIds : List String)
    (s : Scene W) : Prop where
  sorted : Sorted cll committed s.rows
  sent : ∀ item ∈ s.sent, InTurn cll committed item
  free : Free s.rows witnessId
  present : Present committed s.rows allWitnessIds
  placed : Placed committed (position s.world)

theorem run_stands (answering : Answering cll outside witnessId position)
    (grown : Grown committed) {known rounds : Nat} {round : Round} {allWitnessIds : List String}
    {s : Scene W} (stands : Stands cll committed position witnessId allWitnessIds s)
    (covered : Covered s.rows delivery.witnessId known round.queue) :
    Stands cll committed position witnessId allWitnessIds
      (delivery.run cll outside rounds round s).2 := by
  have worked := @run_worked cll committed W outside delivery answering.disciplined grown.shrink
    known rounds round s stands.sorted covered
  have effects := @Effects.run cll W outside delivery s s (Effects.still s) rounds round
  have sent : ∀ item ∈ (delivery.run cll outside rounds round s).2.sent,
      InTurn cll committed item := by
    rcases worked.advances.sent with ⟨more, grew, turn⟩
    intro item inside
    rw [grew] at inside
    rcases List.mem_append.mp inside with new | old
    · exact turn item new
    · exact stands.sent item old
  refine ⟨stands.sorted.onward worked.advances.onward, sent, effects.free answering stands.free,
    fun cp member => ?_, ?_⟩
  · rcases stands.present cp member with ⟨row, inside, sized, owned⟩
    rcases (exists_of_forall₂_keep worked.advances.onward.keep).1 row inside with ⟨next, there, kept⟩
    exact ⟨next, there, kept.size.trans sized, kept.witness ▸ owned⟩
  · rcases effects.placed answering with still | ⟨item, inside, cp, decoded, there⟩
    · rw [still]
      exact stands.placed
    · rcases sent item inside with ⟨size, ⟨other, member, decoded', -⟩, -⟩
      cases decoded.symm.trans decoded'
      exact Or.inr ⟨cp, member, there⟩

/-- A pass over every witness takes the front off the queue of one that answers, and leaves it
answering. -/
theorem deliverWitnessRows_shortens (answering : Answering cll outside witnessId position)
    (grown : Grown committed) {latest : Option CheckpointRecord} {allWitnessIds : List String}
    {cadenceSeconds rounds known : Nat} {queues : List (String × List Nat)} {s : Scene W}
    (stands : Stands cll committed position witnessId allWitnessIds s)
    (covered : AllCovered s.rows known queues) :
    Stands cll committed position witnessId allWitnessIds (deliverWitnessRows cll outside latest
        allWitnessIds cadenceSeconds (rounds + 2) queues s).2 ∧
      ∀ queue, (witnessId, queue) ∈ queues → ∃ left, (witnessId, left) ∈ (deliverWitnessRows cll
        outside latest allWitnessIds cadenceSeconds (rounds + 2) queues s).1.2 ∧
        left.length ≤ queue.length - 1 := by
  induction queues generalizing s with
  | nil => exact ⟨stands, fun _ none => by cases none⟩
  | cons item rest ih =>
      rcases item with ⟨owner, queue⟩
      have here := covered (owner, queue) List.mem_cons_self
      have there : AllCovered s.rows known rest :=
        fun item inside => covered item (List.mem_cons_of_mem _ inside)
      rw [deliverWitnessRows]
      split
      · have worked := @run_worked cll committed W outside
          ⟨owner, latest, allWitnessIds, cadenceSeconds⟩ answering.disciplined grown.shrink known
          (rounds + 2) ⟨true, queue, false, false⟩ s stands.sorted here
        have later := ih (@run_stands cll W outside witnessId position committed
          ⟨owner, latest, allWitnessIds, cadenceSeconds⟩ answering grown known (rounds + 2)
          ⟨true, queue, false, false⟩ allWitnessIds s stands here)
          (there.onward worked.advances.onward)
        refine ⟨later.1, fun queue' inside => ?_⟩
        rcases List.mem_cons.mp inside with same | behind
        · cases same
          refine ⟨_, List.mem_cons_self, ?_⟩
          cases queue with
          | nil => exact Nat.le_of_eq (congrArg List.length (List.suffix_nil.mp worked.suffix))
          | cons size queue =>
              exact (@run_shortens cll W outside witnessId position committed
                ⟨witnessId, latest, allWitnessIds, cadenceSeconds⟩ answering rfl grown known size
                queue rounds s ⟨stands.sorted, here, stands.free, stands.present,
                  stands.placed⟩).length_le
        · rcases later.2 queue' behind with ⟨left, inside, shorter⟩
          exact ⟨left, List.mem_cons_of_mem _ inside, shorter⟩
      · next unreachable =>
          have later := ih stands there
          refine ⟨later.1, fun queue' inside => ?_⟩
          rcases List.mem_cons.mp inside with same | behind
          · cases same
            exact absurd answering.reachable unreachable
          · rcases later.2 queue' behind with ⟨left, inside, shorter⟩
            exact ⟨left, List.mem_cons_of_mem _ inside, shorter⟩

/-! ## Passes -/

/-- The rows and the witness, as passes leave them, and how long its queue is at most. -/
structure Draining (cll : Cll) {W : Type u} (position : W → Option (Nat × String))
    (witnessId : String) (live : CheckpointState) (length : Nat) (s : State W) : Prop where
  inv : Inv cll s
  running : s.cutting.live = some live
  stands : Stands cll s.cutting.disk.committed position witnessId s.witnesses.rowWitnessIds s.scene
  queued : ∃ queue, (witnessId, queue) ∈ s.witnesses.witnessQueues ∧ queue.length ≤ length

theorem Inv.grown {s : State W} (inv : Inv cll s) : Grown s.cutting.disk.committed :=
  ⟨inv.cutting.kept.chained.linked, inv.cutting.kept.chained.grow, inv.shrink⟩

theorem retry_draining (answering : Answering cll outside witnessId position) {s : State W}
    {live : CheckpointState} {length rounds : Nat}
    (draining : Draining cll position witnessId live length s) :
    Draining cll position witnessId live (length - 1)
      (step cll outside s (.retryPendingWitnesses (rounds + 2))).2 := by
  have shortens := @deliverWitnessRows_shortens cll W outside witnessId position
    s.cutting.disk.committed answering draining.inv.grown live.substrate.lastCheckpoint
    s.witnesses.rowWitnessIds s.witnesses.cadenceSeconds rounds (knownSize live)
    s.witnesses.witnessQueues s.scene draining.stands (draining.inv.queued live draining.running)
  simp only [step, draining.running]
  refine ⟨deliver_inv answering.disciplined draining.inv draining.running (rounds + 2),
    draining.running, shortens.1, ?_⟩
  rcases draining.queued with ⟨queue, inside, bound⟩
  rcases shortens.2 queue inside with ⟨left, there, shorter⟩
  exact ⟨left, there, Nat.le_trans shorter (Nat.sub_le_sub_right bound 1)⟩

theorem retries_draining (answering : Answering cll outside witnessId position) {s : State W}
    {live : CheckpointState} {length rounds : Nat}
    (draining : Draining cll position witnessId live length s) :
    Draining cll position witnessId live 0 (Machine.after (step cll outside) s
      (List.replicate length (.retryPendingWitnesses (rounds + 2)))) := by
  induction length generalizing s with
  | zero => exact draining
  | succ length ih => exact ih (retry_draining answering draining)

end

/-! ### One pass over one row -/

theorem sampleOutside_answering : Answering sampleCll sampleOutside "https://witness" id where
  reachable := rfl
  accepts := by
    intro bytes cp world decoded willing
    simp only [sampleOutside, decoded, id_eq] at willing ⊢
    cases world with
    | none => exact ⟨⟨_, rfl⟩, rfl⟩
    | some last =>
        have same : (cp.prevSize, cp.prevRoot) = last := of_decide_eq_true willing
        simp only [same, if_true]
        exact ⟨⟨_, rfl⟩, trivial⟩
  refuses := by
    intro bytes cp world last decoded here unwilling
    have differ : (cp.prevSize, cp.prevRoot) ≠ last := of_decide_eq_false unwilling
    simp only [sampleOutside, decoded, show world = some last from here, if_neg differ, if_true]
    exact ⟨⟨_, rfl⟩, trivial⟩
  moves := by
    intro bytes world
    cases decoded : sampleCll.decode bytes with
    | none => exact Or.inl (by simp only [sampleOutside, decoded, if_true])
    | some cp =>
        cases world with
        | none => exact Or.inr ⟨cp, rfl, by simp only [sampleOutside, decoded, if_true, id_eq]⟩
        | some last =>
            by_cases same : (cp.prevSize, cp.prevRoot) = last
            · exact Or.inr ⟨cp, rfl, by simp only [sampleOutside, decoded, if_pos same, if_true, id_eq]⟩
            · exact Or.inl (by simp only [sampleOutside, decoded, if_neg same, if_true])
  others := by
    intro owner bytes world other
    simp only [sampleOutside, if_neg other]
  alone := fun _ _ => ⟨rfl, rfl⟩
  reads := fun _ => ⟨rfl, rfl⟩
  writes := fun _ => ⟨rfl, rfl⟩
  now := fun _ => rfl

end Delivery
end Substrate
end Checkpointing
end CapsuleEmit
