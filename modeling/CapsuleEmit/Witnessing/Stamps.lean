import CapsuleEmit.Foundation.Continuity

namespace CapsuleEmit
namespace Witnessing

/-!
# Checkpoint stamps in a ledger

A ledger is an append-only list of lines.  A checkpoint is persisted as a stamp
with the witnesses that confirmed it at first and, if it could be built, its
wire form.  A confirmation that arrives later is a backfill line of its own.
The effective witnesses of a stamp are both together, and what a witness has
not confirmed is read from the ledger each time.
-/

/-- A witness's confirmation of a checkpoint. -/
structure WitnessRecord where
  tsUrl : String
  receipt : String
  deriving DecidableEq

/-- A size of the log and the root over it. -/
structure Position where
  mmrSize : Nat
  root : String
  deriving DecidableEq

/-- A signed checkpoint with the confirmations it was persisted with. -/
structure Checkpoint where
  logId : String
  mmrSize : Nat
  root : String
  prevSize : Nat
  prevRoot : String
  timestamp : String
  keyId : String
  signature : String
  witnesses : List WitnessRecord
  deriving DecidableEq

/-- Where a checkpoint starts and where it leads. -/
def Checkpoint.link (cp : Checkpoint) : Continuity.Link Position :=
  ⟨⟨cp.prevSize, cp.prevRoot⟩, ⟨cp.mmrSize, cp.root⟩⟩

/-- The line ids, which other packages compute. -/
structure Digests where
  entryDigest : Checkpoint → String
  backfillId : String → WitnessRecord → String

/-- A ledger line: a checkpoint stamp, a late confirmation, or anything else. -/
inductive Entry where
  | checkpointStamp (capsuleId : String) (checkpoint : Checkpoint) (checkpointCose : Option String)
  | witnessBackfill (capsuleId checkpointEntryDigest : String) (witness : WitnessRecord)
  | other (capsuleId content : String)
  deriving DecidableEq

/-- Append a line, unless an identical one is there. -/
def appendToLedger (entry : Entry) (ledger : List Entry) : List Entry :=
  if entry ∈ ledger then ledger else ledger ++ [entry]

/-- Append a line if the write succeeds.  A failed one, for whatever reason the
ledger has to refuse it, is only warned of. -/
def persist (stored : Bool) (entry : Entry) (ledger : List Entry) : List Entry :=
  if stored then appendToLedger entry ledger else ledger

/-! ## Reading the stamps -/

/-- A stamp line. -/
structure Stamp where
  entryDigest : String
  checkpoint : Checkpoint
  checkpointCose : Option String

/-- A stamp with its effective witnesses; of two with one URL the last counts. -/
structure CheckpointWitnessState where
  entryDigest : String
  checkpoint : Checkpoint
  effectiveWitnesses : List WitnessRecord
  checkpointCoseHex : Option String

/-- A stamp is recorded as confirmed by a witness. -/
def CheckpointWitnessState.confirmedBy (state : CheckpointWitnessState) (url : String) : Bool :=
  state.effectiveWitnesses.any (fun witness => witness.tsUrl = url)

/-- The stamp a line carries. -/
def Entry.stamp? : Entry → Option Stamp
  | .checkpointStamp digest checkpoint cose => some ⟨digest, checkpoint, cose⟩
  | _ => none

/-- The late confirmation a line carries, and the stamp it is for. -/
def Entry.backfill? : Entry → Option (String × WitnessRecord)
  | .witnessBackfill _ digest witness => some (digest, witness)
  | _ => none

/-- The stamps of a ledger, in order. -/
def stamps (ledger : List Entry) : List Stamp := ledger.filterMap Entry.stamp?

/-- The late confirmations of a stamp, in order. -/
def backfills (ledger : List Entry) (digest : String) : List WitnessRecord :=
  ((ledger.filterMap Entry.backfill?).filter (fun late => late.1 = digest)).map Prod.snd

/-- The last stamp with a digest. -/
def lastStamp (ledger : List Entry) (stamp : Stamp) : Stamp :=
  ((stamps ledger).reverse.find? (fun other => other.entryDigest = stamp.entryDigest)).getD stamp

/-- Every stamp of a ledger, in order, with its effective witnesses. -/
def checkpointWitnessStates (ledger : List Entry) : List CheckpointWitnessState :=
  (stamps ledger).map (fun stamp =>
    let last := lastStamp ledger stamp
    { entryDigest := stamp.entryDigest
      checkpoint := last.checkpoint
      effectiveWitnesses := last.checkpoint.witnesses ++ backfills ledger stamp.entryDigest
      checkpointCoseHex := last.checkpointCose })

/-- The stamps a witness has not confirmed. -/
def backlog (url : String) (states : List CheckpointWitnessState) : List CheckpointWitnessState :=
  states.filter (fun state => !state.confirmedBy url)

/-- For each witness the checkpoints it has not confirmed, oldest first. -/
def checkpointWitnessBacklog (ledger : List Entry) (urls : List String) :
    List (String × List Checkpoint) :=
  urls.map (fun url =>
    (url, (backlog url (checkpointWitnessStates ledger)).map (fun state => state.checkpoint)))

/-- The newest persisted checkpoint, if it is of the given log. -/
def lastPersistedCheckpoint (ledger : List Entry) (logId : String) : Option Checkpoint :=
  match (checkpointWitnessStates ledger).getLast? with
  | some state => if state.checkpoint.logId = logId then some state.checkpoint else none
  | none => none

/-! ## Recorded confirmations -/

/-- A ledger records a stamp as confirmed by a witness. -/
def Confirmed (ledger : List Entry) (url digest : String) : Prop :=
  ∃ state ∈ checkpointWitnessStates ledger,
    state.entryDigest = digest ∧ state.confirmedBy url = true

/-- A line with a late confirmation. -/
def backfillEntry (digests : Digests) (cp : Checkpoint) (witness : WitnessRecord) : Entry :=
  .witnessBackfill (digests.backfillId (digests.entryDigest cp) witness) (digests.entryDigest cp)
    witness

/-- Record a confirmation that arrived after the stamp. -/
def persistWitnessBackfill (digests : Digests) (stored : Bool) (cp : Checkpoint)
    (witness : WitnessRecord) (ledger : List Entry) : List Entry :=
  persist stored (backfillEntry digests cp witness) ledger

/-- A write leaves the ledger, or adds the line at its end. -/
theorem persist_eq (stored : Bool) (entry : Entry) (ledger : List Entry) :
    persist stored entry ledger = ledger ∨ persist stored entry ledger = ledger ++ [entry] := by
  unfold persist appendToLedger
  split_ifs <;> simp

@[simp] theorem stamps_backfill (digests : Digests) (ledger : List Entry) (cp : Checkpoint)
    (witness : WitnessRecord) :
    stamps (ledger ++ [backfillEntry digests cp witness]) = stamps ledger := by
  simp [stamps, backfillEntry, Entry.stamp?]

theorem backfills_backfill (digests : Digests) (ledger : List Entry) (cp : Checkpoint)
    (witness : WitnessRecord) (digest : String) :
    backfills (ledger ++ [backfillEntry digests cp witness]) digest =
      backfills ledger digest ++
        (if digests.entryDigest cp = digest then [witness] else []) := by
  rw [backfills, backfills, List.filterMap_append, List.filter_append, List.map_append]
  by_cases same : digests.entryDigest cp = digest
  · simp [backfillEntry, Entry.backfill?, same]
  · simp [backfillEntry, Entry.backfill?, same]

/-- A state with a late confirmation, if it is for its stamp. -/
def CheckpointWitnessState.withLate (state : CheckpointWitnessState) (digest : String)
    (witness : WitnessRecord) : CheckpointWitnessState :=
  { state with
    effectiveWitnesses := state.effectiveWitnesses ++
      (if digest = state.entryDigest then [witness] else []) }

theorem CheckpointWitnessState.confirmedBy_withLate {state : CheckpointWitnessState}
    {digest : String} {witness : WitnessRecord} {url : String} :
    (state.withLate digest witness).confirmedBy url = true ↔
      state.confirmedBy url = true ∨ (witness.tsUrl = url ∧ digest = state.entryDigest) := by
  by_cases same : digest = state.entryDigest
  · simp [confirmedBy, withLate, same]
  · simp [confirmedBy, withLate, same]

/-- A late confirmation adds a witness to the states of its stamp. -/
theorem states_backfill (digests : Digests) (ledger : List Entry) (cp : Checkpoint)
    (witness : WitnessRecord) :
    checkpointWitnessStates (ledger ++ [backfillEntry digests cp witness]) =
      (checkpointWitnessStates ledger).map
        (fun state => state.withLate (digests.entryDigest cp) witness) := by
  rw [checkpointWitnessStates, checkpointWitnessStates, List.map_map, stamps_backfill]
  apply List.map_congr_left
  intro stamp _
  simp only [Function.comp_apply, CheckpointWitnessState.withLate, backfills_backfill, lastStamp,
    stamps_backfill, List.append_assoc]

/-- A line of a ledger counts for the states of its stamp. -/
theorem confirmed_of_mem {digests : Digests} {ledger : List Entry} {cp : Checkpoint}
    {witness : WitnessRecord} (listed : backfillEntry digests cp witness ∈ ledger)
    (stamped : digests.entryDigest cp ∈ (stamps ledger).map Stamp.entryDigest) :
    Confirmed ledger witness.tsUrl (digests.entryDigest cp) := by
  obtain ⟨stamp, member, same⟩ := List.mem_map.mp stamped
  have late : witness ∈ backfills ledger stamp.entryDigest := by
    rw [backfills, List.mem_map]
    refine ⟨(digests.entryDigest cp, witness), ?_, rfl⟩
    rw [List.mem_filter, List.mem_filterMap]
    exact ⟨⟨_, listed, rfl⟩, decide_eq_true same.symm⟩
  refine ⟨_, List.mem_map_of_mem member, same, ?_⟩
  rw [CheckpointWitnessState.confirmedBy, List.any_eq_true]
  exact ⟨witness, List.mem_append_right _ late, decide_eq_true rfl⟩

/-- After a write of a late confirmation a stamp is confirmed as before, or by
the witness of the line. -/
theorem confirmed_persist_iff {digests : Digests} {stored : Bool} {ledger : List Entry}
    {cp : Checkpoint} {witness : WitnessRecord} {url digest : String} :
    Confirmed (persistWitnessBackfill digests stored cp witness ledger) url digest ↔
      Confirmed ledger url digest ∨ (stored = true ∧ witness.tsUrl = url ∧
        digests.entryDigest cp = digest ∧ digest ∈ (stamps ledger).map Stamp.entryDigest) := by
  unfold persistWitnessBackfill persist appendToLedger
  split_ifs with written listed
  · constructor
    · exact Or.inl
    · intro confirmed
      rcases confirmed with confirmed | ⟨-, rfl, rfl, stamped⟩
      · exact confirmed
      · exact confirmed_of_mem listed stamped
  · constructor
    · intro confirmed
      obtain ⟨late, member, rfl, found⟩ := confirmed
      rw [states_backfill] at member
      obtain ⟨state, known, rfl⟩ := List.mem_map.mp member
      rcases CheckpointWitnessState.confirmedBy_withLate.mp found with found | ⟨same, is⟩
      · exact Or.inl ⟨state, known, rfl, found⟩
      · obtain ⟨stamp, stamped, rfl⟩ := List.mem_map.mp known
        exact Or.inr ⟨written, same, is, List.mem_map_of_mem stamped⟩
    · intro confirmed
      rcases confirmed with ⟨state, member, rfl, found⟩ | ⟨-, named, rfl, stamped⟩
      · refine ⟨state.withLate (digests.entryDigest cp) witness, ?_, rfl,
          CheckpointWitnessState.confirmedBy_withLate.mpr (Or.inl found)⟩
        rw [states_backfill]
        exact List.mem_map_of_mem member
      · rw [← named]
        apply confirmed_of_mem (List.mem_append_right _ (List.mem_singleton.mpr rfl))
        rw [stamps_backfill]
        exact stamped
  · constructor
    · exact Or.inl
    · intro confirmed
      rcases confirmed with confirmed | ⟨stored', -⟩
      · exact confirmed
      · exact absurd stored' written

theorem confirmed_persist {digests : Digests} {stored : Bool} {ledger : List Entry}
    {cp : Checkpoint} {witness : WitnessRecord} {url digest : String}
    (confirmed : Confirmed (persistWitnessBackfill digests stored cp witness ledger) url digest) :
    Confirmed ledger url digest ∨ (witness.tsUrl = url ∧ digests.entryDigest cp = digest) := by
  rcases confirmed_persist_iff.mp confirmed with before | ⟨-, named, is, -⟩
  · exact Or.inl before
  · exact Or.inr ⟨named, is⟩

/-- A recorded confirmation stays recorded when a late one is written. -/
theorem Confirmed.persist {digests : Digests} {stored : Bool} {ledger : List Entry}
    {cp : Checkpoint} {witness : WitnessRecord} {url digest : String}
    (confirmed : Confirmed ledger url digest) :
    Confirmed (persistWitnessBackfill digests stored cp witness ledger) url digest :=
  confirmed_persist_iff.mpr (Or.inl confirmed)

end Witnessing
end CapsuleEmit
