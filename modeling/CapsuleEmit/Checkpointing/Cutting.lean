import CapsuleEmit.Checkpointing.Substrate
import CapsuleEmit.RustLedger.Line

namespace CapsuleEmit
namespace Checkpointing
namespace Substrate

/-!
# Cutting checkpoints on a log that grows

The entries of a log are folded into the substrate, and a checkpoint is cut on
the clock.  With a padding sink the log is first padded to a multiple of a
bucket and what was written is folded; records that land behind the padding are
folded with it but wait for the next checkpoint.

A process may stop at any point and open the log again.
-/

/-! ## The checkpoint state -/

inductive CheckpointStateError where
  | log
  | padding
  | badCapsuleId
  | noSigner
  | nodeStoreAheadOfLedger (storedLeaves ledgerLeaves : Nat)
  | paddingNotFolded (paddedTo folded : Nat)
  | checkpoint (err : SubstrateError)

/-- `CheckpointState` over a log; whether entries are pending since some instant, and whether
a padding sink is attached. -/
structure CheckpointState where
  substrate : CllSubstrate
  leafCount : Nat
  logId : String
  cadenceEntries : Nat
  padBucket : Nat
  entriesSinceCheckpoint : Nat
  pendingSince : Bool
  padding : Bool

/-- What a call meets: how far each scan gets if it fails, whether the pending entries are
old enough, the records the sink writes and whether it succeeds, the records that land behind
them, what signs, and what comes of the commit. -/
structure Call where
  scanned : Option Nat
  aged : Bool
  written : List Bytes
  padded : Bool
  landed : List Bytes
  rescanned : Option Nat
  timestamp : String
  signer : Option String
  answer : Committing

/-- `due_for_checkpoint`, with the age compared outside. -/
def dueForCheckpoint (cadenceEntries entriesSinceLast : Nat) (aged : Bool) : Bool :=
  if entriesSinceLast = 0 then false
  else if cadenceEntries ≤ entriesSinceLast then true
  else aged

section

variable (cll : Cll)

/-- A value of the log as a record id. -/
def recordId (value : Bytes) : Option RecordId :=
  if sized : value.length = 32 then some ⟨value, sized⟩ else none

/-- `note_pending` for one folded entry. -/
def CheckpointState.fold (s : CheckpointState) (id : RecordId) : CheckpointState :=
  { s with
    substrate := s.substrate.appendLeaf cll id
    leafCount := s.leafCount + 1
    entriesSinceCheckpoint := s.entriesSinceCheckpoint + 1
    pendingSince := true }

/-- The entries folded in order, up to one that is no record id. -/
def foldEntries : List Bytes → CheckpointState → Option CheckpointStateError × CheckpointState
  | [], s => (none, s)
  | value :: rest, s =>
      match recordId value with
      | none => (some .badCapsuleId, s)
      | some id => foldEntries rest (s.fold cll id)

/-- The check of the last folded entry. -/
def checkLast (s : CheckpointState) (entries : List Bytes) : Option CheckpointStateError :=
  if s.leafCount = 0 then none
  else
    match entries[s.leafCount - 1]? with
    | none => some (.nodeStoreAheadOfLedger s.leafCount (s.leafCount - 1))
    | some value =>
        match recordId value with
        | none => some .badCapsuleId
        | some id =>
            match s.substrate.checkLeaf cll (s.leafCount - 1) id with
            | .error err => some (.checkpoint err)
            | .ok _ => none

/-- `sync_log` over the entries of the log; a scan may fail after some of them. -/
def syncLog (s : CheckpointState) (entries : List Bytes) (scanned : Option Nat) :
    Option CheckpointStateError × CheckpointState :=
  match checkLast cll s entries with
  | some err => (some err, s)
  | none =>
      match scanned with
      | none => foldEntries cll (entries.drop s.leafCount) s
      | some reached =>
          let folded := foldEntries cll ((entries.drop s.leafCount).take reached) s
          (some (folded.1.getD .log), folded.2)

/-- `PaddingSink::pad_to_bucket`: the sink writes records of its own, and answers with the
number of entries when that is a multiple of the bucket. -/
def padToBucket (entries : List Bytes) (bucket : Nat) (written : List Bytes) (padded : Bool) :
    Option Nat × List Bytes :=
  (if padded && bucket ∣ (entries ++ written).length then some (entries ++ written).length
    else none, entries ++ written)

/-- `cut_leaf_count`, with the state and the entries after it. -/
def cutLeafCount (s : CheckpointState) (entries : List Bytes) (call : Call) :
    Except CheckpointStateError Nat × CheckpointState × List Bytes :=
  if s.padding && s.padBucket ≠ 0 then
    match padToBucket entries s.padBucket call.written call.padded with
    | (none, entries) => (.error .padding, s, entries)
    | (some paddedTo, entries) =>
        match syncLog cll s (entries ++ call.landed) call.rescanned with
        | (some err, s) => (.error err, s, entries ++ call.landed)
        | (none, s) =>
            (if s.leafCount < paddedTo then .error (.paddingNotFolded paddedTo s.leafCount)
              else .ok paddedTo, s, entries ++ call.landed)
  else (.ok s.leafCount, s, entries)

/-- What a process and the log have after a call. -/
structure After where
  live : CheckpointState
  entries : List Bytes
  disk : Disk

/-- `checkpoint_now` -/
def checkpointNow (s : CheckpointState) (entries : List Bytes) (disk : Disk) (call : Call) :
    Except CheckpointStateError CheckpointRecord × After :=
  match cutLeafCount cll s entries call with
  | (.error err, s, entries) => (.error err, ⟨s, entries, disk⟩)
  | (.ok cutLeaves, s, entries) =>
      match prepareCheckpoint cll s.substrate cutLeaves s.logId call.timestamp call.signer with
      | .error err => (.error (.checkpoint err), ⟨s, entries, disk⟩)
      | .ok prepared =>
          match commitCheckpoint cll s.substrate disk prepared call.answer with
          | (.error err, substrate, disk) =>
              (.error (.checkpoint err), ⟨{ s with substrate := substrate }, entries, disk⟩)
          | (.ok cp, substrate, disk) =>
              (.ok cp, ⟨{ s with
                substrate := substrate
                entriesSinceCheckpoint := s.leafCount - cutLeaves
                pendingSince := s.pendingSince && s.leafCount - cutLeaves ≠ 0 }, entries, disk⟩)

/-- `tick`: what is not due delivers witness rows, which changes nothing here. -/
def tick (s : CheckpointState) (entries : List Bytes) (disk : Disk) (call : Call) :
    Except CheckpointStateError (Option CheckpointRecord) × After :=
  match syncLog cll s entries call.scanned with
  | (some (.nodeStoreAheadOfLedger _ _), s) => (.ok none, ⟨s, entries, disk⟩)
  | (some err, s) => (.error err, ⟨s, entries, disk⟩)
  | (none, s) =>
      if dueForCheckpoint s.cadenceEntries s.entriesSinceCheckpoint
          (s.pendingSince && call.aged) then
        let cut := checkpointNow cll s entries disk call
        (cut.1.map some, cut.2)
      else (.ok none, ⟨s, entries, disk⟩)

/-- The configuration of a process. -/
structure Config where
  logId : String
  cadenceEntries : Nat
  padBucket : Nat
  signers : List String

/-- `load_log` -/
def loadLog (entries : List Bytes) (state : LogState) (cfg : Config) :
    Except CheckpointStateError CheckpointState :=
  if cfg.signers.isEmpty then .error .noSigner
  else
    match entries.mapM recordId with
    | none => .error .badCapsuleId
    | some ids =>
        match openLog cll state cfg.logId ids cfg.signers with
        | .error err => .error (.checkpoint err)
        | .ok substrate =>
            match (substrate.lastCheckpoint.map (fun cp => cll.leafCount cp.mmrSize)).getD
                (some 0) with
            | none => .error (.checkpoint .mmr)
            | some lastCheckpointLeafCount =>
                .ok {
                  substrate := substrate
                  leafCount := ids.length
                  logId := cfg.logId
                  cadenceEntries := cfg.cadenceEntries
                  padBucket := cfg.padBucket
                  entriesSinceCheckpoint := ids.length - lastCheckpointLeafCount
                  pendingSince := 0 < ids.length - lastCheckpointLeafCount
                  padding := false }

/-! ## Runs -/

namespace Cutting

/-- A process, when one is running, and the log it is over. -/
structure State where
  live : Option CheckpointState
  entries : List Bytes
  disk : Disk

def State.start : State := ⟨none, [], Disk.empty⟩

inductive Op where
  | append (values : List Bytes)
  | reopen (cfg : Config)
  | setPaddingSink
  | sync (scanned : Option Nat)
  | checkpointNow (call : Call)
  | tick (call : Call)

def toState (after : After) : State := ⟨some after.live, after.entries, after.disk⟩

def step (s : State) (op : Op) : Option CheckpointStateError × State :=
  match op, s.live with
  | .append values, _ => (none, { s with entries := s.entries ++ values })
  | .reopen cfg, _ =>
      match loadLog cll s.entries s.disk.state cfg with
      | .error err => (some err, { s with live := none })
      | .ok live => (none, { s with live := some live })
  | _, none => (none, s)
  | .setPaddingSink, some live => (none, { s with live := some { live with padding := true } })
  | .sync scanned, some live =>
      let synced := syncLog cll live s.entries scanned
      (synced.1, { s with live := some synced.2 })
  | .checkpointNow call, some live =>
      let cut := Substrate.checkpointNow cll live s.entries s.disk call
      (match cut.1 with
        | .error err => some err
        | .ok _ => none, toState cut.2)
  | .tick call, some live =>
      let ticked := Substrate.tick cll live s.entries s.disk call
      (match ticked.1 with
        | .error err => some err
        | .ok _ => none, toState ticked.2)

end Cutting

end

/-! ## What folding keeps -/

section

variable {cll : Cll}

/-- The leaf hash of a value of the log. -/
def hashOf (cll : Cll) (value : Bytes) : Bytes := (recordId value).elim [] cll.leafHash

def leavesOf (cll : Cll) (entries : List Bytes) : List Bytes := entries.map (hashOf cll)

/-- The leaves under the latest checkpoint. -/
def coveredLeaves (cll : Cll) (last : Option CheckpointRecord) : Option Nat :=
  (last.map (fun cp => cll.leafCount cp.mmrSize)).getD (some 0)

/-- What a process counts: its leaves are the first entries of the log, and the entries since
the checkpoint are the leaves that the latest one does not cover. -/
structure Counts (cll : Cll) (entries : List Bytes) (s : CheckpointState) : Prop where
  leaves : s.substrate.leaves = leavesOf cll (entries.take s.leafCount)
  fits : s.leafCount ≤ entries.length
  counted : ∃ n, coveredLeaves cll s.substrate.lastCheckpoint = some n ∧
    s.entriesSinceCheckpoint + n = s.leafCount

/-- Only leaves were folded. -/
structure Folds (s s' : CheckpointState) : Prop where
  onward : s.substrate.leaves <+: s'.substrate.leaves
  expected : s'.substrate.committedCheckpoint = s.substrate.committedCheckpoint
  last : s'.substrate.lastCheckpoint = s.substrate.lastCheckpoint
  count : s.leafCount ≤ s'.leafCount

theorem Folds.refl (s : CheckpointState) : Folds s s := ⟨List.prefix_rfl, rfl, rfl, Nat.le_refl _⟩

theorem Folds.trans {s s' s'' : CheckpointState} (first : Folds s s') (second : Folds s' s'') :
    Folds s s'' where
  onward := first.onward.trans second.onward
  expected := second.expected.trans first.expected
  last := second.last.trans first.last
  count := Nat.le_trans first.count second.count

theorem Folds.resumes {s s' : CheckpointState} (folds : Folds s s') {state : LogState}
    (resumes : Resumes cll state s.substrate) : Resumes cll state s'.substrate where
  folded := resumes.folded.trans folds.onward
  last := by
    rw [folds.expected, folds.last]
    exact resumes.last

theorem leavesOf_extend {entries more : List Bytes} (onward : entries <+: more) :
    leavesOf cll entries <+: leavesOf cll more := onward.map _

theorem Counts.length {entries : List Bytes} {s : CheckpointState}
    (counts : Counts cll entries s) : s.substrate.leaves.length = s.leafCount := by
  rw [counts.leaves, leavesOf, List.length_map, List.length_take, Nat.min_eq_left counts.fits]

theorem Counts.extend {entries more : List Bytes} {s : CheckpointState}
    (counts : Counts cll entries s) (onward : entries <+: more) : Counts cll more s where
  leaves := by
    rcases onward with ⟨tail, rfl⟩
    rw [List.take_append_of_le_length counts.fits]
    exact counts.leaves
  fits := Nat.le_trans counts.fits onward.length_le
  counted := counts.counted

theorem fold_folds (s : CheckpointState) (id : RecordId) : Folds s (s.fold cll id) where
  onward := List.prefix_append _ _
  expected := rfl
  last := rfl
  count := Nat.le_succ _

/-- Folding the next entry keeps the counts. -/
theorem fold_counts {entries rest : List Bytes} {s : CheckpointState} {value : Bytes}
    {id : RecordId} (counts : Counts cll entries s) (next : entries.drop s.leafCount = value :: rest)
    (named : recordId value = some id) : Counts cll entries (s.fold cll id) := by
  have here : entries[s.leafCount]? = some value := by
    rw [← Nat.add_zero s.leafCount, ← List.getElem?_drop, next]
    rfl
  constructor
  case leaves =>
    have hash : hashOf cll value = cll.leafHash id := by rw [hashOf, named, Option.elim_some]
    change s.substrate.leaves ++ [cll.leafHash id] = leavesOf cll (entries.take (s.leafCount + 1))
    rw [List.take_add_one, here, counts.leaves, leavesOf, leavesOf, List.map_append,
      Option.toList_some, List.map_singleton, hash]
  case fits => exact (List.getElem?_eq_some_iff.mp here).1
  case counted =>
    rcases counts.counted with ⟨n, covered, total⟩
    refine ⟨n, covered, ?_⟩
    change s.entriesSinceCheckpoint + 1 + n = s.leafCount + 1
    omega

theorem foldEntries_folds (values : List Bytes) (s : CheckpointState) :
    Folds s (foldEntries cll values s).2 := by
  induction values generalizing s with
  | nil => exact Folds.refl s
  | cons value rest ih =>
      rw [foldEntries]
      split
      · exact Folds.refl s
      · exact (fold_folds s _).trans (ih _)

theorem foldEntries_counts {entries values : List Bytes} {s : CheckpointState}
    (counts : Counts cll entries s) (first : values <+: entries.drop s.leafCount) :
    Counts cll entries (foldEntries cll values s).2 := by
  induction values generalizing s with
  | nil => exact counts
  | cons value values ih =>
      rw [foldEntries]
      split
      · exact counts
      · next id named =>
          rcases first with ⟨tail, same⟩
          apply ih (fold_counts counts same.symm named)
          refine ⟨tail, ?_⟩
          change values ++ tail = entries.drop (s.leafCount + 1)
          rw [← List.drop_drop, ← same]
          rfl

theorem syncLog_folds (s : CheckpointState) (entries : List Bytes) (scanned : Option Nat) :
    Folds s (syncLog cll s entries scanned).2 := by
  simp only [syncLog]
  split
  · exact Folds.refl s
  · split
    · exact foldEntries_folds _ s
    · exact foldEntries_folds _ s

theorem syncLog_counts {s : CheckpointState} {entries : List Bytes}
    (counts : Counts cll entries s) (scanned : Option Nat) :
    Counts cll entries (syncLog cll s entries scanned).2 := by
  simp only [syncLog]
  split
  · exact counts
  · split
    · exact foldEntries_counts counts List.prefix_rfl
    · exact foldEntries_counts counts (List.take_prefix _ _)

/-! ## What a cut keeps -/

theorem padToBucket_eq_some {entries : List Bytes} {bucket n : Nat} {written : List Bytes}
    {padded : Bool} (answered : (padToBucket entries bucket written padded).1 = some n) :
    bucket ∣ n ∧ entries.length ≤ n := by
  rw [padToBucket] at answered
  split at answered
  · next whole =>
      cases answered
      rw [Bool.and_eq_true, decide_eq_true_eq] at whole
      exact ⟨whole.2, by simp⟩
  · cases answered

/-- What `cut_leaf_count` gives: leaves were folded, the log grew, and the count is the padded
one, a multiple of the bucket that covers what was folded before, or every leaf. -/
structure CountsCut (cll : Cll) (s : CheckpointState) (entries : List Bytes)
    (after : Except CheckpointStateError Nat × CheckpointState × List Bytes) : Prop where
  folds : Folds s after.2.1
  onward : entries <+: after.2.2
  counts : Counts cll after.2.2 after.2.1
  padded : s.padding = true → s.padBucket ≠ 0 → ∀ n, after.1 = .ok n →
    s.padBucket ∣ n ∧ s.leafCount ≤ n

theorem cutLeafCount_counts {s : CheckpointState} {entries : List Bytes}
    (counts : Counts cll entries s) (call : Call) :
    CountsCut cll s entries (cutLeafCount cll s entries call) := by
  simp only [cutLeafCount]
  split
  · have wrote : (padToBucket entries s.padBucket call.written call.padded).2 =
        entries ++ call.written := rfl
    split
    · next grown padding =>
        rw [padding] at wrote
        have onward : entries <+: grown := ⟨call.written, wrote.symm⟩
        exact ⟨Folds.refl s, onward, counts.extend onward, fun _ _ n ok => by cases ok⟩
    · next paddedTo grown padding =>
        rw [padding] at wrote
        have multiple := padToBucket_eq_some (congrArg Prod.fst padding)
        have onward : entries <+: grown ++ call.landed := by
          rw [show grown = entries ++ call.written from wrote, List.append_assoc]
          exact List.prefix_append _ _
        have folds : Folds s (syncLog cll s (grown ++ call.landed) call.rescanned).2 :=
          syncLog_folds s _ _
        have kept := syncLog_counts (counts.extend onward) call.rescanned
        split
        · next err reached synced =>
            rw [synced] at folds kept
            exact ⟨folds, onward, kept, fun _ _ n ok => by cases ok⟩
        · next reached synced =>
            rw [synced] at folds kept
            refine ⟨folds, onward, kept, fun _ _ n ok => ?_⟩
            simp only at ok
            split at ok
            · cases ok
            · cases ok
              exact ⟨multiple.1, Nat.le_trans counts.fits multiple.2⟩
  · next off =>
      refine ⟨Folds.refl s, List.prefix_rfl, counts, fun padding bucket => ?_⟩
      exact absurd (by simp [padding, bucket]) off

/-- A process over a log and its backend. -/
structure Steady (cll : Cll) (after : After) : Prop where
  kept : Kept cll after.disk
  resumes : Resumes cll after.disk.state after.live.substrate
  counts : Counts cll after.entries after.live

/-- What a call that may cut keeps and, when a checkpoint is committed under padding, what it
covers. -/
structure Cuts (cll : Cll) (s : CheckpointState) (entries : List Bytes) (disk : Disk)
    (after : After) : Prop where
  steady : Steady cll after
  onward : entries <+: after.entries
  padded : ∀ cp, after.disk.committed = cp :: disk.committed → s.padding = true →
    s.padBucket ≠ 0 → ∃ n, Covers cll (leavesOf cll after.entries) cp n ∧ s.padBucket ∣ n ∧
      s.leafCount ≤ n

/-- A call that commits nothing. -/
theorem Cuts.none {s : CheckpointState} {entries : List Bytes} {disk : Disk} {after : After}
    (steady : Steady cll after) (onward : entries <+: after.entries)
    (same : after.disk.committed = disk.committed) : Cuts cll s entries disk after where
  steady := steady
  onward := onward
  padded := fun _ new => absurd (same.symm.trans new) (List.ne_cons_self)

theorem checkpointNow_cuts (lawful : cll.Lawful) {s : CheckpointState} {entries : List Bytes}
    {disk : Disk} (steady : Steady cll ⟨s, entries, disk⟩) (call : Call) :
    Cuts cll s entries disk (checkpointNow cll s entries disk call).2 := by
  have cut := cutLeafCount_counts steady.counts call
  rcases counted : cutLeafCount cll s entries call with ⟨err | cutLeaves, s', grown⟩
  · rw [counted] at cut
    simp only [checkpointNow, counted]
    exact Cuts.none ⟨steady.kept, cut.folds.resumes steady.resumes, cut.counts⟩ cut.onward rfl
  · rw [counted] at cut
    have resumes := cut.folds.resumes steady.resumes
    cases made : prepareCheckpoint cll s'.substrate cutLeaves s'.logId call.timestamp
        call.signer with
    | error err =>
        simp only [checkpointNow, counted, made]
        exact Cuts.none ⟨steady.kept, resumes, cut.counts⟩ cut.onward rfl
    | ok prepared =>
        have ready := prepareCheckpoint_eq_ok made
        have keeps := commitCheckpoint_keeps lawful steady.kept resumes ready.1 call.answer
        have leaves : s'.substrate.leaves <+: leavesOf cll grown := by
          rw [cut.counts.leaves]
          exact leavesOf_extend (List.take_prefix _ _)
        have covers := ready.2.extend leaves
        -- Whether the process learns of it or not, a committed checkpoint is the prepared one.
        have padded : ∀ cp, prepared.checkpoint :: disk.committed = cp :: disk.committed →
            s.padding = true → s.padBucket ≠ 0 → ∃ n, Covers cll (leavesOf cll grown) cp n ∧
              s.padBucket ∣ n ∧ s.leafCount ≤ n := by
          rintro cp ⟨⟩ padding bucket
          exact ⟨cutLeaves, covers, cut.padded padding bucket cutLeaves rfl⟩
        rcases @commitCheckpoint_cases cll s'.substrate disk prepared call.answer with
          ⟨err, same⟩ | ⟨bytes, n, names, cose, known, -, result, substrate, same, outcome⟩
        · rw [same] at keeps
          simp only [checkpointNow, counted, made, same]
          exact Cuts.none ⟨keeps.1, keeps.2.1, cut.counts⟩ cut.onward rfl
        · rw [same] at keeps
          simp only [checkpointNow, counted, made, same]
          rcases outcome with ⟨err, rfl, rfl⟩ | ⟨rfl, rfl⟩
          · exact ⟨⟨keeps.1, keeps.2.1, cut.counts⟩, cut.onward, padded⟩
          · refine ⟨⟨keeps.1, keeps.2.1, cut.counts.leaves, cut.counts.fits, cutLeaves, ?_, ?_⟩,
              cut.onward, padded⟩
            · change cll.leafCount prepared.checkpoint.mmrSize = some cutLeaves
              rw [ready.2.size, lawful.leaves_nodes]
            · exact Nat.sub_add_cancel (cut.counts.length ▸ ready.2.within)

/-- A tick cuts what its own scan folded, or nothing. -/
theorem tick_cuts (lawful : cll.Lawful) {s : CheckpointState} {entries : List Bytes} {disk : Disk}
    (steady : Steady cll ⟨s, entries, disk⟩) (call : Call) :
    Cuts cll (syncLog cll s entries call.scanned).2 entries disk
      (tick cll s entries disk call).2 := by
  have folds : Folds s (syncLog cll s entries call.scanned).2 := syncLog_folds s _ _
  have counts := syncLog_counts steady.counts call.scanned
  simp only [tick]
  rcases synced : syncLog cll s entries call.scanned with ⟨_ | err, s'⟩
  · rw [synced] at folds counts
    have still : Steady cll ⟨s', entries, disk⟩ :=
      ⟨steady.kept, folds.resumes steady.resumes, counts⟩
    simp only
    split
    · exact checkpointNow_cuts lawful still call
    · exact Cuts.none still List.prefix_rfl rfl
  · rw [synced] at folds counts
    have still : Steady cll ⟨s', entries, disk⟩ :=
      ⟨steady.kept, folds.resumes steady.resumes, counts⟩
    cases err <;> exact Cuts.none still List.prefix_rfl rfl

/-! ## Opening a log again -/

theorem mapM_recordId_eq_some {entries : List Bytes} {ids : List RecordId}
    (named : entries.mapM recordId = some ids) :
    ids.length = entries.length ∧ ids.map cll.leafHash = leavesOf cll entries := by
  induction entries generalizing ids with
  | nil =>
      cases named
      exact ⟨rfl, rfl⟩
  | cons value entries ih =>
      rw [List.mapM_cons] at named
      cases first : recordId value with
      | none =>
          rw [first] at named
          cases named
      | some id =>
          rw [first] at named
          cases rest : entries.mapM recordId with
          | none =>
              rw [rest] at named
              cases named
          | some others =>
              rw [rest] at named
              cases named
              have hash : hashOf cll value = cll.leafHash id := by
                rw [hashOf, first, Option.elim_some]
              exact ⟨congrArg (· + 1) (ih rest).1, congrArg₂ List.cons hash.symm (ih rest).2⟩

/-- The newest checkpoint of a backend covers leaves that it indexes. -/
theorem Kept.covered (lawful : cll.Lawful) {disk : Disk} (kept : Kept cll disk) :
    ∃ n, coveredLeaves cll disk.committed.head? = some n ∧ n ≤ disk.state.leaves.length := by
  cases newest : disk.committed.head? with
  | none => exact ⟨0, rfl, Nat.zero_le _⟩
  | some cp =>
      rcases kept.chained.covers cp (List.mem_of_mem_head? newest) with ⟨n, covers⟩
      refine ⟨n, ?_, covers.within⟩
      change cll.leafCount cp.mmrSize = some n
      rw [covers.size, lawful.leaves_nodes]

theorem loadLog_eq_ok (lawful : cll.Lawful) {entries : List Bytes} {disk : Disk} {cfg : Config}
    {s : CheckpointState} (kept : Kept cll disk)
    (loaded : loadLog cll entries disk.state cfg = .ok s) : Steady cll ⟨s, entries, disk⟩ := by
  rw [loadLog] at loaded
  split at loaded
  · cases loaded
  · split at loaded
    · cases loaded
    · next ids named =>
        split at loaded
        · cases loaded
        · next substrate opening =>
            have opened := openLog_eq_ok opening
            have sized := @mapM_recordId_eq_some cll _ _ named
            have newest := kept.newest opened.resumes opened.expected.symm
            rcases kept.covered lawful with ⟨n, covered, within⟩
            rw [← newest] at covered
            split at loaded
            · cases loaded
            · next m known =>
                cases loaded
                cases Option.some.inj (known.symm.trans covered)
                have fits : n ≤ ids.length := by
                  have folded := opened.resumes.folded.length_le
                  rw [opened.leaves, List.length_map] at folded
                  exact Nat.le_trans within folded
                refine ⟨kept, opened.resumes, ?_, Nat.le_of_eq sized.1, n, covered,
                  Nat.sub_add_cancel fits⟩
                change substrate.leaves = leavesOf cll (entries.take ids.length)
                rw [opened.leaves, sized.1, List.take_length, sized.2]

/-! ## Every run -/

namespace Cutting

structure Inv (cll : Cll) (s : State) : Prop where
  kept : Kept cll s.disk
  logged : s.disk.state.leaves <+: leavesOf cll s.entries
  steady : ∀ live ∈ s.live, Steady cll ⟨live, s.entries, s.disk⟩

theorem Steady.logged {after : After} (steady : Steady cll after) :
    after.disk.state.leaves <+: leavesOf cll after.entries := by
  apply steady.resumes.folded.trans
  rw [steady.counts.leaves]
  exact leavesOf_extend (List.take_prefix _ _)

theorem inv_toState {after : After} (steady : Steady cll after) : Inv cll (toState after) where
  kept := steady.kept
  logged := Steady.logged steady
  steady := by
    rintro _ ⟨⟩
    exact steady

/-- Every operation keeps the chain and the counts. -/
theorem step_inv (lawful : cll.Lawful) (s : State) (op : Op) (inv : Inv cll s) :
    Inv cll (step cll s op).2 := by
  rcases s with ⟨live, entries, disk⟩
  cases op with
  | append values =>
      have onward : entries <+: entries ++ values := List.prefix_append _ _
      exact ⟨inv.kept, inv.logged.trans (leavesOf_extend onward), fun live running =>
        ⟨inv.kept, (inv.steady live running).resumes, (inv.steady live running).counts.extend
          onward⟩⟩
  | reopen cfg =>
      simp only [step]
      cases loaded : loadLog cll entries disk.state cfg with
      | error err => exact ⟨inv.kept, inv.logged, fun _ none => (Option.not_mem_none _ none).elim⟩
      | ok live => exact inv_toState (loadLog_eq_ok lawful inv.kept loaded)
  | setPaddingSink =>
      cases live with
      | none => exact inv
      | some live =>
          have steady := inv.steady live rfl
          exact @inv_toState cll ⟨{ live with padding := true }, entries, disk⟩
            ⟨steady.kept, steady.resumes, steady.counts.leaves, steady.counts.fits,
              steady.counts.counted⟩
  | sync scanned =>
      cases live with
      | none => exact inv
      | some live =>
          have steady := inv.steady live rfl
          exact @inv_toState cll ⟨(syncLog cll live entries scanned).2, entries, disk⟩
            ⟨steady.kept, (syncLog_folds live entries scanned).resumes steady.resumes,
              syncLog_counts steady.counts scanned⟩
  | checkpointNow call =>
      cases live with
      | none => exact inv
      | some live => exact inv_toState (checkpointNow_cuts lawful (inv.steady live rfl) call).steady
  | tick call =>
      cases live with
      | none => exact inv
      | some live => exact inv_toState (tick_cuts lawful (inv.steady live rfl) call).steady

theorem inv_after (lawful : cll.Lawful) (ops : List Op) :
    Inv cll (Machine.after (step cll) State.start ops) :=
  Machine.invariant (step_inv lawful)
    ⟨kept_empty, List.nil_prefix, fun _ none => (Option.not_mem_none _ none).elim⟩ ops

/-- The state of a process when an operation asks for padding: a tick has folded the log. -/
def asking (cll : Cll) (live : CheckpointState) (entries : List Bytes) : Op → CheckpointState
  | .tick call => (syncLog cll live entries call.scanned).2
  | _ => live

/-- What holds in every state: the committed checkpoints are one chain over the entries of the
log, the entries since the checkpoint are counted, and a checkpoint that an operation commits
under padding covers a multiple of the bucket with everything folded before it was asked for. -/
structure Holds (cll : Cll) (s : State) : Prop where
  chained : Chained cll (leavesOf cll s.entries) s.disk.committed
  counted : ∀ live ∈ s.live, live.substrate.leaves = leavesOf cll (s.entries.take live.leafCount) ∧
    ∃ n, coveredLeaves cll live.substrate.lastCheckpoint = some n ∧ n ≤ live.leafCount ∧
      live.entriesSinceCheckpoint = live.leafCount - n
  padded : ∀ live ∈ s.live, live.padding = true → live.padBucket ≠ 0 → ∀ op cp,
    (step cll s op).2.disk.committed = cp :: s.disk.committed →
    ∃ n, Covers cll (leavesOf cll (step cll s op).2.entries) cp n ∧ live.padBucket ∣ n ∧
      (asking cll live s.entries op).leafCount ≤ n

theorem syncLog_padding (s : CheckpointState) (entries : List Bytes) (scanned : Option Nat) :
    (syncLog cll s entries scanned).2.padding = s.padding ∧
      (syncLog cll s entries scanned).2.padBucket = s.padBucket := by
  have folding : ∀ (values : List Bytes) (s : CheckpointState),
      (foldEntries cll values s).2.padding = s.padding ∧
        (foldEntries cll values s).2.padBucket = s.padBucket := by
    intro values
    induction values with
    | nil => exact fun _ => ⟨rfl, rfl⟩
    | cons value values ih =>
        intro s
        rw [foldEntries]
        split
        · exact ⟨rfl, rfl⟩
        · exact ih _
  simp only [syncLog]
  split
  · exact ⟨rfl, rfl⟩
  · split <;> exact folding _ _

theorem holds_of_inv (lawful : cll.Lawful) {s : State} (inv : Inv cll s) : Holds cll s where
  chained := inv.kept.chained.extend inv.logged
  counted := by
    intro live running
    have counts : Counts cll s.entries live := (inv.steady live running).counts
    rcases counts.counted with ⟨n, covered, total⟩
    exact ⟨counts.leaves, n, covered, by omega, by omega⟩
  padded := by
    rcases s with ⟨live, entries, disk⟩
    rintro live ⟨⟩ padding bucket op cp new
    have steady := inv.steady live rfl
    -- Only an operation that may cut has committed a checkpoint.
    cases op with
    | append values => exact absurd new List.ne_cons_self
    | reopen cfg =>
        refine absurd new ?_
        simp only [step]
        cases loadLog cll entries disk.state cfg <;> exact List.ne_cons_self
    | setPaddingSink => exact absurd new List.ne_cons_self
    | sync scanned => exact absurd new List.ne_cons_self
    | checkpointNow call => exact (checkpointNow_cuts lawful steady call).padded cp new padding bucket
    | tick call =>
        have same := @syncLog_padding cll live entries call.scanned
        have cut := (tick_cuts lawful steady call).padded cp new (same.1.trans padding)
          (fun zero => bucket (same.2.symm.trans zero))
        rw [same.2] at cut
        exact cut

end Cutting

/-- In every run of the operations on an open log, and in every run of a checkpoint state on a
log that grows, the committed checkpoints are one chain; the checkpoint state counts what the
latest one does not cover, and cuts what was folded before it asked for padding. -/
theorem checkpoints_chained (lawful : cll.Lawful) :
    (∀ ops, Chained cll
        (Machine.after (step cll) ⟨none, Disk.empty⟩ ops).disk.state.leaves
        (Machine.after (step cll) ⟨none, Disk.empty⟩ ops).disk.committed ∧
      ∀ session ∈ (Machine.after (step cll) ⟨none, Disk.empty⟩ ops).session,
        Chained cll session.substrate.leaves
          (Machine.after (step cll) ⟨none, Disk.empty⟩ ops).disk.committed) ∧
    ∀ ops, Cutting.Holds cll (Machine.after (Cutting.step cll) Cutting.State.start ops) := by
  refine ⟨fun ops => ?_, fun ops => Cutting.holds_of_inv lawful (Cutting.inv_after lawful ops)⟩
  have inv := inv_after lawful ops
  exact ⟨inv.kept.chained, fun session opened =>
    inv.kept.chained.extend (inv.opened session opened).resumes.folded⟩

end

/-! ### A log of three records -/

/-- The carries of adding a leaf to a number of leaves, as many as the trailing zeros of the
number with it. -/
def carries : Nat → Nat → Nat
  | 0, _ => 0
  | fuel + 1, n => if n % 2 = 0 then carries fuel (n / 2) + 1 else 0

def nodeCount : Nat → Nat
  | 0 => 0
  | n + 1 => nodeCount n + 1 + carries (n + 1) (n + 1)

theorem nodeCount_lt {m n : Nat} (less : m < n) : nodeCount m < nodeCount n := by
  induction n with
  | zero => exact absurd less (Nat.not_lt_zero m)
  | succ n ih =>
      have grows : nodeCount n < nodeCount (n + 1) := by
        rw [nodeCount]
        omega
      rcases Nat.lt_succ_iff_lt_or_eq.mp less with earlier | rfl
      · exact Nat.lt_trans (ih earlier) grows
      · exact grows

theorem nodeCount_inj {m n : Nat} (same : nodeCount m = nodeCount n) : m = n := by
  rcases Nat.lt_trichotomy m n with less | equal | more
  · exact absurd same (Nat.ne_of_lt (nodeCount_lt less))
  · exact equal
  · exact absurd same.symm (Nat.ne_of_lt (nodeCount_lt more))

theorem le_nodeCount (n : Nat) : n ≤ nodeCount n := by
  induction n with
  | zero => exact Nat.le_refl 0
  | succ n ih =>
      rw [nodeCount]
      omega

def leafCount (size : Nat) : Option Nat :=
  (List.range (size + 1)).find? (fun n => nodeCount n = size)

theorem leafCount_nodeCount (n : Nat) : leafCount (nodeCount n) = some n := by
  cases found : leafCount (nodeCount n) with
  | none =>
      have missed := List.find?_eq_none.mp found n
        (List.mem_range.mpr (Nat.lt_succ_of_le (le_nodeCount n)))
      simp at missed
  | some m =>
      have same : nodeCount m = nodeCount n := by simpa using List.find?_some found
      rw [nodeCount_inj same]

/-- The record ids of the published vectors for a checkpoint. -/
def sampleEntry (seq : String) : Bytes :=
  Sha256.digest (utf8 ("asg-ledger-mmr-vector-leaf-" ++ seq))

/-- The checkpoint over the first two of them. -/
def sampleRecord : CheckpointRecord where
  logId := "asg-cll-conformance-log"
  mmrSize := 3
  root := "f7b19d3f831d2cddfe91865465a8beb649e4bf16c3aa2fde7378e7ee2e215694"
  prevSize := 0
  prevRoot := ""
  keyId := "ea4a6c63e29c520abef5507b132ec5f9954776aebebe7b92421eea691446d22c"
  timestamp := "2026-01-01T00:00:00Z"

def sampleCose : Bytes := (RustLedger.hexDecode (
    "d284587fa403781f6170706c69636174696f6e2f636c6c2d636865636b706f696e742b63626f720fa201" ++
    "776173672d636c6c2d636f6e666f726d616e63652d6c6f670278196173672d636c6c2d636f6e666f726d" ++
    "616e63652d6c6f672333045820ea4a6c63e29c520abef5507b132ec5f9954776aebebe7b92421eea6914" ++
    "46d22c0127a0588aa6646b696e646e636c6c2d636865636b706f696e74686c6f675f73697a6503696973" ++
    "737565645f617474323032362d30312d30315430303a30303a30305a69707265765f73697a65006a636f" ++
    "6d6d69746d656e745823815820f7b19d3f831d2cddfe91865465a8beb649e4bf16c3aa2fde7378e7ee2e" ++
    "2156946f707265765f636f6d6d69746d656e744058404a1cd4149180d559eb9d36f3f86a70f22af12682" ++
    "f65fed3f0bf1adfd2ce53ea4b16dfe07a7128f63843fc79b45648b0dc8f74ee12a149318caaa2b74cfe4" ++
    "b70e")).getD []

/-- The root of up to two leaves, and one COSE form. -/
def sampleCll : Cll where
  leafHash id := Sha256.digest (0 :: id.val)
  rootOf leaves :=
    match leaves with
    | [leaf] => Sha256.hex leaf
    | [left, right] =>
        Sha256.hex (Sha256.digest ([0, 0, 0, 0, 0, 0, 0, 3] ++ left ++ right))
    | _ => ""
  nodeCount := nodeCount
  leafCount := leafCount
  toCose cp := if cp = sampleRecord then some sampleCose else none
  decode bytes := if bytes = sampleCose then some sampleRecord else none

theorem sampleCll_lawful : sampleCll.Lawful where
  leaves_nodes := leafCount_nodeCount
  decode_cose := by
    intro cp bytes cose
    simp only [sampleCll] at cose ⊢
    split at cose
    · next same =>
        have written := Option.some.inj cose
        rw [if_pos written.symm, same]
    · cases cose

/-- A cut under padding, behind which a third record lands. -/
def sampleCall : Call where
  scanned := none
  aged := false
  written := [sampleEntry "2"]
  padded := true
  landed := [sampleEntry "3"]
  rescanned := none
  timestamp := sampleRecord.timestamp
  signer := some sampleRecord.keyId
  answer := .done

def sampleOps : List Cutting.Op :=
  [.reopen ⟨sampleRecord.logId, 100, 2, [sampleRecord.keyId]⟩, .setPaddingSink,
    .append [sampleEntry "1"], .sync none, .checkpointNow sampleCall]

def afterCut : Cutting.State :=
  Machine.after (Cutting.step sampleCll) Cutting.State.start sampleOps

theorem checkpoints_chained_sample : Cutting.Holds sampleCll afterCut :=
  (checkpoints_chained sampleCll_lawful).2 sampleOps

/-- A record that was folded before the cut is not covered by it. -/
theorem landed_record_waits : afterCut.disk.committed = [sampleRecord] ∧
    ¬∀ live ∈ afterCut.live, ∀ cp ∈ afterCut.disk.committed, ∃ n,
      Covers sampleCll (leavesOf sampleCll afterCut.entries) cp n ∧ live.leafCount ≤ n := by
  have committed : afterCut.disk.committed = [sampleRecord] := by decide +kernel
  have folded : afterCut.live.map CheckpointState.leafCount = some 3 := by decide +kernel
  refine ⟨committed, fun all => ?_⟩
  rcases Option.map_eq_some_iff.mp folded with ⟨live, running, count⟩
  rcases all live running sampleRecord (by rw [committed]; exact List.mem_singleton_self _) with
    ⟨n, covers, enough⟩
  rw [count] at enough
  have more : nodeCount 2 < nodeCount n := nodeCount_lt enough
  exact absurd covers.size (Nat.ne_of_lt more)

end Substrate
end Checkpointing
end CapsuleEmit
