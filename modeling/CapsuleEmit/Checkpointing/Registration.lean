import CapsuleEmit.Checkpointing.Backfills
import CapsuleEmit.Foundation.Base64

namespace CapsuleEmit
namespace Checkpointing

open RustLedger (hexDecode)

/-!
# Registering the checkpoints of a flat ledger

A checkpoint is offered to its witnesses before its line is written, and again
on the clock to those that have not registered it.  Which witnesses those are
is kept in memory only, beside the flag of a checkpoint that has not been
offered at all.  A start reads the last line and the receipts beside it.

The witnesses, the disk and the clock are outside: a world answers each request
and says where each write of a receipt is cut short.  A process that stops
inside a call leaves the files of a call whose later requests fail and whose
later writes write nothing, so a run may stop anywhere.
-/

universe u

/-! ## Outside -/

/-- What a witness answers to a checkpoint it accepts. -/
structure Receipt where
  entryHash : String
  bytes : Bytes
  leafIndex : Int64
  treeSize : Int64

inductive SubmitError where
  | http (status : Nat) (body : String)
  | failed (why : String)

/-- What a call meets: the URLs a client can be made for, the answers of the witnesses,
the writes that are cut short, and the number of leaves under a size. -/
structure Outside (W : Type u) where
  clientFor : String → Bool
  submit : W → String → Bytes → Except SubmitError Receipt × W
  torn : W → Option Nat × W
  mmrLeafCount : UInt64 → Option Nat

/-- A line of `checkpoints.jsonl`. -/
structure CheckpointLine where
  record : CheckpointRecord
  checkpointCoseHex : Option String

/-- The world and the file of receipts, as a call changes them. -/
structure Setting (W : Type u) where
  world : W
  backfills : Option Bytes

/-! ## One witness -/

/-- `witness_from_receipt` -/
def witnessFromReceipt (tsUrl : String) (receipt : Receipt) : CheckpointWitness where
  tsUrl := tsUrl
  entryHash := receipt.entryHash
  receiptB64 := Base64.encode receipt.bytes
  leafIndex := receipt.leafIndex
  treeSize := receipt.treeSize
  isStub := false

/-- `continuity_refusal`: the size and root a refusal says the witness accepted last. -/
def continuityRefusal (packages : Packages) : SubmitError → Option (UInt64 × String)
  | .http status body =>
      if status = 409 then do
        let value ← (packages.fromStr (utf8 body)).toOption
        let detail ← value.get "detail"
        let size ← (detail.get "last_accepted_mmr_size").bind readUInt64
        let root ← (detail.get "last_accepted_root").bind Json.asStr
        return (size, root)
      else none
  | .failed _ => none

def CheckpointLine.isAt (line : CheckpointLine) (size : UInt64) (root : String) : Bool :=
  line.record.mmrSize = size && line.record.root = root

/-- `log_holds_checkpoint` -/
def logHoldsCheckpoint (lines : List CheckpointLine) (size : UInt64) (root : String) : Bool :=
  lines.any (·.isAt size root)

section

variable {W : Type u} (packages : Packages) (outside : Outside W)

/-- `append_witness_backfill`, which is not asked whether it succeeded. -/
def recordBackfill (s : Setting W) (backfill : WitnessBackfill) : Setting W where
  world := (outside.torn s.world).2
  backfills := (appendWitnessBackfill s.backfills ⟨backfill, (outside.torn s.world).1⟩).2

/-- The checkpoints of some lines, sent in order up to the first that fails. -/
def sendEach (tsUrl : String) : List CheckpointLine → Setting W → Bool × Setting W
  | [], s => (true, s)
  | line :: rest, s =>
      match line.checkpointCoseHex.bind hexDecode with
      | none => (false, s)
      | some cose =>
          match outside.submit s.world tsUrl cose with
          | (.error _, world) => (false, { s with world := world })
          | (.ok receipt, world) =>
              sendEach tsUrl rest (recordBackfill outside { s with world := world }
                ⟨line.record.mmrSize, line.record.root, witnessFromReceipt tsUrl receipt⟩)

/-- `catch_up_witness`: whether a witness has every checkpoint after the one it accepted and
before a size. -/
def catchUpWitness (tsUrl : String) (lines : List CheckpointLine) (upToSize acceptedSize : UInt64)
    (acceptedRoot : String) (s : Setting W) : Bool × Setting W :=
  match lines.dropWhile (fun line => !line.isAt acceptedSize acceptedRoot) with
  | [] => (false, s)
  | _ :: later => sendEach outside tsUrl (later.filter (·.record.mmrSize < upToSize)) s

/-- What offering a checkpoint to a witness came to. -/
inductive Standing where
  | pending
  | dropped
  | registered (witness : CheckpointWitness)

/-- A checkpoint sent to a witness, whatever it answers. -/
def resubmit (cose : Bytes) (tsUrl : String) (s : Setting W) : Standing × Setting W :=
  match outside.submit s.world tsUrl cose with
  | (.ok receipt, world) =>
      (.registered (witnessFromReceipt tsUrl receipt), { s with world := world })
  | (.error _, world) => (.pending, { s with world := world })

/-- What follows a refusal: a witness that is behind is caught up and asked again, and one
that is ahead on the same log is not asked again. -/
def afterRefusal (lines : List CheckpointLine) (cp : CheckpointRecord) (cose : Bytes)
    (tsUrl : String) (err : SubmitError) (s : Setting W) : Standing × Setting W :=
  match continuityRefusal packages err with
  | none => (.pending, s)
  | some (acceptedSize, acceptedRoot) =>
      if cp.mmrSize ≤ acceptedSize then
        if (acceptedSize = cp.mmrSize && acceptedRoot = cp.root) ||
            logHoldsCheckpoint lines acceptedSize acceptedRoot then (.dropped, s)
        else (.pending, s)
      else
        match catchUpWitness outside tsUrl lines cp.mmrSize acceptedSize acceptedRoot s with
        | (true, caughtUp) => resubmit outside cose tsUrl caughtUp
        | (false, stopped) => (.pending, stopped)

/-- The body of the loop of `register_with`. -/
def registerUrl (lines : List CheckpointLine) (cp : CheckpointRecord) (cose : Option Bytes)
    (tsUrl : String) (s : Setting W) : Standing × Setting W :=
  match cose with
  | none => (.pending, s)
  | some cose =>
      if outside.clientFor tsUrl then
        match outside.submit s.world tsUrl cose with
        | (.ok receipt, world) =>
            (.registered (witnessFromReceipt tsUrl receipt), { s with world := world })
        | (.error err, world) =>
            afterRefusal packages outside lines cp cose tsUrl err { s with world := world }
      else (.pending, s)

/-- `register_with`: the receipts for a checkpoint, and the URLs that are still pending. -/
def registerWith (lines : List CheckpointLine) (cp : CheckpointRecord) (cose : Option Bytes) :
    List String → Setting W → (List CheckpointWitness × List String) × Setting W
  | [], s => (([], []), s)
  | tsUrl :: rest, s =>
      match registerUrl packages outside lines cp cose tsUrl s with
      | (.pending, s) =>
          let answer := registerWith lines cp cose rest s
          ((answer.1.1, tsUrl :: answer.1.2), answer.2)
      | (.dropped, s) => registerWith lines cp cose rest s
      | (.registered witness, s) =>
          let answer := registerWith lines cp cose rest s
          ((witness :: answer.1.1, answer.1.2), answer.2)

end

/-! ## The checkpoint state -/

/-- What a directory keeps. -/
structure Files where
  checkpoints : List CheckpointLine
  backfills : Option Bytes

/-- What registration keeps in memory. -/
structure Live where
  witnessUrls : List String
  lastCheckpoint : Option CheckpointRecord
  lastCheckpointCose : Option Bytes
  pendingWitnessUrls : List String
  witnessDeferred : Bool

structure State (W : Type u) where
  live : Live
  files : Files
  world : W

/-- What the substrate gives a cut: the size and root it is cut at, the root at the size of
the latest checkpoint now, what signing gives, and whether its line is written. -/
structure Cut where
  logId : String
  mmrSize : UInt64
  root : String
  earlierRoot : String
  keyId : String
  timestamp : String
  signature : String
  cose : Option Bytes
  persisted : Bool

/-- A call, with what the ledger and the substrate give it. -/
inductive Op where
  | tick (synced due : Bool) (cut : Option Cut)
  | reconnect (synced : Bool) (leafCount : Nat) (cut : Option Cut)
  | checkpointCovering (leafIndex : Option Nat) (cut : Option Cut)
  | offerDeferredToWitnesses
  | retryPendingWitnesses
  | restart (witnessUrls : List String)

/-- `prepare_checkpoint`: the record chained to the latest checkpoint. -/
def prepareCheckpoint (last : Option CheckpointRecord) (cut : Cut) : Option CheckpointRecord :=
  let record : UInt64 → String → CheckpointRecord := fun prevSize prevRoot =>
    { v := 1, kind := "mmr_checkpoint", logId := cut.logId, mmrSize := cut.mmrSize,
      root := cut.root, prevSize := prevSize, prevRoot := prevRoot, keyId := cut.keyId,
      timestamp := cut.timestamp, signature := cut.signature, witnesses := [] }
  if cut.mmrSize = 0 then none
  else
    match last with
    | none => some (record 0 "")
    | some prev =>
        if cut.mmrSize ≤ prev.mmrSize then none
        else if cut.earlierRoot ≠ prev.root then none
        else some (record prev.mmrSize prev.root)

section

variable {W : Type u} (packages : Packages) (outside : Outside W)

/-- `commit_checkpoint`: nothing is written for a record that chains to another checkpoint. -/
def commitCheckpoint (s : State W) (record : CheckpointRecord) (cut : Cut) :
    Option CheckpointRecord × State W :=
  let latest := (s.live.lastCheckpoint.map (fun cp => (cp.mmrSize, cp.root))).getD (0, "")
  if record.prevSize ≠ latest.1 ∨ record.prevRoot ≠ latest.2 then (none, s)
  else if cut.persisted then
    (some record,
      { s with
        live := { s.live with lastCheckpoint := some record, lastCheckpointCose := cut.cose }
        files := { s.files with
          checkpoints := s.files.checkpoints ++ [⟨record, cut.cose.map Sha256.hex⟩] } })
  else (none, s)

/-- The first half of `checkpoint_now`: the record with what registering it gave. -/
def offerCheckpoint (s : State W) (record : CheckpointRecord) (cut : Cut) :
    CheckpointRecord × State W :=
  let answer := registerWith packages outside s.files.checkpoints record cut.cose
    s.live.witnessUrls ⟨s.world, s.files.backfills⟩
  ({ record with witnesses := answer.1.1 },
    { live := { s.live with pendingWitnessUrls := answer.1.2, witnessDeferred := false }
      files := { s.files with backfills := answer.2.backfills }
      world := answer.2.world })

/-- `checkpoint_now`, registering the new checkpoint or not. -/
def checkpointNow (s : State W) (register : Bool) (cut : Option Cut) :
    Option CheckpointRecord × State W :=
  match cut with
  | none => (none, s)
  | some cut =>
      match prepareCheckpoint s.live.lastCheckpoint cut with
      | none => (none, s)
      | some record =>
          if register then
            commitCheckpoint (offerCheckpoint packages outside s record cut).2
              (offerCheckpoint packages outside s record cut).1 cut
          else commitCheckpoint s record cut

/-- `offer_deferred_to_witnesses` -/
def offerDeferredToWitnesses (s : State W) : State W :=
  if s.live.witnessDeferred then
    { s with live := { s.live with
        witnessDeferred := false
        pendingWitnessUrls :=
          if s.live.pendingWitnessUrls.isEmpty then s.live.witnessUrls
          else s.live.pendingWitnessUrls } }
  else s

/-- `retry_pending_witnesses` -/
def retryPendingWitnesses (s : State W) : State W :=
  if s.live.pendingWitnessUrls.isEmpty then s
  else
    match s.live.lastCheckpoint with
    | none => s
    | some cp =>
        let answer := registerWith packages outside s.files.checkpoints cp
          s.live.lastCheckpointCose s.live.pendingWitnessUrls ⟨s.world, s.files.backfills⟩
        let recorded := answer.1.1.foldl (fun setting witness =>
          recordBackfill outside setting ⟨cp.mmrSize, cp.root, witness⟩) answer.2
        { live := { s.live with
            lastCheckpoint := some { cp with witnesses := cp.witnesses ++ answer.1.1 }
            pendingWitnessUrls := answer.1.2 }
          files := { s.files with backfills := recorded.backfills }
          world := recorded.world }

/-- `tick`: nothing further when the ledger cannot be folded. -/
def tick (s : State W) (synced due : Bool) (cut : Option Cut) :
    Option CheckpointRecord × State W :=
  if !synced then (none, s)
  else if due then checkpointNow packages outside s true cut
  else (none, retryPendingWitnesses packages outside (offerDeferredToWitnesses s))

/-- `reconnect`, and `checkpoint_on_shutdown` with it. -/
def reconnect (s : State W) (synced : Bool) (leafCount : Nat) (cut : Option Cut) :
    Option CheckpointRecord × State W :=
  if !synced || leafCount = 0 then (none, s)
  else
    match s.live.lastCheckpoint with
    | none => checkpointNow packages outside s true cut
    | some last =>
        match outside.mmrLeafCount last.mmrSize with
        | none => (none, s)
        | some lastLeafCount =>
            if leafCount ≤ lastLeafCount then (none, retryPendingWitnesses packages outside s)
            else checkpointNow packages outside s true cut

/-- `existing_coverage`: the latest checkpoint, when it covers a leaf; an error where the
leaf or the number of covered leaves is not known. -/
def existingCoverage (s : State W) (leafIndex : Option Nat) :
    Option (Option CheckpointRecord) := do
  let index ← leafIndex
  match s.live.lastCheckpoint with
  | none => return none
  | some last =>
      let covered ← outside.mmrLeafCount last.mmrSize
      return if covered ≤ index then none else some last

/-- `checkpoint_covering`: a new checkpoint is not offered to any witness. -/
def checkpointCovering (s : State W) (leafIndex : Option Nat) (cut : Option Cut) :
    Option CheckpointRecord × State W :=
  match existingCoverage outside s leafIndex with
  | none => (none, s)
  | some (some last) => (some last, s)
  | some none =>
      match checkpointNow packages outside s false cut with
      | (none, s) => (none, s)
      | (some record, s) =>
          (some record, { s with live := { s.live with witnessDeferred := true } })

/-- `load`: the last line with the receipts beside it, nothing pending and nothing deferred. -/
def load (files : Files) (witnessUrls : List String) : Live where
  witnessUrls := witnessUrls
  lastCheckpoint := files.checkpoints.getLast?.map (fun line =>
    { line.record with
      witnesses := (effectiveWitnessesNoting packages line.record
        (readWitnessBackfillsNoting packages files.backfills).1).1 })
  lastCheckpointCose := files.checkpoints.getLast?.bind (fun line =>
    line.checkpointCoseHex.bind hexDecode)
  pendingWitnessUrls := []
  witnessDeferred := false

def step (s : State W) : Op → Option CheckpointRecord × State W
  | .tick synced due cut => tick packages outside s synced due cut
  | .reconnect synced leafCount cut => reconnect packages outside s synced leafCount cut
  | .checkpointCovering leafIndex cut => checkpointCovering packages outside s leafIndex cut
  | .offerDeferredToWitnesses => (none, offerDeferredToWitnesses s)
  | .retryPendingWitnesses => (none, retryPendingWitnesses packages outside s)
  | .restart witnessUrls => (none, { s with live := load packages s.files witnessUrls })

/-- The state a process starts in. -/
def start (files : Files) (witnessUrls : List String) (world : W) : State W :=
  ⟨load packages files witnessUrls, files, world⟩

end

/-! ## What a call does to the latest checkpoint -/

/-- A checkpoint without its receipts. -/
def CheckpointRecord.bare (cp : CheckpointRecord) : CheckpointRecord := { cp with witnesses := [] }

/-- The latest checkpoint in memory is the one of the last line, up to receipts. -/
def Stored {W : Type u} (s : State W) : Prop :=
  s.live.lastCheckpoint.map CheckpointRecord.bare =
    s.files.checkpoints.getLast?.map (fun line => line.record.bare)

/-- What a call can do: it leaves the lines and the latest checkpoint as they are, or it
writes one line, whose checkpoint is the latest from then on. -/
def Follows {W : Type u} (s s' : State W) : Prop :=
  (s'.files.checkpoints = s.files.checkpoints ∧
    s'.live.lastCheckpoint.map CheckpointRecord.bare =
      s.live.lastCheckpoint.map CheckpointRecord.bare) ∨
  ∃ line, s'.files.checkpoints = s.files.checkpoints ++ [line] ∧
    s'.live.lastCheckpoint.map CheckpointRecord.bare = some line.record.bare

section

variable {W : Type u} {packages : Packages} {outside : Outside W}

theorem Follows.refl (s : State W) : Follows s s := Or.inl ⟨rfl, rfl⟩

theorem Stored.follows {s s' : State W} (stored : Stored s) (follows : Follows s s') :
    Stored s' := by
  rcases follows with ⟨lines, last⟩ | ⟨line, lines, last⟩
  · rw [Stored, lines, last]
    exact stored
  · rw [Stored, lines, last, List.getLast?_concat]
    rfl

theorem commitCheckpoint_follows (s : State W) (record : CheckpointRecord) (cut : Cut) :
    Follows s (commitCheckpoint s record cut).2 := by
  simp only [commitCheckpoint]
  split
  · exact Follows.refl s
  · split
    · exact Or.inr ⟨⟨record, cut.cose.map Sha256.hex⟩, rfl, rfl⟩
    · exact Follows.refl s

theorem checkpointNow_follows (s : State W) (register : Bool) (cut : Option Cut) :
    Follows s (checkpointNow packages outside s register cut).2 := by
  cases cut with
  | none => exact Follows.refl s
  | some cut =>
      simp only [checkpointNow]
      split
      · exact Follows.refl s
      · next record prepared =>
          split
          · -- Offering changes neither the lines nor the latest checkpoint.
            exact commitCheckpoint_follows (offerCheckpoint packages outside s record cut).2 _ cut
          · exact commitCheckpoint_follows s record cut

theorem offerDeferredToWitnesses_follows (s : State W) :
    Follows s (offerDeferredToWitnesses s) := by
  rw [offerDeferredToWitnesses]
  split <;> exact Or.inl ⟨rfl, rfl⟩

theorem retryPendingWitnesses_follows (s : State W) :
    Follows s (retryPendingWitnesses packages outside s) := by
  rw [retryPendingWitnesses]
  split
  · exact Follows.refl s
  · split
    · exact Follows.refl s
    · next cp last => exact Or.inl ⟨rfl, by rw [last]; rfl⟩

theorem checkpointCovering_follows (s : State W) (leafIndex : Option Nat) (cut : Option Cut) :
    Follows s (checkpointCovering packages outside s leafIndex cut).2 := by
  have cutting : Follows s (checkpointNow packages outside s false cut).2 :=
    checkpointNow_follows s false cut
  rw [checkpointCovering]
  split
  · exact Follows.refl s
  · exact Follows.refl s
  · split
    · next same => rwa [same] at cutting
    · next same => rwa [same] at cutting

theorem reconnect_follows (s : State W) (synced : Bool) (leafCount : Nat) (cut : Option Cut) :
    Follows s (reconnect packages outside s synced leafCount cut).2 := by
  rw [reconnect]
  split
  · exact Follows.refl s
  · split
    · exact checkpointNow_follows s true cut
    · split
      · exact Follows.refl s
      · split
        · exact retryPendingWitnesses_follows s
        · exact checkpointNow_follows s true cut

theorem stored_start (files : Files) (witnessUrls : List String) (world : W) :
    Stored (start packages files witnessUrls world) := by
  rw [Stored, start, load, Option.map_map]
  rfl

theorem tick_follows (s : State W) (synced due : Bool) (cut : Option Cut) (stored : Stored s) :
    Stored (tick packages outside s synced due cut).2 := by
  rw [tick]
  split
  · exact stored
  · split
    · exact stored.follows (checkpointNow_follows s true cut)
    · exact (stored.follows (offerDeferredToWitnesses_follows s)).follows
        (retryPendingWitnesses_follows _)

/-- Every call keeps the latest checkpoint in memory that of the last line. -/
theorem step_stored (s : State W) (op : Op) (stored : Stored s) :
    Stored (step packages outside s op).2 := by
  cases op with
  | tick synced due cut => exact tick_follows s synced due cut stored
  | reconnect synced leafCount cut =>
      exact stored.follows (reconnect_follows s synced leafCount cut)
  | checkpointCovering leafIndex cut =>
      exact stored.follows (checkpointCovering_follows s leafIndex cut)
  | offerDeferredToWitnesses => exact stored.follows (offerDeferredToWitnesses_follows s)
  | retryPendingWitnesses => exact stored.follows (retryPendingWitnesses_follows s)
  | restart witnessUrls => exact stored_start s.files witnessUrls s.world

theorem stored_after (files : Files) (witnessUrls : List String) (world : W) (ops : List Op) :
    Stored (Machine.after (step packages outside) (start packages files witnessUrls world) ops) :=
  Machine.invariant (fun s op => step_stored s op) (stored_start files witnessUrls world) ops

end

/-! ## What a restart keeps -/

/-- What is relied on: the digest of a checkpoint is of its signed body, without receipts. -/
def Packages.SignsBody (packages : Packages) : Prop :=
  ∀ cp, packages.digest cp.bare = packages.digest cp

/-- Every configured witness without a bound receipt for the committed checkpoint is pending,
or the checkpoint is deferred, so that a later call offers it to the witness. -/
def Offers (packages : Packages) (committed : Option CheckpointRecord) (live : Live) : Prop :=
  ∀ cp ∈ committed, ∀ tsUrl ∈ live.witnessUrls,
    (¬∃ last ∈ live.lastCheckpoint, ∃ w ∈ last.witnesses, w.tsUrl = tsUrl ∧
      IsBound packages cp w) →
    tsUrl ∈ live.pendingWitnessUrls ∨ live.witnessDeferred = true

/-- A bound receipt of a witness is in the line of a checkpoint or in the file beside it. -/
def Recorded (packages : Packages) (files : Files) (cp : CheckpointRecord) (tsUrl : String) :
    Prop :=
  ∃ w, (w ∈ cp.witnesses ∨ ∃ b ∈ (readWitnessBackfillsNoting packages files.backfills).1,
    b.isFor cp = true ∧ b.witness = w) ∧ w.tsUrl = tsUrl ∧ IsBound packages cp w

/-- No checkpoint is committed, or the files hold a receipt of every given witness for the
latest one. -/
def AllRecorded (packages : Packages) (files : Files) (witnessUrls : List String) : Prop :=
  ∀ line ∈ files.checkpoints.getLast?, ∀ tsUrl ∈ witnessUrls,
    Recorded packages files line.record tsUrl

section

variable {packages : Packages}

/-- A witness has a bound receipt among the merged ones when it has one at all. -/
theorem bound_effective_iff (cp : CheckpointRecord) (backfills : List WitnessBackfill)
    (tsUrl : String) :
    (∃ w ∈ (effectiveWitnessesNoting packages cp backfills).1,
        w.tsUrl = tsUrl ∧ IsBound packages cp w) ↔
      ∃ w, (w ∈ cp.witnesses ∨ ∃ b ∈ backfills, b.isFor cp = true ∧ b.witness = w) ∧
        w.tsUrl = tsUrl ∧ IsBound packages cp w := by
  rw [effective_fst]
  constructor
  · rintro ⟨w, inside, url, bound⟩
    exact ⟨w, (mem_of_mem_foldl inside).imp id (fun placed => (mem_boundReceipts.mp placed).2),
      url, bound⟩
  · rintro ⟨w, given, url, bound⟩
    apply kept_foldl (fun other inside => (mem_boundReceipts.mp inside).1)
    exact ⟨w, List.mem_append.mpr (given.imp id (fun read => mem_boundReceipts.mpr ⟨bound, read⟩)),
      url, bound⟩

theorem isBound_congr (signs : packages.SignsBody) {cp other : CheckpointRecord}
    (same : cp.bare = other.bare) (w : CheckpointWitness) :
    IsBound packages cp w ↔ IsBound packages other w := by
  rw [IsBound, IsBound, boundEntryHash, boundEntryHash, ← signs cp, same, signs other]

/-- A loaded state has nothing pending and nothing deferred, so every witness that lacks a
receipt is offered the checkpoint exactly when the files show that none lacks one. -/
theorem offers_load_iff (signs : packages.SignsBody) (files : Files) (witnessUrls : List String)
    (committed : Option CheckpointRecord)
    (same : committed.map CheckpointRecord.bare =
      files.checkpoints.getLast?.map (fun line => line.record.bare)) :
    Offers packages committed (load packages files witnessUrls) ↔
      AllRecorded packages files witnessUrls := by
  rw [Offers, AllRecorded]
  cases last : files.checkpoints.getLast? with
  | none =>
      rw [last, Option.map_none, Option.map_eq_none_iff] at same
      simp [same]
  | some line =>
      rw [last, Option.map_some, Option.map_eq_some_iff] at same
      rcases same with ⟨cp, rfl, body⟩
      simp only [Option.mem_some_iff, forall_eq', load, last, Option.map_some, List.not_mem_nil,
        Bool.false_eq_true, or_self, imp_false, not_not, exists_eq_left', isBound_congr signs body]
      exact forall₂_congr fun tsUrl _ => bound_effective_iff line.record
        (readWitnessBackfillsNoting packages files.backfills).1 tsUrl

end

/-! ### Runs -/

/-- After any run, a restart leaves the latest checkpoint to be offered to every witness
without a receipt for it exactly when the files hold a receipt of every witness. -/
theorem restart_offers_iff {W : Type u} {packages : Packages} (signs : packages.SignsBody)
    (outside : Outside W) (files : Files) (configured : List String) (world : W) (ops : List Op)
    (witnessUrls : List String) :
    Offers packages
        (Machine.after (step packages outside) (start packages files configured world)
          ops).live.lastCheckpoint
        (load packages (Machine.after (step packages outside)
          (start packages files configured world) ops).files witnessUrls) ↔
      AllRecorded packages (Machine.after (step packages outside)
        (start packages files configured world) ops).files witnessUrls :=
  offers_load_iff signs _ witnessUrls _ (stored_after files configured world ops)

theorem samplePackages_signsBody : samplePackages.SignsBody := fun _ => rfl

/-- One witness, which is up or down. -/
def sampleOutside : Outside Bool where
  clientFor _ := true
  submit up _ _ :=
    (if up then .ok ⟨(witnessAt firstUrl).entryHash, [115, 116, 117, 98], 0, 1⟩
      else .error (.failed "connection refused"), up)
  torn up := (none, up)
  mmrLeafCount size := if size = 3 then some 2 else none

/-- A cut of a log with two records. -/
def sampleCut : Cut where
  logId := (checkpointWith []).logId
  mmrSize := 3
  root := (checkpointWith []).root
  earlierRoot := ""
  keyId := (checkpointWith []).keyId
  timestamp := (checkpointWith []).timestamp
  signature := (checkpointWith []).signature
  cose := some [132]
  persisted := true

/-- The state after a tick that cuts a checkpoint, with the witness up or down. -/
def afterTick (up : Bool) : State Bool :=
  Machine.after (step samplePackages sampleOutside)
    (start samplePackages ⟨[], none⟩ [firstUrl] up) [.tick true true (some sampleCut)]

theorem restart_offers_registered :
    Offers samplePackages (afterTick true).live.lastCheckpoint
      (load samplePackages (afterTick true).files [firstUrl]) := by
  apply (restart_offers_iff samplePackages_signsBody sampleOutside ⟨[], none⟩ [firstUrl] true
    [.tick true true (some sampleCut)] [firstUrl]).mpr
  rintro line ⟨⟩ tsUrl url
  cases List.mem_singleton.mp url
  exact ⟨witnessAt firstUrl, Or.inl (List.mem_singleton_self _), rfl, by decide +kernel⟩

/-- A witness that was down is pending, and the restart forgets it. -/
theorem restart_forgets_pending :
    (afterTick false).live.pendingWitnessUrls = [firstUrl] ∧
      ¬Offers samplePackages (afterTick false).live.lastCheckpoint
        (load samplePackages (afterTick false).files [firstUrl]) := by
  refine ⟨rfl, fun offers => ?_⟩
  have recorded := (offers_load_iff samplePackages_signsBody (afterTick false).files [firstUrl]
    (afterTick false).live.lastCheckpoint (stored_after _ _ _ _)).mp offers
  rcases recorded _ rfl firstUrl (List.mem_singleton_self _) with ⟨w, own | read, -, -⟩
  · cases own
  · rcases read with ⟨b, inside, -⟩
    cases inside

end Checkpointing
end CapsuleEmit
