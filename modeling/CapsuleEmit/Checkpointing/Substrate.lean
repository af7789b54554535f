import CapsuleEmit.Foundation.Json
import CapsuleEmit.Foundation.Machine
import CapsuleEmit.Foundation.Succession

namespace CapsuleEmit
namespace Checkpointing
namespace Substrate

/-!
# The substrate of a log kept in a backend

Leaves are folded in memory.  A checkpoint is prepared over a number of them,
chained to the latest one, and committed later with every leaf that has been
folded by then.  The backend compares the state it has with the one it is
expected to have and replaces it as a whole, or not at all.

The functions over a Merkle mountain range are the package's.  A store of nodes
is the list of its leaf hashes, and the root at a size is a function of the
leaf hashes under it.
-/

/-! ## Records -/

abbrev RecordId := { bytes : Bytes // bytes.length = 32 }

/-- A signed checkpoint, without the receipts of its witnesses. -/
structure CheckpointRecord where
  logId : String
  mmrSize : Nat
  root : String
  prevSize : Nat
  prevRoot : String
  keyId : String
  timestamp : String
  deriving DecidableEq

/-- The packages: the hash of a leaf, the root over leaf hashes, the number of nodes over a
number of leaves and back, and a checkpoint as COSE bytes and back. -/
structure Cll where
  leafHash : RecordId → Bytes
  rootOf : List Bytes → String
  nodeCount : Nat → Nat
  leafCount : Nat → Option Nat
  toCose : CheckpointRecord → Option Bytes
  decode : Bytes → Option CheckpointRecord

/-- What is relied on: the number of leaves is known from the number of nodes, and what is
written is read back. -/
structure Cll.Lawful (cll : Cll) : Prop where
  leaves_nodes : ∀ n, cll.leafCount (cll.nodeCount n) = some n
  decode_cose : ∀ cp bytes, cll.toCose cp = some bytes → cll.decode bytes = some cp

inductive SubstrateError where
  | mmr
  | signer
  | emptyMmr
  | log
  | stateInvalid (detail : String)
  | stateAhead (storedLeaves logLeaves : Nat)
  | noSigner (keyId : String)
  | noCose
  | rollbackSize (currentSize prevSize : Nat)
  | rollbackRoot (prevSize : Nat) (actualRoot recordedRoot : String)
  | leafMismatch (leafIndex : Nat) (storedLeaf expectedLeaf : Bytes)
  | cutBeyondLog (requested available : Nat)
  | stalePrepared (prevSize latestSize : Nat)

/-- The checkpoint of a backend's state, as its COSE bytes. -/
structure LogCheckpoint where
  bytes : Bytes
  size : Nat
  indexedSeq : Nat

/-- A backend's state: the nodes over the leaves it indexes, and its latest checkpoint. -/
structure LogState where
  leaves : List Bytes
  checkpoint : Option LogCheckpoint

/-- What a backend keeps, with every checkpoint that was committed into it, newest first. -/
structure Disk where
  state : LogState
  committed : List CheckpointRecord

def Disk.empty : Disk := ⟨⟨[], none⟩, []⟩

/-- `CllSubstrate`: the leaves folded, the state that is expected of the backend, and the
latest checkpoint. -/
structure CllSubstrate where
  leaves : List Bytes
  committedSize : Nat
  committedCheckpoint : Option Bytes
  lastCheckpoint : Option CheckpointRecord

/-- A signed checkpoint that is not persisted yet. -/
structure PreparedCheckpoint where
  checkpoint : CheckpointRecord
  cose : Option Bytes

/-- What comes of a commit that the backend does not refuse. -/
inductive Committing where
  | done
  | failed
  | unheard

section

variable (cll : Cll)

/-! ## Reading and folding -/

def LogState.size (state : LogState) : Nat := cll.nodeCount state.leaves.length

/-- The hexadecimal root at a size. -/
def rootAt (leaves : List Bytes) (size : Nat) : Option String :=
  (cll.leafCount size).map (fun n => cll.rootOf (leaves.take n))

/-- `append_leaf` -/
def CllSubstrate.appendLeaf (s : CllSubstrate) (recordId : RecordId) : CllSubstrate :=
  { s with leaves := s.leaves ++ [cll.leafHash recordId] }

/-- `check_leaf` -/
def CllSubstrate.checkLeaf (s : CllSubstrate) (leafIndex : Nat) (recordId : RecordId) :
    Except SubstrateError Unit :=
  if s.leaves[leafIndex]? = some (cll.leafHash recordId) then .ok ()
  else .error (.leafMismatch leafIndex (s.leaves[leafIndex]?.getD []) (cll.leafHash recordId))

/-! ## Opening -/

/-- The first stored leaf that is not the one of the log. -/
def firstMismatch : Nat → List Bytes → List Bytes → Option SubstrateError
  | _, [], _ => none
  | index, stored :: _, [] => some (.leafMismatch index stored [])
  | index, stored :: more, expected :: rest =>
      if stored = expected then firstMismatch (index + 1) more rest
      else some (.leafMismatch index stored expected)

/-- `checked_checkpoint` -/
def checkedCheckpoint (cp : LogCheckpoint) (logId : String) (rebuilt : List Bytes)
    (signers : List String) : Except SubstrateError CheckpointRecord :=
  match cll.decode cp.bytes with
  | none => .error (.stateInvalid "the checkpoint's COSE does not verify")
  | some decoded =>
      if cll.nodeCount rebuilt.length < cp.size ∨ cll.leafCount cp.size ≠ some cp.indexedSeq then
        .error (.stateInvalid "the checkpoint is not a prefix of the log's MMR")
      else if decoded.logId ≠ logId ∨ decoded.mmrSize ≠ cp.size ∨
          some decoded.root ≠ rootAt cll rebuilt cp.size then
        .error (.stateInvalid "the checkpoint does not state this log's MMR at that size")
      else if decoded.keyId ∈ signers then .ok decoded
      else .error (.noSigner decoded.keyId)

/-- `open_log` over the record ids of the log. -/
def openLog (state : LogState) (logId : String) (ids : List RecordId) (signers : List String) :
    Except SubstrateError CllSubstrate :=
  if ids.length < state.leaves.length then
    .error (.stateAhead state.leaves.length ids.length)
  else
    match firstMismatch 0 state.leaves (ids.map cll.leafHash) with
    | some err => .error err
    | none =>
        match state.checkpoint with
        | none => .ok ⟨ids.map cll.leafHash, state.size cll, none, none⟩
        | some cp => (checkedCheckpoint cll cp logId (ids.map cll.leafHash) signers).map
            (fun record => ⟨ids.map cll.leafHash, state.size cll, some cp.bytes, some record⟩)

/-! ## Cutting -/

/-- The size and root a new checkpoint is chained to, when the log still has them. -/
def chainedTo (s : CllSubstrate) (currentSize : Nat) : Except SubstrateError (Nat × String) :=
  match s.lastCheckpoint with
  | none => .ok (0, "")
  | some prev =>
      if currentSize ≤ prev.mmrSize then .error (.rollbackSize currentSize prev.mmrSize)
      else
        match rootAt cll s.leaves prev.mmrSize with
        | none => .error .mmr
        | some actual =>
            if actual ≠ prev.root then .error (.rollbackRoot prev.mmrSize actual prev.root)
            else .ok (prev.mmrSize, prev.root)

/-- `prepare_checkpoint`, with the key that signs if it can. -/
def prepareCheckpoint (s : CllSubstrate) (leafCount : Nat) (logId timestamp : String)
    (signer : Option String) : Except SubstrateError PreparedCheckpoint :=
  if s.leaves.length < leafCount then .error (.cutBeyondLog leafCount s.leaves.length)
  else if cll.nodeCount leafCount = 0 then .error .emptyMmr
  else do
    let prev ← chainedTo cll s (cll.nodeCount leafCount)
    match signer with
    | none => .error .signer
    | some keyId =>
        let checkpoint : CheckpointRecord :=
          { logId := logId, mmrSize := cll.nodeCount leafCount,
            root := cll.rootOf (s.leaves.take leafCount), prevSize := prev.1,
            prevRoot := prev.2, keyId := keyId, timestamp := timestamp }
        .ok ⟨checkpoint, cll.toCose checkpoint⟩

/-- `commit_cll`: the state is replaced if it is the one that is expected. -/
def commitCll (disk : Disk) (expectedSize : Nat) (expectedCheckpoint : Option Bytes)
    (next : LogState) (checkpoint : CheckpointRecord) (answer : Committing) : Bool × Disk :=
  if disk.state.size cll = expectedSize ∧
      disk.state.checkpoint.map LogCheckpoint.bytes = expectedCheckpoint then
    match answer with
    | .done => (true, ⟨next, checkpoint :: disk.committed⟩)
    | .failed => (false, disk)
    | .unheard => (false, ⟨next, checkpoint :: disk.committed⟩)
  else (false, disk)

/-- `commit_checkpoint` -/
def commitCheckpoint (s : CllSubstrate) (disk : Disk) (prepared : PreparedCheckpoint)
    (answer : Committing) : Except SubstrateError CheckpointRecord × CllSubstrate × Disk :=
  let latest := (s.lastCheckpoint.map (fun cp => (cp.mmrSize, cp.root))).getD (0, "")
  if prepared.checkpoint.prevSize ≠ latest.1 ∨ prepared.checkpoint.prevRoot ≠ latest.2 then
    (.error (.stalePrepared prepared.checkpoint.prevSize latest.1), s, disk)
  else
    match prepared.cose, cll.leafCount prepared.checkpoint.mmrSize with
    | none, _ => (.error .noCose, s, disk)
    | some _, none => (.error .mmr, s, disk)
    | some bytes, some cutLeaves =>
        let next : LogState := ⟨s.leaves, some ⟨bytes, prepared.checkpoint.mmrSize, cutLeaves⟩⟩
        match commitCll cll disk s.committedSize s.committedCheckpoint next
            prepared.checkpoint answer with
        | (false, disk) => (.error .log, s, disk)
        | (true, disk) =>
            (.ok prepared.checkpoint,
              ⟨s.leaves, cll.nodeCount s.leaves.length, some bytes, some prepared.checkpoint⟩,
              disk)

/-! ## Runs -/

/-- An open substrate, with the checkpoints prepared on it. -/
structure Session where
  substrate : CllSubstrate
  prepared : List PreparedCheckpoint

structure State where
  session : Option Session
  disk : Disk

inductive Op where
  | reopen (logId : String) (ids : List RecordId) (signers : List String)
  | appendLeaf (recordId : RecordId)
  | prepareCheckpoint (leafCount : Nat) (logId timestamp : String) (signer : Option String)
  | commitCheckpoint (index : Nat) (answer : Committing)

/-- One operation; nothing happens without an open substrate, and any checkpoint that was
prepared on it may be committed. -/
def step (s : State) (op : Op) : Option SubstrateError × State :=
  match op, s.session with
  | .reopen logId ids signers, _ =>
      match openLog cll s.disk.state logId ids signers with
      | .error err => (some err, ⟨none, s.disk⟩)
      | .ok substrate => (none, ⟨some ⟨substrate, []⟩, s.disk⟩)
  | _, none => (none, s)
  | .appendLeaf recordId, some session =>
      (none, ⟨some { session with substrate := session.substrate.appendLeaf cll recordId },
        s.disk⟩)
  | .prepareCheckpoint leafCount logId timestamp signer, some session =>
      match prepareCheckpoint cll session.substrate leafCount logId timestamp signer with
      | .error err => (some err, s)
      | .ok prepared =>
          (none, ⟨some { session with prepared := session.prepared ++ [prepared] }, s.disk⟩)
  | .commitCheckpoint index answer, some session =>
      match session.prepared[index]? with
      | none => (none, s)
      | some prepared =>
          let committed := commitCheckpoint cll session.substrate s.disk prepared answer
          (match committed.1 with
            | .error err => some err
            | .ok _ => none,
            ⟨some { session with substrate := committed.2.1 }, committed.2.2⟩)

end

/-! ## The chain of the committed checkpoints -/

/-- A checkpoint names the one before it by its size and root, and the first names none. -/
def Names (cp : CheckpointRecord) (prev : Option CheckpointRecord) : Prop :=
  cp.prevSize = (prev.map CheckpointRecord.mmrSize).getD 0 ∧
    cp.prevRoot = (prev.map CheckpointRecord.root).getD ""

/-- A checkpoint is over a number of the first leaves. -/
structure Covers (cll : Cll) (leaves : List Bytes) (cp : CheckpointRecord) (n : Nat) : Prop where
  within : n ≤ leaves.length
  size : cp.mmrSize = cll.nodeCount n
  root : cp.root = cll.rootOf (leaves.take n)

/-- Checkpoints, newest first, are one chain over the leaves of a log: each names the one
committed just before it, they grow, and each root is the root of the leaves it covers. -/
structure Chained (cll : Cll) (leaves : List Bytes) (committed : List CheckpointRecord) :
    Prop where
  linked : Succession.Linked Names committed
  grow : committed.Pairwise (fun newer older => older.mmrSize < newer.mmrSize)
  covers : ∀ cp ∈ committed, ∃ n, Covers cll leaves cp n

section

variable {cll : Cll}

theorem Covers.extend {leaves more : List Bytes} {cp : CheckpointRecord} {n : Nat}
    (covers : Covers cll leaves cp n) (onward : leaves <+: more) : Covers cll more cp n where
  within := Nat.le_trans covers.within onward.length_le
  size := covers.size
  root := by
    rcases onward with ⟨tail, rfl⟩
    rw [covers.root, List.take_append_of_le_length covers.within]

theorem Chained.extend {leaves more : List Bytes} {committed : List CheckpointRecord}
    (chained : Chained cll leaves committed) (onward : leaves <+: more) :
    Chained cll more committed where
  linked := chained.linked
  grow := chained.grow
  covers := fun cp inside => (chained.covers cp inside).imp fun _ covers => covers.extend onward

/-- A larger checkpoint that names the newest one goes on with the chain. -/
theorem Chained.cons {leaves : List Bytes} {committed : List CheckpointRecord}
    (chained : Chained cll leaves committed) {cp : CheckpointRecord}
    (names : Names cp committed.head?) (grows : cp.prevSize < cp.mmrSize) {n : Nat}
    (covers : Covers cll leaves cp n) : Chained cll leaves (cp :: committed) where
  linked := ⟨names, chained.linked⟩
  grow := by
    refine List.pairwise_cons.mpr ⟨fun older inside => ?_, chained.grow⟩
    cases committed with
    | nil => cases inside
    | cons newest rest =>
        have above : newest.mmrSize < cp.mmrSize := lt_of_eq_of_lt names.1.symm grows
        rcases List.mem_cons.mp inside with rfl | earlier
        · exact above
        · exact Nat.lt_trans ((List.pairwise_cons.mp chained.grow).1 older earlier) above
  covers := by
    intro other inside
    rcases List.mem_cons.mp inside with rfl | earlier
    · exact ⟨n, covers⟩
    · exact chained.covers other earlier

/-! ## What the operations give -/

theorem prefix_of_firstMismatch {index : Nat} {stored rebuilt : List Bytes}
    (same : firstMismatch index stored rebuilt = none) : stored <+: rebuilt := by
  induction stored generalizing index rebuilt with
  | nil => exact List.nil_prefix
  | cons leaf stored ih =>
      cases rebuilt with
      | nil => cases same
      | cons expected rebuilt =>
          rw [firstMismatch] at same
          split at same
          · next equal => exact List.cons_prefix_cons.mpr ⟨equal, ih same⟩
          · cases same

theorem checkedCheckpoint_eq_ok {cp : LogCheckpoint} {logId : String} {rebuilt : List Bytes}
    {signers : List String} {record : CheckpointRecord}
    (checked : checkedCheckpoint cll cp logId rebuilt signers = .ok record) :
    cll.decode cp.bytes = some record := by
  rw [checkedCheckpoint] at checked
  split at checked
  · cases checked
  · next decoded read =>
      split at checked
      · cases checked
      · split at checked
        · cases checked
        · split at checked
          · cases checked
            exact read
          · cases checked

/-- An open substrate has the leaves of the backend first, and the latest checkpoint is the
one of the bytes that are expected of the backend. -/
structure Resumes (cll : Cll) (state : LogState) (s : CllSubstrate) : Prop where
  folded : state.leaves <+: s.leaves
  last : s.committedCheckpoint.map cll.decode = s.lastCheckpoint.map some

/-- What opening a log gives. -/
structure Opened (cll : Cll) (state : LogState) (ids : List RecordId) (s : CllSubstrate) :
    Prop where
  resumes : Resumes cll state s
  leaves : s.leaves = ids.map cll.leafHash
  expected : s.committedCheckpoint = state.checkpoint.map LogCheckpoint.bytes

theorem openLog_eq_ok {state : LogState} {logId : String} {ids : List RecordId}
    {signers : List String} {s : CllSubstrate}
    (opened : openLog cll state logId ids signers = .ok s) : Opened cll state ids s := by
  rw [openLog] at opened
  split at opened
  · cases opened
  · split at opened
    · cases opened
    · next same =>
        split at opened
        · next none =>
            cases opened
            exact ⟨⟨prefix_of_firstMismatch same, rfl⟩, rfl, by rw [none]; rfl⟩
        · next cp some =>
            cases checked : checkedCheckpoint cll cp logId (ids.map cll.leafHash) signers with
            | error err =>
                rw [checked] at opened
                cases opened
            | ok record =>
                rw [checked] at opened
                cases opened
                exact ⟨⟨prefix_of_firstMismatch same,
                  congrArg Option.some (checkedCheckpoint_eq_ok checked)⟩, rfl, by rw [some]; rfl⟩

/-- A prepared checkpoint grows from the one it names and covers leaves that are folded. -/
structure Sound (cll : Cll) (leaves : List Bytes) (prepared : PreparedCheckpoint) : Prop where
  grows : prepared.checkpoint.prevSize < prepared.checkpoint.mmrSize
  covers : ∃ n, Covers cll leaves prepared.checkpoint n
  cose : prepared.cose = cll.toCose prepared.checkpoint

theorem Sound.extend {leaves more : List Bytes} {prepared : PreparedCheckpoint}
    (sound : Sound cll leaves prepared) (onward : leaves <+: more) : Sound cll more prepared where
  grows := sound.grows
  covers := sound.covers.imp fun _ covers => covers.extend onward
  cose := sound.cose

theorem chainedTo_lt {s : CllSubstrate} {currentSize : Nat} {prev : Nat × String}
    (chained : chainedTo cll s currentSize = .ok prev) (positive : currentSize ≠ 0) :
    prev.1 < currentSize := by
  rw [chainedTo] at chained
  split at chained
  · cases chained
    exact Nat.pos_of_ne_zero positive
  · split at chained
    · cases chained
    · next larger =>
        split at chained
        · cases chained
        · split at chained
          · cases chained
          · cases chained
            exact Nat.lt_of_not_le larger

/-- What preparing a checkpoint over a number of leaves gives. -/
theorem prepareCheckpoint_eq_ok {s : CllSubstrate} {leafCount : Nat} {logId timestamp : String}
    {signer : Option String} {prepared : PreparedCheckpoint}
    (made : prepareCheckpoint cll s leafCount logId timestamp signer = .ok prepared) :
    Sound cll s.leaves prepared ∧ Covers cll s.leaves prepared.checkpoint leafCount := by
  rw [prepareCheckpoint] at made
  split at made
  · cases made
  · next within =>
      split at made
      · cases made
      · next positive =>
          cases chained : chainedTo cll s (cll.nodeCount leafCount) with
          | error err =>
              rw [chained] at made
              cases made
          | ok prev =>
              rw [chained] at made
              cases signer with
              | none => cases made
              | some keyId =>
                  cases made
                  have fits : leafCount ≤ s.leaves.length := Nat.le_of_not_lt within
                  exact ⟨⟨chainedTo_lt chained positive, ⟨leafCount, fits, rfl, rfl⟩, rfl⟩,
                    ⟨fits, rfl, rfl⟩⟩

/-- What a commit can do: nothing, or the backend takes the prepared checkpoint, which is
chained to the latest one, and the substrate learns of it or not. -/
theorem commitCheckpoint_cases (s : CllSubstrate) (disk : Disk) (prepared : PreparedCheckpoint)
    (answer : Committing) :
    (∃ err, commitCheckpoint cll s disk prepared answer = (.error err, s, disk)) ∨
    ∃ bytes cutLeaves, Names prepared.checkpoint s.lastCheckpoint ∧
      prepared.cose = some bytes ∧ cll.leafCount prepared.checkpoint.mmrSize = some cutLeaves ∧
      disk.state.checkpoint.map LogCheckpoint.bytes = s.committedCheckpoint ∧
      ∃ result after, commitCheckpoint cll s disk prepared answer = (result, after,
        ⟨⟨s.leaves, some ⟨bytes, prepared.checkpoint.mmrSize, cutLeaves⟩⟩,
          prepared.checkpoint :: disk.committed⟩) ∧
        ((∃ err, result = .error err ∧ after = s) ∨
          result = .ok prepared.checkpoint ∧
          after = ⟨s.leaves, cll.nodeCount s.leaves.length, some bytes,
            some prepared.checkpoint⟩) := by
  simp only [commitCheckpoint]
  split
  · exact Or.inl ⟨_, rfl⟩
  · next current =>
      have names : Names prepared.checkpoint s.lastCheckpoint := by
        rw [not_or, not_not, not_not] at current
        cases last : s.lastCheckpoint <;> simpa [Names, last] using current
      split
      · exact Or.inl ⟨_, rfl⟩
      · exact Or.inl ⟨_, rfl⟩
      · next bytes cutLeaves cose covered =>
          simp only [commitCll]
          split_ifs with expected
          · cases answer with
            | done =>
                exact Or.inr ⟨bytes, cutLeaves, names, cose, covered, expected.2, _, _, rfl,
                  Or.inr ⟨rfl, rfl⟩⟩
            | failed => exact Or.inl ⟨_, rfl⟩
            | unheard =>
                exact Or.inr ⟨bytes, cutLeaves, names, cose, covered, expected.2, _, _, rfl,
                  Or.inl ⟨_, rfl, rfl⟩⟩
          · exact Or.inl ⟨_, rfl⟩

/-! ## Every run -/

/-- What a backend keeps: the committed checkpoints are one chain over its leaves, and the
checkpoint of its state is the newest. -/
structure Kept (cll : Cll) (disk : Disk) : Prop where
  chained : Chained cll disk.state.leaves disk.committed
  latest : disk.state.checkpoint.map (fun cp => cll.decode cp.bytes) =
    disk.committed.head?.map some

/-- A backend without a checkpoint. -/
theorem kept_empty : Kept cll Disk.empty where
  chained := ⟨trivial, List.Pairwise.nil, fun _ inside => by cases inside⟩
  latest := rfl

/-- A substrate that expects the state there is knows the newest checkpoint. -/
theorem Kept.newest {disk : Disk} {s : CllSubstrate} (kept : Kept cll disk)
    (resumes : Resumes cll disk.state s)
    (expected : disk.state.checkpoint.map LogCheckpoint.bytes = s.committedCheckpoint) :
    s.lastCheckpoint = disk.committed.head? := by
  have known := resumes.last
  rw [← expected, Option.map_map] at known
  exact Option.map_injective (fun _ _ => Option.some.inj) (known.symm.trans kept.latest)

/-- What committing a sound checkpoint keeps. -/
theorem commitCheckpoint_keeps (lawful : cll.Lawful) {s : CllSubstrate} {disk : Disk}
    {prepared : PreparedCheckpoint} (kept : Kept cll disk) (resumes : Resumes cll disk.state s)
    (sound : Sound cll s.leaves prepared) (answer : Committing) :
    Kept cll (commitCheckpoint cll s disk prepared answer).2.2 ∧
      Resumes cll (commitCheckpoint cll s disk prepared answer).2.2.state
        (commitCheckpoint cll s disk prepared answer).2.1 ∧
      (commitCheckpoint cll s disk prepared answer).2.1.leaves = s.leaves := by
  rcases @commitCheckpoint_cases cll s disk prepared answer with ⟨err, same⟩ |
    ⟨bytes, cutLeaves, names, cose, -, expected, result, after, same, outcome⟩
  · rw [same]
    exact ⟨kept, resumes, rfl⟩
  · have read : cll.decode bytes = some prepared.checkpoint :=
      lawful.decode_cose _ _ (sound.cose.symm.trans cose)
    -- The state was the expected one, so its checkpoint is the latest known here.
    have newest := kept.newest resumes expected
    rcases sound.covers with ⟨n, covers⟩
    have chained : Chained cll s.leaves (prepared.checkpoint :: disk.committed) :=
      (kept.chained.extend resumes.folded).cons (newest ▸ names) sound.grows covers
    rw [same]
    refine ⟨⟨chained, congrArg some read⟩, ?_⟩
    rcases outcome with ⟨err, -, rfl⟩ | ⟨-, rfl⟩
    · exact ⟨⟨List.prefix_rfl, resumes.last⟩, rfl⟩
    · exact ⟨⟨List.prefix_rfl, congrArg some read⟩, rfl⟩

structure Open (cll : Cll) (state : LogState) (session : Session) : Prop where
  resumes : Resumes cll state session.substrate
  sound : ∀ prepared ∈ session.prepared, Sound cll session.substrate.leaves prepared

structure Inv (cll : Cll) (s : State) : Prop where
  kept : Kept cll s.disk
  opened : ∀ session ∈ s.session, Open cll s.disk.state session

/-- Every operation keeps the chain, with any leaves folded between preparing and committing. -/
theorem step_inv (lawful : cll.Lawful) (s : State) (op : Op) (inv : Inv cll s) :
    Inv cll (step cll s op).2 := by
  rcases s with ⟨session, disk⟩
  cases op with
  | reopen logId ids signers =>
      simp only [step]
      cases opened : openLog cll disk.state logId ids signers with
      | error err => exact ⟨inv.kept, fun _ none => (Option.not_mem_none _ none).elim⟩
      | ok substrate =>
          refine ⟨inv.kept, ?_⟩
          rintro _ ⟨⟩
          exact ⟨(openLog_eq_ok opened).resumes, fun _ inside => by cases inside⟩
  | appendLeaf recordId =>
      cases session with
      | none => exact inv
      | some session =>
          have current := inv.opened session rfl
          refine ⟨inv.kept, ?_⟩
          rintro _ ⟨⟩
          have onward : session.substrate.leaves <+:
              (session.substrate.appendLeaf cll recordId).leaves := List.prefix_append _ _
          exact ⟨⟨current.resumes.folded.trans onward, current.resumes.last⟩,
            fun prepared inside => (current.sound prepared inside).extend onward⟩
  | prepareCheckpoint leafCount logId timestamp signer =>
      cases session with
      | none => exact inv
      | some session =>
          have current := inv.opened session rfl
          simp only [step]
          cases made : prepareCheckpoint cll session.substrate leafCount logId timestamp signer with
          | error err => exact inv
          | ok prepared =>
              refine ⟨inv.kept, ?_⟩
              rintro _ ⟨⟩
              refine ⟨current.resumes, fun other inside => ?_⟩
              rcases List.mem_append.mp inside with earlier | new
              · exact current.sound other earlier
              · rw [List.mem_singleton.mp new]
                exact (prepareCheckpoint_eq_ok made).1
  | commitCheckpoint index answer =>
      cases session with
      | none => exact inv
      | some session =>
          have current := inv.opened session rfl
          simp only [step]
          cases found : session.prepared[index]? with
          | none => exact inv
          | some prepared =>
              have sound := current.sound prepared (List.mem_of_getElem? found)
              have keeps := commitCheckpoint_keeps lawful inv.kept current.resumes sound answer
              refine ⟨keeps.1, ?_⟩
              rintro _ ⟨⟩
              refine ⟨keeps.2.1, fun other inside => ?_⟩
              rw [keeps.2.2]
              exact current.sound other inside

theorem inv_after (lawful : cll.Lawful) (ops : List Op) :
    Inv cll (Machine.after (step cll) ⟨none, Disk.empty⟩ ops) :=
  Machine.invariant (step_inv lawful)
    ⟨kept_empty, fun _ none => (Option.not_mem_none _ none).elim⟩ ops

end

end Substrate
end Checkpointing
end CapsuleEmit
