import CapsuleEmit.Checkpointing.Delivery

namespace CapsuleEmit
namespace Checkpointing
namespace Substrate
namespace Delivery

/-!
# A checkpoint state with witnesses

A checkpoint that is cut puts its size at the end of every queue, and its rows
are in the backend with it.  Opening the log again computes the queues from the
rows.  The state of the log and its cuts are those of a checkpoint state without
witnesses; the rows and queues are beside it.
-/

universe u

/-! ## The state -/

/-- The witnesses a process is configured with, their queues, and every witness with rows. -/
structure Witnesses where
  witnessUrls : List String
  cadenceSeconds : Nat
  witnessQueues : List (String × List Nat)
  rowWitnessIds : List String

structure State (W : Type u) where
  cutting : Cutting.State
  witnesses : Witnesses
  scene : Scene W

def State.start {W : Type u} (world : W) : State W where
  cutting := Cutting.State.start
  witnesses := ⟨[], 0, [], []⟩
  scene := ⟨[], world, []⟩

/-- What a call is refused for. -/
inductive Refusal where
  | configuredTwice (url : String)
  | cannotKey (url : String)
  | state (err : CheckpointStateError)

/-- `validate_identifier` -/
def validIdentifier (url : String) : Bool :=
  0 < url.utf8ByteSize && url.utf8ByteSize ≤ 191 &&
    url.toList.all (fun c => c.isAlphanum || "._:/-".toList.contains c)

/-- The first URL that is configured twice or cannot key a row. -/
def refusedUrl : List String → List String → Option Refusal
  | _, [] => none
  | earlier, url :: rest =>
      if url ∈ earlier then some (.configuredTwice url)
      else if validIdentifier url then refusedUrl (url :: earlier) rest
      else some (.cannotKey url)

/-- The configured witnesses, then every other one with a row, in the order of the rows. -/
def rowWitnessIds (witnessUrls : List String) (rows : List WitnessState) : List String :=
  rows.foldl (fun ids row => if row.witnessId ∈ ids then ids else ids ++ [row.witnessId]) witnessUrls

/-- The rows that a commit adds: one for each configured witness, with the checkpoint. -/
def newRows (witnessUrls : List String) (now : Int) (before after : Disk) : List WitnessState :=
  match after.state.checkpoint with
  | none => []
  | some stored =>
      if before.committed.length < after.committed.length then
        witnessUrls.map (fun url =>
          { witnessId := url, checkpointSize := stored.size, checkpoint := stored.bytes,
            attempts := 0, nextAttemptAt := now, receipt := none, permanent := false,
            lastError := none })
      else []

section

variable (cll : Cll) {W : Type u} (outside : Outside W)

/-- `load_log`, with the queues of what is undelivered. -/
def reopen (s : State W) (cfg : Config) (witnessUrls : List String) (cadenceSeconds : Nat) :
    Option Refusal × State W :=
  let closed := { s with cutting := { s.cutting with live := none } }
  match refusedUrl [] witnessUrls with
  | some refusal => (some refusal, closed)
  | none =>
    match loadLog cll s.cutting.entries s.cutting.disk.state cfg with
    | .error err => (some (.state err), closed)
    | .ok live =>
        (none, { s with
          cutting := { s.cutting with live := some live }
          witnesses :=
            { witnessUrls := witnessUrls
              cadenceSeconds := cadenceSeconds
              witnessQueues := witnessUrls.map (fun url => (url, undelivered s.scene.rows url))
              rowWitnessIds := rowWitnessIds witnessUrls s.scene.rows } })

/-- `deliver_witness_rows` -/
def deliver (s : State W) (live : CheckpointState) (rounds : Nat) : State W :=
  let pass := deliverWitnessRows cll outside live.substrate.lastCheckpoint
    s.witnesses.rowWitnessIds s.witnesses.cadenceSeconds rounds s.witnesses.witnessQueues s.scene
  { s with witnesses := { s.witnesses with witnessQueues := pass.1.2 }, scene := pass.2 }

/-- A cut without its delivery: the rows are written with the checkpoint, and its size is
queued when the commit is known to have succeeded. -/
def commitRows (s : State W) (live : CheckpointState) (call : Call) :
    Except CheckpointStateError CheckpointRecord × State W :=
  let cut := Substrate.checkpointNow cll live s.cutting.entries s.cutting.disk call
  let now := outside.now s.scene.world
  let queues :=
    match cut.1 with
    | .error _ => s.witnesses.witnessQueues
    | .ok cp => s.witnesses.witnessQueues.map (fun item => (item.1, item.2 ++ [cp.mmrSize]))
  (cut.1,
    { cutting := Cutting.toState cut.2
      witnesses := { s.witnesses with witnessQueues := queues }
      scene := { s.scene with
        rows := s.scene.rows ++
          newRows s.witnesses.witnessUrls now.1 s.cutting.disk cut.2.disk
        world := now.2 } })

/-- `checkpoint_now`: offered to the witnesses now, or left for the clock. -/
def checkpointNow (s : State W) (live : CheckpointState) (call : Call) (register : Bool)
    (rounds : Nat) : Option Refusal × State W :=
  match commitRows cll outside s live call with
  | (.error err, s) => (some (.state err), s)
  | (.ok _, s) =>
      match s.cutting.live with
      | some live => (none, if register then deliver cll outside s live rounds else s)
      | none => (none, s)

/-- A state whose process has folded the log, as far as a scan gets. -/
def synced (s : State W) (live : CheckpointState) (scanned : Option Nat) : State W :=
  { s with cutting := { s.cutting with
    live := some (syncLog cll live s.cutting.entries scanned).2 } }

/-- `tick` -/
def tick (s : State W) (live : CheckpointState) (call : Call) (rounds : Nat) :
    Option Refusal × State W :=
  let folded := (syncLog cll live s.cutting.entries call.scanned).2
  let s' := synced cll s live call.scanned
  match (syncLog cll live s.cutting.entries call.scanned).1 with
  | some (.nodeStoreAheadOfLedger _ _) => (none, s')
  | some err => (some (.state err), s')
  | none =>
      if dueForCheckpoint folded.cadenceEntries folded.entriesSinceCheckpoint
          (folded.pendingSince && call.aged) then
        checkpointNow cll outside s' folded call true rounds
      else (none, deliver cll outside s' folded rounds)

/-- `reconnect`, and `checkpoint_on_shutdown` with it. -/
def reconnect (s : State W) (live : CheckpointState) (call : Call) (rounds : Nat) :
    Option Refusal × State W :=
  let folded := (syncLog cll live s.cutting.entries call.scanned).2
  let s' := synced cll s live call.scanned
  match (syncLog cll live s.cutting.entries call.scanned).1 with
  | some err => (some (.state err), s')
  | none =>
      if folded.leafCount = 0 then (none, s')
      else
        match folded.substrate.lastCheckpoint with
        | none => checkpointNow cll outside s' folded call true rounds
        | some last =>
            match cll.leafCount last.mmrSize with
            | none => (some (.state (.checkpoint .mmr)), s')
            | some covered =>
                if folded.leafCount ≤ covered then (none, deliver cll outside s' folded rounds)
                else checkpointNow cll outside s' folded call true rounds

/-! ## Runs -/

inductive Op where
  | append (values : List Bytes)
  | reopen (cfg : Config) (witnessUrls : List String) (cadenceSeconds : Nat)
  | setPaddingSink
  | sync (scanned : Option Nat)
  | checkpointNow (call : Call) (register : Bool) (rounds : Nat)
  | tick (call : Call) (rounds : Nat)
  | reconnect (call : Call) (rounds : Nat)
  | retryPendingWitnesses (rounds : Nat)
  | others

def step (s : State W) (op : Op) : Option Refusal × State W :=
  match op, s.cutting.live with
  | .append values, _ =>
      (none, { s with cutting := { s.cutting with entries := s.cutting.entries ++ values } })
  | .reopen cfg witnessUrls cadenceSeconds, _ => reopen cll s cfg witnessUrls cadenceSeconds
  | .others, _ => (none, { s with scene := arrive outside s.scene })
  | _, none => (none, s)
  | .setPaddingSink, some live =>
      (none, { s with cutting := { s.cutting with live := some { live with padding := true } } })
  | .sync scanned, some live =>
      ((syncLog cll live s.cutting.entries scanned).1.map Refusal.state, synced cll s live scanned)
  | .checkpointNow call register rounds, some live =>
      checkpointNow cll outside s live call register rounds
  | .tick call rounds, some live => tick cll outside s live call rounds
  | .reconnect call rounds, some live => reconnect cll outside s live call rounds
  | .retryPendingWitnesses rounds, some live => (none, deliver cll outside s live rounds)

end

/-! ## What holds in every state -/

/-- The size of the latest checkpoint a process knows. -/
def knownSize (live : CheckpointState) : Nat :=
  (live.substrate.lastCheckpoint.map CheckpointRecord.mmrSize).getD 0

/-- Whether a witness has an open row at a size. -/
def isOpen (rows : List WitnessState) (witnessId : String) (size : Nat) : Bool :=
  (findRow rows witnessId size).any (fun row => !row.closed)

structure Inv (cll : Cll) {W : Type u} (s : State W) : Prop where
  cutting : Cutting.Inv cll s.cutting
  shrink : ∀ cp ∈ s.cutting.disk.committed, cp.prevSize < cp.mmrSize
  sorted : Sorted cll s.cutting.disk.committed s.scene.rows
  sent : ∀ item ∈ s.scene.sent, InTurn cll s.cutting.disk.committed item
  distinct : s.witnesses.witnessUrls.Nodup
  queued : ∀ live ∈ s.cutting.live,
    AllCovered s.scene.rows (knownSize live) s.witnesses.witnessQueues

section

variable {cll : Cll} {W : Type u} {outside : Outside W}

theorem nodup_of_refusedUrl {earlier urls : List String} (accepted : refusedUrl earlier urls = none) :
    urls.Nodup ∧ ∀ url ∈ urls, url ∉ earlier := by
  induction urls generalizing earlier with
  | nil => exact ⟨List.nodup_nil, fun _ inside => by cases inside⟩
  | cons url rest ih =>
      rw [refusedUrl] at accepted
      split at accepted
      · cases accepted
      · next new =>
          split at accepted
          · have later := ih accepted
            constructor
            · exact List.nodup_cons.mpr
                ⟨fun again => later.2 url again List.mem_cons_self, later.1⟩
            · intro other inside
              rcases List.mem_cons.mp inside with rfl | behind
              · exact new
              · exact fun known => later.2 other behind (List.mem_cons_of_mem _ known)
          · cases accepted

/-- A scene whose rows and sends advance keeps what holds of the rest of the state. -/
theorem Inv.advance {s : State W} (inv : Inv cll s) {scene : Scene W}
    (advances : Advances cll s.cutting.disk.committed s.scene scene)
    {queues : List (String × List Nat)}
    (queued : ∀ live ∈ s.cutting.live, AllCovered scene.rows (knownSize live) queues) :
    Inv cll { s with witnesses := { s.witnesses with witnessQueues := queues }, scene := scene } where
  cutting := inv.cutting
  shrink := inv.shrink
  sorted := inv.sorted.onward advances.onward
  sent := by
    rcases advances.sent with ⟨more, grown, turn⟩
    intro item inside
    rw [grown] at inside
    rcases List.mem_append.mp inside with new | old
    · exact turn item new
    · exact inv.sent item old
  distinct := inv.distinct
  queued := queued

theorem deliver_inv (fair : outside.Disciplined) {s : State W} (inv : Inv cll s)
    {live : CheckpointState} (running : s.cutting.live = some live) (rounds : Nat) :
    Inv cll (deliver cll outside s live rounds) := by
  have delivered := @deliverWitnessRows_delivered cll s.cutting.disk.committed W outside fair
    inv.shrink live.substrate.lastCheckpoint s.witnesses.rowWitnessIds s.witnesses.cadenceSeconds
    rounds (knownSize live) s.witnesses.witnessQueues s.scene inv.sorted (inv.queued live running)
  apply inv.advance delivered.advances
  intro other still
  cases Option.some.inj (running.symm.trans still)
  exact delivered.covered

/-! ### Opening -/

/-- A committed checkpoint is no larger than the newest one. -/
theorem le_of_committed {committed : List CheckpointRecord} {cp : CheckpointRecord}
    (grow : committed.Pairwise (fun newer older => older.mmrSize < newer.mmrSize))
    (inside : cp ∈ committed) :
    cp.mmrSize ≤ (committed.head?.map CheckpointRecord.mmrSize).getD 0 := by
  cases committed with
  | nil => cases inside
  | cons newest older =>
      rcases List.mem_cons.mp inside with rfl | earlier
      · exact Nat.le_refl _
      · exact Nat.le_of_lt ((List.pairwise_cons.mp grow).1 cp earlier)

/-- The rows of a backend are of positive sizes. -/
theorem positive_of_sorted {committed : List CheckpointRecord} {rows : List WitnessState}
    (shrink : ∀ cp ∈ committed, cp.prevSize < cp.mmrSize) (sorted : Sorted cll committed rows)
    (witnessId : String) : ∀ row ∈ ownRows rows witnessId, 0 < row.checkpointSize := by
  intro row inside
  rcases sorted.carried row (mem_ownRows.mp inside).1 with ⟨cp, member, -, covers⟩
  exact covers ▸ Nat.lt_of_le_of_lt (Nat.zero_le _) (shrink cp member)

theorem mem_openSizes {own : List WitnessState} {size : Nat} :
    size ∈ openSizes own ↔ ∃ row ∈ own, row.closed = false ∧ row.checkpointSize = size := by
  rw [openSizes, List.mem_map]
  constructor
  · rintro ⟨row, inside, sized⟩
    rcases List.mem_filter.mp inside with ⟨there, opened⟩
    exact ⟨row, there, (Bool.not_eq_true' _).mp opened, sized⟩
  · rintro ⟨row, there, opened, sized⟩
    exact ⟨row, List.mem_filter.mpr ⟨there, (Bool.not_eq_true' _).mpr opened⟩, sized⟩

theorem openSizes_sorted {own : List WitnessState} (ordered : Ordered own) :
    (openSizes own).Pairwise (· < ·) := by
  rw [openSizes, List.pairwise_map]
  exact (ordered.sublist List.filter_sublist).imp (fun order => order.1)

/-- The queue that is computed from the rows has every open row of the witness. -/
theorem undelivered_covered {committed : List CheckpointRecord} {rows : List WitnessState}
    (shrink : ∀ cp ∈ committed, cp.prevSize < cp.mmrSize) (sorted : Sorted cll committed rows)
    {known : Nat} (small : ∀ cp ∈ committed, cp.mmrSize ≤ known) (witnessId : String) :
    Covered rows witnessId known (undelivered rows witnessId) := by
  rw [undelivered_eq (sorted.ordered witnessId) (positive_of_sorted shrink sorted witnessId)]
  constructor
  case sorted => exact openSizes_sorted (sorted.ordered witnessId)
  case within =>
    intro size inside
    rcases mem_openSizes.mp inside with ⟨row, there, -, rfl⟩
    rcases sorted.carried row (mem_ownRows.mp there).1 with ⟨cp, member, -, covers⟩
    exact covers ▸ small cp member
  case covers => exact fun row inside _ opened => mem_openSizes.mpr ⟨row, inside, opened, rfl⟩

/-- A process that opens a log knows the newest checkpoint. -/
theorem loadLog_newest {entries : List Bytes} {disk : Disk} {cfg : Config}
    {live : CheckpointState} (kept : Kept cll disk)
    (loaded : loadLog cll entries disk.state cfg = .ok live) :
    live.substrate.lastCheckpoint = disk.committed.head? := by
  rw [loadLog] at loaded
  split at loaded
  · cases loaded
  · split at loaded
    · cases loaded
    · split at loaded
      · cases loaded
      · next substrate opening =>
          have opened := openLog_eq_ok opening
          split at loaded
          · cases loaded
          · cases loaded
            exact kept.newest opened.resumes opened.expected.symm

theorem reopen_inv (lawful : cll.Lawful) {s : State W} (inv : Inv cll s) (cfg : Config)
    (witnessUrls : List String) (cadenceSeconds : Nat) :
    Inv cll (reopen cll s cfg witnessUrls cadenceSeconds).2 := by
  have closed : Inv cll { s with cutting := { s.cutting with live := none } } :=
    ⟨⟨inv.cutting.kept, inv.cutting.logged, fun _ none => (Option.not_mem_none _ none).elim⟩,
      inv.shrink, inv.sorted, inv.sent, inv.distinct,
      fun _ none => (Option.not_mem_none _ none).elim⟩
  have stepped := Cutting.step_inv lawful s.cutting (.reopen cfg) inv.cutting
  simp only [reopen]
  cases refused : refusedUrl [] witnessUrls with
  | some refusal => exact closed
  | none =>
      cases loaded : loadLog cll s.cutting.entries s.cutting.disk.state cfg with
      | error err => exact closed
      | ok live =>
          simp only [Cutting.step, loaded] at stepped
          refine ⟨stepped, inv.shrink, inv.sorted, inv.sent, (nodup_of_refusedUrl refused).1, ?_⟩
          rintro _ ⟨⟩ item inside
          rcases List.mem_map.mp inside with ⟨url, -, rfl⟩
          -- What was loaded is the newest checkpoint.
          have newest := loadLog_newest inv.cutting.kept loaded
          apply undelivered_covered inv.shrink inv.sorted
          intro cp member
          rw [knownSize, newest]
          exact le_of_committed inv.cutting.kept.chained.grow member

/-! ### Cutting -/

/-- What a cut commits, and what the process learns of it. -/
structure Committed (cll : Cll) (s : CheckpointState) (disk : Disk) (cp : CheckpointRecord)
    (cut : Except CheckpointStateError CheckpointRecord × After) : Prop where
  shrink : cp.prevSize < cp.mmrSize
  newest : s.substrate.lastCheckpoint = disk.committed.head?
  grown : cut.2.disk.committed = cp :: disk.committed
  stored : ∃ stored, cut.2.disk.state.checkpoint = some stored ∧ stored.size = cp.mmrSize ∧
    cll.decode stored.bytes = some cp
  learned : (∃ err, cut.1 = .error err) ∧
      cut.2.live.substrate.lastCheckpoint = s.substrate.lastCheckpoint ∨
    cut.1 = .ok cp ∧ cut.2.live.substrate.lastCheckpoint = some cp

/-- A cut fails and changes nothing of the backend, or commits a checkpoint. -/
theorem checkpointNow_commits (lawful : cll.Lawful) {s : CheckpointState} {entries : List Bytes}
    {disk : Disk} (steady : Steady cll ⟨s, entries, disk⟩) (call : Call) :
    (∃ err, (Substrate.checkpointNow cll s entries disk call).1 = .error err) ∧
        (Substrate.checkpointNow cll s entries disk call).2.disk = disk ∧
        (Substrate.checkpointNow cll s entries disk call).2.live.substrate.lastCheckpoint =
          s.substrate.lastCheckpoint ∨
      ∃ cp, Committed cll s disk cp (Substrate.checkpointNow cll s entries disk call) := by
  have cut := cutLeafCount_counts steady.counts call
  rcases counted : cutLeafCount cll s entries call with ⟨err | cutLeaves, s', grown⟩
  · rw [counted] at cut
    simp only [Substrate.checkpointNow, counted]
    exact Or.inl ⟨⟨err, rfl⟩, trivial, cut.folds.last⟩
  · rw [counted] at cut
    cases made : prepareCheckpoint cll s'.substrate cutLeaves s'.logId call.timestamp
        call.signer with
    | error err =>
        simp only [Substrate.checkpointNow, counted, made]
        exact Or.inl ⟨⟨_, rfl⟩, trivial, cut.folds.last⟩
    | ok prepared =>
        have sound := (prepareCheckpoint_eq_ok made).1
        rcases @commitCheckpoint_cases cll s'.substrate disk prepared call.answer with
          ⟨err, same⟩ | ⟨bytes, n, names, cose, -, expected, result, substrate, same, outcome⟩
        · simp only [Substrate.checkpointNow, counted, made, same]
          exact Or.inl ⟨⟨_, rfl⟩, trivial, cut.folds.last⟩
        · have resumes := cut.folds.resumes steady.resumes
          have newest := cut.folds.last.symm.trans (steady.kept.newest resumes expected)
          have read := lawful.decode_cose _ _ (sound.cose.symm.trans cose)
          simp only [Substrate.checkpointNow, counted, made, same]
          refine Or.inr ⟨prepared.checkpoint, ?_⟩
          rcases outcome with ⟨err, rfl, rfl⟩ | ⟨rfl, rfl⟩
          · exact ⟨sound.grows, newest, rfl, ⟨_, rfl, rfl, read⟩,
              Or.inl ⟨⟨_, rfl⟩, cut.folds.last⟩⟩
          · exact ⟨sound.grows, newest, rfl, ⟨_, rfl, rfl, read⟩, Or.inr ⟨rfl, rfl⟩⟩

theorem newRows_same (witnessUrls : List String) (now : Int) (before after : Disk)
    (same : after.committed = before.committed) : newRows witnessUrls now before after = [] := by
  rw [newRows, same]
  split
  · rfl
  · rw [if_neg (Nat.lt_irrefl _)]

/-- Every row that a commit adds is open and carries the checkpoint. -/
theorem mem_newRows {witnessUrls : List String} {now : Int} {before after : Disk}
    {stored : LogCheckpoint} (known : after.state.checkpoint = some stored) {row : WitnessState}
    (inside : row ∈ newRows witnessUrls now before after) :
    row.checkpointSize = stored.size ∧ row.checkpoint = stored.bytes ∧ row.closed = false ∧
      row.witnessId ∈ witnessUrls := by
  rw [newRows, known] at inside
  simp only at inside
  split at inside
  · rcases List.mem_map.mp inside with ⟨url, configured, rfl⟩
    exact ⟨rfl, rfl, rfl, configured⟩
  · cases inside

/-- A witness gets at most one row of a commit. -/
theorem newRows_single {witnessUrls : List String} (distinct : witnessUrls.Nodup) (now : Int)
    (before after : Disk) :
    (newRows witnessUrls now before after).Pairwise (fun row other => row.witnessId ≠ other.witnessId) := by
  rw [newRows]
  split
  · exact List.Pairwise.nil
  · split
    · rw [List.pairwise_map]
      exact distinct
    · exact List.Pairwise.nil

/-- Rows of a larger size go behind the rows there are. -/
theorem sorted_append {committed : List CheckpointRecord} {rows more : List WitnessState}
    {cp : CheckpointRecord} (sorted : Sorted cll committed rows)
    (larger : ∀ older ∈ committed, older.mmrSize < cp.mmrSize)
    (single : more.Pairwise (fun row other => row.witnessId ≠ other.witnessId))
    (new : ∀ row ∈ more, row.checkpointSize = cp.mmrSize ∧ row.closed = false ∧
      cll.decode row.checkpoint = some cp) : Sorted cll (cp :: committed) (rows ++ more) where
  ordered := by
    intro witnessId
    rw [ownRows, List.filter_append]
    refine List.pairwise_append.mpr ⟨sorted.ordered witnessId, ?_, ?_⟩
    · apply (single.sublist List.filter_sublist).imp_of_mem
      intro row other here there differ
      exact absurd ((mem_ownRows.mp here).2.trans (mem_ownRows.mp there).2.symm) differ
    · intro row here other there
      rcases sorted.carried row (mem_ownRows.mp here).1 with ⟨older, member, -, covers⟩
      have added := new other (mem_ownRows.mp there).1
      refine ⟨by rw [added.1, ← covers]; exact larger older member, fun closed => ?_⟩
      rw [added.2.1] at closed
      cases closed
  carried := by
    intro row inside
    rcases List.mem_append.mp inside with old | added
    · rcases sorted.carried row old with ⟨older, member, decoded, covers⟩
      exact ⟨older, List.mem_cons_of_mem _ member, decoded, covers⟩
    · have fresh := new row added
      exact ⟨cp, List.mem_cons_self, fresh.2.2, fresh.1.symm⟩

theorem InTurn.cons {committed : List CheckpointRecord} {cp : CheckpointRecord} {item : Sent}
    (turn : InTurn cll committed item) : InTurn cll (cp :: committed) item := by
  rcases turn with ⟨size, ⟨older, member, decoded, covers⟩, below⟩
  exact ⟨size, ⟨older, List.mem_cons_of_mem _ member, decoded, covers⟩, below⟩

/-- Larger rows that are not known leave a queue as it is. -/
theorem covered_append {rows more : List WitnessState} {witnessId : String} {known : Nat}
    {queue : List Nat} (covered : Covered rows witnessId known queue)
    (larger : ∀ row ∈ more, known < row.checkpointSize) :
    Covered (rows ++ more) witnessId known queue where
  sorted := covered.sorted
  within := covered.within
  covers := by
    intro row inside small opened
    rcases mem_ownRows.mp inside with ⟨there, owner⟩
    rcases List.mem_append.mp there with old | added
    · exact covered.covers row (mem_ownRows.mpr ⟨old, owner⟩) small opened
    · exact absurd small (Nat.not_le_of_lt (larger row added))

/-- A new checkpoint goes at the end of a queue. -/
theorem covered_concat {committed : List CheckpointRecord} {rows more : List WitnessState}
    {witnessId : String} {known size : Nat} {queue : List Nat} (sorted : Sorted cll committed rows)
    (small : ∀ cp ∈ committed, cp.mmrSize ≤ known) (larger : known < size)
    (covered : Covered rows witnessId known queue)
    (new : ∀ row ∈ more, row.checkpointSize = size) :
    Covered (rows ++ more) witnessId size (queue ++ [size]) where
  sorted := List.pairwise_append.mpr ⟨covered.sorted, List.pairwise_singleton _ _,
    fun queued inside _ last => List.mem_singleton.mp last ▸
      Nat.lt_of_le_of_lt (covered.within queued inside) larger⟩
  within := by
    intro queued inside
    rcases List.mem_append.mp inside with old | last
    · exact Nat.le_of_lt (Nat.lt_of_le_of_lt (covered.within queued old) larger)
    · exact Nat.le_of_eq (List.mem_singleton.mp last)
  covers := by
    intro row inside _ opened
    rcases mem_ownRows.mp inside with ⟨there, owner⟩
    rcases List.mem_append.mp there with old | added
    · rcases sorted.carried row old with ⟨cp, member, -, covers⟩
      exact List.mem_append_left _ (covered.covers row (mem_ownRows.mpr ⟨old, owner⟩)
        (covers ▸ small cp member) opened)
    · exact List.mem_append_right _ (List.mem_singleton.mpr (new row added))

theorem commitRows_inv (lawful : cll.Lawful) {s : State W} (inv : Inv cll s)
    {live : CheckpointState} (running : s.cutting.live = some live) (call : Call) :
    Inv cll (commitRows cll outside s live call).2 := by
  have steady := inv.cutting.steady live running
  have cutting := Cutting.inv_toState (checkpointNow_cuts lawful steady call).steady
  have queued := inv.queued live running
  rcases checkpointNow_commits lawful steady call with ⟨⟨err, failed⟩, same, last⟩ | ⟨cp, commits⟩
  · have none := newRows_same s.witnesses.witnessUrls (outside.now s.scene.world).1
      s.cutting.disk _ (congrArg Disk.committed same)
    simp only [commitRows, none, List.append_nil, failed]
    have keeps : ∀ P : List CheckpointRecord → Prop, P s.cutting.disk.committed →
        P (Substrate.checkpointNow cll live s.cutting.entries s.cutting.disk call).2.disk.committed := by
      intro P before
      rw [same]
      exact before
    refine ⟨cutting, ?_, ?_, ?_, inv.distinct, ?_⟩
    · exact keeps (fun committed => ∀ cp ∈ committed, cp.prevSize < cp.mmrSize) inv.shrink
    · exact keeps (fun committed => Sorted cll committed s.scene.rows) inv.sorted
    · exact keeps (fun committed => ∀ item ∈ s.scene.sent, InTurn cll committed item) inv.sent
    · rintro _ ⟨⟩
      change AllCovered s.scene.rows (knownSize _) _
      rw [knownSize, last]
      exact queued
  · rcases commits.stored with ⟨stored, kept, sized, decoded⟩
    have grow := (checkpointNow_cuts lawful steady call).steady.kept.chained.grow
    rw [commits.grown] at grow
    have larger := (List.pairwise_cons.mp grow).1
    have small : ∀ older ∈ s.cutting.disk.committed, older.mmrSize ≤ knownSize live := by
      intro older member
      rw [knownSize, commits.newest]
      exact le_of_committed inv.cutting.kept.chained.grow member
    have above : knownSize live < cp.mmrSize := by
      rw [knownSize, commits.newest]
      cases newest : s.cutting.disk.committed.head? with
      | none => exact Nat.lt_of_le_of_lt (Nat.zero_le _) commits.shrink
      | some head => exact larger head (List.mem_of_mem_head? newest)
    have new := @mem_newRows s.witnesses.witnessUrls (outside.now s.scene.world).1
      s.cutting.disk _ stored kept
    have sorted := sorted_append inv.sorted larger (newRows_single inv.distinct _ _ _)
      (fun row inside => ⟨(new inside).1.trans sized, (new inside).2.2.1,
        (new inside).2.1 ▸ decoded⟩)
    refine ⟨cutting, ?_, commits.grown.symm ▸ sorted, ?_, inv.distinct, ?_⟩
    · intro other inside
      rcases List.mem_cons.mp (commits.grown ▸ inside) with rfl | older
      · exact commits.shrink
      · exact inv.shrink other older
    · intro item inside
      exact commits.grown.symm ▸ (inv.sent item inside).cons
    · rintro _ ⟨⟩
      simp only [commitRows]
      rcases commits.learned with ⟨⟨err, failed⟩, last⟩ | ⟨succeeded, last⟩
      · rw [failed, knownSize, last]
        exact fun item inside => covered_append (queued item inside)
          (fun row added => by rw [(new added).1, sized]; exact above)
      · rw [succeeded, knownSize, last]
        intro item inside
        rcases List.mem_map.mp inside with ⟨before, there, rfl⟩
        exact covered_concat inv.sorted small above (queued before there)
          (fun row added => (new added).1.trans sized)

/-! ### Every step -/

theorem synced_inv (lawful : cll.Lawful) {s : State W} (inv : Inv cll s)
    {live : CheckpointState} (running : s.cutting.live = some live) (scanned : Option Nat) :
    Inv cll (synced cll s live scanned) := by
  have stepped := Cutting.step_inv lawful s.cutting (.sync scanned) inv.cutting
  rcases s with ⟨⟨_, entries, disk⟩, witnesses, scene⟩
  cases running
  refine ⟨stepped, inv.shrink, inv.sorted, inv.sent, inv.distinct, ?_⟩
  rintro _ ⟨⟩
  rw [knownSize, (syncLog_folds live entries scanned).last]
  exact inv.queued live rfl

theorem checkpointNow_inv (lawful : cll.Lawful) (fair : outside.Disciplined) {s : State W}
    (inv : Inv cll s) {live : CheckpointState} (running : s.cutting.live = some live)
    (call : Call) (register : Bool) (rounds : Nat) :
    Inv cll (checkpointNow cll outside s live call register rounds).2 := by
  have rowed := @commitRows_inv cll W outside lawful s inv live running call
  rw [checkpointNow]
  split
  · next err s' answered =>
      rw [answered] at rowed
      exact rowed
  · next cp s' answered =>
      rw [answered] at rowed
      split
      · next live' running' =>
          cases register with
          | true => exact deliver_inv fair rowed running' rounds
          | false => exact rowed
      · exact rowed

/-- Every operation keeps the rows, the queues and what was sent. -/
theorem step_inv (lawful : cll.Lawful) (fair : outside.Disciplined) (s : State W) (op : Op)
    (inv : Inv cll s) : Inv cll (step cll outside s op).2 := by
  cases running : s.cutting.live with
  | none =>
      cases op with
      | append values =>
          have stepped := Cutting.step_inv lawful s.cutting (.append values) inv.cutting
          exact ⟨stepped, inv.shrink, inv.sorted, inv.sent, inv.distinct, inv.queued⟩
      | reopen cfg witnessUrls cadenceSeconds =>
          exact reopen_inv lawful inv cfg witnessUrls cadenceSeconds
      | others =>
          have arrived := @arrive_advances cll s.cutting.disk.committed W outside fair s.scene
          exact inv.advance arrived (fun live still =>
            (inv.queued live still).onward arrived.onward)
      | _ =>
          simp only [step, running]
          exact inv
  | some live =>
      have folded : ∀ scanned, (synced cll s live scanned).cutting.live =
          some (syncLog cll live s.cutting.entries scanned).2 := fun _ => rfl
      cases op with
      | append values =>
          have stepped := Cutting.step_inv lawful s.cutting (.append values) inv.cutting
          exact ⟨stepped, inv.shrink, inv.sorted, inv.sent, inv.distinct, inv.queued⟩
      | reopen cfg witnessUrls cadenceSeconds =>
          exact reopen_inv lawful inv cfg witnessUrls cadenceSeconds
      | others =>
          have arrived := @arrive_advances cll s.cutting.disk.committed W outside fair s.scene
          exact inv.advance arrived (fun live still =>
            (inv.queued live still).onward arrived.onward)
      | setPaddingSink =>
          simp only [step, running]
          have stepped := Cutting.step_inv lawful s.cutting .setPaddingSink inv.cutting
          simp only [Cutting.step, running] at stepped
          refine ⟨stepped, inv.shrink, inv.sorted, inv.sent, inv.distinct, ?_⟩
          rintro _ ⟨⟩
          exact inv.queued live running
      | sync scanned =>
          simp only [step, running]
          exact synced_inv lawful inv running scanned
      | checkpointNow call register rounds =>
          simp only [step, running]
          exact checkpointNow_inv lawful fair inv running call register rounds
      | tick call rounds =>
          have ready := synced_inv lawful inv running call.scanned
          simp only [step, running, tick]
          split
          · exact ready
          · exact ready
          · split
            · exact checkpointNow_inv lawful fair ready (folded _) call true rounds
            · exact deliver_inv fair ready (folded _) rounds
      | reconnect call rounds =>
          have ready := synced_inv lawful inv running call.scanned
          simp only [step, running, reconnect]
          split
          · exact ready
          · split
            · exact ready
            · split
              · exact checkpointNow_inv lawful fair ready (folded _) call true rounds
              · split
                · exact ready
                · split
                  · exact deliver_inv fair ready (folded _) rounds
                  · exact checkpointNow_inv lawful fair ready (folded _) call true rounds
      | retryPendingWitnesses rounds =>
          simp only [step, running]
          exact deliver_inv fair inv running rounds

theorem sorted_nil (committed : List CheckpointRecord) : Sorted cll committed [] where
  ordered := fun _ => by
    rw [ownRows, List.filter_nil]
    exact List.Pairwise.nil
  carried := fun _ inside => by cases inside

theorem inv_after (lawful : cll.Lawful) (fair : outside.Disciplined) (world : W) (ops : List Op) :
    Inv cll (Machine.after (step cll outside) (State.start world) ops) :=
  Machine.invariant (step_inv lawful fair)
    ⟨Cutting.inv_after lawful [], fun _ inside => (by cases inside), sorted_nil _,
      fun _ inside => (by cases inside), List.nodup_nil,
      fun _ none => (Option.not_mem_none _ none).elim⟩ ops

/-! ## What the invariant gives -/

/-- Every row is still there, and a closed one is as it was. -/
def Lasting (rows rows' : List WitnessState) : Prop := ∀ row ∈ rows, ∃ next ∈ rows', Keep row next

theorem Lasting.refl (rows : List WitnessState) : Lasting rows rows :=
  fun row inside => ⟨row, inside, Keep.refl row⟩

theorem Lasting.trans {rows rows' rows'' : List WitnessState} (one : Lasting rows rows')
    (two : Lasting rows' rows'') : Lasting rows rows'' := by
  intro row inside
  rcases one row inside with ⟨next, there, kept⟩
  rcases two next there with ⟨last, later, further⟩
  exact ⟨last, later, kept.trans further⟩

theorem Onward.lasting {rows rows' : List WitnessState} (onward : Onward rows rows') :
    Lasting rows rows' := (exists_of_forall₂_keep onward.keep).1

theorem deliver_lasting (fair : outside.Disciplined) {s : State W} (inv : Inv cll s)
    {live : CheckpointState} (running : s.cutting.live = some live) (rounds : Nat) :
    Lasting s.scene.rows (deliver cll outside s live rounds).scene.rows := by
  have delivered := @deliverWitnessRows_delivered cll s.cutting.disk.committed W outside fair
    inv.shrink live.substrate.lastCheckpoint s.witnesses.rowWitnessIds s.witnesses.cadenceSeconds
    rounds (knownSize live) s.witnesses.witnessQueues s.scene inv.sorted (inv.queued live running)
  exact Onward.lasting delivered.advances.onward

theorem checkpointNow_lasting (lawful : cll.Lawful) (fair : outside.Disciplined) {s : State W}
    (inv : Inv cll s) {live : CheckpointState} (running : s.cutting.live = some live)
    (call : Call) (register : Bool) (rounds : Nat) :
    Lasting s.scene.rows (checkpointNow cll outside s live call register rounds).2.scene.rows := by
  have rowed := @commitRows_inv cll W outside lawful s inv live running call
  have more : Lasting s.scene.rows (commitRows cll outside s live call).2.scene.rows :=
    fun row inside => ⟨row, List.mem_append_left _ inside, Keep.refl row⟩
  rw [checkpointNow]
  split
  · next err s' answered =>
      rw [answered] at more
      exact more
  · next cp s' answered =>
      rw [answered] at more rowed
      split
      · next live' running' =>
          cases register with
          | true => exact more.trans (deliver_lasting fair rowed running' rounds)
          | false => exact more
      · exact more

theorem step_lasting (lawful : cll.Lawful) (fair : outside.Disciplined) {s : State W}
    (inv : Inv cll s) (op : Op) : Lasting s.scene.rows (step cll outside s op).2.scene.rows := by
  have moved := Onward.lasting
    (@arrive_advances cll s.cutting.disk.committed W outside fair s.scene).onward
  have opened : ∀ cfg witnessUrls cadenceSeconds,
      (reopen cll s cfg witnessUrls cadenceSeconds).2.scene = s.scene := by
    intro cfg witnessUrls cadenceSeconds
    simp only [reopen]
    split
    · rfl
    · split <;> rfl
  cases running : s.cutting.live with
  | none =>
      cases op with
      | reopen cfg witnessUrls cadenceSeconds =>
          exact (opened cfg witnessUrls cadenceSeconds) ▸ Lasting.refl s.scene.rows
      | others => exact moved
      | append values => exact Lasting.refl _
      | _ =>
          simp only [step, running]
          exact Lasting.refl _
  | some live =>
      have folded : ∀ scanned, (synced cll s live scanned).cutting.live =
          some (syncLog cll live s.cutting.entries scanned).2 := fun _ => rfl
      have ready := fun scanned => synced_inv lawful inv running scanned
      cases op with
      | append values => exact Lasting.refl _
      | reopen cfg witnessUrls cadenceSeconds =>
          exact (opened cfg witnessUrls cadenceSeconds) ▸ Lasting.refl s.scene.rows
      | others => exact moved
      | setPaddingSink =>
          simp only [step, running]
          exact Lasting.refl _
      | sync scanned =>
          simp only [step, running]
          exact Lasting.refl _
      | checkpointNow call register rounds =>
          simp only [step, running]
          exact checkpointNow_lasting lawful fair inv running call register rounds
      | tick call rounds =>
          simp only [step, running, tick]
          split
          · exact Lasting.refl _
          · exact Lasting.refl _
          · split
            · exact checkpointNow_lasting lawful fair (ready _) (folded _) call true rounds
            · exact deliver_lasting fair (ready _) (folded _) rounds
      | reconnect call rounds =>
          simp only [step, running, reconnect]
          split
          · exact Lasting.refl _
          · split
            · exact Lasting.refl _
            · split
              · exact checkpointNow_lasting lawful fair (ready _) (folded _) call true rounds
              · split
                · exact Lasting.refl _
                · split
                  · exact deliver_lasting fair (ready _) (folded _) rounds
                  · exact checkpointNow_lasting lawful fair (ready _) (folded _) call true rounds
      | retryPendingWitnesses rounds =>
          simp only [step, running]
          exact deliver_lasting fair inv running rounds

/-- What is open in a queue is what is undelivered to its witness, up to a size. -/
theorem queue_eq_undelivered {committed : List CheckpointRecord} {rows : List WitnessState}
    (shrink : ∀ cp ∈ committed, cp.prevSize < cp.mmrSize) (sorted : Sorted cll committed rows)
    {witnessId : String} {known : Nat} {queue : List Nat}
    (covered : Covered rows witnessId known queue) :
    queue.filter (isOpen rows witnessId) =
      (undelivered rows witnessId).filter (fun size => size ≤ known) := by
  have ordered := sorted.ordered witnessId
  rw [undelivered_eq ordered (positive_of_sorted shrink sorted witnessId)]
  apply List.Pairwise.eq_of_mem_iff (covered.sorted.sublist List.filter_sublist)
    ((openSizes_sorted ordered).sublist List.filter_sublist)
  intro size
  rw [List.mem_filter, List.mem_filter, mem_openSizes, decide_eq_true_eq]
  constructor
  · rintro ⟨queued, opened⟩
    rw [isOpen, Option.any_eq_true] at opened
    rcases opened with ⟨row, found, opened⟩
    have key := findRow_eq_some found
    exact ⟨⟨row, key.1, (Bool.not_eq_true' _).mp opened, key.2⟩, covered.within size queued⟩
  · rintro ⟨⟨row, inside, opened, rfl⟩, small⟩
    refine ⟨covered.covers row inside small opened, ?_⟩
    rw [isOpen, findRow_of_mem ordered inside, Option.any_some, opened]
    rfl

/-- What holds in every state: the rows of a witness are closed in the order of the chain, each
row carries a committed checkpoint of its size, what was sent was in turn, and a process that
stops now would open with the queues it has, but for checkpoints it has not heard of. -/
structure Holds (cll : Cll) {W : Type u} (s : State W) : Prop where
  ordered : ∀ witnessId, Ordered (ownRows s.scene.rows witnessId)
  carried : ∀ row ∈ s.scene.rows,
    Carries cll s.cutting.disk.committed row.checkpointSize row.checkpoint
  inTurn : ∀ item ∈ s.scene.sent, InTurn cll s.cutting.disk.committed item
  resumed : ∀ live ∈ s.cutting.live, ∀ item ∈ s.witnesses.witnessQueues,
    item.2.filter (isOpen s.scene.rows item.1) =
      (undelivered s.scene.rows item.1).filter (fun size => size ≤ knownSize live)
  heard : ∀ live ∈ s.cutting.live,
    live.substrate.lastCheckpoint = s.cutting.disk.committed.head? →
    ∀ row ∈ s.scene.rows, row.checkpointSize ≤ knownSize live

theorem holds_of_inv {s : State W} (inv : Inv cll s) : Holds cll s where
  ordered := inv.sorted.ordered
  carried := inv.sorted.carried
  inTurn := inv.sent
  resumed := fun live running item inside =>
    queue_eq_undelivered inv.shrink inv.sorted (inv.queued live running item inside)
  heard := by
    intro live _ newest row inside
    rcases inv.sorted.carried row inside with ⟨cp, member, -, covers⟩
    rw [← covers, knownSize, newest]
    exact le_of_committed inv.cutting.kept.chained.grow member

end

/-! ### A witness of a log of two records -/

def sampleReceipt : Receipt := ⟨[1], "00", "sha256-of-digest", 0, 1⟩

/-- A witness that keeps the size and root it accepted last. -/
def sampleOutside : Outside (Option (Nat × String)) where
  clientFor _ := true
  submit owner bytes world :=
    if owner = "https://witness" then
      match sampleCll.decode bytes, world with
      | none, _ => (.failed "not a checkpoint", world)
      | some cp, none => (.accepted sampleReceipt, some (cp.mmrSize, cp.root))
      | some cp, some last =>
          if (cp.prevSize, cp.prevRoot) = last then
            (.accepted sampleReceipt, some (cp.mmrSize, cp.root))
          else (.refused last.1 last.2 "not chained", world)
    else (.failed "unreachable", world)
  others rows world := (rows, world)
  reads world := (none, world)
  writes world := (.done, world)
  now world := (0, world)
  maxReasonBytes := 512

theorem sampleOutside_disciplined : sampleOutside.Disciplined := fun rows _ => Onward.refl rows

/-- A checkpoint cut over two records, and left for the clock. -/
def sampleRun : List Op :=
  [.reopen ⟨sampleRecord.logId, 100, 0, [sampleRecord.keyId]⟩ ["https://witness"] 300,
    .append [sampleEntry "1", sampleEntry "2"], .sync none, .checkpointNow sampleCall false 0]

def afterRun : State (Option (Nat × String)) :=
  Machine.after (step sampleCll sampleOutside) (State.start none) sampleRun

end Delivery
end Substrate
end Checkpointing
end CapsuleEmit
