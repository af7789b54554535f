import CapsuleEmit.Foundation.Files
import CapsuleEmit.Foundation.Machine

namespace CapsuleEmit
namespace Keys

open Files (Disk Fate Outcome Program refuse touch isThere read write rename)

/-!
# The key of a node

A node has its key in a directory, the public half beside it, and the keys it had
before in an archive.  `load_or_create` reads the key, and makes one when it finds
none.  `rotate` moves the key and its public half into the archive and writes a
new pair.

There is no point at which a rotation takes place as a whole.  Once the key has
been moved away, an operation that fails, or the end of the process, leaves a
directory that looks as it did before the first key.
-/

/-! ## Keys and files -/

/-- What is used of Ed25519 and its PEM encodings. -/
structure Crypto (Key Public : Type) where
  privateKeyPem : Key → Bytes
  publicKeyPem : Key → Bytes
  loadSigningKeyPem : Bytes → Option Key
  loadVerifyingKeyPem : Bytes → Option Public
  verifyingKey : Key → Public
  keyIdOf : Public → String

/-- A key is read from what is written of it. -/
structure Crypto.Documented {Key Public : Type} (crypto : Crypto Key Public) : Prop where
  signing : ∀ key, crypto.loadSigningKeyPem (crypto.privateKeyPem key) = some key
  verifying : ∀ key,
    crypto.loadVerifyingKeyPem (crypto.publicKeyPem key) = some (crypto.verifyingKey key)

/-- `node-key.pem`, `node-key.pub.pem`, and both in the archive under a key's
identifier. -/
inductive File where
  | nodeKey
  | nodePub
  | archivedKey (keyId : String)
  | archivedPub (keyId : String)
  deriving DecidableEq

/-- A file that holds the public half of a key. -/
def File.isPub : File → Bool
  | .nodePub => true
  | .archivedPub _ => true
  | _ => false

/-- The operations of a call. -/
inductive Step where
  | createDir
  | existsKey
  | readKey
  | renameKey
  | permitArchived
  | existsPub
  | renamePub
  | writeKey
  | permitKey
  | writePub

inductive KeyError where
  | decode
  | noCurrentKey

variable {Key Public : Type} (crypto : Crypto Key Public)

/-- `RotationRecord` -/
structure RotationRecord (Key : Type) where
  oldKeyId : String
  newKeyId : String
  rotatedAt : String
  newKeys : Key

def keyId (key : Key) : String := crypto.keyIdOf (crypto.verifyingKey key)

/-! ## The functions -/

def writePrivatePem (pem : Bytes) : Program Step File KeyError PUnit := do
  write .writeKey .nodeKey pem
  touch .permitKey

/-- The key file is read and decoded. -/
def loadKey : Program Step File KeyError Key := do
  let pem ← read .readKey .nodeKey
  (crypto.loadSigningKeyPem pem).elim (refuse .decode) pure

/-- A key is written with its public half. -/
def writeKeys (keys : Key) : Program Step File KeyError PUnit := do
  writePrivatePem (crypto.privateKeyPem keys)
  write .writePub .nodePub (crypto.publicKeyPem keys)

/-- The key of a node that has none yet. -/
def create (fresh : Key) : Program Step File KeyError Key := do
  writeKeys crypto fresh
  pure fresh

/-- `load_or_create`, with the key that would be generated. -/
def loadOrCreate (fresh : Key) : Program Step File KeyError Key := do
  touch .createDir
  let there ← isThere .existsKey .nodeKey
  if there then loadKey crypto else create crypto fresh

/-- The public half is moved, when there is one. -/
def archivePub (oldKeyId : String) : Program Step File KeyError PUnit := do
  let there ← isThere .existsPub .nodePub
  if there then rename .renamePub .nodePub (.archivedPub oldKeyId) else pure ⟨⟩

/-- The rest of a rotation, from where the key is moved. -/
def replace (old fresh : Key) (now : String) :
    Program Step File KeyError (RotationRecord Key) := do
  rename .renameKey .nodeKey (.archivedKey (keyId crypto old))
  touch .permitArchived
  archivePub (keyId crypto old)
  writeKeys crypto fresh
  pure ⟨keyId crypto old, keyId crypto fresh, now, fresh⟩

def rotateFrom (fresh : Key) (now : String) :
    Program Step File KeyError (RotationRecord Key) := do
  let old ← loadKey crypto
  touch .createDir
  replace crypto old fresh now

/-- `rotate`, with the key that is generated and the time. -/
def rotate (fresh : Key) (now : String) : Program Step File KeyError (RotationRecord Key) := do
  let there ← isThere .existsKey .nodeKey
  if there then rotateFrom crypto fresh now else refuse .noCurrentKey

/-! ## Runs -/

/-- The key in the key file. -/
def current (disk : Disk File) : Option Key := (disk .nodeKey).bind crypto.loadSigningKeyPem

/-- The public half of a key is in a file. -/
def Readable (disk : Disk File) (key : Key) : Prop :=
  ∃ file, file.isPub = true ∧
    (disk file).bind crypto.loadVerifyingKeyPem = some (crypto.verifyingKey key)

/-- The directory, whether a `load_or_create` has returned a key, and the keys
that have been returned. -/
structure Node (Key : Type) where
  disk : Disk File
  loaded : Bool
  returned : List Key

def Node.empty : Node Key := ⟨fun _ => none, false, []⟩

/-- A call, with what becomes of its operations. -/
inductive Call (Key : Type) where
  | loadOrCreate (fresh : Key) (fates : Step → Fate)
  | rotate (fresh : Key) (now : String) (fates : Step → Fate)

inductive Answer (Key : Type) where
  | key (outcome : Outcome KeyError Key)
  | rotation (outcome : Outcome KeyError (RotationRecord Key))

def Node.loads (node : Node Key) : Outcome KeyError Key × Disk File → Node Key
  | (.ok key, disk) => ⟨disk, true, key :: node.returned⟩
  | (_, disk) => { node with disk }

def Node.rotates (node : Node Key) : Outcome KeyError (RotationRecord Key) × Disk File → Node Key
  | (.ok record, disk) => { node with disk, returned := record.newKeys :: node.returned }
  | (_, disk) => { node with disk }

def Node.step (node : Node Key) : Call Key → Answer Key × Node Key
  | .loadOrCreate fresh fates =>
      let result := loadOrCreate crypto fresh fates node.disk
      (.key result.1, node.loads result)
  | .rotate fresh now fates =>
      let result := rotate crypto fresh now fates node.disk
      (.rotation result.1, node.rotates result)

/-! ## What is to hold -/

/-- A call that is told the current key, or fails by an operation of its own. -/
def Call.Loads (disk : Disk File) : Call Key → Answer Key → Prop
  | .loadOrCreate _ fates, .key outcome =>
      (∀ key, outcome = .ok key → current crypto disk = some key) ∧
        ((∀ step, fates step = .done) → ∃ key, outcome = .ok key)
  | _, _ => True

/-- An answer describes a change of the key. -/
def Answer.Describes (disk disk' : Disk File) (key : Key) : Answer Key → Prop
  | .rotation (.ok record) => record.oldKeyId = keyId crypto key ∧
      record.newKeyId = keyId crypto record.newKeys ∧
      current crypto disk' = some record.newKeys
  | _ => current crypto disk' = current crypto disk

/-- What is to hold of a step: once a key was loaded the current one is; the key
is as it was, or the answer is the record of the change; and every key that was
returned has its public half in the directory. -/
structure Continuous (node : Node Key) (call : Call Key) : Prop where
  loads : node.loaded = true → call.Loads crypto node.disk (node.step crypto call).1
  described : ∀ key, current crypto node.disk = some key →
    (node.step crypto call).1.Describes crypto node.disk (node.step crypto call).2.disk key
  readable : ∀ key ∈ (node.step crypto call).2.returned,
    Readable crypto (node.step crypto call).2.disk key

def Sound (calls : List (Call Key)) : Prop :=
  ∀ front call back, calls = front ++ call :: back →
    Continuous crypto (Machine.after (Node.step crypto) Node.empty front) call

/-- What a call must not meet.  The key file is found when there is a key, and the
key has its public half beside it or in the archive.  A rotation that moves the
key has all its operations take place, and no other key of the archive has the
identifier of the old one. -/
def Unbroken (node : Node Key) : Call Key → Prop
  | .loadOrCreate _ fates => ∀ key, current crypto node.disk = some key →
      (∀ written, fates .existsKey ≠ .fails written) ∧ Readable crypto node.disk key
  | .rotate _ _ fates => ∀ key, current crypto node.disk = some key →
      fates .existsKey = .done → fates .readKey = .done → fates .createDir = .done →
      fates .renameKey = .done → (∀ step, fates step = .done) ∧
        (node.disk .nodePub = none ∨ node.disk (.archivedPub (keyId crypto key)) = none ∨
          node.disk (.archivedPub (keyId crypto key)) = node.disk .nodePub)

/-! ## What the functions do -/

variable {crypto} {fates : Step → Fate} {disk disk' : Disk File}

theorem loadKey_apply (fates : Step → Fate) (disk : Disk File) :
    loadKey crypto fates disk = match fates .readKey with
      | .done => ((disk .nodeKey).elim .io
          (fun pem => (crypto.loadSigningKeyPem pem).elim (.err .decode) .ok), disk)
      | .fails _ => (.io, disk)
      | .stops _ => (.stopped, disk) := by
  simp only [loadKey, Files.bind_apply, Files.read]
  cases fates .readKey with
  | done =>
      cases disk .nodeKey with
      | none => rfl
      | some pem =>
          simp only [Option.elim_some]
          cases crypto.loadSigningKeyPem pem with
          | none => rfl
          | some key => rfl
  | fails _ => rfl
  | stops _ => rfl

/-- Reading the key changes nothing, and gives the current key or fails. -/
theorem loadKey_cases (crypto : Crypto Key Public) (fates : Step → Fate) (disk : Disk File) :
    (∃ key, current crypto disk = some key ∧ loadKey crypto fates disk = (.ok key, disk) ∧
      fates .readKey = .done) ∨
      ∃ outcome, loadKey crypto fates disk = (outcome, disk) ∧ (∀ key, outcome ≠ .ok key) ∧
        (fates .readKey = .done → current crypto disk = none) := by
  rw [loadKey_apply]
  cases fates .readKey with
  | done =>
      unfold current
      cases disk .nodeKey with
      | none => exact Or.inr ⟨.io, rfl, nofun, fun _ => rfl⟩
      | some pem =>
          simp only [Option.elim_some, Option.bind_some]
          cases crypto.loadSigningKeyPem pem with
          | none => exact Or.inr ⟨.err .decode, rfl, nofun, fun _ => rfl⟩
          | some key => exact Or.inl ⟨key, rfl, rfl, trivial⟩
  | fails _ => exact Or.inr ⟨.io, rfl, nofun, nofun⟩
  | stops _ => exact Or.inr ⟨.stopped, rfl, nofun, nofun⟩

theorem isSome_of_current {key : Key} (has : current crypto disk = some key) :
    (disk .nodeKey).isSome = true := by
  rw [current] at has
  cases there : disk .nodeKey with
  | none =>
      rw [there] at has
      cases has
  | some pem => rfl

/-- The directory with a new pair of keys. -/
def withKeys (crypto : Crypto Key Public) (disk : Disk File) (keys : Key) : Disk File :=
  Function.update (Function.update disk .nodeKey (some (crypto.privateKeyPem keys)))
    .nodePub (some (crypto.publicKeyPem keys))

theorem current_withKeys (documented : crypto.Documented) (disk : Disk File) (keys : Key) :
    current crypto (withKeys crypto disk keys) = some keys := by
  simp [current, withKeys, documented.signing]

theorem readable_withKeys (documented : crypto.Documented) (disk : Disk File) (keys : Key) :
    Readable crypto (withKeys crypto disk keys) keys :=
  ⟨.nodePub, rfl, by simp [withKeys, documented.verifying]⟩

/-- The archive is not written to. -/
theorem withKeys_archivedPub (crypto : Crypto Key Public) (disk : Disk File) (keys : Key)
    (id : String) : withKeys crypto disk keys (.archivedPub id) = disk (.archivedPub id) := by
  simp [withKeys]

theorem writeKeys_done (crypto : Crypto Key Public) (keys : Key)
    (all : ∀ step, fates step = .done) (disk : Disk File) :
    writeKeys crypto keys fates disk = (.ok ⟨⟩, withKeys crypto disk keys) := by
  simp [writeKeys, writePrivatePem, Files.bind_apply, write, touch, all, withKeys]

/-- New keys are written only as a whole pair, when nothing is reported. -/
theorem writeKeys_ok {keys : Key}
    (ok : writeKeys crypto keys fates disk = (.ok ⟨⟩, disk')) :
    disk' = withKeys crypto disk keys := by
  simp only [writeKeys, writePrivatePem, Files.bind_apply, write, touch] at ok
  cases key : fates .writeKey with
  | done =>
      rw [key] at ok
      cases permit : fates .permitKey with
      | done =>
          rw [permit] at ok
          cases pub : fates .writePub with
          | done =>
              rw [pub] at ok
              exact (Prod.mk.inj ok).2.symm
          | fails _ =>
              rw [pub] at ok
              cases ok
          | stops _ =>
              rw [pub] at ok
              cases ok
      | fails _ =>
          rw [permit] at ok
          cases ok
      | stops _ =>
          rw [permit] at ok
          cases ok
  | fails _ =>
      rw [key] at ok
      cases ok
  | stops _ =>
      rw [key] at ok
      cases ok

/-- A load gives the key that is in the file, or an error and no change, or it
finds no key file and writes a pair. -/
theorem loadOrCreate_cases (crypto : Crypto Key Public) (fresh : Key) (fates : Step → Fate)
    (disk : Disk File) :
    (∃ key, current crypto disk = some key ∧
      loadOrCreate crypto fresh fates disk = (.ok key, disk)) ∨
    (∃ outcome, loadOrCreate crypto fresh fates disk = (outcome, disk) ∧
      (∀ key, outcome ≠ .ok key) ∧ ∃ step, fates step ≠ .done ∨ current crypto disk = none) ∨
    (((disk .nodeKey).isSome = false ∨ ∃ written, fates .existsKey = .fails written) ∧
      loadOrCreate crypto fresh fates disk = create crypto fresh fates disk) := by
  have loading : (∃ key, current crypto disk = some key ∧
      loadKey crypto fates disk = (.ok key, disk)) ∨
      (∃ outcome, loadKey crypto fates disk = (outcome, disk) ∧ (∀ key, outcome ≠ .ok key) ∧
        ∃ step, fates step ≠ .done ∨ current crypto disk = none) := by
    rcases loadKey_cases crypto fates disk with ⟨key, has, ok, _⟩ | ⟨outcome, err, notOk, why⟩
    · exact Or.inl ⟨key, has, ok⟩
    · refine Or.inr ⟨outcome, err, notOk, .readKey, ?_⟩
      by_cases done : fates .readKey = .done
      · exact Or.inr (why done)
      · exact Or.inl done
  simp only [loadOrCreate, Files.bind_apply, touch, isThere]
  cases dir : fates .createDir with
  | done =>
      cases exist : fates .existsKey with
      | done =>
          dsimp only
          cases there : (disk .nodeKey).isSome with
          | true => exact loading.imp_right Or.inl
          | false => exact Or.inr (Or.inr ⟨Or.inl rfl, rfl⟩)
      | fails written => exact Or.inr (Or.inr ⟨Or.inr ⟨written, rfl⟩, rfl⟩)
      | stops _ =>
          exact Or.inr (Or.inl ⟨.stopped, rfl, nofun, .existsKey, Or.inl (by rw [exist]; nofun)⟩)
  | fails _ => exact Or.inr (Or.inl ⟨.io, rfl, nofun, .createDir, Or.inl (by rw [dir]; nofun)⟩)
  | stops _ =>
      exact Or.inr (Or.inl ⟨.stopped, rfl, nofun, .createDir, Or.inl (by rw [dir]; nofun)⟩)

/-- What a rotation makes of the directory. -/
def rotated (crypto : Crypto Key Public) (disk : Disk File) (old fresh : Key) : Disk File :=
  let moved := Files.renamed disk .nodeKey (.archivedKey (keyId crypto old))
  withKeys crypto (if (moved .nodePub).isSome
    then Files.renamed moved .nodePub (.archivedPub (keyId crypto old)) else moved) fresh

/-- A rotation all of whose operations take place. -/
theorem rotate_done (fresh : Key) (now : String) {old : Key}
    (all : ∀ step, fates step = .done) (has : current crypto disk = some old) :
    rotate crypto fresh now fates disk =
      (.ok ⟨keyId crypto old, keyId crypto fresh, now, fresh⟩, rotated crypto disk old fresh) := by
  have there := isSome_of_current has
  have loaded : loadKey crypto fates disk = (.ok old, disk) := by
    rcases loadKey_cases crypto fates disk with ⟨key, same, ok, _⟩ | ⟨_, _, _, why⟩
    · rw [has] at same
      cases same
      exact ok
    · rw [why (all .readKey)] at has
      cases has
  have moved : ∀ middle, archivePub (keyId crypto old) fates middle =
      (.ok ⟨⟩, if (middle .nodePub).isSome
        then Files.renamed middle .nodePub (.archivedPub (keyId crypto old)) else middle) := by
    intro middle
    simp only [archivePub, Files.bind_apply, isThere, all]
    cases pub : (middle .nodePub).isSome with
    | true => simp [rename, all, pub]
    | false => rfl
  simp only [rotate, rotateFrom, replace, Files.bind_apply, isThere, touch, rename, all, there,
    if_true, loaded, moved, writeKeys_done crypto fresh all]
  rfl

/-- A rotation that does not get as far as to move the key changes nothing. -/
theorem rotate_early (crypto : Crypto Key Public) (fresh : Key) (now : String)
    (early : current crypto disk = none ∨ ¬ (fates .existsKey = .done ∧ fates .readKey = .done ∧
      fates .createDir = .done ∧ fates .renameKey = .done)) :
    ∃ outcome, rotate crypto fresh now fates disk = (outcome, disk) ∧
      ∀ record, outcome ≠ .ok record := by
  simp only [rotate, Files.bind_apply, isThere]
  cases exist : fates .existsKey with
  | done =>
      cases there : (disk .nodeKey).isSome with
      | false => exact ⟨.err .noCurrentKey, rfl, nofun⟩
      | true =>
          simp only [if_true, rotateFrom, Files.bind_apply, touch]
          rcases loadKey_cases crypto fates disk
            with ⟨old, has, ok, reads⟩ | ⟨outcome, err, notOk, _⟩
          · rw [ok]
            cases dir : fates .createDir with
            | done =>
                simp only [replace, Files.bind_apply, rename]
                cases move : fates .renameKey with
                | done =>
                    rcases early with none | late
                    · rw [none] at has
                      cases has
                    · exact (late ⟨exist, reads, dir, move⟩).elim
                | fails _ => exact ⟨.io, rfl, nofun⟩
                | stops _ => exact ⟨.stopped, rfl, nofun⟩
            | fails _ => exact ⟨.io, rfl, nofun⟩
            | stops _ => exact ⟨.stopped, rfl, nofun⟩
          · rw [err]
            cases outcome with
            | ok key => exact (notOk key rfl).elim
            | io => exact ⟨.io, rfl, nofun⟩
            | err e => exact ⟨.err e, rfl, nofun⟩
            | stopped => exact ⟨.stopped, rfl, nofun⟩
  | fails _ => exact ⟨.err .noCurrentKey, rfl, nofun⟩
  | stops _ => exact ⟨.stopped, rfl, nofun⟩

/-- The public half of the old key is in the archive, and the rest of the archive
is as it was. -/
theorem rotated_archivedPub (crypto : Crypto Key Public) (disk : Disk File) (old fresh : Key)
    (id : String) : rotated crypto disk old fresh (.archivedPub id) =
      if (disk .nodePub).isSome ∧ id = keyId crypto old then disk .nodePub
      else disk (.archivedPub id) := by
  have pub : Files.renamed disk .nodeKey (.archivedKey (keyId crypto old)) .nodePub =
      disk .nodePub := by simp [Files.renamed]
  unfold rotated
  rw [withKeys_archivedPub, pub]
  cases there : (disk .nodePub).isSome with
  | false => simp [Files.renamed]
  | true =>
      by_cases same : id = keyId crypto old
      · simp [Files.renamed, same]
      · simp [Files.renamed, same, Function.update_of_ne]

/-- A public half that could be read still can be. -/
theorem readable_rotated {old fresh key : Key} (readable : Readable crypto disk key)
    (free : disk .nodePub = none ∨ disk (.archivedPub (keyId crypto old)) = none ∨
      disk (.archivedPub (keyId crypto old)) = disk .nodePub) :
    Readable crypto (rotated crypto disk old fresh) key := by
  rcases readable with ⟨file, isPub, holds⟩
  cases file with
  | nodeKey => cases isPub
  | archivedKey _ => cases isPub
  | nodePub =>
      refine ⟨.archivedPub (keyId crypto old), rfl, ?_⟩
      have there : (disk .nodePub).isSome = true := by
        cases pub : disk .nodePub with
        | none =>
            rw [pub] at holds
            cases holds
        | some _ => rfl
      rw [rotated_archivedPub, if_pos ⟨there, rfl⟩, holds]
  | archivedPub id =>
      refine ⟨.archivedPub id, rfl, ?_⟩
      rw [rotated_archivedPub]
      split_ifs with replaced
      · rcases replaced with ⟨there, rfl⟩
        rcases free with none | none | same
        · rw [none] at there
          cases there
        · rw [none] at holds
          cases holds
        · rw [← same, holds]
      · exact holds

/-! ## Along a run -/

/-- A key is current once one was returned, and every key that was returned can be
read. -/
structure Good (crypto : Crypto Key Public) (node : Node Key) : Prop where
  loaded : node.loaded = true → node.returned ≠ []
  held : node.returned ≠ [] → ∃ key, current crypto node.disk = some key
  readable : ∀ key ∈ node.returned, Readable crypto node.disk key

theorem good_empty (crypto : Crypto Key Public) : Good crypto Node.empty :=
  ⟨nofun, fun some => absurd rfl some, nofun⟩

/-- A call that returns nothing and leaves the directory leaves everything. -/
theorem loads_of_not_ok (node : Node Key) {outcome : Outcome KeyError Key} (disk : Disk File)
    (notOk : ∀ key, outcome ≠ .ok key) : node.loads (outcome, disk) = { node with disk } := by
  cases outcome with
  | ok key => exact (notOk key rfl).elim
  | _ => rfl

theorem rotates_of_not_ok (node : Node Key) {outcome : Outcome KeyError (RotationRecord Key)}
    (disk : Disk File) (notOk : ∀ record, outcome ≠ .ok record) :
    node.rotates (outcome, disk) = { node with disk } := by
  cases outcome with
  | ok record => exact (notOk record rfl).elim
  | _ => rfl

/-- A pair that is reported as created is in the directory. -/
theorem create_cases (crypto : Crypto Key Public) (fresh : Key) (fates : Step → Fate)
    (disk : Disk File) :
    create crypto fresh fates disk = (.ok fresh, withKeys crypto disk fresh) ∨
      ∃ outcome disk', create crypto fresh fates disk = (outcome, disk') ∧
        ∀ key, outcome ≠ .ok key := by
  simp only [create, Files.bind_apply]
  cases result : writeKeys crypto fresh fates disk with
  | mk outcome disk' =>
      cases outcome with
      | ok _ =>
          rw [writeKeys_ok result]
          exact Or.inl rfl
      | io => exact Or.inr ⟨.io, disk', rfl, nofun⟩
      | err e => exact Or.inr ⟨.err e, disk', rfl, nofun⟩
      | stopped => exact Or.inr ⟨.stopped, disk', rfl, nofun⟩

variable {node : Node Key}

/-- A step on a directory with a key. -/
theorem Good.load_held (good : Good crypto node) {fresh : Key}
    {fates : Step → Fate} (unbroken : Unbroken crypto node (.loadOrCreate fresh fates)) {key : Key}
    (has : current crypto node.disk = some key) :
    Continuous crypto node (.loadOrCreate fresh fates) ∧
      Good crypto (node.step crypto (.loadOrCreate fresh fates)).2 := by
  rcases unbroken key has with ⟨found, readable⟩
  rcases loadOrCreate_cases crypto fresh fates node.disk
    with ⟨key', same, ok⟩ | ⟨outcome, err, notOk, step, why⟩ | ⟨missing, _⟩
  · rw [has] at same
    cases same
    have all : ∀ k ∈ key :: node.returned, Readable crypto node.disk k :=
      List.forall_mem_cons.mpr ⟨readable, good.readable⟩
    have result : node.step crypto (.loadOrCreate fresh fates) =
        (.key (.ok key), ⟨node.disk, true, key :: node.returned⟩) := by
      simp only [Node.step, ok, Node.loads]
    constructor
    · refine ⟨fun _ => ?_, fun _ _ => ?_, ?_⟩
      · rw [result]
        exact ⟨fun _ same => by cases same; exact has, fun _ => ⟨key, rfl⟩⟩
      · rw [result]
        exact rfl
      · rw [result]
        exact all
    · rw [result]
      exact ⟨fun _ => List.cons_ne_nil _ _, fun _ => ⟨key, has⟩, all⟩
  · have result : node.step crypto (.loadOrCreate fresh fates) = (.key outcome, node) := by
      simp only [Node.step, err, loads_of_not_ok node node.disk notOk]
    constructor
    · refine ⟨fun _ => ?_, fun _ _ => ?_, ?_⟩
      · rw [result]
        refine ⟨fun key same => (notOk key same).elim, fun all => ?_⟩
        rcases why with failed | none
        · exact (failed (all step)).elim
        · rw [has] at none
          cases none
      · rw [result]
        cases outcome with
        | _ => exact rfl
      · rw [result]
        exact good.readable
    · rw [result]
      exact good
  · rcases missing with absent | ⟨written, fails⟩
    · rw [isSome_of_current has] at absent
      cases absent
    · exact (found written fails).elim

/-- A load on a directory without a key that can be read. -/
theorem Good.load_none (documented : crypto.Documented) (good : Good crypto node) (fresh : Key)
    (fates : Step → Fate) (none : current crypto node.disk = none) :
    Continuous crypto node (.loadOrCreate fresh fates) ∧
      Good crypto (node.step crypto (.loadOrCreate fresh fates)).2 := by
  have nothing : node.returned = [] := by
    by_contra some
    rcases good.held some with ⟨key, has⟩
    rw [none] at has
    cases has
  have unloaded : ¬ node.loaded = true := fun loaded => good.loaded loaded nothing
  have kept : ∀ outcome disk', loadOrCreate crypto fresh fates node.disk = (outcome, disk') →
      (∀ key, outcome ≠ .ok key) → Continuous crypto node (.loadOrCreate fresh fates) ∧
        Good crypto (node.step crypto (.loadOrCreate fresh fates)).2 := by
    intro outcome disk' err notOk
    have result : node.step crypto (.loadOrCreate fresh fates) =
        (.key outcome, { node with disk := disk' }) := by
      simp only [Node.step, err, loads_of_not_ok node disk' notOk]
    constructor
    · refine ⟨fun loaded => (unloaded loaded).elim, fun key has => ?_, ?_⟩
      · rw [none] at has
        cases has
      · rw [result]
        intro key inside
        change key ∈ node.returned at inside
        rw [nothing] at inside
        cases inside
    · rw [result]
      refine ⟨fun loaded => (unloaded loaded).elim, fun some => (some nothing).elim, ?_⟩
      intro key inside
      change key ∈ node.returned at inside
      rw [nothing] at inside
      cases inside
  rcases loadOrCreate_cases crypto fresh fates node.disk
    with ⟨key, has, _⟩ | ⟨outcome, err, notOk, _⟩ | ⟨_, creates⟩
  · rw [none] at has
    cases has
  · exact kept outcome _ err notOk
  · rcases create_cases crypto fresh fates node.disk with ok | ⟨outcome, disk', err, notOk⟩
    · have result : node.step crypto (.loadOrCreate fresh fates) = (.key (.ok fresh),
          ⟨withKeys crypto node.disk fresh, true, fresh :: node.returned⟩) := by
        simp only [Node.step, creates, ok, Node.loads]
      have all : ∀ k ∈ fresh :: node.returned,
          Readable crypto (withKeys crypto node.disk fresh) k := by
        rw [nothing, List.forall_mem_singleton]
        exact readable_withKeys documented _ _
      constructor
      · refine ⟨fun loaded => (unloaded loaded).elim, fun key has => ?_, ?_⟩
        · rw [none] at has
          cases has
        · rw [result]
          exact all
      · rw [result]
        exact ⟨fun _ => List.cons_ne_nil _ _,
          fun _ => ⟨fresh, current_withKeys documented _ _⟩, all⟩
    · exact kept outcome disk' (creates.trans err) notOk

theorem Good.rotate (documented : crypto.Documented) (good : Good crypto node) {fresh : Key}
    {now : String} {fates : Step → Fate}
    (unbroken : Unbroken crypto node (.rotate fresh now fates)) :
    Continuous crypto node (.rotate fresh now fates) ∧
      Good crypto (node.step crypto (.rotate fresh now fates)).2 := by
  have kept : (current crypto node.disk = none ∨ ¬ (fates .existsKey = .done ∧
      fates .readKey = .done ∧ fates .createDir = .done ∧ fates .renameKey = .done)) →
      Continuous crypto node (.rotate fresh now fates) ∧
        Good crypto (node.step crypto (.rotate fresh now fates)).2 := by
    intro early
    rcases rotate_early crypto fresh now early with ⟨outcome, err, notOk⟩
    have result : node.step crypto (.rotate fresh now fates) = (.rotation outcome, node) := by
      simp only [Node.step, err, rotates_of_not_ok node node.disk notOk]
    constructor
    · refine ⟨fun _ => trivial, fun _ _ => ?_, ?_⟩
      · rw [result]
        cases outcome with
        | ok record => exact (notOk record rfl).elim
        | _ => exact rfl
      · rw [result]
        exact good.readable
    · rw [result]
      exact good
  cases has : current crypto node.disk with
  | none => exact kept (Or.inl has)
  | some old =>
      by_cases late : fates .existsKey = .done ∧ fates .readKey = .done ∧
          fates .createDir = .done ∧ fates .renameKey = .done
      · rcases unbroken old has late.1 late.2.1 late.2.2.1 late.2.2.2 with ⟨all, free⟩
        have result : node.step crypto (.rotate fresh now fates) =
            (.rotation (.ok ⟨keyId crypto old, keyId crypto fresh, now, fresh⟩),
              { node with
                disk := rotated crypto node.disk old fresh
                returned := fresh :: node.returned }) := by
          simp only [Node.step, rotate_done fresh now all has, Node.rotates]
        have now' : current crypto (rotated crypto node.disk old fresh) = some fresh :=
          current_withKeys documented _ _
        have readable : ∀ k ∈ fresh :: node.returned,
            Readable crypto (rotated crypto node.disk old fresh) k :=
          List.forall_mem_cons.mpr ⟨readable_withKeys documented _ _,
            fun k inside => readable_rotated (good.readable k inside) free⟩
        constructor
        · refine ⟨fun _ => trivial, fun key same => ?_, ?_⟩
          · rw [has] at same
            cases same
            rw [result]
            exact ⟨rfl, rfl, now'⟩
          · rw [result]
            exact readable
        · rw [result]
          exact ⟨fun _ => List.cons_ne_nil _ _, fun _ => ⟨fresh, now'⟩, readable⟩
      · exact kept (Or.inr late)

/-- A call that meets none of it is continuous. -/
theorem Good.step (documented : crypto.Documented) (good : Good crypto node) {call : Call Key}
    (unbroken : Unbroken crypto node call) :
    Continuous crypto node call ∧ Good crypto (node.step crypto call).2 := by
  cases call with
  | loadOrCreate fresh fates =>
      cases has : current crypto node.disk with
      | none => exact good.load_none documented fresh fates has
      | some key => exact good.load_held unbroken has
  | rotate fresh now fates => exact good.rotate documented unbroken

/-- In a run whose calls meet none of it the key of the node is continuous. -/
theorem continuity_sound (documented : crypto.Documented) (calls : List (Call Key))
    (unbroken : Machine.Guarded (Node.step crypto) (Unbroken crypto) Node.empty calls) :
    Sound crypto calls := by
  rintro front call back rfl
  rw [Machine.guarded_append] at unbroken
  have keep : ∀ node call, Good crypto node → Unbroken crypto node call →
      Good crypto (node.step crypto call).2 :=
    fun _ _ good unbroken => (good.step documented unbroken).2
  have good := Machine.invariant_of_guarded keep (good_empty crypto) unbroken.1
  exact (good.step documented unbroken.2.1).1

/-! ## Two keys -/

/-- The keys whose seeds are 32 times the byte 1 and 32 times the byte 2. -/
inductive Sample where
  | one
  | two
  deriving DecidableEq

/-- A PEM text with one line in it. -/
def pem (label line : String) : Bytes :=
  ["-----BEGIN " ++ label ++ "-----\n", line ++ "\n", "-----END " ++ label ++ "-----\n"].flatMap
    (fun text => text.toList.map (fun c => UInt8.ofNat c.toNat))

def Sample.privatePem : Sample → Bytes
  | .one => pem "PRIVATE KEY" "MC4CAQAwBQYDK2VwBCIEIAEBAQEBAQEBAQEBAQEBAQEBAQEBAQEBAQEBAQEBAQEB"
  | .two => pem "PRIVATE KEY" "MC4CAQAwBQYDK2VwBCIEIAICAgICAgICAgICAgICAgICAgICAgICAgICAgICAgIC"

def Sample.publicPem : Sample → Bytes
  | .one => pem "PUBLIC KEY" "MCowBQYDK2VwAyEAiojj3XQJ8ZX9UtstPLpdcspnCb8dlBIb83SIAbQPb1w="
  | .two => pem "PUBLIC KEY" "MCowBQYDK2VwAyEAgTl3Dqh9F19Wo1Rmw0x+zMuNipG07jeiXfYPW4/Js5Q="

/-- Ed25519 on the two keys. -/
def sample : Crypto Sample Sample where
  privateKeyPem := Sample.privatePem
  publicKeyPem := Sample.publicPem
  loadSigningKeyPem pem := [Sample.one, Sample.two].find? (fun key => key.privatePem = pem)
  loadVerifyingKeyPem pem := [Sample.one, Sample.two].find? (fun key => key.publicPem = pem)
  verifyingKey key := key
  keyIdOf
    | .one => "34750f98bd59fcfc"
    | .two => "6a3803d5f059902a"

set_option maxRecDepth 4000 in
theorem samples_differ : Sample.one.privatePem ≠ Sample.two.privatePem ∧
    Sample.one.publicPem ≠ Sample.two.publicPem := by decide

theorem sample_documented : sample.Documented where
  signing
    | .one => by simp [sample]
    | .two => by simp [sample, samples_differ.1]
  verifying
    | .one => by simp [sample]
    | .two => by simp [sample, samples_differ.2]

/-- All operations take place. -/
def whole (_ : Step) : Fate := .done

/-- The process stops when the key has been moved. -/
def stopsThen : Step → Fate
  | .permitArchived => .stops none
  | _ => .done

/-- A key is created, replaced and loaded again. -/
def kept : List (Call Sample) :=
  [.loadOrCreate .one whole, .rotate .two "2026-10-01T00:00:00Z" whole, .loadOrCreate .one whole]

set_option maxRecDepth 8000 in
theorem continuity_sound_run : Sound sample kept := by
  apply continuity_sound sample_documented
  refine ⟨fun key has => ?_, fun key _ _ _ _ _ => ⟨fun _ => rfl, Or.inr (Or.inl rfl)⟩,
    fun key has => ?_, trivial⟩
  · cases has
  · cases has
    exact ⟨nofun, .nodePub, rfl, rfl⟩

set_option maxRecDepth 8000 in
/-- After a rotation that was stopped the next start takes another key. -/
theorem continuity_broken : ¬ Sound sample
    [.loadOrCreate .one whole, .rotate .two "2026-10-01T00:00:00Z" stopsThen,
      .loadOrCreate .two whole] := by
  intro sound
  have loads := (sound [.loadOrCreate .one whole, .rotate .two "2026-10-01T00:00:00Z" stopsThen]
    (.loadOrCreate .two whole) [] rfl).loads rfl
  have same := loads.1 .two rfl
  cases same

end Keys
end CapsuleEmit
