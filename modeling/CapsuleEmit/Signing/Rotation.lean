import CapsuleEmit.Foundation.Continuity
import CapsuleEmit.Foundation.Json
import CapsuleEmit.Foundation.Machine
import Mathlib.Data.List.Perm.Lattice
import Mathlib.Data.List.Nodup
import Mathlib.Logic.Function.Basic

namespace CapsuleEmit
namespace Signing

open Continuity (Link Linked reached)

/-!
# A signer whose key is rotated

The threads of a process share one `LocalKeypairSigner`.  A signature is made
with a key and an identifier that were read together under the lock.  A rotation
reads the old identifier and the old key without the lock, makes a key and signs
its identifier with the old key, and takes the lock to put the new key into the
signer and then into the file.

So a rotation may replace a key that is no longer the one it has read, and a
write that fails leaves a key in the signer that is not in the file.  Where
neither happens, and no process ends between a rotation and its return, the
records that are returned form one chain, and every signature is by a key of it.
-/

/-! ## Keys and records -/

/-- What is used of Ed25519: the identifier of a key, its text as it is signed,
`key.sign(payload)`, and `sign_sign1` with the identifier as `kid`. -/
structure Scheme (Key Id Sig : Type) where
  keyId : Key → Id
  ascii : Id → Bytes
  sign : Key → Bytes → Sig
  envelope : Key → Id → Bytes → Sig

structure RotationRecord (Id Sig : Type) where
  oldKeyId : Id
  newKeyId : Id
  bindingSignature : Sig

/-- A record leads from the old key to the new one. -/
def RotationRecord.link {Id Sig : Type} (record : RotationRecord Id Sig) : Link Id :=
  ⟨record.oldKeyId, record.newKeyId⟩

inductive Method where
  | sign
  | signEnvelope

/-- What a method makes of a payload with a key and its identifier. -/
def Scheme.made {Key Id Sig : Type} (scheme : Scheme Key Id Sig) :
    Method → Key → Id → Bytes → Sig
  | .sign, key, _, payload => scheme.sign key payload
  | .signEnvelope, key, keyId, payload => scheme.envelope key keyId payload

/-- What `sign` or `sign_envelope` has returned, and for what. -/
structure Signed (Id Sig : Type) where
  method : Method
  payload : Bytes
  signature : Sig
  keyId : Id

/-! ## The signer -/

/-- Where a thread is in a call. -/
inductive Thread (Key Id Sig : Type) where
  | idle
  | signing (method : Method) (payload : Bytes) (key : Key) (keyId : Id)
  | rotating (oldKeyId : Id)
  | binding (oldKeyId : Id) (oldKey : Key)
  | swapping (newKey : Key) (record : RotationRecord Id Sig)
  | returning (record : RotationRecord Id Sig)

/-- `_private_key`, `key_id`, the key file, the threads, the identifiers of the
keys that have been generated, and what the calls have returned. -/
structure State (Key Id Sig : Type) where
  privateKey : Key
  keyId : Id
  file : Key
  thread : Nat → Thread Key Id Sig
  generated : List Id
  returned : List (RotationRecord Id Sig)
  signatures : List (Signed Id Sig)

/-- How `_persist` ends.  It fails before the file is replaced, or after. -/
inductive Persisted where
  | done
  | failed (replaced : Bool)

/-- A step of a thread, or the end of the process and the start of the next. -/
inductive Event (Key : Type) where
  | sign (t : Nat) (method : Method) (payload : Bytes)
  | signed (t : Nat)
  | rotate (t : Nat)
  | readKey (t : Nat)
  | generate (t : Nat) (key : Key)
  | swap (t : Nat) (persisted : Persisted)
  | rotated (t : Nat)
  | restart

/-- Whether a call raises at a step. -/
inductive Answer where
  | quiet
  | raised

variable {Key Id Sig : Type}

namespace State

variable (scheme : Scheme Key Id Sig)

/-- `LocalKeypairSigner(path)` where a key is, or has just been created. -/
def load (key : Key) : State Key Id Sig :=
  ⟨key, scheme.keyId key, key, fun _ => .idle, [scheme.keyId key], [], []⟩

def move (state : State Key Id Sig) (t : Nat) (thread : Thread Key Id Sig) : State Key Id Sig :=
  { state with thread := Function.update state.thread t thread }

/-- The locked section of `rotate`. -/
def swap (state : State Key Id Sig) (t : Nat) (newKey : Key) (record : RotationRecord Id Sig) :
    Persisted → Answer × State Key Id Sig
  | .done => (.quiet, { state.move t (.returning record) with
      privateKey := newKey, keyId := record.newKeyId, file := newKey })
  | .failed replaced => (.raised, { state.move t .idle with
      privateKey := newKey, keyId := record.newKeyId
      file := if replaced then newKey else state.file })

/-- A step that is not the next one of its thread changes nothing, and neither
does the generation of a key that has been there before. -/
def step [DecidableEq Id] (state : State Key Id Sig) : Event Key → Answer × State Key Id Sig
  | .sign t method payload =>
      match state.thread t with
      | .idle => (.quiet, state.move t (.signing method payload state.privateKey state.keyId))
      | _ => (.quiet, state)
  | .signed t =>
      match state.thread t with
      | .signing method payload key keyId => (.quiet, { state.move t .idle with
          signatures := state.signatures ++
            [⟨method, payload, scheme.made method key keyId payload, keyId⟩] })
      | _ => (.quiet, state)
  | .rotate t =>
      match state.thread t with
      | .idle => (.quiet, state.move t (.rotating state.keyId))
      | _ => (.quiet, state)
  | .readKey t =>
      match state.thread t with
      | .rotating oldKeyId => (.quiet, state.move t (.binding oldKeyId state.privateKey))
      | _ => (.quiet, state)
  | .generate t key =>
      match state.thread t with
      | .binding oldKeyId oldKey =>
          if scheme.keyId key ∈ state.generated then (.quiet, state)
          else (.quiet, { state.move t (.swapping key ⟨oldKeyId, scheme.keyId key,
              scheme.sign oldKey (scheme.ascii (scheme.keyId key))⟩) with
            generated := scheme.keyId key :: state.generated })
      | _ => (.quiet, state)
  | .swap t persisted =>
      match state.thread t with
      | .swapping newKey record => state.swap t newKey record persisted
      | _ => (.quiet, state)
  | .rotated t =>
      match state.thread t with
      | .returning record =>
          (.quiet, { state.move t .idle with returned := state.returned ++ [record] })
      | _ => (.quiet, state)
  | .restart => (.quiet, { state with
      privateKey := state.file, keyId := scheme.keyId state.file, thread := fun _ => .idle })

end State

/-! ## What is to hold -/

section

variable (scheme : Scheme Key Id Sig)

/-- A signature is by the key it names. -/
def Signed.By (signed : Signed Id Sig) (key : Key) : Prop :=
  signed.keyId = scheme.keyId key ∧
    signed.signature = scheme.made signed.method key signed.keyId signed.payload

/-- The records that have been or are about to be returned form one chain from
the first key to that of the signer and of the file, each is signed by its old
key, and every signature is by a key of the chain. -/
structure Unforked (initial : Key) (state : State Key Id Sig) : Prop where
  chain : ∃ chain leaving : List (RotationRecord Id Sig),
    chain.Perm (state.returned ++ leaving) ∧
    (∀ record, record ∈ leaving ↔ ∃ t, state.thread t = .returning record) ∧
    Linked (some (scheme.keyId initial)) (chain.map RotationRecord.link) ∧
    reached (some (scheme.keyId initial)) (chain.map RotationRecord.link) = some state.keyId ∧
    (∀ record ∈ chain, ∃ key, scheme.keyId key = record.oldKeyId ∧
      record.bindingSignature = scheme.sign key (scheme.ascii record.newKeyId)) ∧
    ∀ signed ∈ state.signatures, (∃ key, signed.By scheme key) ∧
      signed.keyId ∈ scheme.keyId initial :: chain.map RotationRecord.newKeyId
  signer : state.keyId = scheme.keyId state.privateKey ∧ state.file = state.privateKey

/-- A call that raises leaves the signer and the file as they were. -/
def Kept (before : State Key Id Sig) : Answer × State Key Id Sig → Prop
  | (.quiet, _) => True
  | (.raised, after) => after.privateKey = before.privateKey ∧ after.keyId = before.keyId ∧
      after.file = before.file

/-- Both hold all along a run. -/
def Sound [DecidableEq Id] (initial : Key) (events : List (Event Key)) : Prop :=
  ∀ front back, events = front ++ back →
    Unforked scheme initial (Machine.after (State.step scheme) (State.load scheme initial) front) ∧
    ∀ event ∈ back.head?, Kept
      (Machine.after (State.step scheme) (State.load scheme initial) front)
      ((Machine.after (State.step scheme) (State.load scheme initial) front).step scheme event)

end

/-- A rotation replaces the key it has read and reaches the file, and no process
ends between a rotation and its return. -/
def Orderly (state : State Key Id Sig) : Event Key → Prop
  | .swap t persisted => ∀ newKey record, state.thread t = .swapping newKey record →
      record.oldKeyId = state.keyId ∧ persisted = .done
  | .restart => ∀ t record, state.thread t ≠ .returning record
  | _ => True

/-! ## What holds along an orderly run -/

/-- The identifier of a key that has been generated and not yet returned. -/
def Thread.pending : Thread Key Id Sig → Option Id
  | .swapping _ record => some record.newKeyId
  | .returning record => some record.newKeyId
  | _ => none

/-- No two threads have the same key. -/
def Apart (thread : Nat → Thread Key Id Sig) : Prop :=
  ∀ t t' id, (thread t).pending = some id → (thread t').pending = some id → t = t'

section

variable (scheme : Scheme Key Id Sig) (ids generated : List Id) (current : Id)

/-- A record is signed by the key it names as the old one. -/
def Bound (record : RotationRecord Id Sig) : Prop :=
  ∃ key, scheme.keyId key = record.oldKeyId ∧
    record.bindingSignature = scheme.sign key (scheme.ascii record.newKeyId)

/-- What a thread knows: identifiers it has read have been the signer's, and if
the old one still is, then the key it has read has it. -/
def Knows (chain returned : List (RotationRecord Id Sig)) : Thread Key Id Sig → Prop
  | .idle => True
  | .signing _ _ key keyId => keyId = scheme.keyId key ∧ keyId ∈ ids
  | .rotating oldKeyId => oldKeyId ∈ ids
  | .binding oldKeyId oldKey => oldKeyId ∈ ids ∧
      (oldKeyId = current → scheme.keyId oldKey = oldKeyId)
  | .swapping newKey record => record.newKeyId = scheme.keyId newKey ∧
      record.newKeyId ∈ generated ∧ record.newKeyId ∉ ids ∧ record.oldKeyId ∈ ids ∧
      (record.oldKeyId = current → Bound scheme record)
  | .returning record => record ∈ chain ∧ record ∉ returned

end

/-- The chain is that of the signer, and its records are returned or about to be. -/
structure Good (scheme : Scheme Key Id Sig) (initial : Key)
    (chain : List (RotationRecord Id Sig)) (state : State Key Id Sig) : Prop where
  linked : Linked (some (scheme.keyId initial)) (chain.map RotationRecord.link)
  current : reached (some (scheme.keyId initial)) (chain.map RotationRecord.link) =
    some state.keyId
  signer : state.keyId = scheme.keyId state.privateKey ∧ state.file = state.privateKey
  bound : ∀ record ∈ chain, Bound scheme record
  signed : ∀ signed ∈ state.signatures, (∃ key, signed.By scheme key) ∧
    signed.keyId ∈ scheme.keyId initial :: chain.map RotationRecord.newKeyId
  known : ∀ id ∈ scheme.keyId initial :: chain.map RotationRecord.newKeyId, id ∈ state.generated
  holds : state.keyId ∈ scheme.keyId initial :: chain.map RotationRecord.newKeyId
  distinct : chain.Nodup
  once : state.returned.Nodup
  old : ∀ record ∈ state.returned, record ∈ chain
  leaving : ∀ record ∈ chain, record ∈ state.returned ∨ ∃ t, state.thread t = .returning record
  knows : ∀ t, Knows scheme (scheme.keyId initial :: chain.map RotationRecord.newKeyId)
    state.generated state.keyId chain state.returned (state.thread t)
  apart : Apart state.thread

section

variable {scheme : Scheme Key Id Sig} {initial : Key} {chain : List (RotationRecord Id Sig)}
  {state : State Key Id Sig}

/-- A thread may get a key that no other thread has. -/
theorem Apart.update {f : Nat → Thread Key Id Sig} (apart : Apart f) {t : Nat}
    {thread : Thread Key Id Sig}
    (own : ∀ id, thread.pending = some id → ∀ t', t' ≠ t → (f t').pending ≠ some id) :
    Apart (Function.update f t thread) := by
  intro t₁ t₂ id first second
  by_cases one : t₁ = t
  · by_cases two : t₂ = t
    · rw [one, two]
    · rw [one, Function.update_self] at first
      rw [Function.update_of_ne two] at second
      exact (own id first t₂ two second).elim
  · rw [Function.update_of_ne one] at first
    by_cases two : t₂ = t
    · rw [two, Function.update_self] at second
      exact (own id second t₁ one first).elim
    · rw [Function.update_of_ne two] at second
      exact apart t₁ t₂ id first second

/-- What a moved thread and the others know. -/
theorem knows_update {f : Nat → Thread Key Id Sig} {p : Thread Key Id Sig → Prop} {t : Nat}
    {thread : Thread Key Id Sig} (here : p thread) (others : ∀ t', t' ≠ t → p (f t')) (t' : Nat) :
    p (Function.update f t thread t') :=
  (Function.forall_update_iff f (fun _ thread => p thread)).mpr ⟨here, others⟩ t'

/-- A record that another thread is about to return still is. -/
theorem leaving_update {f : Nat → Thread Key Id Sig} {t : Nat} {thread : Thread Key Id Sig}
    {record : RotationRecord Id Sig} (free : f t ≠ .returning record)
    (leaves : ∃ t', f t' = .returning record) :
    ∃ t', Function.update f t thread t' = .returning record := by
  rcases leaves with ⟨t', leaves⟩
  have other : t' ≠ t := by
    rintro rfl
    exact free leaves
  exact ⟨t', (Function.update_of_ne other _ _).trans leaves⟩

theorem good_load (scheme : Scheme Key Id Sig) (initial : Key) :
    Good scheme initial [] (State.load scheme initial) where
  linked := trivial
  current := rfl
  signer := ⟨rfl, rfl⟩
  bound := nofun
  signed := nofun
  known := fun _ inside => inside
  holds := List.mem_cons_self
  distinct := List.nodup_nil
  once := List.nodup_nil
  old := nofun
  leaving := nofun
  knows := fun _ => trivial
  apart := nofun

/-- What a thread knows stays true when more keys are generated and other records
are returned. -/
theorem Knows.mono {ids generated generated' : List Id} {current : Id}
    {returned returned' : List (RotationRecord Id Sig)} {thread : Thread Key Id Sig}
    (more : ∀ id ∈ generated, id ∈ generated')
    (other : ∀ record, thread = .returning record → record ∉ returned → record ∉ returned')
    (knows : Knows scheme ids generated current chain returned thread) :
    Knows scheme ids generated' current chain returned' thread := by
  cases thread with
  | swapping newKey record =>
      rcases knows with ⟨new, inside, rest⟩
      exact ⟨new, more _ inside, rest⟩
  | returning record => exact ⟨knows.1, other record rfl knows.2⟩
  | _ => exact knows

/-- A thread that has no key of its own moves. -/
theorem Good.move (good : Good scheme initial chain state) {t : Nat} {thread : Thread Key Id Sig}
    (free : ∀ record, state.thread t ≠ .returning record)
    (knows : Knows scheme (scheme.keyId initial :: chain.map RotationRecord.newKeyId)
      state.generated state.keyId chain state.returned thread)
    (pending : thread.pending = none) : Good scheme initial chain (state.move t thread) :=
  { good with
    leaving := by
      intro record inside
      exact (good.leaving record inside).imp_right (leaving_update (free record))
    knows := knows_update knows (fun t' _ => good.knows t')
    apart := good.apart.update (fun id held => by rw [pending] at held; cases held) }

/-- A signature is returned. -/
theorem Good.signs (good : Good scheme initial chain state) {t : Nat} {method : Method}
    {payload : Bytes} {key : Key} {keyId : Id}
    (here : state.thread t = .signing method payload key keyId) :
    Good scheme initial chain { state.move t .idle with
      signatures := state.signatures ++
        [⟨method, payload, scheme.made method key keyId payload, keyId⟩] } := by
  have snapshot := good.knows t
  rw [here] at snapshot
  have moved : Good scheme initial chain (state.move t .idle) :=
    good.move (fun record leaves => by rw [here] at leaves; cases leaves) trivial rfl
  have signed : ∀ signed ∈ state.signatures ++
      [(⟨method, payload, scheme.made method key keyId payload, keyId⟩ : Signed Id Sig)],
      (∃ key, signed.By scheme key) ∧
        signed.keyId ∈ scheme.keyId initial :: chain.map RotationRecord.newKeyId := by
    intro signed inside
    rcases List.mem_append.mp inside with before | new
    · exact good.signed signed before
    · rcases List.mem_singleton.mp new with rfl
      exact ⟨⟨key, snapshot.1, rfl⟩, snapshot.2⟩
  exact { moved with signed := signed }

/-- A key is generated that has not been there before. -/
theorem Good.generates (good : Good scheme initial chain state) {t : Nat} {oldKeyId : Id}
    {oldKey newKey : Key} (here : state.thread t = .binding oldKeyId oldKey)
    (new : scheme.keyId newKey ∉ state.generated) :
    Good scheme initial chain { state.move t (.swapping newKey ⟨oldKeyId, scheme.keyId newKey,
        scheme.sign oldKey (scheme.ascii (scheme.keyId newKey))⟩) with
      generated := scheme.keyId newKey :: state.generated } := by
  have snapshot := good.knows t
  rw [here] at snapshot
  have pending : ∀ t' id, (state.thread t').pending = some id → id ∈ state.generated := by
    intro t' id held
    have knows := good.knows t'
    cases there : state.thread t' with
    | swapping newKey record =>
        rw [there] at held knows
        cases held
        exact knows.2.1
    | returning record =>
        rw [there] at held knows
        cases held
        exact good.known _ (List.mem_cons_of_mem _ (List.mem_map.mpr ⟨record, knows.1, rfl⟩))
    | _ =>
        rw [there] at held
        cases held
  exact { good with
    known := fun id inside => List.mem_cons_of_mem _ (good.known id inside)
    leaving := by
      intro record inside
      exact (good.leaving record inside).imp_right
        (leaving_update (fun leaves => by rw [here] at leaves; cases leaves))
    knows := by
      apply knows_update
      · exact ⟨rfl, List.mem_cons_self, fun inside => new (good.known _ inside), snapshot.1,
          fun still => ⟨oldKey, snapshot.2 still, rfl⟩⟩
      · intro t' _
        exact (good.knows t').mono (fun _ inside => List.mem_cons_of_mem _ inside)
          (fun _ _ absent => absent)
    apart := by
      apply good.apart.update
      rintro id held t' _ other
      cases held
      exact new (pending t' _ other) }

/-- The key that was read is replaced, in the signer and in the file. -/
theorem Good.swaps (good : Good scheme initial chain state) {t : Nat} {newKey : Key}
    {record : RotationRecord Id Sig} (here : state.thread t = .swapping newKey record)
    (still : record.oldKeyId = state.keyId) :
    Good scheme initial (chain ++ [record])
      (state.swap t newKey record .done).2 := by
  have own := good.knows t
  rw [here] at own
  rcases own with ⟨new, generated, fresh, _, bound⟩
  have names : (chain ++ [record]).map RotationRecord.newKeyId =
      chain.map RotationRecord.newKeyId ++ [record.newKeyId] := List.map_append
  have links : (chain ++ [record]).map RotationRecord.link =
      chain.map RotationRecord.link ++ [record.link] := List.map_append
  have absent : record ∉ chain := fun inside =>
    fresh (List.mem_cons_of_mem _ (List.mem_map.mpr ⟨record, inside, rfl⟩))
  have more : ∀ id ∈ scheme.keyId initial :: chain.map RotationRecord.newKeyId,
      id ∈ scheme.keyId initial :: (chain ++ [record]).map RotationRecord.newKeyId := by
    intro id inside
    rw [names, ← List.cons_append]
    exact List.mem_append_left _ inside
  have last : ∀ id ∈ scheme.keyId initial :: (chain ++ [record]).map RotationRecord.newKeyId,
      id ∈ scheme.keyId initial :: chain.map RotationRecord.newKeyId ∨ id = record.newKeyId := by
    intro id inside
    rw [names, ← List.cons_append] at inside
    exact (List.mem_append.mp inside).imp_right List.mem_singleton.mp
  have passed : ∀ id ∈ scheme.keyId initial :: chain.map RotationRecord.newKeyId,
      id ≠ record.newKeyId := by
    rintro id inside rfl
    exact fresh inside
  exact {
    linked := by
      rw [links, Continuity.linked_concat]
      refine ⟨good.linked, fun position there => ?_⟩
      rw [good.current] at there
      cases there
      exact still
    current := by
      rw [links, Continuity.reached_concat]
      rfl
    signer := ⟨new, rfl⟩
    bound := by
      intro record' inside
      rcases List.mem_append.mp inside with before | here
      · exact good.bound record' before
      · rcases List.mem_singleton.mp here with rfl
        exact bound still
    signed := fun signed inside => ⟨(good.signed signed inside).1,
      more _ (good.signed signed inside).2⟩
    known := by
      intro id inside
      rcases last id inside with before | rfl
      · exact good.known id before
      · exact generated
    holds := by
      rw [names]
      exact List.mem_cons_of_mem _ (List.mem_append_right _ (List.mem_singleton_self _))
    distinct := List.nodup_append.mpr ⟨good.distinct, List.nodup_singleton record, by
      rintro record' inside _ here rfl
      rcases List.mem_singleton.mp here with rfl
      exact absent inside⟩
    once := good.once
    old := fun record' inside => List.mem_append_left _ (good.old record' inside)
    leaving := by
      intro record' inside
      rcases List.mem_append.mp inside with before | here'
      · exact (good.leaving record' before).imp_right
          (leaving_update (fun leaves => by rw [here] at leaves; cases leaves))
      · rcases List.mem_singleton.mp here' with rfl
        exact Or.inr ⟨t, Function.update_self _ _ _⟩
    knows := by
      apply knows_update
      · exact ⟨List.mem_append_right _ (List.mem_singleton_self _),
          fun inside => absent (good.old record inside)⟩
      · intro t' other
        have knows := good.knows t'
        cases there : state.thread t' with
        | idle => trivial
        | signing method payload key keyId =>
            rw [there] at knows
            exact ⟨knows.1, more _ knows.2⟩
        | rotating oldKeyId =>
            rw [there] at knows
            exact more _ knows
        | binding oldKeyId oldKey =>
            rw [there] at knows
            exact ⟨more _ knows.1, fun same => (passed _ knows.1 same).elim⟩
        | swapping newKey' record' =>
            rw [there] at knows
            rcases knows with ⟨new', generated', fresh', inside', _⟩
            refine ⟨new', generated', fun inside => ?_, more _ inside',
              fun same => (passed _ inside' same).elim⟩
            rcases last _ inside with before | same
            · exact fresh' before
            · apply other
              apply good.apart t' t record.newKeyId
              · rw [there, ← same]
                rfl
              · rw [here]
                rfl
        | returning record' =>
            rw [there] at knows
            exact ⟨List.mem_append_left _ knows.1, knows.2⟩
    apart := by
      apply good.apart.update
      intro id held t' other there
      cases held
      exact other (good.apart t' t _ there (by rw [here]; rfl)) }

/-- A record is returned. -/
theorem Good.returns (good : Good scheme initial chain state) {t : Nat}
    {record : RotationRecord Id Sig} (here : state.thread t = .returning record) :
    Good scheme initial chain
      { state.move t .idle with returned := state.returned ++ [record] } := by
  have own := good.knows t
  rw [here] at own
  have distinct : ∀ record' ∈ state.returned, record' ≠ record := by
    rintro record' inside rfl
    exact own.2 inside
  exact { good with
    once := List.nodup_append.mpr ⟨good.once, List.nodup_singleton record, by
      intro record' inside other there
      rw [List.mem_singleton.mp there]
      exact distinct record' inside⟩
    old := by
      intro record' inside
      rcases List.mem_append.mp inside with before | new
      · exact good.old record' before
      · rcases List.mem_singleton.mp new with rfl
        exact own.1
    leaving := by
      intro record' inside
      by_cases same : record' = record
      · exact Or.inl (List.mem_append_right _ (List.mem_singleton.mpr same))
      · apply (good.leaving record' inside).imp (List.mem_append_left _)
        exact leaving_update (fun leaves => by rw [here] at leaves; cases leaves; exact same rfl)
    knows := by
      apply knows_update
      · trivial
      · intro t' other
        apply (good.knows t').mono (fun _ inside => inside)
        intro record' leaves absent inside
        rcases List.mem_append.mp inside with before | new
        · exact absent before
        · rcases List.mem_singleton.mp new with rfl
          exact other (good.apart t' t record'.newKeyId (by rw [leaves]; rfl) (by rw [here]; rfl))
    apart := good.apart.update nofun }

/-- The process ends where no record is about to be returned, and the next one
loads the key. -/
theorem Good.restarts (good : Good scheme initial chain state)
    (free : ∀ t record, state.thread t ≠ .returning record) :
    Good scheme initial chain { state with
      privateKey := state.file, keyId := scheme.keyId state.file, thread := fun _ => .idle } := by
  have same : scheme.keyId state.file = state.keyId := by rw [good.signer.2, good.signer.1]
  rw [same]
  exact { good with
    signer := ⟨same.symm, rfl⟩
    leaving := by
      intro record inside
      rcases good.leaving record inside with before | ⟨t, leaves⟩
      · exact Or.inl before
      · exact (free t record leaves).elim
    knows := fun _ => trivial
    apart := nofun }

/-- An orderly step keeps the chain or adds a record to it, and no call raises. -/
theorem Good.step [DecidableEq Id] (good : Good scheme initial chain state) {event : Event Key}
    (orderly : Orderly state event) :
    (∃ chain', Good scheme initial chain' (state.step scheme event).2) ∧
      Kept state (state.step scheme event) := by
  cases event with
  | sign t method payload =>
      simp only [State.step]
      split
      · next here =>
        exact ⟨⟨chain, good.move (fun record leaves => by rw [here] at leaves; cases leaves)
          ⟨good.signer.1, good.holds⟩ rfl⟩, trivial⟩
      · exact ⟨⟨chain, good⟩, trivial⟩
  | signed t =>
      simp only [State.step]
      split
      · next here => exact ⟨⟨chain, good.signs here⟩, trivial⟩
      · exact ⟨⟨chain, good⟩, trivial⟩
  | rotate t =>
      simp only [State.step]
      split
      · next here =>
        exact ⟨⟨chain, good.move (fun record leaves => by rw [here] at leaves; cases leaves)
          good.holds rfl⟩, trivial⟩
      · exact ⟨⟨chain, good⟩, trivial⟩
  | readKey t =>
      simp only [State.step]
      split
      · next oldKeyId here =>
        have snapshot := good.knows t
        rw [here] at snapshot
        exact ⟨⟨chain, good.move (fun record leaves => by rw [here] at leaves; cases leaves)
          ⟨snapshot, fun same => good.signer.1.symm.trans same.symm⟩ rfl⟩, trivial⟩
      · exact ⟨⟨chain, good⟩, trivial⟩
  | generate t key =>
      simp only [State.step]
      split
      · next here =>
        split_ifs with before
        · exact ⟨⟨chain, good⟩, trivial⟩
        · exact ⟨⟨chain, good.generates here before⟩, trivial⟩
      · exact ⟨⟨chain, good⟩, trivial⟩
  | swap t persisted =>
      simp only [State.step]
      split
      · next newKey record here =>
        rcases orderly newKey record here with ⟨still, rfl⟩
        exact ⟨⟨chain ++ [record], good.swaps here still⟩, trivial⟩
      · exact ⟨⟨chain, good⟩, trivial⟩
  | rotated t =>
      simp only [State.step]
      split
      · next here => exact ⟨⟨chain, good.returns here⟩, trivial⟩
      · exact ⟨⟨chain, good⟩, trivial⟩
  | restart => exact ⟨⟨chain, good.restarts orderly⟩, trivial⟩

open Classical in
/-- What is to hold follows. -/
theorem Good.unforked (good : Good scheme initial chain state) :
    Unforked scheme initial state where
  chain := by
    refine ⟨chain, chain.filter (· ∉ state.returned), ?_, ?_, good.linked, good.current,
      good.bound, good.signed⟩
    · rw [List.perm_ext_iff_of_nodup good.distinct]
      · intro record
        rw [List.mem_append, List.mem_filter, decide_eq_true_eq]
        constructor
        · intro inside
          by_cases returned : record ∈ state.returned
          · exact Or.inl returned
          · exact Or.inr ⟨inside, returned⟩
        · rintro (returned | ⟨inside, _⟩)
          · exact good.old record returned
          · exact inside
      · refine List.nodup_append.mpr ⟨good.once, good.distinct.filter _, ?_⟩
        rintro record returned _ leaving rfl
        exact of_decide_eq_true (List.mem_filter.mp leaving).2 returned
    · intro record
      rw [List.mem_filter, decide_eq_true_eq]
      constructor
      · rintro ⟨inside, absent⟩
        exact (good.leaving record inside).resolve_left absent
      · rintro ⟨t, leaves⟩
        have knows := good.knows t
        rw [leaves] at knows
        exact knows
  signer := ⟨good.signer.1, good.signer.2⟩

end

/-- In a run whose steps are orderly the signer is never forked and no call that
raises leaves a mark. -/
theorem rotation_sound [DecidableEq Id] (scheme : Scheme Key Id Sig) (initial : Key)
    (events : List (Event Key))
    (orderly : Machine.Guarded (State.step scheme) Orderly (State.load scheme initial) events) :
    Sound scheme initial events := by
  rintro front back rfl
  rw [Machine.guarded_append] at orderly
  have keep : ∀ state event, (∃ chain, Good scheme initial chain state) → Orderly state event →
      ∃ chain, Good scheme initial chain (state.step scheme event).2 := by
    rintro state event ⟨chain, good⟩ orderly
    exact (good.step orderly).1
  rcases Machine.invariant_of_guarded keep ⟨[], good_load scheme initial⟩ orderly.1
    with ⟨chain, good⟩
  refine ⟨good.unforked, fun event next => ?_⟩
  cases back with
  | nil => cases next
  | cons first back =>
      cases next
      exact (good.step orderly.2.1).2

/-! ## Runs -/

/-- Keys are numbers and are their own identifiers. -/
def numbered : Scheme Nat Nat Bytes where
  keyId key := key
  ascii id := [UInt8.ofNat id]
  sign key payload := UInt8.ofNat key :: payload
  envelope key _ payload := UInt8.ofNat key :: 132 :: payload

/-- A rotation beside a signature, a restart, and a rotation after it. -/
theorem rotation_sound_run : Sound numbered 0
    ([.sign 0 .signEnvelope [7], .rotate 1, .readKey 1, .generate 1 5, .swap 1 .done, .signed 0,
      .rotated 1] ++ [.restart, .rotate 2, .readKey 2, .generate 2 6, .swap 2 .done, .rotated 2]) :=
  rotation_sound numbered 0 _ (by
    rw [Machine.guarded_append]
    constructor
    · simp [Machine.Guarded, Orderly, State.step, State.move, State.load, numbered]
    · refine ⟨fun t record => ?_, ?_⟩
      · rcases t with _ | _ | t <;> intro impossible <;> cases impossible
      · simp [Machine.Guarded, Orderly, State.step, State.swap, State.move, State.load, numbered])

/-- Two rotations that read the same key fork the signer. -/
theorem rotation_forks : ¬ Sound numbered 0
    [.rotate 0, .readKey 0, .rotate 1, .readKey 1, .generate 0 5, .generate 1 6, .swap 0 .done,
      .swap 1 .done, .rotated 0, .rotated 1] := by
  intro sound
  rcases (sound _ [] (List.append_nil _).symm).1.chain
    with ⟨chain, leaving, perm, leaves, linked, _⟩
  have idle : ∀ t, (Machine.after (State.step numbered) (State.load numbered 0)
      [.rotate 0, .readKey 0, .rotate 1, .readKey 1, .generate 0 5, .generate 1 6, .swap 0 .done,
        .swap 1 .done, .rotated 0, .rotated 1]).thread t = .idle
    | 0 => rfl
    | 1 => rfl
    | _ + 2 => rfl
  have none : leaving = [] := by
    apply List.eq_nil_iff_forall_not_mem.mpr
    intro record inside
    rcases (leaves record).mp inside with ⟨t, leaves⟩
    rw [idle t] at leaves
    cases leaves
  subst none
  change chain.Perm [⟨0, 5, [0, 5]⟩, ⟨0, 6, [0, 6]⟩] at perm
  have each : ∀ record ∈ chain, record.oldKeyId = 0 ∧ record.newKeyId ≠ 0 := by
    intro record inside
    have there := perm.mem_iff.mp inside
    rcases List.mem_cons.mp there with rfl | there
    · exact ⟨rfl, nofun⟩
    · rcases List.mem_singleton.mp there with rfl
      exact ⟨rfl, nofun⟩
  match chain, perm.length_eq with
  | [first, second], _ =>
      have next : second.oldKeyId = first.newKeyId := linked.2.1 first.newKeyId rfl
      rw [(each second (by simp)).1] at next
      exact (each first (by simp)).2 next.symm

end Signing
end CapsuleEmit
