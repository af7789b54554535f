import Mathlib.Logic.Function.Basic
import Mathlib.Tactic.Common

namespace CapsuleEmit
namespace Sections

/-!
# Critical sections under keyed locks

Threads share a log.  A thread enters a section, waits for the lock of the
section's key, reads the log and plans an entry, and writes the entry and
gives the lock back.  Sections of one key exclude each other; sections of
different keys interleave in any way, so what a thread has read may be old
when it writes.

The rule of this module says what must be shown to carry a fact about a
thread's plan from the read to the write: that it holds of a fresh plan, and
that it is kept by the writes of the sections with other keys.
-/

universe u v w x

variable {S : Type u} {K : Type v} {P : Type w} {α : Type x}

/-- The sections of a system: the lock of each, what it plans on the log it
reads, and the entry it writes.  A write may be refused. -/
structure Protocol (S : Type u) (K : Type v) (P : Type w) (α : Type x) where
  key : S → K
  plan : S → List α → P
  entry : P → α
  write : List α → α → Option (List α)

/-- Where a thread is. -/
inductive Thread (S : Type u) (P : Type w) where
  | idle
  | waiting (sec : S)
  | inside (sec : S)
  | ready (sec : S) (plan : P)

/-- The section whose lock a thread has. -/
def Thread.locked : Thread S P → Option S
  | .inside sec => some sec
  | .ready sec _ => some sec
  | _ => none

structure State (S : Type u) (K : Type v) (P : Type w) (α : Type x) where
  log : List α
  owner : K → Option Nat
  thread : Nat → Thread S P

/-- No thread has started. -/
def State.initial (log : List α) : State S K P α := ⟨log, fun _ => none, fun _ => .idle⟩

inductive Event (S : Type u) (α : Type x) where
  | enter (t : Nat) (sec : S)
  | post (entry : α)
  | acquire (t : Nat)
  | read (t : Nat)
  | write (t : Nat)

namespace Protocol

variable (protocol : Protocol S K P α)

/-- The log after a write; a refused write leaves it as it was. -/
def written (log : List α) (entry : α) : List α := (protocol.write log entry).getD log

/-- An event that cannot happen changes nothing. -/
def step [DecidableEq K] (state : State S K P α) : Event S α → State S K P α
  | .enter t sec =>
      match state.thread t with
      | .idle => { state with thread := Function.update state.thread t (.waiting sec) }
      | _ => state
  | .post entry => { state with log := protocol.written state.log entry }
  | .acquire t =>
      match state.thread t with
      | .waiting sec =>
          match state.owner (protocol.key sec) with
          | none => { state with
              owner := Function.update state.owner (protocol.key sec) (some t)
              thread := Function.update state.thread t (.inside sec) }
          | some _ => state
      | _ => state
  | .read t =>
      match state.thread t with
      | .inside sec => { state with
          thread := Function.update state.thread t (.ready sec (protocol.plan sec state.log)) }
      | _ => state
  | .write t =>
      match state.thread t with
      | .ready sec plan =>
          { log := protocol.written state.log (protocol.entry plan)
            owner := Function.update state.owner (protocol.key sec) none
            thread := Function.update state.thread t .idle }
      | _ => state

/-- A thread with a lock is the owner of its key. -/
def Owns (owner : K → Option Nat) (t : Nat) (thread : Thread S P) : Prop :=
  ∀ sec, thread.locked = some sec → owner (protocol.key sec) = some t

/-- Every lock in use has one owner. -/
def Exclusive (state : State S K P α) : Prop :=
  ∀ t, protocol.Owns state.owner t (state.thread t)

variable {protocol}

/-- What holds of a moved thread and of the others holds of all. -/
theorem forall_update {T : Type*} {f : Nat → T} {t : Nat} {moved : T} (p : Nat → T → Prop)
    (here : p t moved) (others : ∀ t', t' ≠ t → p t' (f t')) (t' : Nat) :
    p t' (Function.update f t moved t') :=
  (Function.forall_update_iff f fun t' thread => p t' thread).mpr ⟨here, others⟩ t'

/-- Threads with different locks have different keys. -/
theorem Exclusive.key_ne {state : State S K P α} (exclusive : protocol.Exclusive state)
    {t t' : Nat} {sec sec' : S} (first : (state.thread t).locked = some sec)
    (second : (state.thread t').locked = some sec') (apart : t' ≠ t) :
    protocol.key sec' ≠ protocol.key sec := by
  intro same
  have owner := exclusive t' sec' second
  rw [same, exclusive t sec first] at owner
  exact apart (Option.some.inj owner).symm

theorem exclusive_initial (log : List α) :
    protocol.Exclusive (State.initial log : State S K P α) := by
  intro t sec locked
  simp [State.initial, Thread.locked] at locked

variable [DecidableEq K]

theorem exclusive_step {state : State S K P α} (exclusive : protocol.Exclusive state)
    (event : Event S α) : protocol.Exclusive (protocol.step state event) := by
  cases event with
  | enter t sec =>
      simp only [step]
      split
      · refine forall_update (protocol.Owns state.owner) ?_ (fun t' _ => exclusive t')
        simp [Owns, Thread.locked]
      · exact exclusive
  | post entry => exact exclusive
  | acquire t =>
      simp only [step]
      split
      · next sec waits =>
          split
          · next free =>
              refine forall_update (protocol.Owns _) ?_ (fun t' _ sec' locked => ?_)
              · intro sec' locked
                rw [← Option.some.inj locked]
                exact Function.update_self ..
              · have owner := exclusive t' sec' locked
                have different : protocol.key sec' ≠ protocol.key sec := by
                  intro same
                  rw [same, free] at owner
                  exact absurd owner (by simp)
                exact (Function.update_of_ne different _ _).trans owner
          · exact exclusive
      · exact exclusive
  | read t =>
      simp only [step]
      split
      · next sec inside =>
          refine forall_update (protocol.Owns state.owner) (fun sec' locked => ?_)
            (fun t' _ => exclusive t')
          exact exclusive t sec' (by rw [inside]; exact locked)
      · exact exclusive
  | write t =>
      simp only [step]
      split
      · next sec plan ready =>
          refine forall_update (protocol.Owns _) ?_ (fun t' other sec' locked => ?_)
          · simp [Owns, Thread.locked]
          · have mine : (state.thread t).locked = some sec := by rw [ready]; rfl
            exact (Function.update_of_ne (exclusive.key_ne mine locked other) _ _).trans
              (exclusive t' sec' locked)
      · exact exclusive

/-! ## The rule for plans -/

/-- A thread's section has what it needs in the log, and its plan has the
fact that is claimed of plans. -/
def Meets (Fits : S → List α → Prop) (Valid : S → P → List α → Prop) (log : List α) :
    Thread S P → Prop
  | .idle => True
  | .waiting sec => Fits sec log
  | .inside sec => Fits sec log
  | .ready sec plan => Fits sec log ∧ Valid sec plan log

variable (protocol)

/-- What must be shown of an invariant of the log, of what a section needs of
the log, and of a fact about plans, over the events that are allowed. -/
structure Rules (Inv : List α → Prop) (Fits : S → List α → Prop) (Valid : S → P → List α → Prop)
    (Allowed : State S K P α → Event S α → Prop) : Prop where
  enter : ∀ state t sec, Allowed state (.enter t sec) → Fits sec state.log
  plan : ∀ sec log, Inv log → Fits sec log → Valid sec (protocol.plan sec log) log
  fits : ∀ sec entry log log', protocol.write log entry = some log' → Fits sec log → Fits sec log'
  write_inv : ∀ sec plan log log', Inv log → Fits sec log → Valid sec plan log →
    protocol.write log (protocol.entry plan) = some log' → Inv log'
  write_valid : ∀ (state : State S K P α) t sec plan sec' plan' log',
    Allowed state (.write t) → state.thread t = .ready sec plan →
    protocol.key sec' ≠ protocol.key sec → Inv state.log →
    Fits sec state.log → Valid sec plan state.log →
    Fits sec' state.log → Valid sec' plan' state.log →
    (∃ t', state.thread t' = .ready sec' plan') →
    protocol.write state.log (protocol.entry plan) = some log' → Valid sec' plan' log'
  post_inv : ∀ (state : State S K P α) entry log', Allowed state (.post entry) → Inv state.log →
    protocol.write state.log entry = some log' → Inv log'
  post_valid : ∀ (state : State S K P α) entry sec' plan' log',
    Allowed state (.post entry) → Inv state.log →
    Fits sec' state.log → Valid sec' plan' state.log →
    protocol.write state.log entry = some log' → Valid sec' plan' log'

/-- The invariant of a run: the log is sound, the locks exclude, and every
thread's section and plan agree with the log as it is now. -/
structure Good (Inv : List α → Prop) (Fits : S → List α → Prop) (Valid : S → P → List α → Prop)
    (state : State S K P α) : Prop where
  inv : Inv state.log
  exclusive : protocol.Exclusive state
  threads : ∀ t, Meets Fits Valid state.log (state.thread t)

variable {protocol} {Inv : List α → Prop} {Fits : S → List α → Prop}
  {Valid : S → P → List α → Prop} {Allowed : State S K P α → Event S α → Prop}

omit [DecidableEq K] in
theorem good_initial {log : List α} (inv : Inv log) :
    protocol.Good Inv Fits Valid (State.initial log) :=
  ⟨inv, exclusive_initial log, fun _ => trivial⟩

omit [DecidableEq K] in
theorem Good.of_ready {state : State S K P α} (good : protocol.Good Inv Fits Valid state)
    {t : Nat} {sec : S} {plan : P} (ready : state.thread t = .ready sec plan) :
    Fits sec state.log ∧ Valid sec plan state.log := by
  have meets := good.threads t
  rw [ready] at meets
  exact meets

/-- Threads agree with a longer log when their plans do. -/
theorem Meets.mono {log log' : List α} {thread : Thread S P}
    (meets : Meets Fits Valid log thread) (fits : ∀ sec, Fits sec log → Fits sec log')
    (valid : ∀ sec plan, thread = .ready sec plan → Fits sec log → Valid sec plan log →
      Valid sec plan log') : Meets Fits Valid log' thread := by
  cases thread with
  | idle => trivial
  | waiting sec => exact fits sec meets
  | inside sec => exact fits sec meets
  | ready sec plan => exact ⟨fits sec meets.1, valid sec plan rfl meets.1 meets.2⟩

/-- One allowed event keeps the invariant. -/
theorem good_step (rules : protocol.Rules Inv Fits Valid Allowed) {state : State S K P α}
    (good : protocol.Good Inv Fits Valid state) {event : Event S α}
    (allowed : Allowed state event) :
    protocol.Good Inv Fits Valid (protocol.step state event) := by
  suffices kept : Inv (protocol.step state event).log ∧
      ∀ t, Meets Fits Valid (protocol.step state event).log ((protocol.step state event).thread t) from
    ⟨kept.1, exclusive_step good.exclusive event, kept.2⟩
  cases event with
  | enter t sec =>
      simp only [step]
      split
      · exact ⟨good.inv, forall_update (fun _ => Meets Fits Valid state.log)
          (rules.enter state t sec allowed) (fun t' _ => good.threads t')⟩
      · exact ⟨good.inv, good.threads⟩
  | post entry =>
      simp only [step, written]
      cases outcome : protocol.write state.log entry with
      | none => exact ⟨good.inv, good.threads⟩
      | some log' =>
          refine ⟨rules.post_inv state entry log' allowed good.inv outcome, fun t' => ?_⟩
          exact (good.threads t').mono (fun sec => rules.fits sec entry _ log' outcome)
            (fun sec plan _ fits valid =>
              rules.post_valid state entry sec plan log' allowed good.inv fits valid outcome)
  | acquire t =>
      simp only [step]
      split
      · next sec waits =>
          have mine := good.threads t
          rw [waits] at mine
          split
          · exact ⟨good.inv, forall_update (fun _ => Meets Fits Valid state.log) mine
              (fun t' _ => good.threads t')⟩
          · exact ⟨good.inv, good.threads⟩
      · exact ⟨good.inv, good.threads⟩
  | read t =>
      simp only [step]
      split
      · next sec inside =>
          have mine := good.threads t
          rw [inside] at mine
          exact ⟨good.inv, forall_update (fun _ => Meets Fits Valid state.log)
            ⟨mine, rules.plan sec state.log good.inv mine⟩ (fun t' _ => good.threads t')⟩
      · exact ⟨good.inv, good.threads⟩
  | write t =>
      simp only [step]
      split
      · next sec plan ready =>
          obtain ⟨fits, valid⟩ := good.of_ready ready
          cases outcome : protocol.write state.log (protocol.entry plan) with
          | none =>
              rw [written, outcome]
              exact ⟨good.inv, forall_update (fun _ => Meets Fits Valid state.log) trivial
                (fun t' _ => good.threads t')⟩
          | some log' =>
              rw [written, outcome]
              refine ⟨rules.write_inv sec plan _ log' good.inv fits valid outcome,
                forall_update (fun _ => Meets Fits Valid log') trivial (fun t' other => ?_)⟩
              refine (good.threads t').mono (fun sec' => rules.fits sec' _ _ log' outcome) ?_
              intro sec' plan' ready' fits' valid'
              have apart : protocol.key sec' ≠ protocol.key sec :=
                good.exclusive.key_ne (by rw [ready]; rfl) (by rw [ready']; rfl) other
              exact rules.write_valid state t sec plan sec' plan' log' allowed ready apart good.inv
                fits valid fits' valid' ⟨t', ready'⟩ outcome
      · exact ⟨good.inv, good.threads⟩

end Protocol

end Sections
end CapsuleEmit
