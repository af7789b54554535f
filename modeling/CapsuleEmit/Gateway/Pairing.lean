import CapsuleEmit.Foundation.Json
import CapsuleEmit.Foundation.Machine
import Mathlib.Data.List.Nodup

namespace CapsuleEmit
namespace Gateway

/-!
# Pairing tool calls with their responses

A request seals a planned Capsule and then, under the lock, joins the queue of
planned calls.  A response first resolves, under the lock, which planned call
it belongs to, and then seals an outcome that is chained to the planned Capsule
it was paired with.  Requests and responses carry no identifier; a response is
paired when exactly one call is pending once the overdue ones are dropped.

In the model each call has a name, which the servicer never looks at.  The
steps of one call are taken in order and interleave freely with those of other
calls.
-/

variable {κ : Type}

/-! ## Requests and responses -/

/-- A tool call as the request hook reads it. -/
structure Plan where
  toolName : String
  arguments : Json
  requestMd : Json
  backends : List String

/-- One planned call waiting for its response. -/
structure Pending (κ : Type) where
  call : κ
  plannedId : Option String
  plan : Plan
  at' : Int

/-- The block sealed about how a response was paired. -/
inductive Pairing where
  | paired
  | unmatched (pendingDepth : Nat)
  | unresolved (pendingDepth : Nat) (candidates : List (Option String))

/-- A response as the response hook reads it. -/
structure Response where
  serviceNames : List String
  result : List (Bytes × Json)
  responseMd : Json

/-- Whether the tool result reports failure: an error object, or `isError`. -/
def resultFailed (result : List (Bytes × Json)) : Bool :=
  (match Json.lookup "error" result with
    | none => false
    | some .null => false
    | some _ => true) ||
  (match Json.lookup "isError" result with
    | some (.bool true) => true
    | _ => false)

def unchainedReason : String :=
  "planned capsule could not be sealed for this tools/call; this outcome " ++
    "record stands alone rather than claim a chain link that does not exist"

/-- What an outcome Capsule records. -/
structure Outcome where
  toolName : String
  agentInput : Option Json
  agentOutput : List (Bytes × Json)
  verdict : String
  status : String
  confirms : Option String
  requestMd : Option Json
  responseMd : Json
  backends : List String
  pairing : Pairing
  unchainedReason : Option String

/-- The outcome of a response that was paired with an entry, or with none. -/
def outcome (entry : Option (Pending κ)) (pairing : Pairing) (response : Response) : Outcome where
  toolName := entry.elim "unknown" (fun e => e.plan.toolName)
  agentInput := entry.map (fun e => e.plan.arguments)
  agentOutput := response.result
  verdict := if resultFailed response.result then "errored" else "executed"
  status := if resultFailed response.result then "failed" else "confirmed"
  confirms := entry.bind Pending.plannedId
  requestMd := entry.map (fun e => e.plan.requestMd)
  responseMd := response.responseMd
  backends := match entry with
    | some e => if e.plan.backends.isEmpty then response.serviceNames else e.plan.backends
    | none => response.serviceNames
  pairing := pairing
  unchainedReason := match entry with
    | some e => if e.plannedId.isNone then some Gateway.unchainedReason else none
    | none => none

/-! ## The queue -/

section

variable (pendingTtl : Int)

/-- Drop planned calls whose response is overdue. -/
def expirePending (now : Int) (pending : List (Pending κ)) : List (Pending κ) :=
  pending.dropWhile (fun entry => pendingTtl < now - entry.at')

/-- Pair a response with a pending call, or refuse to guess.  Returns the entry,
the pairing block and the queue. -/
def resolve (now : Int) (pending : List (Pending κ)) :
    Option (Pending κ) × Pairing × List (Pending κ) :=
  match expirePending pendingTtl now pending with
  | [] => (none, .unmatched 0, [])
  | [entry] => (some entry, .paired, [])
  | many => (none, .unresolved many.length (many.map Pending.plannedId), [])

end

/-! ## The servicer -/

/-- Where a call is: not started, planned and not yet queued, waiting for its
response, resolved and not yet sealed, or done. -/
inductive Phase (κ : Type) where
  | idle
  | planned (plan : Plan) (plannedId : Option String)
  | waiting
  | resolved (entry : Option (Pending κ)) (pairing : Pairing) (response : Response)
  | done (entry : Option (Pending κ)) (outcome : Outcome) (outcomeId : Option String)

structure State (κ : Type) where
  pending : List (Pending κ)
  phase : κ → Phase κ

/-- A step of one call, with the result of its seal or the clock it reads. -/
inductive Event (κ : Type) where
  | sealPlan (call : κ) (plan : Plan) (plannedId : Option String)
  | append (call : κ) (now : Int)
  | resolve (call : κ) (now : Int) (response : Response)
  | sealOutcome (call : κ) (outcomeId : Option String)

section

variable [DecidableEq κ]

/-- A call moves to its next phase. -/
def State.move (s : State κ) (call : κ) (phase : Phase κ) : State κ :=
  { s with phase := Function.update s.phase call phase }

/-- The servicer after a step; a step out of turn does nothing. -/
def step (pendingTtl : Int) (s : State κ) : Event κ → Unit × State κ
  | .sealPlan call plan plannedId =>
      match s.phase call with
      | .idle => ((), s.move call (.planned plan plannedId))
      | _ => ((), s)
  | .append call now =>
      match s.phase call with
      | .planned plan plannedId =>
          ((), { s.move call .waiting with
            pending := s.pending ++ [⟨call, plannedId, plan, now⟩] })
      | _ => ((), s)
  | .resolve call now response =>
      match s.phase call with
      | .waiting =>
          let (entry, pairing, pending) := resolve pendingTtl now s.pending
          ((), { s.move call (.resolved entry pairing response) with pending := pending })
      | _ => ((), s)
  | .sealOutcome call outcomeId =>
      match s.phase call with
      | .resolved entry pairing response =>
          ((), s.move call (.done entry (outcome entry pairing response) outcomeId))
      | _ => ((), s)

end

/-- A servicer that has seen no call. -/
def State.start : State κ := ⟨[], fun _ => .idle⟩

/-! ## What a step can do -/

/-- The entry a call was paired with. -/
def Phase.entry : Phase κ → Option (Pending κ)
  | .resolved entry _ _ => entry
  | .done entry _ _ => entry
  | _ => none

/-- Whether a call has joined the queue. -/
def Phase.joined : Phase κ → Bool
  | .idle => false
  | .planned _ _ => false
  | _ => true

variable {pendingTtl : Int}

/-- The single entry that is not overdue is in the queue. -/
theorem mem_of_single {now : Int} {pending : List (Pending κ)} {entry : Pending κ}
    (single : expirePending pendingTtl now pending = [entry]) : entry ∈ pending := by
  have inside : entry ∈ expirePending pendingTtl now pending := by
    rw [single]
    exact List.mem_singleton_self entry
  exact (List.dropWhile_suffix _).subset inside

/-- What a response is paired with, and what stays in the queue. -/
theorem resolve_cases (pendingTtl now : Int) (pending : List (Pending κ)) :
    (∃ entry, expirePending pendingTtl now pending = [entry] ∧
      resolve pendingTtl now pending = (some entry, .paired, [])) ∨
    ((expirePending pendingTtl now pending).length ≠ 1 ∧
      ∃ pairing, resolve pendingTtl now pending = (none, pairing, [])) := by
  unfold resolve
  cases expirePending pendingTtl now pending with
  | nil => exact Or.inr ⟨nofun, _, rfl⟩
  | cons entry rest =>
      cases rest with
      | nil => exact Or.inl ⟨entry, rfl, rfl⟩
      | cons other rest => exact Or.inr ⟨by simp, _, rfl⟩

variable [DecidableEq κ]

@[simp] theorem move_pending (s : State κ) (call : κ) (phase : Phase κ) :
    (s.move call phase).pending = s.pending := rfl

@[simp] theorem move_phase_self (s : State κ) (call : κ) (phase : Phase κ) :
    (s.move call phase).phase call = phase := by simp [State.move]

theorem move_phase_of_ne (s : State κ) {call other : κ} (phase : Phase κ)
    (different : other ≠ call) : (s.move call phase).phase other = s.phase other := by
  simp [State.move, different]

/-- A step does nothing, or moves its call on: to a plan, into the queue, to a
resolution that empties the queue, or to its outcome. -/
theorem step_cases (pendingTtl : Int) (s : State κ) (event : Event κ) :
    (step pendingTtl s event).2 = s ∨
    (∃ call plan plannedId, event = .sealPlan call plan plannedId ∧ s.phase call = .idle ∧
      (step pendingTtl s event).2 = s.move call (.planned plan plannedId)) ∨
    (∃ call now plan plannedId, event = .append call now ∧
      s.phase call = .planned plan plannedId ∧ (step pendingTtl s event).2 =
        { s.move call .waiting with pending := s.pending ++ [⟨call, plannedId, plan, now⟩] }) ∨
    (∃ call now response pairing entry, event = .resolve call now response ∧
      s.phase call = .waiting ∧ (step pendingTtl s event).2 =
        { s.move call (.resolved entry pairing response) with pending := [] } ∧
      ((entry = none ∧ (expirePending pendingTtl now s.pending).length ≠ 1) ∨
        ∃ e, entry = some e ∧ expirePending pendingTtl now s.pending = [e])) ∨
    (∃ call entry pairing response outcomeId, event = .sealOutcome call outcomeId ∧
      s.phase call = .resolved entry pairing response ∧ (step pendingTtl s event).2 =
        s.move call (.done entry (outcome entry pairing response) outcomeId)) := by
  cases event with
  | sealPlan call plan plannedId =>
      cases phase : s.phase call with
      | idle => exact Or.inr (Or.inl ⟨call, plan, plannedId, rfl, phase, by simp only [step, phase]⟩)
      | _ => exact Or.inl (by simp only [step, phase])
  | append call now =>
      cases phase : s.phase call with
      | planned plan plannedId =>
          exact Or.inr (Or.inr (Or.inl ⟨call, now, plan, plannedId, rfl, phase,
            by simp only [step, phase]⟩))
      | _ => exact Or.inl (by simp only [step, phase])
  | resolve call now response =>
      cases phase : s.phase call with
      | waiting =>
          refine Or.inr (Or.inr (Or.inr (Or.inl ?_)))
          rcases resolve_cases pendingTtl now s.pending with
            ⟨entry, fresh, paired⟩ | ⟨many, pairing, unpaired⟩
          · exact ⟨call, now, response, .paired, some entry, rfl, phase,
              by simp only [step, phase, paired], Or.inr ⟨entry, rfl, fresh⟩⟩
          · exact ⟨call, now, response, pairing, none, rfl, phase,
              by simp only [step, phase, unpaired], Or.inl ⟨rfl, many⟩⟩
      | _ => exact Or.inl (by simp only [step, phase])
  | sealOutcome call outcomeId =>
      cases phase : s.phase call with
      | resolved entry pairing response =>
          exact Or.inr (Or.inr (Or.inr (Or.inr ⟨call, entry, pairing, response, outcomeId, rfl,
            phase, by simp only [step, phase]⟩)))
      | _ => exact Or.inl (by simp only [step, phase])

end Gateway
end CapsuleEmit
