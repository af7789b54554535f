import Mathlib.Tactic.Common

namespace CapsuleEmit
namespace Holds

/-!
# Hold capsules

A hold is a sealed record of the ledger: a reservation opens it, and a
release, an expiry or a reconciliation that names the reservation closes it.
A refused attempt is sealed too, as a plain decision record.  This module has
the records, the action they are built for, and their builders.

A payload member that a builder leaves out is absent from the record.  The
members that are the same in every record (versions, the action type, the
approver, the attestation and effect modes) are left to the digest.
-/

/-! ## Records -/

/-- The single parent link of a record. -/
structure Chain where
  parentCapsuleId : String
  relation : String
  deriving DecidableEq

/-- The scope a reservation counts in. -/
structure HoldScope where
  actionClass : Option String
  subject : String
  deriving DecidableEq

/-- The payload extension of a hold record. -/
structure AsgPayload where
  amountMinor : Option Int := none
  reservedAmountMinor : Option Int := none
  holdScope : Option HoldScope := none
  aggregateBeforeMinor : Option Int := none
  capMinor : Option Int := none
  currency : Option String := none
  target : Option String := none
  expiresAt : Option String := none
  releasedAmountMinor : Option Int := none
  expiredAmountMinor : Option Int := none
  executedAmountMinor : Option Int := none
  deltaMinor : Option Int := none
  toleranceMinor : Option Int := none
  executionCapsuleId : Option String := none
  reason : Option String := none
  reasonCode : Option String := none
  deriving DecidableEq

structure Disposition where
  decision : String
  verdictClass : Option String
  deriving DecidableEq

structure ConstraintRecord where
  id : String
  result : String
  checkType : String
  deriving DecidableEq

/-- A record before it is sealed. -/
structure Body where
  actionId : String
  operator : String
  developer : String
  timestamp : String
  ledgerMode : String
  disposition : Disposition
  chain : Option Chain
  constraints : List ConstraintRecord
  asgPayload : AsgPayload
  deriving DecidableEq

/-- A sealed record: its body and the digest of it. -/
structure Capsule extends Body where
  capsuleId : String
  deriving DecidableEq

/-- What other packages compute for the engine: the digest of a record, its
verification, and the quoted form of a string in a message. -/
structure Packages where
  computeCapsuleId : Body → String
  verifyCapsule : Capsule → Bool
  repr : String → String

/-! ## Names -/

def accept : String := "accept"
def reject : String := "reject"
def supersedes : String := "supersedes"
def confirms : String := "confirms"
def allow : String := "allow"
def deny : String := "deny"

def holdReserve : String := "hold.reserve"
def holdRelease : String := "hold.release"
def holdExpire : String := "hold.expire"
def holdReconcile : String := "hold.reconcile"

/-- Whether a string starts with another. -/
def startsWith (s front : String) : Bool := front.toList.isPrefixOf s.toList

/-- The part of an action id before its first slash. -/
def verbOf (actionId : String) : String :=
  String.ofList (actionId.toList.takeWhile (· ≠ '/'))

def Capsule.verb (capsule : Capsule) : String := verbOf capsule.actionId

/-! ## Actions -/

/-- What the outside world gives one call: a fresh identifier and the time. -/
structure Env where
  uuid : String
  now : String

/-- A given string, or another one when it is absent or empty. -/
def givenOr (given : Option String) (other : String) : String :=
  match given with
  | some s => if s = "" then other else s
  | none => other

/-- A candidate action as presented to the engine. -/
structure Action where
  verb : String
  operator : String
  developer : String
  actionClass : Option String := none
  actionId : Option String := none
  timestamp : Option String := none
  amountMinor : Option Int := none
  currency : Option String := none
  target : Option String := none
  expiresAt : Option String := none
  deriving DecidableEq

def newActionId (env : Env) (verb : String) : String := verb ++ "/" ++ env.uuid

def Action.resolvedActionId (env : Env) (action : Action) : String :=
  givenOr action.actionId (newActionId env action.verb)

def Action.resolvedTimestamp (env : Env) (action : Action) : String :=
  givenOr action.timestamp env.now

/-! ## Builders -/

section Builders

variable (packages : Packages) (env : Env)

/-- The action of a hold record: the evaluated action under the record's verb. -/
def holdAction (action : Action) (verb : String) : Action where
  verb := verb
  operator := action.operator
  developer := action.developer
  actionClass := action.actionClass
  timestamp := some (action.resolvedTimestamp env)
  amountMinor := action.amountMinor
  currency := action.currency
  target := action.target

/-- Put the digest of a body beside it. -/
def sealBody (body : Body) : Capsule := { body with capsuleId := packages.computeCapsuleId body }

def build (action : Action) (chain : Option Chain) (payload : AsgPayload)
    (decision : String) (verdictClass : Option String)
    (constraints : List ConstraintRecord) : Capsule :=
  sealBody packages {
    actionId := action.resolvedActionId env
    operator := action.operator
    developer := action.developer
    timestamp := action.resolvedTimestamp env
    ledgerMode := if chain.isSome then "chained" else "standalone"
    disposition := ⟨decision, verdictClass⟩
    chain := chain
    constraints := constraints
    asgPayload := payload }

def buildHoldReserveCapsule (action : Action) (reservedAmountMinor aggregateBeforeMinor : Int)
    (capMinor : Option Int) : Capsule :=
  build packages env (holdAction env action holdReserve) none {
    amountMinor := some reservedAmountMinor
    reservedAmountMinor := some reservedAmountMinor
    holdScope := some ⟨action.actionClass, action.developer⟩
    aggregateBeforeMinor := some aggregateBeforeMinor
    capMinor := capMinor
    currency := action.currency
    target := action.target
    expiresAt := action.expiresAt } accept none []

def buildHoldReleaseCapsule (action : Action) (reserveCapsuleId : String)
    (reservedAmountMinor : Int) (reason : Option String) : Capsule :=
  build packages env (holdAction env action holdRelease) (some ⟨reserveCapsuleId, supersedes⟩) {
    amountMinor := some (-reservedAmountMinor)
    releasedAmountMinor := some reservedAmountMinor
    reason := reason } accept none []

def buildHoldExpireCapsule (action : Action) (reserveCapsuleId : String)
    (reservedAmountMinor : Int) (reason : Option String) : Capsule :=
  build packages env (holdAction env action holdExpire) (some ⟨reserveCapsuleId, supersedes⟩) {
    amountMinor := some (-reservedAmountMinor)
    expiredAmountMinor := some reservedAmountMinor
    reason := reason } accept none []

def buildHoldReconcileCapsule (action : Action) (reserveCapsuleId : String)
    (executionCapsuleId : Option String)
    (reservedAmountMinor executedAmountMinor toleranceMinor : Int) : Capsule :=
  let deltaMinor := executedAmountMinor - reservedAmountMinor
  build packages env (holdAction env action holdReconcile) (some ⟨reserveCapsuleId, supersedes⟩) {
    amountMinor := some deltaMinor
    reservedAmountMinor := some reservedAmountMinor
    executedAmountMinor := some executedAmountMinor
    deltaMinor := some deltaMinor
    toleranceMinor := some toleranceMinor
    executionCapsuleId := executionCapsuleId } accept none []

/-- A refused attempt.  The engine builds it for the outcome `deny` only, with
the chain relation `confirms` where it has a parent. -/
def buildHoldDecisionCapsule (action : Action) (reasonCode reason : String)
    (aggregateBeforeMinor : Option Int) (chainParent : Option String) : Capsule :=
  build packages env (holdAction env action action.verb)
    (chainParent.map (fun parent => ⟨parent, confirms⟩)) {
      reasonCode := some reasonCode
      reason := some reason
      aggregateBeforeMinor := aggregateBeforeMinor } reject (some "blocked")
    [⟨reasonCode, "fail", "policy"⟩]

end Builders

/-! ## What a reader sees of a record -/

/-- An accepted reservation. -/
def Capsule.isReserve (c : Capsule) : Bool :=
  c.disposition.decision = accept && startsWith c.actionId (holdReserve ++ "/")

/-- An accepted record of a hold. -/
def Capsule.isHold (c : Capsule) : Bool :=
  c.disposition.decision = accept && startsWith c.actionId "hold."

/-- The amount an accepted record moves; a record without one moves nothing. -/
def Capsule.amount (c : Capsule) : Int := c.asgPayload.amountMinor.getD 0

/-- The amount a lifecycle call reads as reserved. -/
def Capsule.reservedAmount (c : Capsule) : Int := c.asgPayload.reservedAmountMinor.getD 0

/-- The class a lifecycle call reads from a record. -/
def Capsule.actionClass (c : Capsule) : Option String :=
  c.asgPayload.holdScope.bind HoldScope.actionClass

theorem startsWith_append (front back : String) : startsWith (front ++ back) front = true := by
  simp [startsWith]

/-- A longer start of a string extends every shorter one. -/
theorem startsWith_trans {s mid front : String} (long : startsWith s mid = true)
    (short : startsWith mid front = true) : startsWith s front = true := by
  simp only [startsWith, List.isPrefixOf_iff_prefix] at *
  exact short.trans long

theorem Capsule.isHold_of_isReserve {c : Capsule} (opened : c.isReserve = true) :
    c.isHold = true := by
  simp only [Capsule.isReserve, Capsule.isHold, Bool.and_eq_true] at *
  exact ⟨opened.1, startsWith_trans opened.2 (by decide)⟩

/-- The verb is read back from an action id, when it has no slash of its own. -/
theorem verbOf_of_startsWith {verb actionId : String} (plain : '/' ∉ verb.toList)
    (starts : startsWith actionId (verb ++ "/") = true) : verbOf actionId = verb := by
  have all : ∀ c ∈ verb.toList, decide (c ≠ '/') = true := by
    intro c member
    simpa using fun same : c = '/' => plain (same ▸ member)
  obtain ⟨rest, split⟩ := List.isPrefixOf_iff_prefix.mp starts
  rw [verbOf, ← split, String.toList_append, List.append_assoc, List.takeWhile_append_of_pos all]
  simp

end Holds
end CapsuleEmit
