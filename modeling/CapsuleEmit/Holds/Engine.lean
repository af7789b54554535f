import CapsuleEmit.Foundation.Machine
import CapsuleEmit.Holds.Aggregate

namespace CapsuleEmit
namespace Holds

/-!
# The hold engine

Each call of the engine ends in at most one append.  What precedes it is a
part outside any lock, which may already answer the call, and a section under
the lock of one scope, which reads the ledger, decides, and appends the record
of its decision.  The sections are functions from the ledger they read to the
record and the answer; the sequential meaning of a call runs its parts in a
row.
-/

/-! ## Answers and errors -/

inductive HoldStatus where
  | active
  | released
  | expired
  | reconciled
  | ambiguous
  deriving DecidableEq

def HoldStatus.value : HoldStatus → String
  | .active => "active"
  | .released => "released"
  | .expired => "expired"
  | .reconciled => "reconciled"
  | .ambiguous => "ambiguous"

def holdNotFound : String := "hold_not_found"
def holdAlreadyTerminal : String := "hold_already_terminal"
def holdStatusAmbiguous : String := "hold_status_ambiguous"
def reconcileAfterExpiry : String := "reconcile_after_expiry_denied"
def overTolerance : String := "reconcile_over_tolerance"
def capExceeded : String := "cap_exceeded"
def sequencerUnavailable : String := "sequencer_unavailable"

structure HoldDecision where
  outcome : String
  capsule : Option Capsule
  reason : String
  reasonCode : Option String := none
  holdStatus : Option HoldStatus := none
  aggregateMinor : Option Int := none
  deriving DecidableEq

inductive LedgerError where
  | write
  | conflict
  deriving DecidableEq

/-- The caps and tolerances of an engine, by action class. -/
structure HoldEngine where
  capMinor : String → Option Int
  toleranceMinor : String → Option Int

/-! ## The ledger -/

/-- Sixty-four lower-case hexadecimal characters. -/
def validId (id : String) : Bool :=
  id.toList.length = 64 && id.toList.all (fun c => c.isDigit || ('a' ≤ c && c ≤ 'f'))

/-- Append a record.  A record already in the ledger is not written again, and
another record under its id is refused. -/
def appendToLedger (records : List Capsule) (capsule : Capsule) :
    Except LedgerError (List Capsule) :=
  if validId capsule.capsuleId then
    match records.find? (fun c => c.capsuleId = capsule.capsuleId) with
    | some existing => if existing = capsule then .ok records else .error .conflict
    | none => .ok (records ++ [capsule])
  else .error .write

/-- The record under an id; the last one, were there several. -/
def byId (records : List Capsule) (id : String) : Option Capsule :=
  records.reverse.find? (fun c => c.capsuleId = id && c.capsuleId ≠ "")

/-! ## Hold status -/

/-- The status a terminal verb closes a hold into. -/
def terminalStatus (verb : String) : Option HoldStatus :=
  if verb = holdRelease then some .released
  else if verb = holdExpire then some .expired
  else if verb = holdReconcile then some .reconciled
  else none

/-- A record that closes the hold under an id. -/
def closes (id : String) (c : Capsule) : Bool :=
  c.chain = some ⟨id, supersedes⟩ && (terminalStatus c.verb).isSome

variable (packages : Packages)

def holdStatus (records : List Capsule) (reserveCapsuleId : String) :
    HoldStatus × Option Capsule :=
  match byId records reserveCapsuleId with
  | none => (.ambiguous, none)
  | some reserveRecord =>
      if packages.verifyCapsule reserveRecord then
        match records.find? (closes reserveCapsuleId) with
        | none => (.active, none)
        | some record =>
            if packages.verifyCapsule record then
              ((terminalStatus record.verb).getD .ambiguous, some record)
            else (.ambiguous, some record)
      else (.ambiguous, none)

/-! ## Sections -/

variable (engine : HoldEngine) (env : Env)

/-- A record to append and the answer once it is in the ledger. -/
abbrev Decided := Capsule × HoldDecision

def denied (action : Action) (reasonCode reason : String) (aggregateBeforeMinor : Option Int) :
    Decided :=
  let capsule := buildHoldDecisionCapsule packages env action reasonCode reason
    aggregateBeforeMinor none
  (capsule, ⟨deny, some capsule, reason, some reasonCode, none, none⟩)

def evaluateAndReserveLocked (action : Action) (records : List Capsule) : Decided :=
  let current := activeExposureMinor records action.developer action.actionClass
  let requested := action.amountMinor.getD 0
  let reserved (cap : Option Int) : Decided :=
    let capsule := buildHoldReserveCapsule packages env action requested current cap
    (capsule, ⟨allow, some capsule, "reserved", none, some .active, some (current + requested)⟩)
  match action.actionClass.bind engine.capMinor with
  | some cap =>
      if current + requested > cap then
        denied packages env action capExceeded
          (s!"aggregate {current} + requested {requested} exceeds cap {cap} for " ++
            (action.actionClass.map packages.repr).getD "None")
          (some current)
      else reserved (some cap)
  | none => reserved none

/-- The action of an attempt on a hold, in the context of its record. -/
def attemptAction (reserveCapsule : Capsule) (verb : String) (actionClass : Option String) :
    Action where
  verb := if startsWith verb "hold." then verb else "hold." ++ verb
  operator := reserveCapsule.operator
  developer := reserveCapsule.developer
  actionClass := match actionClass with
    | some actionClass => some actionClass
    | none => reserveCapsule.actionClass
  currency := reserveCapsule.asgPayload.currency
  target := reserveCapsule.asgPayload.target

/-- The first sixteen characters of an id, as messages cite it. -/
def shortId (id : String) : String := String.ofList (id.toList.take 16) ++ "…"

def denyTerminal (reserveRecord : Capsule) (status : HoldStatus) (terminalRecord : Option Capsule)
    (verb : String) : Decided :=
  let reserveCapsuleId := reserveRecord.capsuleId
  let short := shortId reserveCapsuleId
  let refusal : String × String :=
    if status = .ambiguous then
      (holdStatusAmbiguous, "hold " ++ short ++ " status could not be determined " ++
        "(missing or unverifiable record); failing closed as terminal for this consequential class")
    else if status = .expired ∧ verb = "reconcile" then
      (reconcileAfterExpiry, "hold " ++ short ++
        " already expired; a late approval is authentication, " ++
        "not authorization -- resume requires a fresh evaluate_and_reserve, not resumption/" ++
        "reconciliation of the expired hold")
    else
      (holdAlreadyTerminal, "hold " ++ short ++ " is already " ++ status.value ++ "; cannot " ++
        verb ++ " it again")
  let chainParent := givenOr (terminalRecord.map Capsule.capsuleId) reserveCapsuleId
  let capsule := buildHoldDecisionCapsule packages env (attemptAction reserveRecord verb none)
    refusal.1 refusal.2 none (some chainParent)
  (capsule, ⟨deny, some capsule, refusal.2, some refusal.1, some status, none⟩)

/-- The two ways to close a hold without executing it. -/
inductive Closing where
  | release
  | expire
  deriving DecidableEq

def Closing.verb : Closing → String
  | .release => "release"
  | .expire => "expire"

def closeLocked (reserveRecord : Capsule) (closing : Closing) (reason : Option String)
    (records : List Capsule) : Decided :=
  let reserveCapsuleId := reserveRecord.capsuleId
  let found := holdStatus packages records reserveCapsuleId
  if found.1 = .active then
    let action := attemptAction reserveRecord closing.verb reserveRecord.actionClass
    let builder := match closing with
      | .release => buildHoldReleaseCapsule
      | .expire => buildHoldExpireCapsule
    let capsule := builder packages env action reserveCapsuleId reserveRecord.reservedAmount reason
    let newStatus := match closing with
      | .release => HoldStatus.released
      | .expire => HoldStatus.expired
    (capsule, ⟨allow, some capsule, "hold " ++ closing.verb ++ "d", none, some newStatus, none⟩)
  else denyTerminal packages env reserveRecord found.1 found.2 closing.verb

def reconcileLocked (reserveRecord : Capsule) (executedAmountMinor : Int)
    (executionCapsuleId : Option String) (records : List Capsule) : Decided :=
  let reserveCapsuleId := reserveRecord.capsuleId
  let found := holdStatus packages records reserveCapsuleId
  if found.1 = .active then
    let reservedAmount := reserveRecord.reservedAmount
    let delta := executedAmountMinor - reservedAmount
    let tolerance := (reserveRecord.actionClass.bind engine.toleranceMinor).getD 0
    let action := attemptAction reserveRecord "reconcile" reserveRecord.actionClass
    if delta ≤ tolerance then
      let capsule := buildHoldReconcileCapsule packages env action reserveCapsuleId
        executionCapsuleId reservedAmount executedAmountMinor tolerance
      (capsule, ⟨allow, some capsule, "reconciled", none, some .reconciled, none⟩)
    else
      let capsule := buildHoldDecisionCapsule packages env action overTolerance
        (s!"executed {executedAmountMinor} exceeds reserved {reservedAmount} by {delta} " ++
          s!"(minor units), beyond tolerance {tolerance}") none (some reserveCapsuleId)
      (capsule, ⟨deny, some capsule,
        "over-tolerance conversion; routed as a limit event, aggregate not silently adjusted",
        some overTolerance, some .active, none⟩)
  else denyTerminal packages env reserveRecord found.1 found.2 "reconcile"

/-- A section and what it was entered with. -/
inductive Section where
  | reserve (env : Env) (action : Action)
  | close (env : Env) (reserveRecord : Capsule) (closing : Closing) (reason : Option String)
  | reconcile (env : Env) (reserveRecord : Capsule) (executedAmountMinor : Int)
      (executionCapsuleId : Option String)

/-- The key of a scope's lock. -/
abbrev ScopeKey := String × String

def Section.scope : Section → ScopeKey
  | .reserve _ action => (action.actionClass.getD "", action.developer)
  | .close _ reserveRecord _ _ => (reserveRecord.actionClass.getD "", reserveRecord.developer)
  | .reconcile _ reserveRecord _ _ => (reserveRecord.actionClass.getD "", reserveRecord.developer)

/-- What a section decides on the ledger it reads. -/
def Section.decide (records : List Capsule) : Section → Decided
  | .reserve env action => evaluateAndReserveLocked packages engine env action records
  | .close env reserveRecord closing reason =>
      closeLocked packages env reserveRecord closing reason records
  | .reconcile env reserveRecord executedAmountMinor executionCapsuleId =>
      reconcileLocked packages engine env reserveRecord executedAmountMinor executionCapsuleId
        records

/-! ## Calls -/

/-- What a call does before it takes a lock: answer, append a record outside
any lock, or go on to a section. -/
inductive Outset where
  | answer (decision : HoldDecision)
  | post (decided : Decided)
  | enter (sec : Section)

def evaluateAndReserve (engineAvailable : Bool) (action : Action) : Outset :=
  if engineAvailable then .enter (.reserve env action)
  else .post (denied packages env action sequencerUnavailable
    "scope serialization point is unreachable; fail closed (no reserve -> no pass)" none)

def notFound (reserveCapsuleId : String) : HoldDecision :=
  ⟨deny, none, holdNotFound ++ ": hold " ++ shortId reserveCapsuleId ++ " not found",
    some holdNotFound, none, none⟩

def close (reserveCapsuleId : String) (closing : Closing) (reason : Option String)
    (records : List Capsule) : Outset :=
  match byId records reserveCapsuleId with
  | none => .answer (notFound reserveCapsuleId)
  | some reserveRecord => .enter (.close env reserveRecord closing reason)

def reconcile (reserveCapsuleId : String) (executedAmountMinor : Int)
    (executionCapsuleId : Option String) (records : List Capsule) : Outset :=
  match byId records reserveCapsuleId with
  | none => .answer (notFound reserveCapsuleId)
  | some reserveRecord =>
      .enter (.reconcile env reserveRecord executedAmountMinor executionCapsuleId)

/-- A call of the engine with its arguments. -/
inductive Call where
  | evaluateAndReserve (engineAvailable : Bool) (action : Action)
  | release (reserveCapsuleId : String) (reason : Option String)
  | expire (reserveCapsuleId : String) (reason : Option String)
  | reconcile (reserveCapsuleId : String) (executedAmountMinor : Int)
      (executionCapsuleId : Option String)

def Call.outset (records : List Capsule) : Call → Outset
  | .evaluateAndReserve engineAvailable action =>
      Holds.evaluateAndReserve packages env engineAvailable action
  | .release id reason => Holds.close env id .release reason records
  | .expire id reason => Holds.close env id .expire reason records
  | .reconcile id executed execution => Holds.reconcile env id executed execution records

/-- Append the record of a decision and answer it. -/
def record (records : List Capsule) (decided : Decided) :
    Except LedgerError HoldDecision × List Capsule :=
  match appendToLedger records decided.1 with
  | .ok records => (.ok decided.2, records)
  | .error e => (.error e, records)

/-- A call that runs from start to end with no other call in between. -/
def Call.run (records : List Capsule) (call : Call) :
    Except LedgerError HoldDecision × List Capsule :=
  match call.outset packages env records with
  | .answer decision => (.ok decision, records)
  | .post decided => record records decided
  | .enter sec => record records (sec.decide packages engine records)

/-- A call and what the outside world gives it. -/
structure Operation where
  env : Env
  call : Call

/-- The engine as a machine on its ledger. -/
def step (records : List Capsule) (op : Operation) :
    Except LedgerError HoldDecision × List Capsule :=
  op.call.run packages engine op.env records

end Holds
end CapsuleEmit
