import CapsuleEmit.Holds.Accounts

namespace CapsuleEmit
namespace Holds

/-!
# Decisions are justified

What a section decides on a sound ledger is a justified record of it, whatever
the arguments of the call are.  The only thing a section relies on is that the
record it was entered with is in the ledger.
-/

variable {packages : Packages} {engine : HoldEngine} {env : Env} {records : List Capsule}

@[simp] theorem resolvedActionId_holdAction (action : Action) (verb : String) :
    (holdAction env action verb).resolvedActionId env = newActionId env verb := rfl

theorem startsWith_newActionId (verb : String) :
    startsWith (newActionId env verb) (verb ++ "/") = true := startsWith_append _ _

/-! ## Builders -/

section Build

variable (action : Action) (chain : Option Chain) (payload : AsgPayload) (decision : String)
  (verdictClass : Option String) (constraints : List ConstraintRecord)

@[simp] theorem actionId_build :
    (build packages env action chain payload decision verdictClass constraints).actionId =
      action.resolvedActionId env := rfl

@[simp] theorem chain_build :
    (build packages env action chain payload decision verdictClass constraints).chain = chain := rfl

@[simp] theorem disposition_build :
    (build packages env action chain payload decision verdictClass constraints).disposition =
      ⟨decision, verdictClass⟩ := rfl

@[simp] theorem asgPayload_build :
    (build packages env action chain payload decision verdictClass constraints).asgPayload =
      payload := rfl

end Build

theorem isReserve_buildHoldReserveCapsule (action : Action) (reserved aggregate : Int)
    (cap : Option Int) :
    (buildHoldReserveCapsule packages env action reserved aggregate cap).isReserve = true := by
  simp only [Capsule.isReserve, Bool.and_eq_true, decide_eq_true_eq]
  exact ⟨rfl, startsWith_newActionId holdReserve⟩

theorem refused_buildHoldDecisionCapsule (action : Action) (reasonCode reason : String)
    (aggregate : Option Int) (parent : Option String) :
    Refused
      (buildHoldDecisionCapsule packages env action reasonCode reason aggregate parent) where
  rejected := rfl
  apart := by cases parent <;> rfl
  scopeless := rfl

/-- The terminal verbs of the engine. -/
def terminalVerbs : List String := [holdRelease, holdExpire, holdReconcile]

theorem newActionId_terminal (env : Env) {verb : String} (member : verb ∈ terminalVerbs) :
    verbOf (newActionId env verb) = verb ∧ (terminalStatus verb).isSome = true ∧
      startsWith (newActionId env verb) "hold." = true ∧
      startsWith (newActionId env verb) (holdReserve ++ "/") = false := by
  simp only [terminalVerbs, List.mem_cons, List.not_mem_nil, or_false] at member
  rcases member with same | same | same <;> subst same
  all_goals
    refine ⟨verbOf_of_startsWith (by decide) (startsWith_newActionId _), by decide,
      startsWith_trans (startsWith_newActionId _) (by decide), ?_⟩
    simp [startsWith, newActionId, holdReserve, holdRelease, holdExpire, holdReconcile,
      List.isPrefixOf]

/-- A closing record is justified when the hold it cites is active. -/
theorem justified_build_closing {action : Action} {verb : String}
    (member : verb ∈ terminalVerbs) {p : Capsule} (cited : p ∈ records)
    (active : (holdStatus packages records p.capsuleId).1 = .active) {payload : AsgPayload}
    (developer : action.developer = p.developer)
    (amount : payload.amountMinor.getD 0 =
      payload.executedAmountMinor.getD 0 - p.reservedAmount)
    (unexecuted : terminalStatus verb ≠ some .reconciled → payload.executedAmountMinor = none)
    (scopeless : payload.holdScope = none) :
    Justified packages records
      (build packages env (holdAction env action verb) (some ⟨p.capsuleId, supersedes⟩) payload
        accept none []) := by
  obtain ⟨read, terminal, hold, other⟩ := newActionId_terminal env member
  refine .closing p cited ?_ active ?_ ?_ developer amount ?_ ?_
  · simp [Capsule.closed, Capsule.verb, read, terminal]
  · simp [Capsule.isHold, hold]
  · simpa using other
  · simpa [Capsule.verb, read] using unexecuted
  · simp [Capsule.actionClass, scopeless]

/-! ## Sections -/

/-- The record a section was entered with. -/
def Section.cited : Section → Option Capsule
  | .reserve _ _ => none
  | .close _ reserveRecord _ _ => some reserveRecord
  | .reconcile _ reserveRecord _ _ => some reserveRecord

/-- The record a section was entered with is in the ledger. -/
def Section.Fits (records : List Capsule) (sec : Section) : Prop :=
  ∀ p, sec.cited = some p → p ∈ records

theorem refused_denied (action : Action) (reasonCode reason : String) (aggregate : Option Int) :
    Refused (denied packages env action reasonCode reason aggregate).1 :=
  refused_buildHoldDecisionCapsule action reasonCode reason aggregate none

theorem refused_denyTerminal (reserveRecord : Capsule) (status : HoldStatus)
    (terminal : Option Capsule) (verb : String) :
    Refused (denyTerminal packages env reserveRecord status terminal verb).1 :=
  refused_buildHoldDecisionCapsule _ _ _ _ _

theorem justified_evaluateAndReserveLocked (action : Action) :
    Justified packages records
      (evaluateAndReserveLocked packages engine env action records).1 := by
  have reserve : ∀ cap, (∀ limit, cap = some limit → action.actionClass.isSome = true ∧
      activeExposureMinor records action.developer action.actionClass +
        action.amountMinor.getD 0 ≤ limit) →
      Justified packages records (buildHoldReserveCapsule packages env action
        (action.amountMinor.getD 0)
        (activeExposureMinor records action.developer action.actionClass) cap) :=
    fun cap capped => .reserve (isReserve_buildHoldReserveCapsule _ _ _ _) rfl rfl
      (fun _ _ => rfl) capped
  simp only [evaluateAndReserveLocked]
  split
  · next limit found =>
      split
      · exact .refusal (refused_denied _ _ _ _)
      · next within =>
          refine reserve (some limit) (fun other same => ?_)
          rw [← Option.some.inj same]
          refine ⟨?_, by omega⟩
          cases named : action.actionClass with
          | none => simp [named] at found
          | some _ => rfl
  · exact reserve none (fun limit same => absurd same (by simp))

theorem developer_attemptAction (c : Capsule) (verb : String) (actionClass : Option String) :
    (attemptAction c verb actionClass).developer = c.developer := rfl

theorem justified_closeLocked {reserveRecord : Capsule} (cited : reserveRecord ∈ records)
    (closing : Closing) (reason : Option String) :
    Justified packages records
      (closeLocked packages env reserveRecord closing reason records).1 := by
  simp only [closeLocked]
  split
  · next active =>
      cases closing with
      | release =>
          exact justified_build_closing (by decide) cited active rfl
            (by simp) (fun _ => rfl) rfl
      | expire =>
          exact justified_build_closing (by decide) cited active rfl
            (by simp) (fun _ => rfl) rfl
  · exact .refusal (refused_denyTerminal _ _ _ _)

theorem justified_reconcileLocked {reserveRecord : Capsule} (cited : reserveRecord ∈ records)
    (executed : Int) (execution : Option String) :
    Justified packages records
      (reconcileLocked packages engine env reserveRecord executed execution records).1 := by
  simp only [reconcileLocked]
  split
  · next active =>
      split
      · exact justified_build_closing (by decide) cited active rfl rfl
          (fun different => absurd rfl different) rfl
      · exact .refusal (refused_buildHoldDecisionCapsule _ _ _ _ _)
  · exact .refusal (refused_denyTerminal _ _ _ _)

/-- What a section decides is justified by the ledger it read. -/
theorem justified_decide {sec : Section} (fits : sec.Fits records) :
    Justified packages records (sec.decide packages engine records).1 := by
  cases sec with
  | reserve env action => exact justified_evaluateAndReserveLocked action
  | close env reserveRecord closing reason =>
      exact justified_closeLocked (fits reserveRecord rfl) closing reason
  | reconcile env reserveRecord executed execution =>
      exact justified_reconcileLocked (fits reserveRecord rfl) executed execution

/-! ## What a section closes -/

theorem closed_evaluateAndReserveLocked (action : Action) :
    (evaluateAndReserveLocked packages engine env action records).1.closed = none := by
  simp only [evaluateAndReserveLocked]
  split
  · split
    · exact (refused_denied _ _ _ _).apart
    · rfl
  · rfl

/-- A section that closes a record found it active. -/
theorem closed_closeLocked {p : Capsule} {closing : Closing} {reason : Option String}
    {id : String}
    (closed : (closeLocked packages env p closing reason records).1.closed = some id) :
    id = p.capsuleId ∧ (holdStatus packages records p.capsuleId).1 = .active ∧
      (closeLocked packages env p closing reason records).1.amount = -p.reservedAmount := by
  simp only [closeLocked] at closed ⊢
  split at closed
  · next active =>
      refine ⟨?_, active, ?_⟩
      · cases closing <;>
          simp only [Capsule.closed, buildHoldReleaseCapsule, buildHoldExpireCapsule, chain_build]
            at closed <;>
          split at closed <;> simp_all
      · rw [if_pos active]
        cases closing <;> rfl
  · rw [(refused_denyTerminal _ _ _ _).apart] at closed
    exact absurd closed (by simp)

theorem closed_reconcileLocked {p : Capsule} {executed : Int} {execution : Option String}
    {id : String}
    (closed : (reconcileLocked packages engine env p executed execution records).1.closed =
      some id) :
    id = p.capsuleId ∧ (holdStatus packages records p.capsuleId).1 = .active ∧
      executed - p.reservedAmount ≤ (p.actionClass.bind engine.toleranceMinor).getD 0 ∧
      (reconcileLocked packages engine env p executed execution records).1.amount =
        executed - p.reservedAmount := by
  simp only [reconcileLocked] at closed ⊢
  split at closed
  · next active =>
      split at closed
      · next within =>
          refine ⟨?_, active, within, ?_⟩
          · simp only [Capsule.closed, buildHoldReconcileCapsule, chain_build] at closed
            split at closed <;> simp_all
          · rw [if_pos active, if_pos within]
            rfl
      · rw [(refused_buildHoldDecisionCapsule _ _ _ _ _).apart] at closed
        exact absurd closed (by simp)
  · rw [(refused_denyTerminal _ _ _ _).apart] at closed
    exact absurd closed (by simp)

/-- The amount a section moves when it finds its record active; a conversion
beyond the tolerance moves nothing. -/
def Section.moves (engine : HoldEngine) : Section → Int
  | .reserve _ _ => 0
  | .close _ p _ _ => -p.reservedAmount
  | .reconcile _ p executed _ =>
      if executed - p.reservedAmount ≤ (p.actionClass.bind engine.toleranceMinor).getD 0 then
        executed - p.reservedAmount
      else 0

/-- A section closes the record it was entered with, and found it active. -/
theorem closed_decide {sec : Section} {id : String}
    (closed : (sec.decide packages engine records).1.closed = some id) :
    ∃ p, sec.cited = some p ∧ id = p.capsuleId ∧
      (holdStatus packages records p.capsuleId).1 = .active ∧
      (sec.decide packages engine records).1.amount = sec.moves engine := by
  cases sec with
  | reserve env action =>
      rw [Section.decide, closed_evaluateAndReserveLocked] at closed
      exact absurd closed (by simp)
  | close env p closing reason =>
      obtain ⟨same, active, amount⟩ := closed_closeLocked closed
      exact ⟨p, rfl, same, active, amount⟩
  | reconcile env p executed execution =>
      obtain ⟨same, active, within, amount⟩ := closed_reconcileLocked closed
      exact ⟨p, rfl, same, active, by rw [Section.moves, if_pos within]; exact amount⟩

/-! ## What a section decides in its main case -/

theorem evaluateAndReserveLocked_of_le {action : Action} (cap : Int)
    (capped : action.actionClass.bind engine.capMinor = some cap)
    (within : activeExposureMinor records action.developer action.actionClass +
      action.amountMinor.getD 0 ≤ cap) :
    (evaluateAndReserveLocked packages engine env action records).1 =
      buildHoldReserveCapsule packages env action (action.amountMinor.getD 0)
        (activeExposureMinor records action.developer action.actionClass) (some cap) := by
  simp only [evaluateAndReserveLocked, capped]
  rw [if_neg (show ¬ _ > cap from Int.not_lt.mpr within)]

theorem evaluateAndReserveLocked_of_none {action : Action}
    (uncapped : action.actionClass.bind engine.capMinor = none) :
    (evaluateAndReserveLocked packages engine env action records).1 =
      buildHoldReserveCapsule packages env action (action.amountMinor.getD 0)
        (activeExposureMinor records action.developer action.actionClass) none := by
  simp only [evaluateAndReserveLocked, uncapped]

theorem releaseLocked_of_active {p : Capsule} {reason : Option String}
    (active : (holdStatus packages records p.capsuleId).1 = .active) :
    (closeLocked packages env p .release reason records).1 =
      buildHoldReleaseCapsule packages env (attemptAction p "release" p.actionClass)
        p.capsuleId p.reservedAmount reason := by
  simp only [closeLocked, active, if_true, Closing.verb]

theorem reconcileLocked_of_active {p : Capsule} {executed : Int} {execution : Option String}
    (active : (holdStatus packages records p.capsuleId).1 = .active)
    (within : executed - p.reservedAmount ≤ (p.actionClass.bind engine.toleranceMinor).getD 0) :
    (reconcileLocked packages engine env p executed execution records).1 =
      buildHoldReconcileCapsule packages env (attemptAction p "reconcile" p.actionClass)
        p.capsuleId execution p.reservedAmount executed
        ((p.actionClass.bind engine.toleranceMinor).getD 0) := by
  simp only [reconcileLocked, active, if_true, within]

/-- A record under a fresh id is appended. -/
theorem record_of_fresh {decided : Decided} (valid : validId decided.1.capsuleId = true)
    (fresh : ∀ r ∈ records, r.capsuleId ≠ decided.1.capsuleId) :
    (record records decided).2 = records ++ [decided.1] := by
  have absent : records.find? (fun c => c.capsuleId = decided.1.capsuleId) = none := by
    simpa using fresh
  rw [record, appendToLedger, if_pos valid, absent]

/-! ## Calls -/

/-- The id a lifecycle call cites. -/
def Call.cited : Call → Option String
  | .evaluateAndReserve _ _ => none
  | .release id _ => some id
  | .expire id _ => some id
  | .reconcile id _ _ => some id

/-- The amount a lifecycle call moves when it finds the record it cites active;
a conversion beyond the tolerance moves nothing. -/
def Call.moves (engine : HoldEngine) (p : Capsule) : Call → Int
  | .evaluateAndReserve _ _ => 0
  | .release _ _ => -p.reservedAmount
  | .expire _ _ => -p.reservedAmount
  | .reconcile _ executed _ =>
      if executed - p.reservedAmount ≤ (p.actionClass.bind engine.toleranceMinor).getD 0 then
        executed - p.reservedAmount
      else 0

/-- A lifecycle call enters its section with the record under the cited id. -/
theorem enter_cited (engine : HoldEngine) {call : Call} {sec : Section}
    (entered : call.outset packages env records = .enter sec) {p : Capsule}
    (cites : sec.cited = some p) :
    call.cited.bind (byId records) = some p ∧ call.moves engine p = sec.moves engine := by
  cases call with
  | evaluateAndReserve available action =>
      simp only [Call.outset, evaluateAndReserve] at entered
      split at entered
      · rw [← Outset.enter.inj entered] at cites
        exact absurd cites (by simp [Section.cited])
      · exact absurd entered (by simp)
  | release id reason | expire id reason | reconcile id executed execution =>
      simp only [Call.outset, close, reconcile] at entered
      split at entered
      · exact absurd entered (by simp)
      · next found =>
          rw [← Outset.enter.inj entered] at cites ⊢
          simp only [Section.cited, Option.some.injEq] at cites
          subst cites
          exact ⟨found, rfl⟩

/-- A record a call posts without a lock is a refusal. -/
theorem refused_post {call : Call} {decided : Decided}
    (posted : call.outset packages env records = .post decided) : Refused decided.1 := by
  cases call with
  | evaluateAndReserve available action =>
      simp only [Call.outset, evaluateAndReserve] at posted
      split at posted
      · exact absurd posted (by simp)
      · rw [← Outset.post.inj posted]
        exact refused_denied _ _ _ _
  | release id reason | expire id reason | reconcile id executed execution =>
      simp only [Call.outset, close, reconcile] at posted
      split at posted <;> exact absurd posted (by simp)

/-- A section is entered with a record of the ledger. -/
theorem fits_enter {call : Call} {sec : Section}
    (entered : call.outset packages env records = .enter sec) : sec.Fits records := by
  intro p cites
  obtain ⟨found, _⟩ := enter_cited ⟨fun _ => none, fun _ => none⟩ entered cites
  obtain ⟨id, _, found⟩ := Option.bind_eq_some_iff.mp found
  exact (byId_mem found).1

end Holds
end CapsuleEmit
