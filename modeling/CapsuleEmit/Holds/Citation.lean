import CapsuleEmit.Holds.Lifecycle

namespace CapsuleEmit
namespace Holds

/-!
# Cited aggregates

A reservation cites the exposure it was evaluated against.  A class-scoped
citation agrees with the records before the reservation in every interleaving.
A reservation without a class reads the exposure over all classes, under a
lock that the sections of the classes do not take: its citation agrees as long
as no record of the developer comes in between.
-/

open Sections

variable {packages : Packages} {engine : HoldEngine} {records : List Capsule}

/-- Every accepted reservation cites the exposure of its scope over exactly
the records before it. -/
def Recomputable (records : List Capsule) : Prop :=
  ∀ front c back, records = front ++ c :: back → c.isReserve = true →
    c.asgPayload.aggregateBeforeMinor =
      some (activeExposureMinor front c.developer c.actionClass)

/-- While a reservation without a class waits to be appended, a section of
another scope appends no record of a hold of the same developer, or one that
moves nothing. -/
def Undisturbed (state : Shared) : Holds.Event → Prop
  | .append t => ∀ sec decided t' env action decided',
      state.thread t = .ready sec decided →
      state.thread t' = .ready (.reserve env action) decided' →
      action.actionClass = none → sec.scope ≠ ("", action.developer) →
      decided.1.isHold = true → decided.1.developer = action.developer → decided.1.amount = 0
  | _ => True

/-- A plan cites the exposure of the ledger as it is. -/
structure Cited (packages : Packages) (sec : Section) (decided : Decided)
    (records : List Capsule) : Prop where
  planned : Planned packages sec decided records
  cites : decided.1.isReserve = true → decided.1.asgPayload.aggregateBeforeMinor =
    some (activeExposureMinor records decided.1.developer decided.1.actionClass)
  opens : decided.1.isReserve = true → ∃ env action, sec = .reserve env action ∧
    decided.1.developer = action.developer ∧ decided.1.actionClass = action.actionClass

theorem cited_decide {sec : Section} (fits : sec.Fits records) :
    Cited packages sec (sec.decide packages engine records) records := by
  have both : (sec.decide packages engine records).1.isReserve = true →
      (sec.decide packages engine records).1.asgPayload.aggregateBeforeMinor =
        some (activeExposureMinor records (sec.decide packages engine records).1.developer
          (sec.decide packages engine records).1.actionClass) ∧
      ∃ env action, sec = .reserve env action ∧
        (sec.decide packages engine records).1.developer = action.developer ∧
        (sec.decide packages engine records).1.actionClass = action.actionClass := by
    intro opened
    cases sec with
    | reserve env action =>
        simp only [Section.decide, evaluateAndReserveLocked] at opened ⊢
        split at opened
        · split at opened
          · simp [(refused_denied _ _ _ _).isReserve_eq_false] at opened
          · next within => rw [if_neg within]; exact ⟨rfl, env, action, rfl, rfl, rfl⟩
        · exact ⟨rfl, env, action, rfl, rfl, rfl⟩
    | close env p closing reason => simp [Section.decide, isReserve_closeLocked] at opened
    | reconcile env p executed execution =>
        simp [Section.decide, isReserve_reconcileLocked] at opened
  exact ⟨planned_decide fits, fun opened => (both opened).1, fun opened => (both opened).2⟩

theorem Justified.cites_of_class {c : Capsule} (justified : Justified packages records c)
    (opened : c.isReserve = true) (classed : c.actionClass.isSome = true) :
    c.asgPayload.aggregateBeforeMinor =
      some (activeExposureMinor records c.developer c.actionClass) := by
  cases justified with
  | reserve opened alone amount cited =>
      obtain ⟨actionClass, named⟩ := Option.isSome_iff_exists.mp classed
      exact cited actionClass named
  | closing p member closed active hold other => simp [Capsule.isReserve, other] at opened
  | refusal refused => simp [refused.isReserve_eq_false] at opened

/-- An append of another scope keeps a citation true, when it moves nothing
that a reservation without a class counts. -/
theorem Cited.write (sound : Sound packages records) {sec sec' : Section}
    {decided decided' : Decided} (other : sec'.scope ≠ sec.scope) (fits : sec.Fits records)
    (planned : Planned packages sec decided records) (fits' : sec'.Fits records)
    (cited : Cited packages sec' decided' records)
    (undisturbed : decided'.1.isReserve = true → decided'.1.actionClass = none →
      decided.1.isHold = true → decided.1.developer = decided'.1.developer →
        decided.1.amount = 0)
    {records' : List Capsule} (appended : appendToLedger records decided.1 = .ok records') :
    Cited packages sec' decided' records' := by
  have planned' := planned.write sound other fits fits' cited.planned appended
  refine ⟨planned', fun opened => ?_, cited.opens⟩
  cases classed : decided'.1.actionClass with
  | some actionClass =>
      rw [← classed]
      exact planned'.justified.cites_of_class opened (by simp [classed])
  | none =>
      rcases appendToLedger_cases appended with same | ⟨same, named, fresh⟩
      · rw [same, ← classed]
        exact cited.cites opened
      · rw [same, sound.activeExposureMinor_concat fresh, cited.cites opened, classed]
        split
        · next counted =>
            obtain ⟨developer, hold, _⟩ := counts_iff.mp counted
            rw [undisturbed opened classed hold developer, add_zero]
        · rw [add_zero]

theorem Cited.post (sound : Sound packages records) {sec : Section} {decided : Decided}
    (cited : Cited packages sec decided records) {c : Capsule} (refused : Refused c)
    {records' : List Capsule} (appended : appendToLedger records c = .ok records') :
    Cited packages sec decided records' := by
  refine ⟨cited.planned.post sound refused appended, fun opened => ?_, cited.opens⟩
  rcases appendToLedger_cases appended with same | ⟨same, _, fresh⟩
  · exact same ▸ cited.cites opened
  · rw [same, sound.activeExposureMinor_concat fresh, cited.cites opened]
    simp [counts, refused.isHold_eq_false]

theorem Recomputable.append (recomputable : Recomputable records) {c : Capsule}
    (cites : c.isReserve = true → c.asgPayload.aggregateBeforeMinor =
      some (activeExposureMinor records c.developer c.actionClass))
    {records' : List Capsule} (appended : appendToLedger records c = .ok records') :
    Recomputable records' := by
  rcases appendToLedger_cases appended with same | ⟨same, _, _⟩
  · exact same ▸ recomputable
  · intro front d back split opened
    rw [same] at split
    rcases List.eq_nil_or_concat back with empty | ⟨back', last, whole⟩
    · subst empty
      obtain ⟨before, atEnd⟩ := List.append_inj' split rfl
      rw [← List.head_eq_of_cons_eq atEnd] at opened ⊢
      exact before ▸ cites opened
    · refine recomputable front d back' ?_ opened
      rw [whole, List.concat_eq_append, ← List.cons_append, ← List.append_assoc] at split
      exact (List.append_inj' split rfl).1

/-! ## Runs -/

/-- The effects of a run in which nothing disturbs a reservation without a
class. -/
def Calm (state : Shared) : Sections.Event Section Capsule → Prop
  | .enter _ sec => sec.Fits state.log
  | .post c => Refused c
  | .write t => Undisturbed state (.append t)
  | _ => True

theorem calm_of_undisturbed {state : Shared} {event : Holds.Event}
    (undisturbed : Undisturbed state event) {effect : Sections.Event Section Capsule}
    (does : event.effect packages state = some effect) : Calm state effect := by
  have anything : Admits packages (fun _ => True) state event := by
    cases event with
    | call t env request => exact fun _ _ => trivial
    | acquire t => trivial
    | read t => trivial
    | append t => trivial
  have can := effect_of_admits anything does
  cases effect with
  | enter t sec => exact can.1
  | post c => exact can
  | acquire t => trivial
  | read t => trivial
  | write t =>
      cases event with
      | call t' env request =>
          simp only [Event.effect] at does
          split at does
          · split at does <;> exact absurd does (by simp)
          · exact absurd does (by simp)
      | acquire t' => exact absurd does (by simp [Event.effect])
      | read t' => exact absurd does (by simp [Event.effect])
      | append t' =>
          simp only [Event.effect, Option.some.injEq, Sections.Event.write.injEq] at does
          exact does ▸ undisturbed

/-- The rule of plans, for citations. -/
theorem cited_rules : (protocol packages engine).Rules
    (fun records => Sound packages records ∧ Recomputable records)
    (fun sec records => sec.Fits records) (Cited packages) Calm where
  enter := fun _ _ _ allowed => allowed
  plan := fun _ _ _ fits => cited_decide fits
  fits := fun _ _ _ _ written fits => fits.mono (toOption_eq_some written)
  write_inv := fun _ _ _ _ inv _ cited written =>
    ⟨inv.1.append cited.planned.justified (toOption_eq_some written),
      inv.2.append cited.cites (toOption_eq_some written)⟩
  write_valid := by
    intro state t sec decided sec' decided' log' calm ready other inv fits cited fits' cited'
      ⟨t', ready'⟩ written
    refine cited'.write inv.1 other fits cited.planned fits' ?_ (toOption_eq_some written)
    intro opened classless hold developer
    obtain ⟨env, action, rfl, sameDeveloper, sameClass⟩ := cited'.opens opened
    refine calm sec decided t' env action decided' ready ready' (sameClass.symm.trans classless)
      ?_ hold (developer.trans sameDeveloper)
    have scope : (Section.reserve env action).scope = ("", action.developer) := by
      simp [Section.scope, ← sameClass, classless]
    exact fun same => other (scope.trans same.symm)
  post_inv := fun _ _ _ refused inv written =>
    ⟨inv.1.append (.refusal refused) (toOption_eq_some written),
      inv.2.append (fun opened => by simp [refused.isReserve_eq_false] at opened)
        (toOption_eq_some written)⟩
  post_valid := fun _ _ _ _ _ refused inv _ cited written =>
    cited.post inv.1 refused (toOption_eq_some written)

/-- Every citation can be recomputed in every state of a run in which nothing
disturbs a reservation without a class. -/
theorem recomputable_of_undisturbed {events : List Holds.Event}
    (guarded : Machine.Guarded (interleave packages engine) Undisturbed (started []) events) :
    Recomputable (ledgerAfter packages engine events) := by
  have good : (protocol packages engine).Good
      (fun records => Sound packages records ∧ Recomputable records)
      (fun sec records => sec.Fits records) (Cited packages)
      (Machine.after (interleave packages engine) (started []) events) := by
    refine Machine.invariant_of_guarded (fun state event good undisturbed => ?_)
      (Protocol.good_initial ⟨Sound.nil, by simp [Recomputable]⟩) guarded
    simp only [interleave]
    split
    · exact good
    · next effect does =>
        exact Protocol.good_step cited_rules good (calm_of_undisturbed undisturbed does)
  exact good.inv.2

/-! ## Runs without overlap -/

/-- When a thread appends, no other thread is between its read and its
append. -/
def Apart (state : Shared) : Holds.Event → Prop
  | .append t => ∀ t' sec decided, state.thread t' = .ready sec decided → t' = t
  | _ => True

/-- Sections that do not overlap at all do not disturb each other. -/
theorem undisturbed_of_apart {state : Shared} {event : Holds.Event} (apart : Apart state event) :
    Undisturbed state event := by
  cases event with
  | append t =>
      intro sec decided t' env action decided' ready ready' classless scope
      have same := apart t' _ _ ready'
      subst same
      rw [ready, Thread.ready.injEq] at ready'
      rw [ready'.1] at scope
      exact absurd (by simp [Section.scope, classless]) scope
  | call t env request => trivial
  | acquire t => trivial
  | read t => trivial

theorem recomputable_of_apart {events : List Holds.Event}
    (guarded : Machine.Guarded (interleave packages engine) Apart (started []) events) :
    Recomputable (ledgerAfter packages engine events) :=
  recomputable_of_undisturbed (guarded.mono fun _ _ => undisturbed_of_apart)

/-- The thread an event is about. -/
def Event.thread : Holds.Event → Nat
  | .call t _ _ => t
  | .acquire t => t
  | .read t => t
  | .append t => t

/-- An event moves its own thread only. -/
theorem thread_interleave (state : Shared) (event : Holds.Event) {t : Nat}
    (other : t ≠ event.thread) :
    (interleave packages engine state event).2.thread t = state.thread t := by
  simp only [interleave]
  split
  · rfl
  · next effect does =>
      cases event with
      | call t' env request =>
          simp only [Event.effect] at does
          split at does
          · next idle =>
              split at does
              · exact absurd does (by simp)
              · rw [← Option.some.inj does]; rfl
              · rw [← Option.some.inj does]
                simp only [Protocol.step, idle]
                exact Function.update_of_ne other _ _
          · exact absurd does (by simp)
      | acquire t' =>
          rw [← Option.some.inj does]
          simp only [Protocol.step]
          split
          · split
            · exact Function.update_of_ne other _ _
            · rfl
          · rfl
      | read t' =>
          rw [← Option.some.inj does]
          simp only [Protocol.step]
          split
          · exact Function.update_of_ne other _ _
          · rfl
      | append t' =>
          rw [← Option.some.inj does]
          simp only [Protocol.step]
          split
          · exact Function.update_of_ne other _ _
          · rfl

/-- The calls of a single thread do not overlap. -/
theorem apart_of_single {t : Nat} {events : List Holds.Event}
    (single : ∀ event ∈ events, event.thread = t) {state : Shared}
    (others : ∀ t', t' ≠ t → state.thread t' = .idle) :
    Machine.Guarded (interleave packages engine) Apart state events := by
  induction events generalizing state with
  | nil => trivial
  | cons event events ih =>
      have here := single event List.mem_cons_self
      refine ⟨?_, ih (fun other member => single other (List.mem_cons_of_mem _ member))
        (fun t' other => ?_)⟩
      · cases event with
        | append t' =>
            intro t'' sec decided ready
            by_contra other
            rw [others t'' (fun same => other (same.trans here.symm))] at ready
            exact absurd ready (by simp)
        | call t' env request => trivial
        | acquire t' => trivial
        | read t' => trivial
      · rw [thread_interleave state event (fun same => other (same.trans here))]
        exact others t' other

theorem undisturbed_transfers :
    Machine.Guarded (interleave digestPackages transfers) Undisturbed (started [])
      (uninterrupted reserveClassless ++ uninterrupted reserveHundred) :=
  (apart_of_single (t := 0) (by simp [uninterrupted, Event.thread])
    (fun _ _ => rfl)).mono fun _ _ => undisturbed_of_apart

theorem recomputable_of_undisturbed_transfers :
    Machine.Guarded (interleave digestPackages transfers) Undisturbed (started [])
      (uninterrupted reserveClassless ++ uninterrupted reserveHundred) ∧
    Recomputable (ledgerAfter digestPackages transfers
      (uninterrupted reserveClassless ++ uninterrupted reserveHundred)) :=
  ⟨undisturbed_transfers, recomputable_of_undisturbed undisturbed_transfers⟩

/-- A reservation of a class comes between the read and the append of one over
all classes. -/
def overtaken : List Holds.Event :=
  [.call 0 reserveClassless.env reserveClassless.call, .acquire 0, .read 0] ++
    [.call 1 reserveHundred.env reserveHundred.call, .acquire 1, .read 1, .append 1] ++
    [.append 0]

theorem ledgerAfter_overtaken :
    ledgerAfter digestPackages transfers overtaken = [reservation, classless] := by
  have first : (record [] (evaluateAndReserveLocked digestPackages transfers (envAt 1)
      (transfer (some "money.transfer") 100) [])).2 = [reservation] := step_reserveHundred
  have second : (record [reservation] (evaluateAndReserveLocked digestPackages transfers (envAt 4)
      (transfer none 60) [])).2 = [reservation, classless] := by
    rw [record_of_fresh
      (by rw [decided_reserveClassless, fresh_samples.1 classless (by simp)])
      (by rw [decided_reserveClassless]; simpa using fresh_samples.2.2), decided_reserveClassless]
    rfl
  have ran : ledgerAfter digestPackages transfers overtaken =
      (record (record [] (evaluateAndReserveLocked digestPackages transfers (envAt 1)
          (transfer (some "money.transfer") 100) [])).2
        (evaluateAndReserveLocked digestPackages transfers (envAt 4) (transfer none 60) [])).2 := by
    rw [← written_eq digestPackages transfers, ← written_eq digestPackages transfers]
    simp [ledgerAfter, overtaken, Machine.after, interleave, Event.effect, started, State.initial,
      Protocol.step, Call.outset, reserveClassless, reserveHundred, evaluateAndReserve,
      Function.update, protocol, Section.scope, Section.decide, transfer]
  rw [ran, first, second]

/-- The reservation over all classes cites nothing reserved, over a ledger that
holds one hundred. -/
theorem not_recomputable_overtaken :
    ¬ Recomputable (ledgerAfter digestPackages transfers overtaken) := by
  rw [ledgerAfter_overtaken]
  intro recomputable
  exact absurd (recomputable [reservation] classless [] rfl (by decide +kernel)) (by decide +kernel)

end Holds
end CapsuleEmit
