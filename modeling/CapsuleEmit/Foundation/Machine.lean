import Mathlib.Tactic.Common

namespace CapsuleEmit
namespace Machine

/-!
# Machines that answer operations

A machine takes an operation in a state, answers it and moves to a state.  Its
runs are lists of operations.  This module has the three arguments about runs
that the development uses: an invariant kept by each step holds after a run,
an invariant kept by the steps that meet a guard holds after a guarded run,
and two machines that stay related and answer alike give the same answers.
-/

universe u v w x

variable {σ : Type u} {τ : Type x} {Op : Type v} {Out : Type w}

/-- The state after a run. -/
def after (step : σ → Op → Out × σ) (s : σ) : List Op → σ
  | [] => s
  | op :: ops => after step (step s op).2 ops

/-- The answers of a run, in order. -/
def answers (step : σ → Op → Out × σ) (s : σ) : List Op → List Out
  | [] => []
  | op :: ops => (step s op).1 :: answers step (step s op).2 ops

/-- Every step of a run meets a condition on its state and operation. -/
def Guarded (step : σ → Op → Out × σ) (guard : σ → Op → Prop) (s : σ) : List Op → Prop
  | [] => True
  | op :: ops => guard s op ∧ Guarded step guard (step s op).2 ops

instance decidableGuarded (step : σ → Op → Out × σ) (guard : σ → Op → Prop)
    [∀ s op, Decidable (guard s op)] : ∀ s ops, Decidable (Guarded step guard s ops)
  | _, [] => isTrue trivial
  | s, op :: ops =>
      have := decidableGuarded step guard (step s op).2 ops
      inferInstanceAs (Decidable (guard s op ∧ Guarded step guard (step s op).2 ops))

section

variable {step : σ → Op → Out × σ}

@[simp] theorem after_nil (s : σ) : after step s [] = s := rfl

@[simp] theorem after_cons (s : σ) (op : Op) (ops : List Op) :
    after step s (op :: ops) = after step (step s op).2 ops := rfl

@[simp] theorem answers_singleton (step : σ → Op → Out × σ) (s : σ) (op : Op) :
    answers step s [op] = [(step s op).1] := rfl

theorem after_append (s : σ) (front back : List Op) :
    after step s (front ++ back) = after step (after step s front) back := by
  induction front generalizing s with
  | nil => rfl
  | cons op front ih => exact ih _

theorem after_concat (s : σ) (ops : List Op) (op : Op) :
    after step s (ops ++ [op]) = (step (after step s ops) op).2 := by
  rw [after_append]
  rfl

theorem guarded_append {guard : σ → Op → Prop} (s : σ) (front back : List Op) :
    Guarded step guard s (front ++ back) ↔
      Guarded step guard s front ∧ Guarded step guard (after step s front) back := by
  induction front generalizing s with
  | nil => simp [Guarded]
  | cons op front ih => simp [Guarded, ih, and_assoc]

/-- A run that meets a condition meets every weaker one. -/
theorem Guarded.mono {guard guard' : σ → Op → Prop} (weaker : ∀ s op, guard s op → guard' s op)
    {s : σ} {ops : List Op} (guarded : Guarded step guard s ops) : Guarded step guard' s ops := by
  induction ops generalizing s with
  | nil => trivial
  | cons op ops ih => exact ⟨weaker _ _ guarded.1, ih guarded.2⟩

/-- What every guarded step keeps holds after a guarded run. -/
theorem invariant_of_guarded {guard : σ → Op → Prop} {Inv : σ → Prop}
    (keep : ∀ s op, Inv s → guard s op → Inv (step s op).2) {s : σ} (start : Inv s)
    {ops : List Op} (guarded : Guarded step guard s ops) : Inv (after step s ops) := by
  induction ops generalizing s with
  | nil => exact start
  | cons op ops ih => exact ih (keep s op start guarded.1) guarded.2

/-- What every step keeps holds after a run. -/
theorem invariant {Inv : σ → Prop} (keep : ∀ s op, Inv s → Inv (step s op).2) {s : σ}
    (start : Inv s) (ops : List Op) : Inv (after step s ops) := by
  induction ops generalizing s with
  | nil => exact start
  | cons op ops ih => exact ih (keep s op start)

/-- Machines that answer alike and stay related give the same answers. -/
theorem answers_eq {step' : τ → Op → Out × τ} {Rel : σ → τ → Prop}
    (agree : ∀ s t op, Rel s t → (step s op).1 = (step' t op).1 ∧ Rel (step s op).2 (step' t op).2)
    {s : σ} {t : τ} (start : Rel s t) (ops : List Op) :
    answers step s ops = answers step' t ops := by
  induction ops generalizing s t with
  | nil => rfl
  | cons op ops ih =>
      obtain ⟨same, related⟩ := agree s t op start
      rw [answers, answers, same, ih related]

end

end Machine
end CapsuleEmit
