import Mathlib.Data.List.Forall2
import Mathlib.Tactic.Common

namespace CapsuleEmit

/-!
# Computations that may fail

A check either lets a computation go on or ends it with an error.  The
lemmas here turn a successful computation into the facts its checks
established, one bind at a time, and back.
-/

universe u v

variable {ε : Type v} {α β : Type u}

/-- End with an error unless a condition holds. -/
def ensure (condition : Bool) (error : ε) : Except ε Unit :=
  if condition then .ok () else .error error

@[simp] theorem ensure_true (error : ε) : ensure true error = .ok () := rfl

@[simp] theorem ensure_false (error : ε) : ensure false error = .error error := rfl

theorem ensure_eq_ok_iff {condition : Bool} {error : ε} {done : Unit} :
    ensure condition error = .ok done ↔ condition = true := by
  cases condition <;> simp

@[simp] theorem ok_bind (a : α) (f : α → Except ε β) : (Except.ok a >>= f) = f a := rfl

@[simp] theorem error_bind (e : ε) (f : α → Except ε β) :
    ((Except.error e : Except ε α) >>= f) = .error e := rfl

theorem ensure_eq_error_iff {condition : Bool} {error e : ε} :
    ensure condition error = .error e ↔ condition = false ∧ error = e := by
  cases condition <;> simp

theorem bind_eq_ok_iff {x : Except ε α} {f : α → Except ε β} {b : β} :
    (x >>= f) = .ok b ↔ ∃ a, x = .ok a ∧ f a = .ok b := by
  cases x with
  | error e => simp
  | ok a => simp

theorem bind_eq_error_iff {x : Except ε α} {f : α → Except ε β} {e : ε} :
    (x >>= f) = .error e ↔ x = .error e ∨ ∃ a, x = .ok a ∧ f a = .error e := by
  cases x with
  | error other => simp
  | ok a => simp

@[simp] theorem pure_eq_ok (a : α) : (pure a : Except ε α) = .ok a := rfl

@[simp] theorem throw_eq_error (e : ε) : (throw e : Except ε α) = .error e := rfl

theorem map_eq_ok_iff {f : α → β} {x : Except ε α} {b : β} :
    x.map f = .ok b ↔ ∃ a, x = .ok a ∧ f a = b := by
  cases x with
  | error e => simp [Except.map]
  | ok a => simp [Except.map]

theorem mapError_eq_ok_iff {ε' : Type*} {f : ε → ε'} {x : Except ε α} {a : α} :
    x.mapError f = .ok a ↔ x = .ok a := by
  cases x <;> simp [Except.mapError]

theorem error_or_ok (x : Except ε α) : (∃ e, x = .error e) ∨ ∃ a, x = .ok a := by
  cases x with
  | error e => exact Or.inl ⟨e, rfl⟩
  | ok a => exact Or.inr ⟨a, rfl⟩

/-- The error a computation ends with. -/
def failure? (x : Except ε α) : Option ε :=
  match x with
  | .error e => some e
  | .ok _ => none

theorem eq_error_of_failure {x : Except ε α} {e : ε} (failed : failure? x = some e) :
    x = .error e := by
  cases x with
  | error other => rw [Option.some.inj failed]
  | ok a => cases failed

/-- A successful traversal computed every item. -/
theorem forall₂_of_mapM {α β : Type u} {f : α → Except ε β} {items : List α} {results : List β}
    (ok : items.mapM f = .ok results) : List.Forall₂ (fun a b => f a = .ok b) items results := by
  induction items generalizing results with
  | nil =>
      rw [List.mapM_nil] at ok
      cases ok
      exact List.Forall₂.nil
  | cons a items ih =>
      rw [List.mapM_cons] at ok
      obtain ⟨b, first, ok⟩ := bind_eq_ok_iff.mp ok
      obtain ⟨others, rest, same⟩ := bind_eq_ok_iff.mp ok
      cases same
      exact List.Forall₂.cons first (ih rest)

/-- A traversal succeeds when every item does. -/
theorem mapM_total {α β : Type u} {f : α → Except ε β} {items : List α}
    (each : ∀ a ∈ items, ∃ b, f a = .ok b) : ∃ results, items.mapM f = .ok results := by
  induction items with
  | nil => exact ⟨[], rfl⟩
  | cons a items ih =>
      rcases each a List.mem_cons_self with ⟨b, first⟩
      rcases ih (fun other inside => each other (List.mem_cons_of_mem a inside)) with ⟨rest, others⟩
      exact ⟨b :: rest, by rw [List.mapM_cons, first, ok_bind, others]; rfl⟩

/-- A traversal of a front of the items ends with a front of the results. -/
theorem mapM_take {α β : Type u} {f : α → Except ε β} {items : List α} {results : List β}
    (ok : items.mapM f = .ok results) (n : Nat) :
    (items.take n).mapM f = .ok (results.take n) := by
  induction items generalizing results n with
  | nil =>
      rw [List.mapM_nil] at ok
      cases ok
      rw [List.take_nil, List.take_nil, List.mapM_nil]
      rfl
  | cons a items ih =>
      rw [List.mapM_cons] at ok
      rcases bind_eq_ok_iff.mp ok with ⟨b, first, ok⟩
      rcases bind_eq_ok_iff.mp ok with ⟨others, rest, same⟩
      cases same
      cases n with
      | zero => rfl
      | succ n => rw [List.take_succ_cons, List.mapM_cons, first, ok_bind, ih rest n]; rfl

/-- What an item of the right list is related to. -/
theorem exists_of_forall₂ {α β : Type*} {R : α → β → Prop} {left : List α} {right : List β}
    (related : List.Forall₂ R left right) {b : β} (inside : b ∈ right) : ∃ a ∈ left, R a b := by
  induction related with
  | nil => cases inside
  | cons first rest ih =>
      rcases List.mem_cons.mp inside with rfl | inside
      · exact ⟨_, List.mem_cons_self, first⟩
      · rcases ih inside with ⟨a, member, holds⟩
        exact ⟨a, List.mem_cons_of_mem _ member, holds⟩

/-- A relation may use that the right item is in its list. -/
theorem forall₂_imp_of_mem {α β : Type*} {R S : α → β → Prop} {left : List α} {right : List β}
    (related : List.Forall₂ R left right) (stronger : ∀ a, ∀ b ∈ right, R a b → S a b) :
    List.Forall₂ S left right := by
  induction related with
  | nil => exact List.Forall₂.nil
  | cons first rest ih =>
      exact List.Forall₂.cons (stronger _ _ List.mem_cons_self first)
        (ih (fun a b inside => stronger a b (List.mem_cons_of_mem _ inside)))

/-- A relation may use that the left item is in its list. -/
theorem forall₂_imp_of_mem_left {α β : Type*} {R S : α → β → Prop} {left : List α} {right : List β}
    (related : List.Forall₂ R left right) (stronger : ∀ a b, a ∈ left → R a b → S a b) :
    List.Forall₂ S left right :=
  (forall₂_imp_of_mem related.flip (fun _ _ inside holds => stronger _ _ inside holds)).flip

/-- Lists related item by item have the same images under maps that agree on
related items. -/
theorem map_eq_of_forall₂ {α β γ : Type*} {R : α → β → Prop} {f : α → γ} {g : β → γ}
    (agree : ∀ a b, R a b → f a = g b) {left : List α} {right : List β}
    (related : List.Forall₂ R left right) : left.map f = right.map g := by
  induction related with
  | nil => rfl
  | cons first rest ih => rw [List.map_cons, List.map_cons, agree _ _ first, ih]

/-- Whether a computation succeeded. -/
def succeeds : Except ε α → Bool
  | .ok _ => true
  | .error _ => false

theorem succeeds_iff {x : Except ε α} : succeeds x = true ↔ ∃ a, x = .ok a := by
  cases x <;> simp [succeeds]

@[simp] theorem succeeds_ok (a : α) : succeeds (.ok a : Except ε α) = true := rfl

@[simp] theorem succeeds_error (e : ε) : succeeds (.error e : Except ε α) = false := rfl

end CapsuleEmit
