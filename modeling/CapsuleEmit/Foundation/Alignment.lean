import Mathlib.Data.List.ReduceOption
import Mathlib.Tactic.Common

namespace CapsuleEmit
namespace Alignment

/-!
# Joining two lists by position

Two lists are joined position by position, as long as either goes on.  When
items of the two are dropped, joining what is left pairs items that did not
stand at the same position, unless the two lists lost their items in step: up
to some position both or neither item was dropped, and from there on one list
lost all it had.
-/

universe u v

variable {α : Type u} {β : Type v}

/-- The pair of a position, if it has an item left. -/
def pairAt (a : Option α) (b : Option β) : List (Option α × Option β) :=
  if a.isNone ∧ b.isNone then [] else [(a, b)]

/-- The pairs of the positions of two lists; a dropped item is `none`. -/
def joined : List (Option α) → List (Option β) → List (Option α × Option β)
  | [], bs => bs.flatMap (pairAt none)
  | a :: as, bs => pairAt a bs.head?.join ++ joined as bs.tail

/-- The pairs of what is left of two lists. -/
def compacted (as : List (Option α)) (bs : List (Option β)) : List (Option α × Option β) :=
  joined (as.reduceOption.map some) (bs.reduceOption.map some)

/-- The lists lost their items in step. -/
def InStep : List (Option α) → List (Option β) → Prop
  | some _ :: as, some _ :: bs => InStep as bs
  | none :: as, none :: bs => InStep as bs
  | none :: as, some _ :: _ => as.reduceOption = []
  | some _ :: _, none :: bs => bs.reduceOption = []
  | [], _ => True
  | _ :: _, [] => True

/-- Which members a pair has. -/
def shape (pair : Option α × Option β) : Bool × Bool := (pair.1.isSome, pair.2.isSome)

@[simp] theorem joined_cons_cons (a : Option α) (b : Option β) (as : List (Option α))
    (bs : List (Option β)) : joined (a :: as) (b :: bs) = pairAt a b ++ joined as bs := rfl

theorem joined_nil_left (bs : List (Option β)) :
    joined ([] : List (Option α)) bs = bs.reduceOption.map (fun b => (none, some b)) := by
  induction bs with
  | nil => rfl
  | cons b bs ih =>
      cases b with
      | none => exact ih
      | some b =>
          rw [List.reduceOption_cons_of_some, List.map_cons, ← ih]
          rfl

theorem joined_nil_right (as : List (Option α)) :
    joined as ([] : List (Option β)) = as.reduceOption.map (fun a => (some a, none)) := by
  induction as with
  | nil => rfl
  | cons a as ih =>
      cases a with
      | none => exact ih
      | some a =>
          rw [List.reduceOption_cons_of_some, List.map_cons, ← ih]
          rfl

theorem joined_of_lost_left {as : List (Option α)} (lost : as.reduceOption = [])
    (bs : List (Option β)) : joined as bs = joined [] bs := by
  induction as generalizing bs with
  | nil => rfl
  | cons a as ih =>
      cases a with
      | some a => cases lost
      | none =>
          cases bs with
          | nil => exact ih lost []
          | cons b bs => exact congrArg (pairAt none b ++ ·) (ih lost bs)

theorem joined_of_lost_right {bs : List (Option β)} (lost : bs.reduceOption = [])
    (as : List (Option α)) : joined as bs = joined as [] := by
  induction as generalizing bs with
  | nil => rw [joined_nil_left, lost]; rfl
  | cons a as ih =>
      cases bs with
      | nil => rfl
      | cons b bs =>
          cases b with
          | some b => cases lost
          | none =>
              have rest : joined as bs = joined as [] := ih lost
              rw [joined_cons_cons, rest]
              rfl

@[simp] theorem reduceOption_map_some (l : List α) : (l.map some).reduceOption = l := by
  induction l with
  | nil => rfl
  | cons a l ih => rw [List.map_cons, List.reduceOption_cons_of_some, ih]

theorem compacted_of_lost_left {as : List (Option α)} (lost : as.reduceOption = [])
    (bs : List (Option β)) : compacted as bs = joined as bs := by
  rw [compacted, lost, joined_of_lost_left lost, List.map_nil, joined_nil_left, joined_nil_left,
    reduceOption_map_some]

theorem compacted_of_lost_right {bs : List (Option β)} (lost : bs.reduceOption = [])
    (as : List (Option α)) : compacted as bs = joined as bs := by
  rw [compacted, lost, joined_of_lost_right lost, List.map_nil, joined_nil_right,
    joined_nil_right, reduceOption_map_some]

/-- Joining what is left of two lists that lost their items in step gives the
pairs of their positions. -/
theorem compacted_of_inStep {as : List (Option α)} {bs : List (Option β)}
    (step : InStep as bs) : compacted as bs = joined as bs := by
  induction as generalizing bs with
  | nil => exact compacted_of_lost_left rfl bs
  | cons a as ih =>
      cases bs with
      | nil => exact compacted_of_lost_right rfl (a :: as)
      | cons b bs =>
          cases a with
          | none =>
              cases b with
              | none => exact ih step
              | some b =>
                  exact compacted_of_lost_left ((List.reduceOption_cons_of_none as).trans step) _
          | some a =>
              cases b with
              | none =>
                  exact compacted_of_lost_right ((List.reduceOption_cons_of_none bs).trans step) _
              | some b =>
                  have rest : compacted as bs = joined as bs := ih step
                  rw [joined_cons_cons, ← rest]
                  rfl

/-- When the pairs of what is left have the members the positions have, the
lists lost their items in step. -/
theorem inStep_of_shape {as : List (Option α)} {bs : List (Option β)}
    (same : (compacted as bs).map shape = (joined as bs).map shape) : InStep as bs := by
  induction as generalizing bs with
  | nil => trivial
  | cons a as ih =>
      cases bs with
      | nil => cases a <;> trivial
      | cons b bs =>
          cases a with
          | none =>
              cases b with
              | none => exact ih same
              | some b =>
                  cases left : as.reduceOption with
                  | nil => exact left
                  | cons a rest =>
                      have first : compacted (none :: as) (some b :: bs) =
                          (some a, some b) :: joined (rest.map some) (bs.reduceOption.map some) := by
                        rw [compacted, List.reduceOption_cons_of_none, left]
                        rfl
                      rw [first] at same
                      cases same
          | some a =>
              cases b with
              | none =>
                  cases left : bs.reduceOption with
                  | nil => exact left
                  | cons b rest =>
                      have first : compacted (some a :: as) (none :: bs) =
                          (some a, some b) :: joined (as.reduceOption.map some) (rest.map some) := by
                        rw [compacted, List.reduceOption_cons_of_none, left]
                        rfl
                      rw [first] at same
                      cases same
              | some b =>
                  apply ih
                  exact (List.cons.inj same).2

theorem compacted_eq_iff {as : List (Option α)} {bs : List (Option β)} :
    compacted as bs = joined as bs ↔ InStep as bs :=
  ⟨fun same => inStep_of_shape (by rw [same]), compacted_of_inStep⟩

/-- The positions of two lists, counted. -/
theorem joined_eq_range (as : List (Option α)) (bs : List (Option β)) :
    joined as bs = (List.range (max as.length bs.length)).flatMap
      (fun i => pairAt as[i]?.join bs[i]?.join) := by
  induction as generalizing bs with
  | nil =>
      induction bs with
      | nil => rfl
      | cons b bs ih =>
          rw [List.length_nil, Nat.zero_max] at ih ⊢
          rw [List.length_cons, List.range_succ_eq_map, List.flatMap_cons, List.flatMap_map]
          exact congrArg (pairAt none b ++ ·) ih
  | cons a as ih =>
      have rest := ih bs.tail
      rw [joined, rest]
      cases bs with
      | nil =>
          rw [List.tail_nil, List.length_nil, Nat.max_zero, Nat.max_zero, List.length_cons,
            List.range_succ_eq_map, List.flatMap_cons, List.flatMap_map]
          rfl
      | cons b bs =>
          rw [List.tail_cons, List.length_cons, List.length_cons, Nat.succ_max_succ,
            List.range_succ_eq_map, List.flatMap_cons, List.flatMap_map]
          rfl

end Alignment
end CapsuleEmit
