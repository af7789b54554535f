import Mathlib.Tactic.Common
import Mathlib.Data.List.Basic

namespace CapsuleEmit
namespace Continuity

/-!
# Parties that follow a chain

A link leads from one position to the next.  A party keeps the last position
it accepted and accepts a link that starts there; as its first it accepts any.
Links form a chain from a position when each starts where the one before it
leads.  A party that is offered a chain from its position accepts all of it.
-/

universe u

variable {P : Type u}

/-- A step from one position to another. -/
structure Link (P : Type u) where
  prev : P
  next : P
  deriving DecidableEq

/-- A party at a position accepts a link that starts there; a party without one
accepts any. -/
def accepts [DecidableEq P] (last : Option P) (link : Link P) : Bool :=
  match last with
  | none => true
  | some position => link.prev = position

/-- The links form a chain from a position. -/
def Linked : Option P → List (Link P) → Prop
  | _, [] => True
  | last, link :: links => (∀ position ∈ last, link.prev = position) ∧ Linked (some link.next) links

/-- Where a chain leads from a position. -/
def reached : Option P → List (Link P) → Option P
  | last, [] => last
  | _, link :: links => reached (some link.next) links

theorem accepts_iff [DecidableEq P] {last : Option P} {link : Link P} :
    accepts last link = true ↔ ∀ position ∈ last, link.prev = position := by
  cases last <;> simp [accepts]

@[simp] theorem linked_nil (last : Option P) : Linked last [] := trivial

@[simp] theorem reached_nil (last : Option P) : reached last [] = last := rfl

theorem linked_append {last : Option P} {front back : List (Link P)} :
    Linked last (front ++ back) ↔ Linked last front ∧ Linked (reached last front) back := by
  induction front generalizing last with
  | nil => simp
  | cons link front ih => simp only [List.cons_append, Linked, reached, ih, and_assoc]

theorem reached_append (last : Option P) (front back : List (Link P)) :
    reached last (front ++ back) = reached (reached last front) back := by
  induction front generalizing last with
  | nil => rfl
  | cons link front ih => exact ih _

theorem reached_concat (last : Option P) (links : List (Link P)) (link : Link P) :
    reached last (links ++ [link]) = some link.next := by
  rw [reached_append]
  rfl

/-- A chain goes on by a link from where it leads. -/
theorem linked_concat {last : Option P} {links : List (Link P)} {link : Link P} :
    Linked last (links ++ [link]) ↔
      Linked last links ∧ ∀ position ∈ reached last links, link.prev = position := by
  rw [linked_append]
  simp only [Linked, and_true]

/-- A chain that starts anywhere also starts without a position. -/
theorem Linked.free {last : Option P} {links : List (Link P)} (linked : Linked last links) :
    Linked none links := by
  cases links with
  | nil => trivial
  | cons link links => exact ⟨fun _ none => (Option.not_mem_none _ none).elim, linked.2⟩

end Continuity
end CapsuleEmit
