import Mathlib.Algebra.GroupWithZero.Nat
import Mathlib.Algebra.Order.BigOperators.Group.List
import Mathlib.Logic.Relation
import Mathlib.Tactic.Common

namespace CapsuleEmit
namespace Walk

/-!
# Walking a value without recursion

A walk keeps a stack of what is still to be visited and the keys of what has
been, so it neither recurses nor visits an object twice.  It stops at the first
node that is looked for.  When no two nodes have the same key, the walk finds a
node exactly when one can be reached.
-/

universe u

/-- What a walk is told: the children of a node, the key of the nodes that are
remembered, and the nodes that are looked for.  The children of a node are
smaller than it. -/
structure Shape (α : Type u) where
  children : α → List α
  key : α → Option Nat
  hit : α → Bool
  size : α → Nat
  smaller : ∀ a, ((children a).map size).sum < size a

variable {α : Type u} (shape : Shape α)

/-- The loop, with a bound on its turns. -/
def walk : Nat → List Nat → List α → Option α
  | 0, _, _ => none
  | _ + 1, _, [] => none
  | turns + 1, seen, a :: stack =>
      if (shape.key a).any seen.contains then walk turns seen stack
      else if shape.hit a then some a
      else walk turns ((shape.key a).toList ++ seen) ((shape.children a).reverse ++ stack)

/-- The first node that is looked for; a walk takes no more turns than its root
is large. -/
def find (root : α) : Option α := walk shape (shape.size root) [] [root]

/-- A node is reached from another through children. -/
def Reaches : α → α → Prop := Relation.ReflTransGen (fun a b => b ∈ shape.children a)

variable {shape}

/-- What a walk finds is looked for, and was reached from the stack. -/
theorem walk_eq_some {turns : Nat} {seen : List Nat} {stack : List α} {found : α}
    (some : walk shape turns seen stack = some found) :
    shape.hit found = true ∧ ∃ a ∈ stack, Reaches shape a found := by
  induction turns generalizing seen stack with
  | zero => cases some
  | succ turns ih =>
      cases stack with
      | nil => cases some
      | cons a stack =>
          rw [walk] at some
          split_ifs at some with again hit
          · rcases ih some with ⟨looked, b, inside, reached⟩
            exact ⟨looked, b, List.mem_cons_of_mem a inside, reached⟩
          · cases some
            exact ⟨hit, found, List.mem_cons_self, Relation.ReflTransGen.refl⟩
          · rcases ih some with ⟨looked, b, inside, reached⟩
            rcases List.mem_append.mp inside with child | other
            · exact ⟨looked, a, List.mem_cons_self,
                Relation.ReflTransGen.head (List.mem_reverse.mp child) reached⟩
            · exact ⟨looked, b, List.mem_cons_of_mem a other, reached⟩

/-- The visited nodes are not looked for, their children are visited or on the
stack, and they are the nodes whose keys have been seen. -/
structure Visited (shape : Shape α) (seen : List Nat) (stack visited : List α) : Prop where
  keys : ∀ k ∈ seen, ∃ a ∈ visited, shape.key a = some k
  missed : ∀ a ∈ visited, shape.hit a = false
  closed : ∀ a ∈ visited, ∀ child ∈ shape.children a, child ∈ visited ∨ child ∈ stack

/-- A walk that finds nothing has visited everything on its stack, and what it
has visited is closed under children. -/
theorem walk_eq_none {P : α → Prop} (stable : ∀ a, P a → ∀ child ∈ shape.children a, P child)
    (apart : ∀ a b k, P a → P b → shape.key a = some k → shape.key b = some k → a = b)
    {turns : Nat} {seen : List Nat} {stack visited : List α}
    (none : walk shape turns seen stack = none) (enough : (stack.map shape.size).sum ≤ turns)
    (all : ∀ a ∈ stack ++ visited, P a) (inv : Visited shape seen stack visited) :
    ∃ whole, (∀ a ∈ stack ++ visited, a ∈ whole) ∧ Visited shape [] [] whole := by
  induction turns generalizing seen stack visited with
  | zero =>
      cases stack with
      | nil => exact ⟨visited, fun a inside => inside, nofun, inv.missed, inv.closed⟩
      | cons a stack =>
          have positive := shape.smaller a
          rw [List.map_cons, List.sum_cons] at enough
          omega
  | succ turns ih =>
      cases stack with
      | nil => exact ⟨visited, fun a inside => inside, nofun, inv.missed, inv.closed⟩
      | cons a stack =>
          have smaller := shape.smaller a
          rw [List.map_cons, List.sum_cons] at enough
          rw [walk] at none
          split_ifs at none with again hit
          · have known : a ∈ visited := by
              rcases (Option.any_eq_true _ _).mp again with ⟨k, key, inside⟩
              rcases inv.keys k (List.contains_iff_mem.mp inside) with ⟨b, before, other⟩
              have same := apart a b k (all a List.mem_cons_self)
                (all b (List.mem_append_right _ before)) key other
              exact same ▸ before
            have next : Visited shape seen stack visited := by
              refine ⟨inv.keys, inv.missed, fun b before child under => ?_⟩
              rcases inv.closed b before child under with done | waiting
              · exact Or.inl done
              · rcases List.mem_cons.mp waiting with rfl | waiting
                · exact Or.inl known
                · exact Or.inr waiting
            rcases ih none (by omega) (fun b inside => all b (List.mem_cons_of_mem a inside)) next
              with ⟨whole, covers, inv⟩
            refine ⟨whole, fun b inside => ?_, inv⟩
            rcases List.mem_cons.mp inside with rfl | inside
            · exact covers b (List.mem_append_right _ known)
            · exact covers b inside
          · have next : Visited shape ((shape.key a).toList ++ seen)
                ((shape.children a).reverse ++ stack) (a :: visited) := by
              refine ⟨fun k inside => ?_, fun b inside => ?_, fun b inside child under => ?_⟩
              · rcases List.mem_append.mp inside with new | old
                · exact ⟨a, List.mem_cons_self, Option.mem_toList.mp new⟩
                · rcases inv.keys k old with ⟨b, before, key⟩
                  exact ⟨b, List.mem_cons_of_mem a before, key⟩
              · rcases List.mem_cons.mp inside with rfl | before
                · exact Bool.eq_false_iff.mpr hit
                · exact inv.missed b before
              · rcases List.mem_cons.mp inside with rfl | before
                · exact Or.inr (List.mem_append_left _ (List.mem_reverse.mpr under))
                · rcases inv.closed b before child under with done | waiting
                  · exact Or.inl (List.mem_cons_of_mem a done)
                  · rcases List.mem_cons.mp waiting with rfl | waiting
                    · exact Or.inl List.mem_cons_self
                    · exact Or.inr (List.mem_append_right _ waiting)
            have total : (((shape.children a).reverse ++ stack).map shape.size).sum ≤ turns := by
              rw [List.map_append, List.sum_append, List.map_reverse, List.sum_reverse]
              omega
            have whole : ∀ b ∈ (shape.children a).reverse ++ stack ++ a :: visited, P b := by
              intro b inside
              rcases List.mem_append.mp inside with front | back
              · rcases List.mem_append.mp front with child | other
                · exact stable a (all a List.mem_cons_self) b (List.mem_reverse.mp child)
                · exact all b (List.mem_cons_of_mem a (List.mem_append_left _ other))
              · rcases List.mem_cons.mp back with rfl | before
                · exact all b List.mem_cons_self
                · exact all b (List.mem_append_right _ before)
            rcases ih none total whole next with ⟨done, covers, inv⟩
            refine ⟨done, fun b inside => ?_, inv⟩
            rcases List.mem_append.mp inside with front | before
            · rcases List.mem_cons.mp front with rfl | other
              · exact covers b (List.mem_append_right _ List.mem_cons_self)
              · exact covers b (List.mem_append_left _ (List.mem_append_right _ other))
            · exact covers b (List.mem_append_right _ (List.mem_cons_of_mem a before))

/-- No two nodes under a root have the same key. -/
def Coherent (shape : Shape α) (root : α) : Prop :=
  ∀ a b k, Reaches shape root a → Reaches shape root b →
    shape.key a = some k → shape.key b = some k → a = b

/-- A walk finds a node exactly when one is reached from its root. -/
theorem find_isSome_iff {root : α} (coherent : Coherent shape root) :
    (find shape root).isSome = true ↔ ∃ a, Reaches shape root a ∧ shape.hit a = true := by
  constructor
  · intro there
    rcases Option.isSome_iff_exists.mp there with ⟨a, found⟩
    rcases walk_eq_some found with ⟨looked, b, inside, reached⟩
    rcases List.mem_singleton.mp inside with rfl
    exact ⟨a, reached, looked⟩
  · rintro ⟨a, reached, looked⟩
    by_contra missing
    have none : find shape root = none := by simpa using missing
    have stable : ∀ b, Reaches shape root b →
        ∀ child ∈ shape.children b, Reaches shape root child :=
      fun b below child under => Relation.ReflTransGen.tail below under
    have all : ∀ b ∈ [root] ++ [], Reaches shape root b := by
      intro b inside
      rw [List.append_nil] at inside
      rcases List.mem_singleton.mp inside with rfl
      exact Relation.ReflTransGen.refl
    rcases walk_eq_none stable coherent none (by simp) all ⟨nofun, nofun, nofun⟩
      with ⟨whole, covers, inv⟩
    have covered : ∀ b, Reaches shape root b → b ∈ whole := by
      intro b below
      induction below with
      | refl => exact covers root (by simp)
      | tail _ under ih =>
          rcases inv.closed _ ih _ under with done | waiting
          · exact done
          · cases waiting
    rw [inv.missed a (covered a reached)] at looked
    cases looked

end Walk
end CapsuleEmit
