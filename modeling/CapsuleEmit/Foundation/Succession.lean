import Mathlib.Tactic.Common

namespace CapsuleEmit
namespace Succession

/-!
# Items that name the one before them

In a log every item names its predecessor, and the first item names none.
Where an item cannot have two predecessors, none is in the log twice.
-/

universe u

variable {α : Type u}

/-- Newest first, every item names the one before it and the oldest names none. -/
def Linked (names : α → Option α → Prop) : List α → Prop
  | [] => True
  | a :: older => names a older.head? ∧ Linked names older

variable {names : α → Option α → Prop}

theorem Linked.older {front back : List α} (linked : Linked names (front ++ back)) :
    Linked names back := by
  induction front with
  | nil => exact linked
  | cons a front ih => exact ih linked.2

/-- No item is in the log twice. -/
theorem Linked.nodup (single : ∀ a p q, names a p → names a q → p = q) {items : List α}
    (linked : Linked names items) : items.Nodup := by
  induction items with
  | nil => exact List.nodup_nil
  | cons a older ih =>
      have distinct := ih linked.2
      refine List.nodup_cons.mpr ⟨fun inside => ?_, distinct⟩
      rcases List.mem_iff_append.mp inside with ⟨front, back, rfl⟩
      have same := single a _ _ linked.1 (linked.2.older).1
      cases front with
      | nil =>
          -- The newest item is its own predecessor.
          have again := List.mem_of_mem_head? (same.symm.trans rfl : back.head? = some a)
          exact (List.nodup_cons.mp distinct).1 again
      | cons b front =>
          have again := List.mem_of_mem_head? (same.symm.trans rfl : back.head? = some b)
          exact (List.nodup_cons.mp distinct).1 (by simp [again])

end Succession
end CapsuleEmit
