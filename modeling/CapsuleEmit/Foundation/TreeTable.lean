import Mathlib.Algebra.BigOperators.Group.List.Basic
import Mathlib.Algebra.GroupWithZero.Nat
import Std.Data.TreeMap

namespace CapsuleEmit
namespace TreeTable

/-!
# Sums over tree maps

The sum of the weights of a tree map's values, and what setting one value
changes about it.
-/

open Std (TreeMap TransOrd LawfulEqOrd)

universe u v

variable {α : Type u} {β : Type v} [Ord α] [TransOrd α] [LawfulEqOrd α] [DecidableEq α]

/-- The sum of the weights of the values. -/
def total (weight : β → Nat) (table : TreeMap α β) : Nat :=
  (table.toList.map (fun entry => weight entry.2)).sum

/-- A set value adds its weight to those of the other keys. -/
theorem total_insert (weight : β → Nat) (table : TreeMap α β) (key : α) (value : β) :
    total weight (table.insert key value) =
      weight value + ((table.toList.filter (fun entry => entry.1 ≠ key)).map
        (fun entry => weight entry.2)).sum := by
  have entries := @TreeMap.toList_insert_perm α β compare table _ _ _ key value
  have sum := (entries.map (fun entry => weight entry.2)).sum_eq
  rw [total, sum, List.map_cons, List.sum_cons]
  have same : (fun entry : α × β => decide (¬ (key == entry.1) = true)) =
      fun entry => decide (entry.1 ≠ key) := by
    funext entry
    rw [decide_eq_decide, beq_iff_eq]
    exact ⟨Ne.symm, Ne.symm⟩
  rw [same]

omit [DecidableEq α] in
theorem total_eq_of_getElem? {left right : TreeMap α β} (weight : β → Nat)
    (same : ∀ key : α, left[key]? = right[key]?) : total weight left = total weight right := by
  have equal : TreeMap.Equiv left right := TreeMap.Equiv.of_forall_constGet?_eq same
  rw [total, total, equal.toList_eq]

/-- Setting a value adds its weight and takes away that of the value before. -/
theorem total_insert_add (weight : β → Nat) (table : TreeMap α β) (key : α) (value : β) :
    total weight (table.insert key value) + (table[key]?.map weight).getD 0 =
      total weight table + weight value := by
  have others : total weight table = (table[key]?.map weight).getD 0 +
      ((table.toList.filter (fun entry => entry.1 ≠ key)).map
        (fun entry => weight entry.2)).sum := by
    cases held : table[key]? with
    | none =>
        have kept : table.toList.filter (fun entry => entry.1 ≠ key) = table.toList := by
          apply List.filter_eq_self.mpr
          rintro ⟨other, found⟩ inside
          rw [TreeMap.mem_toList_iff_getElem?_eq_some] at inside
          have different : other ≠ key := by
            rintro rfl
            rw [held] at inside
            cases inside
          exact decide_eq_true different
        rw [kept, Option.map_none, Option.getD_none, Nat.zero_add, total]
    | some before =>
        have again : total weight table = total weight (table.insert key before) := by
          apply total_eq_of_getElem?
          intro other
          rw [TreeMap.getElem?_insert]
          split
          · next same => rw [← LawfulEqOrd.eq_of_compare same, held]
          · rfl
        rw [again, total_insert]
        rfl
  rw [total_insert, others]
  omega

end TreeTable
end CapsuleEmit
