import CapsuleEmit.Foundation.Outcome
import Mathlib.Data.List.Basic
import Mathlib.Data.List.Sort

namespace CapsuleEmit
namespace Tables

/-!
# Tables as row sets

A table with a primary key is a list of rows with distinct keys.  An insert
fails on a key that is there, and otherwise adds the row.  A selection that is
ordered by a number does not depend on the order of the rows, when the numbers
are distinct.
-/

variable {ρ κ : Type*} [DecidableEq κ]

/-- The table with a row added, unless its key is taken. -/
def insert (key : ρ → κ) (row : ρ) (rows : List ρ) : Option (List ρ) :=
  if rows.any (fun other => key other = key row) then none else some (rows ++ [row])

section

variable {key : ρ → κ} {row : ρ} {rows rows' : List ρ}

theorem insert_eq_some_iff :
    insert key row rows = some rows' ↔ (∀ other ∈ rows, key other ≠ key row) ∧
      rows' = rows ++ [row] := by
  have taken : rows.any (fun other => key other = key row) = true ↔
      ¬ ∀ other ∈ rows, key other ≠ key row := by
    simp
  rw [insert]
  by_cases free : ∀ other ∈ rows, key other ≠ key row
  · rw [if_neg (fun any => (taken.mp any) free), Option.some_inj]
    exact ⟨fun same => ⟨free, same.symm⟩, fun both => both.2.symm⟩
  · rw [if_pos (taken.mpr free)]
    constructor
    · intro same
      cases same
    · exact fun both => absurd both.1 free

theorem insert_of_fresh (free : ∀ other ∈ rows, key other ≠ key row) :
    insert key row rows = some (rows ++ [row]) :=
  insert_eq_some_iff.mpr ⟨free, rfl⟩

theorem insert_of_taken {other : ρ} (member : other ∈ rows) (taken : key other = key row) :
    insert key row rows = none := by
  cases result : insert key row rows with
  | none => rfl
  | some rows' => exact absurd taken ((insert_eq_some_iff.mp result).1 other member)

end

/-! ## Ordered selections -/

/-- Rows in the order of a number. -/
def orderBy (rank : ρ → Nat) (rows : List ρ) : List ρ :=
  rows.insertionSort (fun x y => rank x ≤ rank y)

/-- An ordered selection is the ascending list of the selected rows. -/
theorem orderBy_eq_of_perm {rank : ρ → Nat} {rows sorted : List ρ} (perm : rows.Perm sorted)
    (ascending : sorted.Pairwise (fun x y => rank x < rank y)) : orderBy rank rows = sorted := by
  have total : Std.Total (fun x y : ρ => rank x ≤ rank y) := ⟨fun x y => Nat.le_total _ _⟩
  have trans : IsTrans ρ (fun x y : ρ => rank x ≤ rank y) := ⟨fun _ _ _ => Nat.le_trans⟩
  have ordered := List.pairwise_insertionSort (fun x y : ρ => rank x ≤ rank y) rows
  have same : (orderBy rank rows).Perm sorted := (List.perm_insertionSort _ rows).trans perm
  have distinct : (sorted.map rank).Nodup :=
    List.pairwise_map.mpr (ascending.imp (fun less => Nat.ne_of_lt less))
  refine List.Perm.eq_of_pairwise ?_ ordered (ascending.imp (fun less => Nat.le_of_lt less)) same
  intro x y inLeft inRight below above
  exact List.inj_on_of_nodup_map distinct (same.mem_iff.mp inLeft) inRight
    (Nat.le_antisymm below above)

theorem perm_orderBy (rank : ρ → Nat) (rows : List ρ) : (orderBy rank rows).Perm rows :=
  List.perm_insertionSort _ rows

theorem pairwise_orderBy (rank : ρ → Nat) (rows : List ρ) :
    (orderBy rank rows).Pairwise (fun x y => rank x ≤ rank y) := by
  have total : Std.Total (fun x y : ρ => rank x ≤ rank y) := ⟨fun x y => Nat.le_total _ _⟩
  have trans : IsTrans ρ (fun x y : ρ => rank x ≤ rank y) := ⟨fun _ _ _ => Nat.le_trans⟩
  exact List.pairwise_insertionSort _ rows

/-- Distinct numbers ascend strictly in their order. -/
theorem pairwise_orderBy_lt {rank : ρ → Nat} {rows : List ρ} (distinct : (rows.map rank).Nodup) :
    (orderBy rank rows).Pairwise (fun x y => rank x < rank y) := by
  have apart : (orderBy rank rows).Pairwise (fun x y => rank x ≠ rank y) :=
    List.pairwise_map.mp (((perm_orderBy rank rows).map rank).nodup_iff.mpr distinct)
  exact ((pairwise_orderBy rank rows).and apart).imp (fun both => Nat.lt_of_le_of_ne both.1 both.2)

/-- Ordering images by a number is ordering the rows by the number of their
images. -/
theorem orderBy_map {σ : Type*} {rank : σ → Nat} {rank' : ρ → Nat} {f : ρ → σ} {rows : List ρ}
    (same : ∀ row ∈ rows, rank (f row) = rank' row) :
    orderBy rank (rows.map f) = (orderBy rank' rows).map f := by
  apply Eq.symm
  apply List.map_insertionSort
  intro x inX y inY
  rw [same x inX, same y inY]

end Tables
end CapsuleEmit
