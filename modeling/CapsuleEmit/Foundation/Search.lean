import CapsuleEmit.Foundation.Outcome
import Mathlib.Data.List.Basic

namespace CapsuleEmit
namespace Search

/-!
# Binary search

A search halves a range of a list.  It asks of the item in the middle whether
it stands before, at or after what is searched.  On a list whose items stand
in that order, the search finds an item that is at the target if there is one,
and otherwise the place where it would be inserted.  The partition point of a
list is found by the same search.
-/

variable {α : Type*}

/-- Halve the range of the given start and size until it holds one place. -/
def bracket (order : α → Ordering) (items : List α) : Nat → Nat → Nat → Nat
  | 0, base, _ => base
  | steps + 1, base, size =>
      if size ≤ 1 then base
      else
        let mid := base + size / 2
        let next := match items[mid]? with
          | some item => if order item = .gt then base else mid
          | none => base
        bracket order items steps next (size - size / 2)

/-- The place of an item at the target, or the place to insert one. -/
def searchBy (order : α → Ordering) (items : List α) : Except Nat Nat :=
  let base := bracket order items items.length 0 items.length
  match items[base]? with
  | none => .error 0
  | some item =>
      match order item with
      | .eq => .ok base
      | .lt => .error (base + 1)
      | .gt => .error base

/-- Where an item stands when the target is the end of those that satisfy a predicate. -/
def side (before : α → Bool) (item : α) : Ordering := if before item then .lt else .gt

/-- The number of items before the first one that does not satisfy a predicate. -/
def partitionPoint (before : α → Bool) (items : List α) : Nat :=
  match searchBy (side before) items with
  | .ok place => place
  | .error place => place

/-! ## Searching an ordered list -/

/-- The items before the target come first, and those after it last. -/
def Ordered (order : α → Ordering) (items : List α) : Prop :=
  items.Pairwise (fun x y => (order x = .gt → order y = .gt) ∧ (order y = .lt → order x = .lt))

section

variable {order : α → Ordering} {items : List α}

theorem Ordered.at (ordered : Ordered order items) {i j : Nat} (before : i < j) {x y : α}
    (atI : items[i]? = some x) (atJ : items[j]? = some y) :
    (order x = .gt → order y = .gt) ∧ (order y = .lt → order x = .lt) := by
  obtain ⟨inI, rfl⟩ := List.getElem?_eq_some_iff.mp atI
  obtain ⟨inJ, rfl⟩ := List.getElem?_eq_some_iff.mp atJ
  exact List.pairwise_iff_getElem.mp ordered i j inI inJ before

/-- What the halved range keeps: its start is not after the target, unless it
is the first place, and everything behind it is. -/
structure Brackets (order : α → Ordering) (items : List α) (base stop : Nat) : Prop where
  start : base = 0 ∨ ∀ x, items[base]? = some x → order x ≠ .gt
  behind : ∀ i x, stop ≤ i → items[i]? = some x → order x = .gt

theorem bracket_spec (ordered : Ordered order items) (steps base size : Nat) (filled : 0 < size)
    (enough : size ≤ steps + 1) (inside : base + size ≤ items.length)
    (holds : Brackets order items base (base + size)) :
    bracket order items steps base size < items.length ∧
      Brackets order items (bracket order items steps base size)
        (bracket order items steps base size + 1) := by
  induction steps generalizing base size with
  | zero =>
      obtain rfl : size = 1 := by omega
      exact ⟨by rw [bracket]; omega, holds⟩
  | succ steps ih =>
      rw [bracket]
      split
      · next single =>
          obtain rfl : size = 1 := by omega
          exact ⟨by omega, holds⟩
      · next several =>
          have place : base + size / 2 < items.length := by omega
          have found : items[base + size / 2]? = some items[base + size / 2] :=
            List.getElem?_eq_getElem place
          simp only [found]
          by_cases after : order items[base + size / 2] = .gt
          · rw [if_pos after]
            refine ih base _ (by omega) (by omega) (by omega) ⟨holds.start, fun i x behind atI => ?_⟩
            by_cases same : i = base + size / 2
            · subst same
              rw [found] at atI
              rwa [← Option.some.inj atI]
            · exact (ordered.at (by omega) found atI).1 after
          · rw [if_neg after]
            refine ih _ _ (by omega) (by omega) (by omega) ⟨Or.inr fun x atMid => ?_, ?_⟩
            · rw [found] at atMid
              rwa [← Option.some.inj atMid]
            · intro i x behind atI
              exact holds.behind i x (by omega) atI

/-- The range a whole search ends with. -/
theorem bracket_whole (ordered : Ordered order items) (filled : 0 < items.length) :
    bracket order items items.length 0 items.length < items.length ∧
      Brackets order items (bracket order items items.length 0 items.length)
        (bracket order items items.length 0 items.length + 1) := by
  refine bracket_spec ordered _ 0 _ filled (by omega) (by omega) ⟨Or.inl rfl, fun i x behind atI => ?_⟩
  rw [List.getElem?_eq_none (by omega)] at atI
  cases atI

/-- A search finds the place of an item at the target, or the place that
separates the items before it from those after it. -/
theorem searchBy_spec (ordered : Ordered order items) :
    (∃ place x, searchBy order items = .ok place ∧ items[place]? = some x ∧ order x = .eq) ∨
      ∃ place, searchBy order items = .error place ∧ ∀ i x, items[i]? = some x →
        (i < place → order x = .lt) ∧ (place ≤ i → order x = .gt) := by
  by_cases filled : 0 < items.length
  swap
  · obtain rfl : items = [] := List.eq_nil_of_length_eq_zero (by omega)
    exact Or.inr ⟨0, rfl, fun i x atI => by cases atI⟩
  obtain ⟨inside, holds⟩ := bracket_whole ordered filled
  rw [searchBy]
  generalize bracket order items items.length 0 items.length = base at inside holds
  have found : items[base]? = some items[base] := List.getElem?_eq_getElem inside
  simp only [found]
  cases compared : order items[base] with
  | eq => exact Or.inl ⟨base, _, rfl, found, compared⟩
  | lt =>
      refine Or.inr ⟨base + 1, rfl, fun i x atI => ⟨fun front => ?_, fun behind => ?_⟩⟩
      · by_cases same : i = base
        · subst same
          rw [found] at atI
          rwa [← Option.some.inj atI]
        · exact (ordered.at (by omega) atI found).2 compared
      · exact holds.behind i x behind atI
  | gt =>
      have first : base = 0 := holds.start.resolve_right (fun other => other _ found compared)
      subst first
      refine Or.inr ⟨0, rfl, fun i x atI => ⟨fun front => by omega, fun _ => ?_⟩⟩
      by_cases same : i = 0
      · subst same
        rw [found] at atI
        rwa [← Option.some.inj atI]
      · exact holds.behind i x (by omega) atI

/-- A search succeeds exactly when an item is at the target. -/
theorem succeeds_searchBy_iff (ordered : Ordered order items) :
    succeeds (searchBy order items) = true ↔ ∃ x ∈ items, order x = .eq := by
  rcases searchBy_spec ordered with ⟨place, x, ok, found, equal⟩ | ⟨place, failed, apart⟩
  · rw [ok]
    exact ⟨fun _ => ⟨x, List.mem_of_getElem? found, equal⟩, fun _ => rfl⟩
  · rw [failed]
    constructor
    · intro impossible
      cases impossible
    rintro ⟨x, member, equal⟩
    obtain ⟨i, found⟩ := List.mem_iff_getElem?.mp member
    rcases Nat.lt_or_ge i place with front | behind
    · exact absurd ((apart i x found).1 front) (by rw [equal]; decide)
    · exact absurd ((apart i x found).2 behind) (by rw [equal]; decide)

end

/-! ## The partition point -/

section

variable {before : α → Bool} {items : List α}

theorem side_eq_lt_iff {item : α} : side before item = .lt ↔ before item = true := by
  cases kept : before item <;> simp [side, kept]

theorem side_eq_gt_iff {item : α} : side before item = .gt ↔ before item = false := by
  cases kept : before item <;> simp [side, kept]

/-- The items from the partition point on are those that do not satisfy the predicate. -/
theorem drop_partitionPoint
    (parted : items.Pairwise (fun x y => before y = true → before x = true)) :
    items.drop (partitionPoint before items) = items.filter (fun item => !before item) := by
  have ordered : Ordered (side before) items := by
    refine parted.imp (fun {x y} back => ?_)
    rw [side_eq_gt_iff, side_eq_gt_iff, side_eq_lt_iff, side_eq_lt_iff]
    refine ⟨fun after => ?_, back⟩
    by_contra later
    rw [back (by simpa using later)] at after
    cases after
  rw [partitionPoint]
  rcases searchBy_spec ordered with ⟨place, x, ok, found, equal⟩ | ⟨place, failed, apart⟩
  · cases kept : before x <;> simp [side, kept] at equal
  · rw [failed]
    have front : (items.take place).filter (fun item => !before item) = [] := by
      refine List.filter_eq_nil_iff.mpr (fun x member => ?_)
      obtain ⟨i, inside, rfl⟩ := List.mem_take_iff_getElem.mp member
      have less := (apart i _ (List.getElem?_eq_getElem (by omega))).1 (by omega)
      rw [side_eq_lt_iff] at less
      simp [less]
    have back : (items.drop place).filter (fun item => !before item) = items.drop place := by
      refine List.filter_eq_self.mpr (fun x member => ?_)
      obtain ⟨i, inside, rfl⟩ := List.mem_drop_iff_getElem.mp member
      have greater := (apart (place + i) _ (List.getElem?_eq_getElem (by omega))).2 (by omega)
      rw [side_eq_gt_iff] at greater
      simp [greater]
    calc
      items.drop place = [] ++ (items.drop place).filter (fun item => !before item) := by
        rw [back, List.nil_append]
      _ = (items.take place ++ items.drop place).filter (fun item => !before item) := by
        rw [List.filter_append, front]
      _ = items.filter (fun item => !before item) := by rw [List.take_append_drop]

end

end Search
end CapsuleEmit
