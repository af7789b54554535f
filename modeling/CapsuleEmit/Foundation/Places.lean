import Mathlib.Data.List.Basic
import Mathlib.Data.List.Range

namespace CapsuleEmit
namespace Places

/-!
# Numbered lists

The items of a list are numbered in order.  The places of a predicate are the
numbers of the items that satisfy it, ascending.  Places behind a number are
the places in the rest of the list, and the items at the first places are the
first items that satisfy the predicate.
-/

variable {α : Type*}

/-- The numbers of the items that satisfy a predicate, the first item numbered `n`. -/
def places (f : α → Bool) : Nat → List α → List Nat
  | _, [] => []
  | n, a :: items => if f a then n :: places f (n + 1) items else places f (n + 1) items

section

variable {f g : α → Bool} {n : Nat} {items : List α}

theorem places_nil (f : α → Bool) (n : Nat) : places f n [] = [] := rfl

theorem places_cons (f : α → Bool) (n : Nat) (a : α) (items : List α) : places f n (a :: items) =
    if f a then n :: places f (n + 1) items else places f (n + 1) items := rfl

theorem places_append (left right : List α) :
    places f n (left ++ right) = places f n left ++ places f (n + left.length) right := by
  induction left generalizing n with
  | nil => rfl
  | cons a left ih =>
      rw [List.cons_append, places_cons, places_cons, List.length_cons, ih]
      have count : n + 1 + left.length = n + (left.length + 1) := by omega
      rw [count]
      split <;> rfl

theorem places_concat (a : α) :
    places f n (items ++ [a]) = places f n items ++ if f a then [n + items.length] else [] := by
  rw [places_append, places_cons, places_nil]

theorem mem_places_iff {p : Nat} :
    p ∈ places f n items ↔ n ≤ p ∧ ∃ a, items[p - n]? = some a ∧ f a = true := by
  induction items generalizing n with
  | nil => simp [places_nil]
  | cons a items ih =>
      have shift : n < p → (a :: items)[p - n]? = items[p - (n + 1)]? := by
        intro later
        rw [show p - n = p - (n + 1) + 1 by omega, List.getElem?_cons_succ]
      have here : p = n → (a :: items)[p - n]? = some a := by
        rintro rfl
        rw [Nat.sub_self, List.getElem?_cons_zero]
      have rest : p ∈ places f (n + 1) items ↔
          n < p ∧ ∃ b, (a :: items)[p - n]? = some b ∧ f b = true := by
        rw [ih, Nat.succ_le_iff]
        exact and_congr_right (fun later => by rw [shift later])
      rw [places_cons]
      split
      · next kept =>
          rw [List.mem_cons, rest]
          constructor
          · rintro (rfl | ⟨later, found⟩)
            · exact ⟨Nat.le_refl _, a, here rfl, kept⟩
            · exact ⟨Nat.le_of_lt later, found⟩
          · rintro ⟨from_n, found⟩
            rcases Nat.eq_or_lt_of_le from_n with same | later
            · exact Or.inl same.symm
            · exact Or.inr ⟨later, found⟩
      · next dropped =>
          rw [rest]
          constructor
          · rintro ⟨later, found⟩
            exact ⟨Nat.le_of_lt later, found⟩
          · rintro ⟨from_n, b, found, kept⟩
            rcases Nat.eq_or_lt_of_le from_n with same | later
            · rw [here same.symm] at found
              cases found
              exact absurd kept dropped
            · exact ⟨later, b, found, kept⟩

theorem le_of_mem_places {p : Nat} (member : p ∈ places f n items) : n ≤ p :=
  (mem_places_iff.mp member).1

theorem lt_of_mem_places {p : Nat} (member : p ∈ places f n items) : p < n + items.length := by
  obtain ⟨start, a, found, _⟩ := mem_places_iff.mp member
  obtain ⟨inside, _⟩ := List.getElem?_eq_some_iff.mp found
  omega

/-- Places ascend. -/
theorem places_pairwise : (places f n items).Pairwise (· < ·) := by
  induction items generalizing n with
  | nil => exact List.Pairwise.nil
  | cons a items ih =>
      rw [places_cons]
      split
      · exact List.Pairwise.cons (fun p member => le_of_mem_places member) ih
      · exact ih

theorem places_map {β : Type*} (g : β → α) (items : List β) :
    places f n (items.map g) = places (f ∘ g) n items := by
  induction items generalizing n with
  | nil => rfl
  | cons b items ih => rw [List.map_cons, places_cons, places_cons, ih, Function.comp_apply]

/-- Every item has a place for the predicate that always holds. -/
theorem places_all : places (fun _ => true) n items = List.range' n items.length := by
  induction items generalizing n with
  | nil => rfl
  | cons a items ih => rw [places_cons, if_pos rfl, ih, List.length_cons, List.range'_succ]

/-- The places behind a number are those of the rest of the list. -/
theorem filter_places_gt (k : Nat) :
    (places f n items).filter (fun p => n + k ≤ p) = places f (n + k) (items.drop k) := by
  induction k generalizing n items with
  | zero =>
      refine List.filter_eq_self.mpr (fun p member => ?_)
      simpa using le_of_mem_places member
  | succ k ih =>
      cases items with
      | nil => rfl
      | cons a items =>
          have rest := @ih (n + 1) items
          rw [show n + 1 + k = n + (k + 1) by omega] at rest
          rw [places_cons, List.drop_succ_cons]
          split
          · rw [List.filter_cons, if_neg (by simp), rest]
          · exact rest

/-- A test of the places that is a test of their items selects among the items. -/
theorem filter_places {found : Nat → Bool} (test : ∀ p a, items[p]? = some a →
    f a = true → found (n + p) = g a) :
    (places f n items).filter found = places (fun a => f a && g a) n items := by
  induction items generalizing n with
  | nil => rfl
  | cons a items ih =>
      have rest : (places f (n + 1) items).filter found =
          places (fun a => f a && g a) (n + 1) items := by
        refine ih (fun p b at_p kept => ?_)
        have shifted := test (p + 1) b (by rw [List.getElem?_cons_succ, at_p]) kept
        rwa [show n + (p + 1) = n + 1 + p by omega] at shifted
      rw [places_cons, places_cons]
      cases kept : f a with
      | false =>
          simp only [Bool.false_eq_true, if_false, Bool.false_and]
          exact rest
      | true =>
          have head := test 0 a rfl kept
          rw [Nat.add_zero] at head
          simp only [if_true, Bool.true_and, List.filter_cons, head, rest]

/-- The items at the places. -/
theorem map_places {β : Type*} (item : Nat → β) (name : α → β)
    (named : ∀ p a, items[p]? = some a → item (n + p) = name a) :
    (places f n items).map item = (items.filter f).map name := by
  induction items generalizing n with
  | nil => rfl
  | cons a items ih =>
      have rest : (places f (n + 1) items).map item = (items.filter f).map name := by
        refine ih (fun p b at_p => ?_)
        have shifted := named (p + 1) b (by rw [List.getElem?_cons_succ, at_p])
        rwa [show n + (p + 1) = n + 1 + p by omega] at shifted
      have head := named 0 a rfl
      rw [Nat.add_zero] at head
      rw [places_cons, List.filter_cons]
      split
      · rw [List.map_cons, List.map_cons, head, rest]
      · exact rest

theorem length_places : (places f n items).length = (items.filter f).length := by
  have counted := congrArg List.length
    (@map_places α f n items _ (fun _ => ()) (fun _ => ()) (fun _ _ _ => rfl))
  rwa [List.length_map, List.length_map] at counted

/-- Up to its last place, a list has as many selected items as it has places. -/
theorem filter_take_place {j p : Nat} (last : (places f n items)[j]? = some p) :
    (items.take (p + 1 - n)).filter f = (items.filter f).take (j + 1) := by
  induction items generalizing n j with
  | nil => cases last
  | cons a items ih =>
      have behind : ∀ j', (places f (n + 1) items)[j']? = some p →
          (items.take (p - n)).filter f = (items.filter f).take (j' + 1) ∧ n < p := by
        intro j' found
        have later := le_of_mem_places (List.mem_of_getElem? found)
        have rest := ih found
        rw [show p + 1 - (n + 1) = p - n by omega] at rest
        exact ⟨rest, later⟩
      rw [places_cons] at last
      by_cases kept : f a = true
      · rw [if_pos kept] at last
        cases j with
        | zero =>
            rw [List.getElem?_cons_zero] at last
            cases last
            rw [show p + 1 - p = 1 by omega]
            simp [kept]
        | succ j =>
            rw [List.getElem?_cons_succ] at last
            obtain ⟨rest, later⟩ := behind j last
            rw [show p + 1 - n = p - n + 1 by omega, List.take_succ_cons, List.filter_cons,
              if_pos kept, List.filter_cons, if_pos kept, List.take_succ_cons, rest]
      · rw [if_neg kept] at last
        obtain ⟨rest, later⟩ := behind j last
        rw [show p + 1 - n = p - n + 1 by omega, List.take_succ_cons, List.filter_cons,
          if_neg kept, List.filter_cons, if_neg kept, rest]

end

end Places
end CapsuleEmit
