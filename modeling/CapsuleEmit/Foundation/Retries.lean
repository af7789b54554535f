import CapsuleEmit.Foundation.Outcome

namespace CapsuleEmit

/-!
# Writes that may be made again

A write that has been made leaves the state as it is when it is made again, also
after other writes.  A sequence of such writes that was cut off anywhere can
therefore be made again from its start, and ends where the whole sequence ends.
-/

universe u v w

variable {σ : Type u} {ε : Type v} {ι : Type w}

theorem foldlM_append_eq_ok_iff {write : σ → ι → Except ε σ} {front rest : List ι} {s t : σ} :
    (front ++ rest).foldlM write s = .ok t ↔
      ∃ m, front.foldlM write s = .ok m ∧ rest.foldlM write m = .ok t := by
  rw [List.foldlM_append]
  exact bind_eq_ok_iff

theorem foldlM_cons_eq_ok_iff {write : σ → ι → Except ε σ} {i : ι} {rest : List ι} {s t : σ} :
    (i :: rest).foldlM write s = .ok t ↔ ∃ m, write s i = .ok m ∧ rest.foldlM write m = .ok t := by
  rw [List.foldlM_cons]
  exact bind_eq_ok_iff

/-- Of the items with a property, one that has been written is not written again. -/
structure Retryable (write : σ → ι → Except ε σ) (writable : ι → Prop) : Prop where
  held : ∀ {s s' i}, writable i → write s i = .ok s' → write s' i = .ok s'
  kept : ∀ {s s' i j}, writable i → write s i = .ok s → write s j = .ok s' → write s' i = .ok s'

namespace Retryable

variable {write : σ → ι → Except ε σ} {writable : ι → Prop}

theorem kept_of_foldlM (retryable : Retryable write writable) {items : List ι} {s t : σ} {i : ι}
    (fits : writable i) (here : write s i = .ok s) (written : items.foldlM write s = .ok t) :
    write t i = .ok t := by
  induction items generalizing s with
  | nil =>
      cases written
      exact here
  | cons j items ih =>
      rcases foldlM_cons_eq_ok_iff.mp written with ⟨m, first, rest⟩
      exact ih (retryable.kept fits here first) rest

/-- Each item of a sequence that was written has been written. -/
theorem held_of_foldlM (retryable : Retryable write writable) {items : List ι} {s t : σ}
    (fit : ∀ i ∈ items, writable i) (written : items.foldlM write s = .ok t) :
    ∀ i ∈ items, write t i = .ok t := by
  induction items generalizing s with
  | nil => exact fun i inside => nomatch inside
  | cons j items ih =>
      rcases foldlM_cons_eq_ok_iff.mp written with ⟨m, first, rest⟩
      intro i inside
      rcases List.mem_cons.mp inside with rfl | later
      · have fits := fit i List.mem_cons_self
        exact retryable.kept_of_foldlM fits (retryable.held fits first) rest
      · exact ih (fun k there => fit k (List.mem_cons_of_mem j there)) rest i later

end Retryable

/-- Where each item has been written nothing is written. -/
theorem foldlM_of_held {write : σ → ι → Except ε σ} {items : List ι} {s : σ}
    (held : ∀ i ∈ items, write s i = .ok s) : items.foldlM write s = .ok s := by
  induction items with
  | nil => rfl
  | cons i items ih =>
      exact foldlM_cons_eq_ok_iff.mpr ⟨s, held i List.mem_cons_self,
        ih (fun j inside => held j (List.mem_cons_of_mem i inside))⟩

/-- A sequence that was cut off ends, when it is made again, where the whole sequence ends. -/
theorem Retryable.foldlM_again {write : σ → ι → Except ε σ} {writable : ι → Prop}
    (retryable : Retryable write writable) {front rest : List ι} {s m t : σ}
    (fit : ∀ i ∈ front, writable i) (whole : (front ++ rest).foldlM write s = .ok t)
    (cut : front.foldlM write s = .ok m) : (front ++ rest).foldlM write m = .ok t := by
  rcases foldlM_append_eq_ok_iff.mp whole with ⟨m', first, later⟩
  cases first.symm.trans cut
  exact foldlM_append_eq_ok_iff.mpr
    ⟨m, foldlM_of_held (retryable.held_of_foldlM fit cut), later⟩

end CapsuleEmit
