import Mathlib.Data.Finset.Card
import Mathlib.Data.List.Chain
import Mathlib.Order.Interval.Finset.Nat

namespace CapsuleEmit
namespace Numbering

/-!
# Numbers that should be consecutive

Numbers arrive one after the other, after a last known one.  A number above all
before it is a peak; the numbers between it and the highest before it are skipped,
even if they arrive later.  This module counts the skipped numbers, and shows when
there are none.
-/

/-- The numbers that are above all before them. -/
def peaks (last : Nat) : List Nat → List Nat
  | [] => []
  | n :: rest => if last < n then n :: peaks n rest else peaks last rest

/-- How many numbers are skipped on the way from peak to peak. -/
def skipped (last : Nat) : List Nat → Nat
  | [] => 0
  | n :: rest => if last < n then (n - last - 1) + skipped n rest else skipped last rest

/-- The highest of the last known number and those that arrive. -/
def highest (last : Nat) (numbers : List Nat) : Nat := numbers.foldl max last

theorem peaks_cons (last n : Nat) (rest : List Nat) :
    peaks last (n :: rest) = if last < n then n :: peaks n rest else peaks last rest := rfl

theorem skipped_nil (last : Nat) : skipped last [] = 0 := rfl

theorem skipped_cons (last n : Nat) (rest : List Nat) : skipped last (n :: rest) =
    if last < n then (n - last - 1) + skipped n rest else skipped last rest := rfl

theorem highest_cons (last n : Nat) (rest : List Nat) :
    highest last (n :: rest) = highest (max last n) rest := rfl

theorem le_highest (last : Nat) (numbers : List Nat) : last ≤ highest last numbers := by
  induction numbers generalizing last with
  | nil => exact Nat.le_refl last
  | cons n rest ih => exact (Nat.le_max_left last n).trans (ih (max last n))

theorem le_highest_of_mem {last n : Nat} {numbers : List Nat} (inside : n ∈ numbers) :
    n ≤ highest last numbers := by
  induction numbers generalizing last with
  | nil => cases inside
  | cons m rest ih =>
      rcases List.mem_cons.mp inside with rfl | later
      · exact (Nat.le_max_right last n).trans (le_highest _ rest)
      · exact ih later

/-- Each number up to the highest is a peak or skipped. -/
theorem skipped_add_peaks (last : Nat) (numbers : List Nat) :
    skipped last numbers + (peaks last numbers).length + last = highest last numbers := by
  induction numbers generalizing last with
  | nil => exact Nat.zero_add last
  | cons n rest ih =>
      rw [highest_cons, skipped_cons, peaks_cons]
      split
      · next above =>
          have later := ih n
          rw [Nat.max_eq_right (Nat.le_of_lt above), ← later, List.length_cons]
          omega
      · next below => rw [Nat.max_eq_left (Nat.le_of_not_lt below), ih last]

theorem skipped_le_highest (last : Nat) (numbers : List Nat) :
    last + skipped last numbers ≤ highest last numbers := by
  have sum := skipped_add_peaks last numbers
  omega

theorem highest_concat (last n : Nat) (numbers : List Nat) :
    highest last (numbers ++ [n]) = max (highest last numbers) n := by
  rw [highest, List.foldl_append]
  rfl

theorem skipped_concat (last n : Nat) (numbers : List Nat) :
    skipped last (numbers ++ [n]) = skipped last numbers +
      if highest last numbers < n then n - highest last numbers - 1 else 0 := by
  induction numbers generalizing last with
  | nil =>
      rw [List.nil_append, skipped_cons, skipped_nil, skipped_nil, Nat.zero_add, Nat.add_zero]
      rfl
  | cons m rest ih =>
      rw [List.cons_append, skipped_cons, skipped_cons, highest_cons]
      split
      · next above => rw [ih m, Nat.max_eq_right (Nat.le_of_lt above), Nat.add_assoc]
      · next below => rw [ih last, Nat.max_eq_left (Nat.le_of_not_lt below)]

theorem mem_peaks {last n : Nat} {numbers : List Nat} (peak : n ∈ peaks last numbers) :
    last < n ∧ n ∈ numbers := by
  induction numbers generalizing last with
  | nil => cases peak
  | cons m rest ih =>
      rw [peaks_cons] at peak
      split at peak
      · next above =>
          rcases List.mem_cons.mp peak with rfl | later
          · exact ⟨above, List.mem_cons_self⟩
          · rcases ih later with ⟨higher, inside⟩
            exact ⟨above.trans higher, List.mem_cons_of_mem m inside⟩
      · rcases ih peak with ⟨higher, inside⟩
        exact ⟨higher, List.mem_cons_of_mem m inside⟩

theorem nodup_peaks (last : Nat) (numbers : List Nat) : (peaks last numbers).Nodup := by
  induction numbers generalizing last with
  | nil => exact List.nodup_nil
  | cons n rest ih =>
      rw [peaks_cons]
      split
      · exact List.nodup_cons.mpr ⟨fun again => Nat.lt_irrefl n (mem_peaks again).1, ih n⟩
      · exact ih last

/-- The skipped numbers are those above the first and up to the highest that are
no peak. -/
theorem skipped_eq_card (last : Nat) (numbers : List Nat) :
    skipped last numbers =
      (Finset.Ioc last (highest last numbers) \ (peaks last numbers).toFinset).card := by
  have inside : (peaks last numbers).toFinset ⊆ Finset.Ioc last (highest last numbers) := by
    intro n peak
    rcases mem_peaks (List.mem_toFinset.mp peak) with ⟨above, member⟩
    exact Finset.mem_Ioc.mpr ⟨above, le_highest_of_mem member⟩
  have sum := skipped_add_peaks last numbers
  rw [Finset.card_sdiff_of_subset inside, Nat.card_Ioc,
    List.toFinset_card_of_nodup (nodup_peaks last numbers)]
  omega

/-! ## Numbers that ascend -/

theorem peaks_of_ascending {last : Nat} {numbers : List Nat}
    (ascending : (last :: numbers).IsChain (· < ·)) : peaks last numbers = numbers := by
  induction numbers generalizing last with
  | nil => rfl
  | cons n rest ih =>
      rw [List.isChain_cons_cons] at ascending
      rw [peaks_cons, if_pos ascending.1, ih ascending.2]

/-- Ascending numbers of which none is skipped are consecutive. -/
theorem consecutive_iff {last : Nat} {numbers : List Nat} :
    (last :: numbers).IsChain (· < ·) ∧ skipped last numbers = 0 ↔
      numbers = List.range' (last + 1) numbers.length := by
  induction numbers generalizing last with
  | nil => simp [skipped_nil]
  | cons n rest ih =>
      rw [List.isChain_cons_cons, skipped_cons, List.length_cons, List.range'_succ, List.cons.injEq]
      constructor
      · rintro ⟨⟨above, ascending⟩, none⟩
        rw [if_pos above, Nat.add_eq_zero_iff] at none
        have next : n = last + 1 := by omega
        rw [← next]
        exact ⟨rfl, ih.mp ⟨ascending, none.2⟩⟩
      · rintro ⟨rfl, consecutive⟩
        rcases ih.mpr consecutive with ⟨ascending, none⟩
        rw [if_pos (Nat.lt_succ_self last), none]
        exact ⟨⟨Nat.lt_succ_self last, ascending⟩, by omega⟩

end Numbering
end CapsuleEmit
