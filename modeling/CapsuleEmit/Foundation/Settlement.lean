import Mathlib.Algebra.BigOperators.Group.List.Basic
import Mathlib.Data.List.Nodup
import Mathlib.Tactic.Common

namespace CapsuleEmit
namespace Settlement

/-!
# Open items and the entries that settle them

A log carries amounts.  Some of its entries open an item under a key of their
own, others settle an item by naming its key.  The amounts of the settling
entries add up item by item, except for the entries that name no open item:
those are counted once, apart.  When no key is named twice, what settles an
item is the amount of a single entry.
-/

universe u v w

variable {α : Type u} {κ : Type v} {M : Type w} [AddCommMonoid M]

/-- The sum of the amounts of some entries. -/
def total (amount : α → M) (entries : List α) : M := (entries.map amount).sum

section Total

variable {amount : α → M}

@[simp] theorem total_nil : total amount [] = 0 := rfl

@[simp] theorem total_cons (e : α) (entries : List α) :
    total amount (e :: entries) = amount e + total amount entries := by
  simp [total]

theorem total_append (front back : List α) :
    total amount (front ++ back) = total amount front + total amount back := by
  simp [total]

/-- Counting the entries that meet a condition and the others gives all. -/
theorem total_filter_add (p : α → Bool) (entries : List α) :
    total amount (entries.filter p) + total amount (entries.filter (fun e => !p e)) =
      total amount entries := by
  induction entries with
  | nil => simp
  | cons e entries ih =>
      cases holds : p e with
      | true => simp [holds, ← ih, add_assoc]
      | false => simp [holds, ← ih, add_left_comm]

theorem total_eq_zero {entries : List α} (none : ∀ e ∈ entries, amount e = 0) :
    total amount entries = 0 := by
  induction entries with
  | nil => rfl
  | cons e entries ih =>
      rw [total_cons, none e List.mem_cons_self,
        ih (fun other member => none other (List.mem_cons_of_mem _ member)), add_zero]

end Total

variable [DecidableEq κ]

/-- What the entries that name a key add up to. -/
def settled (amount : α → M) (target : α → Option κ) (entries : List α) (k : κ) : M :=
  total amount (entries.filter (fun e => target e = some k))

/-- The entries that name none of the given keys. -/
def strays (target : α → Option κ) (keys : List κ) (entries : List α) : List α :=
  entries.filter (fun e => !keys.any (fun k => target e = some k))

variable {amount : α → M} {target : α → Option κ}

theorem settled_cons (e : α) (entries : List α) (k : κ) :
    settled amount target (e :: entries) k =
      (if target e = some k then amount e else 0) + settled amount target entries k := by
  by_cases named : target e = some k <;> simp [settled, named]

/-- An amount given to one of several distinct keys is counted once. -/
theorem sum_ite_of_nodup {keys : List κ} (nodup : keys.Nodup) (chosen : Option κ) (m : M) :
    (keys.map (fun k => if chosen = some k then m else 0)).sum =
      if keys.any (fun k => chosen = some k) then m else 0 := by
  induction keys with
  | nil => rfl
  | cons k keys ih =>
      obtain ⟨fresh, nodup⟩ := List.nodup_cons.mp nodup
      rw [List.map_cons, List.sum_cons, ih nodup, List.any_cons]
      by_cases here : chosen = some k
      · simp [here, fresh]
      · simp [here]

/-- The amounts of the settling entries, item by item, and the strays. -/
theorem total_eq_sum_settled {keys : List κ} (nodup : keys.Nodup) (entries : List α) :
    total amount entries =
      (keys.map (settled amount target entries)).sum +
        total amount (strays target keys entries) := by
  induction entries with
  | nil =>
      have none : ∀ m ∈ keys.map (settled amount target []), m = 0 := by
        simp [settled]
      rw [List.sum_eq_zero none, strays, List.filter_nil, zero_add]
  | cons e entries ih =>
      have split : (keys.map (settled amount target (e :: entries))).sum =
          (if keys.any (fun k => target e = some k) then amount e else 0) +
            (keys.map (settled amount target entries)).sum := by
        rw [funext (settled_cons e entries), List.sum_map_add, sum_ite_of_nodup nodup]
      rw [total_cons, ih, split]
      cases named : keys.any (fun k => target e = some k) with
      | true => simp [strays, named, add_assoc]
      | false => simp [strays, named, add_left_comm]

/-- When every key is named at most once, one entry settles an item. -/
theorem settled_eq_find {entries : List α} (once : (entries.filterMap target).Nodup) (k : κ) :
    settled amount target entries k =
      ((entries.find? (fun e => target e = some k)).map amount).getD 0 := by
  induction entries with
  | nil => rfl
  | cons e entries ih =>
      rw [settled_cons]
      by_cases named : target e = some k
      · rw [List.filterMap_cons_some named] at once
        have fresh := (List.nodup_cons.mp once).1
        have rest : settled amount target entries k = 0 := by
          refine total_eq_zero (fun other member => ?_)
          obtain ⟨member, again⟩ := List.mem_filter.mp member
          exact absurd (List.mem_filterMap.mpr ⟨other, member, by simpa using again⟩) fresh
        simp [named, rest]
      · have once' : (entries.filterMap target).Nodup := by
          refine once.sublist ?_
          rw [List.filterMap_cons]
          cases target e with
          | none => exact List.Sublist.refl _
          | some other => exact List.sublist_cons_self _ _
        simp [named, ih once']

/-- Narrowing the entries to those that may name the key changes nothing. -/
theorem settled_filter {p : α → Bool} {entries : List α} {k : κ}
    (all : ∀ e ∈ entries, target e = some k → p e = true) :
    settled amount target (entries.filter p) k = settled amount target entries k := by
  rw [settled, settled, List.filter_filter]
  congr 1
  refine List.filter_congr (fun e member => ?_)
  by_cases named : target e = some k
  · simp [named, all e member named]
  · simp [named]

end Settlement
end CapsuleEmit
