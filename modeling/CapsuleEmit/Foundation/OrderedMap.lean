import Mathlib.Data.List.Nodup
import Mathlib.Data.List.Perm.Basic
import Mathlib.Tactic.Common

namespace CapsuleEmit
namespace OrderedMap

/-!
# Maps that keep the order of their entries

A map as the list of its entries, no key twice.  Removing a key moves the last
entry to its place, and inserting one replaces its value in place or adds an
entry at the end.  Two maps are the same when one list is a permutation of the
other.
-/

universe u v

variable {α : Type u} {β : Type v}

theorem getLast?_dropLast_perm (entries : List (α × β)) :
    (entries.getLast?.toList ++ entries.dropLast).Perm entries := by
  rcases List.eq_nil_or_concat entries with rfl | ⟨front, last, rfl⟩
  · exact List.Perm.refl _
  · rw [List.concat_eq_append, List.getLast?_concat, List.dropLast_concat]
    exact (List.perm_append_singleton last front).symm

variable [DecidableEq α]

/-- The entries without a key; the last entry takes the place of the removed one. -/
def swapRemove (key : α) : List (α × β) → List (α × β)
  | [] => []
  | entry :: entries =>
      if entry.1 = key then entries.getLast?.toList ++ entries.dropLast
      else entry :: swapRemove key entries

/-- The entries with a value at a key. -/
def insert (key : α) (value : β) (entries : List (α × β)) : List (α × β) :=
  if key ∈ entries.map Prod.fst then
    entries.map (fun entry => if entry.1 = key then (entry.1, value) else entry)
  else entries ++ [(key, value)]

theorem swapRemove_cons (key : α) (entry : α × β) (entries : List (α × β)) :
    swapRemove key (entry :: entries) =
      if entry.1 = key then entries.getLast?.toList ++ entries.dropLast
      else entry :: swapRemove key entries := rfl

theorem swapRemove_of_notMem {key : α} {entries : List (α × β)}
    (absent : key ∉ entries.map Prod.fst) : swapRemove key entries = entries := by
  induction entries with
  | nil => rfl
  | cons entry entries ih =>
      rw [List.map_cons, List.mem_cons, not_or] at absent
      rw [swapRemove_cons, if_neg (Ne.symm absent.1), ih absent.2]

/-- A map is the removed entry and the map without it. -/
theorem perm_swapRemove {key : α} {value : β} {entries : List (α × β)}
    (once : (entries.map Prod.fst).Nodup) (inside : (key, value) ∈ entries) :
    entries.Perm ((key, value) :: swapRemove key entries) := by
  induction entries with
  | nil => cases inside
  | cons entry entries ih =>
      rw [List.map_cons, List.nodup_cons] at once
      rw [swapRemove_cons]
      rcases List.mem_cons.mp inside with rfl | inside
      · rw [if_pos rfl]
        exact (getLast?_dropLast_perm entries).symm.cons _
      · have other : entry.1 ≠ key := by
          intro same
          exact once.1 (same ▸ List.mem_map_of_mem inside)
        rw [if_neg other]
        exact ((ih once.2 inside).cons entry).trans (List.Perm.swap _ _ _)

theorem mem_of_mem_swapRemove {key : α} {entry : α × β} {entries : List (α × β)}
    (inside : entry ∈ swapRemove key entries) : entry ∈ entries := by
  induction entries with
  | nil => exact inside
  | cons first entries ih =>
      rw [swapRemove_cons] at inside
      split at inside
      · exact List.mem_cons_of_mem _ ((getLast?_dropLast_perm entries).mem_iff.mp inside)
      · rcases List.mem_cons.mp inside with rfl | inside
        · exact List.mem_cons_self
        · exact List.mem_cons_of_mem _ (ih inside)

/-- An entry in the front of a map is removed there. -/
theorem swapRemove_append {key : α} {front back : List (α × β)}
    (absent : key ∉ front.map Prod.fst) :
    swapRemove key (front ++ back) = front ++ swapRemove key back := by
  induction front with
  | nil => rfl
  | cons entry front ih =>
      rw [List.map_cons, List.mem_cons, not_or] at absent
      rw [List.cons_append, swapRemove_cons, if_neg (Ne.symm absent.1), ih absent.2, List.cons_append]

theorem nodup_swapRemove {key : α} {entries : List (α × β)}
    (once : (entries.map Prod.fst).Nodup) :
    ((swapRemove key entries).map Prod.fst).Nodup ∧
      key ∉ (swapRemove key entries).map Prod.fst := by
  by_cases present : key ∈ entries.map Prod.fst
  · rcases List.mem_map.mp present with ⟨⟨other, value⟩, inside, same⟩
    change other = key at same
    subst same
    have keys := ((perm_swapRemove once inside).map Prod.fst).nodup_iff.mp once
    rw [List.map_cons, List.nodup_cons] at keys
    exact ⟨keys.2, keys.1⟩
  · rw [swapRemove_of_notMem present]
    exact ⟨once, present⟩

theorem insert_of_notMem {key : α} {value : β} {entries : List (α × β)}
    (absent : key ∉ entries.map Prod.fst) :
    insert key value entries = entries ++ [(key, value)] := if_neg absent

theorem keys_insert {key : α} {value : β} {entries : List (α × β)} :
    (insert key value entries).map Prod.fst =
      if key ∈ entries.map Prod.fst then entries.map Prod.fst
      else entries.map Prod.fst ++ [key] := by
  unfold insert
  split
  · rw [List.map_map]
    apply List.map_congr_left
    intro entry _
    rw [Function.comp_apply]
    split <;> rfl
  · rw [List.map_append, List.map_singleton]

theorem nodup_insert {key : α} {value : β} {entries : List (α × β)}
    (once : (entries.map Prod.fst).Nodup) : ((insert key value entries).map Prod.fst).Nodup := by
  rw [keys_insert]
  split
  · exact once
  · next absent =>
      rw [List.nodup_append]
      refine ⟨once, List.nodup_singleton _, ?_⟩
      intro other inside last same
      rw [List.mem_singleton] at same
      exact fun equal => absent (same ▸ equal ▸ inside)

theorem mem_insert {key : α} {value : β} {entry : α × β} {entries : List (α × β)}
    (inside : entry ∈ insert key value entries) : entry ∈ entries ∨ entry = (key, value) := by
  unfold insert at inside
  split at inside
  · rcases List.mem_map.mp inside with ⟨old, member, rfl⟩
    split
    · next same => exact Or.inr (by rw [same])
    · exact Or.inl member
  · rcases List.mem_append.mp inside with member | last
    · exact Or.inl member
    · exact Or.inr (List.mem_singleton.mp last)

/-- An entry at another key stays. -/
theorem mem_insert_of_ne {key : α} {value : β} {entry : α × β} {entries : List (α × β)}
    (inside : entry ∈ entries) (other : entry.1 ≠ key) : entry ∈ insert key value entries := by
  unfold insert
  split
  · exact List.mem_map.mpr ⟨entry, inside, if_neg other⟩
  · exact List.mem_append_left _ inside

/-- What is selected by its key is not touched by an insertion under a key that is not. -/
theorem filter_insert {p : α → Bool} {key : α} {value : β} {entries : List (α × β)}
    (dropped : p key = false) : (insert key value entries).filter (fun entry => p entry.1) =
      entries.filter (fun entry => p entry.1) := by
  unfold insert
  split
  · next present =>
      clear present
      induction entries with
      | nil => rfl
      | cons entry entries ih =>
          rw [List.map_cons, List.filter_cons, List.filter_cons, ih]
          by_cases same : entry.1 = key
          · simp only [same, dropped, if_true, Bool.false_eq_true, if_false]
          · rw [if_neg same]
  · rw [List.filter_append, List.filter_singleton, dropped, Bool.cond_false, List.append_nil]

/-! ## Many entries -/

/-- The entries with those of another map, one after the other. -/
def insertAll (more entries : List (α × β)) : List (α × β) :=
  more.foldl (fun entries entry => insert entry.1 entry.2 entries) entries

/-- An entry at a key that has none. -/
def keep (key : α) (value : β) (entries : List (α × β)) : List (α × β) :=
  if key ∈ entries.map Prod.fst then entries else entries ++ [(key, value)]

/-- The entries with those of another map whose keys have none. -/
def keepAll (more entries : List (α × β)) : List (α × β) :=
  more.foldl (fun entries entry => keep entry.1 entry.2 entries) entries

theorem nodup_insertAll {more entries : List (α × β)} (once : (entries.map Prod.fst).Nodup) :
    ((insertAll more entries).map Prod.fst).Nodup := by
  induction more generalizing entries with
  | nil => exact once
  | cons entry more ih => exact ih (nodup_insert once)

/-- New entries are added at the end. -/
theorem insertAll_of_fresh {more entries : List (α × β)}
    (once : ((entries ++ more).map Prod.fst).Nodup) : insertAll more entries = entries ++ more := by
  induction more generalizing entries with
  | nil => rw [List.append_nil]; rfl
  | cons entry more ih =>
      have absent : entry.1 ∉ entries.map Prod.fst := by
        rw [List.map_append, List.map_cons] at once
        intro inside
        exact (List.nodup_append.mp once).2.2 _ inside _ List.mem_cons_self rfl
      change insertAll more (insert entry.1 entry.2 entries) = _
      rw [insert_of_notMem absent, ih (by rwa [List.append_assoc]), List.append_assoc]
      rfl

theorem nodup_keepAll {more entries : List (α × β)} (once : (entries.map Prod.fst).Nodup) :
    ((keepAll more entries).map Prod.fst).Nodup := by
  induction more generalizing entries with
  | nil => exact once
  | cons entry more ih =>
      apply ih
      change ((keep entry.1 entry.2 entries).map Prod.fst).Nodup
      by_cases present : entry.1 ∈ entries.map Prod.fst
      · rwa [keep, if_pos present]
      · have added : ((insert entry.1 entry.2 entries).map Prod.fst).Nodup := nodup_insert once
        rw [insert_of_notMem present] at added
        rwa [keep, if_neg present]

/-- The entries stay, and those under new keys are added at the end. -/
theorem keepAll_eq {more entries : List (α × β)} (once : (more.map Prod.fst).Nodup) :
    keepAll more entries =
      entries ++ more.filter (fun entry => entry.1 ∉ entries.map Prod.fst) := by
  induction more generalizing entries with
  | nil => rw [List.filter_nil, List.append_nil]; rfl
  | cons entry more ih =>
      rw [List.map_cons, List.nodup_cons] at once
      change keepAll more (keep entry.1 entry.2 entries) = _
      rw [ih once.2]
      by_cases present : entry.1 ∈ entries.map Prod.fst
      · rw [keep, if_pos present, List.filter_cons_of_neg (by simpa using present)]
      · rw [keep, if_neg present, List.filter_cons_of_pos (by simpa using present),
          List.append_assoc, List.singleton_append]
        congr 2
        apply List.filter_congr
        intro other inside
        have different : other.1 ≠ entry.1 := by
          intro same
          exact once.1 (same ▸ List.mem_map_of_mem inside)
        simp only [List.map_append, List.map_singleton, List.mem_append, List.mem_singleton,
          different, or_false]

/-- A lookup finds the value of an entry when no key is there twice. -/
theorem lookup_of_mem {key : α} {value : β} {entries : List (α × β)}
    (once : (entries.map Prod.fst).Nodup) (inside : (key, value) ∈ entries) :
    entries.lookup key = some value := by
  rcases List.append_of_mem inside with ⟨front, back, rfl⟩
  rw [List.map_append, List.map_cons, List.nodup_append] at once
  refine List.lookup_eq_some_iff.mpr ⟨front, back, rfl, fun entry before => ?_⟩
  have apart := once.2.2 _ (List.mem_map_of_mem before) _ List.mem_cons_self
  simpa using fun same : key = entry.1 => apart same.symm

theorem lookup_append {front back : List (α × β)} {key : α} :
    (front ++ back).lookup key = (front.lookup key).or (back.lookup key) := by
  induction front with
  | nil => rfl
  | cons entry front ih =>
      rw [List.cons_append, List.lookup_cons, List.lookup_cons, ih]
      split <;> rfl

theorem lookup_eq_none_iff {key : α} {entries : List (α × β)} :
    entries.lookup key = none ↔ key ∉ entries.map Prod.fst := by
  rw [List.lookup_eq_none_iff]
  constructor
  · intro apart inside
    rcases List.mem_map.mp inside with ⟨entry, member, rfl⟩
    simpa using apart entry member
  · intro absent entry member
    simpa using fun same : key = entry.1 => absent (same ▸ List.mem_map_of_mem member)

theorem lookup_cons_of_eq {key first : α} {value : β} {entries : List (α × β)}
    (same : key = first) : ((first, value) :: entries).lookup key = some value := by
  rw [List.lookup_cons, same, beq_self_eq_true]

theorem lookup_cons_of_ne {key first : α} {value : β} {entries : List (α × β)}
    (other : key ≠ first) : ((first, value) :: entries).lookup key = entries.lookup key := by
  rw [List.lookup_cons, beq_false_of_ne other]

/-- Replacing the values at a key changes what is read there only. -/
theorem lookup_replace {key other : α} {value : β} {entries : List (α × β)} :
    (entries.map (fun entry => if entry.1 = key then (entry.1, value) else entry)).lookup other =
      if other = key ∧ key ∈ entries.map Prod.fst then some value else entries.lookup other := by
  induction entries with
  | nil => simp
  | cons entry entries ih =>
      rcases entry with ⟨first, old⟩
      rw [List.map_cons]
      by_cases here : first = key
      · rw [if_pos here]
        by_cases same : other = key
        · rw [lookup_cons_of_eq (same.trans here.symm), if_pos ⟨same, by simp [here]⟩]
        · have apart : other ≠ first := fun equal => same (equal.trans here)
          rw [lookup_cons_of_ne apart, lookup_cons_of_ne apart, ih, if_neg (fun both => same both.1),
            if_neg (fun both => same both.1)]
      · rw [if_neg here]
        by_cases equal : other = first
        · have apart : other ≠ key := fun same => here (equal.symm.trans same)
          rw [lookup_cons_of_eq equal, lookup_cons_of_eq equal, if_neg (fun both => apart both.1)]
        · rw [lookup_cons_of_ne equal, lookup_cons_of_ne equal, ih]
          simp only [List.map_cons, List.mem_cons, Ne.symm here, false_or]

/-- What is read after an insertion. -/
theorem lookup_insert {key other : α} {value : β} {entries : List (α × β)} :
    (insert key value entries).lookup other =
      if other = key then some value else entries.lookup other := by
  by_cases present : key ∈ entries.map Prod.fst
  · rw [insert, if_pos present, lookup_replace]
    simp [present]
  · rw [insert_of_notMem present, lookup_append]
    by_cases same : other = key
    · rw [same, lookup_eq_none_iff.mpr present, if_pos rfl, lookup_cons_of_eq rfl]
      rfl
    · rw [if_neg same, lookup_cons_of_ne same, List.lookup_nil, Option.or_none]

/-- What is read after many insertions. -/
theorem lookup_insertAll {more entries : List (α × β)} (once : (more.map Prod.fst).Nodup)
    {key : α} : (insertAll more entries).lookup key = (more.lookup key).or (entries.lookup key) := by
  induction more generalizing entries with
  | nil => rfl
  | cons entry more ih =>
      rcases entry with ⟨first, value⟩
      rw [List.map_cons, List.nodup_cons] at once
      change (insertAll more (insert first value entries)).lookup key = _
      rw [ih once.2, lookup_insert]
      by_cases same : key = first
      · rw [if_pos same, lookup_cons_of_eq same, same, lookup_eq_none_iff.mpr once.1]
        rfl
      · rw [if_neg same, lookup_cons_of_ne same]

/-- Entries with a selected key are read as before. -/
theorem lookup_filter {p : α → Bool} {key : α} (selected : p key = true)
    {entries : List (α × β)} :
    (entries.filter (fun entry => p entry.1)).lookup key = entries.lookup key := by
  induction entries with
  | nil => rfl
  | cons entry entries ih =>
      rcases entry with ⟨first, value⟩
      rw [List.filter_cons]
      by_cases same : key = first
      · rw [if_pos (same ▸ selected), lookup_cons_of_eq same, lookup_cons_of_eq same]
      · split_ifs
        · rw [lookup_cons_of_ne same, lookup_cons_of_ne same, ih]
        · rw [lookup_cons_of_ne same, ih]

end OrderedMap
end CapsuleEmit
