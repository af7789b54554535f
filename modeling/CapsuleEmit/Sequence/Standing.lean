import CapsuleEmit.Foundation.Numbering
import CapsuleEmit.Sequence.Counter
import Mathlib.Tactic.Common

namespace CapsuleEmit
namespace Sequence

/-!
# The standing of one pair

The tables of a walk hold one entry for each key.  A record changes only the
entries of its own key, so what a walk knows of a key is what the records with
that key alone would have made of it.
-/

open Std (TreeMap LawfulEqOrd)

variable {checks : Checks}

/-! ## Arithmetic -/

theorem Checks.plus_eq {left right sum : UInt64} (added : checks.plus left right = some sum) :
    sum = left + right := by
  unfold Checks.plus at added
  split at added
  · cases added
  · exact (Option.some.inj added).symm

theorem Checks.minus_eq {left right rest : UInt64} (taken : checks.minus left right = some rest) :
    rest = left - right := by
  unfold Checks.minus at taken
  split at taken
  · cases taken
  · exact (Option.some.inj taken).symm

theorem Checks.plus_of_lt {left right : UInt64}
    (small : left.toNat + right.toNat < UInt64.size) :
    checks.plus left right = some (left + right) := by
  have within : ¬ UInt64.size ≤ left.toNat + right.toNat := Nat.not_le_of_lt small
  simp [Checks.plus, within]

theorem Checks.minus_of_le {left right : UInt64} (small : right ≤ left) :
    checks.minus left right = some (left - right) := by
  have within : ¬ left < right := UInt64.not_lt.mpr small
  simp [Checks.minus, within]

/-! ## What a walk knows of a key -/

/-- The entries of one key. -/
structure Standing where
  last : Option UInt64
  gaps : Option UInt64
  broken : Option String
  count : Option UInt64

def Standing.empty : Standing := ⟨none, none, none, none⟩

def Walk.standing (walk : Walk) (key : String) : Standing :=
  ⟨walk.lastSeq[key]?, walk.gaps[key]?, walk.broken[key]?, walk.counts[key]?⟩

/-- Whether a record's number and its predecessor fit each other. -/
def PairSeq.consistent (record : PairSeq) : Bool :=
  match record.prevSeq with
  | none => record.seq ≤ 1
  | some prevSeq => 1 ≤ record.seq && prevSeq == record.seq - 1

/-- How many numbers a record shows to be missing, given the highest before it. -/
def missing (last : Option UInt64) (record : PairSeq) : Option UInt64 :=
  match last, record.prevSeq with
  | none, prevSeq => prevSeq
  | some prior, _ =>
      if prior < record.seq ∧ prior + 1 < record.seq then some (record.seq - prior - 1) else none

/-- What a record breaks, given the highest number before it. -/
def breakage (last : Option UInt64) (record : PairSeq) : Option String :=
  if record.consistent then
    last.bind (fun prior =>
      if record.seq ≤ prior then some (regressionText record prior) else none)
  else some (mislinkedText record)

/-- The standing after a record of the pair. -/
def Standing.visit (standing : Standing) (record : PairSeq) : Standing where
  last := some (max (standing.last.getD 0) record.seq)
  gaps :=
    match missing standing.last record with
    | some amount => some (standing.gaps.getD 0 + amount)
    | none => standing.gaps
  broken := standing.broken.or (breakage standing.last record)
  count := some (standing.count.getD 0 + 1)

/-! ## One record -/

theorem getElem?_set (table : TreeMap String UInt64) (key other : String) (value : UInt64) :
    (table.insert key value)[other]? = if key = other then some value else table[other]? := by
  rw [TreeMap.getElem?_insert]
  by_cases same : key = other
  · rw [if_pos (by rw [same]; exact Std.ReflCmp.compare_self), if_pos same]
  · rw [if_neg (fun equal => same (LawfulEqOrd.eq_of_compare equal)), if_neg same]

theorem getElem?_insertIfNew (table : TreeMap String String) (key other : String) (text : String) :
    (table.insertIfNew key text)[other]? =
      if key = other then table[other]?.or (some text) else table[other]? := by
  rw [TreeMap.getElem?_insertIfNew]
  by_cases same : key = other
  · subst same
    rw [if_pos rfl]
    cases held : table[key]? with
    | none =>
        have absent : key ∉ table := by
          rw [TreeMap.mem_iff_isSome_getElem?, held]
          exact Bool.false_ne_true
        rw [if_pos ⟨Std.ReflCmp.compare_self, absent⟩]
        rfl
    | some text' =>
        have present : key ∈ table := by
          rw [TreeMap.mem_iff_isSome_getElem?, held]
          rfl
        rw [if_neg (fun fresh => fresh.2 present)]
        rfl
  · rw [if_neg (fun equal => same (LawfulEqOrd.eq_of_compare equal.1)), if_neg same]

theorem bump_getElem? {table after : TreeMap String UInt64} {key : String} {amount : UInt64}
    (bumped : bump checks table key amount = some after) (other : String) :
    after[other]? =
      if key = other then some (table[other]?.getD 0 + amount) else table[other]? := by
  rcases Option.map_eq_some_iff.mp bumped with ⟨sum, added, rfl⟩
  rw [getElem?_set]
  split
  · next same => rw [Checks.plus_eq added, same]
  · rfl

theorem selfConsistent_eq {record : PairSeq} {consistent : Bool}
    (checked : selfConsistent checks record = some consistent) :
    consistent = record.consistent := by
  unfold selfConsistent at checked
  unfold PairSeq.consistent
  cases present : record.prevSeq with
  | none =>
      rw [present] at checked
      exact (Option.some.inj checked).symm
  | some prevSeq =>
      rw [present] at checked
      dsimp only at checked ⊢
      split at checked
      · next positive =>
          rcases Option.map_eq_some_iff.mp checked with ⟨before, taken, rfl⟩
          simp [positive, Checks.minus_eq taken]
      · next zero =>
          rw [← Option.some.inj checked]
          simp [zero]

theorem countGap_getElem? {gaps after : TreeMap String UInt64} {record : PairSeq} {prior : UInt64}
    (higher : prior < record.seq) (counted : countGap checks gaps record prior = some after)
    (key : String) :
    after[key]? = if record.key = key then
      (match missing (some prior) record with
      | some amount => some (gaps[key]?.getD 0 + amount)
      | none => gaps[key]?) else gaps[key]? := by
  simp only [countGap, bind, Option.bind_eq_some_iff] at counted
  rcases counted with ⟨next, added, counted⟩
  have isNext := Checks.plus_eq added
  subst isNext
  split at counted
  · next jump =>
      rcases Option.bind_eq_some_iff.mp counted with ⟨past, first, counted⟩
      rcases Option.bind_eq_some_iff.mp counted with ⟨rest, second, bumped⟩
      rw [bump_getElem? bumped, Checks.minus_eq second, Checks.minus_eq first]
      simp only [missing, higher, jump, and_self, if_true]
  · next close =>
      rw [← Option.some.inj counted]
      simp [missing, close]

/-- Comparing a record with those before it changes the gaps and the breakage of
its own key only. -/
theorem comparePrior_eq {walk after : Walk} {record : PairSeq}
    (compared : comparePrior checks walk record = some after) :
    after.lastSeq = walk.lastSeq ∧ after.counts = walk.counts ∧
      (∀ key, after.gaps[key]? = if record.key = key then
        (match missing walk.lastSeq[record.key]? record with
        | some amount => some (walk.gaps[key]?.getD 0 + amount)
        | none => walk.gaps[key]?) else walk.gaps[key]?) ∧
      ∀ key, after.broken[key]? = if record.key = key then
        walk.broken[key]?.or (walk.lastSeq[record.key]?.bind (fun prior =>
          if record.seq ≤ prior then some (regressionText record prior) else none))
        else walk.broken[key]? := by
  unfold comparePrior at compared
  cases prior : walk.lastSeq[record.key]? with
  | none =>
      cases linked : record.prevSeq with
      | none =>
          simp only [prior, linked, Option.some.injEq] at compared
          subst compared
          simp [missing, linked]
      | some prevSeq =>
          simp only [prior, linked] at compared
          rcases Option.map_eq_some_iff.mp compared with ⟨gaps, bumped, rfl⟩
          refine ⟨rfl, rfl, fun key => ?_, fun key => by simp⟩
          rw [bump_getElem? bumped]
          simp only [missing, linked]
  | some prior' =>
      simp only [prior] at compared
      split at compared
      · next low =>
          rw [← Option.some.inj compared]
          have notHigher : ¬ prior' < record.seq := UInt64.not_lt.mpr low
          refine ⟨rfl, rfl, fun key => by simp [missing, notHigher], fun key => ?_⟩
          rw [getElem?_insertIfNew]
          simp [low]
      · next high =>
          rcases Option.map_eq_some_iff.mp compared with ⟨gaps, counted, rfl⟩
          refine ⟨rfl, rfl, countGap_getElem? (UInt64.not_le.mp high) counted, fun key => ?_⟩
          simp [high]

/-- A record changes the standing of its own key only. -/
theorem visit_standing {walk after : Walk} {record : PairSeq}
    (visited : visit checks walk record = some after) (key : String) :
    after.standing key =
      if record.key = key then (walk.standing key).visit record else walk.standing key := by
  rcases Option.bind_eq_some_iff.mp visited with ⟨counts, counted, visited⟩
  rcases Option.bind_eq_some_iff.mp visited with ⟨consistent, checked, visited⟩
  rcases Option.bind_eq_some_iff.mp visited with ⟨compared, compares, visited⟩
  rcases comparePrior_eq compares with ⟨lastSeq, sameCounts, gaps, broken⟩
  rw [← Option.some.inj visited]
  simp only [Walk.standing, getElem?_set, gaps, broken, lastSeq, sameCounts,
    bump_getElem? counted, selfConsistent_eq checked]
  by_cases own : record.key = key
  · subst own
    simp only [if_true, Standing.visit, breakage]
    cases record.consistent with
    | true => rfl
    | false =>
        simp only [Bool.false_eq_true, if_false, getElem?_insertIfNew, if_true, Option.or_assoc]
        rfl
  · simp only [if_neg own]
    split
    · rfl
    · rw [getElem?_insertIfNew, if_neg own]

/-! ## A walk -/

/-- The records that have a key. -/
def bucket (key : String) (records : List PairSeq) : List PairSeq :=
  records.filter (fun record => record.key = key)

/-- The standing that records of one pair lead to. -/
def standingOf (own : List PairSeq) : Standing := own.foldl Standing.visit .empty

theorem foldlM_standing {records : List PairSeq} {walk after : Walk}
    (walked : records.foldlM (visit checks) walk = some after) (key : String) :
    after.standing key = (bucket key records).foldl Standing.visit (walk.standing key) := by
  induction records generalizing walk with
  | nil => rw [← Option.some.inj walked]; rfl
  | cons record records ih =>
      rw [List.foldlM_cons] at walked
      rcases Option.bind_eq_some_iff.mp walked with ⟨middle, visited, walked⟩
      rw [ih walked, visit_standing visited, bucket, bucket, List.filter_cons]
      by_cases own : record.key = key
      · simp only [own, decide_true, if_true, List.foldl_cons]
      · simp only [own, decide_false, if_false, Bool.false_eq_true]

/-- What a walk knows of a key is the standing of the records that have it. -/
theorem walk_standing {records : List PairSeq} {walk : Walk}
    (walked : records.foldlM (visit checks) .empty = some walk) (key : String) :
    walk.standing key = standingOf (bucket key records) :=
  foldlM_standing walked key

/-- The finding about a standing, with what is said of an unbroken pair. -/
def Standing.finding (standing : Standing) (unbroken key : String) : Option PairContinuity :=
  standing.count.map (fun count =>
    ⟨key, standing.broken.getD unbroken, standing.gaps.getD 0, count⟩)

/-- What is reported about a key is the finding about the records that have it. -/
theorem verifyPairContinuity_getElem? {records : List PairSeq} {covered : Option UInt64}
    {report : TreeMap String PairContinuity}
    (verified : verifyPairContinuity checks records covered = some report) :
    ∃ total, ∀ key : String, report[key]? =
      (standingOf (bucket key records)).finding (unbrokenText covered total) key := by
  rcases Option.bind_eq_some_iff.mp verified with ⟨walk, walked, verified⟩
  rcases Option.bind_eq_some_iff.mp verified with ⟨total, -, verified⟩
  refine ⟨total, fun key => ?_⟩
  rw [← Option.some.inj verified, ← walk_standing walked, TreeMap.getElem?_map]
  rfl

/-! ## Numbers -/

/-- The numbers of records. -/
def numbers (records : List PairSeq) : List Nat := records.map (fun record => record.seq.toNat)

theorem numbers_cons (record : PairSeq) (records : List PairSeq) :
    numbers (record :: records) = record.seq.toNat :: numbers records := rfl

/-- The predecessor the first record of a pair claims. -/
def claimed (record : PairSeq) : Nat := (record.prevSeq.getD 0).toNat

theorem missing_toNat (prior : UInt64) (record : PairSeq) :
    ((missing (some prior) record).getD 0).toNat =
      if prior.toNat < record.seq.toNat then record.seq.toNat - prior.toNat - 1 else 0 := by
  unfold missing
  simp only [UInt64.lt_iff_toNat_lt, UInt64.toNat_add, UInt64.toNat_one]
  by_cases higher : prior.toNat < record.seq.toNat
  · have bound := record.seq.toNat_lt
    have next : (prior.toNat + 1) % 2 ^ 64 = prior.toNat + 1 := Nat.mod_eq_of_lt (by omega)
    rw [next]
    by_cases jump : prior.toNat + 1 < record.seq.toNat
    · have past : (record.seq - prior).toNat = record.seq.toNat - prior.toNat :=
        UInt64.toNat_sub_of_le _ _ (UInt64.le_iff_toNat_le.mpr (Nat.le_of_lt higher))
      have positive : 1 ≤ record.seq - prior := by
        rw [UInt64.le_iff_toNat_le, past, UInt64.toNat_one]
        omega
      rw [if_pos ⟨higher, jump⟩, if_pos higher, Option.getD_some,
        UInt64.toNat_sub_of_le _ _ positive, past, UInt64.toNat_one]
    · rw [if_neg (fun both => jump both.2), if_pos higher, Option.getD_none, UInt64.toNat_zero]
      omega
  · rw [if_neg (fun both => higher both.1), if_neg higher, Option.getD_none, UInt64.toNat_zero]

theorem visit_gaps (standing : Standing) (record : PairSeq) :
    (standing.visit record).gaps.getD 0 =
      standing.gaps.getD 0 + (missing standing.last record).getD 0 := by
  simp only [Standing.visit]
  cases missing standing.last record with
  | none => simp
  | some amount => rfl

theorem visit_last {standing : Standing} {prior : UInt64} (known : standing.last = some prior)
    (record : PairSeq) : (standing.visit record).last = some (max prior record.seq) := by
  rw [Standing.visit, known, Option.getD_some]

theorem toNat_max (left right : UInt64) : (max left right).toNat = max left.toNat right.toNat := by
  rw [show max left right = if left ≤ right then right else left from rfl]
  split
  · next le => exact (Nat.max_eq_right (UInt64.le_iff_toNat_le.mp le)).symm
  · next gt =>
      have lt := UInt64.lt_iff_toNat_lt.mp (UInt64.not_le.mp gt)
      exact (Nat.max_eq_left (Nat.le_of_lt lt)).symm

section

variable {standing : Standing} {prior : UInt64} (known : standing.last = some prior)
  (own : List PairSeq)

include known

/-- Later records of a pair add the numbers they skip, as far as they fit. -/
theorem foldl_gaps : ((own.foldl Standing.visit standing).gaps.getD 0).toNat =
    ((standing.gaps.getD 0).toNat + Numbering.skipped prior.toNat (numbers own)) % 2 ^ 64 := by
  induction own generalizing standing prior with
  | nil =>
      have bound := (standing.gaps.getD 0).toNat_lt
      simp only [List.foldl_nil, numbers, List.map_nil, Numbering.skipped, Nat.add_zero]
      exact (Nat.mod_eq_of_lt bound).symm
  | cons record own ih =>
      rw [List.foldl_cons, ih (visit_last known record), visit_gaps, known, UInt64.toNat_add,
        missing_toNat, toNat_max, numbers_cons, Numbering.skipped]
      by_cases higher : prior.toNat < record.seq.toNat
      · rw [if_pos higher, if_pos higher, Nat.max_eq_right (Nat.le_of_lt higher),
          Nat.mod_add_mod, Nat.add_assoc]
      · rw [if_neg higher, if_neg higher, Nat.max_eq_left (Nat.le_of_not_lt higher),
          Nat.mod_add_mod, Nat.add_zero]

/-- The highest number of a pair. -/
theorem foldl_last : ∃ last, (own.foldl Standing.visit standing).last = some last ∧
    last.toNat = Numbering.highest prior.toNat (numbers own) := by
  induction own generalizing standing prior with
  | nil => exact ⟨prior, known, rfl⟩
  | cons record own ih =>
      rcases ih (visit_last known record) with ⟨last, reached, highest⟩
      refine ⟨last, reached, ?_⟩
      rw [highest, toNat_max, numbers_cons, Numbering.highest_cons]

/-- Later records of a pair break nothing if their two numbers fit and ascend. -/
theorem foldl_broken : (own.foldl Standing.visit standing).broken = none ↔
    standing.broken = none ∧ (∀ record ∈ own, record.consistent = true) ∧
      (prior.toNat :: numbers own).IsChain (· < ·) := by
  induction own generalizing standing prior with
  | nil => simp [numbers]
  | cons record own ih =>
      have first : (standing.visit record).broken = none ↔ standing.broken = none ∧
          record.consistent = true ∧ prior.toNat < record.seq.toNat := by
        rw [Standing.visit, Option.or_eq_none_iff, breakage, known]
        cases record.consistent with
        | false => simp
        | true => simp [UInt64.lt_iff_toNat_lt]
      rw [List.foldl_cons, ih (visit_last known record), first, toNat_max,
        numbers_cons, List.isChain_cons_cons, List.forall_mem_cons]
      constructor
      · rintro ⟨⟨whole, fits, higher⟩, later, ascending⟩
        rw [Nat.max_eq_right (Nat.le_of_lt higher)] at ascending
        exact ⟨whole, ⟨fits, later⟩, higher, ascending⟩
      · rintro ⟨whole, ⟨fits, later⟩, higher, ascending⟩
        rw [Nat.max_eq_right (Nat.le_of_lt higher)]
        exact ⟨⟨whole, fits, higher⟩, later, ascending⟩

end

/-! ## The standing of all records of a pair -/

theorem first_last (record : PairSeq) : (Standing.empty.visit record).last = some record.seq := by
  have highest : max 0 record.seq = record.seq := by
    apply UInt64.toNat_inj.mp
    rw [toNat_max, UInt64.toNat_zero, Nat.zero_max]
  exact congrArg some highest

theorem standingOf_last (record : PairSeq) (own : List PairSeq) :
    ∃ last, (standingOf (record :: own)).last = some last ∧
      last.toNat = Numbering.highest record.seq.toNat (numbers own) :=
  foldl_last (first_last record) own

/-- The gaps of a pair: the claimed predecessors of its first record and the
numbers skipped after it, as far as they fit. -/
theorem standingOf_gaps (record : PairSeq) (own : List PairSeq) :
    ((standingOf (record :: own)).gaps.getD 0).toNat =
      (claimed record + Numbering.skipped record.seq.toNat (numbers own)) % 2 ^ 64 := by
  have first : (Standing.empty.visit record).gaps.getD 0 = record.prevSeq.getD 0 := by
    rw [visit_gaps, Standing.empty]
    simp [missing]
  rw [standingOf, List.foldl_cons, foldl_gaps (first_last record), first, claimed]

/-- A pair is unbroken if the two numbers of each record fit and the numbers ascend. -/
theorem standingOf_broken (record : PairSeq) (own : List PairSeq) :
    (standingOf (record :: own)).broken = none ↔
      (∀ other ∈ record :: own, other.consistent = true) ∧
        (numbers (record :: own)).IsChain (· < ·) := by
  have first : (Standing.empty.visit record).broken = none ↔ record.consistent = true := by
    simp only [Standing.visit, Standing.empty, Option.none_or, breakage, Option.bind_none]
    cases record.consistent with
    | false => simp
    | true => simp
  rw [standingOf, List.foldl_cons, foldl_broken (first_last record), first, List.forall_mem_cons,
    and_assoc]
  rfl

theorem standingOf_count {own : List PairSeq} :
    (standingOf own).count = none ↔ own = [] := by
  rcases List.eq_nil_or_concat own with rfl | ⟨front, last, rfl⟩
  · exact ⟨fun _ => rfl, fun _ => rfl⟩
  · simp [standingOf, Standing.visit]

end Sequence
end CapsuleEmit
