import CapsuleEmit.Sequence.Arithmetic

namespace CapsuleEmit
namespace Sequence

/-!
# When a pair is reported whole

A pair is whole when its records carry the numbers 1 to n in order, each with its
predecessor.  The verifier reports exactly these as unbroken without a gap, as long
as no record carries the number zero or claims it; a record that breaks the order
or lies about its predecessor breaks the pair, and one that was dropped is a gap.
-/

open Std (TreeMap)

variable {checks : Checks}

/-- The predecessor that belongs to a number. -/
def link (n : Nat) : Option Nat := if n = 1 then none else some (n - 1)

/-- The records are (1, none), (2, 1), up to (n, n - 1). -/
def Whole (own : List PairSeq) : Prop :=
  ∃ n, 1 ≤ n ∧ own.map (fun record => (record.seq.toNat, record.prevSeq.map UInt64.toNat)) =
    (List.range' 1 n).map (fun k => (k, link k))

/-- The predecessor a record claims belongs to its number. -/
def Linked (record : PairSeq) : Prop :=
  record.prevSeq.map UInt64.toNat = link record.seq.toNat

/-- No record carries the number zero or claims it. -/
def ZeroFree (own : List PairSeq) : Prop :=
  ∀ record ∈ own, record.seq ≠ 0 ∧ record.prevSeq ≠ some 0

theorem map_eq_map_link_iff {own : List PairSeq} {ns : List Nat} :
    own.map (fun record => (record.seq.toNat, record.prevSeq.map UInt64.toNat)) =
        ns.map (fun k => (k, link k)) ↔
      numbers own = ns ∧ ∀ record ∈ own, Linked record := by
  induction own generalizing ns with
  | nil =>
      cases ns with
      | nil => simp [numbers]
      | cons n ns => simp [numbers]
  | cons record own ih =>
      cases ns with
      | nil => simp [numbers]
      | cons n ns =>
          rw [List.map_cons, List.map_cons, List.cons.injEq, ih, numbers_cons, List.cons.injEq,
            List.forall_mem_cons, Prod.mk.injEq]
          constructor
          · rintro ⟨⟨rfl, linked⟩, rfl, later⟩
            exact ⟨⟨rfl, rfl⟩, linked, later⟩
          · rintro ⟨⟨rfl, rfl⟩, linked, later⟩
            exact ⟨⟨rfl, linked⟩, rfl, later⟩

theorem whole_iff {own : List PairSeq} :
    Whole own ↔ own ≠ [] ∧ (∀ record ∈ own, Linked record) ∧
      numbers own = List.range' 1 own.length := by
  constructor
  · rintro ⟨n, positive, same⟩
    rcases map_eq_map_link_iff.mp same with ⟨consecutive, linked⟩
    have length : own.length = n := by
      have lengths := congrArg List.length consecutive
      rwa [numbers, List.length_map, List.length_range'] at lengths
    refine ⟨?_, linked, by rw [consecutive, length]⟩
    rintro rfl
    rw [← length] at positive
    cases positive
  · rintro ⟨inhabited, linked, consecutive⟩
    exact ⟨own.length, List.length_pos_iff.mpr inhabited,
      map_eq_map_link_iff.mpr ⟨consecutive, linked⟩⟩

/-- What a counter would have issued is what links the numbers. -/
theorem consistent_iff_linked {record : PairSeq} (number : record.seq ≠ 0)
    (predecessor : record.prevSeq ≠ some 0) : record.consistent = true ↔ Linked record := by
  have positive : record.seq.toNat ≠ 0 := fun zero => number (UInt64.toNat_inj.mp zero)
  unfold PairSeq.consistent Linked link
  cases linked : record.prevSeq with
  | none =>
      rw [decide_eq_true_eq, UInt64.le_iff_toNat_le, UInt64.toNat_one, Option.map_none]
      split
      · next one => exact ⟨fun _ => rfl, fun _ => one.le⟩
      · next more => exact ⟨fun low => absurd (by omega) more, nofun⟩
  | some prevSeq =>
      have claims : prevSeq.toNat ≠ 0 := by
        intro zero
        have isZero : prevSeq = 0 := UInt64.toNat_inj.mp zero
        exact predecessor (by rw [linked, isZero])
      have low : 1 ≤ record.seq := by
        rw [UInt64.le_iff_toNat_le, UInt64.toNat_one]
        omega
      have before : (record.seq - 1).toNat = record.seq.toNat - 1 :=
        UInt64.toNat_sub_of_le _ _ low
      rw [Bool.and_eq_true, decide_eq_true_eq, beq_iff_eq, ← UInt64.toNat_inj, before,
        Option.map_some]
      split
      · next one =>
          constructor
          · rintro ⟨-, same⟩
            omega
          · exact nofun
      · exact ⟨fun both => congrArg some both.2, fun same => ⟨low, Option.some.inj same⟩⟩

/-- The missing numbers of a linked pair are those skipped from the beginning. -/
theorem demand_of_linked {record : PairSeq} {own : List PairSeq} (number : record.seq ≠ 0)
    (linked : Linked record) :
    demand (record :: own) = Numbering.skipped 0 (numbers (record :: own)) := by
  have positive : 0 < record.seq.toNat :=
    Nat.pos_of_ne_zero (fun zero => number (UInt64.toNat_inj.mp zero))
  rw [demand, numbers_cons, Numbering.skipped, if_pos positive]
  unfold Linked link at linked
  cases claim : record.prevSeq with
  | none =>
      rw [claim, Option.map_none] at linked
      split at linked
      · next one => rw [claimed, claim, Option.getD_none, UInt64.toNat_zero, one]
      · cases linked
  | some prevSeq =>
      rw [claim, Option.map_some] at linked
      split at linked
      · cases linked
      · rw [claimed, claim, Option.getD_some, Option.some.inj linked, Nat.sub_zero]

/-! ## What a broken pair is reported as -/

theorem append_four (a b c d : String) : a ++ b ++ c ++ d = a ++ (b ++ (c ++ d)) := by
  rw [String.append_assoc, String.append_assoc]

theorem append_five (a b c d e : String) :
    a ++ b ++ c ++ d ++ e = a ++ (b ++ (c ++ (d ++ e))) := by
  rw [append_four, String.append_assoc]

theorem ne_unbroken (text : String) : "broken at seq=" ++ text ≠ "unbroken" := by
  intro same
  have letters := congrArg String.toList same
  have first : "broken at seq=".toList = 'b' :: "roken at seq=".toList := by decide
  have other : "unbroken".toList = 'u' :: "nbroken".toList := by decide
  rw [String.toList_append, first, other, List.cons_append, List.cons.injEq] at letters
  exact absurd letters.1 (by decide)

theorem breakage_ne_unbroken {last : Option UInt64} {record : PairSeq} {text : String}
    (broke : breakage last record = some text) : text ≠ "unbroken" := by
  unfold breakage at broke
  split at broke
  · rcases Option.bind_eq_some_iff.mp broke with ⟨prior, -, regressed⟩
    split at regressed
    · rw [← Option.some.inj regressed]
      exact (append_four ..).trans_ne (ne_unbroken _)
    · cases regressed
  · rw [← Option.some.inj broke]
    exact (append_five ..).trans_ne (ne_unbroken _)

theorem broken_ne_unbroken {own : List PairSeq} {text : String}
    (broke : (standingOf own).broken = some text) : text ≠ "unbroken" := by
  induction own using List.reverseRecOn with
  | nil => cases broke
  | append_singleton own record ih =>
      rw [standingOf, List.foldl_append, ← standingOf] at broke
      change (standingOf own).broken.or (breakage (standingOf own).last record) = some text at broke
      rcases Option.or_eq_some_iff.mp broke with before | ⟨-, now⟩
      · exact ih before
      · exact breakage_ne_unbroken now

/-- An unbroken pair is one of which nothing broke. -/
theorem unbroken_iff {own : List PairSeq} {key : String} :
    (∃ finding, (standingOf own).finding "unbroken" key = some finding ∧
      finding.continuity = "unbroken") ↔ own ≠ [] ∧ (standingOf own).broken = none := by
  have counted : ¬ (standingOf own).count = none ↔ ¬ own = [] := not_congr standingOf_count
  unfold Standing.finding
  cases count : (standingOf own).count with
  | none =>
      rw [standingOf_count] at count
      simp [count]
  | some count' =>
      rw [count] at counted
      cases broke : (standingOf own).broken with
      | none => simpa using counted
      | some text => simpa using broken_ne_unbroken broke

theorem unbroken_iff_linked {own : List PairSeq} {key : String} (zeroFree : ZeroFree own) :
    (∃ finding, (standingOf own).finding "unbroken" key = some finding ∧
      finding.continuity = "unbroken") ↔
        own ≠ [] ∧ (∀ record ∈ own, Linked record) ∧ (numbers own).IsChain (· < ·) := by
  rw [unbroken_iff]
  refine and_congr_right fun inhabited => ?_
  cases own with
  | nil => exact absurd rfl inhabited
  | cons record own =>
      rw [standingOf_broken]
      refine and_congr_left fun _ => forall₂_congr fun other inside => ?_
      exact consistent_iff_linked (zeroFree other inside).1 (zeroFree other inside).2

theorem gaps_of_linked {own : List PairSeq} (zeroFree : ZeroFree own)
    (linked : ∀ record ∈ own, Linked record) (ascending : (numbers own).IsChain (· < ·)) :
    ((standingOf own).gaps.getD 0).toNat = Numbering.skipped 0 (numbers own) ∧
      (0 :: numbers own).IsChain (· < ·) := by
  cases own with
  | nil => exact ⟨rfl, List.isChain_singleton 0⟩
  | cons record own =>
      have number := (zeroFree record List.mem_cons_self).1
      have positive : 0 < record.seq.toNat :=
        Nat.pos_of_ne_zero (fun zero => number (UInt64.toNat_inj.mp zero))
      have same : demand (record :: own) = Numbering.skipped 0 (numbers (record :: own)) :=
        demand_of_linked number (linked record List.mem_cons_self)
      rw [← card_absentInOrder] at same ⊢
      rw [standingOf_gaps_of_lt (same ▸ absent_lt _), same]
      exact ⟨rfl, List.isChain_cons_cons.mpr ⟨positive, ascending⟩⟩

/-- A call reports a pair as unbroken and without a gap exactly when its records are
the numbers 1 to n in order, each with its predecessor.  It reports the pair as
unbroken when each record claims the predecessor of its number and the numbers
ascend, and then the gaps are the missing numbers. -/
theorem pair_continuity (records : List PairSeq) (selfId counterpartyId : String) :
    let key := pairKey selfId counterpartyId
    let own := bucket key records
    (∃ report, verifyPairContinuity .release records none = some report) ∧
      ∀ checks report, verifyPairContinuity checks records none = some report → ZeroFree own →
        ((∃ finding, report[key]? = some finding ∧ finding.continuity = "unbroken" ∧
            finding.gapsDetected = 0) ↔ Whole own) ∧
          ((∃ finding, report[key]? = some finding ∧ finding.continuity = "unbroken") ↔
            own ≠ [] ∧ (∀ record ∈ own, Linked record) ∧ (numbers own).IsChain (· < ·)) ∧
          ∀ finding, report[key]? = some finding → finding.continuity = "unbroken" →
            finding.gapsDetected.toNat =
              (Finset.Ioc 0 (Numbering.highest 0 (numbers own)) \ (numbers own).toFinset).card := by
  intro key own
  refine ⟨verifyPairContinuity_total (Or.inl rfl) none, ?_⟩
  intro checks report verified zeroFree
  rcases verifyPairContinuity_getElem? verified with ⟨total, entries⟩
  have entry : report[key]? = (standingOf own).finding "unbroken" key := entries key
  have unbroken := @unbroken_iff_linked _ key zeroFree
  have counted : ∀ finding, report[key]? = some finding → finding.continuity = "unbroken" →
      finding.gapsDetected.toNat = Numbering.skipped 0 (numbers own) ∧
        (0 :: numbers own).IsChain (· < ·) := by
    intro finding found whole
    rw [entry] at found
    rcases unbroken.mp ⟨finding, found, whole⟩ with ⟨-, linked, ascending⟩
    rcases Option.map_eq_some_iff.mp found with ⟨count, -, rfl⟩
    exact gaps_of_linked zeroFree linked ascending
  rw [← entry] at unbroken
  refine ⟨?_, unbroken, ?_⟩
  · rw [whole_iff]
    constructor
    · rintro ⟨finding, found, whole, none⟩
      rcases unbroken.mp ⟨finding, found, whole⟩ with ⟨inhabited, linked, -⟩
      rcases counted finding found whole with ⟨gaps, ascending⟩
      rw [none, UInt64.toNat_zero] at gaps
      have consecutive := Numbering.consecutive_iff.mp ⟨ascending, gaps.symm⟩
      rw [numbers, List.length_map] at consecutive
      exact ⟨inhabited, linked, consecutive⟩
    · rintro ⟨inhabited, linked, consecutive⟩
      have length : own.length = (numbers own).length := (List.length_map _).symm
      rw [length] at consecutive
      rcases Numbering.consecutive_iff.mpr consecutive with ⟨ascending, none⟩
      rcases unbroken.mpr ⟨inhabited, linked, ascending.tail⟩ with ⟨finding, found, whole⟩
      refine ⟨finding, found, whole, UInt64.toNat_inj.mp ?_⟩
      rw [(counted finding found whole).1, none]
      rfl
  · intro finding found whole
    rcases counted finding found whole with ⟨gaps, ascending⟩
    rw [gaps, Numbering.skipped_eq_card, Numbering.peaks_of_ascending ascending]

theorem numberedPair_continuity :
    let key := pairKey "a" "b"
    ∀ report, verifyPairContinuity .debug numberedPair none = some report →
      ((∃ finding, report[key]? = some finding ∧ finding.continuity = "unbroken" ∧
        finding.gapsDetected = 0) ↔ Whole (bucket key numberedPair)) := by
  intro key report verified
  have zeroFree : ZeroFree (bucket key numberedPair) := by
    unfold ZeroFree
    decide
  exact ((pair_continuity numberedPair "a" "b").2 .debug report verified zeroFree).1

/-- A record that claims the predecessor zero. -/
def claimsZero : List PairSeq := [⟨"a", "b", 1, some 0⟩]

/-- The numbers 1 to 3 without the second. -/
def dropped : List PairSeq := [⟨"a", "b", 1, none⟩, ⟨"a", "b", 3, some 2⟩]

/-- A pair is reported as unbroken without a gap although its only record claims
a predecessor, and as unbroken although one of its records was dropped. -/
theorem unbroken_not_whole :
    (∃ report finding, verifyPairContinuity .release claimsZero none = some report ∧
      report["a::b"]? = some finding ∧ finding.continuity = "unbroken" ∧
      finding.gapsDetected = 0 ∧ ¬ Whole (bucket "a::b" claimsZero)) ∧
      ∃ report finding, verifyPairContinuity .release dropped none = some report ∧
        report["a::b"]? = some finding ∧ finding.continuity = "unbroken" ∧
        Whole [⟨"a", "b", 1, none⟩, ⟨"a", "b", 2, some 1⟩, ⟨"a", "b", 3, some 2⟩] := by
  have zero : ((verifyPairContinuity .release claimsZero none).bind (fun report =>
      report["a::b"]?.map (fun finding => (finding.continuity, finding.gapsDetected)))) =
        some ("unbroken", 0) := by decide
  have gap : ((verifyPairContinuity .release dropped none).bind (fun report =>
      report["a::b"]?.map PairContinuity.continuity)) = some "unbroken" := by decide
  constructor
  · rcases Option.bind_eq_some_iff.mp zero with ⟨report, verified, found⟩
    rcases Option.map_eq_some_iff.mp found with ⟨finding, held, pair⟩
    refine ⟨report, finding, verified, held, congrArg Prod.fst pair, congrArg Prod.snd pair, ?_⟩
    rw [whole_iff]
    rintro ⟨-, linked, -⟩
    have lies := linked ⟨"a", "b", 1, some 0⟩ (by decide)
    revert lies
    unfold Linked
    decide
  · rcases Option.bind_eq_some_iff.mp gap with ⟨report, verified, found⟩
    rcases Option.map_eq_some_iff.mp found with ⟨finding, held, unbroken⟩
    exact ⟨report, finding, verified, held, unbroken, 3, by decide, by decide⟩

end Sequence
end CapsuleEmit
