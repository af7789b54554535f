import CapsuleEmit.Sequence.Standing

namespace CapsuleEmit
namespace Sequence

/-!
# The arithmetic of a walk

No subtraction of a walk goes below zero, and its additions count records and
missing numbers.  So a walk goes on as long as the missing numbers that each
pair's records show fit, and then the gaps it reports are exactly these.
-/

open Std (TreeMap)

variable {checks : Checks}

/-- An addition the build goes on after. -/
def Fits (checks : Checks) (left right : Nat) : Prop :=
  checks.add = false ∨ left + right < UInt64.size

theorem Fits.plus {left right : UInt64} (fits : Fits checks left.toNat right.toNat) :
    checks.plus left right = some (left + right) := by
  rcases fits with unchecked | small
  · simp [Checks.plus, unchecked]
  · exact Checks.plus_of_lt small

theorem Fits.bump {table : TreeMap String UInt64} {key : String} {amount : UInt64}
    (fits : Fits checks (table[key]?.getD 0).toNat amount.toNat) :
    ∃ after, bump checks table key amount = some after :=
  ⟨_, by rw [Sequence.bump, fits.plus]; rfl⟩

theorem selfConsistent_total (record : PairSeq) :
    ∃ consistent, selfConsistent checks record = some consistent := by
  unfold selfConsistent
  split
  · exact ⟨_, rfl⟩
  · next prevSeq present =>
      split
      · next positive => exact ⟨_, by rw [Checks.minus_of_le positive]; rfl⟩
      · exact ⟨_, rfl⟩

theorem countGap_total {gaps : TreeMap String UInt64} {record : PairSeq} {prior : UInt64}
    (higher : prior < record.seq)
    (fits : ∀ amount, missing (some prior) record = some amount →
      Fits checks (gaps[record.key]?.getD 0).toNat amount.toNat) :
    ∃ after, countGap checks gaps record prior = some after := by
  have bound := record.seq.toNat_lt
  have above := UInt64.lt_iff_toNat_lt.mp higher
  have size : UInt64.size = 2 ^ 64 := rfl
  have next : checks.plus prior 1 = some (prior + 1) := by
    apply Checks.plus_of_lt
    rw [UInt64.toNat_one]
    omega
  simp only [countGap, next, bind, Option.bind_some]
  split
  · next jump =>
      have past : (record.seq - prior).toNat = record.seq.toNat - prior.toNat :=
        UInt64.toNat_sub_of_le _ _ (UInt64.le_iff_toNat_le.mpr (Nat.le_of_lt above))
      have positive : 1 ≤ record.seq - prior := by
        rw [UInt64.le_iff_toNat_le, past, UInt64.toNat_one]
        omega
      rw [Checks.minus_of_le (UInt64.le_of_lt higher), Option.bind_some,
        Checks.minus_of_le positive, Option.bind_some]
      exact (fits _ (by simp only [missing, higher, jump, and_self, if_true])).bump
  · exact ⟨gaps, rfl⟩

theorem comparePrior_total {walk : Walk} {record : PairSeq}
    (fits : ∀ amount, missing walk.lastSeq[record.key]? record = some amount →
      Fits checks (walk.gaps[record.key]?.getD 0).toNat amount.toNat) :
    ∃ after, comparePrior checks walk record = some after := by
  unfold comparePrior
  cases prior : walk.lastSeq[record.key]? with
  | none =>
      cases linked : record.prevSeq with
      | none => exact ⟨walk, rfl⟩
      | some prevSeq =>
          rw [prior] at fits
          rcases (fits prevSeq (by simp only [missing, linked])).bump with ⟨gaps, bumped⟩
          exact ⟨{ walk with gaps }, by simp only [bumped, Option.map_some]⟩
  | some prior' =>
      simp only
      split
      · exact ⟨_, rfl⟩
      · next high =>
          rw [prior] at fits
          rcases countGap_total (UInt64.not_le.mp high) fits with ⟨gaps, counted⟩
          exact ⟨{ walk with gaps }, by rw [counted]; rfl⟩

/-- A walk goes on after a record if both of its additions do. -/
theorem visit_total {walk : Walk} {record : PairSeq}
    (counts : Fits checks ((walk.standing record.key).count.getD 0).toNat 1)
    (gaps : ∀ amount, missing (walk.standing record.key).last record = some amount →
      Fits checks ((walk.standing record.key).gaps.getD 0).toNat amount.toNat) :
    ∃ after, visit checks walk record = some after := by
  have one : Fits checks (walk.counts[record.key]?.getD 0).toNat (1 : UInt64).toNat := counts
  rcases one.bump with ⟨counted, bumped⟩
  rcases @selfConsistent_total checks record with ⟨consistent, checked⟩
  rcases @comparePrior_total checks { walk with
    counts := counted
    broken := if consistent then walk.broken
      else walk.broken.insertIfNew record.key (mislinkedText record) } record gaps
    with ⟨compared, compares⟩
  simp only [visit, bumped, checked, compares, bind, Option.bind_some, pure]
  exact ⟨_, rfl⟩

theorem fits_of_plus {left right sum : UInt64} (added : checks.plus left right = some sum) :
    Fits checks left.toNat right.toNat := by
  unfold Checks.plus at added
  split at added
  · cases added
  · next small =>
      rw [Bool.and_eq_true, decide_eq_true_eq, not_and, Nat.not_le] at small
      cases checked : checks.add with
      | false => exact Or.inl checked
      | true => exact Or.inr (small checked)

theorem fits_of_bump {table after : TreeMap String UInt64} {key : String} {amount : UInt64}
    (bumped : bump checks table key amount = some after) :
    Fits checks (table[key]?.getD 0).toNat amount.toNat := by
  rcases Option.map_eq_some_iff.mp bumped with ⟨sum, added, -⟩
  exact fits_of_plus added

theorem fits_of_countGap {gaps after : TreeMap String UInt64} {record : PairSeq} {prior : UInt64}
    (counted : countGap checks gaps record prior = some after) {amount : UInt64}
    (shown : missing (some prior) record = some amount) :
    Fits checks (gaps[record.key]?.getD 0).toNat amount.toNat := by
  simp only [countGap, bind, Option.bind_eq_some_iff] at counted
  rcases counted with ⟨next, added, counted⟩
  have isNext := Checks.plus_eq added
  subst isNext
  simp only [missing] at shown
  split at shown
  · next jump =>
      rw [if_pos jump.2] at counted
      rcases Option.bind_eq_some_iff.mp counted with ⟨past, first, counted⟩
      rcases Option.bind_eq_some_iff.mp counted with ⟨rest, second, bumped⟩
      have fits := fits_of_bump bumped
      rw [Checks.minus_eq second, Checks.minus_eq first] at fits
      rwa [← Option.some.inj shown]
  · cases shown

theorem fits_of_comparePrior {walk after : Walk} {record : PairSeq}
    (compared : comparePrior checks walk record = some after) {amount : UInt64}
    (shown : missing walk.lastSeq[record.key]? record = some amount) :
    Fits checks (walk.gaps[record.key]?.getD 0).toNat amount.toNat := by
  unfold comparePrior at compared
  cases prior : walk.lastSeq[record.key]? with
  | none =>
      cases linked : record.prevSeq with
      | none => simp [missing, prior, linked] at shown
      | some prevSeq =>
          simp only [prior, linked] at compared
          simp only [missing, prior, linked, Option.some.injEq] at shown
          rcases Option.map_eq_some_iff.mp compared with ⟨gaps, bumped, -⟩
          rw [← shown]
          exact fits_of_bump bumped
  | some prior' =>
      rw [prior] at shown
      simp only [prior] at compared
      split at compared
      · next low =>
          have notHigher : ¬ prior' < record.seq := UInt64.not_lt.mpr low
          simp [missing, notHigher] at shown
      · rcases Option.map_eq_some_iff.mp compared with ⟨gaps, counted, -⟩
        exact fits_of_countGap counted shown

/-- After a record the walk goes on only if the missing numbers it shows fit. -/
theorem fits_of_visit {walk after : Walk} {record : PairSeq}
    (visited : visit checks walk record = some after) {amount : UInt64}
    (shown : missing (walk.standing record.key).last record = some amount) :
    Fits checks ((walk.standing record.key).gaps.getD 0).toNat amount.toNat := by
  rcases Option.bind_eq_some_iff.mp visited with ⟨counts, -, visited⟩
  rcases Option.bind_eq_some_iff.mp visited with ⟨consistent, -, visited⟩
  rcases Option.bind_eq_some_iff.mp visited with ⟨compared, compares, -⟩
  exact fits_of_comparePrior compares shown

/-! ## The missing numbers of a pair -/

/-- The missing numbers that the records of a pair show: those the first record
claims before it, and those skipped after it. -/
def demand : List PairSeq → Nat
  | [] => 0
  | record :: own => claimed record + Numbering.skipped record.seq.toNat (numbers own)

theorem standingOf_gaps_demand (own : List PairSeq) :
    ((standingOf own).gaps.getD 0).toNat = demand own % 2 ^ 64 := by
  cases own with
  | nil => rfl
  | cons record own => exact standingOf_gaps record own

theorem standingOf_gaps_of_lt {own : List PairSeq} (fits : demand own < UInt64.size) :
    ((standingOf own).gaps.getD 0).toNat = demand own := by
  rw [standingOf_gaps_demand]
  exact Nat.mod_eq_of_lt fits

theorem numbers_append (front back : List PairSeq) :
    numbers (front ++ back) = numbers front ++ numbers back := List.map_append

theorem demand_concat (own : List PairSeq) (record : PairSeq) :
    demand (own ++ [record]) =
      demand own + ((missing (standingOf own).last record).getD 0).toNat := by
  cases own with
  | nil => simp [demand, claimed, missing, standingOf, Standing.empty, numbers, Numbering.skipped]
  | cons first own =>
      rcases standingOf_last first own with ⟨last, reached, highest⟩
      rw [List.cons_append, demand, demand, reached, missing_toNat, highest, numbers_append,
        Nat.add_assoc]
      exact congrArg _ (Numbering.skipped_concat ..)

theorem demand_concat_le (own : List PairSeq) (record : PairSeq) :
    demand own ≤ demand (own ++ [record]) := by
  rw [demand_concat]
  exact Nat.le_add_right _ _

theorem standingOf_count_toNat (own : List PairSeq) :
    ((standingOf own).count.getD 0).toNat = own.length % UInt64.size := by
  induction own using List.reverseRecOn with
  | nil => rfl
  | append_singleton own record ih =>
      have last : (standingOf (own ++ [record])).count.getD 0 =
          (standingOf own).count.getD 0 + 1 := by
        rw [standingOf, List.foldl_append]
        rfl
      have added : ((standingOf own).count.getD 0 + 1).toNat =
          (((standingOf own).count.getD 0).toNat + 1) % UInt64.size := UInt64.toNat_add _ _
      rw [last, added, ih, Nat.mod_add_mod, List.length_append, List.length_singleton]

theorem bucket_concat (key : String) (records : List PairSeq) (record : PairSeq) :
    bucket key (records ++ [record]) =
      if record.key = key then bucket key records ++ [record] else bucket key records := by
  rw [bucket, List.filter_append, bucket]
  split
  · next own => simp [own]
  · next other => simp [other]

theorem length_bucket_le (key : String) (records : List PairSeq) :
    (bucket key records).length ≤ records.length := List.length_filter_le _ _

/-! ## A whole walk -/

/-- The numbers a walk adds up fit, or are not checked. -/
def Affordable (checks : Checks) (records : List PairSeq) : Prop :=
  checks.add = false ∨
    (records.length < UInt64.size ∧ ∀ key, demand (bucket key records) < UInt64.size)

theorem Affordable.front {records : List PairSeq} {record : PairSeq}
    (affordable : Affordable checks (records ++ [record])) : Affordable checks records := by
  apply affordable.imp_right
  rintro ⟨short, fits⟩
  rw [List.length_append] at short
  refine ⟨by omega, fun key => ?_⟩
  have whole := fits key
  rw [bucket_concat] at whole
  split at whole
  · exact Nat.lt_of_le_of_lt (demand_concat_le _ record) whole
  · exact whole

theorem foldlM_concat (records : List PairSeq) (record : PairSeq) (walk : Walk) :
    (records ++ [record]).foldlM (visit checks) walk =
      (records.foldlM (visit checks) walk).bind (fun middle => visit checks middle record) := by
  rw [List.foldlM_append]
  simp only [List.foldlM_cons, List.foldlM_nil, bind_pure]
  rfl

theorem walk_total {records : List PairSeq} (affordable : Affordable checks records) :
    ∃ walk, records.foldlM (visit checks) .empty = some walk := by
  induction records using List.reverseRecOn with
  | nil => exact ⟨.empty, rfl⟩
  | append_singleton records record ih =>
      rcases ih affordable.front with ⟨walk, walked⟩
      have known := walk_standing walked record.key
      have goesOn : ∃ after, visit checks walk record = some after := by
        apply visit_total
        · apply affordable.imp_right
          rintro ⟨short, -⟩
          rw [List.length_append, List.length_singleton] at short
          rw [known]
          have counted := standingOf_count_toNat (bucket record.key records)
          have low := Nat.mod_le (bucket record.key records).length UInt64.size
          have part := length_bucket_le record.key records
          omega
        · intro amount shown
          apply affordable.imp_right
          rintro ⟨-, fits⟩
          have whole := fits record.key
          rw [bucket_concat, if_pos rfl, demand_concat, ← known, shown, Option.getD_some] at whole
          have size : UInt64.size = 2 ^ 64 := rfl
          rw [known, standingOf_gaps_demand]
          have low := Nat.mod_le (demand (bucket record.key records)) (2 ^ 64)
          omega
      rcases goesOn with ⟨after, visited⟩
      exact ⟨after, by rw [foldlM_concat, walked, Option.bind_some, visited]⟩

theorem visit_counts {walk after : Walk} {record : PairSeq}
    (visited : visit checks walk record = some after) :
    TreeTable.total UInt64.toNat after.counts ≤ TreeTable.total UInt64.toNat walk.counts + 1 := by
  rcases Option.bind_eq_some_iff.mp visited with ⟨counts, bumped, compares⟩
  rcases Option.map_eq_some_iff.mp bumped with ⟨sum, added, rfl⟩
  rcases Option.bind_eq_some_iff.mp compares with ⟨consistent, -, compares⟩
  rcases Option.bind_eq_some_iff.mp compares with ⟨compared, compares, done⟩
  have same : after.counts = walk.counts.insert record.key sum := by
    rw [← Option.some.inj done]
    exact (comparePrior_eq compares).2.1
  have entries := TreeTable.total_insert_add UInt64.toNat walk.counts record.key sum
  have before : (walk.counts[record.key]?.map UInt64.toNat).getD 0 =
      (walk.counts[record.key]?.getD 0).toNat := by
    cases walk.counts[record.key]? with
    | none => rfl
    | some count => rfl
  have step : sum.toNat ≤ (walk.counts[record.key]?.getD 0).toNat + 1 := by
    rw [Checks.plus_eq added, UInt64.toNat_add]
    exact Nat.mod_le _ _
  rw [same]
  omega

theorem walk_counts {records : List PairSeq} {walk : Walk}
    (walked : records.foldlM (visit checks) .empty = some walk) :
    TreeTable.total UInt64.toNat walk.counts ≤ records.length := by
  induction records using List.reverseRecOn generalizing walk with
  | nil =>
      rw [← Option.some.inj walked]
      rfl
  | append_singleton records record ih =>
      rw [foldlM_concat] at walked
      rcases Option.bind_eq_some_iff.mp walked with ⟨middle, front, visited⟩
      rw [List.length_append, List.length_singleton]
      exact (visit_counts visited).trans (Nat.add_le_add_right (ih front) 1)

theorem foldlM_plus {values : List UInt64} {first : UInt64}
    (fits : Fits checks first.toNat (values.map UInt64.toNat).sum) :
    ∃ sum, values.foldlM checks.plus first = some sum := by
  induction values generalizing first with
  | nil => exact ⟨first, rfl⟩
  | cons value values ih =>
      rw [List.map_cons, List.sum_cons] at fits
      have now : Fits checks first.toNat value.toNat := fits.imp_right (fun small => by omega)
      have later : Fits checks (first + value).toNat (values.map UInt64.toNat).sum := by
        apply fits.imp_right
        intro small
        have low : (first + value).toNat ≤ first.toNat + value.toNat := by
          rw [UInt64.toNat_add]
          exact Nat.mod_le _ _
        omega
      rw [List.foldlM_cons, now.plus]
      exact ih later

/-- A call returns a report if what it adds up fits, or is not checked. -/
theorem verifyPairContinuity_total {records : List PairSeq} (affordable : Affordable checks records)
    (checkpointCoveredCount : Option UInt64) :
    ∃ report, verifyPairContinuity checks records checkpointCoveredCount = some report := by
  rcases walk_total affordable with ⟨walk, walked⟩
  have fits : Fits checks (0 : UInt64).toNat
      ((walk.counts.toList.map Prod.snd).map UInt64.toNat).sum := by
    apply affordable.imp_right
    rintro ⟨short, -⟩
    rw [UInt64.toNat_zero, Nat.zero_add, List.map_map]
    exact Nat.lt_of_le_of_lt (walk_counts walked) short
  rcases foldlM_plus fits with ⟨total, added⟩
  simp only [verifyPairContinuity, walked, added, bind, Option.bind_some, pure]
  exact ⟨_, rfl⟩

/-- A walk with checked additions has added up all missing numbers. -/
theorem demand_of_walk (checked : checks.add = true) {records : List PairSeq} {walk : Walk}
    (walked : records.foldlM (visit checks) .empty = some walk) (key : String) :
    demand (bucket key records) < UInt64.size := by
  induction records using List.reverseRecOn generalizing walk with
  | nil => exact Nat.two_pow_pos 64
  | append_singleton records record ih =>
      rw [foldlM_concat] at walked
      rcases Option.bind_eq_some_iff.mp walked with ⟨middle, front, visited⟩
      have before := ih front
      rw [bucket_concat]
      split
      · next own =>
          subst own
          have known := walk_standing front record.key
          rw [demand_concat]
          cases shown : missing (standingOf (bucket record.key records)).last record with
          | none => exact before
          | some amount =>
              have fits := fits_of_visit visited (by rw [known, shown])
              rw [known, standingOf_gaps_of_lt before] at fits
              rcases fits with unchecked | small
              · rw [checked] at unchecked
                cases unchecked
              · exact small
      · exact before

/-! ## What the arithmetic of a call comes to -/

/-- No pair's first record claims a predecessor that is not below its own number. -/
def ClaimsBelow (records : List PairSeq) : Prop :=
  ∀ key record own, bucket key records = record :: own →
    ∀ prevSeq, record.prevSeq = some prevSeq → prevSeq < record.seq

/-- The numbers up to the largest of a pair that did not arrive before every larger one. -/
def absentInOrder (own : List PairSeq) : Finset Nat :=
  Finset.Ioc 0 (Numbering.highest 0 (numbers own)) \ (Numbering.peaks 0 (numbers own)).toFinset

theorem card_absentInOrder (own : List PairSeq) :
    (absentInOrder own).card = Numbering.skipped 0 (numbers own) :=
  (Numbering.skipped_eq_card 0 (numbers own)).symm

theorem demand_le_absent {record : PairSeq} {own : List PairSeq}
    (below : ∀ prevSeq, record.prevSeq = some prevSeq → prevSeq < record.seq) :
    demand (record :: own) ≤ (absentInOrder (record :: own)).card := by
  rw [card_absentInOrder, demand, numbers_cons, Numbering.skipped]
  have low : claimed record ≤ record.seq.toNat - 1 := by
    cases linked : record.prevSeq with
    | none => simp [claimed, linked]
    | some prevSeq =>
        have less := UInt64.lt_iff_toNat_lt.mp (below prevSeq linked)
        rw [claimed, linked, Option.getD_some]
        omega
  split
  · next positive => omega
  · next zero =>
      have isZero : record.seq.toNat = 0 := Nat.eq_zero_of_not_pos zero
      rw [isZero] at low ⊢
      omega

theorem absent_lt (own : List PairSeq) : (absentInOrder own).card < UInt64.size := by
  have top : Numbering.highest 0 (numbers own) < UInt64.size := by
    induction own using List.reverseRecOn with
    | nil => exact Nat.two_pow_pos 64
    | append_singleton own record ih =>
        rw [numbers_append]
        exact (Numbering.highest_concat ..).symm ▸ max_lt ih record.seq.toNat_lt
  have low := Numbering.skipped_le_highest 0 (numbers own)
  rw [card_absentInOrder]
  omega

theorem affordable_of_claimsBelow {records : List PairSeq} (short : records.length < UInt64.size)
    (below : ClaimsBelow records) : Affordable checks records := by
  refine Or.inr ⟨short, fun key => ?_⟩
  cases own : bucket key records with
  | nil => exact Nat.two_pow_pos 64
  | cons record own' =>
      exact Nat.lt_of_le_of_lt (demand_le_absent (below key record own' own)) (absent_lt _)

theorem gaps_of_report {records : List PairSeq} {covered : Option UInt64}
    {report : TreeMap String PairContinuity}
    (verified : verifyPairContinuity checks records covered = some report) {key : String}
    (fits : demand (bucket key records) < UInt64.size) {finding : PairContinuity}
    (found : report[key]? = some finding) :
    finding.gapsDetected.toNat = demand (bucket key records) := by
  rcases verifyPairContinuity_getElem? verified with ⟨total, entries⟩
  rw [entries key] at found
  rcases Option.map_eq_some_iff.mp found with ⟨count, -, rfl⟩
  exact standingOf_gaps_of_lt fits

/-- No subtraction of a call goes below zero.  If no pair's first record claims a
predecessor that is not below its own number, no addition overflows either, and
the gaps of a pair are at most the numbers up to its largest that did not arrive
before every larger one.  Where no addition overflows, the gaps of a pair are the
numbers its first record claims before it and those above it that did not arrive
before every larger one. -/
theorem continuity_arithmetic {records : List PairSeq} (short : records.length < UInt64.size)
    (covered : Option UInt64) :
    (∃ report, verifyPairContinuity ⟨false, true⟩ records covered = some report) ∧
      (ClaimsBelow records → ∀ checks, ∃ report,
        verifyPairContinuity checks records covered = some report ∧
          ∀ key finding, report[key]? = some finding →
            finding.gapsDetected.toNat ≤ (absentInOrder (bucket key records)).card) ∧
      ∀ report, verifyPairContinuity .debug records covered = some report →
        ∀ key record own, bucket key records = record :: own → ∃ finding,
          report[key]? = some finding ∧
          finding.gapsDetected.toNat = claimed record +
            (Finset.Ioc record.seq.toNat (Numbering.highest record.seq.toNat (numbers own)) \
              (Numbering.peaks record.seq.toNat (numbers own)).toFinset).card := by
  refine ⟨verifyPairContinuity_total (Or.inl rfl) covered, fun below checks => ?_,
    fun report verified key record own first => ?_⟩
  · have affordable : Affordable checks records := affordable_of_claimsBelow short below
    rcases verifyPairContinuity_total affordable covered with ⟨report, verified⟩
    refine ⟨report, verified, fun key finding found => ?_⟩
    have bound : demand (bucket key records) ≤ (absentInOrder (bucket key records)).card := by
      cases own : bucket key records with
      | nil => exact Nat.zero_le _
      | cons record own' => exact demand_le_absent (below key record own' own)
    rw [gaps_of_report verified (Nat.lt_of_le_of_lt bound (absent_lt _)) found]
    exact bound
  · rcases Option.bind_eq_some_iff.mp verified with ⟨walk, walked, -⟩
    have fits := demand_of_walk rfl walked key
    rcases verifyPairContinuity_getElem? verified with ⟨total, entries⟩
    cases counted : (standingOf (bucket key records)).count with
    | none =>
        rw [standingOf_count, first] at counted
        cases counted
    | some count =>
        have found := entries key
        rw [Standing.finding, counted, Option.map_some] at found
        refine ⟨_, found, ?_⟩
        rw [gaps_of_report verified fits found, first, demand, Numbering.skipped_eq_card]

/-- A pair as a counter numbers it. -/
def numberedPair : List PairSeq := [⟨"a", "b", 1, none⟩, ⟨"a", "b", 2, some 1⟩]

theorem numberedPair_arithmetic :
    (∃ report, verifyPairContinuity ⟨false, true⟩ numberedPair none = some report) ∧
      ∀ report, verifyPairContinuity .debug numberedPair none = some report →
        ∀ key record own, bucket key numberedPair = record :: own → ∃ finding,
          report[key]? = some finding ∧
          finding.gapsDetected.toNat = claimed record +
            (Finset.Ioc record.seq.toNat (Numbering.highest record.seq.toNat (numbers own)) \
              (Numbering.peaks record.seq.toNat (numbers own)).toFinset).card :=
  have arithmetic := continuity_arithmetic (by decide : numberedPair.length < UInt64.size) none
  ⟨arithmetic.1, arithmetic.2.2⟩

/-- A first record that claims as many predecessors as there can be. -/
def claimsTooMuch : List PairSeq :=
  [⟨"a", "b", 1, some 18446744073709551615⟩, ⟨"a", "b", 5, some 4⟩]

/-- A pair whose second number arrives after its third. -/
def lateArrival : List PairSeq :=
  [⟨"a", "b", 1, none⟩, ⟨"a", "b", 3, some 2⟩, ⟨"a", "b", 2, some 1⟩]

/-- An addition overflows, and a number that arrived late is counted as missing. -/
theorem overflows_and_counts_late :
    verifyPairContinuity .debug claimsTooMuch none = none ∧
      ∃ report finding, verifyPairContinuity .debug lateArrival none = some report ∧
        report["a::b"]? = some finding ∧
        (Finset.Icc 1 3 \ (numbers (bucket "a::b" lateArrival)).toFinset).card <
          finding.gapsDetected.toNat := by
  constructor
  · have stops : (verifyPairContinuity .debug claimsTooMuch none).isNone = true := by decide
    exact Option.isNone_iff_eq_none.mp stops
  · have one : ((verifyPairContinuity .debug lateArrival none).bind (fun report =>
        report["a::b"]?.map PairContinuity.gapsDetected)) = some 1 := by decide
    rcases Option.bind_eq_some_iff.mp one with ⟨report, verified, found⟩
    rcases Option.map_eq_some_iff.mp found with ⟨finding, held, gaps⟩
    refine ⟨report, finding, verified, held, ?_⟩
    rw [gaps]
    decide

end Sequence
end CapsuleEmit
