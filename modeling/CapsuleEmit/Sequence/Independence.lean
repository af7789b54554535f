import CapsuleEmit.Sequence.Arithmetic

namespace CapsuleEmit
namespace Sequence

/-!
# Pairs that share a key

Pairs are told apart by a key that joins their two names.  Names that contain the
separator can join to one key, and an empty counterparty joins as the unknown one.
What a walk reports about a pair, and what a store issues to it, depends on the
pair's own records alone exactly as long as no other pair has its key.
-/

open Std (TreeMap)

variable {checks : Checks}

/-! ## Findings -/

/-- The record was sealed under the pair. -/
def OfPair (selfId counterpartyId : String) (record : PairSeq) : Prop :=
  record.selfId = selfId ∧ record.counterpartyId = counterpartyId

instance (selfId counterpartyId : String) (record : PairSeq) :
    Decidable (OfPair selfId counterpartyId record) :=
  inferInstanceAs (Decidable (_ ∧ _))

/-- The records of a pair. -/
def ownRecords (selfId counterpartyId : String) (records : List PairSeq) : List PairSeq :=
  records.filter (fun record => OfPair selfId counterpartyId record)

/-- No other pair among the records has the key of the pair. -/
def Unshared (selfId counterpartyId : String) (records : List PairSeq) : Prop :=
  ∀ record ∈ records, record.key = pairKey selfId counterpartyId →
    OfPair selfId counterpartyId record

theorem key_of_ofPair {selfId counterpartyId : String} {record : PairSeq}
    (own : OfPair selfId counterpartyId record) :
    record.key = pairKey selfId counterpartyId := by
  rw [PairSeq.key, own.1, own.2]

theorem bucket_ownRecords (selfId counterpartyId : String) (records : List PairSeq) :
    bucket (pairKey selfId counterpartyId) (ownRecords selfId counterpartyId records) =
      ownRecords selfId counterpartyId records := by
  apply List.filter_eq_self.mpr
  intro record inside
  rw [ownRecords, List.mem_filter, decide_eq_true_eq] at inside
  exact decide_eq_true (key_of_ofPair inside.2)

/-- The records with the key of a pair are its own exactly when the key is not shared. -/
theorem bucket_eq_ownRecords_iff (selfId counterpartyId : String) (records : List PairSeq) :
    (bucket (pairKey selfId counterpartyId) records).length =
        (ownRecords selfId counterpartyId records).length ↔
      Unshared selfId counterpartyId records := by
  have part : ownRecords selfId counterpartyId records =
      (bucket (pairKey selfId counterpartyId) records).filter
        (fun record => OfPair selfId counterpartyId record) := by
    rw [bucket, List.filter_filter, ownRecords]
    apply List.filter_congr
    intro record _
    by_cases own : OfPair selfId counterpartyId record
    · simp [own, key_of_ofPair own]
    · simp [own]
  rw [part, eq_comm, List.length_filter_eq_length_iff]
  constructor
  · intro every record inside same
    exact of_decide_eq_true (every record (List.mem_filter.mpr ⟨inside, decide_eq_true same⟩))
  · intro unshared record inside
    rcases List.mem_filter.mp inside with ⟨member, same⟩
    exact decide_eq_true (unshared record member (of_decide_eq_true same))

theorem eq_of_finding_eq {left right : List PairSeq} {unbroken key : String}
    (shortLeft : left.length < UInt64.size) (shortRight : right.length < UInt64.size)
    (same : (standingOf left).finding unbroken key = (standingOf right).finding unbroken key) :
    left.length = right.length := by
  have counts : (standingOf left).count = (standingOf right).count := by
    have mapped := congrArg (Option.map PairContinuity.recordsChecked) same
    simpa [Standing.finding, Option.map_map, Function.comp_def] using mapped
  have numbers := congrArg (fun count => (count.getD 0).toNat) counts
  simp only [standingOf_count_toNat] at numbers
  rwa [Nat.mod_eq_of_lt shortLeft, Nat.mod_eq_of_lt shortRight] at numbers

/-! ## Counters -/

/-- The calls that change a store of counters. -/
inductive CounterOp where
  | nextSeq (selfId counterpartyId : String)
  | commit (selfId counterpartyId : String) (assignment : SequenceAssignment)

def CounterOp.selfId : CounterOp → String
  | .nextSeq selfId _ => selfId
  | .commit selfId _ _ => selfId

def CounterOp.counterpartyId : CounterOp → String
  | .nextSeq _ counterpartyId => counterpartyId
  | .commit _ counterpartyId _ => counterpartyId

def CounterOp.key (op : CounterOp) : String := pairKey op.selfId op.counterpartyId

/-- The store after a call, if the build goes on. -/
def applyOp (checks : Checks) (store : SequenceCounterStore) :
    CounterOp → Option SequenceCounterStore
  | .nextSeq selfId counterpartyId => (store.nextSeq checks selfId counterpartyId).map Prod.snd
  | .commit selfId counterpartyId assignment =>
      some (store.commit selfId counterpartyId assignment)

/-- A call sets the counter of its own key, from that counter alone. -/
theorem applyOp_spec {store after : SequenceCounterStore} {op : CounterOp}
    (applied : applyOp checks store op = some after) (other : SequenceCounterStore) :
    (∀ key, key ≠ op.key → after[key]? = store[key]?) ∧
      (store[op.key]? = other[op.key]? → ∃ after', applyOp checks other op = some after' ∧
        after'[op.key]? = after[op.key]?) := by
  cases op with
  | nextSeq selfId counterpartyId =>
      rcases Option.map_eq_some_iff.mp applied with ⟨pair, issued, rfl⟩
      rcases Option.map_eq_some_iff.mp issued with ⟨seq, added, rfl⟩
      refine ⟨fun key different => ?_, fun same => ?_⟩
      · exact (getElem?_set ..).trans (if_neg (Ne.symm different))
      · refine ⟨other.insert (pairKey selfId counterpartyId) seq, ?_, ?_⟩
        · have same' : other[pairKey selfId counterpartyId]? =
              store[pairKey selfId counterpartyId]? := same.symm
          rw [applyOp, SequenceCounterStore.nextSeq, same', added]
          rfl
        · exact ((getElem?_set ..).trans (if_pos rfl)).trans
            ((getElem?_set ..).trans (if_pos rfl)).symm
  | commit selfId counterpartyId assignment =>
      rw [← Option.some.inj applied]
      refine ⟨fun key different => ?_, fun _ => ⟨_, rfl, ?_⟩⟩
      · exact (getElem?_set ..).trans (if_neg (Ne.symm different))
      · exact ((getElem?_set ..).trans (if_pos rfl)).trans
          ((getElem?_set ..).trans (if_pos rfl)).symm

/-- The calls made for a pair. -/
def ownOps (selfId counterpartyId : String) (ops : List CounterOp) : List CounterOp :=
  ops.filter (fun op => op.selfId = selfId ∧ op.counterpartyId = counterpartyId)

/-- Calls of other keys do not change what a key's own calls make of its counter. -/
theorem foldlM_own {selfId counterpartyId : String} {ops : List CounterOp}
    (unshared : ∀ op ∈ ops, op.key = pairKey selfId counterpartyId →
      op.selfId = selfId ∧ op.counterpartyId = counterpartyId)
    {store other after : SequenceCounterStore}
    (same : store[pairKey selfId counterpartyId]? = other[pairKey selfId counterpartyId]?)
    (ran : ops.foldlM (applyOp checks) store = some after) :
    ∃ after', (ownOps selfId counterpartyId ops).foldlM (applyOp checks) other = some after' ∧
      after'[pairKey selfId counterpartyId]? = after[pairKey selfId counterpartyId]? := by
  induction ops generalizing store other with
  | nil =>
      rw [← Option.some.inj ran]
      exact ⟨other, rfl, same.symm⟩
  | cons op ops ih =>
      rw [List.foldlM_cons] at ran
      rcases Option.bind_eq_some_iff.mp ran with ⟨middle, applied, rest⟩
      have later : ∀ op' ∈ ops, op'.key = pairKey selfId counterpartyId →
          op'.selfId = selfId ∧ op'.counterpartyId = counterpartyId :=
        fun op' inside => unshared op' (List.mem_cons_of_mem op inside)
      by_cases own : op.selfId = selfId ∧ op.counterpartyId = counterpartyId
      · have key : op.key = pairKey selfId counterpartyId := by rw [CounterOp.key, own.1, own.2]
        rw [← key] at same
        rcases (applyOp_spec applied other).2 same with ⟨middle', applied', same'⟩
        rw [key] at same'
        rcases ih later same'.symm rest with ⟨after', ran', kept⟩
        refine ⟨after', ?_, kept⟩
        rw [ownOps, List.filter_cons, if_pos (decide_eq_true own), List.foldlM_cons, applied']
        exact ran'
      · have different : pairKey selfId counterpartyId ≠ op.key :=
          fun key => own (unshared op List.mem_cons_self key.symm)
        have same' := ((applyOp_spec applied other).1 _ different).trans same
        rcases ih later same' rest with ⟨after', ran', kept⟩
        refine ⟨after', ?_, kept⟩
        rw [ownOps, List.filter_cons, if_neg (by simpa using own)]
        exact ran'

/-! ## Independence -/

/-- A pair is reported as its own records alone would be exactly when no other pair
of the list has its key.  A store issues to a pair what it would have issued after
the pair's own calls alone, if no other pair that it was called for has the key. -/
theorem pair_independence (selfId counterpartyId : String) :
    let key := pairKey selfId counterpartyId
    (∀ records, ∃ report, verifyPairContinuity .release records none = some report) ∧
    (∀ records : List PairSeq, records.length < UInt64.size → ∀ checks report alone,
      verifyPairContinuity checks records none = some report →
      verifyPairContinuity checks (ownRecords selfId counterpartyId records) none = some alone →
        (report[key]? = alone[key]? ↔ Unshared selfId counterpartyId records)) ∧
      ∀ checks ops store, ops.foldlM (applyOp checks) ∅ = some store →
        (∀ op ∈ ops, op.key = key →
          op.selfId = selfId ∧ op.counterpartyId = counterpartyId) →
          ∃ alone, (ownOps selfId counterpartyId ops).foldlM (applyOp checks) ∅ = some alone ∧
            (store.nextSeq checks selfId counterpartyId).map Prod.fst =
              (alone.nextSeq checks selfId counterpartyId).map Prod.fst := by
  intro key
  refine ⟨fun records => verifyPairContinuity_total (Or.inl rfl) none,
    fun records short checks report alone verified verifiedAlone => ?_,
    fun checks ops store ran unshared => ?_⟩
  · rcases verifyPairContinuity_getElem? verified with ⟨total, entries⟩
    rcases verifyPairContinuity_getElem? verifiedAlone with ⟨total', entries'⟩
    rw [entries key, entries' key, bucket_ownRecords]
    constructor
    · intro same
      have part := Nat.lt_of_le_of_lt (length_bucket_le key records) short
      have part' := Nat.lt_of_le_of_lt (List.length_filter_le
        (fun record => OfPair selfId counterpartyId record) records) short
      exact (bucket_eq_ownRecords_iff ..).mp (eq_of_finding_eq part part' same)
    · intro unshared
      have every : bucket key records = ownRecords selfId counterpartyId records := by
        apply List.filter_congr
        intro record inside
        rw [decide_eq_decide]
        exact ⟨unshared record inside, key_of_ofPair⟩
      rw [every]
      rfl
  · rcases foldlM_own unshared rfl ran with ⟨alone, ran', same⟩
    refine ⟨alone, ran', ?_⟩
    simp only [SequenceCounterStore.nextSeq, Option.map_map, Function.comp_def, same]

theorem numberedPair_independence :
    (∀ checks report alone, verifyPairContinuity checks numberedPair none = some report →
      verifyPairContinuity checks (ownRecords "a" "b" numberedPair) none = some alone →
        (report[pairKey "a" "b"]? = alone[pairKey "a" "b"]? ↔ Unshared "a" "b" numberedPair)) ∧
      ∃ alone, (ownOps "a" "b" [.nextSeq "a" "b", .nextSeq "a" "c"]).foldlM
        (applyOp .debug) ∅ = some alone := by
  have independence := pair_independence "a" "b"
  refine ⟨independence.2.1 numberedPair (by decide), ?_⟩
  have ran : ([.nextSeq "a" "b", .nextSeq "a" "c"].foldlM (applyOp .debug) ∅).isSome = true := by
    decide
  rcases Option.isSome_iff_exists.mp ran with ⟨store, ran⟩
  rcases independence.2.2 .debug _ store ran (by decide) with ⟨alone, ranAlone, -⟩
  exact ⟨alone, ranAlone⟩

/-- The records of one pair, and with those of a pair that has its key. -/
def alonePair : List PairSeq := [⟨"a", "b::c", 1, none⟩]

def sharedKey : List PairSeq := [⟨"a", "b::c", 1, none⟩, ⟨"a::b", "c", 1, none⟩]

/-- Another pair's record changes what is reported about a pair, and its counter. -/
theorem shared_key_leaks :
    ownRecords "a" "b::c" alonePair = ownRecords "a" "b::c" sharedKey ∧
      (∃ report report', verifyPairContinuity .release alonePair none = some report ∧
        verifyPairContinuity .release sharedKey none = some report' ∧
        report[pairKey "a" "b::c"]? ≠ report'[pairKey "a" "b::c"]?) ∧
      ∃ store issued issued', applyOp .release ∅ (.nextSeq "a::b" "c") = some store ∧
        SequenceCounterStore.nextSeq .release ∅ "a" "b::c" = some issued ∧
        store.nextSeq .release "a" "b::c" = some issued' ∧ issued.1 ≠ issued'.1 := by
  have one : ((verifyPairContinuity .release alonePair none).bind (fun report =>
      report[pairKey "a" "b::c"]?.map PairContinuity.recordsChecked)) = some 1 := by decide
  have two : ((verifyPairContinuity .release sharedKey none).bind (fun report =>
      report[pairKey "a" "b::c"]?.map PairContinuity.recordsChecked)) = some 2 := by decide
  refine ⟨by decide, ?_, ?_⟩
  · rcases Option.bind_eq_some_iff.mp one with ⟨report, verified, first⟩
    rcases Option.bind_eq_some_iff.mp two with ⟨report', verified', second⟩
    refine ⟨report, report', verified, verified', fun same => ?_⟩
    rw [same, second] at first
    exact absurd first (by decide)
  · exact ⟨_, _, _, rfl, rfl, rfl, by decide⟩

end Sequence
end CapsuleEmit
