import CapsuleEmit.Foundation.TreeTable
import Mathlib.Tactic.Common

namespace CapsuleEmit
namespace Sequence

/-!
# Sequence numbers of pairs

Each record that a node seals under a pair of itself and a counterparty carries a
number and the number before it.  A store of counters issues the numbers.  A
verifier walks records in the order given and reports, for each pair, whether its
numbers regress or their links lie, and how many are missing.

Unsigned arithmetic is `u64`.  A build with overflow checks stops where a result
leaves the range, one without them wraps around.
-/

open Std (TreeMap)

/-! ## Arithmetic -/

/-- Which operations a build checks. -/
structure Checks where
  add : Bool
  sub : Bool

namespace Checks

/-- A build with overflow checks. -/
def debug : Checks := ⟨true, true⟩

/-- A build without overflow checks. -/
def release : Checks := ⟨false, false⟩

/-- `left + right`, if the build goes on. -/
def plus (checks : Checks) (left right : UInt64) : Option UInt64 :=
  if checks.add && decide (UInt64.size ≤ left.toNat + right.toNat) then none
  else some (left + right)

/-- `left - right`, if the build goes on. -/
def minus (checks : Checks) (left right : UInt64) : Option UInt64 :=
  if checks.sub && decide (left < right) then none else some (left - right)

end Checks

/-! ## Pairs -/

def unknownCounterparty : String := "unknown"

/-- The key of a pair; an empty counterparty is the unknown one. -/
def pairKey (selfId counterpartyId : String) : String :=
  selfId ++ "::" ++ if counterpartyId.isEmpty then unknownCounterparty else counterpartyId

/-! ## Counters -/

/-- The numbers issued for one record. -/
structure SequenceAssignment where
  seq : UInt64
  prevSeq : Option UInt64
deriving DecidableEq, Repr

/-- The last number issued for each pair. -/
abbrev SequenceCounterStore := TreeMap String UInt64

/-- The assignment the next record of a pair gets. -/
def SequenceCounterStore.peek (checks : Checks) (store : SequenceCounterStore)
    (selfId counterpartyId : String) : Option SequenceAssignment :=
  let prevSeq := store[pairKey selfId counterpartyId]?
  (checks.plus (prevSeq.getD 0) 1).map (fun seq => ⟨seq, prevSeq⟩)

/-- Takes an assignment as used. -/
def SequenceCounterStore.commit (store : SequenceCounterStore) (selfId counterpartyId : String)
    (assignment : SequenceAssignment) : SequenceCounterStore :=
  store.insert (pairKey selfId counterpartyId) assignment.seq

/-- Issues the next number of a pair. -/
def SequenceCounterStore.nextSeq (checks : Checks) (store : SequenceCounterStore)
    (selfId counterpartyId : String) : Option (SequenceAssignment × SequenceCounterStore) :=
  let key := pairKey selfId counterpartyId
  let prevSeq := store[key]?
  (checks.plus (prevSeq.getD 0) 1).map (fun seq => (⟨seq, prevSeq⟩, store.insert key seq))

/-! ## Continuity -/

/-- What a verifier reads of one sealed record. -/
structure PairSeq where
  selfId : String
  counterpartyId : String
  seq : UInt64
  prevSeq : Option UInt64
deriving DecidableEq, Repr

def PairSeq.key (record : PairSeq) : String := pairKey record.selfId record.counterpartyId

/-- The finding about one pair. -/
structure PairContinuity where
  pair : String
  continuity : String
  gapsDetected : UInt64
  recordsChecked : UInt64
deriving DecidableEq, Repr

/-- The tables a walk keeps, each by the key of the pair. -/
structure Walk where
  lastSeq : TreeMap String UInt64
  gaps : TreeMap String UInt64
  broken : TreeMap String String
  counts : TreeMap String UInt64

def Walk.empty : Walk := ⟨∅, ∅, ∅, ∅⟩

def showOption : Option UInt64 → String
  | none => "None"
  | some n => "Some(" ++ toString n ++ ")"

def mislinkedText (record : PairSeq) : String :=
  "broken at seq=" ++ toString record.seq ++ ": prev_seq=" ++ showOption record.prevSeq ++
    " does not precede it"

def regressionText (record : PairSeq) (prior : UInt64) : String :=
  "broken at seq=" ++ toString record.seq ++ ": not greater than prior seq=" ++ toString prior

def truncatedText (covered total : UInt64) : String :=
  "broken: checkpoint covers " ++ toString covered ++ " pair-sequenced records but only " ++
    toString total ++ " were presented"

/-- What is said of a pair in which nothing broke. -/
def unbrokenText (checkpointCoveredCount : Option UInt64) (totalChecked : UInt64) : String :=
  match checkpointCoveredCount with
  | some expected =>
      if totalChecked < expected then truncatedText expected totalChecked else "unbroken"
  | none => "unbroken"

section

variable (checks : Checks)

/-- Adds to the number at a key, which starts at zero. -/
def bump (table : TreeMap String UInt64) (key : String) (amount : UInt64) :
    Option (TreeMap String UInt64) :=
  (checks.plus (table[key]?.getD 0) amount).map (table.insert key)

/-- Whether a record's two numbers are ones a counter would have issued. -/
def selfConsistent (record : PairSeq) : Option Bool :=
  match record.prevSeq with
  | none => some (record.seq ≤ 1)
  | some prevSeq =>
      if 1 ≤ record.seq then (checks.minus record.seq 1).map (fun before => prevSeq == before)
      else some false

/-- The numbers between the highest so far and a higher one are missing. -/
def countGap (gaps : TreeMap String UInt64) (record : PairSeq) (prior : UInt64) :
    Option (TreeMap String UInt64) := do
  let next ← checks.plus prior 1
  if next < record.seq then
    let past ← checks.minus record.seq prior
    let missing ← checks.minus past 1
    bump checks gaps record.key missing
  else some gaps

/-- Compares a record with the highest number of its pair so far. -/
def comparePrior (walk : Walk) (record : PairSeq) : Option Walk :=
  match walk.lastSeq[record.key]?, record.prevSeq with
  | none, some prevSeq =>
      (bump checks walk.gaps record.key prevSeq).map (fun gaps => { walk with gaps })
  | some prior, _ =>
      if record.seq ≤ prior then
        some { walk with
          broken := walk.broken.insertIfNew record.key (regressionText record prior) }
      else (countGap checks walk.gaps record prior).map (fun gaps => { walk with gaps })
  | none, none => some walk

/-- One record of the walk. -/
def visit (walk : Walk) (record : PairSeq) : Option Walk := do
  let counts ← bump checks walk.counts record.key 1
  let consistent ← selfConsistent checks record
  let broken :=
    if consistent then walk.broken
    else walk.broken.insertIfNew record.key (mislinkedText record)
  let compared ← comparePrior checks { walk with counts, broken } record
  return { compared with
    lastSeq := compared.lastSeq.insert record.key
      (max (compared.lastSeq[record.key]?.getD 0) record.seq) }

/-- Walks the records in the order given and reports on each pair. -/
def verifyPairContinuity (records : List PairSeq) (checkpointCoveredCount : Option UInt64) :
    Option (TreeMap String PairContinuity) := do
  let walk ← records.foldlM (visit checks) .empty
  let totalChecked ← (walk.counts.toList.map Prod.snd).foldlM checks.plus 0
  return walk.counts.map (fun key recordsChecked =>
    { pair := key
      continuity := walk.broken[key]?.getD (unbrokenText checkpointCoveredCount totalChecked)
      gapsDetected := walk.gaps[key]?.getD 0
      recordsChecked })

end

end Sequence
end CapsuleEmit
