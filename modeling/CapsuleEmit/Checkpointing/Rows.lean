import CapsuleEmit.Checkpointing.Cutting
import Mathlib.Data.List.Sort

namespace CapsuleEmit
namespace Checkpointing
namespace Substrate

/-!
# Witness rows

Every checkpoint that is cut has a row for each configured witness.  A row is
closed by a receipt, or because the witness is known to hold a later checkpoint
of the log; a row that is permanent for any other reason holds its witness.

The rows of a witness are in the order of the chain.  Where only the first of
them are closed, what is undelivered is what is not closed, in that order.

Any number of runners share the rows.  What each of them keeps is that a row
stays under its witness and size, that one which changes counts an attempt, and
that a closed one never changes again.
-/

structure WitnessReceiptState where
  bytes : Bytes
  entryHash : Option String
  entryHashScheme : Option String
  leafIndex : Option Int
  treeSize : Option Int

structure WitnessState where
  witnessId : String
  checkpointSize : Nat
  checkpoint : Bytes
  attempts : Nat
  nextAttemptAt : Int
  receipt : Option WitnessReceiptState
  permanent : Bool
  lastError : Option String

/-- `WITNESS_AHEAD` -/
def witnessAhead : String := "witness-ahead: accepted size "

def isWitnessAhead (row : WitnessState) : Bool :=
  row.permanent &&
    (row.lastError.map (fun why => witnessAhead.toList.isPrefixOf why.toList)).getD false

/-- Closed, with a receipt or because the witness is ahead. -/
def WitnessState.closed (row : WitnessState) : Bool := row.receipt.isSome || isWitnessAhead row

/-- Permanent for another reason, which holds the witness. -/
def WitnessState.holds (row : WitnessState) : Bool :=
  row.permanent && row.receipt.isNone && !isWitnessAhead row

/-- The rows of a witness. -/
def ownRows (rows : List WitnessState) (witnessId : String) : List WitnessState :=
  rows.filter (fun row => row.witnessId = witnessId)

/-- `undelivered` -/
def undelivered (rows : List WitnessState) (witnessId : String) : List Nat :=
  let own := ownRows rows witnessId
  let closed := ((own.filter WitnessState.closed).map WitnessState.checkpointSize).foldl max 0
  ((own.filter (fun row => closed < row.checkpointSize || row.holds)).map
    WitnessState.checkpointSize).insertionSort (· ≤ ·)

/-- `get_witness` -/
def findRow (rows : List WitnessState) (witnessId : String) (size : Nat) : Option WitnessState :=
  rows.find? (fun row => row.witnessId = witnessId && row.checkpointSize = size)

/-- The rows with one of them replaced. -/
def replaceRow (rows : List WitnessState) (next : WitnessState) : List WitnessState :=
  rows.map (fun row =>
    if row.witnessId = next.witnessId ∧ row.checkpointSize = next.checkpointSize then next
    else row)

/-! ## Rows in the order of the chain -/

/-- Rows of one witness grow, and only the first of them are closed. -/
def Ordered (own : List WitnessState) : Prop :=
  own.Pairwise (fun earlier later => earlier.checkpointSize < later.checkpointSize ∧
    (later.closed = true → earlier.closed = true))

/-- The sizes of the rows that are not closed. -/
def openSizes (own : List WitnessState) : List Nat :=
  (own.filter (fun row => !row.closed)).map WitnessState.checkpointSize

theorem WitnessState.not_closed_of_holds {row : WitnessState} (held : row.holds = true) :
    row.closed = false := by
  rw [holds, Bool.and_eq_true, Bool.and_eq_true, Bool.not_eq_true', Option.isNone_iff_eq_none]
    at held
  rw [closed, held.1.2, held.2]
  rfl

theorem foldl_max_lt_iff (sizes : List Nat) (start bound : Nat) :
    sizes.foldl max start < bound ↔ start < bound ∧ ∀ size ∈ sizes, size < bound := by
  induction sizes generalizing start with
  | nil => simp
  | cons size sizes ih =>
      rw [List.foldl_cons, ih, Nat.max_lt, List.forall_mem_cons, and_assoc]

/-- A row of an ordered list is past every closed one, or holds, exactly when it is not
closed. -/
theorem past_closed_iff {own : List WitnessState} (ordered : Ordered own)
    (positive : ∀ row ∈ own, 0 < row.checkpointSize) {row : WitnessState} (inside : row ∈ own) :
    (((own.filter WitnessState.closed).map WitnessState.checkpointSize).foldl max 0 <
      row.checkpointSize ∨ row.holds = true) ↔ row.closed = false := by
  rw [foldl_max_lt_iff]
  constructor
  · rintro (⟨-, past⟩ | held)
    · rw [← Bool.not_eq_true]
      intro closed
      exact Nat.lt_irrefl _ (past _ (List.mem_map_of_mem (List.mem_filter.mpr ⟨inside, closed⟩)))
    · exact WitnessState.not_closed_of_holds held
  · intro opened
    refine Or.inl ⟨positive row inside, fun size listed => ?_⟩
    rcases List.mem_map.mp listed with ⟨other, member, rfl⟩
    rcases List.mem_filter.mp member with ⟨there, closed⟩
    -- A closed row is not behind an open one, so it is before it.
    rcases List.mem_iff_append.mp inside with ⟨front, back, rfl⟩
    have parts := List.pairwise_append.mp ordered
    rcases List.mem_append.mp there with before | behind
    · exact (parts.2.2 other before row List.mem_cons_self).1
    · rcases List.mem_cons.mp behind with rfl | later
      · rw [opened] at closed
        cases closed
      · have order := (List.pairwise_cons.mp parts.2.1).1 other later
        rw [order.2 closed] at opened
        cases opened

/-- What is undelivered to a witness with ordered rows is what is not closed, in order. -/
theorem undelivered_eq {rows : List WitnessState} {witnessId : String}
    (ordered : Ordered (ownRows rows witnessId))
    (positive : ∀ row ∈ ownRows rows witnessId, 0 < row.checkpointSize) :
    undelivered rows witnessId = openSizes (ownRows rows witnessId) := by
  simp only [undelivered]
  have same : (ownRows rows witnessId).filter (fun row =>
      decide (((((ownRows rows witnessId).filter WitnessState.closed).map
        WitnessState.checkpointSize).foldl max 0) < row.checkpointSize) || row.holds) =
      (ownRows rows witnessId).filter (fun row => !row.closed) := by
    apply List.filter_congr
    intro row inside
    have past := past_closed_iff ordered positive inside
    rw [Bool.eq_iff_iff, Bool.or_eq_true, decide_eq_true_eq, past, Bool.not_eq_true']
  rw [same, openSizes]
  apply List.Pairwise.insertionSort_eq
  rw [List.pairwise_map]
  exact (ordered.sublist List.filter_sublist).imp (fun order => Nat.le_of_lt order.1)

/-! ## Finding a row -/

/-- Rows of an ordered list at one size are one row. -/
theorem Ordered.unique {own : List WitnessState} (ordered : Ordered own) {row other : WitnessState}
    (inside : row ∈ own) (there : other ∈ own) (same : row.checkpointSize = other.checkpointSize) :
    row = other := by
  by_contra differ
  have symmetric : Std.Symm
      (fun row other : WitnessState => row.checkpointSize ≠ other.checkpointSize) :=
    ⟨fun _ _ => Ne.symm⟩
  have distinct := ordered.imp (fun order => Nat.ne_of_lt order.1)
  exact distinct.forall inside there differ same

theorem mem_ownRows {rows : List WitnessState} {witnessId : String} {row : WitnessState} :
    row ∈ ownRows rows witnessId ↔ row ∈ rows ∧ row.witnessId = witnessId := by
  rw [ownRows, List.mem_filter, decide_eq_true_eq]

/-- The row that is found is one of the witness at that size. -/
theorem findRow_eq_some {rows : List WitnessState} {witnessId : String} {size : Nat}
    {row : WitnessState} (found : findRow rows witnessId size = some row) :
    row ∈ ownRows rows witnessId ∧ row.checkpointSize = size := by
  have key := List.find?_some found
  rw [Bool.and_eq_true, decide_eq_true_eq, decide_eq_true_eq] at key
  exact ⟨mem_ownRows.mpr ⟨List.mem_of_find?_eq_some found, key.1⟩, key.2⟩

theorem findRow_eq_none {rows : List WitnessState} {witnessId : String} {size : Nat}
    (missing : findRow rows witnessId size = none) {row : WitnessState}
    (inside : row ∈ ownRows rows witnessId) : row.checkpointSize ≠ size := by
  have other := List.find?_eq_none.mp missing row (mem_ownRows.mp inside).1
  rw [Bool.and_eq_true, decide_eq_true_eq, decide_eq_true_eq] at other
  exact fun same => other ⟨(mem_ownRows.mp inside).2, same⟩

/-- A row of a witness with ordered rows is the one that is found. -/
theorem findRow_of_mem {rows : List WitnessState} {witnessId : String} {row : WitnessState}
    (ordered : Ordered (ownRows rows witnessId)) (inside : row ∈ ownRows rows witnessId) :
    findRow rows witnessId row.checkpointSize = some row := by
  cases found : findRow rows witnessId row.checkpointSize with
  | none => exact absurd rfl (findRow_eq_none found inside)
  | some other =>
      have key := findRow_eq_some found
      rw [ordered.unique key.1 inside key.2]

/-! ## What runners keep -/

/-- A row as it is, or changed with an attempt counted; a closed one is as it is. -/
structure Keep (row next : WitnessState) : Prop where
  witness : next.witnessId = row.witnessId
  size : next.checkpointSize = row.checkpointSize
  cut : next.checkpoint = row.checkpoint
  changed : next = row ∨ row.attempts < next.attempts
  closed : row.closed = true → next = row

theorem Keep.refl (row : WitnessState) : Keep row row :=
  ⟨rfl, rfl, rfl, Or.inl rfl, fun _ => rfl⟩

theorem Keep.trans {first second third : WitnessState} (one : Keep first second)
    (two : Keep second third) : Keep first third where
  witness := two.witness.trans one.witness
  size := two.size.trans one.size
  cut := two.cut.trans one.cut
  changed := by
    rcases one.changed with rfl | more
    · exact two.changed
    · rcases two.changed with rfl | further
      · exact Or.inr more
      · exact Or.inr (Nat.lt_trans more further)
  closed := by
    intro closed
    have same := one.closed closed
    rw [same] at two
    exact two.closed closed

/-- Rows stay ordered, each kept. -/
structure Onward (rows rows' : List WitnessState) : Prop where
  keep : List.Forall₂ Keep rows rows'
  ordered : (∀ witnessId, Ordered (ownRows rows witnessId)) →
    ∀ witnessId, Ordered (ownRows rows' witnessId)

theorem Onward.refl (rows : List WitnessState) : Onward rows rows :=
  ⟨List.forall₂_same.mpr fun row _ => Keep.refl row, id⟩

theorem Onward.trans {rows rows' rows'' : List WitnessState} (one : Onward rows rows')
    (two : Onward rows' rows'') : Onward rows rows'' where
  keep := by
    have total : ∀ {first second third : List WitnessState}, List.Forall₂ Keep first second →
        List.Forall₂ Keep second third → List.Forall₂ Keep first third := by
      intro first second third front back
      induction front generalizing third with
      | nil =>
          cases back
          exact List.Forall₂.nil
      | cons kept _ ih =>
          cases back with
          | cons further rest => exact List.Forall₂.cons (kept.trans further) (ih rest)
    exact total one.keep two.keep
  ordered := fun before => two.ordered (one.ordered before)

/-- The rows of a witness are kept among themselves. -/
theorem forall₂_ownRows {rows rows' : List WitnessState} (keep : List.Forall₂ Keep rows rows')
    (witnessId : String) : List.Forall₂ Keep (ownRows rows witnessId) (ownRows rows' witnessId) := by
  induction keep with
  | nil => exact List.Forall₂.nil
  | @cons row next _ _ kept _ ih =>
      simp only [ownRows]
      by_cases own : row.witnessId = witnessId
      · rw [List.filter_cons_of_pos (by simpa using own),
          List.filter_cons_of_pos (by simpa [kept.witness] using own)]
        exact List.Forall₂.cons kept ih
      · rw [List.filter_cons_of_neg (by simpa using own),
          List.filter_cons_of_neg (by simpa [kept.witness] using own)]
        exact ih

/-- What a row has become, and what a row was. -/
theorem exists_of_forall₂_keep {rows rows' : List WitnessState}
    (keep : List.Forall₂ Keep rows rows') :
    (∀ row ∈ rows, ∃ next ∈ rows', Keep row next) ∧
      ∀ next ∈ rows', ∃ row ∈ rows, Keep row next := by
  induction keep with
  | nil => exact ⟨fun _ inside => (by cases inside), fun _ inside => (by cases inside)⟩
  | cons kept _ ih =>
      constructor
      · intro row inside
        rcases List.mem_cons.mp inside with rfl | later
        · exact ⟨_, List.mem_cons_self, kept⟩
        · rcases ih.1 row later with ⟨next, there, same⟩
          exact ⟨next, List.mem_cons_of_mem _ there, same⟩
      · intro next inside
        rcases List.mem_cons.mp inside with rfl | later
        · exact ⟨_, List.mem_cons_self, kept⟩
        · rcases ih.2 next later with ⟨row, there, same⟩
          exact ⟨row, List.mem_cons_of_mem _ there, same⟩

/-- Every row of a witness under a size is closed. -/
def ClosedBelow (rows : List WitnessState) (witnessId : String) (size : Nat) : Prop :=
  ∀ row ∈ ownRows rows witnessId, row.checkpointSize < size → row.closed = true

theorem Onward.closedBelow {rows rows' : List WitnessState} (onward : Onward rows rows')
    {witnessId : String} {size : Nat} (below : ClosedBelow rows witnessId size) :
    ClosedBelow rows' witnessId size := by
  intro next inside less
  rcases (exists_of_forall₂_keep (forall₂_ownRows onward.keep witnessId)).2 next inside with
    ⟨row, there, kept⟩
  have closed := below row there (kept.size ▸ less)
  rw [kept.closed closed]
  exact closed

/-! ## Replacing a row -/

/-- Replacing a row of a witness replaces it among the rows of the witness. -/
theorem ownRows_replaceRow (rows : List WitnessState) (next : WitnessState) (witnessId : String) :
    ownRows (replaceRow rows next) witnessId = replaceRow (ownRows rows witnessId) next := by
  induction rows with
  | nil => rfl
  | cons row rows ih =>
      simp only [replaceRow, List.map_cons, ownRows] at ih ⊢
      have kept : (if row.witnessId = next.witnessId ∧ row.checkpointSize = next.checkpointSize
          then next else row).witnessId = row.witnessId := by
        split
        · next same => exact same.1.symm
        · rfl
      by_cases own : row.witnessId = witnessId
      · rw [List.filter_cons_of_pos (by simpa [kept] using own),
          List.filter_cons_of_pos (by simpa using own), List.map_cons, ih]
      · rw [List.filter_cons_of_neg (by simpa [kept] using own),
          List.filter_cons_of_neg (by simpa using own), ih]

/-- A runner may replace an open row with an attempt counted, and may close it when every row
of the witness under it is closed. -/
theorem onward_replaceRow {rows : List WitnessState} {row next : WitnessState}
    (ordered : Ordered (ownRows rows row.witnessId)) (inside : row ∈ rows)
    (opened : row.closed = false) (witness : next.witnessId = row.witnessId)
    (size : next.checkpointSize = row.checkpointSize) (cut : next.checkpoint = row.checkpoint)
    (attempt : row.attempts < next.attempts)
    (below : next.closed = true → ClosedBelow rows row.witnessId row.checkpointSize) :
    Onward rows (replaceRow rows next) := by
  have only : ∀ other ∈ rows, other.witnessId = next.witnessId ∧
      other.checkpointSize = next.checkpointSize → other = row := by
    rintro other there ⟨owner, same⟩
    exact ordered.unique (mem_ownRows.mpr ⟨there, owner.trans witness⟩)
      (mem_ownRows.mpr ⟨inside, rfl⟩) (same.trans size)
  constructor
  case keep =>
    rw [replaceRow, List.forall₂_map_right_iff]
    apply List.forall₂_same.mpr
    intro other there
    by_cases key : other.witnessId = next.witnessId ∧ other.checkpointSize = next.checkpointSize
    · rw [if_pos key, only other there key]
      exact ⟨witness, size, cut, Or.inr attempt, fun closed => by rw [opened] at closed; cases closed⟩
    · rw [if_neg key]
      exact Keep.refl other
  case ordered =>
    intro before witnessId
    rw [ownRows_replaceRow, replaceRow, Ordered, List.pairwise_map]
    apply (before witnessId).imp_of_mem
    intro earlier later here there order
    have sized : ∀ other : WitnessState, (if other.witnessId = next.witnessId ∧
        other.checkpointSize = next.checkpointSize then next else other).checkpointSize =
          other.checkpointSize := by
      intro other
      split
      · next key => exact key.2.symm
      · rfl
    rw [sized, sized]
    refine ⟨order.1, fun closed => ?_⟩
    have owned := mem_ownRows.mp here
    by_cases replaced : later.witnessId = next.witnessId ∧
        later.checkpointSize = next.checkpointSize
    · rw [if_pos replaced] at closed
      -- The row that is closed now has only closed rows under it.
      have same := only later (mem_ownRows.mp there).1 replaced
      rw [same] at order there
      have under := below closed earlier (mem_ownRows.mpr
        ⟨owned.1, owned.2.trans (mem_ownRows.mp there).2.symm⟩) order.1
      rw [if_neg (fun key => Nat.ne_of_lt order.1 (key.2.trans size))]
      exact under
    · rw [if_neg replaced] at closed
      have under := order.2 closed
      split
      · next key =>
          rw [only earlier owned.1 key, opened] at under
          cases under
      · exact under

end Substrate
end Checkpointing
end CapsuleEmit
