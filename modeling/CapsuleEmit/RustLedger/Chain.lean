import CapsuleEmit.Foundation.Succession
import CapsuleEmit.RustLedger.Reopen

namespace CapsuleEmit
namespace RustLedger

/-!
# The chain of a ledger

Every record that is not padding names the one before it by its Capsule ID,
which binds the name.  So no Capsule ID is on the chain twice, and the index
has each line of it.
-/

variable {packages : Packages} {indexer : Value → List String}

/-- A record with this Capsule ID names `parent` as its chain parent. -/
def Names (packages : Packages) (id : String) (parent : Option String) : Prop :=
  ∃ record, computeCapsuleId packages record = .ok id ∧ parentOf record = parent

/-- Records with one Capsule ID have one chain parent. -/
def Packages.Binding (packages : Packages) : Prop :=
  ∀ left right id, computeCapsuleId packages left = .ok id →
    computeCapsuleId packages right = .ok id → parentOf left = parentOf right

/-- The lines on the chain. -/
def Ledger.chained (ledger : Ledger) : List LedgerLine :=
  ledger.lines.filter (fun line => !line.padding)

/-- The lines on the chain name the one before them, the last is the head and all are indexed. -/
structure Threaded (packages : Packages) (ledger : Ledger) : Prop where
  head : ledger.chainHead = (ledger.chained.map LedgerLine.capsuleId).getLast?
  linked : Succession.Linked (Names packages) (ledger.chained.map LedgerLine.capsuleId).reverse
  indexed : ∀ line ∈ ledger.chained, ∃ other ∈ ledger.chained,
    other.capsuleId = line.capsuleId ∧ ledger.index line.capsuleId = some other.offset

theorem chained_enter (ledger : Ledger) (id : String) (offset : Nat) (record : Value) :
    (ledger.enter indexer id offset record).chained =
      if isPadding record then ledger.chained
      else ledger.chained ++ [LedgerLine.new id offset record] := by
  rw [Ledger.chained, Ledger.enter_lines, List.filter_append, Ledger.chained]
  cases padding : isPadding record <;> simp [LedgerLine.new, padding]

theorem threaded_enter (ledger : Ledger) (record : Value) (id : String) (offset : Nat)
    (statement : Bytes) (admissible : Admissible packages ledger record id statement)
    (threaded : Threaded packages ledger) :
    Threaded packages (ledger.enter indexer id offset record) := by
  cases padding : isPadding record with
  | true =>
      have chained := @chained_enter indexer ledger id offset record
      rw [if_pos padding] at chained
      refine ⟨?_, ?_, ?_⟩
      · rw [chained, Ledger.enter_chainHead, if_pos padding]
        exact threaded.head
      · rw [chained]
        exact threaded.linked
      · rw [chained, Ledger.enter_index, if_pos padding]
        exact threaded.indexed
  | false =>
      have chained := @chained_enter indexer ledger id offset record
      have parent : parentOf record = ledger.chainHead :=
        admissible.linked.resolve_left (by simp [padding])
      rw [padding, if_neg Bool.false_ne_true] at chained
      refine ⟨?_, ?_, ?_⟩
      · rw [chained, Ledger.enter_chainHead, padding, List.map_append]
        simp [LedgerLine.new]
      · rw [chained, List.map_append, List.reverse_append]
        refine ⟨⟨record, admissible.computed, ?_⟩, threaded.linked⟩
        rw [parent, threaded.head, ← List.head?_reverse]
        rfl
      · rw [chained, Ledger.enter_index, padding, if_neg Bool.false_ne_true]
        intro line inside
        by_cases same : line.capsuleId = id
        · refine ⟨LedgerLine.new id offset record, by simp, same.symm, ?_⟩
          simp [same, LedgerLine.new]
        · have old : line ∈ ledger.chained := by
            rcases List.mem_append.mp inside with old | new
            · exact old
            · exact absurd (congrArg LedgerLine.capsuleId (List.mem_singleton.mp new)) same
          rcases threaded.indexed line old with ⟨other, member, named, found⟩
          refine ⟨other, List.mem_append_left _ member, named, ?_⟩
          rw [Function.update_of_ne same]
          exact found

theorem threaded_empty : Threaded packages .empty :=
  ⟨rfl, trivial, fun _ inside => absurd inside List.not_mem_nil⟩

section

variable {ledger : Ledger} (threaded : Threaded packages ledger) (binding : packages.Binding)

include threaded binding

/-- No Capsule ID is on the chain twice. -/
theorem Threaded.nodup : (ledger.chained.map LedgerLine.capsuleId).Nodup := by
  refine List.nodup_reverse.mp (threaded.linked.nodup ?_)
  rintro id _ _ ⟨left, computed, rfl⟩ ⟨right, again, rfl⟩
  exact binding left right id computed again

/-- The index has every line of the chain. -/
theorem Threaded.index {line : LedgerLine} (inside : line ∈ ledger.chained) :
    ledger.index line.capsuleId = some line.offset := by
  rcases threaded.indexed line inside with ⟨other, member, named, found⟩
  have same := List.inj_on_of_nodup_map (threaded.nodup binding) member inside named
  rw [found, same]

end

end RustLedger
end CapsuleEmit
