import CapsuleEmit.StoreLedger.Ledger

namespace CapsuleEmit
namespace StoreLedger

/-!
# Replaying the log

A ledger is opened by reading its log page by page.  The pages do not matter:
opening is one traversal of the numbered entries.  What a traversal reads of
the artifact store are the records its entries name, so it is the same in
every store that holds these records.
-/

open Python (Dict Value)
open ArtifactStore (Record Artifact)

universe u v

/-- The entries of a log by sequence number. -/
def numbered (values : List Bytes) : List (Nat × Bytes) := (values.zipIdx 1).map Prod.swap

@[simp] theorem length_numbered (values : List Bytes) :
    (numbered values).length = values.length := by
  simp [numbered]

theorem numbered_concat (values : List Bytes) (value : Bytes) :
    numbered (values ++ [value]) = numbered values ++ [(values.length + 1, value)] := by
  simp [numbered, List.zipIdx_append, Nat.add_comm]

theorem numbered_fst {values : List Bytes} {i : Nat} {entry : Nat × Bytes}
    (found : (numbered values)[i]? = some entry) : entry.1 = i + 1 := by
  rw [numbered, List.getElem?_map, List.getElem?_zipIdx] at found
  rcases Option.map_eq_some_iff.mp found with ⟨swapped, inner, rfl⟩
  rcases Option.map_eq_some_iff.mp inner with ⟨value, _, rfl⟩
  simp [Nat.add_comm]

theorem map_snd_numbered (values : List Bytes) : (numbered values).map Prod.snd = values := by
  rw [numbered, List.map_map]
  exact List.zipIdx_map_fst 1 values

theorem mem_of_mem_numbered {values : List Bytes} {entry : Nat × Bytes}
    (inside : entry ∈ numbered values) : entry.2 ∈ values := by
  rw [← map_snd_numbered values]
  exact List.mem_map_of_mem inside

section

variable {packages : Packages} {config : Config}
variable {α : Type u} {β : Type v} {artifacts : RecordStore α} {log : EntryLog β}

/-- The sequence number of the last entry of a page. -/
theorem last_of_page {values : List Bytes} {after limit : Nat} {last : Nat × Bytes}
    (found : (((numbered values).drop after).take limit).getLast? = some last) :
    last.1 = after + (((numbered values).drop after).take limit).length := by
  have nonempty : (((numbered values).drop after).take limit).length ≠ 0 := by
    intro none
    rw [List.eq_nil_of_length_eq_zero none] at found
    cases found
  rw [List.getLast?_eq_getElem?, List.getElem?_take_of_lt, List.getElem?_drop] at found
  · rw [numbered_fst found]
    omega
  · rw [List.length_take] at nonempty ⊢
    omega

/-- The pages of a log are its entries. -/
theorem replayPages_eq (lawful : log.Lawful) (stores : Stores α β) (fuel after : Nat)
    (within : after ≤ (log.values stores.log).length)
    (enough : (log.values stores.log).length < after + fuel) (ledger : Ledger) :
    replayPages packages config artifacts log stores fuel after ledger =
      ((numbered (log.values stores.log)).drop after).foldlM
        (admitEntry packages config artifacts stores.artifacts) ledger := by
  induction fuel generalizing after ledger with
  | zero =>
      rw [replayPages, List.drop_eq_nil_of_le (by rw [length_numbered]; omega)]
      rfl
  | succ fuel ih =>
      have scanned := lawful.scan within lawful.limit_pos (Nat.le_refl log.maxScanLimit)
      change _ = Except.ok (((numbered (log.values stores.log)).drop after).take _) at scanned
      have split := List.take_append_drop log.maxScanLimit
        ((numbered (log.values stores.log)).drop after)
      rw [replayPages, scanned]
      dsimp only
      split
      · next empty =>
          have none : ((numbered (log.values stores.log)).drop after) = [] := by
            rw [List.getLast?_eq_none_iff, List.take_eq_nil_iff] at empty
            exact empty.resolve_left (Nat.pos_iff_ne_zero.mp lawful.limit_pos)
          rw [none]
          rfl
      · next last found =>
          have moved := last_of_page found
          have progress : 0 < (((numbered (log.values stores.log)).drop after).take
              log.maxScanLimit).length := by
            rw [List.length_pos_iff]
            rintro empty
            rw [empty] at found
            cases found
          conv_rhs => rw [← split, List.foldlM_append]
          congr 1
          funext ledger
          have bound : last.1 ≤ (log.values stores.log).length := by
            rw [moved, List.length_take, List.length_drop, length_numbered]
            omega
          rw [ih last.1 bound (by omega), List.drop_drop, moved]
          congr 1
          rw [List.length_take, List.length_drop, length_numbered]
          rcases Nat.le_total log.maxScanLimit ((log.values stores.log).length - after) with h | h
          · rw [Nat.min_eq_left h]
          · rw [Nat.min_eq_right h, List.drop_eq_nil_of_le, List.drop_eq_nil_of_le]
            · rw [length_numbered]; omega
            · rw [length_numbered]; omega

/-- Opening replays the log once. -/
theorem openStores_eq (lawful : log.Lawful) (stores : Stores α β) :
    openStores packages config artifacts log stores =
      (do
        let ledger ← (numbered (log.values stores.log)).foldlM
          (admitEntry packages config artifacts stores.artifacts) Ledger.empty
        .ok (ledger, ⟨ledger.lines.length, none⟩)) := by
  rw [openStores, replayPages_eq lawful stores _ _ (Nat.zero_le _) (by omega), List.drop_zero]

/-! ## What a replay reads -/

theorem readRecord_congr {store store' : α} {id : String}
    (same : artifacts.get store' id = artifacts.get store id) (lineNo : Nat) :
    readRecord packages artifacts store' lineNo id = readRecord packages artifacts store lineNo id := by
  rw [readRecord, readRecord, same]

theorem admitEntry_congr {store store' : α} {entry : Nat × Bytes}
    (same : artifacts.get store' (Sha256.hex entry.2) = artifacts.get store (Sha256.hex entry.2))
    (ledger : Ledger) :
    admitEntry packages config artifacts store' ledger entry =
      admitEntry packages config artifacts store ledger entry := by
  rw [admitEntry, admitEntry, readRecord_congr same]

/-- A replay is the same in a store with the same records. -/
theorem foldlM_admitEntry_congr {store store' : α} {entries : List (Nat × Bytes)}
    (same : ∀ entry ∈ entries, artifacts.get store' (Sha256.hex entry.2) =
      artifacts.get store (Sha256.hex entry.2)) (ledger : Ledger) :
    entries.foldlM (admitEntry packages config artifacts store') ledger =
      entries.foldlM (admitEntry packages config artifacts store) ledger := by
  induction entries generalizing ledger with
  | nil => rfl
  | cons entry entries ih =>
      rw [List.foldlM_cons, List.foldlM_cons, admitEntry_congr (same entry List.mem_cons_self)]
      congr 1
      funext next
      exact ih (fun other inside => same other (List.mem_cons_of_mem _ inside)) next

/-- A record that is read is in the store. -/
theorem held_of_readRecord {store : α} {lineNo : Nat} {id : String} {read : Dict × Option Bytes × Bool}
    (found : readRecord packages artifacts store lineNo id = .ok read) :
    ∃ record, artifacts.get store id = .ok record := by
  unfold readRecord at found
  split at found
  · cases found
  · cases found
  · next record got => exact ⟨record, got⟩

/-- An entry that a replay admits names a record of the store. -/
theorem held_of_admitEntry {store : α} {ledger next : Ledger} {entry : Nat × Bytes}
    (admitted : admitEntry packages config artifacts store ledger entry = .ok next) :
    ∃ record, artifacts.get store (Sha256.hex entry.2) = .ok record := by
  unfold admitEntry at admitted
  rcases bind_eq_ok_iff.mp admitted with ⟨read, found, _⟩
  exact held_of_readRecord found

theorem held_of_foldlM {store : α} {entries : List (Nat × Bytes)} {ledger next : Ledger}
    (admitted : entries.foldlM (admitEntry packages config artifacts store) ledger = .ok next) :
    ∀ entry ∈ entries, ∃ record, artifacts.get store (Sha256.hex entry.2) = .ok record := by
  induction entries generalizing ledger with
  | nil => simp
  | cons entry entries ih =>
      rw [List.foldlM_cons] at admitted
      rcases bind_eq_ok_iff.mp admitted with ⟨middle, first, rest⟩
      intro other inside
      rcases List.mem_cons.mp inside with rfl | later
      · exact held_of_admitEntry first
      · exact ih rest other later

end

end StoreLedger
end CapsuleEmit
