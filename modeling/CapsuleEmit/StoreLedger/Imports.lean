import CapsuleEmit.Foundation.PythonText
import CapsuleEmit.StoreLedger.Completion
import CapsuleEmit.StoreLedger.Concrete

namespace CapsuleEmit
namespace StoreLedger

/-!
# What an import copies

An import that completes leaves in the log the ids of the flat ledger's records,
each once, in the order of the file.  One that refuses has written nothing.  And
an import that was cut off, however often, is completed by the next run as if
it had not been.
-/

open Python (Dict Value)
open ArtifactStore (Record Artifact ArtifactError)
open FlatLedger (File Handle)

universe u v

/-- The id of a line that is a record. -/
def recordId? (value : Value) : Option String :=
  value.dict?.bind (fun obj => if (FlatLedger.given "kind" obj).isNone then str? "capsule_id" obj else none)

/-- The ids of the records of a flat ledger, in its order. -/
def recordIds (values : List Value) : List String := values.filterMap recordId?

theorem recordIds_concat (values : List Value) (value : Value) :
    recordIds (values ++ [value]) = recordIds values ++ (recordId? value).toList := by
  rw [recordIds, List.filterMap_append, recordIds]
  cases found : recordId? value with
  | none => rw [List.filterMap_cons_none found]; rfl
  | some id => rw [List.filterMap_cons_some found]; rfl

theorem eraseDups_concat_of_mem {names : List String} {name : String} (known : name ∈ names) :
    (names ++ [name]).eraseDups = names.eraseDups := by
  have removed : [name].removeAll names = [] := by
    rw [List.removeAll, List.filter_cons_of_neg (by simpa using known), List.filter_nil]
  rw [List.eraseDups_append, removed, List.eraseDups_nil, List.append_nil]

theorem eraseDups_concat_of_notMem {names : List String} {name : String} (fresh : name ∉ names) :
    (names ++ [name]).eraseDups = names.eraseDups ++ [name] := by
  have stays : [name].removeAll names = [name] := by
    rw [List.removeAll, List.filter_cons_of_pos (by simpa using fresh), List.filter_nil]
  rw [List.eraseDups_append, stays]
  rfl

theorem isSome_lookup {α : Type} {key : String} {members : List (String × α)} {value : α}
    (found : Value.lookup key members = some value) : key ∈ members.map Prod.fst := by
  rw [Value.lookup] at found
  rcases Option.map_eq_some_iff.mp found with ⟨member, here, -⟩
  have same := List.find?_some here
  rw [decide_eq_true_eq] at same
  exact List.mem_map.mpr ⟨member, List.mem_of_find?_eq_some here, same⟩

theorem notMem_of_lookup {α : Type} {key : String} {members : List (String × α)}
    (absent : Value.lookup key members = none) : key ∉ members.map Prod.fst := by
  rw [Value.lookup, Option.map_eq_none_iff, List.find?_eq_none] at absent
  intro inside
  rcases List.mem_map.mp inside with ⟨member, here, same⟩
  exact absent member here (decide_eq_true same)

/-! ## What becomes of a line -/

/-- A line that is left out is no record, or one that has been copied. -/
theorem recordId_of_skip {seen : List (String × Dict)} {value : Value} {kind : String}
    (skipped : lineForm seen value = .skip kind) :
    recordId? value = none ∨ ∃ id, recordId? value = some id ∧ id ∈ seen.map Prod.fst := by
  rw [lineForm] at skipped
  rw [recordId?]
  cases object : value.dict? with
  | none => exact Or.inl rfl
  | some obj =>
      rw [object] at skipped
      dsimp only at skipped
      rw [objectForm] at skipped
      rw [Option.bind_some]
      split at skipped
      · next given => exact Or.inl (by rw [given]; rfl)
      · next given => exact Or.inl (by rw [given]; rfl)
      · next id given named =>
          split at skipped
          · next held found => exact Or.inr ⟨id, by rw [given, str?, named]; rfl, isSome_lookup found⟩
          · cases skipped
      · cases skipped

theorem recordId_of_copy {seen : List (String × Dict)} {value : Value} {id : String} {obj : Dict}
    (copied : lineForm seen value = .copy id obj) :
    recordId? value = some id ∧ id ∉ seen.map Prod.fst := by
  rw [lineForm] at copied
  rw [recordId?]
  cases object : value.dict? with
  | none =>
      rw [object] at copied
      cases copied
  | some obj' =>
      rw [object] at copied
      dsimp only at copied
      rw [objectForm] at copied
      rw [Option.bind_some]
      split at copied
      · split at copied <;> cases copied
      · cases copied
      · next id' given named =>
          split at copied
          · split at copied <;> cases copied
          · next absent =>
              cases copied
              exact ⟨by rw [given, str?, named]; rfl, notMem_of_lookup absent⟩
      · cases copied

section

variable {Time : Type} {packages : ImportPackages Time}

theorem spec_checkCopy {record copied : Record} (bare : record.artifacts = [])
    (checked : checkCopy packages record = .ok copied) :
    copied = record ∧ prepare packages record = .ok record := by
  unfold checkCopy at checked
  rcases bind_eq_ok_iff.mp checked with ⟨_, -, checked⟩
  rcases bind_eq_ok_iff.mp checked with ⟨prepared, made, checked⟩
  rcases bind_eq_ok_iff.mp checked with ⟨_, -, checked⟩
  rw [prepare_bare bare made] at made
  cases checked
  exact ⟨rfl, made⟩

/-- What has been chosen of a front of a flat ledger. -/
structure Selected (packages : ImportPackages Time) (file : File) (values : List Value)
    (state : Selection × Handle Time) : Prop where
  follows : state.2.Follows packages.flat (some file)
  seen : state.1.seen.map Prod.fst = ids state.1.copy
  copied : ∀ item ∈ state.1.copy, recordAt packages (some file) item.2.capsuleId = .ok item.2 ∧
    Copyable packages item.2
  whole : state.1.refused = [] → ids state.1.copy = (recordIds values).eraseDups

/-- A line that is refused. -/
theorem Selected.refuse {file : File} {values : List Value} {state : Selection × Handle Time}
    (selected : Selected packages file values state) (value : Value) (refusal : Nat × Refusal)
    {handle : Handle Time} (follows : handle.Follows packages.flat (some file)) :
    Selected packages file (values ++ [value])
      ({ state.1 with refused := state.1.refused ++ [refusal] }, handle) where
  follows := follows
  seen := selected.seen
  copied := selected.copied
  whole := fun none => absurd none (List.append_ne_nil_of_right_ne_nil _ (List.cons_ne_nil _ _))

theorem Selected.step {file : File} {values : List Value} {state state' : Selection × Handle Time}
    (selected : Selected packages file values state) (line : Nat × Value)
    (chosen : selectLine packages file state line = .ok state') :
    Selected packages file (values ++ [line.2]) state' := by
  rw [selectLine] at chosen
  dsimp only at chosen
  cases form : lineForm state.1.seen line.2 with
  | skip kind =>
      rw [form] at chosen
      cases chosen
      refine ⟨selected.follows, selected.seen, selected.copied, ?_⟩
      intro none
      have whole := selected.whole none
      rw [recordIds_concat]
      rcases recordId_of_skip form with noRecord | ⟨id, found, known⟩
      · rw [noRecord, Option.toList_none, List.append_nil]
        exact whole
      · rw [selected.seen, whole, List.mem_eraseDups] at known
        rw [found, Option.toList_some, eraseDups_concat_of_mem known]
        exact whole
  | refuse why =>
      rw [form] at chosen
      cases chosen
      exact selected.refuse line.2 _ selected.follows
  | copy id obj =>
      rw [form] at chosen
      dsimp only at chosen
      rcases legacyGet_eq selected.follows id with ⟨same, follows⟩
      rw [same, ← recordAt] at chosen
      cases got : recordAt packages (some file) id >>= checkCopy packages with
      | error error =>
          rw [got] at chosen
          cases error with
          | raised why => cases chosen
          | unsigned =>
              cases chosen
              exact selected.refuse line.2 _ follows
          | artifact error =>
              cases chosen
              exact selected.refuse line.2 _ follows
      | ok copied =>
          rw [got] at chosen
          cases chosen
          rcases bind_eq_ok_iff.mp got with ⟨record, read, checked⟩
          rcases spec_recordAt read with ⟨valid, named, bare⟩
          rcases spec_checkCopy bare checked with ⟨rfl, prepares⟩
          rcases recordId_of_copy form with ⟨found, fresh⟩
          have more : ids (state.1.copy ++ [(line.1, copied)]) = ids state.1.copy ++ [id] := by
            rw [ids_append, ← named]
            rfl
          refine ⟨follows, ?_, ?_, ?_⟩
          · rw [List.map_append, selected.seen, more]
            rfl
          · intro item inside
            rcases List.mem_append.mp inside with before | last
            · exact selected.copied item before
            · rw [List.mem_singleton.mp last]
              exact ⟨by rw [named]; exact read, valid, bare, prepares⟩
          · intro none
            have whole := selected.whole none
            rw [selected.seen, whole, List.mem_eraseDups] at fresh
            rw [more, whole, recordIds_concat, found, Option.toList_some,
              eraseDups_concat_of_notMem fresh]

theorem Selected.foldlM {file : File} {values : List Value} {state state' : Selection × Handle Time}
    (selected : Selected packages file values state) (lines : List (Nat × Value))
    (chosen : lines.foldlM (selectLine packages file) state = .ok state') :
    Selected packages file (values ++ lines.map Prod.snd) state' := by
  induction lines generalizing values state with
  | nil =>
      cases chosen
      rwa [List.map_nil, List.append_nil]
  | cons line lines ih =>
      rcases foldlM_cons_eq_ok_iff.mp chosen with ⟨next, first, rest⟩
      have onward := ih (selected.step line first) rest
      rwa [List.append_assoc, List.singleton_append] at onward

/-- What is chosen of a flat ledger. -/
theorem spec_select {file : File} {selection : Selection}
    (chosen : select packages file = .ok selection) :
    ∃ values handle, FlatLedger.readLedgerEntries packages.flat (some file) = .ok values ∧
      Selected packages file values (selection, handle) := by
  unfold select at chosen
  rcases bind_eq_ok_iff.mp chosen with ⟨values, read, chosen⟩
  rcases bind_eq_ok_iff.mp chosen with ⟨state, folded, same⟩
  cases same
  have start : Selected packages file [] (Selection.empty, Handle.reset) :=
    ⟨FlatLedger.follows_reset _, rfl, (fun _ inside => nomatch inside), fun _ => rfl⟩
  have selected := start.foldlM _ folded
  rw [List.map_map] at selected
  have second : (values.zipIdx 1).map (Prod.snd ∘ Prod.swap) = values := List.zipIdx_map_fst 1 values
  rw [second, List.nil_append] at selected
  exact ⟨values, state.2, mapError_eq_ok_iff.mp read, selected⟩

/-! ## Imports -/

variable {indexer : Dict → List String}
variable {α : Type u} {β : Type v} {artifacts : RecordStore α} {log : EntryLog β}

/-- An import writes nothing, or imports what is chosen. -/
theorem importFlat_cases (indexer : Dict → List String) (store : artifacts.Lawful packages.stores)
    (lawful : log.Lawful) (budget : Budget) (file : File) (stores : Stores α β) :
    ((∀ ledger report, (importFlat packages indexer artifacts log budget (some file) stores).1 ≠
        .done ledger report) ∧
      (importFlat packages indexer artifacts log budget (some file) stores).2 = stores) ∨
    ∃ selection, select packages file = .ok selection ∧ selection.refused = [] ∧
      Imported packages indexer artifacts log selection.copy selection.skipped stores
        (importFlat packages indexer artifacts log budget (some file) stores) := by
  rw [importFlat]
  cases chosen : select packages file with
  | error why => exact Or.inl ⟨fun _ _ => nofun, rfl⟩
  | ok selection =>
      dsimp only
      split
      · next none =>
          rcases spec_select chosen with ⟨values, handle, -, selected⟩
          exact Or.inr ⟨selection, rfl, List.isEmpty_iff.mp none, imported_importRecords indexer
            store lawful budget (fun item inside => (selected.copied item inside).2) selection.skipped stores⟩
      · exact Or.inl ⟨fun _ _ => nofun, rfl⟩

theorem importFlat_of_select {file : File} {selection : Selection}
    (chosen : select packages file = .ok selection) (none : selection.refused = [])
    (budget : Budget) (stores : Stores α β) :
    importFlat packages indexer artifacts log budget (some file) stores =
      importRecords packages indexer artifacts log budget selection.copy selection.skipped stores := by
  rw [importFlat, chosen]
  dsimp only
  rw [if_pos (List.isEmpty_iff.mpr none)]

/-- A refusal leaves the stores as they were. -/
theorem Imported.of_refused {copy : Copies} {skipped : List (String × Nat)} {stores : Stores α β}
    {run : Ending × Stores α β}
    (imported : Imported packages indexer artifacts log copy skipped stores run)
    {lines : List Nat} {why : String} (refused : run.1 = .refused lines why) : run.2 = stores := by
  cases imported with
  | unwritten notDone => rfl
  | written split named matched progress =>
      cases progress with
      | putting stopped split put =>
          dsimp only at refused
          rw [refused] at stopped
          cases stopped
      | entering stopped split put entered =>
          dsimp only at refused
          rw [refused] at stopped
          cases stopped
      | done put entered replayed => cases refused

/-- An import that is done has completed. -/
theorem Imported.of_done {copy : Copies} {skipped : List (String × Nat)} {stores : Stores α β}
    {run : Ending × Stores α β}
    (imported : Imported packages indexer artifacts log copy skipped stores run)
    {ledger : Ledger} {report : ImportReport} (done : run.1 = .done ledger report) :
    ∃ before rest, copy = before ++ rest ∧
      report = ⟨ledger.entries, before.length, skipped, ledger.chainHead⟩ ∧
      Completes packages indexer artifacts log before rest run.2 ledger stores := by
  cases imported with
  | unwritten notDone => exact absurd done (notDone ledger report)
  | @written before rest split named matched run progress =>
      cases progress with
      | putting stopped split put =>
          dsimp only at done
          rw [done] at stopped
          cases stopped
      | entering stopped split put entered =>
          dsimp only at done
          rw [done] at stopped
          cases stopped
      | done put entered replayed =>
          cases done
          exact ⟨before, rest, split, rfl, named, matched, put, entered, replayed⟩

/-- Where an import has completed the next one has nothing to write. -/
theorem Completes.completed {before rest : Copies} {final stores : Stores α β} {ledger : Ledger}
    (completes : Completes packages indexer artifacts log before rest final ledger stores)
    (encodes : Encodes packages) (store : artifacts.Lawful packages.stores) (lawful : log.Lawful)
    (fit : ∀ item ∈ rest, Copyable packages item.2) :
    Completes packages indexer artifacts log (before ++ rest) [] final ledger final :=
  completes.entering encodes store lawful fit (List.append_nil rest).symm completes.entered

theorem encodeRecord_of_sameRecord {held record : Record} (prepares : prepare packages record = .ok record)
    (same : sameRecord packages held record = .ok true) :
    encodeRecord packages held = encodeRecord packages record := by
  rw [sameRecord, prepares] at same
  cases left : encodeRecord packages held with
  | error why =>
      rw [left] at same
      cases same
  | ok text =>
      cases right : encodeRecord packages record with
      | error why =>
          rw [left] at same
          dsimp only at same
          rw [right] at same
          cases same
      | ok text' =>
          rw [left] at same
          dsimp only at same
          rw [right] at same
          rw [of_decide_eq_true (Except.ok.inj same)]

/-- From any stores and after any number of writes: an import that refuses has left both stores as they
were.  An import that is done has left in the log the ids of the flat ledger's records, each once, in
the order of the file; the store has each record as the flat ledger gives it; the stores open as the
ledger that is returned; and the same import again changes nothing. -/
theorem import_copies (encodes : Encodes packages) (store : artifacts.Lawful packages.stores)
    (lawful : log.Lawful) (budget : Budget) (file : File) (stores : Stores α β) :
    let run := importFlat packages indexer artifacts log budget (some file) stores
    (∀ lines why, run.1 = .refused lines why → run.2 = stores) ∧
    ∀ ledger report, run.1 = .done ledger report → ∃ values copy,
      FlatLedger.readLedgerEntries packages.flat (some file) = .ok values ∧
      ids copy = (recordIds values).eraseDups ∧
      (log.values run.2.log).map Sha256.hex = ids copy ∧
      (∀ item ∈ copy, recordAt packages (some file) item.2.capsuleId = .ok item.2 ∧
        ∃ held, artifacts.get run.2.artifacts item.2.capsuleId = .ok held ∧
          encodeRecord packages held = encodeRecord packages item.2) ∧
      openStores packages.stores (importConfig indexer) artifacts log run.2 =
        .ok (ledger, ⟨ledger.entries, none⟩) ∧
      importFlat packages indexer artifacts log none (some file) run.2 =
        (.done ledger { report with resumed := copy.length }, run.2) := by
  intro run
  rcases importFlat_cases indexer store lawful budget file stores with
    ⟨notDone, same⟩ | ⟨selection, chosen, unrefused, imported⟩
  · exact ⟨fun _ _ _ => same, fun ledger report done => absurd done (notDone ledger report)⟩
  · refine ⟨fun lines why refused => imported.of_refused refused, fun ledger report done => ?_⟩
    rcases spec_select chosen with ⟨values, handle, read, selected⟩
    rcases imported.of_done done with ⟨before, rest, split, isReport, completes⟩
    have fit : ∀ item ∈ before ++ rest, Copyable packages item.2 := by
      intro item inside
      rw [← split] at inside
      exact (selected.copied item inside).2
    have completed := completes.completed encodes store lawful
      (fun item inside => fit item (List.mem_append_right before inside))
    rw [← split] at completed
    refine ⟨values, selection.copy, read, selected.whole unrefused, completed.named, ?_,
      openStores_of_replay lawful completed.replayed, ?_⟩
    · intro item inside
      rcases selected.copied item inside with ⟨reads, copyable⟩
      rcases completed.matched item inside with ⟨held, got, same⟩
      exact ⟨reads, held, got, encodeRecord_of_sameRecord copyable.prepares same⟩
    · rw [importFlat_of_select chosen unrefused, isReport]
      have again := completed.run store lawful (fun _ inside => nomatch inside) selection.skipped
      rwa [List.append_nil] at again

/-- Where an import would be done, it is done in the same stores and with the same ledger after any
number of imports of the same file that were cut off, each after any number of its writes. -/
theorem import_resumes (encodes : Encodes packages) (store : artifacts.Lawful packages.stores)
    (lawful : log.Lawful) {file : File} {stores final : Stores α β} {ledger : Ledger}
    {report : ImportReport}
    (done : importFlat packages indexer artifacts log none (some file) stores = (.done ledger report, final))
    (budgets : List Budget) :
    ∃ resumed, importFlat packages indexer artifacts log none (some file)
        (budgets.foldl (fun stores budget =>
          (importFlat packages indexer artifacts log budget (some file) stores).2) stores) =
      (.done ledger { report with resumed := resumed }, final) := by
  rcases importFlat_cases indexer store lawful none file stores with
    ⟨notDone, -⟩ | ⟨selection, chosen, unrefused, imported⟩
  · rw [done] at notDone
    exact absurd rfl (notDone ledger report)
  · rcases spec_select chosen with ⟨values, handle, -, selected⟩
    rw [done] at imported
    rcases imported.of_done rfl with ⟨before, rest, split, rfl, completes⟩
    dsimp only at completes
    have fit : ∀ item ∈ before ++ rest, Copyable packages item.2 := by
      intro item inside
      rw [← split] at inside
      exact (selected.copied item inside).2
    clear imported done
    induction budgets generalizing stores before rest with
    | nil =>
        refine ⟨before.length, ?_⟩
        rw [List.foldl_nil, importFlat_of_select chosen unrefused, split]
        exact completes.run store lawful (fun item inside => fit item (List.mem_append_right before inside))
          selection.skipped
    | cons budget budgets ih =>
        rw [List.foldl_cons]
        have stopped := imported_importRecords indexer store lawful budget fit
          selection.skipped stores
        rcases completes_again encodes store lawful completes fit selection.skipped stopped with
          ⟨before', rest', split', further⟩
        rw [← split, ← importFlat_of_select chosen unrefused] at further
        exact ih before' rest' (split.trans split') further (by rw [← split']; exact fit)

end

end StoreLedger
end CapsuleEmit
