import CapsuleEmit.StoreLedger.Resuming

namespace CapsuleEmit
namespace StoreLedger

/-!
# Where an import ends

From some states of the two stores an import that is not cut off completes.
These are the states whose log holds the ids of the first records, each with
its record, and from which the rest can be put and entered.  Every import that
is cut off in such a state leaves another one, with the same end.
-/

open Python (Dict Value)
open ArtifactStore (Record Artifact ArtifactError)

universe u v

section

variable {packages : Packages} {config : Config}
variable {α : Type u} {β : Type v} {artifacts : RecordStore α} {log : EntryLog β}

/-! ## The lines of a replay -/

theorem lines_of_admitEntry {store : α} {ledger next : Ledger} {entry : Nat × Bytes}
    (admitted : admitEntry packages config artifacts store ledger entry = .ok next) :
    next.lines.map LedgerLine.capsuleId =
      ledger.lines.map LedgerLine.capsuleId ++ [Sha256.hex entry.2] := by
  unfold admitEntry at admitted
  rcases bind_eq_ok_iff.mp admitted with ⟨⟨parsed, statement, attached⟩, -, admitted⟩
  rcases bind_eq_ok_iff.mp admitted with ⟨_, named, admitted⟩
  have name := of_decide_eq_true (ensure_eq_ok_iff.mp named)
  rw [admitLine] at admitted
  dsimp only at admitted name
  rw [name] at admitted
  dsimp only at admitted
  rcases bind_eq_ok_iff.mp admitted with ⟨_, -, admitted⟩
  split at admitted
  · cases admitted
  · rcases bind_eq_ok_iff.mp admitted with ⟨_, -, admitted⟩
    have indexed : ∃ padding, next = indexLine config ledger (Sha256.hex entry.2) entry.1 parsed padding := by
      cases statement with
      | some statement =>
          rcases bind_eq_ok_iff.mp admitted with ⟨_, -, done⟩
          cases done
          exact ⟨_, rfl⟩
      | none =>
          rcases bind_eq_ok_iff.mp admitted with ⟨_, -, done⟩
          cases done
          exact ⟨_, rfl⟩
    rcases indexed with ⟨padding, rfl⟩
    cases padding <;> simp [indexLine]

theorem lines_of_foldlM {store : α} {entries : List (Nat × Bytes)} {ledger next : Ledger}
    (admitted : entries.foldlM (admitEntry packages config artifacts store) ledger = .ok next) :
    next.lines.map LedgerLine.capsuleId =
      ledger.lines.map LedgerLine.capsuleId ++ entries.map (fun entry => Sha256.hex entry.2) := by
  induction entries generalizing ledger with
  | nil =>
      cases admitted
      rw [List.map_nil, List.append_nil]
  | cons entry entries ih =>
      rcases foldlM_cons_eq_ok_iff.mp admitted with ⟨middle, first, rest⟩
      rw [ih rest, lines_of_admitEntry first, List.map_cons, List.append_assoc, List.singleton_append]

/-- The lines of a ledger that is opened are the ids its log holds. -/
theorem lines_of_replay {store : α} {values : List Bytes} {ledger : Ledger}
    (replayed : (numbered values).foldlM (admitEntry packages config artifacts store) Ledger.empty =
      .ok ledger) : ledger.lines.map LedgerLine.capsuleId = values.map Sha256.hex := by
  rw [lines_of_foldlM replayed]
  conv_rhs => rw [← map_snd_numbered values, List.map_map]
  rfl

theorem numbered_prefix {front values : List Bytes} (part : front <+: values) :
    numbered front <+: numbered values := by
  rcases part with ⟨rest, rfl⟩
  rw [numbered, numbered, List.zipIdx_append, List.map_append]
  exact List.prefix_append _ _

/-- A front of a log is replayed where the log is, in a store with the same records of it. -/
theorem replay_front {store store' : α} {front values : List Bytes} {ledger : Ledger}
    (replayed : (numbered values).foldlM (admitEntry packages config artifacts store') Ledger.empty =
      .ok ledger) (part : front <+: values)
    (same : ∀ value ∈ front, artifacts.get store' (Sha256.hex value) =
      artifacts.get store (Sha256.hex value)) :
    ∃ earlier, (numbered front).foldlM (admitEntry packages config artifacts store) Ledger.empty =
      .ok earlier := by
  rcases numbered_prefix part with ⟨rest, whole⟩
  rw [← whole] at replayed
  rcases foldlM_append_eq_ok_iff.mp replayed with ⟨earlier, first, -⟩
  refine ⟨earlier, ?_⟩
  rw [← first]
  exact (foldlM_admitEntry_congr
    (fun entry inside => same entry.2 (mem_of_mem_numbered inside)) Ledger.empty).symm

theorem openStores_of_replay (lawful : log.Lawful) {stores : Stores α β} {ledger : Ledger}
    (replayed : (numbered (log.values stores.log)).foldlM
      (admitEntry packages config artifacts stores.artifacts) Ledger.empty = .ok ledger) :
    openStores packages config artifacts log stores = .ok (ledger, ⟨ledger.lines.length, none⟩) := by
  rw [openStores_eq lawful, replayed]
  rfl

theorem replay_of_openStores (lawful : log.Lawful) {stores : Stores α β} {ledger : Ledger}
    {report : RecoveryReport}
    (opened : openStores packages config artifacts log stores = .ok (ledger, report)) :
    (numbered (log.values stores.log)).foldlM
      (admitEntry packages config artifacts stores.artifacts) Ledger.empty = .ok ledger := by
  rw [openStores_eq lawful] at opened
  rcases bind_eq_ok_iff.mp opened with ⟨found, replayed, same⟩
  cases same
  exact replayed

/-- A ledger with as many lines as its log has entries is not stale. -/
theorem checkNotStale_of_length (lawful : log.Lawful) {site : Site α β}
    (length : site.ledger.lines.length = (log.values site.stores.log).length) :
    checkNotStale log site = .ok () := by
  have scanned := lawful.scan (Nat.le_of_eq length) Nat.one_pos lawful.limit_pos
  rw [List.drop_eq_nil_of_le (by rw [List.length_map, List.length_zipIdx, length])] at scanned
  rw [checkNotStale, scanned]
  rfl

end

section

variable {Time : Type} {packages : ImportPackages Time} {indexer : Dict → List String}
variable {α : Type u} {β : Type v} {artifacts : RecordStore α} {log : EntryLog β}

/-! ## Entering all of the rest -/

theorem commitEach_none (packages : ImportPackages Time) (indexer : Dict → List String)
    (store : artifacts.Lawful packages.stores) (lawful : log.Lawful) {copy : Copies}
    {site : Site α β} {final : β}
    (held : ∀ item ∈ copy, putCopy artifacts site.stores.artifacts item = .ok site.stores.artifacts)
    (length : site.ledger.lines.length = (log.values site.stores.log).length)
    (entered : copy.foldlM (enter log) site.stores.log = .ok final) :
    ∃ site', commitEach packages indexer artifacts log none site copy = (.ok none, site') ∧
      site'.stores = ⟨site.stores.artifacts, final⟩ ∧
      site'.ledger.lines.length = site.ledger.lines.length + copy.length := by
  induction copy generalizing site with
  | nil =>
      cases entered
      exact ⟨site, rfl, rfl, rfl⟩
  | cons item copy ih =>
      rcases item with ⟨number, record⟩
      rcases foldlM_cons_eq_ok_iff.mp entered with ⟨state, first, rest⟩
      have here : artifacts.put site.stores.artifacts record = .ok site.stores.artifacts :=
        held (number, record) List.mem_cons_self
      rcases (store.admitted here).2 with ⟨members, decoded⟩
      rcases commitRecord_none indexer lawful here first members with
        ⟨next, committed, stores, longer⟩
      rcases spec_enter lawful first with ⟨value, -, -, values⟩
      have onward : ∃ site', commitEach packages indexer artifacts log none next copy = (.ok none, site') ∧
          site'.stores = ⟨next.stores.artifacts, final⟩ ∧
          site'.ledger.lines.length = next.ledger.lines.length + copy.length := by
        apply ih
        · intro other inside
          rw [stores]
          exact held other (List.mem_cons_of_mem _ inside)
        · rw [longer, length, stores, values, List.length_append, List.length_singleton]
        · rw [stores]
          exact rest
      rcases onward with ⟨last, committed', stores', length'⟩
      refine ⟨last, ?_, ?_, ?_⟩
      · rw [commitEach, decoded]
        dsimp only
        rw [checkNotStale_of_length lawful length]
        dsimp only
        rw [Value.dict?, Option.getD_some, committed]
        exact committed'
      · rw [stores', stores]
      · rw [length', longer, List.length_cons]
        omega

/-! ## The states an import completes from -/

/-- Entries that are there hold the records to copy. -/
def Matched (packages : ImportPackages Time) (artifacts : RecordStore α) (store : α)
    (copy : Copies) : Prop :=
  ∀ item ∈ copy, ∃ held, artifacts.get store item.2.capsuleId = .ok held ∧
    sameRecord packages held item.2 = .ok true

/-- An import of `before ++ rest` that is not cut off completes in `final`. -/
structure Completes (packages : ImportPackages Time) (indexer : Dict → List String)
    (artifacts : RecordStore α) (log : EntryLog β) (before rest : Copies) (final : Stores α β)
    (ledger : Ledger) (stores : Stores α β) : Prop where
  named : (log.values stores.log).map Sha256.hex = ids before
  matched : Matched packages artifacts stores.artifacts before
  put : rest.foldlM (putCopy artifacts) stores.artifacts = .ok final.artifacts
  entered : rest.foldlM (enter log) stores.log = .ok final.log
  replayed : (numbered (log.values final.log)).foldlM
    (admitEntry packages.stores (importConfig indexer) artifacts final.artifacts) Ledger.empty = .ok ledger

theorem checkResumed_of_matched {store : α} {lines : List LedgerLine} {before : Copies}
    (named : lines.map LedgerLine.capsuleId = ids before)
    (matched : Matched packages artifacts store before) (rest : Copies) :
    checkResumed packages artifacts store lines (before ++ rest) = .ok () := by
  induction before generalizing lines with
  | nil =>
      rw [List.map_eq_nil_iff.mp named]
      cases rest <;> rfl
  | cons item before ih =>
      rcases item with ⟨number, record⟩
      cases lines with
      | nil => cases named
      | cons line lines =>
          rcases List.cons.inj named with ⟨first, later⟩
          rcases matched (number, record) List.mem_cons_self with ⟨held, got, same⟩
          dsimp only at first got same
          rw [List.cons_append, checkResumed]
          rw [if_neg (not_not.mpr first), first, got]
          dsimp only
          rw [same]
          exact ih later (fun other inside => matched other (List.mem_cons_of_mem _ inside))

theorem matched_of_checkResumed {store : α} {lines : List LedgerLine} {copy : Copies}
    (resumed : checkResumed packages artifacts store lines copy = .ok ())
    (short : lines.length ≤ copy.length) :
    lines.map LedgerLine.capsuleId = ids (copy.take lines.length) ∧
      Matched packages artifacts store (copy.take lines.length) := by
  induction lines generalizing copy with
  | nil => exact ⟨rfl, fun item inside => nomatch inside⟩
  | cons line lines ih =>
      cases copy with
      | nil => cases short
      | cons item copy =>
          rcases item with ⟨number, record⟩
          rw [checkResumed] at resumed
          split at resumed
          · cases resumed
          · next same =>
              rw [not_not] at same
              rw [same] at resumed
              cases got : artifacts.get store record.capsuleId with
              | error e =>
                  rw [got] at resumed
                  cases resumed
              | ok held =>
                  rw [got] at resumed
                  dsimp only at resumed
                  split at resumed
                  · cases resumed
                  · cases resumed
                  · next alike =>
                      rcases ih resumed (Nat.le_of_succ_le_succ short) with ⟨named, matched⟩
                      refine ⟨?_, ?_⟩
                      · rw [List.map_cons, named, same]
                        rfl
                      · intro other inside
                        rcases List.mem_cons.mp inside with rfl | later
                        · exact ⟨held, got, alike⟩
                        · exact matched other later

theorem length_of_ids {lines : List LedgerLine} {copy : Copies}
    (named : lines.map LedgerLine.capsuleId = ids copy) : lines.length = copy.length := by
  have lengths := congrArg List.length named
  rwa [List.length_map, ids, List.length_map] at lengths

theorem sameRecord_self (encodes : Encodes packages) {record : Record}
    (copyable : Copyable packages record) : sameRecord packages record record = .ok true := by
  rcases encodes record copyable.bare with ⟨text, encoded⟩
  rw [sameRecord, encoded, copyable.prepares]
  dsimp only
  rw [encoded]
  dsimp only
  rw [decide_eq_true rfl]

namespace Completes

variable {before rest : Copies} {final stores : Stores α β} {ledger : Ledger}

/-- A state that an import completes from can be opened. -/
theorem opened (completes : Completes packages indexer artifacts log before rest final ledger stores)
    (store : artifacts.Lawful packages.stores) (lawful : log.Lawful)
    (fit : ∀ item ∈ rest, Copyable packages item.2) :
    ∃ earlier, openStores packages.stores (importConfig indexer) artifacts log stores =
        .ok (earlier, ⟨earlier.lines.length, none⟩) ∧
      earlier.lines.map LedgerLine.capsuleId = (log.values stores.log).map Sha256.hex := by
  have onward := (values_of_foldlM lawful fit completes.entered).1
  have same : ∀ value ∈ log.values stores.log, artifacts.get final.artifacts (Sha256.hex value) =
      artifacts.get stores.artifacts (Sha256.hex value) := by
    intro value inside
    have name : Sha256.hex value ∈ ids before := by
      rw [← completes.named]
      exact List.mem_map_of_mem inside
    rcases List.mem_map.mp name with ⟨item, there, id⟩
    rcases completes.matched item there with ⟨held, got, -⟩
    rw [← id, got]
    exact get_of_foldlM store completes.put got
  rcases replay_front completes.replayed onward same with ⟨earlier, replayed⟩
  exact ⟨earlier, openStores_of_replay lawful replayed, lines_of_replay replayed⟩

/-- An import that is not cut off completes. -/
theorem run (completes : Completes packages indexer artifacts log before rest final ledger stores)
    (store : artifacts.Lawful packages.stores) (lawful : log.Lawful)
    (fit : ∀ item ∈ rest, Copyable packages item.2) (skipped : List (String × Nat)) :
    importRecords packages indexer artifacts log none (before ++ rest) skipped stores =
      (.done ledger ⟨ledger.entries, before.length, skipped, ledger.chainHead⟩, final) := by
  rcases completes.opened store lawful fit with ⟨earlier, opened, lines⟩
  have named : earlier.lines.map LedgerLine.capsuleId = ids before := lines.trans completes.named
  have length : earlier.lines.length = before.length := length_of_ids named
  have known : earlier.lines.length = (log.values stores.log).length := by
    have lengths := congrArg List.length lines
    rwa [List.length_map, List.length_map] at lengths
  have held := (retryable_put store).held_of_foldlM (fun item inside => (fit item inside).bare)
    completes.put
  let site : Site α β := ⟨earlier, ⟨final.artifacts, stores.log⟩, [], true⟩
  have committing : ∃ site', commitEach packages indexer artifacts log none site rest =
      (.ok none, site') ∧ site'.stores = ⟨site.stores.artifacts, final.log⟩ ∧
      site'.ledger.lines.length = site.ledger.lines.length + rest.length :=
    commitEach_none packages indexer store lawful held known completes.entered
  rcases committing with ⟨last, committed, written, longer⟩
  have whole : last.ledger.entries = (before ++ rest).length := by
    rw [Ledger.entries, longer, length, List.length_append]
  rw [importRecords, opened]
  dsimp only
  rw [if_neg (by rw [Ledger.entries, length, List.length_append]; omega),
    checkResumed_of_matched named completes.matched]
  dsimp only
  rw [writeRest]
  dsimp only
  rw [Ledger.entries, length, List.drop_left, putEach_none completes.put]
  dsimp only
  rw [committed]
  dsimp only
  rw [reopen, if_neg (not_not.mpr whole), written, openStores_of_replay lawful completes.replayed]

/-- A run that was cut off while it put records. -/
theorem putting (completes : Completes packages indexer artifacts log before rest final ledger stores)
    (store : artifacts.Lawful packages.stores) (fit : ∀ item ∈ rest, Copyable packages item.2)
    {front later : Copies} (split : rest = front ++ later) {state : α}
    (put : front.foldlM (putCopy artifacts) stores.artifacts = .ok state) :
    Completes packages indexer artifacts log before rest final ledger
      { stores with artifacts := state } where
  named := completes.named
  matched := by
    intro item inside
    rcases completes.matched item inside with ⟨held, got, same⟩
    exact ⟨held, get_of_foldlM store put got, same⟩
  put := by
    subst split
    exact (retryable_put store).foldlM_again
      (fun item inside => (fit item (List.mem_append_left later inside)).bare) completes.put put
  entered := completes.entered
  replayed := completes.replayed

/-- A run that was cut off while it appended entries. -/
theorem entering (completes : Completes packages indexer artifacts log before rest final ledger stores)
    (encodes : Encodes packages) (store : artifacts.Lawful packages.stores) (lawful : log.Lawful)
    (fit : ∀ item ∈ rest, Copyable packages item.2)
    {front later : Copies} (split : rest = front ++ later) {state : β}
    (entered : front.foldlM (enter log) stores.log = .ok state) :
    Completes packages indexer artifacts log (before ++ front) later final ledger
      ⟨final.artifacts, state⟩ := by
  have held := (retryable_put store).held_of_foldlM (fun item inside => (fit item inside).bare)
    completes.put
  subst split
  refine ⟨?_, ?_, ?_, ?_, completes.replayed⟩
  · rw [(values_of_foldlM lawful (fun item inside => fit item (List.mem_append_left later inside))
      entered).2, completes.named, ids_append]
  · intro item inside
    rcases List.mem_append.mp inside with earlier | there
    · rcases completes.matched item earlier with ⟨held, got, same⟩
      exact ⟨held, get_of_foldlM store completes.put got, same⟩
    · have copyable := fit item (List.mem_append_left later there)
      have stored := store.stored (held item (List.mem_append_left later there))
      rw [prepared_bare copyable.bare] at stored
      exact ⟨item.2, stored, sameRecord_self encodes copyable⟩
  · exact foldlM_of_held (fun item inside => held item (List.mem_append_right front inside))
  · rcases foldlM_append_eq_ok_iff.mp completes.entered with ⟨middle, first, rest⟩
    cases first.symm.trans entered
    exact rest

end Completes

/-! ## What an import does -/

/-- Which writes of an import were made. -/
inductive Progress (packages : ImportPackages Time) (indexer : Dict → List String)
    (artifacts : RecordStore α) (log : EntryLog β) (resumed : Nat) (skipped : List (String × Nat))
    (stores : Stores α β) (rest : Copies) : Ending × Stores α β → Prop where
  | putting {ending : Ending} (stopped : ending.stopped = true) {front later : Copies}
      (split : rest = front ++ later) {store : α}
      (put : front.foldlM (putCopy artifacts) stores.artifacts = .ok store) :
      Progress packages indexer artifacts log resumed skipped stores rest
        (ending, { stores with artifacts := store })
  | entering {ending : Ending} (stopped : ending.stopped = true) {front later : Copies}
      (split : rest = front ++ later) {store : α} {state : β}
      (put : rest.foldlM (putCopy artifacts) stores.artifacts = .ok store)
      (entered : front.foldlM (enter log) stores.log = .ok state) :
      Progress packages indexer artifacts log resumed skipped stores rest (ending, ⟨store, state⟩)
  | done {ledger : Ledger} {store : α} {state : β}
      (put : rest.foldlM (putCopy artifacts) stores.artifacts = .ok store)
      (entered : rest.foldlM (enter log) stores.log = .ok state)
      (replayed : (numbered (log.values state)).foldlM
        (admitEntry packages.stores (importConfig indexer) artifacts store) Ledger.empty = .ok ledger) :
      Progress packages indexer artifacts log resumed skipped stores rest
        (.done ledger ⟨ledger.entries, resumed, skipped, ledger.chainHead⟩, ⟨store, state⟩)

theorem progress_writeRest (indexer : Dict → List String) (store : artifacts.Lawful packages.stores)
    (lawful : log.Lawful) (budget : Budget) {copy : Copies}
    (fit : ∀ item ∈ copy, Copyable packages item.2) (skipped : List (String × Nat)) (site : Site α β)
    (short : site.ledger.lines.length ≤ copy.length) :
    Progress packages indexer artifacts log site.ledger.lines.length skipped site.stores
      (copy.drop site.ledger.lines.length)
      (writeRest packages indexer artifacts log budget copy skipped site) := by
  rw [writeRest, Ledger.entries]
  dsimp only
  rcases spec_putEach artifacts budget site.stores.artifacts
    (copy.drop site.ledger.lines.length) with ⟨front, later, split, put, whole, stopped⟩
  generalize putEach artifacts budget site.stores.artifacts (copy.drop site.ledger.lines.length) = run
    at put whole stopped
  rcases run with ⟨result, state⟩
  cases result with
  | error ending => exact .putting (stopped ending rfl) split put
  | ok left =>
      rw [whole left rfl, List.append_nil] at split
      rw [← split] at put
      dsimp only at put ⊢
      have held := (retryable_put store).held_of_foldlM
        (fun item inside => (fit item (List.mem_of_mem_drop inside)).bare) put
      rcases spec_commitEach packages indexer lawful left
        { site with stores.artifacts := state } _ held with
        ⟨front', later', split', kept, entered, whole', stopped'⟩
      generalize commitEach packages indexer artifacts log left
        { site with stores.artifacts := state } (copy.drop site.ledger.lines.length) = run'
        at kept entered whole' stopped'
      rcases run' with ⟨result', site'⟩
      dsimp only at kept entered
      have stores : site'.stores = ⟨state, site'.stores.log⟩ := by rw [← kept]
      cases result' with
      | error ending =>
          dsimp only
          rw [stores]
          exact .entering (stopped' ending rfl) split' put entered
      | ok last =>
          rcases whole' last rfl with ⟨none, length⟩
          rw [none, List.append_nil] at split'
          rw [← split'] at entered
          have entries : site'.ledger.entries = copy.length := by
            rw [Ledger.entries, length, List.length_drop]
            dsimp only
            omega
          dsimp only
          rw [reopen, if_neg (not_not.mpr entries)]
          rw [stores]
          cases opened : openStores packages.stores (importConfig indexer) artifacts log
              ⟨state, site'.stores.log⟩ with
          | error e => exact .entering rfl (List.append_nil _).symm put entered
          | ok found =>
              rcases found with ⟨ledger, report⟩
              exact .done put entered (replay_of_openStores lawful opened)

/-- What an import did: nothing, or writes behind the entries that were there. -/
inductive Imported (packages : ImportPackages Time) (indexer : Dict → List String)
    (artifacts : RecordStore α) (log : EntryLog β) (copy : Copies) (skipped : List (String × Nat))
    (stores : Stores α β) : Ending × Stores α β → Prop where
  | unwritten {ending : Ending} (notDone : ∀ ledger report, ending ≠ .done ledger report) :
      Imported packages indexer artifacts log copy skipped stores (ending, stores)
  | written {before rest : Copies} (split : copy = before ++ rest)
      (named : (log.values stores.log).map Sha256.hex = ids before)
      (matched : Matched packages artifacts stores.artifacts before) {run : Ending × Stores α β}
      (progress : Progress packages indexer artifacts log before.length skipped stores rest run) :
      Imported packages indexer artifacts log copy skipped stores run

theorem notDone_of_checkResumed {store : α} {lines : List LedgerLine} {copy : Copies}
    {ending : Ending} (refused : checkResumed packages artifacts store lines copy = .error ending)
    (ledger : Ledger) (report : ImportReport) : ending ≠ .done ledger report := by
  induction lines generalizing copy with
  | nil => cases copy <;> cases refused
  | cons line lines ih =>
      cases copy with
      | nil => cases refused
      | cons item copy =>
          rcases item with ⟨number, record⟩
          rw [checkResumed] at refused
          split at refused
          · cases refused
            exact nofun
          · split at refused
            · cases refused
              exact nofun
            · split at refused
              · cases refused
                exact nofun
              · cases refused
                exact nofun
              · exact ih refused

theorem imported_importRecords (indexer : Dict → List String)
    (store : artifacts.Lawful packages.stores) (lawful : log.Lawful) (budget : Budget) {copy : Copies} (fit : ∀ item ∈ copy, Copyable packages item.2)
    (skipped : List (String × Nat)) (stores : Stores α β) :
    Imported packages indexer artifacts log copy skipped stores
      (importRecords packages indexer artifacts log budget copy skipped stores) := by
  rw [importRecords]
  cases opened : openStores packages.stores (importConfig indexer) artifacts log stores with
  | error e => exact .unwritten (fun _ _ => nofun)
  | ok found =>
      rcases found with ⟨ledger, report⟩
      have lines := lines_of_replay (replay_of_openStores lawful opened)
      dsimp only
      split
      · exact .unwritten (fun _ _ => nofun)
      · next short =>
          rw [Ledger.entries, not_lt] at short
          cases resumed : checkResumed packages artifacts stores.artifacts ledger.lines copy with
          | error ending => exact .unwritten (notDone_of_checkResumed resumed)
          | ok done =>
              rcases matched_of_checkResumed resumed short with ⟨named, matched⟩
              have progress := progress_writeRest indexer store lawful budget fit skipped
                ⟨ledger, stores, [], true⟩ short
              refine .written (List.take_append_drop ledger.lines.length copy).symm
                (lines.symm.trans named) matched ?_
              rw [List.length_take, Nat.min_eq_left short]
              exact progress

/-- An import that is cut off in a state that one completes from leaves such a state, with the same
end. -/
theorem completes_again (encodes : Encodes packages) (store : artifacts.Lawful packages.stores)
    (lawful : log.Lawful) {before rest : Copies} {final stores : Stores α β} {ledger : Ledger}
    (completes : Completes packages indexer artifacts log before rest final ledger stores)
    (fit : ∀ item ∈ before ++ rest, Copyable packages item.2) (skipped : List (String × Nat))
    {run : Ending × Stores α β}
    (imported : Imported packages indexer artifacts log (before ++ rest) skipped stores run) :
    ∃ before' rest', before ++ rest = before' ++ rest' ∧
      Completes packages indexer artifacts log before' rest' final ledger run.2 := by
  cases imported with
  | unwritten notDone => exact ⟨before, rest, rfl, completes⟩
  | @written before' rest' split named matched run progress =>
      have lengths := congrArg List.length (completes.named.symm.trans named)
      rw [ids, ids, List.length_map, List.length_map] at lengths
      rcases List.append_inj split lengths with ⟨rfl, rfl⟩
      have fits := fun item inside => fit item (List.mem_append_right before inside)
      cases progress with
      | putting stopped split' put => exact ⟨before, rest, rfl, completes.putting store fits split' put⟩
      | @entering _ _ front later split' state _ put entered =>
          cases completes.put.symm.trans put
          have further := completes.entering encodes store lawful fits split' entered
          exact ⟨before ++ front, later, by rw [split', List.append_assoc], further⟩
      | done put entered replayed =>
          cases completes.put.symm.trans put
          have further := completes.entering encodes store lawful fits (List.append_nil rest).symm entered
          exact ⟨before ++ rest, [], by rw [List.append_nil], further⟩

end

end StoreLedger
end CapsuleEmit
