import CapsuleEmit.Foundation.Retries
import CapsuleEmit.StoreLedger.Importing
import CapsuleEmit.StoreLedger.Replay

namespace CapsuleEmit
namespace StoreLedger

/-!
# Resuming an import

Where an import was cut off, a front of the records has been put and a front of
the entries has been appended.  The next run finds the entries as it would have
left them, puts the records again, which changes nothing, and goes on.
-/

open Python (Dict Value)
open ArtifactStore (Record Artifact ArtifactError)

universe u v

/-- What is relied on of `json.dumps` for a record without originals: its members are texts, and
texts are written. -/
def Encodes {Time : Type} (packages : ImportPackages Time) : Prop :=
  ∀ record : Record, record.artifacts = [] → ∃ text, encodeRecord packages record = .ok text

/-- A record as an import copies it. -/
structure Copyable {Time : Type} (packages : ImportPackages Time) (record : Record) : Prop where
  valid : ArtifactStore.validId record.capsuleId = true
  bare : record.artifacts = []
  prepares : prepare packages record = .ok record

/-- The records to copy. -/
abbrev Copies := List (Nat × Record)

def ids (copy : Copies) : List String := copy.map (fun item => item.2.capsuleId)

@[simp] theorem ids_append (front rest : Copies) : ids (front ++ rest) = ids front ++ ids rest :=
  List.map_append

section

variable {Time : Type} {packages : ImportPackages Time}

theorem decoded_id {record : Record} (copyable : Copyable packages record) :
    ∃ value, Python.fromHex record.capsuleId = some value ∧ Sha256.hex value = record.capsuleId := by
  rcases FlatLedger.hex_of_validId copyable.valid with ⟨value, decoded, text, -⟩
  exact ⟨value, decoded, text⟩

theorem prepared_bare {record : Record} (bare : record.artifacts = []) :
    prepared packages.stores record = record := by
  rw [prepared, bare, List.map_nil, ← bare]

/-- An import that ended on its way. -/
def Ending.stopped : Ending → Bool
  | .raised _ => true
  | .crashed => true
  | _ => false

/-! ## Puts -/

variable {α : Type u} {artifacts : RecordStore α}

def putCopy (artifacts : RecordStore α) (store : α) (item : Nat × Record) : Except ArtifactError α :=
  artifacts.put store item.2

theorem retryable_put (lawful : artifacts.Lawful packages.stores) :
    Retryable (putCopy artifacts) (fun item => item.2.artifacts = []) where
  held := by
    intro store store' item bare put
    exact lawful.retried (lawful.stored put) (by rw [bare]; simp)
  kept := by
    intro store store' item other bare here put
    exact lawful.retried (lawful.kept put (lawful.stored here)) (by rw [bare]; simp)

/-- Puts keep what is stored. -/
theorem get_of_foldlM (lawful : artifacts.Lawful packages.stores) {copy : Copies} {store final : α}
    (put : copy.foldlM (putCopy artifacts) store = .ok final) {id : String} {held : Record}
    (got : artifacts.get store id = .ok held) : artifacts.get final id = .ok held := by
  induction copy generalizing store with
  | nil =>
      cases put
      exact got
  | cons item copy ih =>
      rcases foldlM_cons_eq_ok_iff.mp put with ⟨next, first, rest⟩
      exact ih rest (lawful.kept first got)

/-- Of the puts of a run, a front was made; all of them where it went on. -/
theorem spec_putEach (artifacts : RecordStore α) (budget : Budget) (store : α) (copy : Copies) :
    ∃ front rest, copy = front ++ rest ∧
      front.foldlM (putCopy artifacts) store = .ok (putEach artifacts budget store copy).2 ∧
      (∀ left, (putEach artifacts budget store copy).1 = .ok left → rest = []) ∧
      ∀ ending, (putEach artifacts budget store copy).1 = .error ending → ending.stopped = true := by
  induction copy generalizing budget store with
  | nil => exact ⟨[], [], rfl, rfl, fun _ _ => rfl, nofun⟩
  | cons item copy ih =>
      rcases item with ⟨number, record⟩
      rw [putEach]
      cases spent : budget.spend with
      | none => exact ⟨[], _, rfl, rfl, nofun, by rintro _ ⟨⟩; rfl⟩
      | some left =>
          cases put : artifacts.put store record with
          | error e => exact ⟨[], _, rfl, rfl, nofun, by rintro _ ⟨⟩; rfl⟩
          | ok next =>
              rcases ih left next with ⟨front, rest, split, written, whole, stopped⟩
              refine ⟨(number, record) :: front, rest, by rw [split]; rfl, ?_, whole, stopped⟩
              exact foldlM_cons_eq_ok_iff.mpr ⟨next, put, written⟩

theorem putEach_none {store final : α} {copy : Copies}
    (put : copy.foldlM (putCopy artifacts) store = .ok final) :
    putEach artifacts none store copy = (.ok none, final) := by
  induction copy generalizing store with
  | nil =>
      cases put
      rfl
  | cons item copy ih =>
      rcases foldlM_cons_eq_ok_iff.mp put with ⟨next, first, rest⟩
      rcases item with ⟨number, record⟩
      rw [putCopy] at first
      rw [putEach, Budget.spend]
      dsimp only
      rw [first]
      exact ih rest

/-! ## Entries -/

variable {β : Type v} {log : EntryLog β}

/-- The entry of a record. -/
def enter (log : EntryLog β) (state : β) (item : Nat × Record) : Except Unit β :=
  match Python.fromHex item.2.capsuleId with
  | none => .error ()
  | some value =>
      match log.append state value with
      | .ok ((.inserted, _), state) => .ok state
      | _ => .error ()

theorem spec_enter (lawful : log.Lawful) {state state' : β} {item : Nat × Record}
    (entered : enter log state item = .ok state') :
    ∃ value, Python.fromHex item.2.capsuleId = some value ∧
      log.append state value = .ok ((.inserted, (log.values state).length + 1), state') ∧
      log.values state' = log.values state ++ [value] := by
  rw [enter] at entered
  cases decoded : Python.fromHex item.2.capsuleId with
  | none =>
      rw [decoded] at entered
      cases entered
  | some value =>
      rw [decoded] at entered
      dsimp only at entered
      by_cases known : value ∈ log.values state
      · rcases lawful.append_known known with ⟨seq, appended⟩
        rw [appended] at entered
        cases entered
      · rcases lawful.append_new known with ⟨next, appended, values⟩
        rw [appended] at entered
        cases entered
        exact ⟨value, rfl, appended, values⟩

/-- The log holds the ids of the entries behind those it held. -/
theorem values_of_foldlM (lawful : log.Lawful) {copy : Copies}
    (fit : ∀ item ∈ copy, Copyable packages item.2) {state final : β}
    (entered : copy.foldlM (enter log) state = .ok final) :
    log.values state <+: log.values final ∧
      (log.values final).map Sha256.hex = (log.values state).map Sha256.hex ++ ids copy := by
  induction copy generalizing state with
  | nil =>
      cases entered
      exact ⟨List.prefix_refl _, (List.append_nil _).symm⟩
  | cons item copy ih =>
      rcases foldlM_cons_eq_ok_iff.mp entered with ⟨next, first, rest⟩
      rcases spec_enter lawful first with ⟨value, decoded, -, values⟩
      rcases ih (fun other inside => fit other (List.mem_cons_of_mem _ inside)) rest with
        ⟨onward, names⟩
      rcases decoded_id (fit item List.mem_cons_self) with ⟨value', decoded', text⟩
      cases decoded.symm.trans decoded'
      rw [values] at onward names
      refine ⟨(List.prefix_append _ _).trans onward, ?_⟩
      rw [names, List.map_append, List.append_assoc]
      show _ ++ ([Sha256.hex value] ++ _) = _
      rw [text]
      rfl


theorem length_indexLine (config : Config) (ledger : Ledger) (capsuleId : String) (seq : Nat)
    (line : Dict) (padding : Bool) :
    (indexLine config ledger capsuleId seq line padding).lines.length = ledger.lines.length + 1 := by
  cases padding <;> simp [indexLine]

/-- The entry of a record that is stored is appended, or nothing is. -/
inductive Entered (artifacts : RecordStore α) (log : EntryLog β) (site : Site α β)
    (item : Nat × Record) : Except Ending Budget × Site α β → Prop where
  | ended (ending : Ending) (stopped : ending.stopped = true) (site' : Site α β)
      (same : site'.stores = site.stores) : Entered artifacts log site item (.error ending, site')
  | appended (budget : Budget) (state : β) (entered : enter log site.stores.log item = .ok state)
      (site' : Site α β) (stores : site'.stores = { site.stores with log := state })
      (longer : site'.ledger.lines.length = site.ledger.lines.length + 1) :
      Entered artifacts log site item (.ok budget, site')

theorem commit_crash (config : Config) {site : Site α β} {record : Record}
    (held : artifacts.put site.stores.artifacts record = .ok site.stores.artifacts) (line : Dict)
    (padding : Bool) :
    commit config artifacts log site record.capsuleId record line none padding .crash =
      (.crashed, { site with up := false }) := by
  rw [commit, held]

/-- Where the entry of a record that is stored is appended, the commit is done. -/
theorem commit_entered (lawful : log.Lawful) (config : Config) {site : Site α β} {item : Nat × Record}
    {state : β} (held : artifacts.put site.stores.artifacts item.2 = .ok site.stores.artifacts)
    (entered : enter log site.stores.log item = .ok state) (line : Dict) (padding : Bool) :
    ∃ seq site', commit config artifacts log site item.2.capsuleId item.2 line none padding .none =
        (.done seq, site') ∧
      site'.stores = { site.stores with log := state } ∧
      site'.ledger.lines.length = site.ledger.lines.length + 1 := by
  rcases spec_enter lawful entered with ⟨value, decoded, appended, -⟩
  rw [commit, held]
  dsimp only
  rw [decoded]
  dsimp only
  rw [appended]
  exact ⟨_, _, rfl, rfl, length_indexLine _ _ _ _ _ _⟩

/-- Where it is not, nothing is written. -/
theorem commit_refused (lawful : log.Lawful) (config : Config) {site : Site α β} {item : Nat × Record}
    (held : artifacts.put site.stores.artifacts item.2 = .ok site.stores.artifacts)
    {none' : Unit} (refused : enter log site.stores.log item = .error none') (line : Dict)
    (padding : Bool) :
    ∃ e site', commit config artifacts log site item.2.capsuleId item.2 line none padding .none =
        (.raised e, site') ∧ site'.stores = site.stores := by
  rw [enter] at refused
  rw [commit, held]
  dsimp only
  cases decoded : Python.fromHex item.2.capsuleId with
  | none => exact ⟨_, _, rfl, rfl⟩
  | some value =>
      rw [decoded] at refused
      dsimp only at refused ⊢
      by_cases known : value ∈ log.values site.stores.log
      · rcases lawful.append_known known with ⟨seq, appended⟩
        rw [appended]
        exact ⟨_, _, rfl, rfl⟩
      · rcases lawful.append_new known with ⟨next, appended, values⟩
        rw [appended] at refused
        cases refused

theorem entered_commitRecord (indexer : Dict → List String) (lawful : log.Lawful) {site : Site α β}
    (item : Nat × Record)
    (held : artifacts.put site.stores.artifacts item.2 = .ok site.stores.artifacts)
    (budget : Budget) (line : Dict) :
    Entered artifacts log site item
      (commitRecord indexer artifacts log budget site item.2 line) := by
  rw [commitRecord]
  cases budget.spend with
  | none => exact .ended .crashed rfl site rfl
  | some left =>
      dsimp only
      cases left.spend with
      | none =>
          dsimp only
          rw [commit_crash _ held]
          exact .ended .crashed rfl _ rfl
      | some last =>
          dsimp only
          cases entered : enter log site.stores.log item with
          | error refused =>
              rcases commit_refused lawful (importConfig indexer) held entered line (isPadding line) with
                ⟨e, site', run, same⟩
              rw [run]
              exact .ended (.raised e) rfl site' same
          | ok state =>
              rcases commit_entered lawful (importConfig indexer) held entered line (isPadding line) with
                ⟨seq, site', run, stores, longer⟩
              rw [run]
              exact .appended last state entered site' stores longer

theorem commitRecord_none (indexer : Dict → List String) (lawful : log.Lawful) {site : Site α β}
    {item : Nat × Record} {state : β}
    (held : artifacts.put site.stores.artifacts item.2 = .ok site.stores.artifacts)
    (entered : enter log site.stores.log item = .ok state) (line : Dict) :
    ∃ site', commitRecord indexer artifacts log none site item.2 line = (.ok none, site') ∧
      site'.stores = { site.stores with log := state } ∧
      site'.ledger.lines.length = site.ledger.lines.length + 1 := by
  rcases commit_entered lawful (importConfig indexer) held entered line (isPadding line) with
    ⟨seq, site', run, stores, longer⟩
  rw [commitRecord, Budget.spend]
  dsimp only
  rw [Budget.spend]
  dsimp only
  rw [run]
  exact ⟨site', rfl, stores, longer⟩

/-- Of the entries of records that are stored, a front was appended; all of them where the run went
on. -/
theorem spec_commitEach (packages : ImportPackages Time) (indexer : Dict → List String)
    (lawful : log.Lawful) (budget : Budget) (site : Site α β) (copy : Copies)
    (held : ∀ item ∈ copy, putCopy artifacts site.stores.artifacts item = .ok site.stores.artifacts) :
    ∃ front rest, copy = front ++ rest ∧
      (commitEach packages indexer artifacts log budget site copy).2.stores.artifacts =
        site.stores.artifacts ∧
      front.foldlM (enter log) site.stores.log =
        .ok (commitEach packages indexer artifacts log budget site copy).2.stores.log ∧
      (∀ left, (commitEach packages indexer artifacts log budget site copy).1 = .ok left →
        rest = [] ∧ (commitEach packages indexer artifacts log budget site copy).2.ledger.lines.length =
          site.ledger.lines.length + copy.length) ∧
      ∀ ending, (commitEach packages indexer artifacts log budget site copy).1 = .error ending →
        ending.stopped = true := by
  induction copy generalizing budget site with
  | nil => exact ⟨[], [], rfl, rfl, rfl, fun _ _ => ⟨rfl, rfl⟩, nofun⟩
  | cons item copy ih =>
      rcases item with ⟨number, record⟩
      have here := held (number, record) List.mem_cons_self
      rw [commitEach]
      cases Python.decodeStrictJson packages.stores.json record.capsule with
      | error why => exact ⟨[], _, rfl, rfl, rfl, nofun, by rintro _ ⟨⟩; rfl⟩
      | ok value =>
          dsimp only
          cases checkNotStale log site with
          | error e => exact ⟨[], _, rfl, rfl, rfl, nofun, by rintro _ ⟨⟩; rfl⟩
          | ok done =>
              dsimp only
              have entered := entered_commitRecord indexer lawful (number, record) here budget
                (value.dict?.getD [])
              dsimp only at entered
              generalize commitRecord indexer artifacts log budget site record (value.dict?.getD []) = run
                at entered ⊢
              cases entered with
              | ended ending stopped site' same =>
                  refine ⟨[], _, rfl, by rw [same], by rw [same]; rfl, nofun, ?_⟩
                  rintro _ ⟨⟩
                  exact stopped
              | appended left state entered site' stores longer =>
                  have later : ∀ item ∈ copy,
                      putCopy artifacts site'.stores.artifacts item = .ok site'.stores.artifacts := by
                    intro other inside
                    rw [stores]
                    exact held other (List.mem_cons_of_mem _ inside)
                  rcases ih left site' later with ⟨front, rest, split, kept, written, whole, stopped⟩
                  refine ⟨(number, record) :: front, rest, by rw [split]; rfl, ?_, ?_, ?_, stopped⟩
                  · rw [kept, stores]
                  · rw [stores] at written
                    exact foldlM_cons_eq_ok_iff.mpr ⟨state, entered, written⟩
                  · intro last went
                    rcases whole last went with ⟨none, length⟩
                    refine ⟨none, ?_⟩
                    rw [length, longer, List.length_cons]
                    omega

end

end StoreLedger
end CapsuleEmit
