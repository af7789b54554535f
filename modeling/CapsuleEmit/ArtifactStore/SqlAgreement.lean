import CapsuleEmit.ArtifactStore.SqlFind

namespace CapsuleEmit
namespace ArtifactStore

/-!
# The SQLite store answers as the in-memory store

A file holds the records of several namespaces.  A run is a list of events: a
call of the store of one namespace, or anything the stores of the other
namespaces do.  Once index paths are declared and before anything is stored,
the store answers each of its calls as the in-memory store answers the same
call, up to the order of the originals of a record.

Cursors are the exception, since rows of other namespaces take numbers too.
One placement of the numbers, the same for the whole run, translates every
cursor that goes in or comes out.  In a file that has only this namespace the
numbers are the places, and nothing is translated.
-/

/-! ## Calls and events -/

/-- A call of a store. -/
inductive Call where
  | put (record : Record)
  | get (id : String)
  | purge (id : String)
  | find (query : Query)

/-- What a store answers. -/
inductive Reply where
  | done (result : Result Unit)
  | record (result : Result Record)
  | page (result : Result Page)

/-- The cursor of a page. -/
def Reply.next? : Reply → Option String
  | .page (.ok found) => found.next
  | _ => none

/-- A call with the cursor of a query translated. -/
def Call.placed (place : Nat → Nat) : Call → Call
  | .find query => .find { query with after := Sql.placed place query.after }
  | call => call

section

variable (packages : Packages)

/-- The values a call records or asks for. -/
def Call.values (paths : List String) : Call → List Bytes
  | .put record => Sql.valuesAt packages paths record.capsule
  | .find query => query.filters.map (fun entry => utf8 entry.2)
  | _ => []

variable (trusted : List Bytes)

/-- What the in-memory store answers. -/
def MemoryStore.answer (store : MemoryStore) : Call → Reply × MemoryStore
  | .put record =>
      let result := store.put packages trusted record
      (.done result.1, result.2)
  | .get id => (.record (store.get packages trusted id), store)
  | .purge id =>
      let result := store.purge id
      (.done result.1, result.2)
  | .find query => (.page (store.find packages query), store)

namespace Sql

/-- What the store of a namespace answers, at a time of the clock. -/
def answer (ns now : String) (db : Database) : Call → Reply × Database
  | .put record =>
      let result := put packages trusted ns now record db
      (.done result.1, result.2)
  | .get id => (.record (get packages trusted ns id db), db)
  | .purge id =>
      let result := purge ns now id db
      (.done result.1, result.2)
  | .find query => (.page (find packages ns query db), db)

/-- What happens to a file: a call of the store of the namespace, a call of
another store with its own keys, or the declaration of a namespace's paths. -/
inductive Event where
  | own (now : String) (call : Call)
  | other (ns : String) (keys : List Bytes) (now : String) (call : Call)
  | declare (ns : String) (paths : List String)

/-- Every other store of the file has another namespace. -/
def Event.Elsewhere (ns : String) : Event → Prop
  | .own _ _ => True
  | .other name _ _ _ => name ≠ ns
  | .declare name _ => name ≠ ns

/-- The call of the store of the namespace. -/
def Event.call? : Event → Option Call
  | .own _ call => some call
  | _ => none

/-- An event, with the answer to a call of the store of the namespace. -/
def step (ns : String) (db : Database) : Event → Option Reply × Database
  | .own now call =>
      let result := answer packages trusted ns now db call
      (some result.1, result.2)
  | .other other keys now call => (none, (answer packages keys other now db call).2)
  | .declare other paths => (none, (initIndex packages other paths db).2)

/-- The values the calls of a run record or ask for. -/
def valuesOf (paths : List String) (events : List Event) : List Bytes :=
  (events.filterMap Event.call?).flatMap (Call.values packages paths)

end Sql

end

/-! ## Like answers -/

/-- Records that are the same up to the order of their originals, or the same error. -/
def RecordsAlike : Result Record → Result Record → Prop
  | .ok x, .ok y => SameRecord x y
  | .error e, .error e' => e = e'
  | _, _ => False

/-- The same answer, with the cursors of one placed in the other. -/
def SameReply (place : Nat → Nat) : Reply → Reply → Prop
  | .done x, .done y => x = y
  | .record x, .record y => RecordsAlike x y
  | .page x, .page y => Sql.PagesAlike place x y
  | _, _ => False

namespace Sql

variable {packages : Packages} {trusted : List Bytes} {ns : String} {roll : Roll}
  {numbered : List (Nat × (String × Bytes))} {db : Database} {store : MemoryStore}

/-! ## One event -/

theorem step_sameRows {event : Event} (elsewhere : event.Elsewhere ns) (foreign : event.call? = none)
    (db : Database) : SameRows ns db (step packages trusted ns db event).2 := by
  cases event with
  | own now call => cases foreign
  | declare other paths => exact initIndex_sameRows elsewhere paths db
  | other other keys now call =>
      cases call with
      | put record => exact put_sameRows elsewhere now record db
      | get id => exact .refl ns db
      | purge id => exact purge_sameRows elsewhere now id db
      | find query => exact .refl ns db

/-- Every recorded value is one of the given ones. -/
def Recorded (packages : Packages) (paths : List String) (values : List Bytes)
    (numbered : List (Nat × (String × Bytes))) : Prop :=
  ∀ n ∈ numbered, ∀ entry ∈ (extracted packages paths n.2).entries, utf8 entry.2 ∈ values

/-- The numbers of the namespace are all numbers given so far. -/
def Gapless (numbered : List (Nat × (String × Bytes))) (db : Database) : Prop :=
  numbered.map Prod.fst = List.range' 1 db.sequence

/-- Numbers are only added, and without gaps if there were none. -/
structure Onward (numbered numbered' : List (Nat × (String × Bytes))) (db db' : Database) : Prop where
  sequence : db.sequence ≤ db'.sequence
  gapless : Gapless numbered db → Gapless numbered' db'

theorem Onward.refl (numbered : List (Nat × (String × Bytes))) (db : Database) :
    Onward numbered numbered db db :=
  ⟨Nat.le_refl _, fun gapless => gapless⟩

/-- What a run keeps: the rows mirror an index of the declared paths, which
lists at least the given numbered records, and every value is a given one. -/
structure Kept (packages : Packages) (trusted : List Bytes) (ns : String) (paths : List String)
    (values : List Bytes) (before : List (Nat × (String × Bytes))) (roll : Roll)
    (numbered : List (Nat × (String × Bytes))) (db : Database) (store : MemoryStore) : Prop where
  mirrors : Mirrors packages trusted ns roll numbered db store
  declared : roll.paths = paths
  recorded : Recorded packages paths values numbered
  longer : before <+: numbered

/-- A put is answered alike, and a new record takes the next number. -/
theorem Mirrors.put_alike (lawful : packages.Lawful)
    (mirrors : Mirrors packages trusted ns roll numbered db store) (now : String) (record : Record)
    {values : List Bytes} (free : CollisionFree packages values)
    (recorded : Recorded packages roll.paths values numbered)
    (asked : ∀ x ∈ valuesAt packages roll.paths record.capsule, x ∈ values) :
    (put packages trusted ns now record db).1 = (store.put packages trusted record).1 ∧
      ∃ roll' numbered', Kept packages trusted ns roll.paths values numbered roll' numbered'
        (put packages trusted ns now record db).2 (store.put packages trusted record).2 ∧
        Onward numbered numbered' db (put packages trusted ns now record db).2 := by
  have same : Kept packages trusted ns roll.paths values numbered roll numbered db store :=
    ⟨mirrors, rfl, recorded, List.prefix_refl _⟩
  rcases error_or_ok (acceptRecord packages trusted record) with ⟨e, refused⟩ | ⟨prepared, admission⟩
  · have answered : put packages trusted ns now record db = (.error e, db) := by
      rw [put, withTx, putOn, refused]
      rfl
    rw [answered, MemoryStore.put, refused]
    exact ⟨rfl, roll, numbered, same, .refl _ _⟩
  · cases held : store.byId prepared.capsuleId with
    | some existing =>
        have answered : put packages trusted ns now record db =
            (if storageChecksum packages existing ≠ storageChecksum packages prepared then
              .error .conflict else if hasPurged existing then .error .purged else .ok (), db) := by
          rw [put, withTx, mirrors.putOn_known now admission held]
          split_ifs <;> rfl
        rw [answered, MemoryStore.put_held admission held]
        exact ⟨rfl, roll, numbered, same, .refl _ _⟩
    | none =>
        obtain ⟨made, verified, _⟩ := acceptRecord_ok admission
        have capsule : prepared.capsule = record.capsule := (prepare_ok made).2.1
        obtain ⟨root, decodes⟩ := succeeds_iff.mp (decodes_of_verify verified)
        obtain ⟨read, reads⟩ : ∃ read, extract packages prepared.capsule roll.paths = .ok read := by
          rw [extract, decodes]
          exact ⟨_, rfl⟩
        have own : ∀ x ∈ valuesAt packages roll.paths prepared.capsule, x ∈ values := by
          rwa [capsule]
        have fresh : prepared.capsuleId ∉ roll.records.map Prod.fst := by
          rw [mirrors.listed, held]
          exact Bool.false_ne_true
        obtain ⟨lookup, added, indexes⟩ := indexes_add mirrors.indexes fresh reads
        have answered : put packages trusted ns now record db =
            (.ok (), Sql.inserted packages ns now prepared read db) := by
          rw [put, withTx, mirrors.putOn_new lawful now admission held reads (free.mono own)]
          rfl
        have stored : store.put packages trusted record = (.ok (),
            ⟨Function.update store.byId prepared.capsuleId (some prepared),
              store.order ++ [prepared.capsuleId], lookup⟩) := by
          simp only [MemoryStore.put, admission, held, added]
        rw [answered, stored]
        refine ⟨rfl, _, _, ⟨mirrors.inserted now admission held reads (free.mono own) _ fresh indexes,
          rfl, ?_, List.prefix_append _ _⟩, Nat.le_succ _, fun gapless => ?_⟩
        · intro n member entry inEntries
          rcases List.mem_append.mp member with member | single
          · exact recorded n member entry inEntries
          · rw [List.mem_singleton.mp single, extracted, reads] at inEntries
            refine own _ ?_
            rw [valuesAt, reads]
            exact List.mem_map_of_mem inEntries
        · rw [Gapless, List.map_append, gapless, Sql.inserted, List.range'_concat]
          simp [Nat.add_comm]

/-- A purge is answered alike. -/
theorem Mirrors.purge_alike (lawful : packages.Lawful)
    (mirrors : Mirrors packages trusted ns roll numbered db store) (now id : String) :
    (purge ns now id db).1 = (store.purge id).1 ∧
      Mirrors packages trusted ns roll numbered (purge ns now id db).2 (store.purge id).2 ∧
      (purge ns now id db).2.sequence = db.sequence := by
  rw [purge, MemoryStore.purge]
  by_cases valid : validId id = true
  · rw [if_pos valid, if_pos valid]
    cases held : store.byId id with
    | none =>
        have any := mirrors.any_capsule id
        rw [held, Option.isSome_none] at any
        have answered : withTx db (fun db => (purgeOn ns now id db).map (fun db => ((), db))) =
            (.error .notFound, db) := by
          rw [withTx, purgeOn, any]
          rfl
        rw [answered]
        exact ⟨rfl, mirrors, rfl⟩
    | some stored =>
        rw [withTx, mirrors.purgeOn_held lawful now held]
        exact ⟨rfl, mirrors.purged lawful now held, rfl⟩
  · rw [if_neg valid, if_neg valid]
    exact ⟨rfl, mirrors, rfl⟩

theorem Mirrors.get_alike (mirrors : Mirrors packages trusted ns roll numbered db store)
    (id : String) :
    RecordsAlike (get packages trusted ns id db) (store.get packages trusted id) := by
  rw [get, MemoryStore.get]
  by_cases valid : validId id = true
  · rw [if_pos valid, valid, ensure_true, ok_bind]
    have read := mirrors.readOn_eq valid
    cases held : store.byId id with
    | none =>
        rw [held] at read
        rw [withTx, read]
        exact rfl
    | some record =>
        rw [held] at read
        obtain ⟨found, read, same⟩ := read
        obtain ⟨results, verified⟩ := succeeds_iff.mp (mirrors.admitted id record held).2.verified
        rw [withTx, read]
        simp only [verified, ok_bind]
        exact same
  · rw [if_neg valid, Bool.eq_false_iff.mpr valid, ensure_false, error_bind]
    exact rfl

theorem state_placed (place : Nat → Nat) (store : MemoryStore) (call : Call) :
    (store.answer packages trusted (call.placed place)).2 = (store.answer packages trusted call).2 := by
  cases call <;> rfl

/-- A call is answered alike under every placement, and keeps what a run keeps. -/
theorem Mirrors.answer_alike (lawful : packages.Lawful)
    (mirrors : Mirrors packages trusted ns roll numbered db store) (now : String) (call : Call)
    {values : List Bytes} (free : CollisionFree packages values)
    (recorded : Recorded packages roll.paths values numbered)
    (asked : ∀ x ∈ call.values packages roll.paths, x ∈ values) :
    (∀ place, Placement place numbered → db.sequence ≤ maxI64 →
      SameReply place (answer packages trusted ns now db call).1
        (store.answer packages trusted (call.placed place)).1) ∧
      ∃ roll' numbered', Kept packages trusted ns roll.paths values numbered roll' numbered'
        (answer packages trusted ns now db call).2 (store.answer packages trusted call).2 ∧
        Onward numbered numbered' db (answer packages trusted ns now db call).2 := by
  have same : Kept packages trusted ns roll.paths values numbered roll numbered db store :=
    ⟨mirrors, rfl, recorded, List.prefix_refl _⟩
  cases call with
  | put record =>
      obtain ⟨alike, kept⟩ := mirrors.put_alike lawful now record free recorded asked
      exact ⟨fun _ _ _ => alike, kept⟩
  | get id => exact ⟨fun _ _ _ => mirrors.get_alike id, roll, numbered, same, .refl _ _⟩
  | purge id =>
      obtain ⟨alike, after, sequence⟩ := mirrors.purge_alike lawful now id
      refine ⟨fun _ _ _ => alike, roll, numbered, ⟨after, rfl, recorded, List.prefix_refl _⟩,
        Nat.le_of_eq sequence.symm, fun gapless => ?_⟩
      rw [Gapless, answer, sequence]
      exact gapless
  | find query =>
      refine ⟨fun place placement bounded => ?_, roll, numbered, same, .refl _ _⟩
      exact mirrors.find_alike free recorded
        (fun entry member => asked _ (List.mem_map_of_mem member)) placement bounded

/-! ## Placements -/

/-- What stands behind a number in an ascending list stands behind a place. -/
theorem filter_eq_drop_count (ascending : numbered.Pairwise (fun x y => x.1 < y.1)) (s : Nat) :
    numbered.filter (fun n => s < n.1) =
      numbered.drop (numbered.filter (fun n => n.1 ≤ s)).length := by
  induction numbered with
  | nil => rfl
  | cons n numbered ih =>
      obtain ⟨first, rest⟩ := List.pairwise_cons.mp ascending
      rw [List.filter_cons, List.filter_cons]
      by_cases behind : s < n.1
      · have later : ∀ m ∈ numbered, s < m.1 := fun m member => Nat.lt_trans behind (first m member)
        have none : numbered.filter (fun n => n.1 ≤ s) = [] :=
          List.filter_eq_nil_iff.mpr (fun m member => by
            rw [decide_eq_true_eq]
            exact Nat.not_le_of_lt (later m member))
        have all : numbered.filter (fun n => s < n.1) = numbered :=
          List.filter_eq_self.mpr (fun m member => decide_eq_true (later m member))
        simp [behind, none, all, Nat.not_le_of_lt behind]
      · simp [behind, Nat.le_of_not_lt behind, ih rest]

/-- A placement for a list is one for what the list had before. -/
theorem Placement.of_prefix {place : Nat → Nat} {longer : List (Nat × (String × Bytes))}
    (placement : Placement place longer) (ascending : longer.Pairwise (fun x y => x.1 < y.1))
    (front : numbered <+: longer) : Placement place numbered where
  zero := placement.zero
  small := placement.small
  behind := by
    intro s
    obtain ⟨more, rfl⟩ := front
    obtain ⟨earlier, _, before⟩ := List.pairwise_append.mp ascending
    have whole := placement.behind s
    rw [List.filter_append, List.drop_append] at whole
    have counted := filter_eq_drop_count earlier s
    by_cases all : ∀ n ∈ more, s < n.1
    · -- every later record is behind the number, so both sides end with all of them
      have rest : more.filter (fun n => s < n.1) = more :=
        List.filter_eq_self.mpr (fun n member => decide_eq_true (all n member))
      rw [rest] at whole
      have lengths := congrArg List.length whole
      rw [List.length_append, List.length_append, counted] at lengths
      simp only [List.length_drop] at lengths
      by_cases inside : place s ≤ numbered.length
      · rw [Nat.sub_eq_zero_of_le inside, List.drop_zero] at whole
        exact List.append_cancel_right whole
      · rw [List.drop_eq_nil_of_le (by omega)]
        rw [counted]
        refine List.drop_eq_nil_of_le ?_
        omega
    · -- a later record is not behind it, so no earlier one is
      push Not at all
      obtain ⟨last, member, below⟩ := all
      have none : numbered.filter (fun n => s < n.1) = [] :=
        List.filter_eq_nil_iff.mpr (fun n inside => by
          rw [decide_eq_true_eq]
          have less := before n inside last member
          omega)
      rw [none]
      rw [none, List.nil_append] at whole
      have lengths := congrArg List.length whole
      rw [List.length_append, List.length_drop, List.length_drop] at lengths
      have fewer : (more.filter (fun n => s < n.1)).length < more.length := by
        refine List.length_filter_lt_length_iff_exists.mpr ⟨last, member, ?_⟩
        rw [decide_eq_true_eq]
        exact Nat.not_lt_of_le below
      exact (List.drop_eq_nil_of_le (by omega)).symm

/-- The place of a number: how many rows of the namespace have at most it. -/
def placeOf (ns : String) (db : Database) (s : Nat) : Nat :=
  (db.indexRecords.filter (fun row => row.ns = ns && row.seq ≤ s)).length

/-- There are no more indexed records than numbers. -/
theorem Mirrors.length_le (mirrors : Mirrors packages trusted ns roll numbered db store) :
    numbered.length ≤ db.sequence := by
  have distinct : (numbered.map Prod.fst).Nodup :=
    List.pairwise_map.mpr (mirrors.ascending.imp (fun less => Nat.ne_of_lt less))
  have among : numbered.map Prod.fst ⊆ List.range' 1 db.sequence := by
    intro number member
    obtain ⟨n, inside, rfl⟩ := List.mem_map.mp member
    have given := mirrors.given inside
    rw [List.mem_range'_1]
    omega
  have size := (List.subperm_of_subset distinct among).length_le
  rwa [List.length_map, List.length_range'] at size

theorem Mirrors.placement (mirrors : Mirrors packages trusted ns roll numbered db store)
    (bounded : db.sequence ≤ maxI64) : Placement (placeOf ns db) numbered := by
  have counted : ∀ s, placeOf ns db s = (numbered.filter (fun n => n.1 ≤ s)).length := by
    intro s
    rw [placeOf, filter_both, mirrors.records, List.filter_map, List.length_map]
    rfl
  have inside : ∀ s, placeOf ns db s ≤ db.sequence := by
    intro s
    rw [counted]
    exact (List.length_filter_le _ _).trans mirrors.length_le
  refine ⟨?_, fun s => ?_, fun s _ => (inside s).trans bounded⟩
  · rw [counted, List.filter_eq_nil_iff.mpr (fun n member => ?_)]
    · rfl
    · rw [decide_eq_true_eq]
      have given := (mirrors.given member).1
      omega
  · rw [counted, filter_eq_drop_count mirrors.ascending]

/-- Without gaps the numbers are the places. -/
theorem Mirrors.placement_id (mirrors : Mirrors packages trusted ns roll numbered db store)
    (gapless : Gapless numbered db) : Placement id numbered := by
  refine ⟨rfl, fun s => ?_, fun s small => small⟩
  have size := congrArg List.length gapless
  rw [List.length_map, List.length_range'] at size
  rcases Nat.eq_zero_or_pos s with zero | positive
  · rw [zero]
    exact List.filter_eq_self.mpr (fun n member => decide_eq_true (mirrors.given member).1)
  · rcases Nat.lt_or_ge numbered.length s with beyond | inside
    · rw [show id s = s from rfl, List.drop_eq_nil_of_le (Nat.le_of_lt beyond)]
      refine List.filter_eq_nil_iff.mpr (fun n member => ?_)
      have given := (mirrors.given member).2
      rw [decide_eq_true_eq]
      omega
    · obtain ⟨n, at_s⟩ : ∃ n, numbered[s - 1]? = some n := ⟨_, List.getElem?_eq_getElem (by omega)⟩
      have number := congrArg (fun l => l[s - 1]?) gapless
      simp only [List.getElem?_map, at_s, Option.map_some] at number
      rw [List.getElem?_range' (by omega), Option.some_inj] at number
      have behind := filter_behind mirrors.ascending at_s
      rw [show n.1 = s by omega, show s - 1 + 1 = s by omega] at behind
      exact behind

/-! ## Runs -/

/-- The calls of the store of the namespace in a run. -/
def calls (events : List Event) : List Call := events.filterMap Event.call?

/-- The answers to the calls of the store of the namespace in a run. -/
def replies (packages : Packages) (trusted : List Bytes) (ns : String) (db : Database)
    (events : List Event) : List Reply :=
  (Machine.answers (step packages trusted ns) db events).filterMap id

/-- A run is answered alike under every placement of its last numbers. -/
theorem run_alike (lawful : packages.Lawful) {values : List Bytes}
    (free : CollisionFree packages values) {paths : List String} (events : List Event)
    (elsewhere : ∀ event ∈ events, event.Elsewhere ns)
    (asked : ∀ x ∈ valuesOf packages paths events, x ∈ values)
    (mirrors : Mirrors packages trusted ns roll numbered db store) (declared : roll.paths = paths)
    (recorded : Recorded packages paths values numbered) :
    ∃ roll' numbered', Kept packages trusted ns paths values numbered roll' numbered'
      (Machine.after (step packages trusted ns) db events)
      (Machine.after (MemoryStore.answer packages trusted) store (calls events)) ∧
      db.sequence ≤ (Machine.after (step packages trusted ns) db events).sequence ∧
      (∀ place, Placement place numbered' →
        (Machine.after (step packages trusted ns) db events).sequence ≤ maxI64 →
        List.Forall₂ (SameReply place) (replies packages trusted ns db events)
          (Machine.answers (MemoryStore.answer packages trusted) store
            ((calls events).map (Call.placed place)))) ∧
      ((∀ event ∈ events, event.call?.isSome = true) → Gapless numbered db →
        Gapless numbered' (Machine.after (step packages trusted ns) db events)) := by
  induction events generalizing db store roll numbered with
  | nil =>
      exact ⟨roll, numbered, ⟨mirrors, declared, recorded, List.prefix_refl _⟩, Nat.le_refl _,
        fun _ _ _ => List.Forall₂.nil, fun _ gapless => gapless⟩
  | cons event events ih =>
      have here := elsewhere event List.mem_cons_self
      have later := fun e member => elsewhere e (List.mem_cons_of_mem event member)
      cases own : event.call? with
      | none =>
          have same := @step_sameRows packages trusted _ _ here own db
          have silent : (step packages trusted ns db event).1 = none := by
            cases event with
            | own now call => cases own
            | other name keys now call => rfl
            | declare name paths => rfl
          have skipped : calls (event :: events) = calls events := List.filterMap_cons_none own
          rw [valuesOf, List.filterMap_cons_none own] at asked
          obtain ⟨roll', numbered', kept, onward, alike, _⟩ :=
            ih later asked (mirrors.of_sameRows same) declared recorded
          refine ⟨roll', numbered', ?_, same.sequence.trans onward, ?_, ?_⟩
          · rw [skipped]
            exact kept
          · rw [skipped, replies, Machine.answers, silent]
            exact alike
          · intro all
            have some := all event List.mem_cons_self
            rw [own] at some
            cases some
      | some call =>
          obtain ⟨now, rfl⟩ : ∃ now, event = .own now call := by
            cases event <;> cases own
            exact ⟨_, rfl⟩
          have counted : calls (.own now call :: events) = call :: calls events := rfl
          rw [valuesOf, List.filterMap_cons_some own, List.flatMap_cons] at asked
          obtain ⟨first, mid, numberedMid, kept, onward⟩ := mirrors.answer_alike lawful now call free
            (by rwa [declared]) (fun x member => asked x (List.mem_append_left _ (declared ▸ member)))
          rw [declared] at kept
          obtain ⟨roll', numbered', keptLast, further, alike, gapless⟩ :=
            ih later (fun x member => asked x (List.mem_append_right _ member)) kept.mirrors
              kept.declared kept.recorded
          refine ⟨roll', numbered', ⟨keptLast.mirrors, keptLast.declared, keptLast.recorded,
            kept.longer.trans keptLast.longer⟩, onward.sequence.trans further, ?_, ?_⟩
          · intro place placement bounded
            rw [counted, List.map_cons, Machine.answers, replies, Machine.answers,
              List.filterMap_cons_some (by rfl), state_placed]
            refine List.Forall₂.cons (first place ?_ ?_) (alike place placement bounded)
            · exact placement.of_prefix keptLast.mirrors.ascending
                (kept.longer.trans keptLast.longer)
            · exact (onward.sequence.trans further).trans bounded
          · intro all start
            exact gapless (fun e member => all e (List.mem_cons_of_mem _ member))
              (onward.gapless start)

/-! ## The start of a run -/

/-- No table has a row of the namespace. -/
structure Unused (ns : String) (db : Database) : Prop where
  capsules : ∀ row ∈ db.capsules, row.ns ≠ ns
  artifacts : ∀ row ∈ db.artifacts, row.ns ≠ ns
  indexPaths : ∀ row ∈ db.indexPaths, row.ns ≠ ns
  indexRecords : ∀ row ∈ db.indexRecords, row.ns ≠ ns
  index : ∀ row ∈ db.index, row.ns ≠ ns

theorem filter_unused {ρ : Type} {key : ρ → String} {rows : List ρ}
    (unused : ∀ row ∈ rows, key row ≠ ns) : rows.filter (fun row => key row = ns) = [] :=
  List.filter_eq_nil_iff.mpr (fun row member => by
    rw [decide_eq_true_eq]
    exact unused row member)

/-- The in-memory store before a declaration. -/
def emptyStore : MemoryStore := ⟨fun _ => none, [], MemoryIndex.default⟩

/-- A valid declaration in an unused namespace succeeds. -/
theorem initIndex_unused {start : Database} (unused : Unused ns start) {paths normalized : List String}
    (normal : normalizePaths packages paths = .ok normalized) :
    initIndex packages ns paths start = (.ok (), { start with
      indexTables := true
      indexPaths := start.indexPaths ++ [⟨ns, encodePaths normalized⟩] }) := by
  have absent : start.indexPaths.find? (fun row => row.ns = ns) = none :=
    List.find?_eq_none.mpr (fun row member => by
      rw [decide_eq_true_eq]
      exact unused.indexPaths row member)
  have inserted := @Tables.insert_of_fresh _ _ _ PathsRow.ns ⟨ns, encodePaths normalized⟩ _
    unused.indexPaths
  have records := filter_unused unused.capsules
  simp only [initIndex, normal, withTx, declare, ok_bind, declared, if_true, absent, inserted,
    backfill, records]
  rfl

theorem initIndex_emptyStore {paths normalized : List String}
    (normal : normalizePaths packages paths = .ok normalized) :
    emptyStore.initIndex packages paths =
      (.ok (), { emptyStore with lookup := MemoryIndex.reset normalized }) := by
  rw [MemoryStore.initIndex, MemoryIndex.declare, normal]
  rfl

/-- After a declaration the rows of the namespace mirror the empty store. -/
theorem mirrors_start {start : Database} (wf : WellFormed start) (unused : Unused ns start)
    {paths normalized : List String} (normal : normalizePaths packages paths = .ok normalized)
    (plain : PlainPaths packages normalized) :
    Mirrors packages trusted ns (.declared normalized (nodup_of_normalizePaths normal)) []
      (initIndex packages ns paths start).2 (emptyStore.initIndex packages paths).2 := by
  rw [initIndex_unused unused normal, initIndex_emptyStore normal]
  exact {
    tables := rfl
    paths := by
      rw [List.find?_append, List.find?_eq_none.mpr (fun row member => by
        rw [decide_eq_true_eq]
        exact unused.indexPaths row member)]
      simp [Roll.declared]
    decodes := decodePaths_encodePaths plain normal
    capsules := fun id => by
      rw [capsuleRows, filter_unused unused.capsules]
      rfl
    artifacts := fun id => by
      rw [originalRows, filter_unused unused.artifacts]
      exact List.Perm.refl _
    admitted := fun id record found => by cases found
    indexes := indexes_reset normalized (nodup_of_normalizePaths normal)
    listed := fun id => by simp [Roll.declared, emptyStore]
    records := filter_unused unused.indexRecords
    numbers := rfl
    ascending := List.Pairwise.nil
    entries := fun row own => by
      constructor
      · exact fun member => absurd own (unused.index row member)
      · rintro ⟨n, member, _⟩
        cases member
    wellFormed := ⟨wf.distinct, wf.given, wf.entries⟩ }

/-! ## Following the cursors -/

/-- A caller that follows the cursors of a query: the ids it read, and its cursor. -/
inductive Reads (find : Query → Result Page) (query : Query) : Option String → List String → Prop
  | start : Reads find query none []
  | next {after : Option String} {ids : List String} {page : Page} {cursor : String} :
      Reads find query after ids → find { query with after := after } = .ok page →
      page.next = some cursor → Reads find query (some cursor) (ids ++ page.ids)

/-- The ids that following the cursors of a query to the end gives. -/
def Lists (find : Query → Result Page) (query : Query) (ids : List String) : Prop :=
  ∃ after front page, Reads find query after front ∧
    find { query with after := after } = .ok page ∧ page.next = none ∧ ids = front ++ page.ids

/-- A walk over an index that does not change reads its pages. -/
theorem reads_of_walk {query : Query} {start index : MemoryIndex} {added : List (String × Bytes)}
    {after : Option String} {pages : List Page} (walk : Walk packages query start added index after pages)
    (unchanged : added = []) :
    start = index ∧ Reads (start.find packages) query after (pages.flatMap Page.ids) := by
  induction walk with
  | first => exact ⟨rfl, .start⟩
  | page walk found next ih =>
      obtain ⟨rfl, reads⟩ := ih unchanged
      refine ⟨rfl, ?_⟩
      rw [List.flatMap_append, List.flatMap_singleton]
      exact reads.next found next
  | add id capsule walk ih => simp at unchanged

/-- Whoever can read pages of the in-memory store can read the same of the tables. -/
theorem reads_alike {place : Nat → Nat} {left right : Query → Result Page} {query : Query}
    (alike : ∀ after, PagesAlike place (left { query with after := after })
      (right { query with after := placed place after })) {after : Option String}
    {ids : List String} (reads : Reads right query after ids) :
    ∃ other, placed place other = after ∧ Reads left query other ids := by
  induction reads with
  | start => exact ⟨none, rfl, .start⟩
  | @next after ids page cursor reads found next ih =>
      obtain ⟨other, rfl, before⟩ := ih
      have pages := alike other
      rw [found] at pages
      cases answered : left { query with after := other } with
      | error e =>
          rw [answered] at pages
          cases pages
      | ok read =>
          rw [answered] at pages
          obtain ⟨same, cursors, _⟩ := pages
          rw [next] at cursors
          cases onward : read.next with
          | none =>
              rw [onward] at cursors
              cases cursors
          | some onto =>
              rw [onward] at cursors
              rw [← same]
              exact ⟨some onto, cursors.symm, before.next answered onward⟩

/-- Following the cursors of a query to the end gives the same ids, or the
query fails with the same error. -/
theorem Mirrors.lists_alike (mirrors : Mirrors packages trusted ns roll numbered db store)
    {values : List Bytes} (recorded : Recorded packages roll.paths values numbered)
    (bounded : db.sequence ≤ maxI64) (query : Query)
    (free : CollisionFree packages (values ++ query.filters.map (fun entry => utf8 entry.2))) :
    (∃ e, find packages ns { query with after := none } db = .error e ∧
        store.find packages { query with after := none } = .error e) ∨
      ∃ ids, Lists (fun query => find packages ns query db) query ids ∧
        Lists (store.find packages) query ids := by
  have placement := mirrors.placement bounded
  have alike : ∀ after, PagesAlike (placeOf ns db) (find packages ns { query with after := after } db)
      (store.find packages { query with after := placed (placeOf ns db) after }) := by
    intro after
    refine @Mirrors.find_alike _ _ _ _ _ _ _ mirrors _ free ?_
      { query with after := after } ?_ _ placement bounded
    · exact fun n member entry inEntries => List.mem_append_left _ (recorded n member entry inEntries)
    · exact fun entry member => List.mem_append_right _ (List.mem_map_of_mem member)
  rcases error_or_ok (check packages { query with after := none } roll.paths) with ⟨e, refused⟩ | ⟨c, valid⟩
  · refine Or.inl ⟨e, ?_, ?_⟩
    · rw [find, declared_of_row mirrors.tables mirrors.paths mirrors.decodes]
      simp only [ok_bind, refused, error_bind]
    · rw [MemoryStore.find, MemoryIndex.find, mirrors.indexes.paths]
      simp only [refused, error_bind]
  · right
    have small : store.lookup.ids.length ≤ maxI64 := by
      have counted : store.lookup.ids.length = numbered.length := by
        rw [mirrors.indexes.ids, ← mirrors.numbers, List.length_map, List.length_map]
      have all := mirrors.length_le
      omega
    obtain ⟨after, pages, page, walk, answered, ended⟩ :=
      exists_last_page mirrors.indexes valid small
    obtain ⟨_, reads⟩ := reads_of_walk walk rfl
    obtain ⟨other, rfl, before⟩ :=
      @reads_alike _ (fun query => find packages ns query db) _ _ alike _ _ reads
    have last := alike other
    rw [show store.find packages = store.lookup.find packages from rfl, answered] at last
    cases found : find packages ns { query with after := other } db with
    | error e =>
        rw [found] at last
        cases last
    | ok read =>
        rw [found] at last
        obtain ⟨same, _, last⟩ := last
        exact ⟨pages.flatMap Page.ids ++ page.ids,
          ⟨other, _, read, before, found, last ended, by rw [same]⟩,
          ⟨_, _, page, reads, answered, ended, rfl⟩⟩

theorem placed_id (after : Option String) : placed id after = after := by
  rw [placed]
  cases read : afterOf after with
  | error e => rfl
  | ok s =>
      simp only
      by_cases zero : s = 0
      · rw [if_pos zero]
      · rw [if_neg zero, show id s = s from rfl, MemoryIndex.cursorAfter, if_neg zero]
        unfold afterOf at read
        split at read
        · cases read
          exact absurd rfl zero
        · split_ifs at read with empty
          · cases read
            exact absurd rfl zero
          · split at read
            · next cursor _ n parsed =>
                cases read
                rw [parseCursor] at parsed
                split_ifs at parsed with canonical
                cases parsed
                exact congrArg some canonical.2.2
            · cases read

theorem call_placed_id (call : Call) : call.placed id = call := by
  cases call with
  | find query => simp only [Call.placed, placed_id]
  | put record => rfl
  | get id => rfl
  | purge id => rfl

/-- Once paths are declared in an unused namespace, every call is answered as
the in-memory store answers it: the same result or error, records up to the
order of their originals, and pages with the same ids, where a cursor is the
number of a row and one placement translates the cursors of the whole run.
Following the cursors of any query to the end gives the same ids.  In a file
that has only this namespace the cursors are the same too. -/
theorem answers_as_memory (lawful : packages.Lawful) {start : Database} (wf : WellFormed start)
    (unused : Unused ns start) {paths normalized : List String}
    (normal : normalizePaths packages paths = .ok normalized)
    (plain : PlainPaths packages normalized) (events : List Event)
    (elsewhere : ∀ event ∈ events, event.Elsewhere ns)
    (free : CollisionFree packages (valuesOf packages normalized events))
    (bounded : (Machine.after (step packages trusted ns) (initIndex packages ns paths start).2
      events).sequence ≤ maxI64) :
    let db := (initIndex packages ns paths start).2
    let store := (emptyStore.initIndex packages paths).2
    let final := Machine.after (step packages trusted ns) db events
    let last := Machine.after (MemoryStore.answer packages trusted) store (calls events)
    (initIndex packages ns paths start).1 = (emptyStore.initIndex packages paths).1 ∧
      List.Forall₂ (SameReply (placeOf ns final)) (replies packages trusted ns db events)
        (Machine.answers (MemoryStore.answer packages trusted) store
          ((calls events).map (Call.placed (placeOf ns final)))) ∧
      (∀ query : Query, CollisionFree packages (valuesOf packages normalized events ++
          query.filters.map (fun entry => utf8 entry.2)) →
        (∃ e, find packages ns { query with after := none } final = .error e ∧
            last.find packages { query with after := none } = .error e) ∨
          ∃ ids, Lists (fun query => find packages ns query final) query ids ∧
            Lists (last.find packages) query ids) ∧
      ((∀ event ∈ events, event.call?.isSome = true) → start.sequence = 0 →
        List.Forall₂ (SameReply id) (replies packages trusted ns db events)
          (Machine.answers (MemoryStore.answer packages trusted) store (calls events))) := by
  intro db store final last
  have mirrors := @mirrors_start packages trusted _ _ wf unused _ _ normal plain
  obtain ⟨roll, numbered, kept, _, alike, gapless⟩ := @run_alike _ _ _ _ _ _ _
    lawful _ free normalized events elsewhere (fun x member => member) mirrors rfl
    (fun n member => by cases member)
  have recorded : Recorded packages roll.paths (valuesOf packages normalized events) numbered := by
    rw [kept.declared]
    exact kept.recorded
  refine ⟨?_, ?_, fun query distinct => ?_, fun alone fresh => ?_⟩
  · rw [initIndex_unused unused normal, initIndex_emptyStore normal]
  · exact alike _ (kept.mirrors.placement bounded) bounded
  · exact kept.mirrors.lists_alike recorded bounded query distinct
  · have begun : Gapless [] db := by
      rw [Gapless, show db.sequence = start.sequence by
        simp only [db, initIndex_unused unused normal], fresh]
      rfl
    have same := alike id (kept.mirrors.placement_id (gapless alone begun)) bounded
    rwa [show Call.placed id = id from funext call_placed_id, List.map_id] at same

/-! ## Padding records in a file -/

/-- A file without tables. -/
def emptyFile : Database := ⟨false, [], [], [], [], [], 0⟩

theorem wellFormed_emptyFile : WellFormed emptyFile where
  distinct := List.nodup_nil
  given := fun row member => by cases member
  entries := List.nodup_nil

theorem unused_emptyFile (ns : String) : Unused ns emptyFile where
  capsules := fun row member => by cases member
  artifacts := fun row member => by cases member
  indexPaths := fun row member => by cases member
  indexRecords := fun row member => by cases member
  index := fun row member => by cases member

/-- Two stores of one file: each puts the first record, one also the second. -/
def sharedEvents : List Event :=
  [.declare "other" ["record_type"],
    .other "other" [trustedKey] "2026-01-01T00:00:00.000Z" (.put firstRecord),
    .own "2026-01-01T00:00:01.000Z" (.put firstRecord),
    .own "2026-01-01T00:00:02.000Z" (.put secondRecord),
    .own "2026-01-01T00:00:03.000Z" (.find ⟨[("record_type", "padding")], none, none, 1⟩)]

set_option maxRecDepth 20000 in
theorem values_sharedEvents : valuesOf paddingPackages ["record_type"] sharedEvents =
    [utf8 "padding", utf8 "padding", utf8 "padding"] := by
  decide +kernel

theorem answers_as_memory_padding :
    let db := (initIndex paddingPackages "conformance" ["record_type"] emptyFile).2
    let store := (emptyStore.initIndex paddingPackages ["record_type"]).2
    let final := Machine.after (step paddingPackages [trustedKey] "conformance") db sharedEvents
    List.Forall₂ (SameReply (placeOf "conformance" final))
      (replies paddingPackages [trustedKey] "conformance" db sharedEvents)
      (Machine.answers (MemoryStore.answer paddingPackages [trustedKey]) store
        ((calls sharedEvents).map (Call.placed (placeOf "conformance" final)))) := by
  have normal : normalizePaths paddingPackages ["record_type"] = .ok ["record_type"] := by
    decide +kernel
  have free : CollisionFree paddingPackages
      (valuesOf paddingPackages ["record_type"] sharedEvents) := by
    intro x inX y inY _
    rw [values_sharedEvents] at inX inY
    simp only [List.mem_cons, List.not_mem_nil, or_false, or_self] at inX inY
    rw [inX, inY]
  have elsewhere : ∀ event ∈ sharedEvents, event.Elsewhere "conformance" := by
    intro event member
    simp only [sharedEvents, List.mem_cons, List.not_mem_nil, or_false] at member
    rcases member with rfl | rfl | rfl | rfl | rfl <;> simp [Event.Elsewhere]
  exact (@answers_as_memory _ [trustedKey] _ paddingPackages_lawful _ wellFormed_emptyFile
    (unused_emptyFile "conformance") _ _ normal (by rw [PlainPaths]; rfl) sharedEvents elsewhere
    free (by decide +kernel)).2.1

theorem next_of_sameReply {x y : Reply} (same : SameReply id x y) : y.next? = x.next? := by
  cases x with
  | done x => cases y <;> first | rfl | cases same
  | record x => cases y <;> first | rfl | cases same
  | page x =>
      cases y with
      | done y => cases same
      | record y => cases same
      | page y =>
          cases x with
          | error e => cases y <;> first | rfl | cases same
          | ok x =>
              cases y with
              | error e => cases same
              | ok y =>
                  obtain ⟨_, cursors, _⟩ := same
                  rw [placed_id] at cursors
                  exact cursors

set_option maxRecDepth 20000 in
/-- In a shared file the same find gives another cursor than in memory. -/
theorem not_same_cursors_shared :
    ¬ List.Forall₂ (SameReply id)
      (replies paddingPackages [trustedKey] "conformance"
        (initIndex paddingPackages "conformance" ["record_type"] emptyFile).2 sharedEvents)
      (Machine.answers (MemoryStore.answer paddingPackages [trustedKey])
        (emptyStore.initIndex paddingPackages ["record_type"]).2 (calls sharedEvents)) := by
  intro alike
  have cursors := map_eq_of_forall₂
    (fun x y (same : SameReply id x y) => (next_of_sameReply same).symm) alike
  have tables : (replies paddingPackages [trustedKey] "conformance"
      (initIndex paddingPackages "conformance" ["record_type"] emptyFile).2 sharedEvents).map
        Reply.next? = [none, none, some "2"] := by
    decide +kernel
  have memory : (Machine.answers (MemoryStore.answer paddingPackages [trustedKey])
      (emptyStore.initIndex paddingPackages ["record_type"]).2 (calls sharedEvents)).map
        Reply.next? = [none, none, some "1"] := by
    decide +kernel
  rw [tables, memory] at cursors
  exact absurd cursors (by decide)

end Sql
end ArtifactStore
end CapsuleEmit
