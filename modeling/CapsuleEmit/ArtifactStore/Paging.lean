import CapsuleEmit.ArtifactStore.Concrete
import CapsuleEmit.Foundation.Machine
import CapsuleEmit.Foundation.Places
import Mathlib.Algebra.BigOperators.Group.List.Basic

namespace CapsuleEmit
namespace ArtifactStore

open Places

/-!
# Pages of the index

What the index is for: a roll of the declared paths and of the records indexed
since, in order.  A query selects the records of the roll that hold every
value it asks for and are not older than its bound.

The index keeps the place of each record and the places of each value.  After
any declarations, resets and additions it represents the roll of the same
operations.  On such an index a page has the next selected records, as many as
the limit lets pass, and its cursor is the place of the last one when more
are selected.  So whoever follows the cursors lists the selected records in
order, each once, also while records are added between two pages.
-/

variable {packages : Packages}

/-! ## Declared paths and entries do not repeat -/

theorem nodup_of_checkPaths {previous : Option String} {paths : List String}
    (sorted : paths.Pairwise (fun x y => utf8 x ≤ utf8 y))
    (ok : checkPaths packages previous paths = .ok ()) :
    paths.Nodup ∧ ∀ path ∈ paths.head?, previous ≠ some path := by
  induction paths generalizing previous with
  | nil => exact ⟨List.nodup_nil, fun path member => by cases member⟩
  | cons path paths ih =>
      obtain ⟨_, _, ok⟩ := bind_eq_ok_iff.mp ok
      obtain ⟨_, fresh, ok⟩ := bind_eq_ok_iff.mp ok
      rw [ensure_eq_ok_iff, decide_eq_true_eq] at fresh
      obtain ⟨first, rest⟩ := List.pairwise_cons.mp sorted
      obtain ⟨distinct, changed⟩ := ih rest ok
      constructor
      · refine List.nodup_cons.mpr ⟨fun repeated => ?_, distinct⟩
        cases paths with
        | nil => cases repeated
        | cons next paths =>
            -- the sorted list puts the next path between the two occurrences
            have back : utf8 next ≤ utf8 path := by
              rcases List.mem_cons.mp repeated with same | later
              · rw [same]
                exact List.le_refl _
              · exact (List.pairwise_cons.mp rest).1 path later
            have same := utf8_injective (List.le_antisymm (first next List.mem_cons_self) back)
            exact changed next rfl (congrArg some same)
      · intro other member
        cases member
        exact fresh

theorem nodup_of_normalizePaths {paths normalized : List String}
    (ok : normalizePaths packages paths = .ok normalized) : normalized.Nodup := by
  obtain ⟨_, _, ok⟩ := bind_eq_ok_iff.mp ok
  obtain ⟨_, checked, same⟩ := bind_eq_ok_iff.mp ok
  cases same
  have total : Std.Total (fun x y : String => utf8 x ≤ utf8 y) :=
    ⟨fun x y => List.le_total (utf8 x) (utf8 y)⟩
  have trans : IsTrans String (fun x y : String => utf8 x ≤ utf8 y) := ⟨fun _ _ _ => List.le_trans⟩
  exact (nodup_of_checkPaths (List.pairwise_insertionSort _ paths) checked).1

/-- Keeping the first occurrence of each string leaves no repetition. -/
theorem nodup_distinct (strings seen : List String) (start : seen.Nodup) :
    (strings.foldl (fun seen s => if seen.contains s then seen else seen ++ [s]) seen).Nodup := by
  induction strings generalizing seen with
  | nil => exact start
  | cons s strings ih =>
      rw [List.foldl_cons]
      apply ih
      split
      · exact start
      · next fresh =>
          rw [List.contains_iff_mem] at fresh
          exact List.nodup_append.mpr ⟨start, List.nodup_singleton s, fun a inSeen b inNew => by
            rw [List.mem_singleton.mp inNew]
            exact fun same => fresh (same ▸ inSeen)⟩

theorem nodup_pathEntries (root : Json) (path : String) : (pathEntries root path).Nodup := by
  unfold pathEntries
  split
  · exact (nodup_distinct _ [] List.nodup_nil).map (fun _ _ same => congrArg Prod.snd same)
  · next value _ _ => cases value.asStr <;> simp
  · exact List.nodup_nil

theorem fst_of_mem_pathEntries {root : Json} {path : String} {entry : String × String}
    (member : entry ∈ pathEntries root path) : entry.1 = path := by
  unfold pathEntries at member
  split at member
  · obtain ⟨_, _, rfl⟩ := List.mem_map.mp member
    rfl
  · next value _ _ =>
      cases read : value.asStr with
      | none => simp [read] at member
      | some s =>
          rw [read] at member
          rw [List.mem_singleton.mp member]
  · cases member

/-- No record contributes an entry twice. -/
theorem nodup_entries {capsule : Bytes} {paths : List String} {extracted : Extracted}
    (distinct : paths.Nodup) (ok : extract packages capsule paths = .ok extracted) :
    extracted.entries.Nodup := by
  unfold extract at ok
  split at ok
  · cases ok
  · cases ok
    refine List.nodup_flatMap.mpr ⟨fun path _ => nodup_pathEntries _ path, ?_⟩
    refine distinct.imp (fun different => ?_)
    intro entry inFirst inSecond
    exact different ((fst_of_mem_pathEntries inFirst).symm.trans (fst_of_mem_pathEntries inSecond))

/-! ## The roll of the indexed records -/

/-- What a record contributes, or nothing when its Capsule does not decode. -/
def extracted (packages : Packages) (paths : List String) (record : String × Bytes) : Extracted :=
  match extract packages record.2 paths with
  | .ok e => e
  | .error _ => ⟨[], none⟩

/-- The declared paths and the records indexed since, by id and Capsule. -/
structure Roll where
  paths : List String
  records : List (String × Bytes)
  pathsDistinct : paths.Nodup
  distinct : (records.map Prod.fst).Nodup

namespace Roll

/-- A roll without records. -/
def declared (normalized : List String) (distinct : normalized.Nodup) : Roll :=
  ⟨normalized, [], distinct, List.nodup_nil⟩

/-- Enter a record with a new id. -/
def enter (roll : Roll) (id : String) (capsule : Bytes)
    (fresh : id ∉ roll.records.map Prod.fst) : Roll where
  paths := roll.paths
  records := roll.records ++ [(id, capsule)]
  pathsDistinct := roll.pathsDistinct
  distinct := by
    rw [List.map_append, List.nodup_append]
    refine ⟨roll.distinct, List.nodup_singleton _, fun a inside b new => ?_⟩
    rw [List.mem_singleton.mp new]
    rintro rfl
    exact fresh inside

end Roll

/-- Whether a record holds a value at a path. -/
def holds (packages : Packages) (paths : List String) (entry : String × String)
    (record : String × Bytes) : Bool :=
  (extracted packages paths record).entries.contains entry

/-- Whether a record is not older than a bound. -/
def notBefore (packages : Packages) (paths : List String) (since : Option Int)
    (record : String × Bytes) : Bool :=
  match since, (extracted packages paths record).ts with
  | none, _ => true
  | some since, some ts => since ≤ ts
  | some _, none => false

/-- Whether a query selects a record: every equality and the bound. -/
def selects (packages : Packages) (paths : List String) (c : Checked) (record : String × Bytes) :
    Bool :=
  notBefore packages paths c.since record &&
    c.filters.all (fun entry => holds packages paths entry record)

/-- The ids of the records of a roll that a query selects, in order. -/
def Roll.hits (packages : Packages) (roll : Roll) (c : Checked) : List String :=
  (roll.records.filter (selects packages roll.paths c)).map Prod.fst

theorem Roll.nodup_hits (roll : Roll) (c : Checked) : (roll.hits packages c).Nodup :=
  roll.distinct.sublist (List.Sublist.map _ List.filter_sublist)

/-! ## Operations -/

/-- An operation of the index. -/
inductive LookupOp where
  | declare (paths : List String)
  | reset (paths : List String)
  | add (id : String) (capsule : Bytes)

/-- An operation of the index; a failed one changes nothing.  A reset is given
normalized paths. -/
def lookupStep (packages : Packages) (index : MemoryIndex) : LookupOp → Result Unit × MemoryIndex
  | .declare paths =>
      match index.declare packages paths with
      | .ok answer => (.ok (), answer.2)
      | .error e => (.error e, index)
  | .reset paths =>
      match normalizePaths packages paths with
      | .ok normalized => (.ok (), MemoryIndex.reset normalized)
      | .error e => (.error e, index)
  | .add id capsule =>
      match index.add packages id capsule with
      | .ok index => (.ok (), index)
      | .error e => (.error e, index)

/-- The roll after an operation, none before a declaration. -/
def rollStep (packages : Packages) (roll : Option Roll) (op : LookupOp) : Unit × Option Roll :=
  ((), match op, roll with
    | .declare paths, none | .reset paths, _ =>
        match normalized : normalizePaths packages paths with
        | .ok declared => some (.declared declared (nodup_of_normalizePaths normalized))
        | .error _ => roll
    | .declare _, some roll => some roll
    | .add _ _, none => none
    | .add id capsule, some roll =>
        if fresh : id ∉ roll.records.map Prod.fst ∧
            succeeds (extract packages capsule roll.paths) = true then
          some (roll.enter id capsule fresh.1)
        else some roll)

/-! ## The index represents the roll -/

/-- An index that lists the records of a roll: their ids and timestamps in
order, and the places of each value. -/
structure Indexes (packages : Packages) (roll : Roll) (index : MemoryIndex) : Prop where
  paths : index.paths = some roll.paths
  ids : index.ids = roll.records.map Prod.fst
  ts : index.ts = roll.records.map (fun record => (extracted packages roll.paths record).ts)
  values : ∀ path value, index.positions path value =
    places (holds packages roll.paths (path, value)) 1 roll.records
  position : ∀ id, (index.position id).isSome = true ↔ id ∈ roll.records.map Prod.fst

/-- The index of a roll, or the one before a declaration. -/
def Represents (packages : Packages) (roll : Option Roll) (index : MemoryIndex) : Prop :=
  match roll with
  | none => index = MemoryIndex.default
  | some roll => Indexes packages roll index

theorem indexes_reset (normalized : List String) (distinct : normalized.Nodup) :
    Indexes packages (.declared normalized distinct) (MemoryIndex.reset normalized) where
  paths := rfl
  ids := rfl
  ts := rfl
  values := fun _ _ => rfl
  position := fun id => by simp [MemoryIndex.reset, MemoryIndex.default, Roll.declared]

/-- Entering distinct values adds the place to those of each of them. -/
theorem foldl_enterValue {entries : List (String × String)} (distinct : entries.Nodup) (place : Nat)
    (values : String → String → List Nat) (path value : String) :
    entries.foldl (MemoryIndex.enterValue place) values path value =
      values path value ++ if entries.contains (path, value) then [place] else [] := by
  induction entries generalizing values with
  | nil => simp
  | cons entry entries ih =>
      obtain ⟨absent, distinct⟩ := List.nodup_cons.mp distinct
      rw [List.foldl_cons, ih distinct, MemoryIndex.enterValue]
      by_cases same : (path, value) = entry
      · subst same
        simp [absent]
      · simp [same]

/-- An addition that reads enters the record at the next place. -/
theorem indexes_add {roll : Roll} {index : MemoryIndex} (indexes : Indexes packages roll index)
    {id : String} {capsule : Bytes} (fresh : id ∉ roll.records.map Prod.fst) {read : Extracted}
    (reads : extract packages capsule roll.paths = .ok read) :
    ∃ index', index.add packages id capsule = .ok index' ∧
      Indexes packages (roll.enter id capsule fresh) index' := by
  have absent : (index.position id).isSome = false := by
    rw [Bool.eq_false_iff]
    exact fun known => fresh ((indexes.position id).mp known)
  have contributes : extracted packages roll.paths (id, capsule) = read := by
    rw [extracted, reads]
  have count : index.ids.length = roll.records.length := by
    rw [indexes.ids, List.length_map]
  rw [MemoryIndex.add, indexes.paths]
  simp only [absent, Bool.false_eq_true, if_false, reads, ok_bind]
  refine ⟨_, rfl, rfl, ?_, ?_, fun path value => ?_, fun other => ?_⟩
  · simp only [indexes.ids, Roll.enter, List.map_append, List.map_cons, List.map_nil]
  · simp only [indexes.ts, Roll.enter, List.map_append, List.map_cons, List.map_nil, contributes]
  · have earlier := indexes.values path value
    have entered := foldl_enterValue (nodup_entries roll.pathsDistinct reads)
      (index.ids.length + 1) index.values path value
    simp only [MemoryIndex.positions] at earlier ⊢
    rw [entered, earlier, Roll.enter, places_concat, count, Nat.add_comm roll.records.length 1]
    simp only [holds, contributes]
  · rw [Roll.enter, List.map_append, List.mem_append, ← indexes.position other]
    by_cases same : other = id
    · simp [same]
    · simp [same]

/-- Every operation of the index is the operation of the roll. -/
theorem lookupStep_represents {roll : Option Roll} {index : MemoryIndex}
    (represents : Represents packages roll index) (op : LookupOp) :
    Represents packages (rollStep packages roll op).2 (lookupStep packages index op).2 := by
  cases op with
  | reset paths =>
      simp only [rollStep, lookupStep]
      split
      · next declared normalized =>
          simp only [normalized]
          exact indexes_reset declared _
      · next e failed =>
          simp only [failed]
          exact represents
  | declare paths =>
      cases roll with
      | none =>
          obtain rfl : index = MemoryIndex.default := represents
          simp only [rollStep, lookupStep, MemoryIndex.declare]
          split
          · next declared normalized =>
              simp only [normalized, ok_bind]
              exact indexes_reset declared _
          · next e failed =>
              simp only [failed, error_bind]
              exact rfl
      | some roll =>
          have known : index.paths = some roll.paths := represents.paths
          simp only [rollStep, lookupStep, MemoryIndex.declare, known]
          cases normalizePaths packages paths with
          | error e => exact represents
          | ok normalized =>
              simp only [ok_bind]
              by_cases same : roll.paths = normalized
              · rw [if_pos same]
                exact represents
              · rw [if_neg same]
                exact represents
  | add id capsule =>
      cases roll with
      | none =>
          obtain rfl : index = MemoryIndex.default := represents
          exact rfl
      | some roll =>
          have indexes : Indexes packages roll index := represents
          simp only [rollStep, lookupStep]
          by_cases fresh : id ∈ roll.records.map Prod.fst
          · rw [dif_neg (fun both => both.1 fresh), MemoryIndex.add, indexes.paths]
            simp only [(indexes.position id).mpr fresh, if_true]
            exact indexes
          · rcases error_or_ok (extract packages capsule roll.paths) with ⟨e, reads⟩ | ⟨read, reads⟩
            · have absent : (index.position id).isSome = false := by
                rw [Bool.eq_false_iff]
                exact fun known => fresh ((indexes.position id).mp known)
              rw [dif_neg (fun both => by rw [reads] at both; cases both.2), MemoryIndex.add,
                indexes.paths]
              simp only [absent, Bool.false_eq_true, if_false, reads, error_bind]
              exact indexes
            · obtain ⟨index', added, grown⟩ := indexes_add indexes fresh reads
              rw [dif_pos ⟨fresh, by rw [reads]; rfl⟩]
              simp only [added]
              exact grown

/-- After any operations the index represents the roll of the same operations. -/
theorem after_represents (ops : List LookupOp) {roll : Option Roll} {index : MemoryIndex}
    (start : Represents packages roll index) :
    Represents packages (Machine.after (rollStep packages) roll ops)
      (Machine.after (lookupStep packages) index ops) := by
  induction ops generalizing roll index with
  | nil => exact start
  | cons op ops ih => exact ih (lookupStep_represents start op)

theorem indexes_of_declared {ops : List LookupOp} {roll : Roll}
    (declared : Machine.after (rollStep packages) none ops = some roll) :
    Indexes packages roll (Machine.after (lookupStep packages) MemoryIndex.default ops) := by
  have represents := @after_represents packages ops none MemoryIndex.default rfl
  rwa [declared] at represents

/-! ## One page -/

/-- A page has the first selected candidates, and a cursor at the last of them
when there are more. -/
theorem fillPage_eq (ids : List String) (found : Nat → Bool) (limit : Nat) (candidates : List Nat)
    (taken : List String) (room : taken.length ≤ limit) (last : Nat) :
    MemoryIndex.fillPage ids found limit candidates taken last =
      ⟨taken ++ ((candidates.filter found).take (limit - taken.length)).map
          (fun p => ids.getD (p - 1) ""),
        if limit - taken.length < (candidates.filter found).length then
          some (toString (((candidates.filter found).take (limit - taken.length)).getLast?.getD last))
        else none⟩ := by
  induction candidates generalizing taken last with
  | nil => simp [MemoryIndex.fillPage]
  | cons p candidates ih =>
      rw [MemoryIndex.fillPage, List.filter_cons]
      cases kept : found p with
      | false => simpa using ih taken room last
      | true =>
          simp only [Bool.not_true, Bool.false_eq_true, if_false, if_true]
          by_cases full : taken.length = limit
          · rw [if_pos (by exact_mod_cast full), full, Nat.sub_self]
            simp
          · have size : (taken ++ [ids.getD (p - 1) ""]).length = taken.length + 1 := by simp
            have step : limit - taken.length = limit - (taken.length + 1) + 1 := by omega
            rw [if_neg (by exact_mod_cast full), ih _ (by rw [size]; omega), size, step,
              List.take_succ_cons, List.map_cons, List.length_cons, List.append_assoc]
            congr 1
            simp only [Nat.add_lt_add_iff_right]
            rw [List.getLast?_cons, Option.getD_some]

/-- The bound of a query; an empty text gives none. -/
def sinceOf (packages : Packages) (query : Query) : Result (Option Int) :=
  match query.since with
  | none => .ok none
  | some s =>
      if s = "" then .ok none
      else match parseTimestamp s with
        | some ts => .ok (some ts)
        | none => .error (.invalid
            ("since " ++ packages.debugString s ++ " is not an RFC 3339 date-time"))

/-- The place a query continues after; an empty text is the first page. -/
def afterOf (after : Option String) : Result Nat :=
  match after with
  | none => .ok 0
  | some cursor =>
      if cursor = "" then .ok 0
      else match parseCursor cursor with
        | some n => .ok n
        | none => .error (.invalid "cursor")

/-- The validation of a query in its parts. -/
theorem check_eq (query : Query) (declared : List String) :
    check packages query declared = (do
      ensure (1 ≤ query.limit && query.limit ≤ maxFindLimit)
        (.invalid ("limit " ++ toString query.limit))
      match query.filters.find? (fun entry => !declared.contains entry.1) with
      | some entry =>
          .error (.invalid (packages.debugString entry.1 ++ " is not a declared index path"))
      | none => do
          let since ← sinceOf packages query
          let after ← afterOf query.after
          .ok ⟨query.filters, since, after, query.limit⟩) := by
  have continued : ∀ since : Option Int, (do
      let after ← match query.after with
        | none => .ok 0
        | some cursor =>
            if cursor = "" then .ok 0
            else match parseCursor cursor with
              | some n => .ok n
              | none => .error (ArtifactError.invalid "cursor")
      .ok ⟨query.filters, since, after, query.limit⟩ : Result Checked) =
        (afterOf query.after >>= fun after => .ok ⟨query.filters, since, after, query.limit⟩) := by
    intro since
    unfold afterOf
    cases query.after with
    | none => rfl
    | some cursor =>
        by_cases empty : cursor = ""
        · simp only [if_pos empty]
        · simp only [if_neg empty]
          cases parseCursor cursor <;> rfl
  rw [check]
  congr 1
  funext _
  cases query.filters.find? (fun entry => !declared.contains entry.1) with
  | some entry => rfl
  | none =>
      simp only [sinceOf]
      cases query.since with
      | none => exact continued none
      | some s =>
          by_cases empty : s = ""
          · simp only [if_pos empty]
            exact continued none
          · simp only [if_neg empty]
            cases parseTimestamp s with
            | none => rfl
            | some ts => exact continued (some ts)

theorem check_ok {query : Query} {declared : List String} {c : Checked}
    (ok : check packages query declared = .ok c) :
    1 ≤ c.limit ∧ c.limit = query.limit := by
  rw [check_eq] at ok
  obtain ⟨_, inRange, ok⟩ := bind_eq_ok_iff.mp ok
  rw [ensure_eq_ok_iff, Bool.and_eq_true, decide_eq_true_eq] at inRange
  split at ok
  · cases ok
  · obtain ⟨_, _, ok⟩ := bind_eq_ok_iff.mp ok
    obtain ⟨_, _, ok⟩ := bind_eq_ok_iff.mp ok
    cases ok
    exact ⟨inRange.1, rfl⟩

theorem afterOf_cursorAfter {n : Nat} (small : n ≤ maxI64) :
    afterOf (MemoryIndex.cursorAfter n) = .ok n := by
  by_cases zero : n = 0
  · rw [MemoryIndex.cursorAfter, if_pos zero, zero]
    rfl
  · have read := MemoryIndex.parseCursor_toString (Nat.one_le_iff_ne_zero.mpr zero) small
    have shown : toString n ≠ "" := by
      rw [Nat.toString_eq_repr]
      simp
    rw [MemoryIndex.cursorAfter, if_neg zero]
    simp only [afterOf, if_neg shown, read]

/-- A query that is valid from the first page is valid from every cursor. -/
theorem check_cursorAfter {query : Query} {declared : List String} {c : Checked}
    (ok : check packages { query with after := none } declared = .ok c) {n : Nat}
    (small : n ≤ maxI64) :
    check packages { query with after := MemoryIndex.cursorAfter n } declared =
      .ok { c with after := n } := by
  rw [check_eq] at ok ⊢
  obtain ⟨_, inRange, ok⟩ := bind_eq_ok_iff.mp ok
  simp only at inRange ok ⊢
  rw [inRange, ok_bind]
  split at ok
  · cases ok
  · obtain ⟨since, bound, ok⟩ := bind_eq_ok_iff.mp ok
    have same : sinceOf packages { query with after := MemoryIndex.cursorAfter n } = .ok since :=
      bound
    rw [same, ok_bind, afterOf_cursorAfter small, ok_bind]
    cases ok
    rfl

/-! ## The candidates of a page -/

section Indexed

variable {roll : Roll} {index : MemoryIndex}

/-- The first equality of a query, which the candidates are taken from. -/
def firstHolds (packages : Packages) (paths : List String) (c : Checked) (record : String × Bytes) :
    Bool :=
  c.filters.head?.all (fun entry => holds packages paths entry record)

/-- The candidates behind a cursor are the places of the first equality there. -/
theorem candidates_eq (indexes : Indexes packages roll index) (c : Checked) :
    index.candidates c =
      places (firstHolds packages roll.paths c) (1 + c.after) (roll.records.drop c.after) := by
  rw [MemoryIndex.candidates]
  cases first : c.filters.head? with
  | none =>
      have all : firstHolds packages roll.paths c = fun _ => true := by
        funext record
        rw [firstHolds, first]
        rfl
      rw [all, places_all, List.length_drop, indexes.ids, List.length_map, Nat.add_comm]
  | some entry =>
      have one : firstHolds packages roll.paths c = holds packages roll.paths entry := by
        funext record
        rw [firstHolds, first]
        rfl
      have behind : (fun p => !decide (p ≤ c.after)) = fun p => decide (1 + c.after ≤ p) := by
        funext p
        rw [← decide_not, decide_eq_decide]
        omega
      simp only
      rw [Search.drop_partitionPoint]
      · rw [indexes.values, behind, filter_places_gt, one]
      · rw [indexes.values]
        refine places_pairwise.imp (fun {p q} less front => ?_)
        rw [decide_eq_true_eq] at front ⊢
        omega

/-- The test of a candidate is the rest of the query on its record. -/
theorem isMatch_eq (indexes : Indexes packages roll index) (c : Checked) {p : Nat}
    {record : String × Bytes} (at_p : roll.records[p]? = some record) :
    index.isMatch c (p + 1) = (notBefore packages roll.paths c.since record &&
      (c.filters.drop 1).all (fun entry => holds packages roll.paths entry record)) := by
  rw [MemoryIndex.isMatch]
  congr 1
  · have timed : index.ts[p + 1 - 1]? = some (extracted packages roll.paths record).ts := by
      rw [Nat.add_sub_cancel, indexes.ts, List.getElem?_map, at_p, Option.map_some]
    rw [timed]
    unfold notBefore
    cases c.since <;> cases (extracted packages roll.paths record).ts <;> rfl
  · congr 1
    funext entry
    have ascending := @places_pairwise _ (holds packages roll.paths (entry.1, entry.2)) 1 roll.records
    have ordered : Search.Ordered (fun q => compare q (p + 1))
        (index.positions entry.1 entry.2) := by
      rw [indexes.values]
      refine ascending.imp (fun {x y} less => ?_)
      simp only [Nat.compare_eq_gt, Nat.compare_eq_lt]
      omega
    rw [Bool.eq_iff_iff, Search.succeeds_searchBy_iff ordered, indexes.values]
    constructor
    · rintro ⟨q, member, equal⟩
      rw [Nat.compare_eq_eq] at equal
      subst equal
      obtain ⟨_, other, found, kept⟩ := mem_places_iff.mp member
      rw [Nat.add_sub_cancel, at_p] at found
      cases found
      exact kept
    · intro kept
      refine ⟨p + 1, mem_places_iff.mpr ⟨by omega, record, ?_, kept⟩, Nat.compare_eq_eq.mpr rfl⟩
      rw [Nat.add_sub_cancel, at_p]

/-- The first equality and the rest of the query are the query. -/
theorem selects_eq (paths : List String) (c : Checked) (record : String × Bytes) :
    selects packages paths c record = (firstHolds packages paths c record &&
      (notBefore packages paths c.since record &&
        (c.filters.drop 1).all (fun entry => holds packages paths entry record))) := by
  rw [selects, firstHolds]
  cases c.filters with
  | nil => simp
  | cons entry filters =>
      simp only [List.all_cons, List.head?_cons, Option.all_some, List.drop_succ_cons, List.drop_zero]
      rw [Bool.and_left_comm]

/-- The candidates that pass are the places of the selected records. -/
theorem filter_candidates (indexes : Indexes packages roll index) (c : Checked) :
    (places (firstHolds packages roll.paths c) (1 + c.after)
        (roll.records.drop c.after)).filter (index.isMatch c) =
      places (selects packages roll.paths c) (1 + c.after) (roll.records.drop c.after) := by
  have whole : selects packages roll.paths c = fun record =>
      firstHolds packages roll.paths c record && (notBefore packages roll.paths c.since record &&
        (c.filters.drop 1).all (fun entry => holds packages roll.paths entry record)) := by
    funext record
    exact selects_eq roll.paths c record
  rw [whole]
  refine filter_places (fun p record at_p _ => ?_)
  rw [List.getElem?_drop] at at_p
  rw [show 1 + c.after + p = c.after + p + 1 by omega]
  exact isMatch_eq indexes c at_p

/-- The selected records behind a cursor. -/
def hitsAfter (packages : Packages) (roll : Roll) (c : Checked) : List (String × Bytes) :=
  (roll.records.drop c.after).filter (selects packages roll.paths c)

/-- The places of the selected records behind a cursor. -/
def placesAfter (packages : Packages) (roll : Roll) (c : Checked) : List Nat :=
  places (selects packages roll.paths c) (1 + c.after) (roll.records.drop c.after)

/-- A page has the next selected records, and its cursor is the place of the
last of them when there are more. -/
theorem find_places (indexes : Indexes packages roll index) {query : Query} {c : Checked}
    (checked : check packages query roll.paths = .ok c) :
    index.find packages query = .ok
      ⟨((hitsAfter packages roll c).take c.limit.toNat).map Prod.fst,
        if c.limit.toNat < (hitsAfter packages roll c).length then
          some (toString (((placesAfter packages roll c).take c.limit.toNat).getLast?.getD 0))
        else none⟩ := by
  obtain ⟨positive, _⟩ := check_ok checked
  have count : index.ids.length = roll.records.length := by
    rw [indexes.ids, List.length_map]
  rw [MemoryIndex.find, indexes.paths, hitsAfter, placesAfter]
  simp only [checked, ok_bind]
  by_cases behind : index.ids.length ≤ c.after
  · rw [if_pos behind, List.drop_eq_nil_of_le (by omega), List.filter_nil, List.take_nil,
      List.length_nil, if_neg (Nat.not_lt_zero _)]
    rfl
  · rw [if_neg behind, candidates_eq indexes c]
    have page := fillPage_eq index.ids (index.isMatch c) c.limit.toNat
      (places (firstHolds packages roll.paths c) (1 + c.after) (roll.records.drop c.after)) []
      (Nat.zero_le _) 0
    rw [Int.toNat_of_nonneg (by omega), filter_candidates indexes c, List.nil_append,
      List.length_nil, Nat.sub_zero, length_places] at page
    have named : ∀ (p : Nat) (record : String × Bytes), (roll.records.drop c.after)[p]? = some record →
        index.ids.getD (1 + c.after + p - 1) "" = record.1 := by
      intro p record at_p
      rw [List.getElem?_drop] at at_p
      rw [show 1 + c.after + p - 1 = c.after + p by omega, indexes.ids,
        List.getD_eq_getElem?_getD, List.getElem?_map, at_p]
      rfl
    rw [page, List.map_take, List.map_take, map_places _ Prod.fst named]

/-- Up to its cursor a page and the pages before it have all selected records. -/
theorem find_page (indexes : Indexes packages roll index) {query : Query} {c : Checked}
    (checked : check packages query roll.paths = .ok c) :
    ∃ page, index.find packages query = .ok page ∧
      page.ids = (((roll.records.drop c.after).filter (selects packages roll.paths c)).take
        c.limit.toNat).map Prod.fst ∧
      (page.next = none ∧ ((roll.records.drop c.after).filter
          (selects packages roll.paths c)).length ≤ c.limit.toNat ∨
        ∃ place, page.next = some (toString place) ∧ c.after < place ∧
          place ≤ roll.records.length ∧
          (roll.records.take place).filter (selects packages roll.paths c) =
            (roll.records.take c.after).filter (selects packages roll.paths c) ++
              ((roll.records.drop c.after).filter (selects packages roll.paths c)).take
                c.limit.toNat ∧
          c.limit.toNat < ((roll.records.drop c.after).filter
            (selects packages roll.paths c)).length) := by
  obtain ⟨positive, _⟩ := check_ok checked
  have page := find_places indexes checked
  rw [hitsAfter, placesAfter] at page
  refine ⟨_, page, rfl, ?_⟩
  generalize rest : (roll.records.drop c.after).filter (selects packages roll.paths c) = hits
  by_cases more : c.limit.toNat < hits.length
  · right
    rw [if_pos more]
    obtain ⟨j, limit⟩ : ∃ j, c.limit.toNat = j + 1 := ⟨c.limit.toNat - 1, by omega⟩
    have size := @length_places _ (selects packages roll.paths c) (1 + c.after)
      (roll.records.drop c.after)
    rw [rest] at size
    have inside : j < (places (selects packages roll.paths c) (1 + c.after)
        (roll.records.drop c.after)).length := by omega
    have last := List.getElem?_eq_getElem inside
    have whole := filter_take_place last
    have start := le_of_mem_places (List.mem_of_getElem? last)
    have stop := lt_of_mem_places (List.mem_of_getElem? last)
    rw [List.length_drop] at stop
    generalize (places (selects packages roll.paths c) (1 + c.after)
      (roll.records.drop c.after))[j] = place at last whole start stop
    refine ⟨place, ?_, by omega, by omega, ?_, more⟩
    · simp only [limit]
      rw [List.getLast?_take, if_neg (Nat.succ_ne_zero j), Nat.add_sub_cancel, last]
      rfl
    · have pieces : roll.records.take place = roll.records.take c.after ++
          (roll.records.drop c.after).take (place - c.after) := by
        rw [← List.take_add, Nat.add_sub_cancel' (by omega)]
      rw [show place + 1 - (1 + c.after) = place - c.after by omega, rest] at whole
      rw [pieces, List.filter_append, whole, limit]
  · left
    rw [if_neg more]
    exact ⟨rfl, by omega⟩

end Indexed

/-! ## Following the cursors -/

/-- A caller that follows the cursors of a query, while records are added.
`pages` are those it read, and `after` is the cursor of the next one. -/
inductive Walk (packages : Packages) (query : Query) (start : MemoryIndex) :
    List (String × Bytes) → MemoryIndex → Option String → List Page → Prop
  | first : Walk packages query start [] start none []
  | page {added : List (String × Bytes)} {index : MemoryIndex} {after : Option String}
      {pages : List Page} {page : Page} {cursor : String} :
      Walk packages query start added index after pages →
      index.find packages { query with after := after } = .ok page → page.next = some cursor →
      Walk packages query start added index (some cursor) (pages ++ [page])
  | add {added : List (String × Bytes)} {index : MemoryIndex} {after : Option String}
      {pages : List Page} (id : String) (capsule : Bytes) :
      Walk packages query start added index after pages →
      Walk packages query start (added ++ [(id, capsule)])
        (lookupStep packages index (.add id capsule)).2 after pages

/-- The additions of records. -/
def additions (added : List (String × Bytes)) : List LookupOp :=
  added.map (fun record => .add record.1 record.2)

theorem rollStep_add (roll : Roll) (id : String) (capsule : Bytes) :
    ∃ roll', (rollStep packages (some roll) (.add id capsule)).2 = some roll' ∧
      roll'.paths = roll.paths ∧ roll.records <+: roll'.records := by
  simp only [rollStep]
  split
  · exact ⟨_, rfl, rfl, List.prefix_append _ _⟩
  · exact ⟨roll, rfl, rfl, List.prefix_refl _⟩

theorem ids_prefix_add (index : MemoryIndex) (id : String) (capsule : Bytes) :
    index.ids <+: (lookupStep packages index (.add id capsule)).2.ids := by
  simp only [lookupStep, MemoryIndex.add]
  cases index.paths with
  | none => exact List.prefix_refl _
  | some paths =>
      simp only
      by_cases known : (index.position id).isSome = true
      · simp only [if_pos known]
        exact List.prefix_refl _
      · simp only [if_neg known]
        cases extract packages capsule paths with
        | error e => exact List.prefix_refl _
        | ok read => exact List.prefix_append _ _

/-- What the pages of a walk have listed: the selected records up to the place
of its cursor. -/
theorem Walk.listed {query : Query} {start index : MemoryIndex} {added : List (String × Bytes)}
    {after : Option String} {pages : List Page} {roll : Roll} {c : Checked}
    (walk : Walk packages query start added index after pages)
    (indexes : Indexes packages roll start)
    (valid : check packages { query with after := none } roll.paths = .ok c)
    (small : index.ids.length ≤ maxI64) :
    ∃ roll' k, Machine.after (rollStep packages) (some roll) (additions added) = some roll' ∧
      Indexes packages roll' index ∧ roll'.paths = roll.paths ∧ roll.records <+: roll'.records ∧
      after = MemoryIndex.cursorAfter k ∧ k ≤ roll'.records.length ∧
      pages.flatMap Page.ids =
        ((roll'.records.take k).filter (selects packages roll.paths c)).map Prod.fst ∧
      ∀ page ∈ pages, page.ids.length = c.limit.toNat := by
  induction walk with
  | first =>
      exact ⟨roll, 0, rfl, indexes, rfl, List.prefix_refl _, rfl, Nat.zero_le _, rfl,
        fun page member => by cases member⟩
  | @page added index after pages page cursor walk found next ih =>
      obtain ⟨roll', k, reached, here, paths, grown, rfl, inside, listed, filled⟩ := ih small
      have count : index.ids.length = roll'.records.length := by
        rw [here.ids, List.length_map]
      have checked := check_cursorAfter valid (n := k) (by omega)
      rw [← paths] at checked
      obtain ⟨page', answered, ids, ended | ⟨place, cursorAt, later, within, upTo, more⟩⟩ :=
        find_page here checked
      · obtain rfl : page' = page := Except.ok.inj (answered.symm.trans found)
        rw [next] at ended
        cases ended.1
      · obtain rfl : page' = page := Except.ok.inj (answered.symm.trans found)
        rw [paths] at ids upTo more
        refine ⟨roll', place, reached, here, paths, grown, ?_, within, ?_, ?_⟩
        · rw [MemoryIndex.cursorAfter, if_neg (by omega), ← cursorAt, next]
        · have sum := congrArg (List.map Prod.fst) upTo
          rw [List.map_append] at sum
          rw [List.flatMap_append, listed, List.flatMap_singleton, ids]
          exact sum.symm
        · intro other member
          rcases List.mem_append.mp member with member | member
          · exact filled other member
          · rw [List.mem_singleton.mp member, ids, List.length_map, List.length_take,
              Nat.min_eq_left (Nat.le_of_lt more)]
  | @add added index after pages id capsule walk ih =>
      have before : index.ids.length ≤ maxI64 :=
        (ids_prefix_add index id capsule).length_le.trans small
      obtain ⟨roll', k, reached, here, paths, grown, cursorAt, inside, listed, filled⟩ := ih before
      obtain ⟨roll'', stepped, samePaths, longer⟩ := @rollStep_add packages roll' id capsule
      have next := @lookupStep_represents packages (some roll') _ here (.add id capsule)
      rw [stepped] at next
      refine ⟨roll'', k, ?_, next, samePaths.trans paths, grown.trans longer, cursorAt,
        inside.trans longer.length_le, ?_, filled⟩
      · rw [additions] at reached ⊢
        rw [List.map_append, Machine.after_append, reached]
        exact stepped
      · obtain ⟨more, same⟩ := longer
        rw [listed, ← same, List.take_append_of_le_length inside]

/-- The next page of a walk: it continues the list of the selected records, and
has a cursor exactly when more are selected. -/
theorem Walk.next_page {query : Query} {start index : MemoryIndex} {added : List (String × Bytes)}
    {after : Option String} {pages : List Page} {roll : Roll} {c : Checked}
    (walk : Walk packages query start added index after pages)
    (indexes : Indexes packages roll start)
    (valid : check packages { query with after := none } roll.paths = .ok c)
    (small : index.ids.length ≤ maxI64) :
    ∃ roll' page, Machine.after (rollStep packages) (some roll) (additions added) = some roll' ∧
      index.find packages { query with after := after } = .ok page ∧
      (page.ids.length : Int) ≤ query.limit ∧
      (pages ++ [page]).flatMap Page.ids <+: roll'.hits packages c ∧
      (page.next = none ↔ (pages ++ [page]).flatMap Page.ids = roll'.hits packages c) ∧
      roll.hits packages c <+: roll'.hits packages c ∧
      ((roll.hits packages c).length ≤ pages.length →
        roll.hits packages c <+: pages.flatMap Page.ids) := by
  obtain ⟨roll', k, reached, here, paths, grown, rfl, inside, listed, filled⟩ :=
    walk.listed indexes valid small
  obtain ⟨positive, limit⟩ := check_ok valid
  have count : index.ids.length = roll'.records.length := by
    rw [here.ids, List.length_map]
  have checked := check_cursorAfter valid (n := k) (by omega)
  rw [← paths] at checked
  obtain ⟨page, answered, ids, step⟩ := find_page here checked
  simp only [paths] at ids step
  have whole : roll'.hits packages c =
      ((roll'.records.take k).filter (selects packages roll.paths c)).map Prod.fst ++
        ((roll'.records.drop k).filter (selects packages roll.paths c)).map Prod.fst := by
    rw [Roll.hits, paths, ← List.map_append, ← List.filter_append, List.take_append_drop]
  have upTo : (pages ++ [page]).flatMap Page.ids =
      ((roll'.records.take k).filter (selects packages roll.paths c)).map Prod.fst ++
        (((roll'.records.drop k).filter (selects packages roll.paths c)).map Prod.fst).take
          c.limit.toNat := by
    rw [List.flatMap_append, List.flatMap_singleton, listed, ids, List.map_take]
    rfl
  have earlier : roll.hits packages c <+: roll'.hits packages c := by
    rw [Roll.hits, Roll.hits, paths]
    exact (grown.filter _).map _
  have front : pages.flatMap Page.ids <+: roll'.hits packages c := by
    rw [whole, listed]
    exact List.prefix_append _ _
  refine ⟨roll', page, reached, answered, ?_, ?_, ?_, earlier, fun enough => ?_⟩
  · have size : page.ids.length ≤ c.limit.toNat := by
      rw [ids, List.length_map]
      exact List.length_take_le _ _
    change c.limit = query.limit at limit
    omega
  · rw [whole, upTo]
    exact List.prefix_append_right_inj _ |>.mpr (List.take_prefix _ _)
  · rw [whole, upTo, List.append_cancel_left_eq]
    rcases step with ⟨ended, last⟩ | ⟨place, cursorAt, _, _, _, more⟩
    · refine iff_of_true ended (List.take_of_length_le ?_)
      rwa [List.length_map]
    · refine iff_of_false (by rw [cursorAt]; exact Option.some_ne_none _) (fun same => ?_)
      have lengths := congrArg List.length same
      have more : c.limit.toNat < ((roll'.records.drop k).filter
        (selects packages roll.paths c)).length := more
      rw [List.length_take, List.length_map] at lengths
      omega
  · -- every page but the next has as many ids as the limit, so at least one
    have read : pages.length ≤ (pages.flatMap Page.ids).length := by
      rw [List.length_flatMap]
      have each : ∀ n ∈ pages.map (fun page => page.ids.length), 1 ≤ n := by
        intro n member
        obtain ⟨page, inside, rfl⟩ := List.mem_map.mp member
        rw [filled page inside]
        omega
      have sum := List.length_le_sum_of_one_le _ each
      rwa [List.length_map] at sum
    exact List.prefix_of_prefix_length_le earlier front (by omega)

/-- Following the cursors of an index that no longer changes ends. -/
theorem exists_last_page {query : Query} {index : MemoryIndex} {roll : Roll} {c : Checked}
    (indexes : Indexes packages roll index)
    (valid : check packages { query with after := none } roll.paths = .ok c)
    (small : index.ids.length ≤ maxI64) :
    ∃ after pages page, Walk packages query index [] index after pages ∧
      index.find packages { query with after := after } = .ok page ∧ page.next = none := by
  have onward : ∀ n after pages, Walk packages query index [] index after pages →
      (roll.hits packages c).length < pages.length + n →
      ∃ after pages page, Walk packages query index [] index after pages ∧
        index.find packages { query with after := after } = .ok page ∧ page.next = none := by
    intro n
    induction n with
    | zero =>
        intro after pages walk few
        obtain ⟨roll', page, reached, answered, _, next, ended, earlier, enough⟩ :=
          walk.next_page indexes valid small
        cases reached
        -- the pages read have every selected record, so the next one is the last
        have front := enough (by omega)
        have all : (pages ++ [page]).flatMap Page.ids = roll.hits packages c := by
          refine next.eq_of_length_le (front.length_le.trans ?_)
          rw [List.flatMap_append, List.length_append]
          omega
        exact ⟨after, pages, page, walk, answered, ended.mpr all⟩
    | succ n ih =>
        intro after pages walk few
        obtain ⟨_, page, _, answered, _⟩ := walk.next_page indexes valid small
        cases next : page.next with
        | none => exact ⟨after, pages, page, walk, answered, next⟩
        | some cursor =>
            refine ih _ _ (walk.page answered next) ?_
            rw [List.length_append, List.length_singleton]
            omega
  exact onward ((roll.hits packages c).length + 1) none [] .first (by simp)

/-- After any declarations, resets and additions, whoever follows the cursors
of a valid query reads pages of at most its limit that list the selected
records in order, each once, with a cursor exactly when more are selected.
This ends when nothing is added.  Records added between two pages only extend
the list: what was selected at the start is read, after at most that many pages. -/
theorem pages_complete (ops : List LookupOp) {roll : Roll}
    (declared : Machine.after (rollStep packages) none ops = some roll) {query : Query} {c : Checked}
    (valid : check packages { query with after := none } roll.paths = .ok c) :
    let index := Machine.after (lookupStep packages) MemoryIndex.default ops
    (index.ids.length ≤ maxI64 → ∃ after pages page,
      Walk packages query index [] index after pages ∧
        index.find packages { query with after := after } = .ok page ∧ page.next = none ∧
        (pages ++ [page]).flatMap Page.ids = roll.hits packages c) ∧
    (roll.hits packages c).Nodup ∧
    ∀ added last after pages, Walk packages query index added last after pages →
      last.ids.length ≤ maxI64 →
      ∃ roll' page, Machine.after (rollStep packages) none (ops ++ additions added) = some roll' ∧
        last.find packages { query with after := after } = .ok page ∧
        (page.ids.length : Int) ≤ query.limit ∧
        (pages ++ [page]).flatMap Page.ids <+: roll'.hits packages c ∧
        (roll'.hits packages c).Nodup ∧
        (page.next = none ↔ (pages ++ [page]).flatMap Page.ids = roll'.hits packages c) ∧
        roll.hits packages c <+: roll'.hits packages c ∧
        ((roll.hits packages c).length ≤ pages.length →
          roll.hits packages c <+: pages.flatMap Page.ids) := by
  intro index
  have indexes : Indexes packages roll index := indexes_of_declared declared
  refine ⟨fun small => ?_, roll.nodup_hits c, fun added last after pages walk small => ?_⟩
  · obtain ⟨after, pages, page, walk, answered, ended⟩ := exists_last_page indexes valid small
    refine ⟨after, pages, page, walk, answered, ended, ?_⟩
    obtain ⟨_, page', reached, answered', _, _, next, _⟩ := walk.next_page indexes valid small
    cases reached
    obtain rfl : page = page' := Except.ok.inj (answered.symm.trans answered')
    exact next.mp ended
  · obtain ⟨roll', page, reached, answered, size, upTo, next, earlier, enough⟩ :=
      walk.next_page indexes valid small
    refine ⟨roll', page, ?_, answered, size, upTo, roll'.nodup_hits c, next, earlier, enough⟩
    rw [Machine.after_append, declared, reached]

theorem rollStep_declare {paths normalized : List String}
    (ok : normalizePaths packages paths = .ok normalized) :
    (rollStep packages none (.declare paths)).2 =
      some (.declared normalized (nodup_of_normalizePaths ok)) := by
  simp only [rollStep]
  split
  · next other same =>
      cases ok.symm.trans same
      rfl
  · next e failed =>
      cases ok.symm.trans failed

theorem rollStep_enter {roll : Roll} {id : String} {capsule : Bytes}
    (fresh : id ∉ roll.records.map Prod.fst)
    (reads : succeeds (extract packages capsule roll.paths) = true) :
    (rollStep packages (some roll) (.add id capsule)).2 = some (roll.enter id capsule fresh) := by
  simp only [rollStep]
  rw [dif_pos ⟨fresh, reads⟩]

/-- Two padding records, found by their type one page at a time. -/
theorem pages_complete_padding :
    let index := Machine.after (lookupStep paddingPackages) MemoryIndex.default
      [.declare ["record_type"], .add firstRecord.capsuleId firstRecord.capsule,
        .add secondRecord.capsuleId secondRecord.capsule]
    let query : Query := ⟨[("record_type", "padding")], none, none, 1⟩
    ∃ after pages page, Walk paddingPackages query index [] index after pages ∧
      index.find paddingPackages { query with after := after } = .ok page ∧ page.next = none ∧
      (pages ++ [page]).flatMap Page.ids = [firstRecord.capsuleId, secondRecord.capsuleId] := by
  intro index query
  have normalized : normalizePaths paddingPackages ["record_type"] = .ok ["record_type"] := by
    decide +kernel
  have readsFirst : succeeds (extract paddingPackages firstRecord.capsule ["record_type"]) = true := by
    decide +kernel
  have readsSecond :
      succeeds (extract paddingPackages secondRecord.capsule ["record_type"]) = true := by
    decide +kernel
  let start := Roll.declared ["record_type"] (nodup_of_normalizePaths normalized)
  have freshFirst : firstRecord.capsuleId ∉ start.records.map Prod.fst := List.not_mem_nil
  let one := start.enter firstRecord.capsuleId firstRecord.capsule freshFirst
  have freshSecond : secondRecord.capsuleId ∉ one.records.map Prod.fst :=
    fun member => capsuleId_ne (List.mem_singleton.mp member)
  let two := one.enter secondRecord.capsuleId secondRecord.capsule freshSecond
  have declared : Machine.after (rollStep paddingPackages) none
      [.declare ["record_type"], .add firstRecord.capsuleId firstRecord.capsule,
        .add secondRecord.capsuleId secondRecord.capsule] = some two := by
    rw [Machine.after_cons, rollStep_declare normalized, Machine.after_cons,
      rollStep_enter freshFirst readsFirst, Machine.after_cons,
      rollStep_enter freshSecond readsSecond, Machine.after_nil]
  let c : Checked := ⟨[("record_type", "padding")], none, 0, 1⟩
  have valid : check paddingPackages { query with after := none } ["record_type"] = .ok c := rfl
  have selectsFirst : selects paddingPackages ["record_type"] c
      (firstRecord.capsuleId, firstRecord.capsule) = true := by
    decide +kernel
  have selectsSecond : selects paddingPackages ["record_type"] c
      (secondRecord.capsuleId, secondRecord.capsule) = true := by
    decide +kernel
  have hits : two.hits paddingPackages c = [firstRecord.capsuleId, secondRecord.capsuleId] := by
    have records : two.records = [(firstRecord.capsuleId, firstRecord.capsule),
      (secondRecord.capsuleId, secondRecord.capsule)] := rfl
    have paths : two.paths = ["record_type"] := rfl
    rw [Roll.hits, records, paths, List.filter_cons, if_pos selectsFirst, List.filter_cons,
      if_pos selectsSecond]
    rfl
  have indexes : Indexes paddingPackages two index := indexes_of_declared declared
  have count : index.ids.length = 2 := by
    rw [indexes.ids, List.length_map]
    rfl
  obtain ⟨after, pages, page, walk, answered, ended, listed⟩ :=
    (pages_complete _ declared valid).1 (by rw [count]; decide)
  exact ⟨after, pages, page, walk, answered, ended, listed.trans hits⟩

end ArtifactStore
end CapsuleEmit
