import CapsuleEmit.ArtifactStore.SqlMirror

namespace CapsuleEmit
namespace ArtifactStore
namespace Sql

open Places

/-!
# Pages of the index tables

A query on the tables joins the rows of its first value with the indexed
records and tests the other values by existence.  On rows that mirror an index
and keys that do not collide, this selects the numbered records the query
asks for, and the page lists them in the order of their numbers.

A cursor of the table-backed store is the number of a row, and one of the
in-memory store is a place.  A placement gives for each number the place of
the last row that has at most that number.  Under it the two stores give the
same page, and the placement of the cursor of one page is the cursor of the
other.
-/

variable {packages : Packages} {trusted : List Bytes} {ns : String} {roll : Roll}
  {numbered : List (Nat × (String × Bytes))} {db : Database} {store : MemoryStore}

/-! ## Rows, entries and numbered records -/

theorem eq_of_number (ascending : numbered.Pairwise (fun x y => x.1 < y.1))
    {x y : Nat × (String × Bytes)} (inX : x ∈ numbered) (inY : y ∈ numbered) (same : x.1 = y.1) :
    x = y := by
  have distinct : (numbered.map Prod.fst).Nodup :=
    List.pairwise_map.mpr (ascending.imp (fun less => Nat.ne_of_lt less))
  exact List.inj_on_of_nodup_map distinct inX inY same

theorem Mirrors.mem_records_iff (mirrors : Mirrors packages trusted ns roll numbered db store)
    {row : IndexedRow} : row ∈ db.indexRecords ∧ row.ns = ns ↔
      ∃ n ∈ numbered, indexedRow packages ns roll.paths n = row := by
  rw [← List.mem_map, ← mirrors.records, List.mem_filter, decide_eq_true_eq]

/-- A value that is recorded or asked for has a row under a number exactly when
the record holds it. -/
theorem Mirrors.entry_iff (mirrors : Mirrors packages trusted ns roll numbered db store)
    {values : List Bytes} (free : CollisionFree packages values)
    (recorded : ∀ n ∈ numbered, ∀ entry ∈ (extracted packages roll.paths n.2).entries,
      utf8 entry.2 ∈ values)
    {entry : String × String} (asked : utf8 entry.2 ∈ values) {n : Nat × (String × Bytes)}
    (member : n ∈ numbered) :
    (⟨ns, entry.1, valueKey packages entry.2, n.1⟩ : EntryRow) ∈ db.index ↔
      holds packages roll.paths entry n.2 = true := by
  rw [mirrors.entries _ rfl, holds, List.contains_iff_mem]
  constructor
  · rintro ⟨other, inOther, at_n, value, held, key⟩
    obtain rfl := eq_of_number mirrors.ascending member inOther at_n
    have same := utf8_injective (free _ asked _ (recorded _ member _ held) key)
    rw [show entry = (entry.1, value) from Prod.ext rfl same]
    exact held
  · exact fun held => ⟨n, member, rfl, entry.2, held, rfl⟩

/-- The existence test of the other values of a query. -/
theorem Mirrors.any_entry (mirrors : Mirrors packages trusted ns roll numbered db store)
    {values : List Bytes} (free : CollisionFree packages values)
    (recorded : ∀ n ∈ numbered, ∀ entry ∈ (extracted packages roll.paths n.2).entries,
      utf8 entry.2 ∈ values)
    {entry : String × String} (asked : utf8 entry.2 ∈ values) {n : Nat × (String × Bytes)}
    (member : n ∈ numbered) :
    db.index.any (fun i => i.ns = (indexedRow packages ns roll.paths n).ns && i.path = entry.1 &&
        i.valueSha256 = valueKey packages entry.2 && i.seq = (indexedRow packages ns roll.paths n).seq) =
      holds packages roll.paths entry n.2 := by
  change db.index.any (fun i => i.ns = ns && i.path = entry.1 &&
    i.valueSha256 = valueKey packages entry.2 && i.seq = n.1) = _
  rw [Bool.eq_iff_iff, ← mirrors.entry_iff free recorded asked member, List.any_eq_true]
  simp only [Bool.and_eq_true, decide_eq_true_eq]
  constructor
  · rintro ⟨row, inIndex, ⟨⟨own, path⟩, key⟩, seq⟩
    rwa [← own, ← path, ← key, ← seq]
  · exact fun inIndex => ⟨_, inIndex, ⟨⟨rfl, rfl⟩, rfl⟩, rfl⟩

/-! ## The selected rows -/

/-- The numbered records behind a number that pass every equality of a query. -/
def joined (packages : Packages) (paths : List String) (c : Checked)
    (numbered : List (Nat × (String × Bytes))) : List (Nat × (String × Bytes)) :=
  numbered.filter (fun n => c.after < n.1 &&
    c.filters.all (fun entry => holds packages paths entry n.2))

/-- The numbered records behind a number that a query selects. -/
def chosen (packages : Packages) (paths : List String) (c : Checked)
    (numbered : List (Nat × (String × Bytes))) : List (Nat × (String × Bytes)) :=
  numbered.filter (fun n => c.after < n.1 && selects packages paths c n.2)

theorem nodup_rows {some : List (Nat × (String × Bytes))} (paths : List String)
    (ascending : some.Pairwise (fun x y => x.1 < y.1)) :
    (some.map (indexedRow packages ns paths)).Nodup := by
  refine List.pairwise_map.mpr (ascending.imp (fun {x y} less same => ?_))
  exact absurd (congrArg IndexedRow.seq same) (Nat.ne_of_lt less)

/-- The join of the rows of a value with the indexed records. -/
theorem Mirrors.join_perm (mirrors : Mirrors packages trusted ns roll numbered db store)
    {values : List Bytes} (free : CollisionFree packages values)
    (recorded : ∀ n ∈ numbered, ∀ entry ∈ (extracted packages roll.paths n.2).entries,
      utf8 entry.2 ∈ values) (c : Checked) (first : String × String) (rest : List (String × String))
    (filters : c.filters = first :: rest)
    (asked : ∀ entry ∈ c.filters, utf8 entry.2 ∈ values) :
    ((db.index.filter (fun i => i.ns = ns && i.path = first.1 &&
        i.valueSha256 = valueKey packages first.2 && c.after < i.seq)).flatMap
      (fun i0 => db.indexRecords.filter (fun r => r.seq = i0.seq &&
        rest.all (fun entry => db.index.any (fun i => i.ns = r.ns && i.path = entry.1 &&
          i.valueSha256 = valueKey packages entry.2 && i.seq = r.seq))))).Perm
      ((joined packages roll.paths c numbered).map (indexedRow packages ns roll.paths)) := by
  have wf := mirrors.wellFormed
  rw [List.perm_ext_iff_of_nodup]
  · intro row
    rw [List.mem_flatMap, List.mem_map]
    constructor
    · rintro ⟨i, inIndex, inRecords⟩
      obtain ⟨inIndex, named⟩ := List.mem_filter.mp inIndex
      obtain ⟨inRecords, tested⟩ := List.mem_filter.mp inRecords
      simp only [Bool.and_eq_true, decide_eq_true_eq] at named tested
      obtain ⟨⟨⟨own, path⟩, key⟩, later⟩ := named
      obtain ⟨seq, tested⟩ := tested
      obtain ⟨n, member, at_n, _⟩ := (mirrors.entries i own).mp inIndex
      have given := (mirrors.mem_records_iff).mpr ⟨n, member, rfl⟩
      obtain rfl : indexedRow packages ns roll.paths n = row :=
        List.inj_on_of_nodup_map wf.distinct given.1 inRecords (at_n.symm.trans seq.symm)
      refine ⟨n, List.mem_filter.mpr ⟨member, ?_⟩, rfl⟩
      have head : holds packages roll.paths first n.2 = true := by
        refine (mirrors.entry_iff free recorded (asked first ?_) member).mp ?_
        · rw [filters]
          exact List.mem_cons_self
        · rwa [← own, ← path, ← key, ← at_n]
      rw [filters, List.all_cons, head, Bool.true_and, Bool.and_eq_true, decide_eq_true_eq,
        List.all_eq_true]
      refine ⟨at_n ▸ later, fun entry inRest => ?_⟩
      have inFilters : entry ∈ c.filters := by
        rw [filters]
        exact List.mem_cons_of_mem _ inRest
      rw [← mirrors.any_entry free recorded (asked entry inFilters) member]
      exact List.all_eq_true.mp tested entry inRest
    · rintro ⟨n, chosen, rfl⟩
      obtain ⟨member, passes⟩ := List.mem_filter.mp chosen
      rw [filters, List.all_cons, Bool.and_eq_true, Bool.and_eq_true, decide_eq_true_eq,
        List.all_eq_true] at passes
      obtain ⟨later, head, others⟩ := passes
      have inFirst : first ∈ c.filters := by
        rw [filters]
        exact List.mem_cons_self
      refine ⟨⟨ns, first.1, valueKey packages first.2, n.1⟩, List.mem_filter.mpr
        ⟨(mirrors.entry_iff free recorded (asked first inFirst) member).mpr head, by simp [later]⟩,
        List.mem_filter.mpr ⟨((mirrors.mem_records_iff).mpr ⟨n, member, rfl⟩).1, ?_⟩⟩
      rw [Bool.and_eq_true, List.all_eq_true]
      refine ⟨decide_eq_true rfl, fun entry inRest => ?_⟩
      have inFilters : entry ∈ c.filters := by
        rw [filters]
        exact List.mem_cons_of_mem _ inRest
      rw [mirrors.any_entry free recorded (asked entry inFilters) member]
      exact others entry inRest
  · refine List.nodup_flatMap.mpr ⟨fun i _ => ?_, ?_⟩
    · exact (List.Nodup.of_map _ wf.distinct).filter _
    · -- two rows of one value differ in their number
      refine (wf.entries.filter _).imp_of_mem (fun {i j} inI inJ different => ?_)
      intro row inFirst inSecond
      have first := (List.mem_filter.mp inFirst).2
      have second := (List.mem_filter.mp inSecond).2
      have left := (List.mem_filter.mp inI).2
      have right := (List.mem_filter.mp inJ).2
      simp only [Bool.and_eq_true, decide_eq_true_eq] at first second left right
      refine different ?_
      obtain ⟨_, _, _, _⟩ := i
      obtain ⟨_, _, _, _⟩ := j
      simp only at first second left right
      rw [left.1.1.1, right.1.1.1, left.1.1.2, right.1.1.2, left.1.2, right.1.2, ← first.1,
        ← second.1]
  · exact nodup_rows _ (mirrors.ascending.filter _)

/-- The rows a query selects are those of the selected numbered records. -/
theorem Mirrors.selected_perm (mirrors : Mirrors packages trusted ns roll numbered db store)
    {values : List Bytes} (free : CollisionFree packages values)
    (recorded : ∀ n ∈ numbered, ∀ entry ∈ (extracted packages roll.paths n.2).entries,
      utf8 entry.2 ∈ values) (c : Checked)
    (asked : ∀ entry ∈ c.filters, utf8 entry.2 ∈ values) :
    (selected packages ns c db).Perm
      ((chosen packages roll.paths c numbered).map (indexedRow packages ns roll.paths)) := by
  have rows : (matching packages ns c db).Perm
      ((joined packages roll.paths c numbered).map (indexedRow packages ns roll.paths)) := by
    rw [matching]
    split
    · next filters =>
        rw [filter_both, mirrors.records, List.filter_map, joined, filters]
        refine List.Perm.of_eq (congrArg _ (List.filter_congr (fun n _ => ?_)))
        rw [List.all_nil, Bool.and_true]
        rfl
    · next first rest filters => exact mirrors.join_perm free recorded c first rest filters asked
  have whole : chosen packages roll.paths c numbered =
      (joined packages roll.paths c numbered).filter
        (fun n => notBefore packages roll.paths c.since n.2) := by
    rw [chosen, joined, List.filter_filter]
    refine List.filter_congr (fun n _ => ?_)
    rw [selects, Bool.and_left_comm]
  rw [selected, whole]
  cases bound : c.since with
  | none =>
      simp only [notBefore]
      rw [List.filter_eq_self.mpr (fun n _ => rfl)]
      exact rows
  | some since =>
      refine (rows.filter _).trans (List.Perm.of_eq ?_)
      rw [List.filter_map]
      refine congrArg _ (List.filter_congr (fun n _ => ?_))
      simp only [Function.comp_apply, indexedRow, notBefore]
      cases (extracted packages roll.paths n.2).ts <;> rfl

/-! ## One page -/

/-- A page has the first rows, and a cursor at the last of them when there are more. -/
theorem pageOf_eq (limit : Nat) (rows : List IndexedRow) (taken : List String)
    (room : taken.length ≤ limit) (last : Nat) :
    pageOf limit rows taken last =
      ⟨taken ++ (rows.take (limit - taken.length)).map IndexedRow.capsuleId,
        if limit - taken.length < rows.length then
          some (toString (((rows.take (limit - taken.length)).map IndexedRow.seq).getLast?.getD last))
        else none⟩ := by
  induction rows generalizing taken last with
  | nil => simp [pageOf]
  | cons row rows ih =>
      rw [pageOf]
      by_cases full : taken.length = limit
      · rw [if_pos (by exact_mod_cast full), full, Nat.sub_self]
        simp
      · have size : (taken ++ [row.capsuleId]).length = taken.length + 1 := by simp
        have step : limit - taken.length = limit - (taken.length + 1) + 1 := by omega
        rw [if_neg (by exact_mod_cast full), ih _ (by rw [size]; omega), size, step,
          List.take_succ_cons, List.map_cons, List.length_cons, List.append_assoc]
        congr 1
        simp only [Nat.add_lt_add_iff_right, List.map_cons]
        rw [List.getLast?_cons, Option.getD_some]

/-- The page of a valid query on rows that mirror an index. -/
theorem Mirrors.find_eq (mirrors : Mirrors packages trusted ns roll numbered db store)
    {values : List Bytes} (free : CollisionFree packages values)
    (recorded : ∀ n ∈ numbered, ∀ entry ∈ (extracted packages roll.paths n.2).entries,
      utf8 entry.2 ∈ values) {query : Query} {c : Checked}
    (checked : check packages query roll.paths = .ok c)
    (asked : ∀ entry ∈ c.filters, utf8 entry.2 ∈ values) :
    find packages ns query db = .ok
      ⟨((chosen packages roll.paths c numbered).take c.limit.toNat).map (fun n => n.2.1),
        if c.limit.toNat < (chosen packages roll.paths c numbered).length then
          some (toString ((((chosen packages roll.paths c numbered).take c.limit.toNat).map
            Prod.fst).getLast?.getD 0))
        else none⟩ := by
  obtain ⟨positive, _⟩ := check_ok checked
  have ordered := @Tables.orderBy_eq_of_perm _ IndexedRow.seq _ _
    (mirrors.selected_perm free recorded c asked)
    (List.pairwise_map.mpr (mirrors.ascending.filter _))
  rw [find, declared_of_row mirrors.tables mirrors.paths mirrors.decodes]
  simp only [ok_bind, checked, ordered]
  generalize chosen packages roll.paths c numbered = hits
  obtain ⟨limit, size⟩ : ∃ limit : Nat, c.limit = limit := ⟨c.limit.toNat, by omega⟩
  rw [size, pageOf_eq limit _ [] (Nat.zero_le _) 0, List.nil_append, List.length_nil, Nat.sub_zero,
    Int.toNat_natCast, show ((limit : Int) + 1).toNat = limit + 1 by omega, List.take_take,
    Nat.min_eq_left (Nat.le_succ limit), List.length_take, List.length_map, ← List.map_take,
    List.map_map, List.map_map]
  have more : limit < min (limit + 1) hits.length ↔ limit < hits.length := by omega
  simp only [more]
  rfl

/-! ## Numbers and places -/

/-- A place for each number: behind it are the records with a larger number. -/
structure Placement (place : Nat → Nat) (numbered : List (Nat × (String × Bytes))) : Prop where
  zero : place 0 = 0
  behind : ∀ s, numbered.filter (fun n => s < n.1) = numbered.drop (place s)
  small : ∀ s ≤ maxI64, place s ≤ maxI64

/-- The cursor of the in-memory store for a cursor of the tables. -/
def placed (place : Nat → Nat) (after : Option String) : Option String :=
  match afterOf after with
  | .ok s => if s = 0 then after else MemoryIndex.cursorAfter (place s)
  | .error _ => after

/-- The records behind a member of an ascending list. -/
theorem filter_behind (ascending : numbered.Pairwise (fun x y => x.1 < y.1)) {j : Nat}
    {x : Nat × (String × Bytes)} (at_j : numbered[j]? = some x) :
    numbered.filter (fun n => x.1 < n.1) = numbered.drop (j + 1) := by
  obtain ⟨inside, rfl⟩ := List.getElem?_eq_some_iff.mp at_j
  have pieces := congrArg (List.filter (fun n => numbered[j].1 < n.1))
    (List.take_append_drop (j + 1) numbered)
  have front : (numbered.take (j + 1)).filter (fun n => numbered[j].1 < n.1) = [] := by
    refine List.filter_eq_nil_iff.mpr (fun n member later => ?_)
    obtain ⟨i, before, rfl⟩ := List.mem_take_iff_getElem.mp member
    rw [decide_eq_true_eq] at later
    rcases Nat.lt_or_ge i j with less | same
    · exact absurd (List.pairwise_iff_getElem.mp ascending i j (by omega) inside less)
        (Nat.lt_asymm later)
    · obtain rfl : i = j := by omega
      exact absurd later (Nat.lt_irrefl _)
  have back : (numbered.drop (j + 1)).filter (fun n => numbered[j].1 < n.1) =
      numbered.drop (j + 1) := by
    refine List.filter_eq_self.mpr (fun n member => ?_)
    obtain ⟨i, within, rfl⟩ := List.mem_drop_iff_getElem.mp member
    rw [decide_eq_true_eq]
    exact List.pairwise_iff_getElem.mp ascending j _ inside _ (by omega)
  rw [List.filter_append, front, back, List.nil_append] at pieces
  exact pieces.symm

/-- The selected records behind a number are those behind its place. -/
theorem hitsAfter_placed (numbers : numbered.map Prod.snd = roll.records) {place : Nat → Nat}
    (placement : Placement place numbered) (c : Checked) :
    hitsAfter packages roll { c with after := place c.after } =
      (chosen packages roll.paths c numbered).map Prod.snd := by
  rw [hitsAfter, chosen, filter_both, placement.behind, ← numbers, ← List.map_drop, List.filter_map]
  rfl

/-- The places of the selected records in the numbered list. -/
theorem placesAfter_eq (numbers : numbered.map Prod.snd = roll.records) (c : Checked) :
    placesAfter packages roll c = places (fun n => selects packages roll.paths c n.2) (1 + c.after)
      (numbered.drop c.after) := by
  rw [placesAfter, ← numbers, ← List.map_drop, places_map]
  rfl

/-- The place of the last record of a page that is not the last one. -/
theorem place_of_last (ascending : numbered.Pairwise (fun x y => x.1 < y.1))
    (given : ∀ n ∈ numbered, 1 ≤ n.1) (numbers : numbered.map Prod.snd = roll.records)
    {place : Nat → Nat} (placement : Placement place numbered) (c : Checked) {limit : Nat}
    (positive : 1 ≤ limit) (more : limit < (chosen packages roll.paths c numbered).length) :
    ∃ s, (((chosen packages roll.paths c numbered).take limit).map Prod.fst).getLast? = some s ∧
      ((placesAfter packages roll { c with after := place c.after }).take limit).getLast? =
        some (place s) ∧ 1 ≤ s ∧ 1 ≤ place s ∧ s ∈ numbered.map Prod.fst := by
  obtain ⟨j, rfl⟩ : ∃ j, limit = j + 1 := ⟨limit - 1, by omega⟩
  have hits : chosen packages roll.paths c numbered =
      (numbered.drop (place c.after)).filter (fun n => selects packages roll.paths c n.2) := by
    rw [chosen, filter_both, placement.behind]
  have at_places : placesAfter packages roll { c with after := place c.after } =
      places (fun n => selects packages roll.paths c n.2) (1 + place c.after)
        (numbered.drop (place c.after)) :=
    placesAfter_eq numbers { c with after := place c.after }
  rw [hits] at more ⊢
  rw [at_places]
  generalize place c.after = k at more ⊢
  generalize found : places (fun n => selects packages roll.paths c n.2) (1 + k) (numbered.drop k) = at_k
  have count : at_k.length = ((numbered.drop k).filter
      (fun n => selects packages roll.paths c n.2)).length := by
    rw [← found, length_places]
  have named := @map_places _ (fun n => selects packages roll.paths c n.2) (1 + k) (numbered.drop k) _
    (fun p => (numbered[p - 1]?).map Prod.fst) (fun n => some n.1) (fun p n at_p => by
      rw [List.getElem?_drop] at at_p
      rw [show 1 + k + p - 1 = k + p by omega, at_p]
      rfl)
  rw [found] at named
  obtain ⟨p, here⟩ : ∃ p, at_k[j]? = some p := ⟨_, List.getElem?_eq_getElem (by omega)⟩
  obtain ⟨q, next⟩ : ∃ q, at_k[j + 1]? = some q := ⟨_, List.getElem?_eq_getElem (by omega)⟩
  obtain ⟨m, last⟩ : ∃ m, ((numbered.drop k).filter
      (fun n => selects packages roll.paths c n.2))[j]? = some m :=
    ⟨_, List.getElem?_eq_getElem (by omega)⟩
  have numbered_at := congrArg (fun l => l[j]?) named
  simp only [List.getElem?_map, here, last, Option.map_some, Option.some_inj] at numbered_at
  obtain ⟨x, at_p, same⟩ := Option.map_eq_some_iff.mp numbered_at
  have start : 1 + k ≤ p := le_of_mem_places (by rw [found]; exact List.mem_of_getElem? here)
  have stop := lt_of_mem_places (by rw [found]; exact List.mem_of_getElem? next)
  rw [List.length_drop] at stop
  have before : p < q := by
    have ascends := @places_pairwise _ (fun n => selects packages roll.paths c n.2) (1 + k)
      (numbered.drop k)
    rw [found] at ascends
    obtain ⟨inside, rfl⟩ := List.getElem?_eq_some_iff.mp here
    obtain ⟨within, rfl⟩ := List.getElem?_eq_some_iff.mp next
    exact List.pairwise_iff_getElem.mp ascends j (j + 1) inside within (Nat.lt_succ_self j)
  have behind := filter_behind ascending at_p
  rw [same, placement.behind] at behind
  have lengths := congrArg List.length behind
  rw [List.length_drop, List.length_drop] at lengths
  have placed : place m.1 = p := by omega
  have member : m ∈ numbered := List.mem_of_mem_drop (List.mem_of_mem_filter (List.mem_of_getElem? last))
  refine ⟨m.1, ?_, ?_, given m member, by omega, List.mem_map_of_mem member⟩
  · rw [List.getLast?_map, List.getLast?_take, if_neg (Nat.succ_ne_zero j), Nat.add_sub_cancel, last]
    rfl
  · rw [List.getLast?_take, if_neg (Nat.succ_ne_zero j), Nat.add_sub_cancel, here, placed]
    rfl

/-! ## Cursors -/

theorem afterOf_le {after : Option String} {s : Nat} (ok : afterOf after = .ok s) : s ≤ maxI64 := by
  unfold afterOf at ok
  split at ok
  · cases ok
    exact Nat.zero_le _
  · split_ifs at ok with empty
    · cases ok
      exact Nat.zero_le _
    · split at ok
      · next cursor _ n parsed =>
          cases ok
          rw [parseCursor] at parsed
          split_ifs at parsed with canonical
          cases parsed
          exact canonical.2.1
      · cases ok

theorem afterOf_placed {place : Nat → Nat} (placement : Placement place numbered)
    (after : Option String) : afterOf (placed place after) = (afterOf after).map place := by
  rw [placed]
  cases read : afterOf after with
  | error e => exact read
  | ok s =>
      simp only
      by_cases zero : s = 0
      · rw [if_pos zero, read, zero, Except.map, placement.zero]
      · rw [if_neg zero, afterOf_cursorAfter (placement.small s (afterOf_le read))]
        rfl

theorem placed_cursor {place : Nat → Nat} {s : Nat} (positive : 1 ≤ s) (bounded : s ≤ maxI64)
    (behind : 1 ≤ place s) : placed place (some (toString s)) = some (toString (place s)) := by
  have read := @afterOf_cursorAfter s bounded
  rw [MemoryIndex.cursorAfter, if_neg (by omega)] at read
  rw [placed, read]
  simp only
  rw [if_neg (by omega), MemoryIndex.cursorAfter, if_neg (by omega)]

/-- The validation of a query with the cursor translated. -/
theorem check_placed {place : Nat → Nat} (placement : Placement place numbered) (query : Query)
    (declared : List String) :
    check packages { query with after := placed place query.after } declared =
      (check packages query declared).map (fun c => { c with after := place c.after }) := by
  have since : sinceOf packages { query with after := placed place query.after } =
      sinceOf packages query := rfl
  rw [check_eq, check_eq, since]
  simp only [afterOf_placed placement]
  cases ensure (1 ≤ query.limit && query.limit ≤ maxFindLimit)
      (ArtifactError.invalid ("limit " ++ toString query.limit)) with
  | error e => rfl
  | ok done =>
      simp only [ok_bind]
      cases query.filters.find? (fun entry => !declared.contains entry.1) with
      | some entry => rfl
      | none =>
          cases sinceOf packages query with
          | error e => rfl
          | ok bound => cases afterOf query.after <;> rfl

theorem check_filters {query : Query} {declared : List String} {c : Checked}
    (ok : check packages query declared = .ok c) : c.filters = query.filters := by
  rw [check_eq] at ok
  obtain ⟨_, _, ok⟩ := bind_eq_ok_iff.mp ok
  split at ok
  · cases ok
  · obtain ⟨_, _, ok⟩ := bind_eq_ok_iff.mp ok
    obtain ⟨_, _, ok⟩ := bind_eq_ok_iff.mp ok
    cases ok
    rfl

/-! ## The same page -/

/-- Pages with the same ids, and the cursor of one, if it has one, placed in the other. -/
def PagesAlike (place : Nat → Nat) : Result Page → Result Page → Prop
  | .ok p, .ok q => p.ids = q.ids ∧ q.next = placed place p.next ∧ (q.next = none → p.next = none)
  | .error e, .error e' => e = e'
  | _, _ => False

/-- The tables and the in-memory store give the same page. -/
theorem Mirrors.find_alike (mirrors : Mirrors packages trusted ns roll numbered db store)
    {values : List Bytes} (free : CollisionFree packages values)
    (recorded : ∀ n ∈ numbered, ∀ entry ∈ (extracted packages roll.paths n.2).entries,
      utf8 entry.2 ∈ values) {query : Query}
    (asked : ∀ entry ∈ query.filters, utf8 entry.2 ∈ values) {place : Nat → Nat}
    (placement : Placement place numbered) (bounded : db.sequence ≤ maxI64) :
    PagesAlike place (find packages ns query db)
      (store.find packages { query with after := placed place query.after }) := by
  have checked := @check_placed packages _ _ placement query roll.paths
  cases valid : check packages query roll.paths with
  | error e =>
      rw [valid] at checked
      rw [find, declared_of_row mirrors.tables mirrors.paths mirrors.decodes, MemoryStore.find,
        MemoryIndex.find, mirrors.indexes.paths]
      simp only [ok_bind, valid, error_bind, checked, Except.map]
      exact rfl
  | ok c =>
      rw [valid] at checked
      obtain ⟨positive, _⟩ := check_ok valid
      rw [mirrors.find_eq free recorded valid (by rwa [check_filters valid]), MemoryStore.find,
        find_places mirrors.indexes checked]
      rw [hitsAfter_placed mirrors.numbers placement, List.length_map, ← List.map_take, List.map_map]
      refine ⟨rfl, ?_⟩
      simp only
      by_cases more : c.limit.toNat < (chosen packages roll.paths c numbered).length
      · obtain ⟨s, last, behind, given, placedAt, listed⟩ := place_of_last mirrors.ascending
          (fun n member => (mirrors.given member).1) mirrors.numbers placement c (by omega) more
        obtain ⟨n, member, rfl⟩ := List.mem_map.mp listed
        rw [if_pos more, if_pos more, last, behind, Option.getD_some, Option.getD_some,
          placed_cursor given ((mirrors.given member).2.trans bounded) placedAt]
        exact ⟨rfl, fun none => by cases none⟩
      · rw [if_neg more, if_neg more]
        exact ⟨rfl, fun _ => rfl⟩

end Sql
end ArtifactStore
end CapsuleEmit
