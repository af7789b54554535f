import CapsuleEmit.ArtifactStore.Record
import CapsuleEmit.Foundation.Search
import Mathlib.Data.List.Sort
import Mathlib.Data.List.Range
import Mathlib.Logic.Relation

namespace CapsuleEmit
namespace ArtifactStore

/-!
# The index extension

A namespace declares JSON paths into its Capsules.  The in-memory index gives
each admitted record the next position and keeps, for each declared path and
value, the positions of the records that hold it.  A find returns one page of
Capsule IDs in position order, with a cursor when a further match exists.

The main fact is about unfiltered finds.  Following the cursors from the first
page visits every indexed record, whatever the page size.
-/

def maxIndexPaths : Nat := 32
def maxFindLimit : Int := 1000

/-- The largest value of a signed 64-bit integer. -/
def maxI64 : Nat := 9223372036854775807

/-- What a find selects.  `filters` are the declared paths with the value each
must hold, in the order of a sorted map. -/
structure Query where
  filters : List (String × String)
  since : Option String
  after : Option String
  limit : Int

/-- One page of results. -/
structure Page where
  ids : List String
  next : Option String
  deriving DecidableEq

/-- The page of an answer without matches. -/
def Page.empty : Page := ⟨[], none⟩

section

variable (packages : Packages)

/-! ## Paths -/

def isPathByte (b : UInt8) : Bool := isAsciiAlphanumeric b || b = 95 || b = 45

def validPath (path : String) : Bool :=
  (utf8 path).length ≤ 255 && (splitOnChar '.' path).length ≤ 8 &&
    (splitOnChar '.' path).all (fun segment =>
      1 ≤ (utf8 segment).length && (utf8 segment).length ≤ 64 &&
        (utf8 segment).all isPathByte)

/-- The check of a sorted path list, one path after the other. -/
def checkPaths (previous : Option String) : List String → Result Unit
  | [] => .ok ()
  | path :: paths => do
      ensure (validPath path) (.invalid ("index path " ++ packages.debugString path))
      ensure (previous ≠ some path)
        (.invalid ("repeated index path " ++ packages.debugString path))
      checkPaths (some path) paths

/-- Validates a declared path list and returns it sorted. -/
def normalizePaths (paths : List String) : Result (List String) := do
  ensure (paths.length ≤ maxIndexPaths) (.invalid "more than 32 index paths")
  let sorted := paths.insertionSort (fun x y => utf8 x ≤ utf8 y)
  checkPaths packages none sorted
  .ok sorted

/-! ## Timestamps -/

/-- The number the digits of a field spell. -/
def digits (b : Bytes) (start len : Nat) : Option Int :=
  if start + len ≤ b.length then
    ((b.drop start).take len).foldlM (fun n c =>
      if isDigit c then some (n * 10 + (c.toNat - 48 : Int)) else none) 0
  else none

def daysIn (year month : Int) : Int :=
  if month = 2 then
    if year % 4 = 0 ∧ (year % 100 ≠ 0 ∨ year % 400 = 0) then 29 else 28
  else if month = 4 ∨ month = 6 ∨ month = 9 ∨ month = 11 then 30
  else 31

/-- Days since 1970-01-01 in the proleptic Gregorian calendar. -/
def daysFromCivil (year month day : Int) : Int :=
  let y := if month ≤ 2 then year - 1 else year
  let era := y / 400
  let yoe := y - era * 400
  let mp := (month + 9) % 12
  let doy := (153 * mp + 2) / 5 + day - 1
  let doe := yoe * 365 + yoe / 4 - yoe / 100 + doy
  era * 146097 + doe - 719468

/-- The microseconds of a fraction and the place after it. -/
def fraction (b : Bytes) (start : Nat) : Option (Int × Nat) :=
  if b[start]? = some 46 then
    let places := (b.drop (start + 1)).takeWhile isDigit
    if 1 ≤ places.length ∧ places.length ≤ 9 then
      some ((List.range 6).foldl (fun micros k =>
        micros * 10 + (((places[k]?).map (fun c => (c.toNat - 48 : Int))).getD 0)) 0,
        start + 1 + places.length)
    else none
  else some (0, start)

/-- The minutes of the offset that ends a timestamp. -/
def offsetMinutes (b : Bytes) (i : Nat) : Option Int :=
  match b.drop i with
  | [90] => some 0
  | [sign, _, _, 58, _, _] =>
      if sign = 43 ∨ sign = 45 then do
        let oh ← digits b (i + 1) 2
        let om ← digits b (i + 4) 2
        if oh > 23 ∨ om > 59 then none
        else
          let minutes := oh * 60 + om
          some (if sign = 45 then -minutes else minutes)
      else none
  | _ => none

/-- Reads an RFC 3339 date-time in UTC microseconds since the Unix epoch. -/
def parseTimestamp (s : String) : Option Int := do
  let b := utf8 s
  guard (b[4]? = some 45 ∧ b[7]? = some 45 ∧ b[10]? = some 84 ∧ b[13]? = some 58 ∧
    b[16]? = some 58)
  let year ← digits b 0 4
  let month ← digits b 5 2
  let day ← digits b 8 2
  let hour ← digits b 11 2
  let minute ← digits b 14 2
  let second ← digits b 17 2
  let (micros, i) ← fraction b 19
  let offset ← offsetMinutes b i
  guard (1 ≤ month ∧ month ≤ 12 ∧ 1 ≤ day ∧ day ≤ daysIn year month ∧ hour ≤ 23 ∧
    minute ≤ 59 ∧ second ≤ 59)
  let seconds := daysFromCivil year month day * 86400 + hour * 3600 + minute * 60 + second -
    offset * 60
  return seconds * 1000000 + micros

/-! ## Extraction -/

/-- What a record contributes to the index. -/
structure Extracted where
  entries : List (String × String)
  ts : Option Int

/-- The value at a path of segments. -/
def valueAt (root : Json) (segments : List String) : Option Json :=
  segments.foldl (fun value segment => value.bind (Json.get segment)) (some root)

/-- The entries of one path: a string, or each distinct string of an array. -/
def pathEntries (root : Json) (path : String) : List (String × String) :=
  match valueAt root (splitOnChar '.' path) with
  | some (.array elements) =>
      ((elements.filterMap Json.asStr).foldl (fun seen s =>
        if seen.contains s then seen else seen ++ [s]) []).map (fun s => (path, s))
  | some value => (value.asStr.map (fun s => [(path, s)])).getD []
  | none => []

/-- Reads the declared paths and the top-level timestamp from Capsule bytes. -/
def extract (capsule : Bytes) (paths : List String) : Result Extracted :=
  match decodeStrictJson packages capsule with
  | .error e => .error (.corrupt ("capsule is not JSON: " ++ e))
  | .ok root =>
      .ok {
        entries := paths.flatMap (pathEntries root)
        ts := (memberStr "timestamp" root).bind parseTimestamp }

/-! ## Queries -/

/-- A validated query. -/
structure Checked where
  filters : List (String × String)
  since : Option Int
  after : Nat
  limit : Int

/-- The position a cursor names: a cursor is the decimal text of a positive
64-bit integer, without a sign or leading zeros. -/
def parseCursor (cursor : String) : Option Nat :=
  let n := Nat.ofDigitChars 10 cursor.toList 0
  if 1 ≤ n ∧ n ≤ maxI64 ∧ toString n = cursor then some n else none

/-- Validates a query against the declared paths. -/
def check (query : Query) (declared : List String) : Result Checked := do
  ensure (1 ≤ query.limit && query.limit ≤ maxFindLimit) (.invalid ("limit " ++ toString query.limit))
  match query.filters.find? (fun entry => !declared.contains entry.1) with
  | some entry =>
      .error (.invalid (packages.debugString entry.1 ++ " is not a declared index path"))
  | none =>
      let since ← match query.since with
        | none => .ok none
        | some s =>
            if s = "" then .ok none
            else match parseTimestamp s with
              | some ts => .ok (some ts)
              | none => .error (ArtifactError.invalid
                  ("since " ++ packages.debugString s ++ " is not an RFC 3339 date-time"))
      let after ← match query.after with
        | none => .ok 0
        | some cursor =>
            if cursor = "" then .ok 0
            else match parseCursor cursor with
              | some n => .ok n
              | none => .error (ArtifactError.invalid "cursor")
      .ok ⟨query.filters, since, after, query.limit⟩

/-! ## The in-memory index -/

/-- The index of the in-memory and the file-backed store.  Positions start at
one and follow admission order. -/
structure MemoryIndex where
  paths : Option (List String)
  ts : List (Option Int)
  ids : List String
  values : String → String → List Nat
  position : String → Option Nat

namespace MemoryIndex

/-- The index before a declaration. -/
def default : MemoryIndex := ⟨none, [], [], fun _ _ => [], fun _ => none⟩

def isDeclared (index : MemoryIndex) : Bool := index.paths.isSome

/-- Replaces the declaration and empties the index. -/
def reset (normalized : List String) : MemoryIndex := { default with paths := some normalized }

/-- Records paths for a fresh index, or checks them against the declaration;
whether the caller must now add the existing records. -/
def declare (index : MemoryIndex) (paths : List String) : Result (Bool × MemoryIndex) := do
  let normalized ← normalizePaths packages paths
  match index.paths with
  | some current => if current = normalized then .ok (false, index) else .error .conflict
  | none => .ok (true, reset normalized)

/-- Enter one value of a record. -/
def enterValue (position : Nat) (values : String → String → List Nat) (entry : String × String) :
    String → String → List Nat :=
  fun path value =>
    if (path, value) = entry then values path value ++ [position] else values path value

/-- Indexes one record at the next position.  A record already indexed stays
where it is, and before a declaration nothing happens. -/
def add (index : MemoryIndex) (id : String) (capsule : Bytes) : Result MemoryIndex :=
  match index.paths with
  | none => .ok index
  | some paths =>
      if (index.position id).isSome then .ok index
      else do
        let extracted ← extract packages capsule paths
        let position := index.ids.length + 1
        .ok {
          paths := index.paths
          ts := index.ts ++ [extracted.ts]
          ids := index.ids ++ [id]
          values := extracted.entries.foldl (enterValue position) index.values
          position := Function.update index.position id (some position) }

/-- The positions of the records that hold a value at a path. -/
def positions (index : MemoryIndex) (path value : String) : List Nat := index.values path value

/-- Whether the record at a position passes the bound and all but the first filter. -/
def isMatch (index : MemoryIndex) (c : Checked) (p : Nat) : Bool :=
  (match c.since with
    | none => true
    | some since =>
        match index.ts[p - 1]? with
        | some (some ts) => since ≤ ts
        | _ => false) &&
    (c.filters.drop 1).all (fun entry =>
      succeeds (Search.searchBy (fun q => compare q p) (index.positions entry.1 entry.2)))

/-- Fill one page from the candidates; `last` is the position of the last id. -/
def fillPage (ids : List String) (found : Nat → Bool) (limit : Int) :
    List Nat → List String → Nat → Page
  | [], taken, _ => ⟨taken, none⟩
  | p :: candidates, taken, last =>
      if !found p then fillPage ids found limit candidates taken last
      else if (taken.length : Int) = limit then ⟨taken, some (toString last)⟩
      else fillPage ids found limit candidates (taken ++ [ids.getD (p - 1) ""]) p

/-- The positions behind the cursor of the records that pass the first filter. -/
def candidates (index : MemoryIndex) (c : Checked) : List Nat :=
  match c.filters.head? with
  | none => List.range' (c.after + 1) (index.ids.length - c.after)
  | some entry =>
      let all := index.positions entry.1 entry.2
      all.drop (Search.partitionPoint (fun p => p ≤ c.after) all)

/-- Answers a query.  Before a declaration it is invalid. -/
def find (index : MemoryIndex) (query : Query) : Result Page :=
  match index.paths with
  | none => .error (.invalid "no index paths declared")
  | some paths => do
      let c ← check packages query paths
      if index.ids.length ≤ c.after then .ok Page.empty
      else
        .ok (fillPage index.ids (isMatch index c) c.limit (index.candidates c) [] 0)

end MemoryIndex

end

variable {packages : Packages}

/-! ## Adding a record -/

/-- A record that verifies has a Capsule that decodes. -/
theorem decodes_of_verify {record : Record} {trusted : List Bytes}
    (ok : succeeds (verify packages record trusted) = true) :
    succeeds (decodeStrictJson packages record.capsule) = true := by
  obtain ⟨_, ok⟩ := succeeds_iff.mp ok
  obtain ⟨_, authentic, _⟩ := bind_eq_ok_iff.mp ok
  obtain ⟨_, _, authentic⟩ := bind_eq_ok_iff.mp authentic
  cases decoded : decodeStrictJson packages record.capsule with
  | error e => simp [decoded] at authentic
  | ok root => rfl

namespace MemoryIndex

/-- Every id with a position is listed. -/
def Listed (index : MemoryIndex) : Prop := ∀ id, (index.position id).isSome → id ∈ index.ids

theorem listed_default : Listed default := by
  intro id positioned
  cases positioned

theorem listed_reset (normalized : List String) : Listed (reset normalized) := by
  intro id positioned
  cases positioned

@[simp] theorem reset_paths (normalized : List String) :
    (reset normalized).paths = some normalized := rfl

/-- Adding a record keeps the declaration and everything listed, and lists the
record if paths are declared. -/
theorem add_ok {index index' : MemoryIndex} {id : String} {capsule : Bytes}
    (listed : Listed index) (ok : index.add packages id capsule = .ok index') :
    Listed index' ∧ index'.paths = index.paths ∧ (∀ other ∈ index.ids, other ∈ index'.ids) ∧
      (index.paths.isSome → id ∈ index'.ids) := by
  unfold add at ok
  split at ok
  · next undeclared =>
      cases ok
      exact ⟨listed, rfl, fun _ member => member, by simp [undeclared]⟩
  · next paths declared =>
      split at ok
      · next known =>
          cases ok
          exact ⟨listed, rfl, fun _ member => member, fun _ => listed id known⟩
      · obtain ⟨extracted, _, same⟩ := bind_eq_ok_iff.mp ok
        cases same
        refine ⟨?_, rfl, fun other member => List.mem_append_left _ member,
          fun _ => List.mem_append_right _ (List.mem_singleton.mpr rfl)⟩
        intro other positioned
        by_cases same : other = id
        · exact List.mem_append_right _ (List.mem_singleton.mpr same)
        · exact List.mem_append_left _ (listed other (by
            simpa [Function.update_of_ne same] using positioned))

/-- A Capsule that decodes can be added. -/
theorem add_of_decodes (index : MemoryIndex) {capsule : Bytes}
    (decodes : succeeds (decodeStrictJson packages capsule) = true) (id : String) :
    ∃ index', index.add packages id capsule = .ok index' := by
  obtain ⟨root, decodes⟩ := succeeds_iff.mp decodes
  unfold add
  split
  · exact ⟨_, rfl⟩
  · split
    · exact ⟨_, rfl⟩
    · simp only [extract, decodes, ok_bind]
      exact ⟨_, rfl⟩

end MemoryIndex

/-! ## Following the cursors of an unfiltered find -/

/-- A query without filters or bound. -/
def unfiltered (after : Option String) (limit : Int) : Query := ⟨[], none, after, limit⟩

namespace MemoryIndex

/-- The cursors a caller reaches from the first page. -/
inductive Cursor (packages : Packages) (index : MemoryIndex) (limit : Int) : Option String → Prop
  | first : Cursor packages index limit none
  | next {after : Option String} {page : Page} {cursor : String} :
      Cursor packages index limit after →
      index.find packages (unfiltered after limit) = .ok page → page.next = some cursor →
      Cursor packages index limit (some cursor)

/-- An id on some page of an unfiltered find with the given page size. -/
def Found (packages : Packages) (index : MemoryIndex) (limit : Int) (id : String) : Prop :=
  ∃ after page, Cursor packages index limit after ∧
    index.find packages (unfiltered after limit) = .ok page ∧ id ∈ page.ids

/-- A page that nothing is filtered from is a run of the ids. -/
theorem fillPage_all (ids : List String) {found : Nat → Bool} (all : ∀ p, found p = true)
    (limit : Nat) (k m : Nat) (whole : k + m = ids.length) (taken : List String)
    (room : taken.length ≤ limit) (last : Nat) (placed : taken.length = limit → last = k) :
    fillPage ids found limit (List.range' (k + 1) m) taken last =
      ⟨taken ++ (ids.drop k).take (limit - taken.length),
        if limit - taken.length < m then some (toString (k + (limit - taken.length))) else none⟩ := by
  induction m generalizing k taken last with
  | zero =>
      have exhausted : ids.drop k = [] := List.drop_eq_nil_of_le (by omega)
      simp [fillPage, exhausted]
  | succ m ih =>
      rw [List.range'_succ, fillPage, all, Bool.not_true, if_neg Bool.false_ne_true]
      by_cases full : taken.length = limit
      · rw [if_pos (by simp [full])]
        simp [full, placed full]
      · have some : k < ids.length := by omega
        have step : (ids.drop k).take (limit - taken.length) =
            ids[k] :: (ids.drop (k + 1)).take (limit - (taken.length + 1)) := by
          rw [List.drop_eq_getElem_cons some, show limit - taken.length =
            (limit - (taken.length + 1)) + 1 by omega, List.take_succ_cons]
        have head : ids.getD (k + 1 - 1) "" = ids[k] := by
          rw [Nat.add_sub_cancel, List.getD_eq_getElem?_getD, List.getElem?_eq_getElem some,
            Option.getD_some]
        rw [if_neg (by exact_mod_cast full), head, ih (k + 1) (by omega) _ (by simp; omega)]
        · rw [step]
          have size : (taken ++ [ids[k]]).length = taken.length + 1 := by simp
          rw [size]
          have place : k + 1 + (limit - (taken.length + 1)) = k + (limit - taken.length) := by omega
          rw [place]
          simp only [List.append_assoc, List.singleton_append, Page.mk.injEq, true_and]
          by_cases more : limit - taken.length < m + 1
          · rw [if_pos more, if_pos (by omega)]
          · rw [if_neg more, if_neg (by omega)]
        · intro _
          omega

theorem parseCursor_toString {n : Nat} (positive : 1 ≤ n) (bounded : n ≤ maxI64) :
    parseCursor (toString n) = some n := by
  have read : Nat.ofDigitChars 10 (toString n).toList 0 = n := by
    rw [Nat.toString_eq_repr, Nat.toList_repr, Nat.ofDigitChars_ten_toDigits]
  simp only [parseCursor, read]
  rw [if_pos ⟨positive, bounded, trivial⟩]

/-- The cursor that continues after a number of ids. -/
def cursorAfter (n : Nat) : Option String := if n = 0 then none else some (toString n)

theorem check_unfiltered {limit : Nat} (positive : 1 ≤ limit)
    (bounded : (limit : Int) ≤ maxFindLimit) (declared : List String) {n : Nat} (small : n ≤ maxI64) :
    check packages (unfiltered (cursorAfter n) limit) declared = .ok ⟨[], none, n, limit⟩ := by
  have inRange : (1 ≤ (limit : Int) && (limit : Int) ≤ maxFindLimit) = true := by
    simp [bounded]
    omega
  rw [check, unfiltered, inRange, ensure_true, ok_bind]
  by_cases zero : n = 0
  · rw [cursorAfter, if_pos zero, zero]
    rfl
  · have read := parseCursor_toString (Nat.one_le_iff_ne_zero.mpr zero) small
    have filled : toString n ≠ "" := by
      intro empty
      rw [empty] at read
      simp [parseCursor] at read
    rw [cursorAfter, if_neg zero]
    simp only [List.find?_nil, ok_bind, read, if_neg filled]

/-- One page of an unfiltered find. -/
theorem find_unfiltered {index : MemoryIndex} {paths : List String}
    (declared : index.paths = some paths) {limit : Nat} (positive : 1 ≤ limit)
    (bounded : (limit : Int) ≤ maxFindLimit) {n : Nat} (small : n ≤ maxI64)
    (inside : n < index.ids.length) :
    index.find packages (unfiltered (cursorAfter n) limit) =
      .ok ⟨(index.ids.drop n).take limit,
        if limit < index.ids.length - n then some (toString (n + limit)) else none⟩ := by
  have checked := @check_unfiltered packages _ positive bounded paths _ small
  rw [find, declared]
  simp only [checked, ok_bind]
  rw [if_neg (by omega)]
  have page := @fillPage_all index.ids (isMatch index ⟨[], none, n, limit⟩)
    (fun p => by simp [isMatch]) limit n (index.ids.length - n) (by omega) [] (Nat.zero_le _) 0
    (fun none => by simp at none; omega)
  simpa [candidates] using page

/-- Every indexed record is on some page of an unfiltered find. -/
theorem found_of_mem {index : MemoryIndex} {paths : List String}
    (declared : index.paths = some paths) {limit : Nat} (positive : 1 ≤ limit)
    (bounded : (limit : Int) ≤ maxFindLimit) (small : index.ids.length ≤ maxI64) {id : String}
    (member : id ∈ index.ids) : Found packages index limit id := by
  have reached : ∀ j, j * limit < index.ids.length →
      Cursor packages index limit (cursorAfter (j * limit)) := by
    intro j
    induction j with
    | zero =>
        intro _
        rw [Nat.zero_mul]
        exact Cursor.first
    | succ j ih =>
        intro inside
        rw [Nat.succ_mul] at inside ⊢
        have earlier : j * limit < index.ids.length := by omega
        have page := @find_unfiltered packages _ _ declared _ positive bounded
          (j * limit) (by omega) earlier
        rw [if_pos (by omega)] at page
        have next := Cursor.next (ih earlier) page rfl
        rwa [cursorAfter, if_neg (by omega)]
  obtain ⟨i, inside, rfl⟩ := List.mem_iff_getElem.mp member
  have start : i / limit * limit ≤ i := Nat.div_mul_le_self i limit
  have stop : i < i / limit * limit + limit := by
    have := Nat.lt_mul_div_succ i positive
    rw [Nat.mul_comm, Nat.add_mul, Nat.one_mul] at this
    exact this
  refine ⟨_, _, reached (i / limit) (by omega), find_unfiltered declared positive bounded
    (by omega) (by omega), ?_⟩
  rw [List.mem_iff_getElem]
  refine ⟨i - i / limit * limit, ?_, ?_⟩
  · simp only [List.length_take, List.length_drop]
    omega
  · simp only [List.getElem_take, List.getElem_drop]
    congr 1
    omega

end MemoryIndex

end ArtifactStore
end CapsuleEmit
