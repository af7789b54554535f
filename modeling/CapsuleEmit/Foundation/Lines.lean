import Mathlib.Algebra.GroupWithZero.Nat
import Mathlib.Data.List.Induction
import Mathlib.Logic.Function.Basic
import Mathlib.Tactic.Common

namespace CapsuleEmit
namespace Lines

/-!
# Newline-delimited byte files

An append-only file of records is a sequence of terminated lines followed by
an unterminated remainder.  The remainder is what an interrupted write leaves:
it is part of the file, but it is not a line.  Splitting a byte sequence at a
separator and joining the pieces again are inverse to each other, so every
fact about byte offsets can be proved on the split form.

A keyed index reads the terminated lines once, in order.  It records, for each
key, the byte span of the last line that carries it, and the keys in the order
of their first line.  The two facts used most are that a recorded span reads
back exactly the last line with that key, and that appending one line changes
the index by exactly one step.
-/

variable {α : Type*}

/-- Split at a separator into the terminated lines and the remainder. -/
def split [DecidableEq α] (sep : α) : List α → List (List α) × List α
  | [] => ([], [])
  | a :: rest =>
      if a = sep then ([] :: (split sep rest).1, (split sep rest).2)
      else match split sep rest with
        | ([], tail) => ([], a :: tail)
        | (line :: lines, tail) => ((a :: line) :: lines, tail)

/-- The byte sequence with the given terminated lines and remainder. -/
def join (sep : α) (lines : List (List α)) (tail : List α) : List α :=
  lines.flatMap (fun line => line ++ [sep]) ++ tail

/-- A line or remainder that does not contain the separator. -/
def Clean (sep : α) (line : List α) : Prop := sep ∉ line

section Join

variable (sep : α)

@[simp] theorem join_nil (tail : List α) : join sep [] tail = tail := rfl

theorem join_cons (line : List α) (lines : List (List α)) (tail : List α) :
    join sep (line :: lines) tail = line ++ sep :: join sep lines tail := by
  simp [join, List.append_assoc]

theorem join_append (left right : List (List α)) (tail : List α) :
    join sep (left ++ right) tail = join sep left (join sep right tail) := by
  simp [join, List.append_assoc]

/-- Bytes written after a file extend its remainder. -/
theorem join_tail_append (lines : List (List α)) (tail more : List α) :
    join sep lines tail ++ more = join sep lines (tail ++ more) := by
  simp [join, List.append_assoc]

/-- Terminating the remainder turns it into the last line. -/
theorem join_terminate (lines : List (List α)) (tail rest : List α) :
    join sep lines (tail ++ sep :: rest) = join sep (lines ++ [tail]) rest := by
  rw [join_append, join_cons, join_nil]

end Join

section Split

variable [DecidableEq α] {sep : α}

theorem split_nil (sep : α) : split sep [] = ([], []) := rfl

theorem split_cons (sep a : α) (rest : List α) : split sep (a :: rest) =
    if a = sep then ([] :: (split sep rest).1, (split sep rest).2)
    else match split sep rest with
      | ([], tail) => ([], a :: tail)
      | (line :: lines, tail) => ((a :: line) :: lines, tail) := rfl

theorem split_clean_append {line : List α} (clean : Clean sep line) (rest : List α) :
    split sep (line ++ sep :: rest) = (line :: (split sep rest).1, (split sep rest).2) := by
  induction line with
  | nil => rw [List.nil_append, split_cons, if_pos rfl]
  | cons a line ih =>
      have different : a ≠ sep := fun same => clean (same ▸ List.mem_cons_self)
      have cleanRest : Clean sep line := fun member => clean (List.mem_cons_of_mem _ member)
      simp only [List.cons_append, split_cons, if_neg different, ih cleanRest]

theorem split_clean {tail : List α} (clean : Clean sep tail) : split sep tail = ([], tail) := by
  induction tail with
  | nil => rfl
  | cons a tail ih =>
      have different : a ≠ sep := fun same => clean (same ▸ List.mem_cons_self)
      have cleanRest : Clean sep tail := fun member => clean (List.mem_cons_of_mem _ member)
      simp only [split_cons, if_neg different, ih cleanRest]

/-- Splitting recovers the lines and remainder a file was joined from. -/
theorem split_join {lines : List (List α)} {tail : List α}
    (cleanLines : ∀ line ∈ lines, Clean sep line) (cleanTail : Clean sep tail) :
    split sep (join sep lines tail) = (lines, tail) := by
  induction lines with
  | nil => simpa using split_clean cleanTail
  | cons line lines ih =>
      rw [join_cons, split_clean_append (cleanLines line List.mem_cons_self),
        ih (fun other member => cleanLines other (List.mem_cons_of_mem _ member))]

/-- Joining the split pieces gives the bytes back. -/
theorem join_split (sep : α) (bytes : List α) :
    join sep (split sep bytes).1 (split sep bytes).2 = bytes := by
  induction bytes with
  | nil => rfl
  | cons a rest ih =>
      by_cases same : a = sep
      · rw [split_cons, if_pos same, join_cons, List.nil_append, ih, same]
      · simp only [split_cons, if_neg same]
        cases pieces : split sep rest with
        | mk lines tail =>
            rw [pieces] at ih
            cases lines with
            | nil => simpa using ih
            | cons line lines =>
                rw [join_cons] at ih
                simp only [join_cons, List.cons_append, ih]

theorem split_pieces_clean (sep : α) (bytes : List α) :
    (∀ line ∈ (split sep bytes).1, Clean sep line) ∧ Clean sep (split sep bytes).2 := by
  induction bytes with
  | nil => simp [split_nil, Clean]
  | cons a rest ih =>
      by_cases same : a = sep
      · simp only [split_cons, if_pos same]
        refine ⟨fun line member => ?_, ih.2⟩
        rcases List.mem_cons.mp member with empty | member
        · subst empty
          simp [Clean]
        · exact ih.1 line member
      · have fresh : sep ≠ a := fun equal => same equal.symm
        simp only [split_cons, if_neg same]
        cases pieces : split sep rest with
        | mk lines tail =>
            rw [pieces] at ih
            cases lines with
            | nil => exact ⟨by simp, by simpa [Clean, fresh] using ih.2⟩
            | cons line lines =>
                refine ⟨fun other member => ?_, ih.2⟩
                rcases List.mem_cons.mp member with first | member
                · subst first
                  have := ih.1 line List.mem_cons_self
                  simpa [Clean, fresh] using this
                · exact ih.1 other (List.mem_cons_of_mem _ member)

/-- Bytes written after a file leave its lines in place. -/
theorem split_append (sep : α) (front back : List α) :
    split sep (front ++ back) =
      ((split sep front).1 ++ (split sep ((split sep front).2 ++ back)).1,
        (split sep ((split sep front).2 ++ back)).2) := by
  have cleanFront := (split_pieces_clean sep front).1
  have rest := split_pieces_clean sep ((split sep front).2 ++ back)
  have whole : front ++ back = join sep
      ((split sep front).1 ++ (split sep ((split sep front).2 ++ back)).1)
      (split sep ((split sep front).2 ++ back)).2 := by
    rw [join_append, join_split, ← join_tail_append, join_split]
  have pieces := @split_join _ _ sep
    ((split sep front).1 ++ (split sep ((split sep front).2 ++ back)).1) _
    (fun line member => (List.mem_append.mp member).elim (cleanFront line) (rest.1 line)) rest.2
  rw [← whole] at pieces
  exact pieces

/-- The lines of the front of a file are the front of its lines. -/
theorem split_prefix (sep : α) (front back : List α) :
    (split sep front).1 <+: (split sep (front ++ back)).1 := by
  rw [split_append]
  exact List.prefix_append _ _

/-- The remainder is empty exactly when the file is empty or ends with the separator. -/
theorem split_tail_eq_nil_iff (sep : α) (bytes : List α) :
    (split sep bytes).2 = [] ↔ bytes = [] ∨ bytes.getLast? = some sep := by
  have whole := join_split sep bytes
  have clean := (split_pieces_clean sep bytes).2
  generalize split sep bytes = pieces at whole clean
  obtain ⟨lines, tail⟩ := pieces
  simp only at whole clean ⊢
  subst whole
  constructor
  · intro empty
    subst empty
    rcases List.eq_nil_or_concat lines with nil | ⟨front, last, concat⟩
    · exact Or.inl (by simp [nil])
    · right
      rw [concat, List.concat_eq_append, join_append, join_cons, join_nil]
      simp [join]
  · rintro (empty | ended)
    · simp [join] at empty
      exact empty.2
    · by_contra nonempty
      have last : (join sep lines tail).getLast? = tail.getLast? := by
        rw [join, List.getLast?_append, Option.or_of_isSome (by simpa using nonempty)]
      rw [last] at ended
      exact clean (List.mem_of_getLast? ended)

/-! ## Encoded text -/

/-- The pieces of a text that is encoded one element after another, when only the separator has the
encoded separator in it. -/
theorem split_flatMap {β : Type*} [DecidableEq β] {sep : α} {mark : β}
    {encode : α → List β} (separator : encode sep = [mark])
    (other : ∀ a, a ≠ sep → Clean mark (encode a)) (text : List α) :
    split mark (text.flatMap encode) =
      ((split sep text).1.map (fun line => line.flatMap encode), (split sep text).2.flatMap encode) := by
  have clean : ∀ line : List α, Clean sep line → Clean mark (line.flatMap encode) := by
    intro line whole inside
    rcases List.mem_flatMap.mp inside with ⟨a, member, here⟩
    exact other a (fun same => whole (same ▸ member)) here
  have joined : ∀ (lines : List (List α)) (tail : List α), (join sep lines tail).flatMap encode =
      join mark (lines.map (fun line => line.flatMap encode)) (tail.flatMap encode) := by
    intro lines tail
    induction lines with
    | nil => rfl
    | cons line lines ih =>
        rw [join_cons, List.map_cons, join_cons, List.flatMap_append, List.flatMap_cons, ih, separator]
        rfl
  have pieces := split_pieces_clean sep text
  conv_lhs => rw [← join_split sep text, joined]
  apply split_join
  · intro line inside
    rcases List.mem_map.mp inside with ⟨piece, member, rfl⟩
    exact clean piece (pieces.1 piece member)
  · exact clean _ pieces.2

end Split

/-! ## Byte spans -/

/-- A byte range of a file: its first offset and its length. -/
abbrev Span := Nat × Nat

/-- Each line with the offset it starts at, the separator counted after it. -/
def offsets (offset : Nat) : List (List α) → List (Nat × List α)
  | [] => []
  | line :: lines => (offset, line) :: offsets (offset + line.length + 1) lines

/-- The bytes of a span, when the file is long enough. -/
def readAt (bytes : List α) (span : Span) : Option (List α) :=
  if span.1 + span.2 ≤ bytes.length then some ((bytes.drop span.1).take span.2) else none

theorem readAt_append (front line rest : List α) :
    readAt (front ++ line ++ rest) (front.length, line.length) = some line := by
  have fits : front.length + line.length ≤ (front ++ line ++ rest).length := by
    simp only [List.length_append]
    omega
  rw [readAt, if_pos fits, List.append_assoc, List.drop_left, List.take_left]

/-- A span that lies in a file still reads the same bytes after more are written. -/
theorem readAt_extend {bytes line : List α} {span : Span} (more : List α)
    (found : readAt bytes span = some line) : readAt (bytes ++ more) span = some line := by
  unfold readAt at found ⊢
  split at found
  · next fits =>
      rw [if_pos (by simp only [List.length_append]; omega)]
      rw [List.drop_append_of_le_length (by omega), List.take_append_of_le_length (by simp; omega)]
      exact found
  · simp at found

/-- The bytes a list of lines takes in a file, separators included. -/
def extent (lines : List (List α)) : Nat := (lines.map (fun line => line.length + 1)).sum

@[simp] theorem extent_nil : extent ([] : List (List α)) = 0 := rfl

@[simp] theorem extent_cons (line : List α) (lines : List (List α)) :
    extent (line :: lines) = line.length + 1 + extent lines := by
  simp [extent]

@[simp] theorem extent_append (left right : List (List α)) :
    extent (left ++ right) = extent left + extent right := by
  simp [extent]

theorem length_join (sep : α) (lines : List (List α)) (tail : List α) :
    (join sep lines tail).length = extent lines + tail.length := by
  induction lines with
  | nil => simp
  | cons line lines ih =>
      rw [join_cons, List.length_append, List.length_cons, ih, extent_cons]
      omega

theorem offsets_append (offset : Nat) (left right : List (List α)) :
    offsets offset (left ++ right) =
      offsets offset left ++ offsets (offset + extent left) right := by
  induction left generalizing offset with
  | nil => simp [offsets]
  | cons line left ih =>
      simp only [List.cons_append, offsets, ih, extent_cons]
      congr 3
      omega

/-- The line that follows some lines of a file starts where they end. -/
theorem readAt_join (sep : α) (front : List (List α)) (line rest : List α) :
    readAt (join sep front (line ++ rest)) (extent front, line.length) = some line := by
  have place := readAt_append (join sep front []) line rest
  rwa [length_join, join_tail_append, join_tail_append, List.nil_append, List.length_nil,
    Nat.add_zero] at place

/-- The bytes at the place of a line are the line. -/
theorem readAt_of_mem_offsets (sep : α) {lines : List (List α)} {offset : Nat} {line : List α}
    (member : (offset, line) ∈ offsets 0 lines) (tail : List α) :
    readAt (join sep lines tail) (offset, line.length) = some line := by
  induction lines using List.reverseRecOn generalizing tail with
  | nil => cases member
  | append_singleton lines last ih =>
      rw [offsets_append, Nat.zero_add] at member
      rw [join_append, join_cons, join_nil]
      rcases List.mem_append.mp member with member | member
      · exact ih member _
      · cases List.mem_singleton.mp member
        exact readAt_join sep lines line (sep :: tail)

/-! ## Keyed indexes -/

section Keyed

variable {κ : Type*} [DecidableEq κ]

/-- A keyed index: the span of the last line with each key, and the keys in
the order of their first line. -/
@[ext]
structure Index (κ : Type*) where
  spans : κ → Option Span
  order : List κ

namespace Index

/-- The index of a file without lines. -/
def empty : Index κ := ⟨fun _ => none, []⟩

/-- Enter one line at its span. -/
def enter (index : Index κ) (key : κ) (span : Span) : Index κ where
  spans := Function.update index.spans key (some span)
  order := if (index.spans key).isSome then index.order else index.order ++ [key]

/-- Read one line: a line without a key is passed over. -/
def read (key : List α → Option κ) (index : Index κ) (entry : Nat × List α) : Index κ :=
  match key entry.2 with
  | none => index
  | some k => index.enter k (entry.1, entry.2.length)

/-- Index every line, in file order. -/
def scan (key : List α → Option κ) (lines : List (List α)) : Index κ :=
  (offsets 0 lines).foldl (read key) empty

@[simp] theorem enter_spans_self (index : Index κ) (k : κ) (span : Span) :
    (index.enter k span).spans k = some span := by
  simp [enter]

theorem enter_spans_of_ne (index : Index κ) {k other : κ} (different : other ≠ k) (span : Span) :
    (index.enter k span).spans other = index.spans other := by
  simp [enter, Function.update_of_ne different]

end Index

/-- The last line with a key. -/
def lastWith (key : List α → Option κ) (k : κ) (lines : List (List α)) : Option (List α) :=
  lines.reverse.find? (fun line => key line = some k)

variable (key : List α → Option κ)

theorem lastWith_concat (k : κ) (lines : List (List α)) (line : List α) :
    lastWith key k (lines ++ [line]) =
      if key line = some k then some line else lastWith key k lines := by
  simp only [lastWith, List.reverse_append, List.reverse_singleton, List.singleton_append,
    List.find?_cons]
  by_cases same : key line = some k <;> simp [same]

theorem lastWith_append (k : κ) (left right : List (List α)) :
    lastWith key k (left ++ right) = (lastWith key k right).or (lastWith key k left) := by
  simp [lastWith, List.find?_append]

theorem lastWith_mem {k : κ} {lines : List (List α)} {line : List α}
    (found : lastWith key k lines = some line) : line ∈ lines := by
  simpa using List.mem_of_find?_eq_some found

theorem key_of_lastWith {k : κ} {lines : List (List α)} {line : List α}
    (found : lastWith key k lines = some line) : key line = some k := by
  simpa using List.find?_some found

theorem lastWith_isSome_iff (k : κ) (lines : List (List α)) :
    (lastWith key k lines).isSome ↔ ∃ line ∈ lines, key line = some k := by
  simp [lastWith, List.find?_isSome]

theorem scan_concat (lines : List (List α)) (line : List α) :
    Index.scan key (lines ++ [line]) =
      (Index.scan key lines).read key (extent lines, line) := by
  rw [Index.scan, offsets_append, List.foldl_append, Nat.zero_add]
  rfl

/-- A line without a key leaves the index as it is. -/
theorem scan_concat_unkeyed {line : List α} (unkeyed : key line = none)
    (lines : List (List α)) : Index.scan key (lines ++ [line]) = Index.scan key lines := by
  rw [scan_concat, Index.read, unkeyed]

/-- A line with a key is entered at the end of the file. -/
theorem scan_concat_keyed {line : List α} {k : κ} (keyed : key line = some k)
    (lines : List (List α)) :
    Index.scan key (lines ++ [line]) =
      (Index.scan key lines).enter k (extent lines, line.length) := by
  rw [scan_concat, Index.read, keyed]

/-- A key has a span exactly when some line carries it. -/
theorem scan_spans_isSome (lines : List (List α)) (k : κ) :
    ((Index.scan key lines).spans k).isSome = (lastWith key k lines).isSome := by
  induction lines using List.reverseRecOn with
  | nil => rfl
  | append_singleton lines line ih =>
      rw [lastWith_concat]
      cases keyed : key line with
      | none => simpa [scan_concat_unkeyed key keyed] using ih
      | some other =>
          rw [scan_concat_keyed key keyed]
          by_cases same : k = other
          · simp [same]
          · have different : ¬ other = k := fun equal => same equal.symm
            simpa [Index.enter_spans_of_ne _ same, different] using ih

/-- A recorded span reads back the last line with its key. -/
theorem scan_spans_read (sep : α) (lines : List (List α)) (tail : List α) {k : κ} {span : Span}
    (found : (Index.scan key lines).spans k = some span) :
    readAt (join sep lines tail) span = lastWith key k lines := by
  induction lines using List.reverseRecOn generalizing tail with
  | nil => cases found
  | append_singleton lines line ih =>
      have whole : join sep (lines ++ [line]) tail = join sep lines (line ++ sep :: tail) := by
        rw [join_append, join_cons, join_nil]
      rw [lastWith_concat, whole]
      cases keyed : key line with
      | none =>
          rw [scan_concat_unkeyed key keyed] at found
          simpa using ih _ found
      | some other =>
          rw [scan_concat_keyed key keyed] at found
          by_cases same : k = other
          · subst same
            rw [Index.enter_spans_self] at found
            cases found
            rw [if_pos rfl]
            exact readAt_join sep lines line _
          · rw [Index.enter_spans_of_ne _ same] at found
            have different : ¬ other = k := fun equal => same equal.symm
            simpa [different] using ih _ found

/-- What a file has at the spans of its scan are the last lines with the keys. -/
theorem scan_spans_map_readAt (sep : α) (lines : List (List α)) (tail : List α) (k : κ) :
    ((Index.scan key lines).spans k).map (readAt (join sep lines tail)) =
      (lastWith key k lines).map some := by
  have same := scan_spans_isSome key lines k
  cases span : (Index.scan key lines).spans k with
  | none =>
      rw [span, Option.isSome_none] at same
      have absent : lastWith key k lines = none := by
        rw [← Option.isNone_iff_eq_none, ← Option.not_isSome, ← same]
        rfl
      rw [absent]
      rfl
  | some place =>
      rw [span, Option.isSome_some] at same
      rcases Option.isSome_iff_exists.mp same.symm with ⟨line, isLast⟩
      rw [Option.map_some, scan_spans_read key sep lines tail span, isLast]
      rfl

/-- A span of a scan is the place of a whole line with the key. -/
theorem scan_spans_place (lines : List (List α)) {k : κ} {span : Span}
    (found : (Index.scan key lines).spans k = some span) :
    ∃ line, (span.1, line) ∈ offsets 0 lines ∧ span.2 = line.length ∧ key line = some k := by
  induction lines using List.reverseRecOn with
  | nil => cases found
  | append_singleton lines line ih =>
      have earlier : (Index.scan key lines).spans k = some span →
          ∃ line', (span.1, line') ∈ offsets 0 (lines ++ [line]) ∧ span.2 = line'.length ∧
            key line' = some k := by
        intro found
        obtain ⟨line', member, size, keyed⟩ := ih found
        exact ⟨line', by rw [offsets_append]; exact List.mem_append_left _ member, size, keyed⟩
      cases keyed : key line with
      | none =>
          rw [scan_concat_unkeyed key keyed] at found
          exact earlier found
      | some other =>
          rw [scan_concat_keyed key keyed] at found
          by_cases same : k = other
          · subst same
            rw [Index.enter_spans_self] at found
            cases found
            refine ⟨line, ?_, rfl, keyed⟩
            rw [offsets_append, Nat.zero_add]
            exact List.mem_append_right _ (List.mem_singleton.mpr rfl)
          · rw [Index.enter_spans_of_ne _ same] at found
            exact earlier found

/-- A line with another key, or with none, leaves the span of a key as it is. -/
theorem scan_concat_spans_of_ne {line : List α} {k : κ} (different : key line ≠ some k)
    (lines : List (List α)) :
    (Index.scan key (lines ++ [line])).spans k = (Index.scan key lines).spans k := by
  cases keyed : key line with
  | none => rw [scan_concat_unkeyed key keyed]
  | some other =>
      rw [scan_concat_keyed key keyed]
      apply Index.enter_spans_of_ne
      intro same
      exact different (by rw [keyed, same])

/-- Two ways to read the keys of lines agree on a key when the last line with it
in the wider way has it in the narrower way. -/
theorem scan_spans_eq_of_last {key' : List α → Option κ} {k : κ}
    (narrower : ∀ line, key' line = some k → key line = some k) {lines : List (List α)}
    (last : ∀ line, lastWith key k lines = some line → key' line = some k) :
    (Index.scan key lines).spans k = (Index.scan key' lines).spans k := by
  induction lines using List.reverseRecOn with
  | nil => rfl
  | append_singleton lines line ih =>
      simp only [lastWith_concat] at last
      by_cases keyed : key line = some k
      · have keyed' := last line (if_pos keyed)
        rw [scan_concat_keyed key keyed, scan_concat_keyed key' keyed', Index.enter_spans_self,
          Index.enter_spans_self]
      · have keyed' : key' line ≠ some k := fun same => keyed (narrower line same)
        rw [scan_concat_spans_of_ne key keyed, scan_concat_spans_of_ne key' keyed']
        apply ih
        intro earlier found
        exact last earlier (by rw [if_neg keyed, found])

/-- The order lists exactly the keys that have a span. -/
theorem mem_scan_order_iff (lines : List (List α)) (k : κ) :
    k ∈ (Index.scan key lines).order ↔ ((Index.scan key lines).spans k).isSome := by
  induction lines using List.reverseRecOn with
  | nil => simp [Index.scan, offsets, Index.empty]
  | append_singleton lines line ih =>
      cases keyed : key line with
      | none => rw [scan_concat_unkeyed key keyed, ih]
      | some other =>
          rw [scan_concat_keyed key keyed]
          by_cases same : k = other
          · subst same
            cases seen : ((Index.scan key lines).spans k).isSome <;>
              simp [Index.enter, ih, seen]
          · rw [Index.enter_spans_of_ne _ same, ← ih, Index.enter]
            split <;> simp [same]

theorem scan_order_nodup (lines : List (List α)) : (Index.scan key lines).order.Nodup := by
  induction lines using List.reverseRecOn with
  | nil => simp [Index.scan, offsets, Index.empty]
  | append_singleton lines line ih =>
      cases keyed : key line with
      | none => rwa [scan_concat_unkeyed key keyed]
      | some other =>
          rw [scan_concat_keyed key keyed, Index.enter]
          split
          · exact ih
          · next fresh =>
              rw [← mem_scan_order_iff] at fresh
              rw [List.nodup_append]
              refine ⟨ih, by simp, ?_⟩
              intro k member k' single same
              rw [List.mem_singleton] at single
              exact fresh (single ▸ same ▸ member)

/-! ## Rewriting lines in place -/

/-- Replace every line with a key. -/
def rewriteWith (k : κ) (replacement : List α) (lines : List (List α)) : List (List α) :=
  lines.map (fun line => if key line = some k then replacement else line)

variable {key}

theorem key_rewrite {k : κ} {replacement : List α} (keyed : key replacement = some k)
    (line : List α) :
    key (if key line = some k then replacement else line) = key line := by
  split
  · next same => rw [keyed, same]
  · rfl

/-- A replacement with the same key keeps the order of first lines. -/
theorem scan_order_rewriteWith {k : κ} {replacement : List α}
    (keyed : key replacement = some k) (lines : List (List α)) :
    (Index.scan key (rewriteWith key k replacement lines)).order =
      (Index.scan key lines).order := by
  induction lines using List.reverseRecOn with
  | nil => rfl
  | append_singleton lines line ih =>
      have rewritten : rewriteWith key k replacement (lines ++ [line]) =
          rewriteWith key k replacement lines ++
            [if key line = some k then replacement else line] := by
        simp [rewriteWith]
      rw [rewritten]
      have sameKey := key_rewrite keyed line
      generalize (if key line = some k then replacement else line) = written at sameKey ⊢
      cases carried : key line with
      | none =>
          rw [scan_concat_unkeyed key carried, scan_concat_unkeyed key (sameKey.trans carried), ih]
      | some other =>
          rw [scan_concat_keyed key carried, scan_concat_keyed key (sameKey.trans carried)]
          have seen : ((Index.scan key (rewriteWith key k replacement lines)).spans other).isSome =
              ((Index.scan key lines).spans other).isSome := by
            rw [Bool.eq_iff_iff, ← mem_scan_order_iff, ← mem_scan_order_iff, ih]
          simp only [Index.enter, seen, ih]

/-- The last line with the rewritten key becomes the replacement; every other
key keeps its last line. -/
theorem lastWith_rewriteWith {k : κ} {replacement : List α}
    (keyed : key replacement = some k) (other : κ) (lines : List (List α)) :
    lastWith key other (rewriteWith key k replacement lines) =
      if other = k then (lastWith key k lines).map (fun _ => replacement)
      else lastWith key other lines := by
  induction lines using List.reverseRecOn with
  | nil => simp [rewriteWith, lastWith]
  | append_singleton lines line ih =>
      have rewritten : rewriteWith key k replacement (lines ++ [line]) =
          rewriteWith key k replacement lines ++
            [if key line = some k then replacement else line] := by
        simp [rewriteWith]
      rw [rewritten, lastWith_concat, key_rewrite keyed, ih, lastWith_concat, lastWith_concat]
      by_cases same : other = k
      · subst same
        by_cases carried : key line = some other <;> simp [carried]
      · by_cases carried : key line = some other
        · simp [same, carried]
        · simp [same, carried]

/-! ## Files of items with distinct keys -/

section Items

variable {ι : Type*} {write : ι → List α} {name : ι → κ} {items : List ι}

theorem lastWith_map (keyed : ∀ item ∈ items, key (write item) = some (name item))
    (distinct : (items.map name).Nodup) (k : κ) :
    lastWith key k (items.map write) = (items.find? (fun item => name item = k)).map write := by
  induction items using List.reverseRecOn with
  | nil => rfl
  | append_singleton items item ih =>
      rw [List.map_append, List.nodup_append] at distinct
      have earlier := ih (fun other member => keyed other (List.mem_append_left _ member)) distinct.1
      rw [List.map_append, List.map_singleton, lastWith_concat, earlier,
        keyed item (by simp), List.find?_append]
      by_cases same : name item = k
      · have unseen : items.find? (fun other => name other = k) = none := by
          rw [List.find?_eq_none]
          intro other member equal
          have equal : name other = k := by simpa using equal
          exact distinct.2.2 (name other) (List.mem_map_of_mem member) (name item) (by simp)
            (equal.trans same.symm)
        simp [same, unseen]
      · simp [same]

theorem scan_order_map (keyed : ∀ item ∈ items, key (write item) = some (name item))
    (distinct : (items.map name).Nodup) :
    (Index.scan key (items.map write)).order = items.map name := by
  induction items using List.reverseRecOn with
  | nil => rfl
  | append_singleton items item ih =>
      rw [List.map_append, List.nodup_append] at distinct
      have earlier := ih (fun other member => keyed other (List.mem_append_left _ member)) distinct.1
      have unseen : ((Index.scan key (items.map write)).spans (name item)).isSome = false := by
        rw [Bool.eq_false_iff, Ne, ← mem_scan_order_iff, earlier]
        intro member
        exact distinct.2.2 (name item) member (name item) (by simp) rfl
      rw [List.map_append, List.map_singleton,
        scan_concat_keyed key (keyed item (by simp)), Index.enter, unseen, earlier]
      simp

theorem rewriteWith_map (keyed : ∀ item ∈ items, key (write item) = some (name item)) (k : κ)
    {revise : ι → ι} {replacement : List α}
    (revised : ∀ item ∈ items, name item = k → write (revise item) = replacement) :
    rewriteWith key k replacement (items.map write) =
      (items.map (fun item => if name item = k then revise item else item)).map write := by
  rw [rewriteWith, List.map_map, List.map_map]
  apply List.map_congr_left
  intro item member
  by_cases same : name item = k
  · simp [keyed item member, same, revised item member same]
  · simp [keyed item member, same]

end Items

end Keyed

end Lines
end CapsuleEmit
