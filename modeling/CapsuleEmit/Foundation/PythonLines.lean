import CapsuleEmit.Foundation.Lines

namespace CapsuleEmit
namespace Python

/-!
# Lines of text in Python

A text file is read with its carriage returns as newlines.  `str.splitlines`
then splits at every character Unicode has for the end of a line, of which the
newline is one.  Where a text has no other, its lines are the pieces between
newlines.
-/

/-- The rest of a text read with `newline=None`, after a CR or not. -/
def translateFrom : Bool → List Char → List Char
  | _, [] => []
  | returned, c :: rest =>
      if returned && c = '\n' then translateFrom false rest
      else (if c = '\r' then '\n' else c) :: translateFrom (c = '\r') rest

/-- A text read with `newline=None`: CR LF and CR are newlines. -/
def translateNewlines (text : List Char) : List Char := translateFrom false text

/-- A character `str.splitlines` splits at. -/
def isLineBreak (c : Char) : Bool :=
  c = '\n' || c = '\r' || c = '\x0b' || c = '\x0c' || c = '\x1c' || c = '\x1d' || c = '\x1e' ||
    c = '\u0085' || c = '\u2028' || c = '\u2029'

/-- One more character in front of the first line. -/
def consFirst (c : Char) : List (List Char) → List (List Char)
  | [] => [[c]]
  | line :: lines => (c :: line) :: lines

def splitFrom : Bool → List Char → List (List Char)
  | _, [] => []
  | returned, c :: rest =>
      if returned && c = '\n' then splitFrom false rest
      else if isLineBreak c then [] :: splitFrom (c = '\r') rest
      else consFirst c (splitFrom false rest)

/-- `str.splitlines()` -/
def splitlines (text : List Char) : List (List Char) := splitFrom false text

/-- A line that `str.splitlines` leaves whole. -/
def Unbroken (line : List Char) : Prop := ∀ c ∈ line, isLineBreak c = false

theorem translateNewlines_eq_self {text : List Char} (clean : '\r' ∉ text) :
    translateNewlines text = text := by
  rw [translateNewlines]
  induction text with
  | nil => rfl
  | cons c rest ih =>
      rw [List.mem_cons, not_or] at clean
      have other : ¬ c = '\r' := fun same => clean.1 same.symm
      rw [translateFrom, Bool.false_and, if_neg Bool.false_ne_true, if_neg other,
        decide_eq_false other, ih clean.2]

theorem splitlines_cons {c : Char} (plain : isLineBreak c = false) (rest : List Char) :
    splitlines (c :: rest) = consFirst c (splitlines rest) := by
  rw [splitlines, splitFrom, Bool.false_and, if_neg Bool.false_ne_true, plain,
    if_neg Bool.false_ne_true, splitlines]

/-- Before the end of a line, which is no CR, a whole line is a line. -/
theorem splitlines_append {line : List Char} (whole : Unbroken line) {c : Char}
    (ends : isLineBreak c = true) (single : c ≠ '\r') (rest : List Char) :
    splitlines (line ++ c :: rest) = line :: splitlines rest := by
  induction line with
  | nil =>
      rw [List.nil_append, splitlines, splitFrom, Bool.false_and, if_neg Bool.false_ne_true,
        if_pos ends, decide_eq_false single, splitlines]
  | cons other line ih =>
      rw [Unbroken, List.forall_mem_cons] at whole
      rw [List.cons_append, splitlines_cons whole.1, ih whole.2, consFirst]

theorem splitlines_join {lines : List (List Char)} (whole : ∀ line ∈ lines, Unbroken line)
    (tail : List Char) :
    splitlines (Lines.join '\n' lines tail) = lines ++ splitlines tail := by
  induction lines with
  | nil => rfl
  | cons line lines ih =>
      rw [List.forall_mem_cons] at whole
      rw [Lines.join_cons, splitlines_append whole.1 (by decide) (by decide), ih whole.2]
      rfl

/-- The first line of a text starts with its first character. -/
theorem splitlines_head {c : Char} (plain : isLineBreak c = false) (rest : List Char) :
    ∃ line lines, splitlines (c :: rest) = (c :: line) :: lines := by
  rw [splitlines_cons plain]
  cases splitlines rest with
  | nil => exact ⟨[], [], rfl⟩
  | cons line lines => exact ⟨line, lines, rfl⟩

/-! ## Lines that end with a newline -/

/-- A line without the carriage return at its end. -/
def dropReturn (line : List Char) : List Char :=
  if line.getLast? = some '\r' then line.dropLast else line

/-- The lines of a text that end with a newline, LF or CR LF, and the last line. -/
def terminatedLines (text : List Char) : List (List Char) :=
  ((Lines.split '\n' text).1 ++ [(Lines.split '\n' text).2]).map dropReturn

/-- Before CR LF a whole line is a line. -/
theorem splitlines_append_return {line : List Char} (whole : Unbroken line) (rest : List Char) :
    splitlines (line ++ '\r' :: '\n' :: rest) = line :: splitlines rest := by
  induction line with
  | nil => rfl
  | cons c line ih =>
      rw [Unbroken, List.forall_mem_cons] at whole
      rw [List.cons_append, splitlines_cons whole.1, ih whole.2, consFirst]

theorem dropReturn_cases (line : List Char) :
    dropReturn line = line ∨ line = dropReturn line ++ ['\r'] := by
  unfold dropReturn
  split
  · next returned =>
      right
      rcases List.eq_nil_or_concat line with rfl | ⟨front, last, rfl⟩
      · cases returned
      · rw [List.concat_eq_append, List.getLast?_concat, Option.some_inj] at returned
        rw [List.concat_eq_append, List.dropLast_concat, returned]
  · exact Or.inl rfl

/-- A line is split off at its newline when nothing else breaks it. -/
theorem splitlines_line {line : List Char} (whole : Unbroken (dropReturn line))
    (rest : List Char) :
    splitlines (line ++ '\n' :: rest) = dropReturn line :: splitlines rest := by
  rcases dropReturn_cases line with same | same
  · rw [same] at whole ⊢
    exact splitlines_append whole (by decide) (by decide) rest
  · calc
      splitlines (line ++ '\n' :: rest) =
          splitlines (dropReturn line ++ '\r' :: '\n' :: rest) := by
        conv_lhs => rw [same]
        rw [List.append_assoc]
        rfl
      _ = dropReturn line :: splitlines rest := splitlines_append_return whole rest

/-- The last line is split off unless it is empty. -/
theorem splitlines_last {line : List Char} (whole : Unbroken (dropReturn line)) :
    splitlines line = if line = [] then [] else [dropReturn line] := by
  have plain : ∀ front : List Char, Unbroken front → front ≠ [] → splitlines front = [front] := by
    intro front
    induction front with
    | nil => exact fun _ some => absurd rfl some
    | cons c front ih =>
        intro whole _
        rw [Unbroken, List.forall_mem_cons] at whole
        rw [splitlines_cons whole.1]
        cases front with
        | nil => rfl
        | cons d front => rw [ih whole.2 (List.cons_ne_nil _ _), consFirst]
  have returned : ∀ front : List Char, Unbroken front → splitlines (front ++ ['\r']) = [front] := by
    intro front
    induction front with
    | nil => exact fun _ => rfl
    | cons c front ih =>
        intro whole
        rw [Unbroken, List.forall_mem_cons] at whole
        rw [List.cons_append, splitlines_cons whole.1, ih whole.2, consFirst]
  split
  · next empty => rw [empty]; rfl
  · next some =>
      rcases dropReturn_cases line with same | same
      · rw [same] at whole ⊢
        exact plain line whole some
      · conv_lhs => rw [same]
        exact returned (dropReturn line) whole

/-- The lines that pass a test no empty line passes are those that end with a newline, and the
last one, when nothing else breaks a line. -/
theorem filter_splitlines {p : List Char → Bool} (empty : p [] = false) {text : List Char}
    (whole : ∀ line ∈ terminatedLines text, Unbroken line) :
    (splitlines text).filter p = (terminatedLines text).filter p := by
  have joined := Lines.join_split '\n' text
  have lines : ∀ (lines : List (List Char)) (tail : List Char),
      (∀ line ∈ (lines ++ [tail]).map dropReturn, Unbroken line) →
      (splitlines (Lines.join '\n' lines tail)).filter p =
        ((lines ++ [tail]).map dropReturn).filter p := by
    intro lines tail
    induction lines with
    | nil =>
        intro whole
        rw [Lines.join_nil, splitlines_last (whole _ (List.mem_singleton_self _))]
        split
        · next none =>
            rw [none]
            change [] = List.filter p [[]]
            rw [List.filter_cons_of_neg (by simp [empty]), List.filter_nil]
        · rfl
    | cons line lines ih =>
        intro whole
        rw [List.cons_append, List.map_cons, List.forall_mem_cons] at whole
        rw [Lines.join_cons, splitlines_line whole.1, List.cons_append, List.map_cons,
          List.filter_cons, List.filter_cons, ih whole.2]
  have same := lines _ _ whole
  rwa [joined] at same

end Python
end CapsuleEmit
