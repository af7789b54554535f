import CapsuleEmit.FlatLedger.Refresh

namespace CapsuleEmit
namespace FlatLedger

open Python (Dict Value)

/-!
# One numbering of the leaves

`read_ledger_entries` reads a flat ledger as a text whose carriage returns are
newlines, the index reads bytes between newlines.  On UTF-8 whose carriage
returns are all at the ends of lines, both take the same lines for entries, so
the number of an entry in the index is its place among the entries that are
read.
-/

/-! ## Lines of an encoded text -/

theorem encode_clean {c : Char} (other : c ≠ '\n') : Lines.Clean 10 (String.utf8EncodeChar c) := by
  rcases Utf8.encode_shape c with ⟨first, rest, shape, -, inner, -⟩
  intro inside
  rw [shape] at inside
  rcases List.mem_cons.mp inside with same | inside
  · apply other
    have starts : String.utf8EncodeChar c ++ [] = String.utf8EncodeChar '\n' ++ rest := by
      rw [List.append_nil, shape, ← same]
      rfl
    exact Utf8.encode_prefix starts
  · exact absurd (inner 10 inside) (by decide)

/-- The bytes of some characters. -/
def encode (line : List Char) : Bytes := line.flatMap String.utf8EncodeChar

theorem split_encode (text : List Char) : Lines.split 10 (encode text) =
    ((Lines.split '\n' text).1.map encode, encode (Lines.split '\n' text).2) :=
  Lines.split_flatMap (show String.utf8EncodeChar '\n' = [10] from rfl) (fun _ => encode_clean) text

theorem utf8_ofList (line : List Char) : utf8 (String.ofList line) = encode line := by
  rw [Utf8.utf8_eq_flatMap, String.toList_ofList]
  rfl

theorem decodeReplace_encode (line : List Char) : decodeReplace (encode line) = line := by
  rw [decodeReplace, ← utf8_ofList, Utf8.fromUtf8Lossy_of_valid (Utf8.valid_utf8 _), utf8?_utf8,
    Option.getD_some, String.toList_ofList]

/-! ## Carriage returns at the ends of lines -/

theorem strip_dropReturn (line : List Char) : strip (Python.dropReturn line) = strip line := by
  rcases Python.dropReturn_cases line with same | same
  · rw [same]
  · conv_rhs => rw [same]
    have space : ∀ front : List Char, strip (front ++ ['\r']) = strip front := by
      intro front
      have stripped : ∀ l : List Char,
          (l ++ ['\r']).reverse.dropWhile (fun c => Produce.isWhiteSpace c || Produce.isSeparator c) =
            l.reverse.dropWhile (fun c => Produce.isWhiteSpace c || Produce.isSeparator c) := by
        intro l
        rw [List.reverse_append]
        exact List.dropWhile_cons_of_pos (by decide)
      rw [strip, strip, List.dropWhile_append]
      split
      · next empty =>
          rw [List.isEmpty_iff.mp empty]
          rfl
      · rw [stripped]
    exact (space _).symm

/-- No carriage return but at the end. -/
def Returned (line : List Char) : Prop := '\r' ∉ Python.dropReturn line

theorem translateFrom_clean {front : List Char} (clean : '\r' ∉ front) (rest : List Char) :
    Python.translateFrom false (front ++ rest) = front ++ Python.translateFrom false rest := by
  induction front with
  | nil => rfl
  | cons c front ih =>
      rw [List.mem_cons, not_or] at clean
      have other : c ≠ '\r' := Ne.symm clean.1
      rw [List.cons_append, Python.translateFrom, Bool.false_and, if_neg Bool.false_ne_true,
        if_neg other, decide_eq_false other, ih clean.2, List.cons_append]

/-- A line that ends with a newline is one, with a carriage return before it or not. -/
theorem translate_line {line : List Char} (returned : Returned line) (rest : List Char) :
    Python.translateNewlines (line ++ '\n' :: rest) =
      Python.dropReturn line ++ '\n' :: Python.translateNewlines rest := by
  rcases Python.dropReturn_cases line with same | same
  · rw [Returned, same] at returned
    rw [same, Python.translateNewlines, translateFrom_clean returned]
    rfl
  · conv_lhs => rw [same]
    rw [List.append_assoc, Python.translateNewlines, translateFrom_clean returned]
    rfl

theorem translate_last {line : List Char} (returned : Returned line) :
    Python.translateNewlines line = Python.dropReturn line ∨
      Python.translateNewlines line = Python.dropReturn line ++ ['\n'] := by
  have whole : Python.translateNewlines (Python.dropReturn line) = Python.dropReturn line := by
    have clean := translateFrom_clean returned []
    rw [List.append_nil] at clean
    exact clean.trans (List.append_nil _)
  rcases Python.dropReturn_cases line with same | same
  · left
    rw [same] at whole ⊢
    exact whole
  · right
    conv_lhs => rw [same]
    rw [Python.translateNewlines, translateFrom_clean returned]
    rfl

section

variable {Time : Type} {packages : Packages Time}

/-! ## The reader of the whole text -/

theorem readLines_cons (raw : List Char) (rest : List (List Char)) :
    readLines packages (raw :: rest) =
      if strip raw = [] then readLines packages rest
      else
        match packages.loads (String.ofList (strip raw)) with
        | .error .decode => readLines packages rest
        | .error (.raised why) => .error (.raised why)
        | .ok value => (readLines packages rest).map (value :: ·) := rfl

/-- What is read of a line is what is read of its text without the spaces around it. -/
theorem readLines_congr {left right : List Char} (same : strip left = strip right)
    {restLeft restRight : List (List Char)}
    (rest : readLines packages restLeft = readLines packages restRight) :
    readLines packages (left :: restLeft) = readLines packages (right :: restRight) := by
  rw [readLines_cons, readLines_cons, same, rest]

/-- The lines between newlines, and the last one. -/
def rawLines (text : List Char) : List (List Char) :=
  (Lines.split '\n' text).1 ++ [(Lines.split '\n' text).2]

theorem dropReturn_clean {line : List Char} (clean : Lines.Clean '\n' line) :
    Lines.Clean '\n' (Python.dropReturn line) := by
  rcases Python.dropReturn_cases line with same | same
  · rw [same]
    exact clean
  · intro inside
    apply clean
    rw [same]
    exact List.mem_append_left _ inside

/-- The text has the same entries as the lines between its newlines. -/
theorem readLines_textLines {text : List Char} (returned : ∀ line ∈ rawLines text, Returned line) :
    readLines packages (textLines text) = readLines packages (rawLines text) := by
  have clean := Lines.split_pieces_clean '\n' text
  have joined := Lines.join_split '\n' text
  rw [rawLines] at returned ⊢
  generalize (Lines.split '\n' text).1 = lines at clean joined returned ⊢
  generalize (Lines.split '\n' text).2 = tail at clean joined returned ⊢
  rw [← joined]
  clear joined
  induction lines with
  | nil =>
      rw [Lines.join_nil, List.nil_append]
      rw [List.nil_append, List.forall_mem_singleton] at returned
      have whole := dropReturn_clean clean.2
      rcases translate_last returned with same | same
      · rw [textLines, same, Lines.split_clean whole]
        exact readLines_congr (strip_dropReturn tail) rfl
      · rw [textLines, same, Lines.split_clean_append whole]
        exact readLines_congr (strip_dropReturn tail) rfl
  | cons line lines ih =>
      rw [List.cons_append, List.forall_mem_cons] at returned
      have cleanLine := clean.1 line List.mem_cons_self
      have later := ih ⟨fun other member => clean.1 other (List.mem_cons_of_mem _ member), clean.2⟩
        returned.2
      rw [Lines.join_cons, textLines, translate_line returned.1,
        Lines.split_clean_append (dropReturn_clean cleanLine), List.cons_append, List.cons_append]
      exact readLines_congr (strip_dropReturn line) later

/-! ## Entries and their numbers -/

/-- An entry of the index is of an entry that is read. -/
def Holds (value : Value) (line : Line Time) : Prop :=
  ∃ obj, value = .dict obj ∧ line.entry.value = valueOf obj ∧ line.capsule = isRecord obj

/-- What parsing a line makes of the lines that are read. -/
theorem readLines_of_parse {line : List Char} {offset seq : Nat} {previous : Time}
    {found : Option (Line Time)}
    (parsed : parse packages (encode line) offset seq previous = .ok found)
    (rest : List (List Char)) {values : List Value}
    (later : readLines packages rest = .ok values) :
    (found = none ∧ readLines packages (line :: rest) = .ok values) ∨
      ∃ value entry, found = some entry ∧ entry.entry.seq = seq ∧ Holds value entry ∧
        readLines packages (line :: rest) = .ok (value :: values) := by
  rw [parse, decodeReplace_encode] at parsed
  rw [readLines_cons]
  by_cases blank : strip line = []
  · rw [if_pos blank] at parsed ⊢
    cases parsed
    exact Or.inl ⟨rfl, later⟩
  · rw [if_neg blank] at parsed ⊢
    cases loaded : packages.loads (String.ofList (strip line)) with
    | error stop =>
        rw [loaded] at parsed
        cases stop with
        | decode =>
            cases parsed
            exact Or.inl ⟨rfl, later⟩
        | raised why => cases parsed
    | ok value =>
        rw [loaded] at parsed
        cases value with
        | dict obj =>
            dsimp only at parsed
            split at parsed
            · cases parsed
              right
              exact ⟨.dict obj, _, rfl, rfl, ⟨obj, rfl, rfl, rfl⟩, by rw [later]; rfl⟩
            · cases parsed
        | _ => cases parsed

/-- The lines of a scan are those of the entries that are read, and are numbered on. -/
theorem readLines_of_scan {lines : List (List Char)} {scan final : Scan Time}
    (scanned : (lines.map encode).foldlM (scanLine packages) scan = .ok final)
    (rest : List (List Char)) {values : List Value}
    (later : readLines packages rest = .ok values) :
    ∃ front new, readLines packages (lines ++ rest) = .ok (front ++ values) ∧
      final.parsed = scan.parsed ++ new ∧ List.Forall₂ Holds front new ∧
      new.map (fun line => line.entry.seq) = List.range' scan.seq new.length ∧
      final.seq = scan.seq + new.length := by
  induction lines generalizing scan with
  | nil =>
      cases scanned
      exact ⟨[], [], later, (List.append_nil _).symm, List.Forall₂.nil, rfl, rfl⟩
  | cons line lines ih =>
      rw [List.map_cons, List.foldlM_cons] at scanned
      rcases bind_eq_ok_iff.mp scanned with ⟨next, first, onward⟩
      rcases ih onward with ⟨front, new, read, parsed, holds, numbered, seq⟩
      rw [scanLine] at first
      cases found : parse packages (encode line) scan.offset scan.seq scan.previous with
      | error error =>
          rw [found] at first
          cases first
      | ok entry =>
          rw [found] at first
          rcases readLines_of_parse found (lines ++ rest) read with
            ⟨rfl, same⟩ | ⟨value, entry, rfl, number, held, same⟩
          · cases first
            exact ⟨front, new, same, parsed, holds, numbered, seq⟩
          · cases first
            refine ⟨value :: front, entry :: new, same, ?_, List.Forall₂.cons held holds, ?_, ?_⟩
            · rw [parsed, List.append_assoc]
              rfl
            · rw [List.map_cons, List.length_cons, List.range'_succ, number, numbered]
            · rw [seq, List.length_cons]
              dsimp only
              omega

/-- The entries of an index are numbered in order, and on UTF-8 with carriage returns only at the
ends of lines they are those that `read_ledger_entries` reads. -/
theorem leaves_of_indexOf {f : File} {index : Handle Time} {text : String}
    (read : indexOf packages (some f) = .ok index) (decoded : utf8? f.bytes = some text)
    (returned : ∀ line ∈ rawLines text.toList, Returned line) :
    ∃ values, readLedgerEntries packages (some f) = .ok values ∧
      List.Forall₂ Holds values index.all ∧
      index.all.map (fun line => line.entry.seq) = List.range' 1 values.length := by
  have bytes : bytesOf (some f) = encode text.toList := by
    rw [encode, ← Utf8.utf8_eq_flatMap, Utf8.utf8_of_utf8? decoded]
    rfl
  rw [indexOf] at read
  simp only [bytes, split_encode] at read
  rcases bind_eq_ok_iff.mp read with ⟨scan, scanned, read⟩
  rcases bind_eq_ok_iff.mp read with ⟨tail, last, same⟩
  cases same
  have ending : ∃ values, readLines packages [(Lines.split '\n' text.toList).2] = .ok values ∧
      List.Forall₂ Holds values tail.toList ∧
      tail.toList.map (fun line => line.entry.seq) = List.range' scan.seq values.length := by
    rw [readTail] at last
    split at last
    · next empty =>
        cases last
        have none : (Lines.split '\n' text.toList).2 = [] := by
          have decodedBack := decodeReplace_encode (Lines.split '\n' text.toList).2
          rw [empty] at decodedBack
          exact decodedBack.symm
        rw [none]
        exact ⟨[], rfl, List.Forall₂.nil, rfl⟩
    · rcases readLines_of_parse last [] rfl with ⟨rfl, same⟩ | ⟨value, entry, rfl, number, held, same⟩
      · exact ⟨[], same, List.Forall₂.nil, rfl⟩
      · refine ⟨[value], same, List.Forall₂.cons held List.Forall₂.nil, ?_⟩
        rw [← number]
        rfl
  rcases ending with ⟨values, lastRead, lastHolds, lastNumber⟩
  rcases readLines_of_scan scanned _ lastRead with ⟨front, new, whole, parsed, holds, numbered, seq⟩
  have parsedNew : scan.parsed = new := parsed
  refine ⟨front ++ values, ?_, ?_, ?_⟩
  · rw [readLedgerEntries, decoded]
    exact (readLines_textLines returned).trans whole
  · rw [Handle.all, parsedNew]
    exact List.rel_append holds lastHolds
  · rw [Handle.all, List.map_append, lastNumber, parsedNew, numbered, List.length_append,
      holds.length_eq, seq]
    exact List.range'_append_1

end

end FlatLedger
end CapsuleEmit
