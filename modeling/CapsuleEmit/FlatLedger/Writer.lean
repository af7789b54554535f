import CapsuleEmit.ArtifactStore.Record
import CapsuleEmit.FlatLedger.Leaves

namespace CapsuleEmit
namespace FlatLedger

open Python (Dict Value)

/-!
# Writing lines

A write reads on first and looks for the id of its line.  Only when there is
none does it write, behind a newline where the last line has lost its own.  So
a file only grows, by one entry at most, and the entries before it stay what
and where they were.  A write that stops leaves a front of its line, which is
no entry unless only the newline is missing.
-/

/-! ## The writer -/

/-- What a write fails with. -/
inductive WriteError where
  | invalid (why : String)
  | raised (why : String)
  | ledger (error : LedgerError)
  | conflict
  | refused (why : String)
  | missing
  | io

/-- `AppendResult`: the entry, and whether this call wrote it. -/
structure AppendResult (Time : Type) where
  entry : Entry Time
  inserted : Bool

/-- `raw.strip()` of bytes -/
def stripBytes (raw : Bytes) : Bytes :=
  let space := fun b : UInt8 => (9 ≤ b && b ≤ 13) || b = 32
  ((raw.dropWhile space).reverse.dropWhile space).reverse

/-- The newline that is missing behind a file. -/
def missingNewline (bytes : Bytes) : Bytes :=
  if bytes = [] ∨ bytes.getLast? = some 10 then [] else [10]

/-- `_write_line`: what is written behind the bytes of a file. -/
def payload (bytes : Bytes) (text : String) : Bytes :=
  missingNewline bytes ++ (utf8 text ++ [10])

section

variable {Time : Type} (packages : Packages Time)

/-- `_read_raw` -/
def readRaw (file : Option File) (line : Line Time) : Bytes :=
  stripBytes (((bytesOf file).drop line.offset).take line.length)

/-- The part of a write that comes behind its refresh.  Of what is written, `written` bytes get into
the file, or all of them. -/
def writeBehind (stopped : Bool) (file : Option File) (handle : Handle Time) (line : Dict)
    (text : String) (requireRecord : Bool) (written : Option Nat) :
    Except WriteError (AppendResult Time) × Option File × Handle Time :=
  match handle.find (valueOf line) with
  | some existing =>
      if (requireRecord && !existing.capsule) || readRaw file existing ≠ utf8 text then
        (.error .conflict, file, handle)
      else (.ok ⟨existing.entry, false⟩, file, handle)
  | none =>
      match file with
      | none => (.error (.refused "no longer creates flat ledgers"), file, handle)
      | some f =>
          if stopped && isRecord line then
            (.error (.refused "the flat ledger is retired for writing"), file, handle)
          else
            match written with
            | some n =>
                (.error .io, some (f.extended ((payload f.bytes text).take n)), handle)
            | none =>
                let file' := some (f.extended (payload f.bytes text))
                match handle.refresh packages file' with
                | (.error error, handle) => (.error (.ledger error), file', handle)
                | (.ok (), handle) =>
                    match handle.find (valueOf line) with
                    | none => (.error .missing, file', handle)
                    | some new => (.ok ⟨new.entry, true⟩, file', handle)

/-- `_write` -/
def write (stopped : Bool) (file : Option File) (handle : Handle Time) (line : Dict)
    (requireRecord : Bool) (written : Option Nat) :
    Except WriteError (AppendResult Time) × Option File × Handle Time :=
  match line.get? "capsule_id" with
  | some (.str id) =>
      if ArtifactStore.validId id = false ∨ (requireRecord && !isRecord line) then
        (.error (.invalid "capsule id"), file, handle)
      else
        match packages.dumps line with
        | .error why => (.error (.raised why), file, handle)
        | .ok text =>
            match handle.refresh packages file with
            | (.error error, handle) => (.error (.ledger error), file, handle)
            | (.ok (), handle) =>
                writeBehind packages stopped file handle line text requireRecord written
  | _ => (.error (.invalid "capsule id"), file, handle)

/-- What is relied on of `json.dumps` with ASCII escapes and `json.loads`: the text of an object is
printable ASCII between braces, is read back as the object, and no part in front of it is JSON. -/
structure Packages.Lawful : Prop where
  printable : ∀ {obj text}, packages.dumps obj = .ok text →
    ∀ c ∈ text.toList, 0x20 ≤ c.toNat ∧ c.toNat < 0x7F
  braces : ∀ {obj text}, packages.dumps obj = .ok text →
    text.toList.head? = some '{' ∧ text.toList.getLast? = some '}'
  loads_dumps : ∀ {obj text}, packages.dumps obj = .ok text → packages.loads text = .ok (.dict obj)
  loads_front : ∀ {obj text}, packages.dumps obj = .ok text → ∀ front, front <+: text.toList →
    front ≠ text.toList → packages.loads (String.ofList (strip front)) = .error .decode

end

section

variable {Time : Type} {packages : Packages Time}

/-! ## What is found -/

theorem firsts_concat (lines : List (Line Time)) (line : Line Time) :
    firsts (lines ++ [line]) = OrderedMap.keep line.entry.value lines.length (firsts lines) := by
  have whole := foldl_indexLine lines [line]
  exact (congrArg Prod.snd whole).symm

theorem placeOf_concat (first : List (Bytes × Nat)) (entry : Bytes × Nat) (value : Bytes) :
    placeOf (first ++ [entry]) value =
      (placeOf first value).or (if entry.1 = value then some entry.2 else none) := by
  rw [placeOf, placeOf, List.find?_append]
  cases first.find? (fun entry => entry.1 = value) with
  | some found => rfl
  | none => by_cases same : entry.1 = value <;> simp [same]

theorem mem_keys_iff {first : List (Bytes × Nat)} {value : Bytes} :
    value ∈ first.map Prod.fst ↔ (placeOf first value).isSome := by
  rw [placeOf, Option.isSome_map, List.find?_isSome]
  simp

/-- The place of a value is that of the first line with it. -/
theorem placeOf_firsts (lines : List (Line Time)) (value : Bytes) :
    placeOf (firsts lines) value = lines.findIdx? (fun line => line.entry.value = value) := by
  induction lines using List.reverseRecOn with
  | nil => rfl
  | append_singleton lines line ih =>
      rw [firsts_concat, OrderedMap.keep, List.findIdx?_append, ← ih]
      by_cases same : line.entry.value = value
      · have here : [line].findIdx? (fun line => line.entry.value = value) = some 0 := by
          simp [same]
        rw [here, same]
        split
        · next held =>
            rcases Option.isSome_iff_exists.mp (mem_keys_iff.mp held) with ⟨index, known⟩
            rw [known, Option.some_or]
        · rw [placeOf_concat, if_pos rfl, Option.map_some, Nat.zero_add]
      · have later : [line].findIdx? (fun line => line.entry.value = value) = none := by
          simp [same]
        rw [later, Option.map_none, Option.or_none]
        split
        · rfl
        · rw [placeOf_concat, if_neg same, Option.or_none]

/-- An index finds the first of its entries with a value. -/
theorem find_eq {handle : Handle Time} (first : handle.first = firsts handle.lines) (value : Bytes) :
    handle.find value = handle.all.find? (fun line => line.entry.value = value) := by
  rw [Handle.find, first, placeOf_firsts, Handle.all, List.find?_append]
  cases place : handle.lines.findIdx? (fun line => line.entry.value = value) with
  | some index =>
      have found := List.findIdx?_eq_some_iff_getElem.mp place
      rcases found with ⟨within, here, before⟩
      have line : handle.lines.find? (fun line => line.entry.value = value) =
          some handle.lines[index] :=
        List.find?_eq_some_iff_getElem.mpr ⟨here, index, within, rfl, by simpa using before⟩
      rw [line]
      exact List.getElem?_eq_getElem within
  | none =>
      have absent : handle.lines.find? (fun line => line.entry.value = value) = none :=
        List.find?_eq_none.mpr (by simpa using List.findIdx?_eq_none_iff.mp place)
      rw [absent, Option.none_or]
      cases handle.tail with
      | none => rfl
      | some tail => by_cases same : tail.entry.value = value <;> simp [same, Option.filter]

/-! ## What is behind a file -/

/-- A file that ends with a newline, and the scan of its lines. -/
structure Ended (packages : Packages Time) (f : File) (scan : Scan Time) : Prop where
  ends : (Lines.split 10 f.bytes).2 = []
  scanned : (Lines.split 10 f.bytes).1.foldlM (scanLine packages) (Scan.start packages) = .ok scan

theorem extended_extended (f : File) (first second : Bytes) :
    (f.extended first).extended second = f.extended (first ++ second) := by
  rw [File.extended, File.extended, File.extended, List.append_assoc]

theorem bytesOf_some (f : File) : bytesOf (some f) = f.bytes := rfl

/-- With its newline a last line is the entry that it was without. -/
theorem ended_of_index {f : File} {index : Handle Time}
    (read : indexOf packages (some f) = .ok index) :
    ∃ scan, Ended packages (f.extended (missingNewline f.bytes)) scan ∧ scan.parsed = index.all := by
  rw [indexOf, bytesOf_some] at read
  rcases bind_eq_ok_iff.mp read with ⟨scan, scanned, read⟩
  rcases bind_eq_ok_iff.mp read with ⟨tail, last, same⟩
  cases same
  rw [missingNewline]
  rw [readTail] at last
  have clean := (Lines.split_pieces_clean 10 f.bytes).2
  by_cases none : (Lines.split 10 f.bytes).2 = []
  · rw [if_pos ((Lines.split_tail_eq_nil_iff 10 f.bytes).mp none), File.extended, List.append_nil]
    rw [if_pos none] at last
    cases last
    exact ⟨scan, ⟨none, scanned⟩, (List.append_nil _).symm⟩
  · rw [if_neg (fun ended => none ((Lines.split_tail_eq_nil_iff 10 f.bytes).mpr ended))]
    rw [if_neg none] at last
    have pieces : Lines.split 10 (f.bytes ++ [10]) =
        ((Lines.split 10 f.bytes).1 ++ [(Lines.split 10 f.bytes).2], []) := by
      rw [Lines.split_append, Lines.split_clean_append clean]
      rfl
    have line : (Lines.split 10 (f.extended [10]).bytes).1.foldlM (scanLine packages)
        (Scan.start packages) = scanLine packages scan (Lines.split 10 f.bytes).2 := by
      rw [File.extended, pieces, List.foldlM_append]
      rw [show (Lines.split 10 f.bytes).1.foldlM (scanLine packages) (Scan.start packages) = .ok scan
        from scanned, ok_bind, List.foldlM_cons]
      cases scanLine packages scan (Lines.split 10 f.bytes).2 <;> rfl
    rw [scanLine, last] at line
    refine ⟨_, ⟨?_, line⟩, ?_⟩
    · rw [File.extended, pieces]
    · cases tail with
      | none => exact (List.append_nil _).symm
      | some tail => rfl

/-- Behind a file that ends with a newline, a part of a line is its last line. -/
theorem indexOf_part {f : File} {scan : Scan Time} (ended : Ended packages f scan) {part : Bytes}
    (clean : Lines.Clean 10 part) {tail : Option (Line Time)}
    (last : readTail packages part scan = .ok tail) :
    ∃ index, indexOf packages (some (f.extended part)) = .ok index ∧
      index.all = scan.parsed ++ tail.toList := by
  have pieces : Lines.split 10 (f.bytes ++ part) = ((Lines.split 10 f.bytes).1, part) := by
    rw [Lines.split_append, ended.ends, List.nil_append, Lines.split_clean clean, List.append_nil]
  refine ⟨⟨scan.parsed, firsts scan.parsed, scan.offset, tail, some f.identity⟩, ?_, rfl⟩
  rw [indexOf]
  simp only [bytesOf, File.extended, Option.map_some, Option.getD_some, pieces]
  rw [ended.scanned, ok_bind, last, ok_bind]
  rfl

/-- Behind a file that ends with a newline, a line is its last line. -/
theorem ended_line {f : File} {scan : Scan Time} (ended : Ended packages f scan) {line : Bytes}
    (clean : Lines.Clean 10 line) {found : Option (Line Time)}
    (parsed : parse packages line scan.offset scan.seq scan.previous = .ok found) :
    ∃ next, Ended packages (f.extended (line ++ [10])) next ∧
      next.parsed = scan.parsed ++ found.toList := by
  have pieces : Lines.split 10 (f.bytes ++ (line ++ [10])) =
      ((Lines.split 10 f.bytes).1 ++ [line], []) := by
    rw [Lines.split_append, ended.ends, List.nil_append, Lines.split_clean_append clean]
    rfl
  have scanned : (Lines.split 10 (f.extended (line ++ [10])).bytes).1.foldlM (scanLine packages)
      (Scan.start packages) = scanLine packages scan line := by
    rw [File.extended, pieces, List.foldlM_append, ended.scanned, ok_bind, List.foldlM_cons]
    cases scanLine packages scan line <;> rfl
  rw [scanLine, parsed] at scanned
  refine ⟨_, ⟨?_, scanned⟩, ?_⟩
  · rw [File.extended, pieces]
  · cases found with
    | none => exact (List.append_nil _).symm
    | some found => rfl

theorem indexOf_ended {f : File} {scan : Scan Time} (ended : Ended packages f scan) :
    ∃ index, indexOf packages (some f) = .ok index ∧ index.all = scan.parsed := by
  rcases indexOf_part ended List.not_mem_nil (show readTail packages [] scan = .ok none from rfl) with
    ⟨index, read, all⟩
  rw [File.extended, List.append_nil] at read
  exact ⟨index, read, all.trans (List.append_nil _)⟩

theorem Ended.settled {f : File} {scan : Scan Time} (ended : Ended packages f scan) :
    scan.Settled packages ∧ scan.offset = f.bytes.length := by
  rcases settled_foldlM settled_start ended.scanned with ⟨settled, offset⟩
  refine ⟨settled, ?_⟩
  conv_rhs => rw [← Lines.join_split 10 f.bytes]
  rw [offset, Lines.length_join, ended.ends, List.length_nil, Nat.add_zero]
  exact Nat.zero_add _

/-! ## Dumped lines -/

/-- A part in front of a text in printable ASCII is encoded to a part of the bytes. -/
theorem encode_take {text : List Char} (ascii : ∀ c ∈ text, c.toNat < 0x7F) (n : Nat) :
    (encode text).take n = encode (text.take n) := by
  have one : ∀ c : Char, c.toNat < 0x7F → String.utf8EncodeChar c = [UInt8.ofNat c.toNat] := by
    intro c small
    have same := Utf8.encode_ascii (n := c.toNat) (by omega)
    rwa [Char.ofNat_toNat] at same
  induction text generalizing n with
  | nil => rw [List.take_nil, encode, List.flatMap_nil, List.take_nil]
  | cons c text ih =>
      rw [List.forall_mem_cons] at ascii
      have first : encode (c :: text) = UInt8.ofNat c.toNat :: encode text := by
        rw [encode, List.flatMap_cons, one c ascii.1]
        rfl
      cases n with
      | zero => rfl
      | succ n =>
          have rest : encode (c :: text.take n) = UInt8.ofNat c.toNat :: encode (text.take n) := by
            rw [encode, List.flatMap_cons, one c ascii.1]
            rfl
          rw [first, List.take_succ_cons, List.take_succ_cons, ih ascii.2, rest]

theorem printable_clean {text : List Char} (printable : ∀ c ∈ text, 0x20 ≤ c.toNat ∧ c.toNat < 0x7F) :
    Lines.Clean 10 (encode text) := by
  intro inside
  rcases List.mem_flatMap.mp inside with ⟨c, member, here⟩
  have visible := (printable c member).1
  have other : c ≠ '\n' := by
    rintro rfl
    revert visible
    decide
  exact encode_clean other here

theorem dumped_clean (lawful : packages.Lawful) {line : Dict} {text : String}
    (dumped : packages.dumps line = .ok text) {front : List Char} (part : front <+: text.toList) :
    Lines.Clean 10 (encode front) :=
  printable_clean (fun c inside => lawful.printable dumped c (part.subset inside))

/-- A text between braces has no spaces around it. -/
theorem strip_braced {text : List Char} (opens : text.head? = some '{')
    (closes : text.getLast? = some '}') : strip text = text := by
  have front : text.dropWhile (fun c => Produce.isWhiteSpace c || Produce.isSeparator c) = text := by
    cases chars : text with
    | nil => rfl
    | cons c rest =>
        rw [chars] at opens
        cases opens
        exact List.dropWhile_cons_of_neg (by decide)
  have back : text.reverse.dropWhile
      (fun c => Produce.isWhiteSpace c || Produce.isSeparator c) = text.reverse := by
    rw [List.getLast?_eq_head?_reverse] at closes
    cases chars : text.reverse with
    | nil => rfl
    | cons c rest =>
        rw [chars] at closes
        cases closes
        exact List.dropWhile_cons_of_neg (by decide)
  rw [strip, front, back, List.reverse_reverse]

theorem strip_dumped (lawful : packages.Lawful) {line : Dict} {text : String}
    (dumped : packages.dumps line = .ok text) : strip text.toList = text.toList :=
  strip_braced (lawful.braces dumped).1 (lawful.braces dumped).2

/-- A line that was dumped is an entry. -/
theorem parse_dumped (lawful : packages.Lawful) {line : Dict} {text : String}
    (dumped : packages.dumps line = .ok text) (value : (valueOf line).length = 32)
    (offset seq : Nat) (previous : Time) :
    ∃ new, parse packages (encode text.toList) offset seq previous = .ok (some new) ∧
      new.entry.value = valueOf line ∧ new.capsule = isRecord line := by
  have some' : text.toList ≠ [] := by
    intro empty
    have opens := (lawful.braces dumped).1
    rw [empty] at opens
    cases opens
  refine ⟨⟨⟨seq, valueOf line, (lineTime packages seq line).getD previous⟩, offset,
    (encode text.toList).length, isRecord line⟩, ?_, rfl, rfl⟩
  rw [parse, decodeReplace_encode, strip_dumped lawful dumped, if_neg some', String.ofList_toList,
    lawful.loads_dumps dumped]
  exact if_pos value

/-- A part in front of a line that was dumped is none. -/
theorem parse_front (lawful : packages.Lawful) {line : Dict} {text : String}
    (dumped : packages.dumps line = .ok text) {front : List Char} (part : front <+: text.toList)
    (proper : front ≠ text.toList) (offset seq : Nat) (previous : Time) :
    parse packages (encode front) offset seq previous = .ok none := by
  rw [parse, decodeReplace_encode]
  split
  · rfl
  · rw [lawful.loads_front dumped front part proper]

end

end FlatLedger
end CapsuleEmit
