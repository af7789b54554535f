import CapsuleEmit.FlatLedger.Writer
import CapsuleEmit.Foundation.Machine

namespace CapsuleEmit
namespace FlatLedger

open Python (Dict Value)

/-!
# Handles on one file

Any number of handles read and write one flat ledger, each with an index of its
own that may lag behind the file.  A write takes place under the lock of the
file, so the operations of the handles come one after another.
-/

section

variable {Time : Type} {packages : Packages Time}

/-! ## Where lines are -/

theorem parse_place {raw : Bytes} {offset seq : Nat} {previous : Time} {line : Line Time}
    (parsed : parse packages raw offset seq previous = .ok (some line)) :
    line.offset = offset ∧ line.length = raw.length ∧ line.entry.seq = seq := by
  rw [parse] at parsed
  split at parsed
  · cases parsed
  · split at parsed
    · cases parsed
    · cases parsed
    · split at parsed
      · cases parsed
        exact ⟨rfl, rfl, rfl⟩
      · cases parsed
    · cases parsed

/-- Every line ends before the place where the next one starts, and has the number of its place. -/
structure Scan.Placed (scan : Scan Time) : Prop where
  within : ∀ line ∈ scan.parsed, line.offset + line.length + 1 ≤ scan.offset
  numbered : scan.parsed.map (fun line => line.entry.seq) = List.range' 1 scan.parsed.length
  seq : scan.seq = scan.parsed.length + 1

theorem placed_scanLine {scan next : Scan Time} {raw : Bytes} (placed : scan.Placed)
    (scanned : scanLine packages scan raw = .ok next) : next.Placed := by
  rw [scanLine] at scanned
  cases found : parse packages raw scan.offset scan.seq scan.previous with
  | error error =>
      rw [found] at scanned
      cases scanned
  | ok line =>
      rw [found] at scanned
      cases line with
      | none =>
          cases scanned
          refine ⟨fun line inside => ?_, placed.numbered, placed.seq⟩
          have before := placed.within line inside
          dsimp only
          omega
      | some line =>
          cases scanned
          rcases parse_place found with ⟨offset, length, number⟩
          refine ⟨fun other inside => ?_, ?_, ?_⟩
          · rcases List.mem_append.mp inside with before | last
            · have earlier := placed.within other before
              dsimp only
              omega
            · rw [List.mem_singleton.mp last, offset, length]
          · rw [List.map_append, List.map_singleton, List.length_append, placed.numbered, number,
              placed.seq, List.length_singleton, List.range'_concat, Nat.one_mul, Nat.add_comm 1]
          · rw [List.length_append, List.length_singleton, placed.seq]

theorem placed_foldlM {lines : List Bytes} {scan final : Scan Time} (placed : scan.Placed)
    (scanned : lines.foldlM (scanLine packages) scan = .ok final) : final.Placed := by
  induction lines generalizing scan with
  | nil =>
      cases scanned
      exact placed
  | cons raw lines ih =>
      rw [List.foldlM_cons] at scanned
      rcases bind_eq_ok_iff.mp scanned with ⟨next, first, later⟩
      exact ih (placed_scanLine placed first) later

theorem Ended.placed {f : File} {scan : Scan Time} (ended : Ended packages f scan) : scan.Placed :=
  placed_foldlM ⟨fun _ inside => absurd inside List.not_mem_nil, rfl, rfl⟩ ended.scanned

theorem length_missingNewline (bytes : Bytes) : (missingNewline bytes).length ≤ 1 := by
  rw [missingNewline]
  split
  · exact Nat.zero_le 1
  · exact Nat.le_refl 1

/-- The entries of a file lie in it, and are numbered in order. -/
theorem placed_indexOf {f : File} {index : Handle Time}
    (read : indexOf packages (some f) = .ok index) :
    (∀ line ∈ index.all, line.offset + line.length ≤ f.bytes.length) ∧
      index.all.map (fun line => line.entry.seq) = List.range' 1 index.all.length := by
  rcases ended_of_index read with ⟨scan, ended, same⟩
  have placed := ended.placed
  rw [← same]
  refine ⟨fun line inside => ?_, placed.numbered⟩
  have before := placed.within line inside
  have length := length_missingNewline f.bytes
  rw [ended.settled.2, File.extended, List.length_append] at before
  omega

/-- The bytes of an entry stay what they are when more are written. -/
theorem readRaw_extended {f : File} {line : Line Time} (more : Bytes)
    (within : line.offset + line.length ≤ f.bytes.length) :
    readRaw (some (f.extended more)) line = readRaw (some f) line := by
  have fits : line.length ≤ (f.bytes.drop line.offset).length := by
    rw [List.length_drop]
    omega
  rw [readRaw, readRaw, bytesOf_some, bytesOf_some, File.extended,
    List.drop_append_of_le_length (by omega), List.take_append_of_le_length fits]

/-! ## What is written -/

theorem stripBytes_braced {text : String} (opens : text.toList.head? = some '{')
    (closes : text.toList.getLast? = some '}') : stripBytes (utf8 text) = utf8 text := by
  have front : ∃ rest, utf8 text = 123 :: rest := by
    cases chars : text.toList with
    | nil =>
        rw [chars] at opens
        cases opens
    | cons c rest =>
        rw [chars] at opens
        cases opens
        refine ⟨encode rest, ?_⟩
        rw [Utf8.utf8_eq_flatMap, chars, List.flatMap_cons]
        rfl
  have back : ∃ rest, (utf8 text).reverse = 125 :: rest := by
    rcases List.eq_nil_or_concat text.toList with empty | ⟨rest, last, chars⟩
    · rw [empty] at closes
      cases closes
    · rw [List.concat_eq_append] at chars
      rw [chars, List.getLast?_concat] at closes
      cases closes
      refine ⟨(encode rest).reverse, ?_⟩
      rw [Utf8.utf8_eq_flatMap, chars, List.flatMap_append, List.reverse_append]
      rfl
  rcases front with ⟨rest, opened⟩
  rcases back with ⟨before, closed⟩
  have start : (utf8 text).dropWhile (fun b : UInt8 => (9 ≤ b && b ≤ 13) || b = 32) = utf8 text := by
    rw [opened]
    exact List.dropWhile_cons_of_neg (by decide)
  have stop : (utf8 text).reverse.dropWhile (fun b : UInt8 => (9 ≤ b && b ≤ 13) || b = 32) =
      (utf8 text).reverse := by
    rw [closed]
    exact List.dropWhile_cons_of_neg (by decide)
  rw [stripBytes, start, stop, List.reverse_reverse]

theorem stripBytes_dumped (lawful : packages.Lawful) {line : Dict} {text : String}
    (dumped : packages.dumps line = .ok text) : stripBytes (utf8 text) = utf8 text :=
  stripBytes_braced (lawful.braces dumped).1 (lawful.braces dumped).2

theorem utf8_text (text : String) : utf8 text = encode text.toList := Utf8.utf8_eq_flatMap text

/-- A line that is written whole is one more entry, of the bytes that were written. -/
theorem index_written (lawful : packages.Lawful) {f : File} {index : Handle Time}
    (read : indexOf packages (some f) = .ok index) {line : Dict} {text : String}
    (dumped : packages.dumps line = .ok text) (value : (valueOf line).length = 32) :
    ∃ index' new, indexOf packages (some (f.extended (payload f.bytes text))) = .ok index' ∧
      index'.all = index.all ++ [new] ∧ new.entry.value = valueOf line ∧
      new.entry.seq = index.all.length + 1 ∧ new.capsule = isRecord line ∧
      readRaw (some (f.extended (payload f.bytes text))) new = utf8 text := by
  rcases ended_of_index read with ⟨scan, ended, same⟩
  have clean := dumped_clean lawful dumped (List.prefix_refl text.toList)
  rcases parse_dumped lawful dumped value scan.offset scan.seq scan.previous with
    ⟨new, parsed, held, capsule⟩
  rcases parse_place parsed with ⟨place, length, number⟩
  rcases ended_line ended clean parsed with ⟨next, endedNext, all⟩
  rcases indexOf_ended endedNext with ⟨index', read', all'⟩
  rw [extended_extended, ← utf8_text] at read'
  refine ⟨index', new, read', ?_, held, ?_, capsule, ?_⟩
  · rw [all', all, same]
    rfl
  · rw [← same, number]
    exact ended.settled.1.seq
  · have start : scan.offset = (f.bytes ++ missingNewline f.bytes).length := ended.settled.2
    have bytes : (f.extended (payload f.bytes text)).bytes =
        (f.bytes ++ missingNewline f.bytes) ++ (utf8 text ++ [10]) := by
      rw [File.extended, payload, List.append_assoc]
    rw [readRaw, bytesOf_some, bytes, place, length, start, List.drop_left, ← utf8_text, List.take_left,
      stripBytes_dumped lawful dumped]

/-- Where a write stops, there is one more entry when only its newline is missing, or none. -/
theorem index_torn (lawful : packages.Lawful) {f : File} {index : Handle Time}
    (read : indexOf packages (some f) = .ok index) {line : Dict} {text : String}
    (dumped : packages.dumps line = .ok text) (value : (valueOf line).length = 32) (n : Nat) :
    ∃ index' added, indexOf packages (some (f.extended ((payload f.bytes text).take n))) = .ok index' ∧
      index'.all = index.all ++ added ∧
      (added = [] ∨ ∃ new, added = [new] ∧ new.entry.value = valueOf line) := by
  rcases ended_of_index read with ⟨scan, ended, same⟩
  have ascii : ∀ c ∈ text.toList, c.toNat < 0x7F :=
    fun c inside => (lawful.printable dumped c inside).2
  by_cases nothing : n < (missingNewline f.bytes).length
  · have none : n = 0 := by
      have length := length_missingNewline f.bytes
      omega
    refine ⟨index, [], ?_, (List.append_nil _).symm, Or.inl rfl⟩
    rw [none, List.take_zero, File.extended, List.append_nil]
    exact read
  · have split : (payload f.bytes text).take n = missingNewline f.bytes ++
        (encode text.toList ++ [10]).take (n - (missingNewline f.bytes).length) := by
      rw [payload, utf8_text, List.take_append, List.take_of_length_le (Nat.le_of_not_lt nothing)]
    rw [split, ← extended_extended]
    generalize n - (missingNewline f.bytes).length = m
    by_cases part : m ≤ (encode text.toList).length
    · rw [List.take_append_of_le_length part, encode_take ascii]
      have front := List.take_prefix m text.toList
      have clean := dumped_clean lawful dumped front
      by_cases whole : text.toList.take m = text.toList
      · rcases parse_dumped lawful dumped value scan.offset scan.seq scan.previous with
          ⟨new, parsed, held, -⟩
        rw [whole] at clean ⊢
        have last : readTail packages (encode text.toList) scan = .ok (some new) := by
          rw [readTail, if_neg, parsed]
          intro empty
          rw [empty] at parsed
          cases parsed
        rcases indexOf_part ended clean last with ⟨index', read', all⟩
        exact ⟨index', [new], read', by rw [all, same]; rfl, Or.inr ⟨new, rfl, held⟩⟩
      · have last : readTail packages (encode (text.toList.take m)) scan = .ok none := by
          rw [readTail]
          split
          · rfl
          · exact parse_front lawful dumped front whole _ _ _
        rcases indexOf_part ended clean last with ⟨index', read', all⟩
        exact ⟨index', [], read', by rw [all, same]; rfl, Or.inl rfl⟩
    · have whole : (encode text.toList ++ [10]).take m = encode text.toList ++ [10] := by
        apply List.take_of_length_le
        rw [List.length_append, List.length_singleton]
        omega
      rw [whole]
      rcases parse_dumped lawful dumped value scan.offset scan.seq scan.previous with
        ⟨new, parsed, held, -⟩
      rcases ended_line ended (dumped_clean lawful dumped (List.prefix_refl _)) parsed with
        ⟨next, endedNext, all⟩
      rcases indexOf_ended endedNext with ⟨index', read', all'⟩
      exact ⟨index', [new], read', by rw [all', all, same]; rfl, Or.inr ⟨new, rfl, held⟩⟩

/-- A ledger of one line: what is read of it, as one text and line by line. -/
theorem read_single {text : String} {obj : Dict} (identity : Nat × Nat)
    (printable : ∀ c ∈ text.toList, 0x20 ≤ c.toNat ∧ c.toNat < 0x7F)
    (opens : text.toList.head? = some '{') (closes : text.toList.getLast? = some '}')
    (loaded : packages.loads text = .ok (.dict obj)) (value : (valueOf obj).length = 32) :
    readLedgerEntries packages (some ⟨identity, utf8 text ++ [10]⟩) = .ok [.dict obj] ∧
    ∃ line index, indexOf packages (some ⟨identity, utf8 text ++ [10]⟩) = .ok index ∧
      index.all = [line] ∧ line.entry.value = valueOf obj ∧ line.capsule = isRecord obj ∧
      readRaw (some ⟨identity, utf8 text ++ [10]⟩) line = utf8 text := by
  have some' : text.toList ≠ [] := by
    intro empty
    rw [empty] at opens
    cases opens
  have newline : '\n' ∉ text.toList := fun inside => absurd (printable _ inside).1 (by decide)
  have noReturn : '\r' ∉ text.toList ++ ['\n'] := by
    intro inside
    rcases List.mem_append.mp inside with early | late
    · exact absurd (printable _ early).1 (by decide)
    · cases List.mem_singleton.mp late
  constructor
  · have whole : utf8 text ++ [10] = utf8 (String.ofList (text.toList ++ ['\n'])) := by
      rw [utf8_text, utf8_ofList, encode, encode, List.flatMap_append]
      rfl
    have pieces : textLines (text.toList ++ ['\n']) = [text.toList, []] := by
      rw [textLines, Python.translateNewlines_eq_self noReturn, Lines.split_clean_append newline []]
      rfl
    rw [readLedgerEntries, whole]
    dsimp only
    rw [utf8?_utf8]
    dsimp only
    rw [String.toList_ofList, pieces, readLines_cons, strip_braced opens closes, if_neg some',
      String.ofList_toList, loaded]
    rfl
  · have pieces : Lines.split 10 (utf8 text ++ [10]) = ([utf8 text], []) := by
      have clean := printable_clean printable
      rw [← utf8_text] at clean
      rw [Lines.split_clean_append clean []]
      rfl
    let line : Line Time := ⟨⟨1, valueOf obj, (lineTime packages 1 obj).getD packages.epoch⟩, 0,
      (utf8 text).length, isRecord obj⟩
    have decoded : decodeReplace (utf8 text) = text.toList := by
      rw [utf8_text, decodeReplace_encode]
    have parsed : parse packages (utf8 text) 0 1 packages.epoch = .ok (some line) := by
      rw [parse, decoded, strip_braced opens closes, if_neg some',
        String.ofList_toList, loaded]
      exact if_pos value
    refine ⟨line, ⟨[line], firsts [line], 0 + (utf8 text).length + 1, none, some identity⟩, ?_, rfl,
      rfl, rfl, ?_⟩
    · rw [indexOf, bytesOf_some]
      dsimp only
      rw [pieces, List.foldlM_cons, scanLine, Scan.start]
      dsimp only
      rw [parsed]
      rfl
    · rw [readRaw, bytesOf_some]
      dsimp only
      rw [List.drop_zero, List.take_left, stripBytes_braced opens closes]

end

end FlatLedger
end CapsuleEmit
