import CapsuleEmit.FlatLedger.Reader

namespace CapsuleEmit
namespace FlatLedger

open Python (Dict Value)

/-!
# Reading on

An index holds the lines of a front of the file that ends with a newline.
Reading on from there parses the lines behind that front at the offsets,
numbers and times that one pass over the whole file gives them, so the index
that results is the one of the whole file.  A file that was replaced is read
again from the start.
-/

section

variable {Time : Type} {packages : Packages Time}

/-! ## Scans behind one another -/

/-- A scan whose lines come behind others. -/
def Scan.behind (front : List (Line Time)) (scan : Scan Time) : Scan Time :=
  { scan with parsed := front ++ scan.parsed }

theorem scanLine_behind (front : List (Line Time)) (scan : Scan Time) (raw : Bytes) :
    scanLine packages (scan.behind front) raw =
      (scanLine packages scan raw).map (Scan.behind front) := by
  rw [scanLine, scanLine, Scan.behind]
  cases parse packages raw scan.offset scan.seq scan.previous with
  | error error => rfl
  | ok found =>
      cases found with
      | none => rfl
      | some line => simp only [Except.map, Scan.behind, List.append_assoc]

theorem foldlM_behind (front : List (Line Time)) (lines : List Bytes) (scan : Scan Time) :
    lines.foldlM (scanLine packages) (scan.behind front) =
      (lines.foldlM (scanLine packages) scan).map (Scan.behind front) := by
  induction lines generalizing scan with
  | nil => rfl
  | cons raw lines ih =>
      rw [List.foldlM_cons, List.foldlM_cons, scanLine_behind]
      cases scanLine packages scan raw with
      | error error => rfl
      | ok next => exact ih next

/-- The next line has the number behind the lines that are parsed, and the time of the last of
them. -/
structure Scan.Settled (packages : Packages Time) (scan : Scan Time) : Prop where
  seq : scan.seq = scan.parsed.length + 1
  previous : scan.previous = lastTime packages scan.parsed

/-- The start of a file. -/
def Scan.start (packages : Packages Time) : Scan Time := ⟨[], 0, 1, packages.epoch⟩

theorem settled_start : (Scan.start packages).Settled packages := ⟨rfl, rfl⟩

theorem settled_scanLine {scan next : Scan Time} {raw : Bytes} (settled : scan.Settled packages)
    (scanned : scanLine packages scan raw = .ok next) :
    next.Settled packages ∧ next.offset = scan.offset + raw.length + 1 := by
  rw [scanLine] at scanned
  cases found : parse packages raw scan.offset scan.seq scan.previous with
  | error error =>
      rw [found] at scanned
      cases scanned
  | ok line =>
      rw [found] at scanned
      cases line with
      | none =>
          cases scanned
          exact ⟨⟨settled.seq, settled.previous⟩, rfl⟩
      | some line =>
          cases scanned
          refine ⟨⟨?_, ?_⟩, rfl⟩
          · rw [List.length_append, List.length_singleton, settled.seq]
          · rw [lastTime, List.getLast?_concat]
            rfl

theorem settled_foldlM {lines : List Bytes} {scan final : Scan Time}
    (settled : scan.Settled packages)
    (scanned : lines.foldlM (scanLine packages) scan = .ok final) :
    final.Settled packages ∧ final.offset = scan.offset + Lines.extent lines := by
  induction lines generalizing scan with
  | nil =>
      cases scanned
      exact ⟨settled, rfl⟩
  | cons raw lines ih =>
      rw [List.foldlM_cons] at scanned
      rcases bind_eq_ok_iff.mp scanned with ⟨next, first, later⟩
      rcases settled_scanLine settled first with ⟨onward, offset⟩
      rcases ih onward later with ⟨last, extent⟩
      refine ⟨last, ?_⟩
      rw [extent, offset, Lines.extent_cons]
      omega

/-! ## The index of a whole file -/

theorem foldl_indexLine_fst (more : List (Line Time))
    (index : List (Line Time) × List (Bytes × Nat)) :
    (more.foldl indexLine index).1 = index.1 ++ more := by
  induction more generalizing index with
  | nil => rw [List.foldl_nil, List.append_nil]
  | cons line more ih => rw [List.foldl_cons, ih, indexLine, List.append_assoc]; rfl

/-- The place of the first line of each value. -/
def firsts (lines : List (Line Time)) : List (Bytes × Nat) := (lines.foldl indexLine ([], [])).2

theorem foldl_indexLine (front more : List (Line Time)) :
    more.foldl indexLine (front, firsts front) = (front ++ more, firsts (front ++ more)) := by
  have whole : front.foldl indexLine ([], []) = (front, firsts front) :=
    Prod.ext (foldl_indexLine_fst front _) rfl
  have both : (front ++ more).foldl indexLine ([], []) =
      more.foldl indexLine (front, firsts front) := by
    rw [List.foldl_append, whole]
  rw [← both]
  exact Prod.ext (foldl_indexLine_fst _ _) rfl

/-- The index of a file that is read at once. -/
def indexOf (packages : Packages Time) (file : Option File) : Except LedgerError (Handle Time) := do
  let pieces := Lines.split 10 (bytesOf file)
  let scan ← pieces.1.foldlM (scanLine packages) (Scan.start packages)
  let tail ← readTail packages pieces.2 scan
  return ⟨scan.parsed, firsts scan.parsed, scan.offset, tail, file.map File.identity⟩

/-- An index holds the lines of some bytes that end with a newline. -/
structure Handle.Reads (packages : Packages Time) (handle : Handle Time) (front : Bytes)
    (scan : Scan Time) : Prop where
  ends : (Lines.split 10 front).2 = []
  scanned : (Lines.split 10 front).1.foldlM (scanLine packages) (Scan.start packages) = .ok scan
  lines : handle.lines = scan.parsed
  first : handle.first = firsts scan.parsed
  consumed : handle.consumed = front.length

/-- An index holds the lines of a front of some bytes. -/
def Handle.Indexed (packages : Packages Time) (handle : Handle Time) (bytes : Bytes) : Prop :=
  ∃ front scan, front <+: bytes ∧ handle.Reads packages front scan

theorem indexed_of_empty {handle : Handle Time} (lines : handle.lines = []) (first : handle.first = [])
    (consumed : handle.consumed = 0) (bytes : Bytes) : handle.Indexed packages bytes :=
  ⟨[], Scan.start packages, List.nil_prefix, rfl, rfl, lines, first, consumed⟩

theorem Handle.Indexed.mono {handle : Handle Time} {bytes more : Bytes}
    (indexed : handle.Indexed packages bytes) (onward : bytes <+: more) :
    handle.Indexed packages more := by
  rcases indexed with ⟨front, scan, part, reads⟩
  exact ⟨front, scan, part.trans onward, reads⟩

/-- The line behind the front of an index starts where the index stopped. -/
theorem Handle.Reads.offset {handle : Handle Time} {front : Bytes} {scan : Scan Time}
    (reads : handle.Reads packages front scan) :
    scan.Settled packages ∧ scan.offset = handle.consumed := by
  rcases settled_foldlM settled_start reads.scanned with ⟨settled, offset⟩
  refine ⟨settled, ?_⟩
  have length : front.length = Lines.extent (Lines.split 10 front).1 := by
    conv_lhs => rw [← Lines.join_split 10 front]
    rw [Lines.length_join, reads.ends, List.length_nil, Nat.add_zero]
  rw [offset, reads.consumed, length, Scan.start, Nat.zero_add]

/-- What is read of a file behind the front of an index, and of the file at once. -/
theorem indexOf_behind {file : Option File} {handle : Handle Time} {front rest : Bytes}
    {scan : Scan Time} (whole : front ++ rest = bytesOf file)
    (reads : handle.Reads packages front scan) :
    indexOf packages file = (do
      let found ← (Lines.split 10 rest).1.foldlM (scanLine packages)
        ⟨[], handle.consumed, handle.lines.length + 1, lastTime packages handle.lines⟩
      let tail ← readTail packages (Lines.split 10 rest).2 found
      return ⟨handle.lines ++ found.parsed, firsts (handle.lines ++ found.parsed), found.offset, tail,
        file.map File.identity⟩) := by
  have pieces := Lines.split_append 10 front rest
  rw [reads.ends, List.nil_append, whole] at pieces
  rcases reads.offset with ⟨settled, offset⟩
  have onward : scan = Scan.behind handle.lines
      ⟨[], handle.consumed, handle.lines.length + 1, lastTime packages handle.lines⟩ := by
    rw [Scan.behind, reads.lines, ← offset, ← settled.seq, ← settled.previous, List.append_nil]
  rw [indexOf]
  simp only [pieces]
  rw [List.foldlM_append, reads.scanned, ok_bind, onward, foldlM_behind]
  cases (Lines.split 10 rest).1.foldlM (scanLine packages)
      ⟨[], handle.consumed, handle.lines.length + 1, lastTime packages handle.lines⟩ with
  | error error => rfl
  | ok found => rfl

/-! ## Handles that follow a file -/

/-- A handle that has read nothing; or the file it read has shrunk since, or starts with what it
read. -/
structure Handle.Follows (packages : Packages Time) (handle : Handle Time) (file : Option File) :
    Prop where
  unread : handle.identity = none → handle = Handle.reset
  read : ∀ f ∈ file, handle.identity = some f.identity →
    f.bytes.length < handle.consumed ∨ handle.Indexed packages f.bytes

theorem follows_reset (file : Option File) : Handle.reset.Follows packages file :=
  ⟨fun _ => rfl, fun _ _ none => nomatch none⟩

/-- What the stat tells leaves an index of the front of the file. -/
theorem indexed_statted {handle : Handle Time} {file : Option File}
    (follows : handle.Follows packages file) :
    (handle.statted file).Indexed packages (bytesOf file) := by
  rw [Handle.statted]
  split
  · exact indexed_of_empty rfl rfl rfl _
  · next same =>
      rcases not_or.mp same with ⟨whole, same⟩
      cases known : handle.identity with
      | none =>
          rw [follows.unread known]
          exact indexed_of_empty rfl rfl rfl _
      | some identity =>
          rw [known] at same
          have here : file.map File.identity = some identity :=
            Decidable.not_not.mp (fun other => same ⟨rfl, other⟩)
          cases file with
          | none => cases here
          | some f =>
              rcases (follows.read f rfl (by rw [known, ← here]; rfl)).resolve_left whole with
                ⟨front, scan, part, reads⟩
              exact ⟨front, scan, part, reads.ends, reads.scanned, reads.lines, reads.first,
                reads.consumed⟩

/-- A refresh gives the index of the whole file, or fails as reading the whole file does. -/
theorem refresh_eq {handle : Handle Time} {file : Option File}
    (follows : handle.Follows packages file) :
    handle.refresh packages file = match indexOf packages file with
      | .ok index => (.ok (), index)
      | .error error => (.error error, handle.statted file) := by
  have identity : (handle.statted file).identity = file.map File.identity := rfl
  rcases indexed_statted follows with ⟨front, scan, ⟨rest, whole⟩, reads⟩
  rw [indexOf_behind whole reads, Handle.refresh]
  generalize handle.statted file = settled at identity reads
  have behind : (bytesOf file).drop settled.consumed = rest := by
    rw [← whole, reads.consumed, List.drop_left]
  dsimp only
  split
  · next done =>
      have empty : rest = [] := by
        apply List.length_eq_zero_iff.mp
        have length := done.1
        rw [← whole, List.length_append, reads.consumed] at length
        omega
      rw [empty]
      have noTail := Option.isNone_iff_eq_none.mp done.2
      have firstEq : settled.first = firsts settled.lines :=
        reads.first.trans (congrArg firsts reads.lines.symm)
      cases settled with
      | mk lines first consumed tail inode =>
          dsimp only at identity noTail firstEq
          rw [identity, noTail, firstEq]
          have start : ([] : List Bytes).foldlM (scanLine packages) ⟨[], consumed, lines.length + 1,
              lastTime packages lines⟩ = .ok ⟨[], consumed, lines.length + 1,
              lastTime packages lines⟩ := rfl
          simp only [Lines.split, start, ok_bind, readTail, if_true, List.append_nil]
          rfl
  · rw [behind]
    cases (Lines.split 10 rest).1.foldlM (scanLine packages)
        ⟨[], settled.consumed, settled.lines.length + 1, lastTime packages settled.lines⟩ with
    | error error => rfl
    | ok found =>
        dsimp only
        rw [ok_bind]
        cases readTail packages (Lines.split 10 rest).2 found with
        | error error => rfl
        | ok tail =>
            dsimp only
            have firstEq : settled.first = firsts settled.lines :=
              reads.first.trans (congrArg firsts reads.lines.symm)
            rw [firstEq, foldl_indexLine, identity]
            rfl

/-- The index of a whole file is one of a front of it. -/
theorem indexed_indexOf {file : Option File} {index : Handle Time}
    (read : indexOf packages file = .ok index) :
    index.Indexed packages (bytesOf file) ∧ index.identity = file.map File.identity ∧
      (file = none → index = Handle.reset) := by
  rw [indexOf] at read
  rcases bind_eq_ok_iff.mp read with ⟨scan, scanned, read⟩
  rcases bind_eq_ok_iff.mp read with ⟨tail, last, same⟩
  cases same
  refine ⟨?_, rfl, ?_⟩
  · have clean := (Lines.split_pieces_clean 10 (bytesOf file)).1
    have pieces : Lines.split 10 (Lines.join 10 (Lines.split 10 (bytesOf file)).1 []) =
        ((Lines.split 10 (bytesOf file)).1, []) := Lines.split_join clean List.not_mem_nil
    refine ⟨Lines.join 10 (Lines.split 10 (bytesOf file)).1 [], scan, ?_, ?_, ?_, rfl, rfl, ?_⟩
    · refine ⟨(Lines.split 10 (bytesOf file)).2, ?_⟩
      rw [Lines.join_tail_append, List.nil_append, Lines.join_split]
    · rw [pieces]
    · rw [pieces]
      exact scanned
    · rw [(settled_foldlM settled_start scanned).2, Lines.length_join]
      exact Nat.zero_add _
  · intro missing
    subst missing
    cases scanned
    cases last
    rfl

theorem statted_none (handle : Handle Time) (unread : handle.identity = none → handle = Handle.reset) :
    handle.statted none = Handle.reset := by
  rw [Handle.statted]
  cases known : handle.identity with
  | none =>
      rw [unread known, ite_self]
      rfl
  | some identity =>
      rw [if_pos (Or.inr ⟨rfl, fun none => nomatch none⟩)]
      rfl

/-! ## Changes of the file -/

theorem Handle.Follows.refresh {handle : Handle Time} {file : Option File}
    (follows : handle.Follows packages file) :
    (handle.refresh packages file).2.Follows packages file := by
  rw [refresh_eq follows]
  cases read : indexOf packages file with
  | ok index =>
      rcases indexed_indexOf read with ⟨indexed, identity, missing⟩
      refine ⟨fun none => missing ?_, fun f here _ => Or.inr ?_⟩
      · rw [identity] at none
        exact Option.map_eq_none_iff.mp none
      · cases here
        exact indexed
  | error error =>
      refine ⟨fun none => ?_, fun f here _ => Or.inr ?_⟩
      · cases file with
        | none => exact statted_none handle follows.unread
        | some f => cases none
      · cases here
        exact indexed_statted follows

/-- A file with more bytes. -/
def File.extended (f : File) (more : Bytes) : File := { f with bytes := f.bytes ++ more }

/-- Bytes that are written behind a file keep the indexes that are not ahead of it. -/
theorem Handle.Follows.append {handle : Handle Time} {f : File}
    (follows : handle.Follows packages (some f)) (more : Bytes)
    (whole : handle.identity = some f.identity → handle.consumed ≤ f.bytes.length) :
    handle.Follows packages (some (f.extended more)) := by
  refine ⟨follows.unread, ?_⟩
  rintro g ⟨⟩ known
  rcases follows.read f rfl known with shrunk | indexed
  · exact absurd (whole known) (Nat.not_le_of_lt shrunk)
  · exact Or.inr (indexed.mono (List.prefix_append _ _))

/-- Another file has another inode. -/
theorem Handle.Follows.replace {handle : Handle Time} {file : Option File}
    (follows : handle.Follows packages file) (f : File) (other : handle.identity ≠ some f.identity) :
    handle.Follows packages (some f) := by
  refine ⟨follows.unread, ?_⟩
  rintro g ⟨⟩ known
  exact absurd known other

theorem Handle.Follows.remove {handle : Handle Time} {file : Option File}
    (follows : handle.Follows packages file) : handle.Follows packages none :=
  ⟨follows.unread, fun _ here => nomatch here⟩

/-- A file that is cut is shorter than what an index has read, or still starts with it. -/
theorem Handle.Follows.cut {handle : Handle Time} {f : File}
    (follows : handle.Follows packages (some f)) (n : Nat) :
    handle.Follows packages (some { f with bytes := f.bytes.take n }) := by
  refine ⟨follows.unread, ?_⟩
  rintro g ⟨⟩ known
  by_cases shrunk : (f.bytes.take n).length < handle.consumed
  · exact Or.inl shrunk
  · rcases follows.read f rfl known with already | ⟨front, scan, part, reads⟩
    · left
      rw [List.length_take]
      omega
    · right
      refine ⟨front, scan, ?_, reads⟩
      apply List.prefix_of_prefix_length_le part (List.take_prefix n f.bytes)
      rw [← reads.consumed]
      exact Nat.le_of_not_lt shrunk

end

end FlatLedger
end CapsuleEmit
