import CapsuleEmit.FlatLedger.Handles

namespace CapsuleEmit
namespace FlatLedger

open Python (Dict Value)

/-!
# Runs on a flat ledger

A write has five effects, and every law about runs of handles is read off them.
In runs of handles alone a file only grows and no id gets a second entry; what
an entry was answered with once, it is answered with ever after.  Whatever else
happens to the file, a refresh gives the index of the whole file.
-/

section

variable {Time : Type}

/-! ## What a write does -/

/-- The first entry with the id of a line. -/
def held (index : Handle Time) (line : Dict) : Option (Line Time) :=
  index.all.find? (fun entry => entry.entry.value = valueOf line)

/-- The effects of a write of a line to a file with an index: its answer, and the file after it. -/
inductive Effect (packages : Packages Time) (stopped : Bool) (f : File) (index : Handle Time)
    (line : Dict) (text : String) (requireRecord : Bool) (written : Option Nat) :
    Except WriteError (AppendResult Time) → File → Prop where
  | refused {why : String} : held index line = none → (stopped && isRecord line) = true →
      Effect packages stopped f index line text requireRecord written (.error (.refused why)) f
  | conflict {existing : Line Time} : held index line = some existing →
      (requireRecord && !existing.capsule) = true ∨ readRaw (some f) existing ≠ utf8 text →
      Effect packages stopped f index line text requireRecord written (.error .conflict) f
  | idempotent {existing : Line Time} : held index line = some existing →
      (requireRecord && !existing.capsule) = false → readRaw (some f) existing = utf8 text →
      Effect packages stopped f index line text requireRecord written (.ok ⟨existing.entry, false⟩) f
  | torn {n : Nat} : held index line = none → written = some n →
      Effect packages stopped f index line text requireRecord written (.error .io)
        (f.extended ((payload f.bytes text).take n))
  | inserted {index' : Handle Time} {new : Line Time} : held index line = none → written = none →
      index'.all = index.all ++ [new] → new.entry.value = valueOf line →
      new.entry.seq = index.all.length + 1 → new.capsule = isRecord line →
      readRaw (some (f.extended (payload f.bytes text))) new = utf8 text →
      indexOf packages (some (f.extended (payload f.bytes text))) = .ok index' →
      Effect packages stopped f index line text requireRecord written (.ok ⟨new.entry, true⟩)
        (f.extended (payload f.bytes text))

/-- What a write of a line must pass before it reads on. -/
structure Accepted (packages : Packages Time) (line : Dict) (requireRecord : Bool) (text : String) :
    Prop where
  id : ∃ id, line.get? "capsule_id" = some (.str id) ∧ ArtifactStore.validId id = true
  record : (requireRecord && !isRecord line) = false
  dumped : packages.dumps line = .ok text

variable {packages : Packages Time}

/-- An id is the text of 32 bytes. -/
theorem hex_of_validId {id : String} (valid : ArtifactStore.validId id = true) :
    ∃ bytes, Python.fromHex id = some bytes ∧ Sha256.hex bytes = id ∧ bytes.length = 32 ∧
      id.length = 64 := by
  rw [ArtifactStore.validId, Bool.and_eq_true, decide_eq_true_eq] at valid
  rcases @Python.fromHex_of_digits id 32 valid.1 valid.2 with ⟨bytes, read, text⟩
  have long : bytes.length = 32 := by
    have length := valid.1
    rw [← text, Sha256.length_utf8_hex] at length
    omega
  refine ⟨bytes, read, text, long, ?_⟩
  rw [← text, Sha256.hex, String.length_ofList, List.length_flatMap]
  simp only [List.length_cons, List.length_nil, List.map_const', List.sum_replicate_nat, long]

theorem length_valueOf {line : Dict} {id : String} (named : line.get? "capsule_id" = some (.str id))
    (valid : ArtifactStore.validId id = true) : (valueOf line).length = 32 := by
  rcases hex_of_validId valid with ⟨bytes, read, -, long, chars⟩
  rw [valueOf, named]
  dsimp only
  rw [if_pos chars, read, Option.getD_some, long]

theorem Accepted.value {line : Dict} {requireRecord : Bool} {text : String}
    (accepted : Accepted packages line requireRecord text) : (valueOf line).length = 32 := by
  rcases accepted.id with ⟨id, named, valid⟩
  exact length_valueOf named valid

/-- A handle that is not ahead of its file. -/
def Handle.NotAhead (handle : Handle Time) (file : Option File) : Prop :=
  ∀ f ∈ file, handle.identity = some f.identity → handle.consumed ≤ f.bytes.length

theorem Handle.Indexed.notAhead {handle : Handle Time} {f : File}
    (indexed : handle.Indexed packages f.bytes) : handle.NotAhead (some f) := by
  rcases indexed with ⟨front, scan, part, reads⟩
  rintro g ⟨⟩ -
  rw [reads.consumed]
  exact part.length_le

theorem Handle.NotAhead.append {handle : Handle Time} {f : File} (notAhead : handle.NotAhead (some f))
    (more : Bytes) : handle.NotAhead (some (f.extended more)) := by
  rintro g ⟨⟩ known
  have before := notAhead f rfl known
  rw [File.extended, List.length_append]
  exact Nat.le_add_right_of_le before

theorem refresh_notAhead {handle : Handle Time} {file : Option File}
    (follows : handle.Follows packages file) : (handle.refresh packages file).2.NotAhead file := by
  rw [refresh_eq follows]
  cases file with
  | none => exact fun _ here => nomatch here
  | some f =>
      cases read : indexOf packages (some f) with
      | ok index => exact Handle.Indexed.notAhead (indexed_indexOf read).1
      | error error => exact Handle.Indexed.notAhead (indexed_statted follows)

theorem first_indexOf {file : Option File} {index : Handle Time}
    (read : indexOf packages file = .ok index) : index.first = firsts index.lines := by
  rw [indexOf] at read
  rcases bind_eq_ok_iff.mp read with ⟨scan, -, read⟩
  rcases bind_eq_ok_iff.mp read with ⟨tail, -, same⟩
  cases same
  rfl

theorem find_indexOf {file : Option File} {index : Handle Time}
    (read : indexOf packages file = .ok index) (line : Dict) :
    index.find (valueOf line) = held index line := find_eq (first_indexOf read) _

/-- A write of an accepted line to a file that is read has one of the effects. -/
theorem write_effect (lawful : packages.Lawful) (stopped : Bool) {f : File} {index : Handle Time}
    (read : indexOf packages (some f) = .ok index) {handle : Handle Time}
    (follows : handle.Follows packages (some f)) {line : Dict} {requireRecord : Bool} {text : String}
    (accepted : Accepted packages line requireRecord text) (written : Option Nat) :
    ∃ f', (write packages stopped (some f) handle line requireRecord written).2.1 = some f' ∧
      Effect packages stopped f index line text requireRecord written
        (write packages stopped (some f) handle line requireRecord written).1 f' ∧
      (write packages stopped (some f) handle line requireRecord written).2.2.Follows packages
        (some f') ∧
      (write packages stopped (some f) handle line requireRecord written).2.2.NotAhead (some f') := by
  have refreshed : handle.refresh packages (some f) = (.ok (), index) := by
    rw [refresh_eq follows, read]
  have indexFollows : index.Follows packages (some f) := by
    have onward := follows.refresh
    rwa [refreshed] at onward
  have indexNotAhead : index.NotAhead (some f) := Handle.Indexed.notAhead (indexed_indexOf read).1
  rcases accepted.id with ⟨id, named, valid⟩
  have passes : ¬(ArtifactStore.validId id = false ∨ (requireRecord && !isRecord line) = true) := by
    rw [valid, accepted.record]
    decide
  have whole : write packages stopped (some f) handle line requireRecord written =
      writeBehind packages stopped (some f) index line text requireRecord written := by
    rw [write, named]
    dsimp only
    rw [if_neg passes, accepted.dumped]
    dsimp only
    rw [refreshed]
  rw [whole, writeBehind.eq_def, find_indexOf read]
  cases found : held index line with
  | some existing =>
      dsimp only
      split
      · next differs =>
          rw [Bool.or_eq_true, decide_eq_true_eq] at differs
          exact ⟨f, rfl, Effect.conflict found differs, indexFollows, indexNotAhead⟩
      · next same =>
          rw [Bool.not_eq_true, Bool.or_eq_false_iff, decide_eq_false_iff_not, not_not] at same
          exact ⟨f, rfl, Effect.idempotent found same.1 same.2, indexFollows, indexNotAhead⟩
  | none =>
      dsimp only
      split
      · next retired =>
          exact ⟨f, rfl, Effect.refused found retired, indexFollows, indexNotAhead⟩
      · cases written with
        | some n => exact ⟨_, rfl, Effect.torn found rfl,
            indexFollows.append _ (indexNotAhead f rfl), indexNotAhead.append _⟩
        | none =>
            have onward := indexFollows.append (payload f.bytes text) (indexNotAhead f rfl)
            rcases index_written lawful read accepted.dumped accepted.value with
              ⟨index', new, read', all, value, seq, capsule, raw⟩
            have again : index.refresh packages (some (f.extended (payload f.bytes text))) =
                (.ok (), index') := by
              rw [refresh_eq onward, read']
            have foundNew : index'.find (valueOf line) = some new := by
              rw [find_indexOf read', held, all, List.find?_append, show index.all.find? _ = none from
                found, Option.none_or, List.find?_cons_of_pos (by rw [value]; exact decide_eq_true rfl)]
            have followsNew : index'.Follows packages (some (f.extended (payload f.bytes text))) := by
              have later := onward.refresh
              rwa [again] at later
            dsimp only
            rw [again]
            dsimp only
            rw [foundNew]
            exact ⟨_, rfl, Effect.inserted found rfl all value seq capsule raw read', followsNew,
              Handle.Indexed.notAhead (indexed_indexOf read').1⟩

/-- What a write does to the file and its entries. -/
theorem Effect.grows (lawful : packages.Lawful) {f f' : File} {index : Handle Time}
    (read : indexOf packages (some f) = .ok index) {line : Dict} {requireRecord : Bool} {text : String}
    (accepted : Accepted packages line requireRecord text)
    {stopped : Bool} {written : Option Nat} {answer : Except WriteError (AppendResult Time)}
    (effect : Effect packages stopped f index line text requireRecord written answer f') :
    ∃ more index' added, f' = f.extended more ∧ indexOf packages (some f') = .ok index' ∧
      index'.all = index.all ++ added ∧
      (added = [] ∨ ∃ new, added = [new] ∧ new.entry.value = valueOf line ∧
        held index line = none) := by
  have same : ∃ more index' added, f = f.extended more ∧ indexOf packages (some f) = .ok index' ∧
      index'.all = index.all ++ added ∧
      (added = [] ∨ ∃ new, added = [new] ∧ new.entry.value = valueOf line ∧
        held index line = none) := by
    refine ⟨[], index, [], ?_, read, (List.append_nil _).symm, Or.inl rfl⟩
    rw [File.extended, List.append_nil]
  cases effect with
  | refused _ _ => exact same
  | conflict _ _ => exact same
  | idempotent _ _ _ => exact same
  | torn absent _ =>
      rename_i n _
      rcases index_torn lawful read accepted.dumped accepted.value n with
        ⟨index', added, read', all, none | ⟨new, isNew, value⟩⟩
      · exact ⟨_, index', added, rfl, read', all, Or.inl none⟩
      · exact ⟨_, index', added, rfl, read', all, Or.inr ⟨new, isNew, value, absent⟩⟩
  | inserted absent _ all value _ _ _ read' =>
      exact ⟨_, _, _, rfl, read', all, Or.inr ⟨_, rfl, value, absent⟩⟩

/-- A write has an effect, or it is turned down and at most reads on. -/
theorem write_cases (stopped : Bool) {file : Option File}
    {handle : Handle Time} (follows : handle.Follows packages file) (line : Dict)
    (requireRecord : Bool) (written : Option Nat) :
    ((∃ error, (write packages stopped file handle line requireRecord written).1 = .error error) ∧
      (write packages stopped file handle line requireRecord written).2.1 = file ∧
      ((write packages stopped file handle line requireRecord written).2.2 = handle ∨
        (write packages stopped file handle line requireRecord written).2.2 =
          (handle.refresh packages file).2)) ∨
    ∃ f index text, file = some f ∧ indexOf packages (some f) = .ok index ∧
      Accepted packages line requireRecord text := by
  rw [write]
  split
  · next id named =>
      split
      · exact Or.inl ⟨⟨_, rfl⟩, rfl, Or.inl rfl⟩
      · next passes =>
          rcases not_or.mp passes with ⟨valid, record⟩
          cases dumped : packages.dumps line with
          | error why => exact Or.inl ⟨⟨_, rfl⟩, rfl, Or.inl rfl⟩
          | ok text =>
              dsimp only
              rw [refresh_eq follows]
              cases read : indexOf packages file with
              | error error => exact Or.inl ⟨⟨_, rfl⟩, rfl, Or.inr rfl⟩
              | ok index =>
                  cases file with
                  | none =>
                      have empty := (indexed_indexOf read).2.2 rfl
                      rw [empty]
                      exact Or.inl ⟨⟨_, rfl⟩, rfl, Or.inr rfl⟩
                  | some f =>
                      right
                      refine ⟨f, index, text, rfl, read, ⟨id, named, ?_⟩, ?_, dumped⟩
                      · exact (Bool.not_eq_false _).mp valid
                      · exact (Bool.not_eq_true _).mp record
  · exact Or.inl ⟨⟨_, rfl⟩, rfl, Or.inl rfl⟩

/-! ## The machine -/

/-- A file and the handles on it, of one process or several. -/
structure State (Time : Type) where
  file : Option File
  handles : Nat → Handle Time

/-- What happens: a handle reads on or writes; or something else writes behind the file, puts
another file in its place, removes it or cuts it. -/
inductive Op where
  | refresh (i : Nat)
  | write (i : Nat) (line : Dict) (requireRecord : Bool) (written : Option Nat)
  | append (bytes : Bytes)
  | replace (f : File)
  | remove
  | cut (n : Nat)

inductive Answer (Time : Type) where
  | refreshed (result : Except LedgerError Unit)
  | wrote (result : Except WriteError (AppendResult Time))
  | changed

/-- The answer to a write by a handle, and the state after it. -/
def State.write (packages : Packages Time) (stopped : Bool) (s : State Time) (i : Nat) (line : Dict)
    (requireRecord : Bool) (written : Option Nat) :
    Except WriteError (AppendResult Time) × State Time :=
  let result := FlatLedger.write packages stopped s.file (s.handles i) line requireRecord written
  (result.1, ⟨result.2.1, Function.update s.handles i result.2.2⟩)

def step (packages : Packages Time) (stopped : Bool) (s : State Time) : Op → Answer Time × State Time
  | .refresh i =>
      let result := (s.handles i).refresh packages s.file
      (.refreshed result.1, { s with handles := Function.update s.handles i result.2 })
  | .write i line requireRecord written =>
      let result := s.write packages stopped i line requireRecord written
      (.wrote result.1, result.2)
  | .append bytes => (.changed, { s with file := s.file.map (fun f => f.extended bytes) })
  | .replace f => (.changed, { s with file := some f })
  | .remove => (.changed, { s with file := none })
  | .cut n => (.changed, { s with file := s.file.map (fun f => { f with bytes := f.bytes.take n }) })

/-- Every handle follows the file. -/
def State.Followed (packages : Packages Time) (s : State Time) : Prop :=
  ∀ i, (s.handles i).Follows packages s.file

/-- No handle is ahead of the file. -/
def State.NotAhead (s : State Time) : Prop := ∀ i, (s.handles i).NotAhead s.file

/-- Nothing is written behind a file that was cut until every handle has read on, and a new file has
an inode that no handle knows. -/
def Watched (s : State Time) : Op → Prop
  | .write _ _ _ _ => s.NotAhead
  | .append _ => s.NotAhead
  | .replace f => ∀ i, (s.handles i).identity ≠ some f.identity
  | _ => True

theorem update_all (P : Handle Time → Prop) {handles : Nat → Handle Time} {i : Nat}
    {handle : Handle Time} (this : P handle) (others : ∀ j, P (handles j)) (j : Nat) :
    P (Function.update handles i handle j) := by
  by_cases same : j = i
  · rw [same, Function.update_self]
    exact this
  · rw [Function.update_of_ne same]
    exact others j

theorem followed_write (lawful : packages.Lawful) (stopped : Bool) {s : State Time}
    (followed : s.Followed packages) (notAhead : s.NotAhead) (i : Nat) (line : Dict)
    (requireRecord : Bool) (written : Option Nat) :
    (s.write packages stopped i line requireRecord written).2.Followed packages ∧
      (s.write packages stopped i line requireRecord written).2.NotAhead := by
  rw [State.write]
  dsimp only
  rcases write_cases stopped (followed i) line requireRecord written with
    ⟨-, file, handle⟩ | ⟨f, index, text, isFile, read, accepted⟩
  · constructor
    · intro j
      dsimp only
      rw [file]
      refine update_all (fun handle => handle.Follows packages s.file) ?_ followed j
      rcases handle with same | same
      · rw [same]
        exact followed i
      · rw [same]
        exact (followed i).refresh
    · intro j
      dsimp only
      rw [file]
      refine update_all (fun handle => handle.NotAhead s.file) ?_ notAhead j
      rcases handle with same | same
      · rw [same]
        exact notAhead i
      · rw [same]
        exact refresh_notAhead (followed i)
  · have follows := followed i
    rw [isFile] at follows
    rcases write_effect lawful stopped read follows accepted written with
      ⟨f', file, effect, follows', notAhead'⟩
    rcases effect.grows lawful read accepted with ⟨more, -, -, rfl, -⟩
    rw [isFile, file]
    constructor
    · intro j
      refine update_all (fun handle => handle.Follows packages (some (f.extended more))) follows'
        (fun k => ?_) j
      have other := followed k
      rw [isFile] at other
      have whole := notAhead k
      rw [isFile] at whole
      exact other.append more (whole f rfl)
    · intro j
      refine update_all (fun handle => handle.NotAhead (some (f.extended more))) notAhead'
        (fun k => ?_) j
      have whole := notAhead k
      rw [isFile] at whole
      exact whole.append more

end

/-! ## Lines of an id -/

namespace SampleLines

/-- What is in front of the id, and behind it. -/
def opening : List Char := "\x7b\"capsule_id\":\"".toList

def closing : List Char := "\"\x7d".toList

/-- `json.dumps` of a line with an id and nothing else. -/
def dumps : Dict → Except String String
  | [("capsule_id", .str id)] =>
      if ArtifactStore.validId id then .ok (String.ofList (opening ++ id.toList ++ closing))
      else .error "no id"
  | _ => .error "no line"

/-- `json.loads` of what is written for such a line. -/
def loads (text : String) : Except LoadsError Value :=
  if text.toList.length = 81 then
    .ok (.dict [("capsule_id", .str (String.ofList ((text.toList.drop 15).take 64)))])
  else .error .decode

def packages : Packages Nat := ⟨loads, dumps, fun _ _ => none, 0⟩

theorem dumps_cases {obj : Dict} {text : String} (dumped : dumps obj = .ok text) :
    ∃ id, obj = [("capsule_id", .str id)] ∧ ArtifactStore.validId id = true ∧
      text.toList = opening ++ id.toList ++ closing := by
  unfold dumps at dumped
  split at dumped
  · next id =>
      split at dumped
      · next valid =>
          cases dumped
          exact ⟨id, rfl, valid, String.toList_ofList⟩
      · cases dumped
  · cases dumped

theorem hexDigit_printable : ∀ n < 16, 0x20 ≤ (Sha256.hexDigit n).toNat ∧
    (Sha256.hexDigit n).toNat < 0x7F := by decide

/-- A printable ASCII character. -/
def isPrintable (c : Char) : Bool := 0x20 ≤ c.toNat && c.toNat < 0x7F

theorem printable_of_all {text : List Char} (all : text.all isPrintable = true) :
    ∀ c ∈ text, 0x20 ≤ c.toNat ∧ c.toNat < 0x7F := by
  intro c inside
  have printable := List.all_eq_true.mp all c inside
  rwa [isPrintable, Bool.and_eq_true, decide_eq_true_eq, decide_eq_true_eq] at printable

theorem hex_printable (bytes : Bytes) :
    ∀ c ∈ (Sha256.hex bytes).toList, 0x20 ≤ c.toNat ∧ c.toNat < 0x7F := by
  rw [Sha256.hex, String.toList_ofList]
  intro c inside
  rcases List.mem_flatMap.mp inside with ⟨b, -, digit⟩
  have small : b.toNat < 256 := b.toNat_lt
  rcases List.mem_cons.mp digit with rfl | digit
  · exact hexDigit_printable _ (by omega)
  · rw [List.mem_singleton.mp digit]
    exact hexDigit_printable _ (by omega)

theorem id_printable {id : String} (valid : ArtifactStore.validId id = true) :
    ∀ c ∈ id.toList, 0x20 ≤ c.toNat ∧ c.toNat < 0x7F := by
  rcases hex_of_validId valid with ⟨bytes, -, text, -⟩
  rw [← text]
  exact hex_printable bytes

theorem length_text {id : String} (valid : ArtifactStore.validId id = true) :
    (opening ++ id.toList ++ closing).length = 81 := by
  rcases hex_of_validId valid with ⟨-, -, -, -, long⟩
  rw [List.length_append, List.length_append, String.length_toList, long]
  rfl

theorem lawful : packages.Lawful where
  printable := by
    intro obj text dumped c inside
    rcases dumps_cases dumped with ⟨id, -, valid, chars⟩
    rw [chars] at inside
    rcases List.mem_append.mp inside with front | last
    · rcases List.mem_append.mp front with first | middle
      · exact printable_of_all (by decide) c first
      · exact id_printable valid c middle
    · exact printable_of_all (by decide) c last
  braces := by
    intro obj text dumped
    rcases dumps_cases dumped with ⟨id, -, -, chars⟩
    rw [chars]
    exact ⟨rfl, by rw [List.getLast?_append]; rfl⟩
  loads_dumps := by
    intro obj text dumped
    rcases dumps_cases dumped with ⟨id, rfl, valid, chars⟩
    have long := length_text valid
    rcases hex_of_validId valid with ⟨-, -, -, -, idLong⟩
    have middle : ((opening ++ id.toList ++ closing).drop 15).take 64 = id.toList := by
      rw [List.append_assoc, show (15 : Nat) = opening.length from rfl, List.drop_left,
        ← idLong, ← String.length_toList, List.take_left]
    show loads text = _
    rw [loads, chars, if_pos long, middle, String.ofList_toList]
  loads_front := by
    intro obj text dumped front part proper
    rcases dumps_cases dumped with ⟨id, -, valid, chars⟩
    have long := length_text valid
    rw [← chars] at long
    have shorter : front.length < 81 := by
      rw [← long]
      exact lt_of_le_of_ne part.length_le (fun same => proper (part.eq_of_length same))
    have stripped : (strip front).length ≤ front.length := by
      rw [strip, List.length_reverse]
      apply Nat.le_trans (List.dropWhile_sublist _).length_le
      rw [List.length_reverse]
      exact (List.dropWhile_sublist _).length_le
    show loads _ = _
    rw [loads, if_neg]
    rw [String.toList_ofList]
    omega

/-- A new ledger, and handles that have read nothing. -/
def start : State Nat := ⟨some ⟨(1, 1), []⟩, fun _ => Handle.reset⟩

theorem followed : start.Followed packages := fun _ => follows_reset _

theorem notAhead : start.NotAhead := fun _ _ _ none => nomatch none

def id : String := "00112233445566778899aabbccddeeff00112233445566778899aabbccddeeff"

def line : Dict := [("capsule_id", .str id)]

def text : String := String.ofList (opening ++ id.toList ++ closing)

theorem valid : ArtifactStore.validId id = true := by decide +kernel

theorem accepted : Accepted packages line true text where
  id := ⟨id, rfl, valid⟩
  record := rfl
  dumped := by
    show dumps line = _
    simp only [dumps, line, valid, if_true, text]

/-- The index of the new ledger. -/
def index : Handle Nat := ⟨[], [], 0, none, some (1, 1)⟩

theorem read : indexOf packages start.file = .ok index := rfl

/-- The line is written by a handle that has read nothing. -/
theorem written : ∃ answer, (start.write packages false 0 line true none).1 = .ok answer := by
  rcases write_effect lawful false read (followed 0) accepted none with ⟨f', -, effect, -⟩
  rw [State.write]
  have file : start.file = some ⟨(1, 1), []⟩ := rfl
  rw [file]
  dsimp only
  generalize (FlatLedger.write packages false (some ⟨(1, 1), []⟩) (start.handles 0) line true none).1 =
    result at effect ⊢
  cases effect with
  | refused _ retired => cases retired
  | conflict found _ => cases found
  | idempotent found _ _ => cases found
  | torn _ torn => cases torn
  | inserted _ _ _ _ _ _ _ _ => exact ⟨_, rfl⟩

end SampleLines

end FlatLedger
end CapsuleEmit
