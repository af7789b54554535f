import CapsuleEmit.FlatLedger.Runs

namespace CapsuleEmit
namespace FlatLedger

open Python (Dict Value)

/-!
# Laws of a flat ledger

An index that reads on is the index of the whole file, whatever wrote to the
file.  Handles alone make it grow by one entry for each new id, and answer the
same for an id ever after.
-/

section

variable {Time : Type} {packages : Packages Time}

/-! ## Any run -/

/-- Every step keeps the handles behind their file. -/
theorem followed_step (lawful : packages.Lawful) (stopped : Bool) {s : State Time} {op : Op}
    (followed : s.Followed packages) (watched : Watched s op) :
    (step packages stopped s op).2.Followed packages := by
  cases op with
  | refresh i =>
      intro j
      exact update_all (fun handle => handle.Follows packages s.file) (followed i).refresh followed j
  | write i line requireRecord written =>
      exact (followed_write lawful stopped followed watched i line requireRecord written).1
  | append bytes =>
      intro j
      have whole := watched j
      have before := followed j
      rw [step]
      dsimp only
      cases file : s.file with
      | none =>
          rw [file] at before
          exact before
      | some f =>
          rw [file] at before whole
          exact before.append bytes (whole f rfl)
  | replace f => exact fun j => (followed j).replace f (watched j)
  | remove => exact fun j => (followed j).remove
  | cut n =>
      intro j
      have before := followed j
      rw [step]
      dsimp only
      cases file : s.file with
      | none =>
          rw [file] at before
          exact before
      | some f =>
          rw [file] at before
          exact before.cut n

/-- An operation of a handle. -/
def Own : Op → Prop
  | .refresh _ => True
  | .write _ _ _ _ => True
  | _ => False

/-- A file that has grown by entries of ids that were not there. -/
structure Grown (packages : Packages Time) (f₀ : File) (index₀ : Handle Time) (s : State Time)
    (f : File) (index : Handle Time) (added : List (Line Time)) : Prop where
  followed : s.Followed packages
  notAhead : s.NotAhead
  file : s.file = some f
  longer : ∃ more, f = f₀.extended more
  read : indexOf packages (some f) = .ok index
  all : index.all = index₀.all ++ added
  once : (added.map (fun line => line.entry.value)).Nodup
  fresh : ∀ line ∈ added, ∀ before ∈ index₀.all, before.entry.value ≠ line.entry.value

theorem grown_start {f₀ : File} {index₀ : Handle Time} {s : State Time}
    (followed : s.Followed packages) (notAhead : s.NotAhead) (file : s.file = some f₀)
    (read : indexOf packages (some f₀) = .ok index₀) : Grown packages f₀ index₀ s f₀ index₀ [] where
  followed := followed
  notAhead := notAhead
  file := file
  longer := ⟨[], by rw [File.extended, List.append_nil]⟩
  read := read
  all := (List.append_nil _).symm
  once := List.nodup_nil
  fresh := fun _ inside => absurd inside List.not_mem_nil

/-- The value of a new entry is none of the entries'. -/
theorem absent_of_held {index : Handle Time} {line : Dict} (absent : held index line = none) :
    ∀ entry ∈ index.all, entry.entry.value ≠ valueOf line := by
  intro entry inside
  simpa using List.find?_eq_none.mp absent entry inside

theorem grown_step (lawful : packages.Lawful) (stopped : Bool) {f₀ f : File}
    {index₀ index : Handle Time} {s : State Time} {added : List (Line Time)}
    (grown : Grown packages f₀ index₀ s f index added) {op : Op} (own : Own op) :
    ∃ f' index' added',
      Grown packages f₀ index₀ (step packages stopped s op).2 f' index' (added ++ added') := by
  cases op with
  | refresh i =>
      refine ⟨f, index, [], ?_⟩
      rw [List.append_nil]
      refine { grown with followed := ?_, notAhead := ?_, file := grown.file }
      · exact fun j => update_all (fun handle => handle.Follows packages s.file)
          (grown.followed i).refresh grown.followed j
      · exact fun j => update_all (fun handle => handle.NotAhead s.file)
          (refresh_notAhead (grown.followed i)) grown.notAhead j
  | write i line requireRecord written =>
      rcases followed_write lawful stopped grown.followed grown.notAhead i line requireRecord
        written with ⟨followed, notAhead⟩
      rcases write_cases stopped (grown.followed i) line requireRecord written with
        ⟨-, file, -⟩ | ⟨g, index', text, isFile, read, accepted⟩
      · refine ⟨f, index, [], ?_⟩
        rw [List.append_nil]
        exact { grown with followed := followed, notAhead := notAhead, file := file.trans grown.file }
      · rw [grown.file] at isFile
        cases isFile
        have follows := grown.followed i
        rw [grown.file] at follows
        rcases write_effect lawful stopped grown.read follows accepted written with
          ⟨f', file, effect, -⟩
        rcases effect.grows lawful grown.read accepted with
          ⟨more, index'', new, isMore, read', all, shape⟩
        have file' : (step packages stopped s (.write i line requireRecord written)).2.file =
            some f' := by
          rw [← file, ← grown.file]
          rfl
        refine ⟨f', index'', new, ⟨followed, notAhead, file', ?_, read', ?_, ?_, ?_⟩⟩
        · rcases grown.longer with ⟨before, isBefore⟩
          exact ⟨before ++ more, by rw [isMore, isBefore, extended_extended]⟩
        · rw [all, grown.all, List.append_assoc]
        · rcases shape with rfl | ⟨entry, rfl, value, absent⟩
          · rw [List.append_nil]
            exact grown.once
          · rw [List.map_append, List.map_singleton, ← List.concat_eq_append]
            apply List.Nodup.concat _ grown.once
            intro inside
            rcases List.mem_map.mp inside with ⟨other, member, same⟩
            apply absent_of_held absent other
            · rw [grown.all]
              exact List.mem_append_right _ member
            · rw [same, value]
        · intro other inside before earlier
          rcases List.mem_append.mp inside with member | last
          · exact grown.fresh other member before earlier
          · rcases shape with rfl | ⟨entry, rfl, value, absent⟩
            · exact absurd last List.not_mem_nil
            · rw [List.mem_singleton.mp last, value]
              apply absent_of_held absent before
              rw [grown.all]
              exact List.mem_append_left _ earlier
  | append bytes => exact own.elim
  | replace g => exact own.elim
  | remove => exact own.elim
  | cut n => exact own.elim

theorem grown_run (lawful : packages.Lawful) (stopped : Bool) {f₀ f : File}
    {index₀ index : Handle Time} {s : State Time} {added : List (Line Time)}
    (grown : Grown packages f₀ index₀ s f index added) {ops : List Op} (own : ∀ op ∈ ops, Own op) :
    ∃ f' index' added', Grown packages f₀ index₀ (Machine.after (step packages stopped) s ops)
      f' index' (added ++ added') := by
  induction ops generalizing s f index added with
  | nil => exact ⟨f, index, [], by rw [List.append_nil]; exact grown⟩
  | cons op ops ih =>
      rcases grown_step lawful stopped grown (own op List.mem_cons_self) with
        ⟨f', index', added', next⟩
      rcases ih next (fun other inside => own other (List.mem_cons_of_mem _ inside)) with
        ⟨f'', index'', added'', last⟩
      refine ⟨f'', index'', added' ++ added'', ?_⟩
      rw [← List.append_assoc]
      exact last

/-- A run of handles alone makes the file grow by entries of new ids, each id once, numbered on from
those before; and a write has one of the effects on it, or its line is turned down. -/
theorem append_only (lawful : packages.Lawful) (stopped : Bool) {f₀ : File} {index₀ : Handle Time}
    {s : State Time} (followed : s.Followed packages) (notAhead : s.NotAhead)
    (file : s.file = some f₀) (read : indexOf packages (some f₀) = .ok index₀) {ops : List Op}
    (own : ∀ op ∈ ops, Own op) :
    ∃ f index added,
      Grown packages f₀ index₀ (Machine.after (step packages stopped) s ops) f index added ∧
      index.all.map (fun line => line.entry.seq) = List.range' 1 index.all.length ∧
      ∀ i line requireRecord written,
        (∃ error, ((Machine.after (step packages stopped) s ops).write packages stopped i line
            requireRecord written).1 = .error error ∧
          ((Machine.after (step packages stopped) s ops).write packages stopped i line requireRecord
            written).2.file = some f ∧ ∀ text, ¬Accepted packages line requireRecord text) ∨
        ∃ text f', Accepted packages line requireRecord text ∧
          ((Machine.after (step packages stopped) s ops).write packages stopped i line requireRecord
            written).2.file = some f' ∧
          Effect packages stopped f index line text requireRecord written
            ((Machine.after (step packages stopped) s ops).write packages stopped i line
              requireRecord written).1 f' := by
  rcases grown_run lawful stopped (grown_start followed notAhead file read) own with
    ⟨f, index, added, grown⟩
  rw [List.nil_append] at grown
  generalize Machine.after (step packages stopped) s ops = s' at grown
  refine ⟨f, index, added, grown, (placed_indexOf grown.read).2, fun i line requireRecord written => ?_⟩
  have follows := grown.followed i
  by_cases accepted : ∃ text, Accepted packages line requireRecord text
  · rcases accepted with ⟨text, accepted⟩
    right
    rw [grown.file] at follows
    rcases write_effect lawful stopped grown.read follows accepted written with ⟨f', after, effect, -⟩
    rw [← grown.file] at after effect
    exact ⟨text, f', accepted, after, effect⟩
  · left
    rcases write_cases stopped follows line requireRecord written with
      ⟨⟨error, failed⟩, after, -⟩ | ⟨g, index', text, -, -, admitted⟩
    · exact ⟨error, failed, after.trans grown.file, fun text admitted => accepted ⟨text, admitted⟩⟩
    · exact absurd ⟨text, admitted⟩ accepted

/-- One handle stops in the middle of the sample line, another writes it. -/
theorem append_only_sample :
    ∃ f index added,
      Grown SampleLines.packages ⟨(1, 1), []⟩ SampleLines.index
        (Machine.after (step SampleLines.packages false) SampleLines.start
          [.write 0 SampleLines.line true (some 20), .write 1 SampleLines.line true none]) f index
        added ∧
      index.all.map (fun line => line.entry.seq) = List.range' 1 index.all.length ∧
      ∀ i line requireRecord written,
        (∃ error, ((Machine.after (step SampleLines.packages false) SampleLines.start
            [.write 0 SampleLines.line true (some 20), .write 1 SampleLines.line true none]).write
              SampleLines.packages false i line requireRecord written).1 = .error error ∧
          ((Machine.after (step SampleLines.packages false) SampleLines.start
            [.write 0 SampleLines.line true (some 20), .write 1 SampleLines.line true none]).write
              SampleLines.packages false i line requireRecord written).2.file = some f ∧
          ∀ text, ¬Accepted SampleLines.packages line requireRecord text) ∨
        ∃ text f', Accepted SampleLines.packages line requireRecord text ∧
          ((Machine.after (step SampleLines.packages false) SampleLines.start
            [.write 0 SampleLines.line true (some 20), .write 1 SampleLines.line true none]).write
              SampleLines.packages false i line requireRecord written).2.file = some f' ∧
          Effect SampleLines.packages false f index line text requireRecord written
            ((Machine.after (step SampleLines.packages false) SampleLines.start
              [.write 0 SampleLines.line true (some 20), .write 1 SampleLines.line true none]).write
                SampleLines.packages false i line requireRecord written).1 f' := by
  have own : ∀ op ∈ [Op.write 0 SampleLines.line true (some 20),
      Op.write 1 SampleLines.line true none], Own op := by
    intro op inside
    rcases List.mem_cons.mp inside with rfl | inside
    · trivial
    · rw [List.mem_singleton.mp inside]
      trivial
  exact append_only SampleLines.lawful false SampleLines.followed SampleLines.notAhead rfl
    SampleLines.read own

/-- The entry that a write of a line is answered with, in the file after it. -/
theorem held_of_answered {stopped : Bool} {f f' : File}
    {index : Handle Time} (read : indexOf packages (some f) = .ok index) {line : Dict}
    {requireRecord : Bool} {text : String} (accepted : Accepted packages line requireRecord text)
    {written : Option Nat} {answer : AppendResult Time}
    (effect : Effect packages stopped f index line text requireRecord written (.ok answer) f') :
    ∃ index' entry, indexOf packages (some f') = .ok index' ∧ held index' line = some entry ∧
      entry.entry = answer.entry ∧ (requireRecord && !entry.capsule) = false ∧
      readRaw (some f') entry = utf8 text := by
  cases effect with
  | idempotent found record raw => exact ⟨index, _, read, found, rfl, record, raw⟩
  | inserted absent _ all value _ capsule raw read' =>
      refine ⟨_, _, read', ?_, rfl, ?_, raw⟩
      · rw [held] at absent ⊢
        rw [all, List.find?_append, absent, Option.none_or]
        exact List.find?_cons_of_pos (by rw [value]; exact decide_eq_true rfl)
      · rw [capsule]
        exact accepted.record

/-- Once a write of a line was answered with an entry, every later write of the line, by any handle
after any run of handles, is answered with that entry and changes nothing; and a write of another
line under the id is a conflict and changes nothing. -/
theorem answered_ever_after (lawful : packages.Lawful) (stopped : Bool) {f₀ : File}
    {index₀ : Handle Time} {s : State Time} (followed : s.Followed packages)
    (notAhead : s.NotAhead) (file : s.file = some f₀)
    (read : indexOf packages (some f₀) = .ok index₀) {line : Dict} {requireRecord : Bool}
    {text : String} (accepted : Accepted packages line requireRecord text) {i : Nat}
    {written : Option Nat} {answer : AppendResult Time}
    (answered : (s.write packages stopped i line requireRecord written).1 = .ok answer)
    {ops : List Op} (own : ∀ op ∈ ops, Own op) {later : State Time}
    (isLater : later = Machine.after (step packages stopped)
      (s.write packages stopped i line requireRecord written).2 ops) (j : Nat)
    (written' : Option Nat) :
    ((later.write packages stopped j line requireRecord written').1 = .ok ⟨answer.entry, false⟩ ∧
      (later.write packages stopped j line requireRecord written').2.file = later.file) ∧
    ∀ other requireRecord' text', Accepted packages other requireRecord' text' →
      valueOf other = valueOf line → text' ≠ text →
      (later.write packages stopped j other requireRecord' written').1 = .error .conflict ∧
        (later.write packages stopped j other requireRecord' written').2.file = later.file := by
  have follows := followed i
  rw [file] at follows
  rcases write_effect lawful stopped read follows accepted written with ⟨f₁, file₁, effect, -⟩
  rw [← file] at file₁ effect
  have result : (write packages stopped s.file (s.handles i) line requireRecord written).1 =
      .ok answer := answered
  rw [result] at effect
  rcases held_of_answered read accepted effect with
    ⟨index₁, entry, read₁, found, same, record, raw⟩
  rcases followed_write lawful stopped followed notAhead i line requireRecord written with
    ⟨followed₁, notAhead₁⟩
  rcases grown_run lawful stopped (grown_start followed₁ notAhead₁ file₁ read₁) own with
    ⟨f, index, added, grown⟩
  rw [← isLater] at grown
  -- the entry is still the first with its id, and its bytes are where they were
  have foundLater : held index line = some entry := by
    rw [held] at found ⊢
    rw [grown.all, List.find?_append, found, Option.some_or]
  have rawLater : readRaw (some f) entry = utf8 text := by
    rcases grown.longer with ⟨more, rfl⟩
    have within := (placed_indexOf read₁).1 entry (List.mem_of_find?_eq_some found)
    rw [readRaw_extended more within, raw]
  have followsLater := grown.followed j
  rw [grown.file] at followsLater
  constructor
  · rcases write_effect lawful stopped grown.read followsLater accepted written' with
      ⟨f', file', effect', -⟩
    rw [State.write, grown.file]
    dsimp only
    generalize write packages stopped (some f) (later.handles j) line requireRecord written' = outcome
      at file' effect'
    rcases outcome with ⟨result', fileAfter, handle'⟩
    dsimp only at file' effect' ⊢
    cases effect' with
    | refused absent _ => rw [foundLater] at absent; cases absent
    | conflict held' differs =>
        rw [foundLater] at held'
        cases held'
        rcases differs with refused | differs
        · rw [record] at refused
          cases refused
        · exact absurd rawLater differs
    | idempotent held' _ _ =>
        rw [foundLater] at held'
        cases held'
        rw [same]
        exact ⟨rfl, file'⟩
    | torn absent _ => rw [foundLater] at absent; cases absent
    | inserted absent _ _ _ _ _ _ _ => rw [foundLater] at absent; cases absent
  · intro other requireRecord' text' acceptedOther sameId differs
    have foundOther : held index other = some entry := by
      rw [← foundLater, held, held, sameId]
    rcases write_effect lawful stopped grown.read followsLater acceptedOther written' with
      ⟨f', file', effect', -⟩
    rw [State.write, grown.file]
    dsimp only
    generalize write packages stopped (some f) (later.handles j) other requireRecord' written' = outcome
      at file' effect'
    rcases outcome with ⟨result', fileAfter, handle'⟩
    dsimp only at file' effect' ⊢
    cases effect' with
    | refused absent _ => rw [foundOther] at absent; cases absent
    | conflict _ _ => exact ⟨rfl, file'⟩
    | idempotent held' _ raw' =>
        rw [foundOther] at held'
        cases held'
        rw [rawLater] at raw'
        exact absurd (utf8_injective raw').symm differs
    | torn absent _ => rw [foundOther] at absent; cases absent
    | inserted absent _ _ _ _ _ _ _ => rw [foundOther] at absent; cases absent

/-- The sample line is answered with its entry after another handle has written it again. -/
theorem answered_ever_after_sample :
    ∃ answer, (SampleLines.start.write SampleLines.packages false 0 SampleLines.line true none).1 =
        .ok answer ∧
      ∃ later, later = Machine.after (step SampleLines.packages false)
          (SampleLines.start.write SampleLines.packages false 0 SampleLines.line true none).2
          [.write 1 SampleLines.line true none] ∧
        ((later.write SampleLines.packages false 2 SampleLines.line true none).1 =
            .ok ⟨answer.entry, false⟩ ∧
          (later.write SampleLines.packages false 2 SampleLines.line true none).2.file =
            later.file) ∧
        ∀ other requireRecord' text', Accepted SampleLines.packages other requireRecord' text' →
          valueOf other = valueOf SampleLines.line → text' ≠ SampleLines.text →
          (later.write SampleLines.packages false 2 other requireRecord' none).1 =
              .error .conflict ∧
            (later.write SampleLines.packages false 2 other requireRecord' none).2.file =
              later.file := by
  rcases SampleLines.written with ⟨answer, answered⟩
  have own : ∀ op ∈ [Op.write 1 SampleLines.line true none], Own op := by
    intro op inside
    rw [List.mem_singleton.mp inside]
    trivial
  exact ⟨answer, answered, _, rfl, answered_ever_after SampleLines.lawful false
    SampleLines.followed SampleLines.notAhead rfl SampleLines.read SampleLines.accepted answered own
    rfl 2 none⟩

end

end FlatLedger
end CapsuleEmit
