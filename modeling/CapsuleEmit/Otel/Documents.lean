import CapsuleEmit.ArtifactStore.StrictJson
import CapsuleEmit.Foundation.PythonLines
import CapsuleEmit.Foundation.ScannedLines
import CapsuleEmit.Produce.Validation

namespace CapsuleEmit
namespace Otel

open Scanner (Tree Stop Hooks scanText)
open Python (Unbroken splitlines terminatedLines)

/-!
# The documents of an export

A trace export is one OTLP document, or one on each line.  The importer tries
the whole text first, and its lines when the text is no JSON; a line is what
`str.splitlines` takes for one.  Every document is checked before a span is
sealed.

A text that starts with a document is that document, or no JSON at all, so
trying the whole text first never gets in the way of its lines.
-/

/-! ## Texts -/

/-- What is taken from the interpreter: the levels the decoder follows, the value of a number,
which may be an infinity, `int` and `float` on texts, and the time of a nanosecond as text. -/
structure Interpreter where
  levels : Option Nat
  number : JsonNumber → Option Rat
  int : Bytes → Option Int
  float : Bytes → Bool
  rfc3339 : Int → String

variable (interpreter : Interpreter)

/-- Integers that are too long are an error of their own. -/
def hooks : Hooks := ⟨interpreter.levels, ArtifactStore.Python.converts, fun _ => true⟩

/-- `json.loads(text)` -/
def jsonLoads (text : List Char) : Except Stop Tree :=
  scanText (hooks interpreter) (text.flatMap String.utf8EncodeChar)

/-- `not line.strip()` -/
def isBlank (line : List Char) : Bool := Produce.pythonBlank (String.ofList line)

/-- Why a file is refused. -/
inductive Refusal where
  | notUtf8
  | stopped (stop : Stop)
  | notOtlp (why : String)
  deriving DecidableEq

/-- The documents of a text: the text, or each line of it that is not blank. -/
def textDocuments (text : List Char) : Except Stop (List Tree) :=
  match jsonLoads interpreter text with
  | .ok doc => .ok [doc]
  | .error .malformed =>
      ((splitlines text).filter (fun line => !isBlank line)).mapM (jsonLoads interpreter)
  | .error stop => .error stop

/-! ## Members -/

/-- `parent.get(key)`, where `None` is no value. -/
def member (parent : Tree) (key : String) : Option Tree :=
  match parent with
  | .object members =>
      ((members.reverse.find? (fun member => member.1 = utf8 key)).map Prod.snd).filter
        (fun value => match value with | .null => false | _ => true)
  | _ => none

def isMapping : Tree → Bool
  | .object _ => true
  | _ => false

def isList : Tree → Bool
  | .array _ => true
  | _ => false

/-- `_members` -/
def membersOf (parent : Tree) (key : String) (objects : Bool) : Except Refusal (List Tree) :=
  match member parent key with
  | none => .ok []
  | some (.array items) =>
      if objects && !items.all isMapping then
        .error (.notOtlp ("'" ++ key ++ "' must be a list of objects"))
      else .ok items
  | some _ => .error (.notOtlp ("'" ++ key ++ "' must be a list" ++
      (if objects then " of objects" else "")))

/-- The attributes of the resource: what is under `attributes`, if anything. -/
def resourceOf (rs : Tree) : Except Refusal (Option Tree) :=
  match member rs "resource" with
  | none => .ok none
  | some (.object members) => .ok (member (.object members) "attributes")
  | some _ => .error (.notOtlp "\"resource\" must be an object")

/-- The spans of one entry of `resourceSpans`, each with the attributes of its resource. -/
def resourceSpans (rs : Tree) : Except Refusal (List (Option Tree × Tree)) := do
  let attributes ← resourceOf rs
  let scopes ← membersOf rs "scopeSpans" true
  let spans ← scopes.mapM (fun ss => membersOf ss "spans" false)
  return spans.flatten.map (fun span => (attributes, span))

/-- The spans of a document. -/
def documentSpans (doc : Tree) : Except Refusal (List (Option Tree × Tree)) := do
  let entries ← membersOf doc "resourceSpans" true
  let spans ← entries.mapM resourceSpans
  return spans.flatten

/-- `_documents` -/
def documents (raw : Bytes) : Except Refusal (List Tree) := do
  let text ← (utf8? raw).elim (.error .notUtf8) .ok
  let docs ← (textDocuments interpreter text.toList).mapError .stopped
  ensure (docs.all (fun doc =>
      isMapping doc && ((member doc "resourceSpans").map isList).getD false))
    (.notOtlp "expected a \"resourceSpans\" list")
  return docs

/-- The spans of a file, each with the attributes of its resource. -/
def fileSpans (raw : Bytes) : Except Refusal (List (Option Tree × Tree)) := do
  let docs ← documents interpreter raw
  let spans ← docs.mapM documentSpans
  return spans.flatten

/-! ## What an export is -/

/-- Under a key is nothing, or a list of what is asked for. -/
def ListOf (p : Tree → Prop) (parent : Tree) (key : String) : Prop :=
  ∀ value, member parent key = some value → ∃ items, value = .array items ∧ ∀ item ∈ items, p item

def IsScope (ss : Tree) : Prop := isMapping ss = true ∧ ListOf (fun _ => True) ss "spans"

def IsResource (rs : Tree) : Prop :=
  isMapping rs = true ∧
    (∀ value, member rs "resource" = some value → isMapping value = true) ∧
    ListOf IsScope rs "scopeSpans"

/-- An OTLP document: an object with a list of resource spans, all the way down to the lists
of spans. -/
def IsExport (doc : Tree) : Prop :=
  isMapping doc = true ∧ (member doc "resourceSpans").isSome = true ∧
    ListOf IsResource doc "resourceSpans"

variable {interpreter}

theorem mapM_succeeds_iff {ε α β : Type} {f : α → Except ε β} {items : List α} :
    (∃ results, items.mapM f = .ok results) ↔ ∀ a ∈ items, ∃ b, f a = .ok b := by
  constructor
  · rintro ⟨results, ok⟩ a inside
    rcases exists_of_forall₂ (forall₂_of_mapM ok).flip inside with ⟨b, -, read⟩
    exact ⟨b, read⟩
  · exact mapM_total

theorem membersOf_eq_ok_iff {parent : Tree} {key : String} {objects : Bool} {items : List Tree} :
    membersOf parent key objects = .ok items ↔
      (member parent key = none ∧ items = []) ∨
        member parent key = some (.array items) ∧
          (objects = true → items.all isMapping = true) := by
  unfold membersOf
  cases there : member parent key with
  | none =>
      simp only [Except.ok.injEq, true_and, reduceCtorEq, false_and, or_false]
      exact eq_comm
  | some value =>
      cases value with
      | array found =>
          simp only [Option.some.injEq, Tree.array.injEq, reduceCtorEq, false_and, false_or]
          split
          · next bad =>
              rw [Bool.and_eq_true, Bool.not_eq_true'] at bad
              simp only [reduceCtorEq, false_iff, not_and]
              rintro rfl
              simp [bad]
          · next good =>
              rw [Bool.and_eq_true, Bool.not_eq_true', not_and, Bool.not_eq_false] at good
              rw [Except.ok.injEq]
              constructor
              · rintro rfl
                exact ⟨rfl, good⟩
              · exact And.left
      | _ => simp

theorem membersOf_succeeds {parent : Tree} {key : String} {p : Tree → Prop} {objects : Bool}
    (listed : ListOf p parent key)
    (mapped : objects = true → ∀ item, p item → isMapping item = true) :
    ∃ items, membersOf parent key objects = .ok items ∧ ∀ item ∈ items, p item := by
  cases there : member parent key with
  | none => exact ⟨[], membersOf_eq_ok_iff.mpr (Or.inl ⟨there, rfl⟩), nofun⟩
  | some value =>
      rcases listed value there with ⟨items, rfl, all⟩
      refine ⟨items, membersOf_eq_ok_iff.mpr (Or.inr ⟨there, fun needed => ?_⟩), all⟩
      exact List.all_eq_true.mpr (fun item inside => mapped needed item (all item inside))

theorem listOf_of_membersOf {parent : Tree} {key : String} {p : Tree → Prop} {objects : Bool}
    {items : List Tree} (ok : membersOf parent key objects = .ok items)
    (all : ∀ item ∈ items, (objects = true → isMapping item = true) → p item) :
    ListOf p parent key := by
  intro value there
  rcases membersOf_eq_ok_iff.mp ok with ⟨absent, -⟩ | ⟨found, mapped⟩
  · rw [absent] at there
    cases there
  · rw [found] at there
    cases there
    exact ⟨items, rfl, fun item inside =>
      all item inside (fun needed => List.all_eq_true.mp (mapped needed) item inside)⟩

theorem resourceOf_succeeds_iff {rs : Tree} : (∃ attributes, resourceOf rs = .ok attributes) ↔
    ∀ value, member rs "resource" = some value → isMapping value = true := by
  unfold resourceOf
  cases there : member rs "resource" with
  | none => simp
  | some value => cases value <;> simp [isMapping]

theorem resourceSpans_succeeds_iff {rs : Tree} (mapping : isMapping rs = true) :
    (∃ spans, resourceSpans rs = .ok spans) ↔ IsResource rs := by
  constructor
  · rintro ⟨spans, ok⟩
    rcases bind_eq_ok_iff.mp ok with ⟨attributes, resource, ok⟩
    rcases bind_eq_ok_iff.mp ok with ⟨scopes, listed, ok⟩
    rcases bind_eq_ok_iff.mp ok with ⟨found, each, -⟩
    refine ⟨mapping, resourceOf_succeeds_iff.mp ⟨attributes, resource⟩, ?_⟩
    apply listOf_of_membersOf listed
    intro ss inside mapped
    rcases mapM_succeeds_iff.mp ⟨found, each⟩ ss inside with ⟨inner, read⟩
    exact ⟨mapped rfl, listOf_of_membersOf read (fun _ _ _ => trivial)⟩
  · rintro ⟨-, resource, listed⟩
    rcases resourceOf_succeeds_iff.mpr resource with ⟨attributes, first⟩
    rcases @membersOf_succeeds _ _ _ true listed (fun _ _ scope => scope.1) with
      ⟨scopes, second, all⟩
    have each : ∀ ss ∈ scopes, ∃ spans, membersOf ss "spans" false = .ok spans := by
      intro ss inside
      rcases @membersOf_succeeds _ _ _ false (all ss inside).2 nofun with ⟨spans, read, -⟩
      exact ⟨spans, read⟩
    rcases mapM_total each with ⟨spans, third⟩
    exact ⟨_, by rw [resourceSpans, first, ok_bind, second, ok_bind, third]; rfl⟩

/-- The spans of a document are read exactly when it is an export. -/
theorem isExport_iff {doc : Tree} : IsExport doc ↔
    (isMapping doc && ((member doc "resourceSpans").map isList).getD false) = true ∧
      ∃ spans, documentSpans doc = .ok spans := by
  constructor
  · rintro ⟨mapping, there, listed⟩
    rcases Option.isSome_iff_exists.mp there with ⟨value, found⟩
    rcases listed value found with ⟨items, rfl, all⟩
    refine ⟨by rw [mapping, found]; rfl, ?_⟩
    rcases @membersOf_succeeds _ _ _ true listed (fun _ _ resource => resource.1) with
      ⟨entries, first, each⟩
    rcases mapM_total (fun rs inside =>
      (resourceSpans_succeeds_iff (each rs inside).1).mpr (each rs inside)) with ⟨spans, second⟩
    exact ⟨_, by rw [documentSpans, first, ok_bind, second]; rfl⟩
  · rintro ⟨shape, spans, ok⟩
    rw [Bool.and_eq_true] at shape
    rcases bind_eq_ok_iff.mp ok with ⟨entries, listed, ok⟩
    rcases bind_eq_ok_iff.mp ok with ⟨found, each, -⟩
    refine ⟨shape.1, ?_, ?_⟩
    · cases there : member doc "resourceSpans" with
      | none =>
          rw [there] at shape
          cases shape.2
      | some value => rfl
    · apply listOf_of_membersOf listed
      intro rs inside mapped
      exact (resourceSpans_succeeds_iff (mapped rfl)).mp
        (mapM_succeeds_iff.mp ⟨found, each⟩ rs inside)

/-- A file is read exactly when the documents of its text are exports. -/
theorem fileSpans_succeeds_iff {raw : Bytes} : (∃ spans, fileSpans interpreter raw = .ok spans) ↔
    ∃ text docs, utf8? raw = some text ∧ textDocuments interpreter text.toList = .ok docs ∧
      ∀ doc ∈ docs, IsExport doc := by
  constructor
  · rintro ⟨spans, ok⟩
    rcases bind_eq_ok_iff.mp ok with ⟨docs, read, ok⟩
    rcases bind_eq_ok_iff.mp ok with ⟨found, each, -⟩
    rcases bind_eq_ok_iff.mp read with ⟨text, decoded, read⟩
    rcases bind_eq_ok_iff.mp read with ⟨parsed, loaded, read⟩
    rcases bind_eq_ok_iff.mp read with ⟨done, shaped, same⟩
    cases same
    rw [ensure_eq_ok_iff, List.all_eq_true] at shaped
    rw [mapError_eq_ok_iff] at loaded
    refine ⟨text, docs, ?_, loaded, fun doc inside => isExport_iff.mpr ⟨shaped doc inside, ?_⟩⟩
    · cases there : utf8? raw with
      | none => rw [there] at decoded; cases decoded
      | some other => rw [there] at decoded; cases decoded; rfl
    · exact mapM_succeeds_iff.mp ⟨found, each⟩ doc inside
  · rintro ⟨text, docs, decoded, loaded, all⟩
    rcases mapM_total (fun doc inside => (isExport_iff.mp (all doc inside)).2) with ⟨spans, each⟩
    have read : documents interpreter raw = .ok docs := by
      rw [documents, decoded]
      change ((textDocuments interpreter text.toList).mapError Refusal.stopped >>= _) = _
      rw [mapError_eq_ok_iff.mpr loaded, ok_bind]
      rw [List.all_eq_true.mpr (fun doc inside => (isExport_iff.mp (all doc inside)).1)]
      rfl
    exact ⟨_, by rw [fileSpans, read, ok_bind, each]; rfl⟩

/-! ## Which texts are read -/

/-- A text that is one OTLP document. -/
def IsDocument (interpreter : Interpreter) (text : List Char) : Prop :=
  ∃ doc, jsonLoads interpreter text = .ok doc ∧ IsExport doc

/-- A text that is one OTLP document, or has one on every line that is not blank. -/
def IsTrace (interpreter : Interpreter) (text : List Char) : Prop :=
  IsDocument interpreter text ∨
    ∀ line ∈ terminatedLines text, isBlank line = false → IsDocument interpreter line

theorem isDocument_iff {text : List Char} : IsDocument interpreter text ↔
    (jsonLoads interpreter text).toOption.any (fun doc => isMapping doc &&
      ((member doc "resourceSpans").map isList).getD false && (documentSpans doc).toBool) =
        true := by
  unfold IsDocument
  cases jsonLoads interpreter text with
  | error stop =>
      constructor
      · rintro ⟨doc, impossible, -⟩
        cases impossible
      · nofun
  | ok doc =>
      simp only [Except.ok.injEq, exists_eq_left', isExport_iff, Except.toOption, Option.any_some,
        Bool.and_eq_true]
      apply and_congr_right
      intro _
      cases documentSpans doc <;> simp [Except.toBool]

instance (text : List Char) : Decidable (IsDocument interpreter text) :=
  decidable_of_iff _ isDocument_iff.symm

instance (text : List Char) : Decidable (IsTrace interpreter text) :=
  decidable_of_iff (IsDocument interpreter text ∨
      (terminatedLines text).all (fun line => isBlank line || IsDocument interpreter line) = true)
    (or_congr_right (by
      simp only [List.all_eq_true, Bool.or_eq_true, decide_eq_true_eq, or_iff_not_imp_left,
        Bool.not_eq_true]))

/-- A text that, where it is no JSON, has no other end of a line than LF and CR LF. -/
def Even (interpreter : Interpreter) (text : List Char) : Prop :=
  jsonLoads interpreter text = .error .malformed → ∀ line ∈ terminatedLines text, Unbroken line

/-- The first byte of a character that is white space to Python and not to JSON starts no
token. -/
theorem startsNone_of_blank {c : Char}
    (blank : (Produce.isWhiteSpace c || Produce.isSeparator c) = true) :
    (String.utf8EncodeChar c).all JsonText.isSpace = true ∨
      ∃ b rest, String.utf8EncodeChar c = b :: rest ∧ JsonText.isSpace b = false ∧
        (b ≠ 123 ∧ b ≠ 91 ∧ b ≠ 34) ∧ b ∉ [110, 116, 102, 78, 73] ∧ isNumberByte b = false := by
  have high : ∀ b : UInt8, 0x80 ≤ b → JsonText.isSpace b = false ∧
      (b ≠ 123 ∧ b ≠ 91 ∧ b ≠ 34) ∧ b ∉ [110, 116, 102, 78, 73] ∧ isNumberByte b = false := by
    intro b large
    have apart : ∀ other : UInt8, other < 0x80 → b ≠ other := by
      rintro other small rfl
      exact absurd (UInt8.lt_of_lt_of_le small large) (UInt8.lt_irrefl _)
    have beyond : ¬b ≤ 57 := fun low => absurd (UInt8.le_trans large low) (by decide)
    refine ⟨?_, ⟨apart _ (by decide), apart _ (by decide), apart _ (by decide)⟩, ?_, ?_⟩
    · simp only [JsonText.isSpace, Bool.or_eq_false_iff, decide_eq_false_iff_not]
      exact ⟨⟨⟨apart _ (by decide), apart _ (by decide)⟩, apart _ (by decide)⟩,
        apart _ (by decide)⟩
    · simp only [List.mem_cons, List.not_mem_nil, or_false, not_or]
      exact ⟨apart _ (by decide), apart _ (by decide), apart _ (by decide), apart _ (by decide),
        apart _ (by decide)⟩
    · simp only [isNumberByte, Bool.or_eq_false_iff, Bool.and_eq_false_imp, decide_eq_true_eq,
        decide_eq_false_iff_not]
      exact ⟨⟨⟨⟨⟨fun _ => beyond, apart _ (by decide)⟩, apart _ (by decide)⟩, apart _ (by decide)⟩,
        apart _ (by decide)⟩, apart _ (by decide)⟩
  by_cases ascii : c.toNat < 0x80
  · have single : String.utf8EncodeChar c = [UInt8.ofNat c.toNat] := by
      have encoded := Utf8.encode_ascii ascii
      rwa [Char.ofNat_toNat] at encoded
    have code : c.toNat = 9 ∨ c.toNat = 10 ∨ c.toNat = 11 ∨ c.toNat = 12 ∨ c.toNat = 13 ∨
        c.toNat = 32 ∨ c.toNat = 28 ∨ c.toNat = 29 ∨ c.toNat = 30 ∨ c.toNat = 31 := by
      simp only [Produce.isWhiteSpace, Produce.isSeparator, Bool.or_eq_true, Bool.and_eq_true,
        decide_eq_true_eq] at blank
      omega
    rw [single]
    rcases code with same | same | same | same | same | same | same | same | same | same <;>
      rw [same] <;> first | exact Or.inl (by decide) | exact Or.inr ⟨_, _, rfl, by decide⟩
  · right
    have bound := Utf8.toNat_lt c
    have above : 0x7F < c.val.toNat := by
      change ¬c.val.toNat < 0x80 at ascii
      omega
    have lead : ∀ {n : Nat}, 0x80 ≤ n → n < 256 → (0x80 : UInt8) ≤ UInt8.ofNat n := by
      intro n large small
      rw [UInt8.le_iff_toNat_le, UInt8.toNat_ofNat', Nat.mod_eq_of_lt small]
      exact large
    simp only [String.utf8EncodeChar]
    split_ifs with one two three
    · omega
    · exact ⟨_, _, rfl, high _ (lead (by omega) (by omega))⟩
    · exact ⟨_, _, rfl, high _ (lead (by omega) (by omega))⟩
    · exact ⟨_, _, rfl, high _ (lead (by omega) (by omega))⟩

theorem isBlank_iff {line : List Char} : isBlank line = true ↔
    ∀ c ∈ line, (Produce.isWhiteSpace c || Produce.isSeparator c) = true := by
  rw [isBlank, Produce.pythonBlank, String.toList_ofList, List.all_eq_true]

/-- In front of a text, a blank line is passed over by the decoder or is no JSON to it. -/
theorem jsonLoads_blank {line : List Char} (blank : isBlank line = true) (rest : List Char) :
    jsonLoads interpreter (line ++ rest) = jsonLoads interpreter rest ∨
      jsonLoads interpreter (line ++ rest) = .error .malformed := by
  rw [isBlank_iff] at blank
  induction line with
  | nil => exact Or.inl rfl
  | cons c line ih =>
      rw [List.forall_mem_cons] at blank
      have step : jsonLoads interpreter (c :: line ++ rest) =
          scanText (hooks interpreter) (String.utf8EncodeChar c ++
            (line ++ rest).flatMap String.utf8EncodeChar) := by
        rw [jsonLoads, List.cons_append, List.flatMap_cons]
      rw [step]
      rcases startsNone_of_blank blank.1 with
        spaces | ⟨b, more, bytes, solid, token, literal, number⟩
      · rw [Scanner.scanText_blank spaces]
        exact ih blank.2
      · right
        rw [bytes, List.cons_append]
        exact Scanner.scanText_malformed solid token literal number

/-- A text that starts with a document is that document or no JSON. -/
theorem jsonLoads_document {front : List Char} (first : IsDocument interpreter front) {c : Char}
    (ends : c = '\n' ∨ c = '\r') (rest : List Char) :
    IsDocument interpreter (front ++ c :: rest) ∨
      jsonLoads interpreter (front ++ c :: rest) = .error .malformed := by
  rcases first with ⟨doc, loaded, exported⟩
  have bytes : ∃ sp, JsonText.isSpace sp = true ∧
      (front ++ c :: rest).flatMap String.utf8EncodeChar =
        front.flatMap String.utf8EncodeChar ++ sp :: rest.flatMap String.utf8EncodeChar := by
    rw [List.flatMap_append, List.flatMap_cons]
    rcases ends with rfl | rfl
    · exact ⟨10, by decide, rfl⟩
    · exact ⟨13, by decide, rfl⟩
  rcases bytes with ⟨sp, space, bytes⟩
  rcases Scanner.scanText_extend space loaded (rest.flatMap String.utf8EncodeChar) with
    same | stopped
  · exact Or.inl ⟨doc, by rw [jsonLoads, bytes, same], exported⟩
  · exact Or.inr (by rw [jsonLoads, bytes, stopped])

/-- Where every line that is not blank is a document, the text is one too, or no JSON. -/
theorem document_or_malformed {text : List Char}
    (each : ∀ line ∈ terminatedLines text, isBlank line = false → IsDocument interpreter line) :
    IsDocument interpreter text ∨ jsonLoads interpreter text = .error .malformed := by
  have joined := Lines.join_split '\n' text
  rw [terminatedLines] at each
  generalize (Lines.split '\n' text).1 = lines at joined each
  generalize (Lines.split '\n' text).2 = tail at joined each
  subst joined
  have blankReturn : ∀ line : List Char, isBlank (Python.dropReturn line) = true →
      isBlank line = true := by
    intro line blank
    rcases Python.dropReturn_cases line with same | same
    · rwa [same] at blank
    · rw [isBlank_iff] at blank ⊢
      rw [same]
      intro c inside
      rcases List.mem_append.mp inside with front | last
      · exact blank c front
      · rw [List.mem_singleton.mp last]
        rfl
  induction lines with
  | nil =>
      rw [Lines.join_nil]
      rw [List.nil_append, List.map_singleton, List.forall_mem_singleton] at each
      cases blank : isBlank (Python.dropReturn tail) with
      | true =>
          rcases jsonLoads_blank (blankReturn tail blank) [] with same | stopped
          · rw [List.append_nil] at same
            exact Or.inr (by rw [same]; rfl)
          · rw [List.append_nil] at stopped
            exact Or.inr stopped
      | false =>
          rcases Python.dropReturn_cases tail with same | same
          · rw [same] at each blank
            exact Or.inl (each blank)
          · have front := jsonLoads_document (each blank) (Or.inr rfl) []
            rwa [← same] at front
  | cons line lines ih =>
      rw [List.cons_append, List.map_cons, List.forall_mem_cons] at each
      rw [Lines.join_cons]
      cases blank : isBlank (Python.dropReturn line) with
      | true =>
          have terminated : isBlank (line ++ ['\n']) = true := by
            rw [isBlank_iff]
            intro c inside
            rcases List.mem_append.mp inside with front | last
            · exact isBlank_iff.mp (blankReturn line blank) c front
            · rw [List.mem_singleton.mp last]
              rfl
          have whole : line ++ '\n' :: Lines.join '\n' lines tail =
              (line ++ ['\n']) ++ Lines.join '\n' lines tail := by simp
          rw [whole]
          rcases @jsonLoads_blank interpreter _ terminated (Lines.join '\n' lines tail) with
            same | stopped
          · rw [IsDocument, same]
            exact ih each.2
          · exact Or.inr stopped
      | false =>
          rcases Python.dropReturn_cases line with same | same
          · rw [same] at each
            exact jsonLoads_document (each.1 (by rwa [same] at blank)) (Or.inl rfl) _
          · have front := jsonLoads_document (each.1 blank) (Or.inr rfl)
              ('\n' :: Lines.join '\n' lines tail)
            have whole : line ++ '\n' :: Lines.join '\n' lines tail =
                Python.dropReturn line ++ '\r' :: '\n' :: Lines.join '\n' lines tail := by
              conv_lhs => rw [same]
              rw [List.append_assoc]
              rfl
            rwa [← whole] at front

/-- A text without other ends of lines is read exactly when it is a trace. -/
theorem textDocuments_iff {text : List Char} (even : Even interpreter text) :
    (∃ docs, textDocuments interpreter text = .ok docs ∧ ∀ doc ∈ docs, IsExport doc) ↔
      IsTrace interpreter text := by
  have emptyBlank : (fun line => !isBlank line) [] = false := rfl
  constructor
  · rintro ⟨docs, read, all⟩
    unfold textDocuments at read
    split at read
    · next doc loaded =>
        cases read
        exact Or.inl ⟨doc, loaded, all doc (List.mem_singleton_self _)⟩
    · next stopped =>
        right
        intro line inside solid
        rw [Python.filter_splitlines emptyBlank (even stopped)] at read
        have kept : line ∈ (terminatedLines text).filter (fun line => !isBlank line) :=
          List.mem_filter.mpr ⟨inside, by rw [solid]; rfl⟩
        rcases exists_of_forall₂ (forall₂_of_mapM read).flip kept with ⟨doc, inDocs, loaded⟩
        exact ⟨doc, loaded, all doc inDocs⟩
    · cases read
  · intro trace
    have whole : IsDocument interpreter text ∨ jsonLoads interpreter text = .error .malformed :=
      trace.elim Or.inl document_or_malformed
    rcases whole with ⟨doc, loaded, exported⟩ | stopped
    · refine ⟨[doc], by rw [textDocuments, loaded], fun other inside => ?_⟩
      rw [List.mem_singleton.mp inside]
      exact exported
    · have each : ∀ line ∈ terminatedLines text, isBlank line = false →
          IsDocument interpreter line := by
        rcases trace with ⟨doc, loaded, -⟩ | each
        · rw [stopped] at loaded
          cases loaded
        · exact each
      have documents : ∀ line ∈ (splitlines text).filter (fun line => !isBlank line),
          IsDocument interpreter line := by
        intro line inside
        rw [Python.filter_splitlines emptyBlank (even stopped), List.mem_filter] at inside
        exact each line inside.1 (by simpa using inside.2)
      rcases mapM_total (fun line inside => ⟨_, (documents line inside).choose_spec.1⟩) with
        ⟨docs, read⟩
      refine ⟨docs, by rw [textDocuments, stopped]; exact read, fun doc inside => ?_⟩
      rcases exists_of_forall₂ (forall₂_of_mapM read) inside with ⟨line, inLines, loaded⟩
      rcases documents line inLines with ⟨other, same, exported⟩
      rw [loaded] at same
      cases same
      exact exported

/-- A file whose text has no other ends of lines is accepted exactly when it is a trace. -/
theorem accepted_iff {raw : Bytes}
    (even : ∀ text, utf8? raw = some text → Even interpreter text.toList) :
    (∃ spans, fileSpans interpreter raw = .ok spans) ↔
      ∃ text, utf8? raw = some text ∧ IsTrace interpreter text.toList := by
  rw [fileSpans_succeeds_iff]
  constructor
  · rintro ⟨text, docs, decoded, read, all⟩
    exact ⟨text, decoded, (textDocuments_iff (even text decoded)).mp ⟨docs, read, all⟩⟩
  · rintro ⟨text, decoded, trace⟩
    rcases (textDocuments_iff (even text decoded)).mpr trace with ⟨docs, read, all⟩
    exact ⟨text, docs, decoded, read, all⟩

end Otel
end CapsuleEmit
