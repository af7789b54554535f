import CapsuleEmit.GoArtifact.Jsonl

namespace CapsuleEmit
namespace GoArtifact

/-!
# What a purge leaves as it was

A scan passes over a line that is not read whole.  The rewrite of a purge reads
the id of such a line all the same and indexes it, if the id comes before the
error.  The two agree where the last line that sets an id is read whole.  A
purge then changes nothing for other ids if the index had that line for them.
-/

open ArtifactStore (validId)

section

variable {packages : Packages}

/-- The lines of a file. -/
def linesOf (file : Bytes) : List Bytes := (Lines.split newline file).1

/-! ## The two readings of an id -/

theorem setId_of_scannedId {line : Bytes} {id : String} (scanned : scannedId packages line = some id) :
    setId packages line = some id := by
  unfold scannedId at scanned
  unfold setId
  split at scanned
  · next whole =>
      rw [Bool.and_eq_true] at whole
      rw [if_pos (of_decide_eq_true whole.2)]
      exact scanned
  · cases scanned

theorem scannedId_of_setId {line : Bytes} {id : String} (set : setId packages line = some id)
    (whole : (packages.peek line).2 = true) : scannedId packages line = some id := by
  unfold setId at set
  unfold scannedId
  split at set
  · next named => simpa [whole, named] using set
  · cases set

theorem setId_eq_some_iff {line : Bytes} {id : String} (named : id ≠ "") :
    setId packages line = some id ↔ (packages.peek line).1 = id := by
  unfold setId
  split
  · exact Option.some_inj
  · next empty =>
      simp only [reduceCtorEq, false_iff]
      intro same
      exact empty (same ▸ named)

/-! ## The rewritten file -/

/-- Copying replaces the lines that set the id, and indexes every line that sets one. -/
theorem copyLines_eq {target : String} (named : target ≠ "") {data : Bytes}
    (kept : setId packages data = some target) (offset : Nat) (index : Lines.Index String)
    (lines : List Bytes) :
    copyLines packages target data offset index.spans lines =
      (Lines.rewriteWith (setId packages) target data lines,
        ((Lines.offsets offset (Lines.rewriteWith (setId packages) target data lines)).foldl
          (Lines.Index.read (setId packages)) index).spans) := by
  induction lines generalizing offset index with
  | nil => rfl
  | cons line lines ih =>
      have out : (if (packages.peek line).1 = target then data else line) =
          (if setId packages line = some target then data else line) := by
        simp only [setId_eq_some_iff named]
      have same := Lines.key_rewrite kept line
      have entered : (if (packages.peek line).1 ≠ "" then
            Function.update index.spans (packages.peek line).1 (some (offset,
              (if setId packages line = some target then data else line).length))
          else index.spans) =
          (Lines.Index.read (setId packages) index
            (offset, if setId packages line = some target then data else line)).spans := by
        rw [Lines.Index.read, same, setId]
        split <;> rfl
      rw [copyLines, out, entered, ih]
      rfl

theorem scanRawLines_ok {file : Bytes} {pieces : List Bytes × Bytes}
    (ok : scanRawLines file = .ok pieces) :
    pieces = Lines.split newline file ∧ (∀ line ∈ pieces.1, line.length + 1 ≤ maxLine) ∧
      pieces.2.length + 1 ≤ maxLine := by
  unfold scanRawLines at ok
  dsimp only at ok
  split at ok
  · next fits =>
      cases ok
      rw [Bool.and_eq_true, List.all_eq_true, decide_eq_true_eq] at fits
      exact ⟨rfl, fun line inside => of_decide_eq_true (fits.1 line inside), fits.2⟩
  · cases ok

theorem scanRawLines_join {lines : List Bytes} {tail : Bytes}
    (clean : ∀ line ∈ lines, newline ∉ line) (cleanTail : newline ∉ tail)
    (fits : ∀ line ∈ lines, line.length + 1 ≤ maxLine) (fitsTail : tail.length + 1 ≤ maxLine) :
    scanRawLines (Lines.join newline lines tail) = .ok (lines, tail) := by
  rw [scanRawLines, Lines.split_join clean cleanTail]
  dsimp only
  rw [if_pos]
  rw [Bool.and_eq_true, List.all_eq_true, decide_eq_true_eq]
  exact ⟨fun line inside => decide_eq_true (fits line inside), fitsTail⟩

/-- What a purge that succeeds has done. -/
theorem purge_ok {file file' : Bytes} {index index' : Index} {id : String}
    (ok : purge packages file index id = .ok (file', index')) :
    validId id = true ∧ ∃ entry target data,
      index id = some entry ∧ readAt packages file entry = .ok target ∧ target.capsuleId = id ∧
      packages.marshal (tombstoned target) = .ok data ∧
      (∀ line ∈ linesOf file, line.length + 1 ≤ maxLine) ∧
      (Lines.split newline file).2.length + 1 ≤ maxLine ∧
      copyLines packages id data 0 (fun _ => none) (linesOf file) =
        ((copyLines packages id data 0 (fun _ => none) (linesOf file)).1, index') ∧
      file' = Lines.join newline (copyLines packages id data 0 (fun _ => none) (linesOf file)).1
        (Lines.split newline file).2 := by
  unfold purge at ok
  rcases bind_eq_ok_iff.mp ok with ⟨_, valid, ok⟩
  refine ⟨ensure_eq_ok_iff.mp valid, ?_⟩
  split at ok
  · cases ok
  · next entry found =>
      rcases bind_eq_ok_iff.mp ok with ⟨target, read, ok⟩
      rcases bind_eq_ok_iff.mp ok with ⟨_, named, ok⟩
      unfold rewrite at ok
      rcases bind_eq_ok_iff.mp ok with ⟨pieces, scanned, ok⟩
      rcases bind_eq_ok_iff.mp ok with ⟨_, _, ok⟩
      rcases scanRawLines_ok scanned with ⟨rfl, fits, fitsTail⟩
      split at ok
      · cases ok
      · next data marshalled =>
          cases ok
          exact ⟨entry, target, data, found, read, of_decide_eq_true (ensure_eq_ok_iff.mp named),
            marshalled, fits, fitsTail, rfl, rfl⟩

/-! ## What the answers for an id depend on -/

/-- The line the index has for an id. -/
def held (file : Bytes) (index : Index) (id : String) : Option (Option Bytes) :=
  (index id).map (Lines.readAt file)

theorem readAt_congr {file file' : Bytes} {entry entry' : Lines.Span}
    (same : Lines.readAt file' entry' = Lines.readAt file entry) :
    readAt packages file' entry' = readAt packages file entry := by
  rw [readAt, readAt, same]

theorem get_congr {trusted : List Bytes} {file file' : Bytes} {index index' : Index} {id : String}
    (same : validId id = true → held file' index' id = held file index id) :
    get packages trusted file' index' id = get packages trusted file index id := by
  unfold get
  cases valid : validId id with
  | false => rfl
  | true =>
      have same := same valid
      unfold held at same
      cases found : index id with
      | none =>
          rw [found, Option.map_none, Option.map_eq_none_iff] at same
          rw [same]
      | some entry =>
          rw [found, Option.map_some, Option.map_eq_some_iff] at same
          rcases same with ⟨entry', found', line⟩
          rw [found']
          dsimp only
          rw [readAt_congr line]

theorem capsuleId_of_prepare {record prepared : Record} (ok : prepare packages record = .ok prepared) :
    prepared.capsuleId = record.capsuleId := by
  unfold prepare at ok
  rcases bind_eq_ok_iff.mp ok with ⟨_, _, ok⟩
  rcases bind_eq_ok_iff.mp ok with ⟨_, _, ok⟩
  rcases bind_eq_ok_iff.mp ok with ⟨_, _, same⟩
  cases same
  rfl

theorem validId_of_verify {trusted : List Bytes} {record : Record}
    {results : List (String × ArtifactVerification)}
    (ok : verify packages record trusted = .ok results) : validId record.capsuleId = true := by
  unfold verify at ok
  rcases bind_eq_ok_iff.mp ok with ⟨_, valid, _⟩
  exact ensure_eq_ok_iff.mp valid

theorem put_congr {trusted : List Bytes} {file file' : Bytes} {index index' : Index} {record : Record}
    (same : validId record.capsuleId = true →
      held file' index' record.capsuleId = held file index record.capsuleId) :
    (put packages trusted file' index' record).1 = (put packages trusted file index record).1 := by
  unfold put
  dsimp only
  split
  · rfl
  · next prepared checksum checked =>
      rcases bind_eq_ok_iff.mp checked with ⟨record', isPrepared, checked⟩
      rcases bind_eq_ok_iff.mp checked with ⟨_, verified, checked⟩
      rcases bind_eq_ok_iff.mp checked with ⟨_, _, pair⟩
      cases pair
      have id := capsuleId_of_prepare isPrepared
      have same := same (id ▸ validId_of_verify verified)
      rw [← id] at same
      unfold held at same
      cases found : index prepared.capsuleId with
      | none =>
          rw [found, Option.map_none, Option.map_eq_none_iff] at same
          rw [same]
          dsimp only
          split <;> rfl
      | some entry =>
          rw [found, Option.map_some, Option.map_eq_some_iff] at same
          rcases same with ⟨entry', found', line⟩
          rw [found']
          dsimp only
          rw [retry, retry, readAt_congr line]

/-! ## The frame of a purge -/

/-- After a purge the index is the scan of the file, and other ids answer as before. -/
def Framed (packages : Packages) (trusted : List Bytes) (file : Bytes) (index : Index) (id : String) :
    Prop :=
  ∀ file' index', purge packages file index id = .ok (file', index') →
    scanIndex packages file' = .ok index' ∧
    ∀ other, other ≠ id →
      get packages trusted file' index' other = get packages trusted file index other ∧
      ∀ record, record.capsuleId = other →
        (put packages trusted file' index' record).1 = (put packages trusted file index record).1

/-- For each other id, the last line that sets it is read whole, and is the one
the index has; and the new line of the purged record fits the scanner. -/
structure Undamaged (packages : Packages) (file : Bytes) (index : Index) (id : String) : Prop where
  whole : ∀ other, other ≠ id → ∀ line,
    Lines.lastWith (setId packages) other (linesOf file) = some line → (packages.peek line).2 = true
  current : ∀ other, other ≠ id → validId other = true →
    held file index other = (Lines.lastWith (setId packages) other (linesOf file)).map some
  fits : ∀ entry target data, index id = some entry → readAt packages file entry = .ok target →
    packages.marshal (tombstoned target) = .ok data → data.length + 1 ≤ maxLine

theorem framed_of_undamaged (lawful : packages.Lawful) {trusted : List Bytes} {file : Bytes}
    {index : Index} {id : String} (undamaged : Undamaged packages file index id) :
    Framed packages trusted file index id := by
  intro file' index' ok
  rcases purge_ok ok with
    ⟨valid, entry, target, data, found, read, isTarget, marshalled, fits, fitsTail, copied, rfl⟩
  have named : id ≠ "" := ArtifactStore.ne_empty_of_validId valid
  have peeked : packages.peek data = (id, true) := by
    rw [lawful.peek_marshal marshalled, ← isTarget]
    rfl
  have kept : setId packages data = some id := by
    rw [setId_eq_some_iff named, peeked]
  have keptWhole : scannedId packages data = some id :=
    scannedId_of_setId kept (by rw [peeked])
  have dataFits := undamaged.fits entry target data found read marshalled
  have copies := copyLines_eq named kept 0 Lines.Index.empty (linesOf file)
  rw [show (Lines.Index.empty : Lines.Index String).spans = fun _ => none from rfl] at copies
  rw [copies] at copied
  have isIndex : index' = (Lines.Index.scan (setId packages)
      (Lines.rewriteWith (setId packages) id data (linesOf file))).spans :=
    (Prod.mk.inj copied).2.symm
  rw [copies]
  dsimp only
  have clean := Lines.split_pieces_clean newline file
  have fromOld : ∀ line ∈ Lines.rewriteWith (setId packages) id data (linesOf file),
      line = data ∨ line ∈ linesOf file := by
    intro line inside
    rcases List.mem_map.mp inside with ⟨old, there, rfl⟩
    split
    · exact Or.inl rfl
    · exact Or.inr there
  have cleanNew : ∀ line ∈ Lines.rewriteWith (setId packages) id data (linesOf file),
      newline ∉ line := by
    intro line inside
    rcases fromOld line inside with rfl | old
    · exact lawful.newline_free marshalled
    · exact clean.1 line old
  have fitsNew : ∀ line ∈ Lines.rewriteWith (setId packages) id data (linesOf file),
      line.length + 1 ≤ maxLine := by
    intro line inside
    rcases fromOld line inside with rfl | old
    · exact dataFits
    · exact fits line old
  have last := Lines.lastWith_rewriteWith kept
  have rescanned : (Lines.Index.scan (setId packages)
        (Lines.rewriteWith (setId packages) id data (linesOf file))).spans =
      (Lines.Index.scan (scannedId packages)
        (Lines.rewriteWith (setId packages) id data (linesOf file))).spans := by
    funext other
    apply Lines.scan_spans_eq_of_last (setId packages) (fun line => setId_of_scannedId)
    intro line isLast
    have set := Lines.key_of_lastWith (setId packages) isLast
    rw [last other (linesOf file)] at isLast
    split at isLast
    · next same =>
        rcases Option.map_eq_some_iff.mp isLast with ⟨_, _, rfl⟩
        rw [same]
        exact keptWhole
    · next different => exact scannedId_of_setId set (undamaged.whole other different line isLast)
  constructor
  · rw [scanIndex, scanRawLines_join cleanNew clean.2 fitsNew fitsTail, ok_bind]
    dsimp only
    rw [isIndex, rescanned]
  · intro other different
    have same : validId other = true → held (Lines.join newline
        (Lines.rewriteWith (setId packages) id data (linesOf file)) (Lines.split newline file).2)
        index' other = held file index other := by
      intro validOther
      rw [undamaged.current other different validOther]
      have lastOther := last other (linesOf file)
      rw [if_neg different] at lastOther
      rw [held, isIndex, ← lastOther, Lines.scan_spans_map_readAt]
    constructor
    · exact get_congr same
    · rintro record rfl
      exact put_congr same

/-- After a scan the index has the last lines that set an id, if they are read whole. -/
theorem held_of_scanIndex {file : Bytes} {index : Index} (scanned : scanIndex packages file = .ok index)
    {id : String} (whole : ∀ line, Lines.lastWith (setId packages) id (linesOf file) = some line →
      (packages.peek line).2 = true) :
    held file index id = (Lines.lastWith (setId packages) id (linesOf file)).map some := by
  unfold scanIndex at scanned
  rcases bind_eq_ok_iff.mp scanned with ⟨pieces, split, same⟩
  rcases scanRawLines_ok split with ⟨rfl, _, _⟩
  cases same
  have wide : (Lines.Index.scan (setId packages) (linesOf file)).spans id =
      (Lines.Index.scan (scannedId packages) (linesOf file)).spans id :=
    Lines.scan_spans_eq_of_last (setId packages) (fun line => setId_of_scannedId)
      (fun line last => scannedId_of_setId (Lines.key_of_lastWith _ last) (whole line last))
  have read := Lines.scan_spans_map_readAt (setId packages) newline (linesOf file)
    (Lines.split newline file).2 id
  rw [linesOf, Lines.join_split] at read
  rw [linesOf, ← read, ← linesOf, wide]
  rfl

/-- A store that was opened has the scan of its file as index. -/
theorem scanIndex_of_new {trusted : List Bytes} {ns : String} {state : State} {index : Index}
    (opened : (step packages trusted ns state .new).2.index = some index) :
    scanIndex packages state.file = .ok index ∧
      (step packages trusted ns state .new).2.file = state.file := by
  unfold step at opened ⊢
  dsimp only at opened ⊢
  split at opened
  · cases opened
  · next index' ok =>
      rcases bind_eq_ok_iff.mp ok with ⟨_, _, scanned⟩
      cases opened
      exact ⟨scanned, rfl⟩

/-! ## Runs -/

/-- A condition on the purges of a run. -/
def AtPurge (P : Bytes → Index → String → Prop) (state : State) (op : Op) : Prop :=
  ∀ id index, op = .purge id → state.index = some index → P state.file index id

end

/-! ## A line that breaks off after its id -/

def firstId : String := "aaaaaaaaaaaaaaaaaaaaaaaaaaaaaaaaaaaaaaaaaaaaaaaaaaaaaaaaaaaaaaaa"

def secondId : String := "bbbbbbbbbbbbbbbbbbbbbbbbbbbbbbbbbbbbbbbbbbbbbbbbbbbbbbbbbbbbbbbb"

def firstRecord : Record := ⟨firstId, [], [], []⟩

def firstLine : Bytes :=
  utf8 ("\x7b\"capsule_id\":\"" ++ firstId ++ "\",\"capsule\":\"\",\"producer_envelope\":\"\",\"artifacts\":[]\x7d")

/-- A record that was being written when the process ended. -/
def brokenLine : Bytes := utf8 ("\x7b\"capsule_id\":\"" ++ secondId ++ "\",\"capsule\":\"")

/-- The libraries as they answer on the two lines. -/
def samplePackages : Packages where
  decodePayload _ := .error "EOF"
  verifyCapsule _ := .error "EOF"
  verifyEnvelope _ _ := .error "envelope"
  digestJson _ := .error "digest"
  digestRaw _ := .error "EOF"
  sha256Hex data := Sha256.hex (Sha256.digest data)
  marshal record := if record = firstRecord then .ok firstLine else .error "marshal"
  unmarshal line := if line = firstLine then .ok firstRecord else .error "unexpected EOF"
  peek line :=
    if line = firstLine then (firstId, true)
    else if line = brokenLine then (secondId, false) else ("", false)

theorem peek_firstLine : samplePackages.peek firstLine = (firstId, true) := by
  dsimp only [samplePackages]
  exact if_pos rfl

theorem peek_brokenLine : samplePackages.peek brokenLine = (secondId, false) := by
  have different : brokenLine ≠ firstLine := by decide
  dsimp only [samplePackages]
  rw [if_neg different, if_pos rfl]

theorem samplePackages_lawful : samplePackages.Lawful := by
  have written : ∀ {record line}, samplePackages.marshal record = .ok line →
      record = firstRecord ∧ line = firstLine := by
    intro record line ok
    unfold samplePackages at ok
    dsimp only at ok
    split at ok
    · next same => exact ⟨same, (Except.ok.inj ok).symm⟩
    · cases ok
  constructor
  case newline_free =>
    intro record line ok
    rw [(written ok).2]
    decide
  case peek_marshal =>
    intro record line ok
    rw [(written ok).1, (written ok).2]
    exact peek_firstLine

def sampleKey : Bytes := List.replicate 32 0

def sampleFile : Bytes := Lines.join newline [firstLine, brokenLine] []

def sampleIndex : Index := Function.update (fun _ => none) firstId (some (0, firstLine.length))

theorem split_sampleFile : Lines.split newline sampleFile = ([firstLine, brokenLine], []) := by
  have first : newline ∉ firstLine := by decide
  have second : newline ∉ brokenLine := by decide
  apply Lines.split_join
  · intro line inside
    rcases List.mem_cons.mp inside with rfl | inside
    · exact first
    · rw [List.mem_singleton.mp inside]
      exact second
  · exact List.not_mem_nil

set_option maxRecDepth 4000 in
theorem scanRawLines_sampleFile :
    scanRawLines sampleFile = .ok ([firstLine, brokenLine], []) := by
  have first : firstLine.length + 1 ≤ maxLine := by decide
  have second : brokenLine.length + 1 ≤ maxLine := by decide
  have none : ([] : Bytes).length + 1 ≤ maxLine := by decide
  rw [scanRawLines, split_sampleFile]
  simp only [List.all_cons, List.all_nil, first, second, none, decide_true, Bool.and_self, if_true]

theorem scanIndex_sampleFile : scanIndex samplePackages sampleFile = .ok sampleIndex := by
  have first : scannedId samplePackages firstLine = some firstId := by
    rw [scannedId, peek_firstLine]
    decide
  have second : scannedId samplePackages brokenLine = none := by
    rw [scannedId, peek_brokenLine]
    decide
  rw [scanIndex, scanRawLines_sampleFile, ok_bind]
  dsimp only
  rw [show [firstLine, brokenLine] = [firstLine] ++ [brokenLine] from rfl,
    Lines.scan_concat_unkeyed _ second, ← List.nil_append [firstLine],
    Lines.scan_concat_keyed _ first]
  rfl

theorem new_sampleFile : step samplePackages [sampleKey] "capsules" ⟨sampleFile, none⟩ .new =
    (some (.ok ()), ⟨sampleFile, some sampleIndex⟩) := by
  have config : checkConfig "capsules" [sampleKey] = .ok () := by decide
  rw [step, scanIndex_sampleFile, config]
  rfl

def wholeFile : Bytes := Lines.join newline [firstLine] []

theorem lines_wholeFile : linesOf wholeFile = [firstLine] := by
  have clean : newline ∉ firstLine := by decide
  rw [linesOf, wholeFile, Lines.split_join (fun line inside => List.mem_singleton.mp inside ▸ clean)
    List.not_mem_nil]

set_option maxRecDepth 4000 in
theorem undamaged_wholeFile {index : Index}
    (scanned : scanIndex samplePackages wholeFile = .ok index) :
    Undamaged samplePackages wholeFile index firstId := by
  have whole : ∀ id line, Lines.lastWith (setId samplePackages) id (linesOf wholeFile) = some line →
      (samplePackages.peek line).2 = true := by
    intro id line last
    have inside := Lines.lastWith_mem _ last
    rw [lines_wholeFile] at inside
    rw [List.mem_singleton.mp inside, peek_firstLine]
  constructor
  case whole => exact fun id _ line last => whole id line last
  case current => exact fun id _ _ => held_of_scanIndex scanned (whole id)
  case fits =>
    intro entry target data _ _ marshalled
    have isLine : data = firstLine := by
      dsimp only [samplePackages] at marshalled
      split at marshalled
      · exact (Except.ok.inj marshalled).symm
      · cases marshalled
    rw [isLine]
    decide

end GoArtifact
end CapsuleEmit
