import CapsuleEmit.Produce.Assembled
import CapsuleEmit.Produce.Build
import CapsuleEmit.Produce.Concrete

namespace CapsuleEmit
namespace Produce

/-!
# Where Python and Rust build the same Capsule

Both builds are compared with one that makes the checks they share: Rust's
blank texts, coordinates with whole-number floats written as integers, no
limit on the nesting of the Capsule.  Python is that build with more texts
counting as blank; Rust is that build without floats and within 128 levels.
So on an input the shared build takes they differ exactly where only one of
these restrictions bites.
-/

/-! ## The shared build -/

/-- The same Capsule: one id, one canonical text, and the same members and
values, up to the order of members. -/
def SameCapsule (left right : BuiltPayload) : Prop :=
  left.capsuleId = right.capsuleId ∧ left.value.normal = right.value.normal ∧
    left.json = right.json

/-- Compute the id of a Capsule, check it and give its canonical text. -/
def sealPayload (box : Canonicalizer) (payload : Payload) : Except String BuiltPayload := do
  let capsuleId ← box.computeCapsuleId payload
  let payload := payload ++ [text "capsule_id" capsuleId]
  box.class1 payload
  let encoded ← box.jcs (.object payload)
  return ⟨capsuleId, .object payload, encoded⟩

section

variable (python : Python.Runtime) (rust : Rust.Runtime) (box : Canonicalizer)

/-- A reference with its whole-number floats as integers. -/
def exactReference (reference : Reference) : Json :=
  referenceMap reference
    (reference.logCoordinates.map (fun c => Python.integralFloats python c.tree))

/-- The checks the two packages share. -/
def sharedBuild (input : Input) : Except String BuiltPayload := do
  validateInput (Rust.rules rust) input
  let instant ← input.timestamp.elim (.error "timestamp is required") .ok
  let payload ← addExtensions (Rust.decodeStrictJson rust.decode) rust.debug
    (assemble input (Rust.formatTimestamp instant)
      (input.references.map (List.map (exactReference python)))) input.extensions
  sealPayload box payload

end

/-! ## The condition -/

/-- The coordinates an input carries. -/
def Input.coordinates (input : Input) : List Coordinates :=
  (input.references.getD []).filterMap Reference.logCoordinates

/-- An input both languages can express: a year Python has, and JSON nested at
most 128 levels. -/
structure Expressible (input : Input) : Prop where
  year : ∀ instant ∈ input.timestamp, 1 ≤ instant.year ∧ instant.year ≤ 9999
  coordinates : ∀ c ∈ input.coordinates, c.tree.nesting ≤ 128
  extensions : ∀ e ∈ input.extensions, ∀ tree,
    ArtifactStore.Python.document e.value = some tree → tree.nesting ≤ 128

/-- No text that is tested for being blank consists of white space with one of
the four information separators in it. -/
def NoSeparatorBlank (input : Input) : Prop :=
  ∀ value ∈ input.checked, separatorBlank value = false

/-- The coordinates of no reference hold a float. -/
def NoFloat (input : Input) : Prop :=
  ∀ c ∈ input.coordinates, c.tree.everyNumber (fun number => !isFloat number) = true

/-- Coordinates sit three levels down in the Capsule and extensions one; with
them it nests at most 128 levels. -/
def Shallow (input : Input) : Prop :=
  (∀ c ∈ input.coordinates, c.tree.nesting ≤ 125) ∧
    ∀ e ∈ input.extensions, ∀ tree,
      ArtifactStore.Python.document e.value = some tree → tree.nesting ≤ 127

/-- Both builds refuse, or both give the same Capsule. -/
def SameOutcome : Except String BuiltPayload → Except String BuiltPayload → Prop
  | .ok left, .ok right => SameCapsule left right
  | .error _, .error _ => True
  | _, _ => False

/-! ## Each build and the shared one -/

section

variable {python : Python.Runtime} {rust : Rust.Runtime} {box : Canonicalizer}

theorem sealPayload_eq_ok_iff {payload : Payload} {built : BuiltPayload} :
    sealPayload box payload = .ok built ↔
      box.computeCapsuleId payload = .ok built.capsuleId ∧
        box.class1 (payload ++ [text "capsule_id" built.capsuleId]) = .ok () ∧
          box.jcs (.object (payload ++ [text "capsule_id" built.capsuleId])) = .ok built.json ∧
            built.value = .object (payload ++ [text "capsule_id" built.capsuleId]) := by
  simp only [sealPayload, bind_eq_ok_iff]
  constructor
  · rintro ⟨id, computed, done, checked, encoded, written, same⟩
    cases same
    exact ⟨computed, checked, written, rfl⟩
  · rintro ⟨computed, checked, written, same⟩
    refine ⟨_, computed, (), checked, _, written, ?_⟩
    rw [← same]
    rfl

theorem addExtensions_shape {decode : Bytes → Except String Json} {quote : String → String}
    {extensions : List Extension} {payload result : Payload}
    (added : addExtensions decode quote payload extensions = .ok result) :
    ∃ members, result = payload ++ members ∧
      List.Forall₂ (fun extension member => member.1 = utf8 extension.name ∧
        extension.name ∉ baseMembers ∧ decode extension.value = .ok member.2)
        extensions members := by
  rcases addExtensions_same quote (fun _ _ _ _ => Iff.rfl) rfl added
    with ⟨members, same, again, shape⟩
  exact ⟨members, same, shape⟩

theorem mem_coordinates {input : Input} {c : Coordinates} : c ∈ input.coordinates ↔
    ∃ references ∈ input.references, ∃ reference ∈ references,
      reference.logCoordinates = some c := by
  unfold Input.coordinates
  cases input.references with
  | none => simp
  | some references => simp [List.mem_filterMap]

/-- Without floats Python's copies are the coordinates themselves. -/
theorem exactReference_eq {input : Input} (noFloat : NoFloat input) :
    input.references.map (List.map (exactReference python)) =
      input.references.map (List.map Rust.reference) := by
  cases given : input.references with
  | none => rfl
  | some references =>
      simp only [Option.map_some, Option.some.injEq]
      apply List.map_congr_left
      intro reference inside
      unfold exactReference Rust.reference
      congr 1
      cases coordinates : reference.logCoordinates with
      | none => rfl
      | some c =>
          have held : c ∈ input.coordinates :=
            mem_coordinates.mpr ⟨references, given, reference, inside, coordinates⟩
          simp only [Option.map_some, Option.some.injEq]
          exact Python.integralFloats_eq_self python (noFloat c held)

/-- The levels of a Capsule with extensions that were decoded. -/
theorem nestingLevels_le_iff (decoder : Rust.CapsuleDecoder rust.decode) {input : Input}
    (timestamp : String) {members : Payload}
    (shape : List.Forall₂ (fun extension member => member.1 = utf8 extension.name ∧
      extension.name ∉ baseMembers ∧
        Rust.decodeStrictJson rust.decode extension.value = .ok member.2)
      input.extensions members) :
    Rust.nestingLevels (assemble input timestamp (input.references.map (List.map Rust.reference)) ++
      members) ≤ Rust.maxCapsuleLevels ↔ Shallow input := by
  have levels : Rust.maxCapsuleLevels = 127 + 1 := rfl
  rw [Rust.nestingLevels, levels, nesting_payload_le_iff (by decide), Shallow]
  refine and_congr ?_ ?_
  · constructor
    · intro refs c held
      rcases mem_coordinates.mp held with ⟨references, given, reference, inside, coordinates⟩
      have bound := refs (references.map Rust.reference) (by rw [given]; rfl) _
        (List.mem_map_of_mem inside)
      have below : (Rust.reference reference).nesting ≤ 125 + 1 := by omega
      exact nesting_referenceMap_le_iff.mp below c.tree (by rw [coordinates]; rfl)
    · intro shallow items given item inside
      rcases Option.mem_map.mp given with ⟨references, held, rfl⟩
      rcases List.mem_map.mp inside with ⟨reference, listed, rfl⟩
      have below : (Rust.reference reference).nesting ≤ 125 + 1 := by
        apply nesting_referenceMap_le_iff.mpr
        intro tree isTree
        rcases Option.mem_map.mp isTree with ⟨c, coordinates, rfl⟩
        exact shallow c (mem_coordinates.mpr ⟨references, held, reference, listed, coordinates⟩)
      omega
  · clear levels
    generalize input.extensions = extensions at shape ⊢
    induction shape with
    | nil => simp
    | cons first rest ih =>
        rw [List.forall_mem_cons, List.forall_mem_cons, ih]
        refine and_congr_left fun _ => ?_
        rw [((Rust.decodeStrictJson_eq_ok_iff decoder).mp first.2.2).1]
        simp

/-- Rust takes what the shared build takes, when it holds no float and is
shallow. -/
theorem rust_build_eq_ok_iff (python : Python.Runtime) (lawful : box.Lawful)
    (decoder : Rust.CapsuleDecoder rust.decode) {input : Input} {built : BuiltPayload} :
    Rust.build rust box input = .ok built ↔
      sharedBuild python rust box input = .ok built ∧ NoFloat input ∧ Shallow input := by
  simp only [Rust.build, sharedBuild, bind_eq_ok_iff, ensure_eq_ok_iff, mapError_eq_ok_iff,
    decide_eq_true_eq]
  constructor
  · rintro ⟨_, valid, instant, stamped, payload, added, _, levels, id, computed, _, checked,
      encoded, written, same⟩
    cases same
    rcases addExtensions_shape added with ⟨members, rfl, shape⟩
    have noFloat : NoFloat input := by
      intro c held
      rcases mem_coordinates.mp held with ⟨references, given, reference, inside, coordinates⟩
      have safe := (everyNumber_payload_iff.mp (lawful.id_safe _ _ computed)).1
        (references.map Rust.reference)
        (by rw [given]; rfl) _ (List.mem_map_of_mem inside)
      have numbers := everyNumber_referenceMap_iff.mp safe c.tree (by rw [coordinates]; rfl)
      refine everyNumber_mono c.tree (fun number isSafe => ?_) numbers
      rw [Produce.isSafe, Bool.and_eq_true] at isSafe
      exact isSafe.1
    have shallow := (nestingLevels_le_iff decoder _ shape).mp levels
    refine ⟨⟨(), valid, instant, stamped, ?_⟩, noFloat, shallow⟩
    rw [exactReference_eq noFloat]
    exact ⟨_, added, sealPayload_eq_ok_iff.mpr ⟨computed, checked, written, rfl⟩⟩
  · rintro ⟨⟨_, valid, instant, stamped, payload, added, sealed⟩, noFloat, shallow⟩
    rw [exactReference_eq noFloat] at added
    rcases addExtensions_shape added with ⟨members, rfl, shape⟩
    rcases sealPayload_eq_ok_iff.mp sealed with ⟨computed, checked, written, same⟩
    have levels := (nestingLevels_le_iff decoder (Rust.formatTimestamp instant) shape).mpr shallow
    refine ⟨(), valid, instant, stamped, _, added, (), levels, _, computed, (), checked, _,
      written, ?_⟩
    rw [← same]
    rfl

/-! ## Python's copies of the coordinates -/

/-- A copy of the coordinates has their members and values. -/
theorem normal_copyJson (lawful : box.Lawful) {coordinates : Coordinates} {copy : Json}
    (copied : Python.copyJson python box coordinates = .ok copy) :
    copy.normal = (Python.integralFloats python coordinates.tree).normal := by
  simp only [Python.copyJson, bind_eq_ok_iff] at copied
  rcases copied with ⟨_, -, encoded, written, same⟩
  cases same
  exact lawful.loads_jcs _ _ written

/-- Coordinates with safe numbers and of moderate depth can be copied. -/
theorem copyJson_total (lawful : box.Lawful) {coordinates : Coordinates}
    (shallow : coordinates.tree.nesting ≤ 128)
    (safe : (Python.integralFloats python coordinates.tree).everyNumber isSafe = true) :
    ∃ copy, Python.copyJson python box coordinates = .ok copy := by
  have canonicalizable : Canonicalizable (Python.integralFloats python coordinates.tree) := by
    refine ⟨?_, ?_, safe, ?_⟩
    · exact (Json.textual_mapNumbers _).trans coordinates.textual
    · exact (Json.distinct_mapNumbers _).trans coordinates.distinct
    · exact (Json.nesting_mapNumbers _).trans_le shallow
  rcases lawful.jcs_total _ canonicalizable with ⟨encoded, written⟩
  refine ⟨box.loads encoded, ?_⟩
  have levels := ArtifactStore.Python.deepest_le coordinates.tree 1
  have limit : 1 + 128 ≤ ArtifactStore.Python.maxJsonDepth := by decide
  have checked : Python.checkJsonValue "$" 1 coordinates.tree = .ok () :=
    (Python.checkJsonValue_eq_ok_iff _ _ _).mpr ⟨coordinates.textual, by omega⟩
  rw [Python.copyJson, checked, ok_bind, written]
  rfl

theorem normal_reference (lawful : box.Lawful) {reference : Reference} {item : Json}
    (copied : Python.reference python box reference = .ok item) :
    item.normal = (exactReference python reference).normal := by
  unfold Python.reference at copied
  unfold exactReference
  cases given : reference.logCoordinates with
  | none =>
      rw [given] at copied
      cases copied
      rfl
  | some coordinates =>
      rw [given] at copied
      simp only [bind_eq_ok_iff, mapError_eq_ok_iff] at copied
      rcases copied with ⟨copy, written, same⟩
      cases same
      exact normal_referenceMap (normal_copyJson lawful written)

theorem reference_total (lawful : box.Lawful) {reference : Reference}
    (shallow : ∀ c ∈ reference.logCoordinates, c.tree.nesting ≤ 128)
    (safe : (exactReference python reference).everyNumber isSafe = true) :
    ∃ item, Python.reference python box reference = .ok item := by
  rw [exactReference, everyNumber_referenceMap_iff] at safe
  unfold Python.reference
  cases given : reference.logCoordinates with
  | none => exact ⟨_, rfl⟩
  | some coordinates =>
      rcases copyJson_total lawful (shallow coordinates given)
        (safe _ (by rw [given]; rfl)) with ⟨copy, written⟩
      refine ⟨referenceMap reference (some copy), ?_⟩
      simp only [written]
      rfl

/-- The references Python writes are the shared ones up to the normal form. -/
theorem sameReferences (lawful : box.Lawful) {references : Option (List Reference)}
    {copies : Option (List Json)}
    (copied : Python.references python box references = .ok copies) :
    SameReferences copies (references.map (List.map (exactReference python))) := by
  cases references with
  | none =>
      cases copied
      exact Option.Rel.none
  | some references =>
      cases items : references.mapM (Python.reference python box) with
      | error e =>
          rw [Python.references, items] at copied
          cases copied
      | ok items' =>
          rw [Python.references, items] at copied
          cases copied
          refine Option.Rel.some ?_
          rw [List.forall₂_map_right_iff]
          have related := (forall₂_of_mapM items).flip
          exact related.imp (fun _ _ written => normal_reference lawful written)

theorem references_total (lawful : box.Lawful) {input : Input}
    (shallow : ∀ c ∈ input.coordinates, c.tree.nesting ≤ 128)
    (safe : ∀ items ∈ input.references.map (List.map (exactReference python)),
      ∀ item ∈ items, item.everyNumber isSafe = true) :
    ∃ copies, Python.references python box input.references = .ok copies := by
  cases given : input.references with
  | none => exact ⟨none, rfl⟩
  | some references =>
      have each : ∀ reference ∈ references,
          ∃ item, Python.reference python box reference = .ok item := by
        intro reference inside
        apply reference_total lawful
        · intro c held
          exact shallow c (mem_coordinates.mpr ⟨references, given, reference, inside, held⟩)
        · exact safe _ (by rw [given]; rfl) _ (List.mem_map_of_mem inside)
      rcases mapM_total each with ⟨items, copied⟩
      exact ⟨some items, by rw [Python.references, copied]; rfl⟩

/-! ## Python and the shared build -/

/-- Python's validation and timestamp take what the shared ones take, when no
checked text is blank to Python only. -/
theorem stamped_iff (python : Python.Runtime) (rust : Rust.Runtime) {input : Input}
    (expressible : Expressible input) {timestamp : String} :
    (validateInput (Python.rules python) input = .ok () ∧
        Python.formatTimestamp input.timestamp = .ok timestamp) ↔
      (validateInput (Rust.rules rust) input = .ok () ∧ NoSeparatorBlank input) ∧
        ∃ instant, input.timestamp.elim (.error "timestamp is required") .ok =
          (Except.ok instant : Except String Instant) ∧
            timestamp = Rust.formatTimestamp instant := by
  have stricter : Stricter (Python.rules python) (Rust.rules rust) :=
    ⟨fun _ => pythonBlank_of_rustBlank, rustBlank_empty⟩
  have validation : (validateInput (Python.rules python) input = .ok () ∧
      Rust.unset input.timestamp = false) ↔
        (validateInput (Rust.rules rust) input = .ok () ∧ input.timestamp.isNone = false) ∧
          NoSeparatorBlank input := validateInput_iff stricter
  cases given : input.timestamp with
  | none =>
      constructor
      · rintro ⟨-, stamped⟩
        cases stamped
      · rintro ⟨-, instant, stamped, -⟩
        cases stamped
  | some instant =>
      have year := expressible.year instant given
      have set : validateInput (Rust.rules rust) input = .ok () →
          Rust.unset input.timestamp = false := unset_of_validateInput
      rw [given] at validation set
      have stamp : Python.formatTimestamp (some instant) = .ok timestamp ↔
          Rust.unset (some instant) = false ∧ timestamp = Rust.formatTimestamp instant := by
        have text : Rust.formatYear instant.year = padded 4 instant.year.toNat := by
          rw [Rust.formatYear, if_neg (by omega), if_neg (by omega)]
        have zero : (instant.atZero && instant.microsecond = 0 && instant.nanosecond = 0) =
            Rust.unset (some instant) := by
          unfold Rust.unset Instant.microsecond
          by_cases whole : instant.nanosecond = 0
          · simp [whole]
          · simp [whole]
        have range : (1 ≤ instant.year && instant.year ≤ 9999) = true := by simp [year]
        simp only [Python.formatTimestamp, zero, range, ensure_bind_eq_ok_iff, true_and,
          Bool.not_eq_true', pure_eq_ok, Except.ok.injEq, Rust.formatTimestamp, text]
        exact and_congr_right fun _ => eq_comm
      rw [stamp]
      constructor
      · rintro ⟨valid, unset, same⟩
        rcases validation.mp ⟨valid, unset⟩ with ⟨⟨shared, -⟩, plain⟩
        exact ⟨⟨shared, plain⟩, instant, rfl, same⟩
      · rintro ⟨⟨shared, plain⟩, other, stamped, same⟩
        cases stamped
        have unset := set shared
        exact ⟨(validation.mpr ⟨⟨shared, rfl⟩, plain⟩).1, unset, same⟩

/-- Capsules that agree in their normal form, with whatever is added to both,
are sealed alike. -/
theorem seal_same (lawful : box.Lawful) {left right : Payload}
    (same : ∀ more, (Json.object (left ++ more)).normal = (Json.object (right ++ more)).normal)
    {built : BuiltPayload} (sealed : sealPayload box left = .ok built) :
    ∃ other, sealPayload box right = .ok other ∧ SameCapsule built other := by
  rcases sealPayload_eq_ok_iff.mp sealed with ⟨computed, checked, written, value⟩
  have whole := same []
  rw [List.append_nil, List.append_nil] at whole
  have member := same [text "capsule_id" built.capsuleId]
  refine ⟨⟨built.capsuleId, .object (right ++ [text "capsule_id" built.capsuleId]), built.json⟩,
    sealPayload_eq_ok_iff.mpr ⟨?_, ?_, ?_, rfl⟩, rfl, ?_, rfl⟩
  · rw [← lawful.id_congr _ _ whole]
    exact computed
  · rw [← lawful.class1_congr _ _ member]
    exact checked
  · rw [← lawful.jcs_congr _ _ member]
    exact written
  · rw [value]
    exact member

/-- A Capsule of copied references and decoded extensions passes Python's depth
and text checks. -/
theorem checkJsonValue_payload {input : Input} (expressible : Expressible input)
    (timestamp : String) {copies : Option (List Json)} {members : Payload}
    (same : SameReferences copies (input.references.map (List.map (exactReference python))))
    (shape : List.Forall₂ (fun extension member => member.1 = utf8 extension.name ∧
      extension.name ∉ baseMembers ∧
        Python.decodeStrictJson python.interpreter extension.value = .ok member.2)
      input.extensions members) :
    Python.checkJsonValue "$" 1 (.object (assemble input timestamp copies ++ members)) =
      .ok () := by
  have item : ∀ items ∈ copies, ∀ item ∈ items, item.textual = true ∧ item.nesting ≤ 129 := by
    intro items given item inside
    cases given
    cases references : input.references with
    | none =>
        rw [references] at same
        cases same
    | some list =>
        rw [references] at same
        cases same with
        | some related =>
            rcases exists_of_forall₂ related.flip inside with ⟨exact, listed, normal⟩
            rcases List.mem_map.mp listed with ⟨reference, held, rfl⟩
            rw [← Json.textual_normal item, ← Json.nesting_normal item, normal,
              Json.textual_normal, Json.nesting_normal]
            constructor
            · apply textual_referenceMap
              intro tree isTree
              rcases Option.mem_map.mp isTree with ⟨c, -, rfl⟩
              exact (Json.textual_mapNumbers _).trans c.textual
            · apply nesting_referenceMap_le_iff.mpr
              intro tree isTree
              rcases Option.mem_map.mp isTree with ⟨c, carried, rfl⟩
              exact (Json.nesting_mapNumbers _).trans_le (expressible.coordinates c
                (mem_coordinates.mpr ⟨list, references, reference, held, carried⟩))
  have extension : ∀ m ∈ members, ((utf8? m.1).isSome = true ∧ m.2.textual = true) ∧
      m.2.nesting ≤ 130 := by
    intro m inside
    rcases exists_of_forall₂ shape inside with ⟨e, listed, name, -, decoded⟩
    rcases Python.decodeStrictJson_eq_ok_iff.mp decoded with ⟨document, textual, -⟩
    have shallow := expressible.extensions e listed m.2 document
    exact ⟨⟨name ▸ utf8?_isSome e.name, textual⟩, by omega⟩
  have nesting : (Json.object (assemble input timestamp copies ++ members)).nesting ≤ 130 + 1 := by
    apply (nesting_payload_le_iff (by decide)).mpr
    refine ⟨fun items given i inside => ?_, fun m inside => (extension m inside).2⟩
    have bound := (item items given i inside).2
    omega
  have levels := ArtifactStore.Python.deepest_le
    (.object (assemble input timestamp copies ++ members)) 1
  have limit : 1 + (130 + 1) ≤ ArtifactStore.Python.maxJsonDepth := by decide
  apply (Python.checkJsonValue_eq_ok_iff _ _ _).mpr
  refine ⟨textual_payload (fun items given i inside => (item items given i inside).1)
    (fun m inside => (extension m inside).1), by omega⟩

/-- Python's build, up to the copy of the Capsule it returns. -/
theorem python_build_eq_ok_iff {input : Input} {built : BuiltPayload} :
    Python.build python box input = .ok built ↔
      ∃ timestamp copies payload sealed,
        (validateInput (Python.rules python) input = .ok () ∧
          Python.formatTimestamp input.timestamp = .ok timestamp) ∧
        Python.references python box input.references = .ok copies ∧
        addExtensions (Python.decodeStrictJson python.interpreter) python.dumps
          (assemble input timestamp copies) input.extensions = .ok payload ∧
        Python.checkJsonValue "$" 1 (.object payload) = .ok () ∧
        sealPayload box payload = .ok sealed ∧
        built = ⟨sealed.capsuleId, box.loads sealed.json, sealed.json⟩ := by
  simp only [Python.build, sealPayload, bind_eq_ok_iff]
  constructor
  · rintro ⟨_, valid, timestamp, stamped, copies, copied, payload, added, _, checked, id, computed,
      _, verified, encoded, written, same⟩
    cases same
    exact ⟨timestamp, copies, payload, _, ⟨valid, stamped⟩, copied, added, checked,
      ⟨id, computed, (), verified, encoded, written, rfl⟩, rfl⟩
  · rintro ⟨timestamp, copies, payload, sealed, ⟨valid, stamped⟩, copied, added, checked,
      ⟨id, computed, _, verified, encoded, written, same⟩, rfl⟩
    cases same
    exact ⟨(), valid, timestamp, stamped, copies, copied, payload, added, (), checked, id, computed,
      (), verified, encoded, written, rfl⟩

section

variable (lawful : box.Lawful) (decoder : Rust.CapsuleDecoder rust.decode)
  (deep : Rust.decoderLevels ≤ python.interpreter.recursion) {input : Input}
  (expressible : Expressible input)

include lawful decoder deep expressible

/-- What Python builds, the shared build builds. -/
theorem shared_of_python {built : BuiltPayload}
    (takes : Python.build python box input = .ok built) :
    ∃ shared, sharedBuild python rust box input = .ok shared ∧ SameCapsule built shared ∧
      NoSeparatorBlank input := by
  rcases python_build_eq_ok_iff.mp takes with ⟨timestamp, copies, payload, sealed, valid, copied,
    added, -, closed, rfl⟩
  rcases (stamped_iff python rust expressible).mp valid with
    ⟨⟨shared, plain⟩, instant, stamped, rfl⟩
  have same := sameReferences lawful copied
  have values := fun e inside => decoders_same decoder deep (expressible.extensions e inside)
  have grown := addExtensions_same rust.debug values (names_assemble same.isSome) added
  rcases grown with ⟨members, rfl, again, -⟩
  have normal : ∀ more, (Json.object (assemble input (Rust.formatTimestamp instant) copies ++
      members ++ more)).normal = (Json.object (assemble input (Rust.formatTimestamp instant)
        (input.references.map (List.map (exactReference python))) ++ members ++ more)).normal := by
    intro more
    rw [List.append_assoc, List.append_assoc]
    exact normal_payload same
  rcases seal_same lawful normal closed with ⟨other, sealedOther, id, value, json⟩
  refine ⟨other, ?_, ⟨id, ?_, json⟩, plain⟩
  · simp only [sharedBuild, bind_eq_ok_iff]
    exact ⟨(), shared, instant, stamped, _, again, sealedOther⟩
  · have written := (sealPayload_eq_ok_iff.mp closed).2.2.1
    have read := lawful.loads_jcs _ _ written
    rw [read, ← value, (sealPayload_eq_ok_iff.mp closed).2.2.2]

/-- What the shared build builds, Python builds, when no checked text is blank
to Python only. -/
theorem python_of_shared {shared : BuiltPayload}
    (takes : sharedBuild python rust box input = .ok shared) (plain : NoSeparatorBlank input) :
    ∃ built, Python.build python box input = .ok built := by
  simp only [sharedBuild, bind_eq_ok_iff] at takes
  rcases takes with ⟨_, valid, instant, stamped, payload, added, closed⟩
  have values : ∀ e ∈ input.extensions, SameValues (Rust.decodeStrictJson rust.decode)
      (Python.decodeStrictJson python.interpreter) e.value := by
    intro e inside tree safe
    exact (decoders_same decoder deep (expressible.extensions e inside) tree safe).symm
  rcases addExtensions_shape added with ⟨members, rfl, -⟩
  -- the Capsule has an id, so its coordinates hold safe numbers only and can be copied
  have computed := (sealPayload_eq_ok_iff.mp closed).1
  have safe := (everyNumber_payload_iff.mp (lawful.id_safe _ _ computed)).1
  rcases references_total lawful expressible.coordinates safe with ⟨copies, copied⟩
  have same := sameReferences lawful copied
  have grown := addExtensions_same python.dumps values (names_assemble same.isSome.symm) added
  rcases grown with ⟨others, sameMembers, again, -⟩
  cases List.append_cancel_left sameMembers
  rcases addExtensions_shape again with ⟨others, sameMembers, shape⟩
  cases List.append_cancel_left sameMembers
  have normal : ∀ more, (Json.object (assemble input (Rust.formatTimestamp instant)
      (input.references.map (List.map (exactReference python))) ++ members ++ more)).normal =
        (Json.object (assemble input (Rust.formatTimestamp instant) copies ++ members ++
          more)).normal := by
    intro more
    rw [List.append_assoc, List.append_assoc]
    exact (normal_payload same).symm
  rcases seal_same lawful normal closed with ⟨other, sealedOther, -⟩
  have checked := checkJsonValue_payload expressible (Rust.formatTimestamp instant) same shape
  have stamps := (stamped_iff python rust expressible).mpr
    ⟨⟨valid, plain⟩, instant, stamped, rfl⟩
  exact ⟨_, python_build_eq_ok_iff.mpr ⟨_, copies, _, other, stamps, copied, again, checked,
    sealedOther, rfl⟩⟩

end

/-! ## The two packages -/

/-- Builds that give the same Capsule when both succeed agree when they succeed
on the same inputs. -/
theorem sameOutcome_iff {left right : Except String BuiltPayload}
    (same : ∀ a b, left = .ok a → right = .ok b → SameCapsule a b) :
    SameOutcome left right ↔ ((∃ a, left = .ok a) ↔ ∃ b, right = .ok b) := by
  cases left with
  | error e => cases right <;> simp [SameOutcome]
  | ok a =>
      cases right with
      | error e => simp [SameOutcome]
      | ok b => simp [SameOutcome, same a b rfl rfl]

/-- On an input both languages can express, both packages refuse or both give
the same Capsule, unless the shared checks let the input through and only one
package has something against it. -/
theorem python_rust_same_iff (lawful : box.Lawful) (decoder : Rust.CapsuleDecoder rust.decode)
    (deep : Rust.decoderLevels ≤ python.interpreter.recursion) {input : Input}
    (expressible : Expressible input) :
    SameOutcome (Python.build python box input) (Rust.build rust box input) ↔
      ((∃ shared, sharedBuild python rust box input = .ok shared) →
        (NoSeparatorBlank input ↔ NoFloat input ∧ Shallow input)) := by
  have pythonBuilds : (∃ built, Python.build python box input = .ok built) ↔
      (∃ shared, sharedBuild python rust box input = .ok shared) ∧ NoSeparatorBlank input := by
    constructor
    · rintro ⟨built, takes⟩
      rcases shared_of_python lawful decoder deep expressible takes with ⟨shared, again, -, plain⟩
      exact ⟨⟨shared, again⟩, plain⟩
    · rintro ⟨⟨shared, takes⟩, plain⟩
      exact python_of_shared lawful decoder deep expressible takes plain
  have rustBuilds : (∃ built, Rust.build rust box input = .ok built) ↔
      (∃ shared, sharedBuild python rust box input = .ok shared) ∧
        NoFloat input ∧ Shallow input := by
    rw [← exists_and_right]
    exact exists_congr fun _ => rust_build_eq_ok_iff python lawful decoder
  have same : ∀ a b, Python.build python box input = .ok a → Rust.build rust box input = .ok b →
      SameCapsule a b := by
    intro a b left right
    rcases shared_of_python lawful decoder deep expressible left with ⟨shared, takes, same, -⟩
    have again := ((rust_build_eq_ok_iff python lawful decoder).mp right).1
    rw [takes] at again
    cases again
    exact same
  rw [sameOutcome_iff same, pythonBuilds, rustBuilds]
  exact and_congr_right_iff

end

/-! ## Separators -/

def plainPython : Python.Runtime where
  interpreter := ArtifactStore.freshInterpreter
  wholeNumber := fun _ => none
  dumps := fun value => "\"" ++ value ++ "\""

def plainRust : Rust.Runtime where
  decode := plainDecoder
  debug := fun value => "\"" ++ value ++ "\""

/-- Noon on the first of May 2026. -/
def someNoon : Instant where
  year := 2026
  month := 5
  day := 1
  hour := 12
  minute := 0
  second := 0
  nanosecond := 0
  inMonth := by decide
  inDay := by decide
  inHour := by decide
  inMinute := by decide
  inSecond := by decide
  inNanosecond := by decide

/-- An act with nothing but its required texts. -/
def bareInput (actionId : String) : Input where
  actionId := actionId
  actionType := actionFyi
  operator := "clinic"
  developer := "vendor"
  timestamp := some someNoon
  epochId := ""
  domain := ""
  provenance := ""
  disposition := none
  effect := none
  chain := none
  references := none
  model := none
  compute := none
  provenanceMode := none
  extensions := []

theorem bareInput_expressible (actionId : String) : Expressible (bareInput actionId) where
  year instant given := by
    cases given
    decide
  coordinates := nofun
  extensions := nofun

theorem bareInput_narrow (actionId : String) :
    NoFloat (bareInput actionId) ∧ Shallow (bareInput actionId) := ⟨nofun, nofun, nofun⟩

/-- The shared build takes a bare act whose id is not blank. -/
theorem sharedBuild_bareInput {actionId : String} (named : rustBlank actionId = false) :
    ∃ shared, sharedBuild plainPython plainRust plainCanonicalizer (bareInput actionId) =
      .ok shared := by
  have operator : rustBlank "clinic" = false := by decide
  have developer : rustBlank "vendor" = false := by decide
  have stamped : Rust.unset (some someNoon) = false := by decide
  have different : actionFyi ≠ actionDecide := by decide
  have valid : validateInput (Rust.rules plainRust) (bareInput actionId) = .ok () := by
    simp only [validateInput, bareInput, Rust.rules, named, operator, developer, stamped, different,
      decide_true, decide_false, Bool.true_or, Bool.false_and, Bool.not_false, ensure_true, ok_bind,
      validateBlock]
  have safe : (Json.object (assemble (bareInput actionId) (Rust.formatTimestamp someNoon)
      none)).everyNumber isSafe = true := by
    rw [← List.append_nil (assemble _ _ _)]
    apply everyNumber_payload_iff.mpr
    constructor
    · intro items impossible
      cases impossible
    · intro entry impossible
      cases impossible
  rcases plainCanonicalizer_seals safe with ⟨id, bytes, computed, written⟩
  let payload := assemble (bareInput actionId) (Rust.formatTimestamp someNoon) none
  refine ⟨⟨id, .object (payload ++ [text "capsule_id" id]), bytes⟩, ?_⟩
  simp only [sharedBuild, bind_eq_ok_iff]
  exact ⟨(), valid, someNoon, rfl, payload, rfl,
    sealPayload_eq_ok_iff.mpr ⟨computed, rfl, written, rfl⟩⟩

/-- An action id of one unit separator is an id to Rust and blank to Python. -/
theorem unitSeparator_differ : Expressible (bareInput "\x1f") ∧
    ¬ SameOutcome (Python.build plainPython plainCanonicalizer (bareInput "\x1f"))
      (Rust.build plainRust plainCanonicalizer (bareInput "\x1f")) := by
  refine ⟨bareInput_expressible _, ?_⟩
  have named : rustBlank "\x1f" = false := by decide
  rcases sharedBuild_bareInput named with ⟨shared, takes⟩
  have rust := (rust_build_eq_ok_iff plainPython plainCanonicalizer_lawful plainDecoder_capsule).mpr
    ⟨takes, bareInput_narrow "\x1f"⟩
  have python : Python.build plainPython plainCanonicalizer (bareInput "\x1f") =
      .error "action id is required" := rfl
  rw [rust, python]
  exact id

theorem bareAct_same : SameOutcome (Python.build plainPython plainCanonicalizer (bareInput "act"))
    (Rust.build plainRust plainCanonicalizer (bareInput "act")) :=
  (python_rust_same_iff plainCanonicalizer_lawful plainDecoder_capsule (by decide)
    (bareInput_expressible "act")).mpr fun _ =>
      ⟨fun _ => bareInput_narrow "act", fun _ => by unfold NoSeparatorBlank; decide⟩

end Produce
end CapsuleEmit
