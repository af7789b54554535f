import CapsuleEmit.Produce.Model

namespace CapsuleEmit
namespace Produce

/-!
# Validating what a producer records

The Python and the Rust package check an input in the same steps, mirroring
the Go one; they differ in which texts count as blank, in how a text is
quoted in an error and in where an unset timestamp is noticed.  The steps are
written once over these three.

Python's `strip` and Rust's `trim` both remove the Unicode white space, and
Python's the four information separators as well.  So whatever Python lets
through has no separator-only text where a text is required, and is otherwise
what Rust lets through.
-/

/-! ## Blank texts -/

/-- The characters with the Unicode property White_Space. -/
def isWhiteSpace (c : Char) : Bool :=
  let n := c.toNat
  (9 ≤ n && n ≤ 13) || n = 32 || n = 0x85 || n = 0xA0 || n = 0x1680 ||
    (0x2000 ≤ n && n ≤ 0x200A) || n = 0x2028 || n = 0x2029 || n = 0x202F || n = 0x205F ||
    n = 0x3000

/-- The file, group, record and unit separators, which Python's `str.isspace`
also takes for white space. -/
def isSeparator (c : Char) : Bool := 0x1C ≤ c.toNat && c.toNat ≤ 0x1F

/-- Rust: `value.trim().is_empty()`. -/
def rustBlank (value : String) : Bool := value.toList.all isWhiteSpace

/-- Python: `not value.strip()`. -/
def pythonBlank (value : String) : Bool :=
  value.toList.all (fun c => isWhiteSpace c || isSeparator c)

theorem pythonBlank_of_rustBlank {value : String} (blank : rustBlank value = true) :
    pythonBlank value = true := by
  rw [rustBlank, List.all_eq_true] at blank
  rw [pythonBlank, List.all_eq_true]
  intro c inside
  rw [blank c inside, Bool.true_or]

theorem rustBlank_empty : rustBlank "" = true := rfl

/-- A text Python strips to nothing and Rust does not. -/
def separatorBlank (value : String) : Bool := pythonBlank value && !rustBlank value

theorem blank_eq_of_not_separatorBlank {value : String} (plain : separatorBlank value = false) :
    pythonBlank value = rustBlank value := by
  cases rust : rustBlank value with
  | true => exact pythonBlank_of_rustBlank rust
  | false => simpa [separatorBlank, rust] using plain

/-! ## The checks -/

/-- What the packages do differently while they validate. -/
structure Rules where
  blank : String → Bool
  unset : Option Instant → Bool
  quote : String → String

variable (rules : Rules)

def validateDisposition (disposition : Disposition) : Except String Unit := do
  ensure (disposition.decision ≠ "") "disposition decision is required"
  ensure ([human, policy, counterparty].contains disposition.approver)
    "disposition approver must be \"human\", \"policy\", or \"counterparty\""
  ensure (!(disposition.humanDisposed && disposition.approver ≠ human))
    "human-disposed decision requires human approver"
  ensure (disposition.reasonDigest = "" || isHex64 disposition.reasonDigest)
    "disposition reason digest must be 64 lowercase hex characters"

/-- Which digests and attestation each effect status requires or forbids. -/
def validateStatus (effect : Effect) : Except String Unit :=
  if effect.status = planned then do
    ensure (effect.requestDigest = "" && effect.responseDigest = "")
      "planned effect must not carry request or response digests"
    ensure (effect.effectAttestation = "") "planned effect must not carry effect attestation"
  else if effect.status = dispatched then do
    ensure (effect.responseDigest = "") "dispatched effect must not carry a response digest"
    ensure (effect.effectAttestation ≠ "") "dispatched effect requires effect attestation"
  else if effect.status = confirmed then do
    ensure (effect.responseDigest ≠ "") "confirmed effect requires a response digest"
    ensure (effect.effectAttestation ≠ "") "confirmed effect requires effect attestation"
  else
    ensure (effect.effectAttestation ≠ "") (effect.status ++ " effect requires effect attestation")

def validateEffect (effect : Effect) : Except String Unit := do
  ensure (!rules.blank effect.type) "effect type is required"
  ensure ([planned, dispatched, confirmed, failed, reverted].contains effect.status)
    ("unsupported effect status " ++ rules.quote effect.status)
  ensure (effect.irreversibilityClass ≠ "") "effect irreversibility class is required"
  ensure (effect.requestDigest = "" || isHex64 effect.requestDigest)
    "effect request digest must be 64 lowercase hex characters"
  ensure (effect.responseDigest = "" || isHex64 effect.responseDigest)
    "effect response digest must be 64 lowercase hex characters"
  validateStatus effect

def validateModel (model : Model) : Except String Unit := do
  ensure (!(rules.blank model.provider && rules.blank model.modelId))
    "model must include provider or model id"
  ensure (model.provider = "" || !rules.blank model.provider)
    "model provider must be non-empty when present"
  ensure (model.modelId = "" || !rules.blank model.modelId)
    "model id must be non-empty when present"

def validateCompute (compute : ComputeAttestation) : Except String Unit := do
  ensure (compute.runtime = "" || !rules.blank compute.runtime)
    "compute attestation runtime must be non-empty when present"
  ensure (!(compute.agentInputDigest = "" && compute.agentOutputDigest = "" &&
    compute.runtime = "")) "compute attestation must include a digest or runtime"
  ensure (compute.agentInputDigest = "" || isHex64 compute.agentInputDigest)
    "compute attestation agent input digest must be 64 lowercase hex characters"
  ensure (compute.agentOutputDigest = "" || isHex64 compute.agentOutputDigest)
    "compute attestation agent output digest must be 64 lowercase hex characters"

def validateChain (epochId : String) (chain : Chain) : Except String Unit := do
  ensure (isHex64 chain.parentCapsuleId)
    "chain parent capsule id must be 64 lowercase hex characters"
  ensure (chain.relation ≠ "") "chain relation is required"
  ensure (!(chain.relation = epochOpens && epochId = "")) "epoch_opens chain requires epoch id"

/-- The companions a backfilled import lacks. -/
def missingCompanions (mode : ProvenanceMode) : List String :=
  (if mode.sourceRef.isNone then ["source ref"] else []) ++
    (if rules.blank mode.sourceAssertedAt then ["source asserted at"] else []) ++
    (if rules.blank mode.importBatch then ["import batch"] else []) ++
    (if rules.blank mode.importedAt then ["imported at"] else [])

/-- A source reference that names its artifact. -/
def namesSource (source : Reference) : Bool :=
  !(rules.blank source.type || rules.blank source.digestAlg || rules.blank source.digest)

def companions (mode : ProvenanceMode) : Bool :=
  mode.sourceRef.isSome || mode.sourceAssertedAt ≠ "" || mode.importBatch ≠ "" ||
    mode.importedAt ≠ ""

def validateProvenanceMode (mode : ProvenanceMode) : Except String Unit := do
  ensure (mode.mode = contemporaneous || mode.mode = backfilled)
    "provenance mode must be \"contemporaneous\" or \"backfilled\""
  ensure (mode.sourceRef.all (fun source =>
      source.citationPurpose = "" && source.logCoordinates.isNone))
    "provenance mode source ref must not carry citation purpose or log coordinates"
  if mode.mode = backfilled then do
    ensure (mode.sourceRef.all (namesSource rules))
      "provenance mode source ref requires type, digest alg, and digest"
    ensure (missingCompanions rules mode).isEmpty
      ("backfilled provenance mode requires " ++ ", ".intercalate (missingCompanions rules mode))
  else
    ensure (!(companions mode || mode.timeRung ≠ ""))
      ("provenance mode source ref, source asserted at, import batch, imported at, and time rung " ++
        "are meaningful only when mode is \"backfilled\"")
  ensure (mode.timeRung = "" || mode.timeRung = selfAttested || mode.timeRung = witnessed)
    "provenance mode time rung must be \"self_attested\" or \"witnessed\""

/-- A check of an optional block. -/
def validateBlock {α : Type} (check : α → Except String Unit) : Option α → Except String Unit
  | none => .ok ()
  | some value => check value

def validateInput (input : Input) : Except String Unit := do
  ensure (!rules.blank input.actionId) "action id is required"
  ensure (!rules.blank input.operator) "operator is required"
  ensure (!rules.blank input.developer) "developer is required"
  ensure (!rules.unset input.timestamp) "timestamp is required"
  ensure (input.actionType = actionFyi || input.actionType = actionDecide)
    "action type must be \"fyi\" or \"decide\""
  ensure (!(input.actionType = actionDecide && input.disposition.isNone))
    "decide action requires a disposition"
  validateBlock validateDisposition input.disposition
  validateBlock (validateEffect rules) input.effect
  validateBlock (validateModel rules) input.model
  validateBlock (validateCompute rules) input.compute
  validateBlock (validateChain input.epochId) input.chain
  validateBlock (validateProvenanceMode rules) input.provenanceMode

/-! ## Rules that differ in what is blank -/

theorem ensure_bind_eq_ok_iff {α : Type} {condition : Bool} {error : String}
    {rest : Unit → Except String α} {a : α} :
    (ensure condition error >>= rest) = .ok a ↔ condition = true ∧ rest () = .ok a := by
  cases condition <;> simp

theorem validateBlock_eq_ok_iff {α : Type} {check : α → Except String Unit} {block : Option α} :
    validateBlock check block = .ok () ↔ ∀ value ∈ block, check value = .ok () := by
  cases block <;> simp [validateBlock]

theorem block_bind_eq_ok_iff {α β : Type} {check : α → Except String Unit} {block : Option α}
    {rest : Unit → Except String β} {b : β} :
    (validateBlock check block >>= rest) = .ok b ↔
      validateBlock check block = .ok () ∧ rest () = .ok b := by
  cases validateBlock check block <;> simp

section

variable (strict lenient : Rules)

/-- A text that is blank under the strict rules only. -/
def differs (value : String) : Bool := strict.blank value && !lenient.blank value

/-- The strict rules take at least what the lenient ones take for blank, and
nothing at all is blank. -/
structure Stricter : Prop where
  blank : ∀ value, lenient.blank value = true → strict.blank value = true
  empty : lenient.blank "" = true

/-- The texts of a model that are tested for being blank, and so on for the
other blocks. -/
def Model.checked (model : Model) : List String := [model.provider, model.modelId]

def Reference.checked (source : Reference) : List String :=
  [source.type, source.digestAlg, source.digest]

def ProvenanceMode.checked (mode : ProvenanceMode) : List String :=
  if mode.mode = backfilled then
    mode.sourceRef.elim [] Reference.checked ++
      [mode.sourceAssertedAt, mode.importBatch, mode.importedAt]
  else []

/-- Every text of an input that is tested for being blank. -/
def Input.checked (input : Input) : List String :=
  [input.actionId, input.operator, input.developer] ++
    input.effect.elim [] (fun effect => [effect.type]) ++ input.model.elim [] Model.checked ++
    input.compute.elim [] (fun compute => [compute.runtime]) ++
    input.provenanceMode.elim [] ProvenanceMode.checked

/-- No text of a list is blank under the strict rules only. -/
def Plain (values : List String) : Prop := ∀ value ∈ values, differs strict lenient value = false

variable {strict lenient}

theorem notBlank_iff (stricter : Stricter strict lenient) (value : String) :
    (!strict.blank value) = true ↔
      (!lenient.blank value) = true ∧ differs strict lenient value = false := by
  have blank := stricter.blank value
  unfold differs
  revert blank
  cases strict.blank value <;> cases lenient.blank value <;> simp

theorem absent_or_notBlank_iff (stricter : Stricter strict lenient) (value : String) :
    (value = "" || !strict.blank value) = true ↔
      (value = "" || !lenient.blank value) = true ∧ differs strict lenient value = false := by
  by_cases absent : value = ""
  · simp [absent, differs, stricter.empty]
  · simp only [absent, decide_false, Bool.false_or]
    exact notBlank_iff stricter value

theorem validateEffect_iff (stricter : Stricter strict lenient) (effect : Effect) :
    validateEffect strict effect = .ok () ↔
      validateEffect lenient effect = .ok () ∧ Plain strict lenient [effect.type] := by
  simp only [validateEffect, ensure_bind_eq_ok_iff, notBlank_iff stricter, Plain,
    List.mem_singleton, forall_eq]
  tauto

theorem validateCompute_iff (stricter : Stricter strict lenient) (compute : ComputeAttestation) :
    validateCompute strict compute = .ok () ↔
      validateCompute lenient compute = .ok () ∧ Plain strict lenient [compute.runtime] := by
  simp only [validateCompute, ensure_bind_eq_ok_iff, absent_or_notBlank_iff stricter, Plain,
    List.mem_singleton, forall_eq]
  tauto

theorem validateModel_iff (stricter : Stricter strict lenient) (model : Model) :
    validateModel strict model = .ok () ↔
      validateModel lenient model = .ok () ∧ Plain strict lenient model.checked := by
  simp only [validateModel, ensure_bind_eq_ok_iff, ensure_eq_ok_iff,
    absent_or_notBlank_iff stricter, Plain, Model.checked, List.mem_cons, List.not_mem_nil,
    or_false, forall_eq_or_imp, forall_eq]
  have both : differs strict lenient model.provider = false →
      differs strict lenient model.modelId = false →
      (strict.blank model.provider && strict.blank model.modelId) =
        (lenient.blank model.provider && lenient.blank model.modelId) := by
    have first := stricter.blank model.provider
    have second := stricter.blank model.modelId
    unfold differs
    revert first second
    cases strict.blank model.provider <;> cases lenient.blank model.provider <;>
      cases strict.blank model.modelId <;> cases lenient.blank model.modelId <;> simp
  constructor
  · rintro ⟨some, ⟨provider, plain⟩, id, plainId⟩
    rw [both plain plainId] at some
    exact ⟨⟨some, provider, id⟩, plain, plainId⟩
  · rintro ⟨⟨some, provider, id⟩, plain, plainId⟩
    rw [both plain plainId]
    exact ⟨some, ⟨provider, plain⟩, id, plainId⟩

theorem namesSource_iff (stricter : Stricter strict lenient) (source : Reference) :
    namesSource strict source = true ↔
      namesSource lenient source = true ∧ Plain strict lenient source.checked := by
  have type := notBlank_iff stricter source.type
  have alg := notBlank_iff stricter source.digestAlg
  have digest := notBlank_iff stricter source.digest
  simp only [namesSource, Plain, Reference.checked, List.mem_cons, List.not_mem_nil, or_false,
    forall_eq_or_imp, forall_eq, Bool.not_or, Bool.and_eq_true, type, alg, digest]
  tauto

theorem missingCompanions_iff (stricter : Stricter strict lenient) (mode : ProvenanceMode) :
    (missingCompanions strict mode).isEmpty = true ↔
      (missingCompanions lenient mode).isEmpty = true ∧
        Plain strict lenient [mode.sourceAssertedAt, mode.importBatch, mode.importedAt] := by
  have none : ∀ rules : Rules, (missingCompanions rules mode).isEmpty = true ↔
      mode.sourceRef.isNone = false ∧ (!rules.blank mode.sourceAssertedAt) = true ∧
        (!rules.blank mode.importBatch) = true ∧ (!rules.blank mode.importedAt) = true := by
    intro rules
    simp only [missingCompanions, List.isEmpty_iff, List.append_eq_nil_iff, ite_eq_right_iff,
      List.cons_ne_nil, imp_false, Bool.not_eq_true, Bool.not_eq_true', and_assoc]
  rw [none strict, none lenient, notBlank_iff stricter, notBlank_iff stricter,
    notBlank_iff stricter]
  simp only [Plain, List.mem_cons, List.not_mem_nil, or_false, forall_eq_or_imp, forall_eq]
  tauto

theorem plain_append {left right : List String} : Plain strict lenient (left ++ right) ↔
    Plain strict lenient left ∧ Plain strict lenient right := by
  simp only [Plain, List.mem_append]
  exact ⟨fun all => ⟨fun v inside => all v (Or.inl inside), fun v inside => all v (Or.inr inside)⟩,
    fun ⟨first, second⟩ v inside => inside.elim (first v) (second v)⟩

theorem plain_nil : Plain strict lenient [] := by simp [Plain]

theorem validateProvenanceMode_iff (stricter : Stricter strict lenient) (mode : ProvenanceMode) :
    validateProvenanceMode strict mode = .ok () ↔
      validateProvenanceMode lenient mode = .ok () ∧ Plain strict lenient mode.checked := by
  have source : mode.sourceRef.all (namesSource strict) = true ↔
      mode.sourceRef.all (namesSource lenient) = true ∧
        Plain strict lenient (mode.sourceRef.elim [] Reference.checked) := by
    cases mode.sourceRef with
    | none => simp [plain_nil]
    | some source => exact namesSource_iff stricter source
  simp only [validateProvenanceMode, ProvenanceMode.checked]
  by_cases import' : mode.mode = backfilled
  · simp only [if_pos import', ensure_bind_eq_ok_iff, ensure_eq_ok_iff, source,
      missingCompanions_iff stricter, plain_append]
    tauto
  · simp only [if_neg import', plain_nil, and_true]

/-- A check of an optional block, when it is stricter by some texts. -/
theorem validateBlock_iff {α : Type} {check other : α → Except String Unit}
    {checked : α → List String}
    (same : ∀ value, check value = .ok () ↔
      other value = .ok () ∧ Plain strict lenient (checked value)) (block : Option α) :
    validateBlock check block = .ok () ↔
      validateBlock other block = .ok () ∧ Plain strict lenient (block.elim [] checked) := by
  cases block with
  | none => simp [validateBlock, plain_nil]
  | some value => exact same value

/-- The strict rules let an input through exactly when the lenient ones do and
none of its checked texts is blank under the strict rules only; each where the
other takes the timestamp. -/
theorem validateInput_iff (stricter : Stricter strict lenient) {input : Input} :
    (validateInput strict input = .ok () ∧ lenient.unset input.timestamp = false) ↔
      (validateInput lenient input = .ok () ∧ strict.unset input.timestamp = false) ∧
        Plain strict lenient input.checked := by
  have required : Plain strict lenient [input.actionId, input.operator, input.developer] ↔
      differs strict lenient input.actionId = false ∧
        differs strict lenient input.operator = false ∧
          differs strict lenient input.developer = false := by
    simp only [Plain, List.mem_cons, List.not_mem_nil, or_false, forall_eq_or_imp, forall_eq]
  simp only [validateInput, Input.checked, ensure_bind_eq_ok_iff, block_bind_eq_ok_iff,
    notBlank_iff stricter, Bool.not_eq_true', plain_append, required,
    validateBlock_iff (validateEffect_iff stricter), validateBlock_iff (validateModel_iff stricter),
    validateBlock_iff (validateCompute_iff stricter),
    validateBlock_iff (validateProvenanceMode_iff stricter)]
  tauto

theorem unset_of_validateInput {rules : Rules} {input : Input}
    (valid : validateInput rules input = .ok ()) : rules.unset input.timestamp = false := by
  simp only [validateInput, ensure_bind_eq_ok_iff, Bool.not_eq_true'] at valid
  exact valid.2.2.2.1

end

end Produce
end CapsuleEmit
