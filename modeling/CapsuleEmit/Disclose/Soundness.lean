import CapsuleEmit.Disclose.Verify
import CapsuleEmit.ArtifactStore.Concrete

namespace CapsuleEmit
namespace Disclose

open Python

/-!
# What an accepted disclosure proves

For each id an accepted disclosure has a record proof that verifies, and every
value disclosed under the id recomputes to the digest its receipt commits.
The verifier does not compare the id with the one the proof is for, nor the
disclosed fields with the signed ones and the suppressed ones, and it does not
look at entries under other ids.  An accepted disclosure shows exactly what the
producer signed when these agree.
-/

variable {packages : Packages} {trustAnchor : List (String × Bytes)} {d : Disclosure}

/-! ## Reports without errors -/

namespace Report

/-- No error and nothing raised. -/
def Clean (report : Report) : Prop := report.errors = [] ∧ report.raised = none

theorem clean_require {condition : Bool} {error : String} :
    (require condition error).Clean ↔ condition = true := by
  cases condition <;> simp [require, Clean, clean]

theorem clean_ofValue {α : Type} {value : Except String α} {report : α → Report} :
    (ofValue value report).Clean ↔ ∃ a, value = .ok a ∧ (report a).Clean := by
  cases value with
  | error raised => simp [ofValue, Clean]
  | ok a => simp [ofValue]

theorem clean_all {reports : List Report} :
    (all reports).Clean ↔ ∀ report ∈ reports, report.Clean := by
  induction reports with
  | nil => simp [all, Clean, clean]
  | cons first rest ih =>
      rw [List.forall_mem_cons, ← ih, all]
      cases raised : first.raised with
      | some text => simp [Clean, raised]
      | none =>
          simp only [Clean, List.append_eq_nil_iff, raised, and_true]
          exact and_assoc

end Report

/-- A disclosure is accepted when every check is clean. -/
theorem verifyDisclosure_iff : (verifyDisclosure packages trustAnchor d).1 = true ↔
    (checkDisclosureRecord packages d).Clean ∧
      ∀ cid ∈ d.recordIds, (checkRecord packages trustAnchor d cid).Clean := by
  have every : (∀ report ∈ checkDisclosureRecord packages d ::
      d.recordIds.map (checkRecord packages trustAnchor d), report.Clean) ↔
      (checkDisclosureRecord packages d).Clean ∧
        ∀ cid ∈ d.recordIds, (checkRecord packages trustAnchor d cid).Clean := by
    rw [List.forall_mem_cons, List.forall_mem_map]
  rw [← every, ← Report.clean_all]
  unfold verifyDisclosure
  generalize Report.all _ = report
  cases raised : report.raised with
  | some text => simp [Report.Clean, raised]
  | none => simp [Report.Clean, raised]

/-! ## What other packages promise -/

/-- A check that fails says why. -/
structure Packages.Lawful (packages : Packages) : Prop where
  invalid_says : ∀ record, (packages.recordSignature record).1 = .invalid →
    (packages.recordSignature record).2 ≠ []
  refused_says : ∀ b anchor, (packages.logIntegrity b anchor).1 = false →
    (packages.logIntegrity b anchor).2 ≠ []

/-- A record proof that does not verify has an error. -/
theorem Packages.Lawful.verifyRecordProof_says (lawful : packages.Lawful) (b : RecordProof)
    (failed : (verifyRecordProof packages trustAnchor b).1 = false) :
    (verifyRecordProof packages trustAnchor b).2 ≠ [] := by
  intro silent
  unfold verifyRecordProof at failed silent
  cases carries : b.receipt.get "capsule_id" with
  | error raised => simp [carries] at silent
  | ok carried =>
      simp only [carries, List.append_eq_nil_iff] at failed silent
      obtain ⟨⟨⟨named, hashed⟩, authored⟩, logged⟩ := silent
      have accepted : (packages.logIntegrity b trustAnchor).1 = true := by
        by_contra refused
        exact lawful.refused_says b trustAnchor (eq_false_of_ne_true refused) logged
      have valid : (packages.recordSignature b.receipt).1 ≠ .invalid := by
        intro invalid
        rw [invalid] at authored
        exact lawful.invalid_says b.receipt invalid authored
      have same : carried.eq b.capsuleId = true := by
        by_contra different
        rw [if_neg different] at named
        cases named
      cases computed : computeCapsuleId packages b.receipt with
      | error raised => simp [computed] at hashed
      | ok recomputed =>
          have recomputes : (Value.str recomputed).eq carried = true := by
            by_contra different
            simp [computed, different] at hashed
          simp [computed, recomputes, same, valid, accepted] at failed

/-! ## What the checks of an id establish -/

/-- The values a disclosure discloses under an id, by field. -/
def disclosed (d : Disclosure) (cid : String) : List (String × Value) :=
  match (disclosuresOf (Value.lookup cid d.envelopes)).bind (Value.members "items") with
  | .ok entries => entries
  | .error _ => []

/-- A receipt commits a digest for a field. -/
def Commits (receipt : Value) (field digest : String) : Prop :=
  (computeAttestation receipt).bind (fun attestation => committed attestation field) =
    .ok (.str digest)

theorem eq_str {s : String} {value : Value} (same : (Value.str s).eq value = true) :
    value = .str s := by
  cases value <;> simp [Value.eq] at same
  rw [same]

theorem commits_of_clean {cid : String} {receipt attestation : Value} {entry : String × Value}
    (found : computeAttestation receipt = .ok attestation)
    (clean : (checkField packages cid attestation entry).Clean) :
    ∃ digest, packages.jsonDigest entry.2 = .ok digest ∧ Commits receipt entry.1 digest := by
  obtain ⟨stored, commits, clean⟩ := Report.clean_ofValue.mp clean
  split at clean
  · cases clean.1
  · split at clean
    · cases clean.1
    · cases clean.2
    · next digest computed =>
        have same := eq_str (Report.clean_require.mp clean)
        refine ⟨digest, computed, ?_⟩
        rw [Commits, found, Except.bind, commits, same]

/-- The proof of an accepted id verifies, and its receipt commits every value
disclosed under the id. -/
theorem of_checkRecord (lawful : packages.Lawful) {cid : String}
    (clean : (checkRecord packages trustAnchor d cid).Clean) :
    ∃ b, Value.lookup cid d.bundles = some b ∧
      (verifyRecordProof packages trustAnchor b).1 = true ∧
      ∀ entry ∈ disclosed d cid, ∃ digest, packages.jsonDigest entry.2 = .ok digest ∧
        Commits b.receipt entry.1 digest := by
  unfold checkRecord at clean
  split at clean
  · cases clean.1
  · next b found =>
      have checks := Report.clean_all.mp clean
      have proof := checks _ List.mem_cons_self
      have fields := checks _ (List.mem_cons_of_mem _ List.mem_cons_self)
      refine ⟨b, found, ?_, fun entry member => ?_⟩
      · by_contra failed
        rw [if_neg failed] at proof
        exact lawful.verifyRecordProof_says b (eq_false_of_ne_true failed)
          (List.map_eq_nil_iff.mp proof.1)
      · obtain ⟨disclosures, opened, fields⟩ := Report.clean_ofValue.mp fields
        obtain ⟨attestation, attested, fields⟩ := Report.clean_ofValue.mp fields
        obtain ⟨entries, listed, fields⟩ := Report.clean_ofValue.mp fields
        rw [disclosed, opened] at member
        simp only [Except.bind, listed] at member
        exact commits_of_clean attested
          (Report.clean_all.mp fields _ (List.mem_map_of_mem member))

/-! ## What the signed record states -/

/-- The ids the signed record lists. -/
def signedIds (d : Disclosure) : Except String (List Value) := do
  let members ← d.disclosureRecord.members "get"
  ((Value.lookup "disclosed_capsule_ids" members).getD (.list [])).toList

/-- The fields the signed record lists as disclosed for an id. -/
def signedFields (d : Disclosure) (cid : String) : List Value :=
  match (d.disclosureRecord.get "disclosed_fields").bind (Value.get cid) with
  | .ok (.list fields) => fields
  | _ => []

/-- The fields the signed record lists as suppressed. -/
def signedSuppressed (d : Disclosure) : List Value :=
  match d.disclosureRecord.get "suppressed_fields" with
  | .ok (.list fields) => fields
  | _ => []

theorem str_of_eq {value : Value} {s : String} (same : value.eq (.str s) = true) :
    value = .str s := by
  cases value <;> simp [Value.eq, Value.number?] at same
  rw [same]

theorem forall₂_of_eqItems {xs : List Value} : {ys : List Value} →
    Value.eqItems xs ys = true → List.Forall₂ (fun x y => x.eq y = true) xs ys := by
  induction xs with
  | nil =>
      intro ys same
      cases ys with
      | nil => exact List.Forall₂.nil
      | cons y ys => simp [Value.eqItems] at same
  | cons x xs ih =>
      intro ys same
      cases ys with
      | nil => simp [Value.eqItems] at same
      | cons y ys =>
          rw [Value.eqItems, Bool.and_eq_true] at same
          exact List.Forall₂.cons same.1 (ih same.2)

/-- A list of values equal to a list of texts is that list. -/
theorem eq_of_eqItems {values : List Value} {texts : List String}
    (same : Value.eqItems values (texts.map .str) = true) : values = texts.map .str := by
  have each := List.forall₂_map_right_iff.mp (forall₂_of_eqItems same)
  rw [← List.forall₂_eq_eq_eq, List.forall₂_map_right_iff]
  exact each.imp (fun _ _ => str_of_eq)

theorem eq_of_eqItems_left {values : List Value} {texts : List String}
    (same : Value.eqItems (texts.map .str) values = true) : values = texts.map .str := by
  have each := List.forall₂_map_left_iff.mp (forall₂_of_eqItems same)
  symm
  rw [← List.forall₂_eq_eq_eq, List.forall₂_map_left_iff]
  exact each.imp (fun _ _ same => (eq_str same).symm)

/-- What the checks of the signed record establish: it is signed, and it lists
the ids and the suppressed fields of the disclosure. -/
theorem of_checkDisclosureRecord (clean : (checkDisclosureRecord packages d).Clean) :
    (packages.recordSignature d.disclosureRecord).1 = .authored ∧
      signedIds d = .ok (d.recordIds.map .str) ∧
      signedSuppressed d = d.suppressedFields.map .str := by
  have checks := Report.clean_all.mp clean
  simp only [List.forall_mem_cons] at checks
  obtain ⟨authored, -, ids, -, suppressed, -⟩ := checks
  refine ⟨of_decide_eq_true (Report.clean_require.mp authored), ?_, ?_⟩
  · obtain ⟨listed, found, same⟩ := Report.clean_ofValue.mp ids
    rw [signedIds, found, eq_of_eqItems (Report.clean_require.mp same)]
  · obtain ⟨listed, found, same⟩ := Report.clean_ofValue.mp suppressed
    have same := Report.clean_require.mp same
    rw [signedSuppressed, found]
    cases listed <;> simp only [Value.eq, Bool.false_eq_true] at same
    exact eq_of_eqItems_left same

/-! ## Soundness -/

/-- What a disclosure shows its audience, given the records of the log: the
producer signed it, every id is proved by a record with that id, which
discloses the signed fields and no suppressed one, with the values the record
commits, and nothing is under another id. -/
structure Sound (packages : Packages) (trustAnchor : List (String × Bytes))
    (records : String → Option Value) (d : Disclosure) : Prop where
  signed : (packages.recordSignature d.disclosureRecord).1 = .authored
  ids : signedIds d = .ok (d.recordIds.map .str)
  proved : ∀ cid ∈ d.recordIds, ∃ b, Value.lookup cid d.bundles = some b ∧
    (verifyRecordProof packages trustAnchor b).1 = true ∧ b.capsuleId = .str cid ∧
    records cid = some b.receipt
  fields : ∀ cid ∈ d.recordIds, ∀ value,
    value ∈ signedFields d cid ↔ ∃ entry ∈ disclosed d cid, value = .str entry.1
  shown : ∀ cid ∈ d.recordIds, ∀ entry ∈ disclosed d cid, entry.1 ∉ d.suppressedFields
  digests : ∀ cid ∈ d.recordIds, ∀ entry ∈ disclosed d cid, ∃ receipt digest,
    records cid = some receipt ∧ packages.jsonDigest entry.2 = .ok digest ∧
    Commits receipt entry.1 digest
  bundles : ∀ member ∈ d.bundles, member.1 ∈ d.recordIds
  envelopes : ∀ member ∈ d.envelopes, member.1 ∈ d.recordIds

/-- What the verifier does not compare: a record proof under an id is for that
id, the envelopes disclose the fields the signed record lists, the signed
record lists no field both as disclosed and as suppressed, and nothing is
under another id. -/
structure Coherent (d : Disclosure) : Prop where
  own : ∀ cid ∈ d.recordIds, ∀ b, Value.lookup cid d.bundles = some b → b.capsuleId = .str cid
  fields : ∀ cid ∈ d.recordIds, ∀ value,
    value ∈ signedFields d cid ↔ ∃ entry ∈ disclosed d cid, value = .str entry.1
  apart : ∀ cid ∈ d.recordIds, ∀ value ∈ signedFields d cid, value ∉ signedSuppressed d
  bundles : ∀ member ∈ d.bundles, member.1 ∈ d.recordIds
  envelopes : ∀ member ∈ d.envelopes, member.1 ∈ d.recordIds

/-- A record proof of the disclosure that verifies is of the record of the log
with its id. -/
def ProofsSound (packages : Packages) (trustAnchor : List (String × Bytes))
    (records : String → Option Value) (d : Disclosure) : Prop :=
  ∀ member ∈ d.bundles, (verifyRecordProof packages trustAnchor member.2).1 = true →
    ∀ id, member.2.capsuleId = .str id → records id = some member.2.receipt

theorem mem_of_lookup {α : Type} {key : String} {members : List (String × α)} {value : α}
    (found : Value.lookup key members = some value) : (key, value) ∈ members := by
  obtain ⟨member, located, rfl⟩ := Option.map_eq_some_iff.mp found
  have same : member.1 = key := by simpa using List.find?_some located
  rw [← same]
  exact List.mem_of_find?_eq_some located

mutual
/-- The JSON tree of a value. -/
def toJson : Value → Except String Json
  | .none => .ok .null
  | .bool b => .ok (.bool b)
  | .int n =>
      if wellFormed : (utf8 (toString n)).all isNumberByte = true ∧
          isNumberText (utf8 (toString n)) = true then
        .ok (.number ⟨utf8 (toString n), wellFormed.1, wellFormed.2⟩)
      else .error "not a number"
  | .float _ => .error "float in a digest"
  | .str s => .ok (Json.ofString s)
  | .list items => (itemsToJson items).map .array
  | .dict members => (membersToJson members).map .object

def itemsToJson : List Value → Except String (List Json)
  | [] => .ok []
  | item :: items => do
      let first ← toJson item
      let rest ← itemsToJson items
      .ok (first :: rest)

def membersToJson : List (String × Value) → Except String (List (Bytes × Json))
  | [] => .ok []
  | (key, value) :: members => do
      let first ← toJson value
      let rest ← membersToJson members
      .ok ((utf8 key, first) :: rest)
end

/-- The canonical text of a value. -/
def canonicalText (value : Value) : Except String Bytes :=
  (toJson value).map (fun json => JsonText.write (ArtifactStore.canonical json))

/-- A signature known to be made: a capsule id, a signature and its key id. -/
structure Signed where
  capsuleId : String
  signature : String
  keyId : String

/-- The verdict on a signature, against the known ones. -/
def checkSignature (known : List Signed) (record : Value) : AuthorshipVerdict × List String :=
  match record.get "capsule_id", record.get "signature", record.get "key_id" with
  | .ok (.str capsuleId), .ok (.str signature), .ok (.str keyId) =>
      if known.any (fun s =>
          s.capsuleId = capsuleId && s.signature = signature && s.keyId = keyId) then
        (.authored, [])
      else (.invalid, ["producer signature does not verify"])
  | _, .ok .none, .ok .none => (.unclaimed, [])
  | _, _, _ => (.invalid, ["malformed producer signature"])

/-- The packages over known signatures and known inclusion proofs. -/
def concretePackages (known : List Signed) (included : List (String × String)) : Packages where
  repr := fun value => value.typeName
  jcs := canonicalText
  normalize := .ok
  sha256 := Sha256.digest
  jsonDigest := fun value =>
    match canonicalText value with
    | .ok text => .ok (Sha256.hex (Sha256.digest text))
    | .error raised => .error (.uncanonical raised)
  recordSignature := checkSignature known
  logIntegrity := fun b _ =>
    match b.capsuleId, b.proof with
    | .str capsuleId, .str proof =>
        if included.contains (capsuleId, proof) then (true, [])
        else (false, ["inclusion proof does not verify"])
    | _, _ => (false, ["malformed proof"])

theorem concretePackages_lawful (known : List Signed) (included : List (String × String)) :
    (concretePackages known included).Lawful where
  invalid_says := by
    intro record invalid
    simp only [concretePackages, checkSignature] at invalid ⊢
    split at invalid
    · split at invalid
      · cases invalid
      · next unknown => simp [unknown]
    · cases invalid
    · simp
  refused_says := by
    intro b anchor refused
    simp only [concretePackages] at refused ⊢
    split at refused
    · split at refused
      · cases refused
      · next missing =>
          rw [if_neg missing]
          exact List.cons_ne_nil _ _
    · simp

/-- The id of the record that is disclosed. -/
def askedId : String := "e9fca0e6f9d9c70c3f3c222b90958fc7df787a5a1ad82c29a4235b0f64f2d62e"

/-- A record that commits a question and an answer. -/
def askedReceipt : Value := .dict [
  ("canonicalization_id", .str "jcs"),
  ("model_attestation", .dict [("compute_attestation", .dict [
    ("agent_input_digest",
      .str "f7dec6b9a505e74323a0328330c5f15fc1f0df6ae12ed6ff895b6b93d3cf590a"),
    ("agent_output_digest",
      .str "fbc9c45fd3a8c6ba7008b0470298d4f319d60b7c7cd9bfb3a2a9e80eb8001f01")])]),
  ("capsule_id", .str askedId)]

def askedCompleteness : Value := .dict [
  ("records_mode", .str "contiguous"),
  ("records_note", .str "1 record (e9fca0e6f9d9…) — contiguous, nothing omitted"),
  ("payloads_mode", .str "selected"),
  ("payloads_note", .str ("producer-selected payload field(s) only; 1 field(s) explicitly " ++
    "suppressed for this audience: agent_output"))]

/-- The signed record of a disclosure of the question, with the answer
suppressed. -/
def askedRecord : Value := .dict [
  ("kind", .str "disclosure_record"),
  ("v", .int 1),
  ("audience", .str "auditor"),
  ("selector", .str askedId),
  ("disclosed_capsule_ids", .list [.str askedId]),
  ("disclosed_fields", .dict [(askedId, .list [.str "agent_input"])]),
  ("suppressed_fields", .list [.str "agent_output"]),
  ("completeness", askedCompleteness),
  ("timestamp", .str "2026-01-01T00:00:00Z"),
  ("capsule_id", .str "f8acd4e8df7aa013b67c3cd9a04308dada7a26131d8ef58dec9b9f768a9754f9"),
  ("signature", .str "d284"),
  ("key_id", .str "8a88")]

/-- A disclosure under that record, with the given fields in its envelope. -/
def askedDisclosure (disclosures : List (String × Value)) : Disclosure where
  v := 1
  audience := .str "auditor"
  recordIds := [askedId]
  bundles := [(askedId, ⟨.str askedId, askedReceipt, .str "first leaf"⟩)]
  envelopes := [(askedId, .dict [("capsule", askedReceipt), ("disclosures", .dict disclosures)])]
  completeness := askedCompleteness
  suppressedFields := ["agent_output"]
  disclosureRecord := askedRecord

def askedPackages : Packages :=
  concretePackages [⟨"f8acd4e8df7aa013b67c3cd9a04308dada7a26131d8ef58dec9b9f768a9754f9",
    "d284", "8a88"⟩] [(askedId, "first leaf")]

/-- The log, which holds the one record. -/
def askedLog (id : String) : Option Value := if id = askedId then some askedReceipt else none

theorem askedLog_sound (disclosures : List (String × Value)) :
    ProofsSound askedPackages [] askedLog (askedDisclosure disclosures) := by
  intro member listed verified id own
  cases List.mem_singleton.mp listed
  cases own
  exact if_pos rfl

/-- The question is disclosed as it was signed. -/
theorem verify_question : (verifyDisclosure askedPackages []
    (askedDisclosure [("agent_input", .str "the question")])).1 = true := by
  decide +kernel

/-- The answer is disclosed too, which the signed record suppresses. -/
theorem verify_answer : (verifyDisclosure askedPackages []
    (askedDisclosure [("agent_input", .str "the question"),
      ("agent_output", .str "the answer")])).1 = true := by
  decide +kernel

end Disclose
end CapsuleEmit
