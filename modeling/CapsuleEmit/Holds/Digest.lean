import CapsuleEmit.Foundation.JsonText
import CapsuleEmit.Foundation.Sha256
import CapsuleEmit.Holds.Decisions

namespace CapsuleEmit
namespace Holds

/-!
# The digest of a hold record

The packages of an engine with nothing left open: the id of a record is the
SHA-256 of its canonical JSON text, whose members stand in key order, and a
record verifies when its id is that digest.  Absent members are not written.
-/

/-- The text of a string value. -/
def quoted (s : String) : Bytes := JsonText.write (Json.ofString s)

def numeral (n : Int) : Bytes := utf8 (toString n)

/-- The texts of the present members, separated by commas. -/
def memberTexts : List (String × Option Bytes) → List Bytes
  | [] => []
  | (name, some value) :: members => (quoted name ++ utf8 ":" ++ value) :: memberTexts members
  | (_, none) :: members => memberTexts members

def objectText (members : List (String × Option Bytes)) : Bytes :=
  utf8 "\x7b" ++ (List.intersperse (utf8 ",") (memberTexts members)).flatten ++ utf8 "\x7d"

def arrayText (items : List Bytes) : Bytes :=
  utf8 "[" ++ (List.intersperse (utf8 ",") items).flatten ++ utf8 "]"

def HoldScope.text (scope : HoldScope) : Bytes :=
  objectText [
    ("action_class", some ((scope.actionClass.map quoted).getD (utf8 "null"))),
    ("subject", some (quoted scope.subject))]

def AsgPayload.text (payload : AsgPayload) : Bytes :=
  objectText [
    ("aggregate_before_minor", payload.aggregateBeforeMinor.map numeral),
    ("amount_minor", payload.amountMinor.map numeral),
    ("cap_minor", payload.capMinor.map numeral),
    ("currency", payload.currency.map quoted),
    ("delta_minor", payload.deltaMinor.map numeral),
    ("executed_amount_minor", payload.executedAmountMinor.map numeral),
    ("execution_capsule_id", payload.executionCapsuleId.map quoted),
    ("expired_amount_minor", payload.expiredAmountMinor.map numeral),
    ("expires_at", payload.expiresAt.map quoted),
    ("hold_scope", payload.holdScope.map HoldScope.text),
    ("reason", payload.reason.map quoted),
    ("reason_code", payload.reasonCode.map quoted),
    ("released_amount_minor", payload.releasedAmountMinor.map numeral),
    ("reserved_amount_minor", payload.reservedAmountMinor.map numeral),
    ("target", payload.target.map quoted),
    ("tolerance_minor", payload.toleranceMinor.map numeral)]

def ConstraintRecord.text (constraint : ConstraintRecord) : Bytes :=
  objectText [
    ("check_type", some (quoted constraint.checkType)),
    ("id", some (quoted constraint.id)),
    ("result", some (quoted constraint.result))]

/-- The canonical text of a record without its id. -/
def Body.text (body : Body) : Bytes :=
  objectText [
    ("action_id", some (quoted body.actionId)),
    ("action_type", some (quoted "decide")),
    ("asg_payload", some body.asgPayload.text),
    ("assurance", some (objectText [
      ("attestation_mode", some (quoted "self_attested")),
      ("effect_mode", some (quoted "not_applicable")),
      ("ledger_mode", some (quoted body.ledgerMode))])),
    ("canonicalization_id", some (quoted "jcs")),
    ("chain", body.chain.map (fun chain => objectText [
      ("parent_capsule_id", some (quoted chain.parentCapsuleId)),
      ("relation", some (quoted chain.relation))])),
    ("constraints", if body.constraints.isEmpty then none else
      some (arrayText (body.constraints.map ConstraintRecord.text))),
    ("developer", some (quoted body.developer)),
    ("disposition", some (objectText [
      ("approver", some (quoted "policy")),
      ("decision", some (quoted body.disposition.decision)),
      ("human_disposed", some (utf8 "false")),
      ("verdict_class", body.disposition.verdictClass.map quoted)])),
    ("format_version", some (quoted "4")),
    ("operator", some (quoted body.operator)),
    ("spec_version", some (quoted "draft-mih-scitt-agent-action-capsule-05")),
    ("timestamp", some (quoted body.timestamp))]

def digestOf (body : Body) : String := Sha256.hex (Sha256.digest body.text)

/-- Packages that compute the digest and verify by computing it again. -/
def digestPackages : Packages where
  computeCapsuleId := digestOf
  verifyCapsule := fun c => c.capsuleId = digestOf c.toBody
  repr := fun s => "'" ++ s ++ "'"

/-! ## Transfers

The records of a small ledger: a reservation of one hundred, its conversion at
forty, and what a release of the conversion's own record adds. -/

/-- An engine with one capped class and no tolerance. -/
def transfers : HoldEngine where
  capMinor := fun actionClass => if actionClass = "money.transfer" then some 1000 else none
  toleranceMinor := fun _ => none

def transfer (actionClass : Option String) (amount : Int) : Action where
  verb := "transfer_funds"
  operator := "acme-research"
  developer := "procurement-agent@v1"
  actionClass := actionClass
  amountMinor := some amount
  currency := some "EUR"

/-- The outside world at the call with a given number. -/
def envAt (n : Nat) : Env where
  uuid := "00000000-0000-4000-8000-00000000000" ++ toString n
  now := "2026-09-01T12:00:00Z"

def reservation : Capsule :=
  { buildHoldReserveCapsule digestPackages (envAt 1) (transfer (some "money.transfer") 100)
      100 0 (some 1000) with
    capsuleId := "6235623431691e7f661bf69e17ac1c3501d763da298d06ece424915ebab8bf2b" }

def conversion : Capsule :=
  { buildHoldReconcileCapsule digestPackages (envAt 2)
      (attemptAction reservation "reconcile" reservation.actionClass)
      reservation.capsuleId none 100 40 0 with
    capsuleId := "7213ef45214260502124a4260c3384e4d8c126a1f2aa03b9095ea87f3261c1b5" }

/-- The release of the record of a conversion. -/
def strayRelease : Capsule :=
  { buildHoldReleaseCapsule digestPackages (envAt 3)
      (attemptAction conversion "release" conversion.actionClass)
      conversion.capsuleId 100 none with
    capsuleId := "d15fe8eebae0cc5bbd13f03ee3cffa7f37fab39c8f61a66a533cae9977300f20" }

/-- A reservation over all classes, evaluated on a new ledger. -/
def classless : Capsule :=
  { buildHoldReserveCapsule digestPackages (envAt 4) (transfer none 60) 60 0 none with
    capsuleId := "a88d693baebf6c5afd38f349571f11ed0da3f288031335aa8cc68f5baf087185" }

/-- The digests of the four records. -/
theorem digestOf_samples : digestOf reservation.toBody = reservation.capsuleId ∧
    digestOf conversion.toBody = conversion.capsuleId ∧
    digestOf strayRelease.toBody = strayRelease.capsuleId ∧
    digestOf classless.toBody = classless.capsuleId := by
  -- one evaluation for each record: the four together hold too much memory
  refine ⟨?_, ?_, ?_, ?_⟩ <;> decide +kernel

theorem digestOf_reservation : digestOf reservation.toBody = reservation.capsuleId :=
  digestOf_samples.1

theorem digestOf_conversion : digestOf conversion.toBody = conversion.capsuleId :=
  digestOf_samples.2.1

theorem digestOf_strayRelease : digestOf strayRelease.toBody = strayRelease.capsuleId :=
  digestOf_samples.2.2.1

theorem digestOf_classless : digestOf classless.toBody = classless.capsuleId :=
  digestOf_samples.2.2.2

/-- A built record is known by its body and its digest. -/
theorem eq_of_digest {built known : Capsule} (body : built.toBody = known.toBody)
    (sealed : built.capsuleId = digestOf built.toBody)
    (digest : digestOf known.toBody = known.capsuleId) : built = known := by
  obtain ⟨builtBody, builtId⟩ := built
  obtain ⟨knownBody, knownId⟩ := known
  simp only at body sealed digest
  rw [sealed, body, digest]

theorem verify_of_digest {c : Capsule} (digest : digestOf c.toBody = c.capsuleId) :
    digestPackages.verifyCapsule c = true := by
  simp [digestPackages, digest]

/-- The reservation and its conversion are found in the log, and nothing closes them. -/
theorem byId_samples : byId [reservation] reservation.capsuleId = some reservation ∧
    [reservation].find? (closes reservation.capsuleId) = none ∧
    byId [reservation, conversion] conversion.capsuleId = some conversion ∧
    [reservation, conversion].find? (closes conversion.capsuleId) = none := by
  decide +kernel

/-- Each record can be appended behind those before it. -/
theorem fresh_samples :
    (∀ c ∈ [reservation, conversion, strayRelease, classless], validId c.capsuleId = true) ∧
    [reservation, conversion, strayRelease].Pairwise (fun c d => c.capsuleId ≠ d.capsuleId) ∧
    reservation.capsuleId ≠ classless.capsuleId := by
  decide +kernel

theorem active_reservation :
    (holdStatus digestPackages [reservation] reservation.capsuleId).1 = .active :=
  holdStatus_active_iff.mpr ⟨⟨reservation, byId_samples.1, verify_of_digest digestOf_reservation⟩,
    byId_samples.2.1⟩

theorem active_conversion :
    (holdStatus digestPackages [reservation, conversion] conversion.capsuleId).1 = .active :=
  holdStatus_active_iff.mpr
    ⟨⟨conversion, byId_samples.2.2.1, verify_of_digest digestOf_conversion⟩, byId_samples.2.2.2⟩

/-- Reserve one hundred. -/
def reserveHundred : Operation :=
  ⟨envAt 1, .evaluateAndReserve true (transfer (some "money.transfer") 100)⟩

/-- Convert the reservation at forty. -/
def convertForty : Operation := ⟨envAt 2, .reconcile reservation.capsuleId 40 none⟩

/-- Release the record of the conversion. -/
def releaseConversion : Operation := ⟨envAt 3, .release conversion.capsuleId none⟩

/-- Reserve sixty over all classes. -/
def reserveClassless : Operation := ⟨envAt 4, .evaluateAndReserve true (transfer none 60)⟩

theorem decided_reserveHundred :
    (evaluateAndReserveLocked digestPackages transfers (envAt 1)
      (transfer (some "money.transfer") 100) []).1 = reservation := by
  rw [evaluateAndReserveLocked_of_le 1000 rfl (by decide)]
  exact eq_of_digest rfl rfl digestOf_reservation

theorem decided_reserveClassless :
    (evaluateAndReserveLocked digestPackages transfers (envAt 4) (transfer none 60) []).1 =
      classless := by
  rw [evaluateAndReserveLocked_of_none rfl]
  exact eq_of_digest rfl rfl digestOf_classless

theorem step_reserveHundred :
    (step digestPackages transfers [] reserveHundred).2 = [reservation] := by
  have ran : (step digestPackages transfers [] reserveHundred).2 =
      (record [] (evaluateAndReserveLocked digestPackages transfers (envAt 1)
        (transfer (some "money.transfer") 100) [])).2 := rfl
  have valid := fresh_samples.1 reservation (by simp)
  rw [ran, record_of_fresh (by rw [decided_reserveHundred, valid]) (by simp),
    decided_reserveHundred]
  rfl

theorem step_convertForty :
    (step digestPackages transfers [reservation] convertForty).2 = [reservation, conversion] := by
  have decided : (reconcileLocked digestPackages transfers (envAt 2) reservation 40 none
      [reservation]).1 = conversion := by
    rw [reconcileLocked_of_active active_reservation (by decide)]
    exact eq_of_digest rfl rfl digestOf_conversion
  have found := byId_samples.1
  have valid := fresh_samples.1 conversion (by simp)
  have fresh : ∀ r ∈ [reservation], r.capsuleId ≠ conversion.capsuleId := by
    simpa using (List.pairwise_cons.mp fresh_samples.2.1).1 conversion (by simp)
  have ran : (step digestPackages transfers [reservation] convertForty).2 =
      (record [reservation] (reconcileLocked digestPackages transfers (envAt 2) reservation 40
        none [reservation])).2 := by
    simp only [step, Call.run, convertForty, Call.outset, reconcile, found, Section.decide]
  rw [ran, record_of_fresh (by rw [decided, valid]) (by rw [decided]; exact fresh), decided]
  rfl

theorem step_releaseConversion :
    (step digestPackages transfers [reservation, conversion] releaseConversion).2 =
      [reservation, conversion, strayRelease] := by
  have decided : (closeLocked digestPackages (envAt 3) conversion .release none
      [reservation, conversion]).1 = strayRelease := by
    rw [releaseLocked_of_active active_conversion]
    exact eq_of_digest rfl rfl digestOf_strayRelease
  have found := byId_samples.2.2.1
  have valid := fresh_samples.1 strayRelease (by simp)
  have fresh : ∀ r ∈ [reservation, conversion], r.capsuleId ≠ strayRelease.capsuleId := by
    have apart := List.pairwise_append.mp
      (show ([reservation, conversion] ++ [strayRelease]).Pairwise _ from fresh_samples.2.1)
    exact fun r member => apart.2.2 r member strayRelease (by simp)
  have ran : (step digestPackages transfers [reservation, conversion] releaseConversion).2 =
      (record [reservation, conversion] (closeLocked digestPackages (envAt 3) conversion .release
        none [reservation, conversion])).2 := by
    simp only [step, Call.run, releaseConversion, Call.outset, close, found, Section.decide]
  rw [ran, record_of_fresh (by rw [decided, valid]) (by rw [decided]; exact fresh), decided]
  rfl

theorem after_transfers :
    Machine.after (step digestPackages transfers) []
        [reserveHundred, convertForty, releaseConversion] =
      [reservation, conversion, strayRelease] := by
  rw [Machine.after, step_reserveHundred, Machine.after, step_convertForty, Machine.after,
    step_releaseConversion, Machine.after]

end Holds
end CapsuleEmit
