import CapsuleEmit.Bilateral.Handshake

namespace CapsuleEmit
namespace Bilateral

/-!
# What the payloads of a handshake bind

An action or confirm payload names one handshake, one party and the digest of
one signature.  Canonical JSON keeps the three apart, so up to a collision of
the digest a payload stands for exactly one joined text of a signature.

The joined text is what falls short: a colon may stand in the algorithm or in
the key id, and then two signatures join to one text.  Where neither holds a
colon, the text splits in one way only.
-/

variable {runtime : Runtime}

/-! ## Canonical payloads -/

/-- Canonical JSON tells values apart up to the order of members. -/
def Canonical (runtime : Runtime) : Prop :=
  ∀ left right : Json, runtime.jcs left = runtime.jcs right → left.normal = right.normal

/-- Two digests do not collide. -/
def NoCollision (runtime : Runtime) (left right : BilateralSig) : Prop :=
  sigDigest runtime left = sigDigest runtime right → left.joined = right.joined

/-- A payload of either phase made for one signature is made for no other
signature and for no other handshake or party. -/
def PayloadsBind (runtime : Runtime) (left right : BilateralSig) : Prop :=
  ∀ id party id' party',
    (actionPayload runtime id party (sigDigest runtime left) =
        actionPayload runtime id' party' (sigDigest runtime right) →
      id = id' ∧ party = party' ∧ left = right) ∧
    (confirmPayload runtime id party (sigDigest runtime left) =
        confirmPayload runtime id' party' (sigDigest runtime right) →
      id = id' ∧ party = party' ∧ left = right)

theorem ofString_inj {left right : String} :
    Json.ofString left = Json.ofString right ↔ left = right := by
  rw [Json.ofString, Json.ofString, Json.string.injEq, utf8_inj]

theorem actionPayload_inj (canonical : Canonical runtime) {id party digest id' party' digest'}
    (same : actionPayload runtime id party digest = actionPayload runtime id' party' digest') :
    id = id' ∧ party = party' ∧ digest = digest' := by
  have sorted : ∀ id party digest : String, (Json.object [(utf8 "phase", .ofString "action"),
      (utf8 "handshake_id", .ofString id), (utf8 "responder_org", .ofString party),
      (utf8 "request_sig_digest", .ofString digest)]).normal =
        .object [(utf8 "handshake_id", .ofString id), (utf8 "phase", .ofString "action"),
          (utf8 "request_sig_digest", .ofString digest),
          (utf8 "responder_org", .ofString party)] := fun _ _ _ => rfl
  have normal := canonical _ _ same
  rw [sorted, sorted] at normal
  simp only [Json.object.injEq, List.cons.injEq, Prod.mk.injEq, true_and, and_true,
    ofString_inj] at normal
  exact ⟨normal.1, normal.2.2, normal.2.1⟩

theorem confirmPayload_inj (canonical : Canonical runtime) {id party digest id' party' digest'}
    (same : confirmPayload runtime id party digest = confirmPayload runtime id' party' digest') :
    id = id' ∧ party = party' ∧ digest = digest' := by
  have sorted : ∀ id party digest : String, (Json.object [(utf8 "phase", .ofString "confirm"),
      (utf8 "handshake_id", .ofString id), (utf8 "party_org", .ofString party),
      (utf8 "acked_sig_digest", .ofString digest)]).normal =
        .object [(utf8 "acked_sig_digest", .ofString digest),
          (utf8 "handshake_id", .ofString id), (utf8 "party_org", .ofString party),
          (utf8 "phase", .ofString "confirm")] := fun _ _ _ => rfl
  have normal := canonical _ _ same
  rw [sorted, sorted] at normal
  simp only [Json.object.injEq, List.cons.injEq, Prod.mk.injEq, true_and, and_true,
    ofString_inj] at normal
  exact ⟨normal.2.1, normal.2.2, normal.1⟩

/-- Payloads bind two signatures exactly when their joined texts do. -/
theorem payloadsBind_iff (canonical : Canonical runtime) {left right : BilateralSig}
    (apart : NoCollision runtime left right) :
    PayloadsBind runtime left right ↔ (left.joined = right.joined → left = right) := by
  constructor
  · intro binds same
    have digests : sigDigest runtime left = sigDigest runtime right := by
      rw [sigDigest, sigDigest, same]
    refine ((binds "" "" "" "").1 ?_).2.2
    rw [digests]
  · intro joined id party id' party'
    constructor
    · intro same
      rcases actionPayload_inj canonical same with ⟨ids, parties, digests⟩
      exact ⟨ids, parties, joined (apart digests)⟩
    · intro same
      rcases confirmPayload_inj canonical same with ⟨ids, parties, digests⟩
      exact ⟨ids, parties, joined (apart digests)⟩

/-! ## Texts without a colon -/

/-- No colon in the algorithm and in the key id. -/
def BilateralSig.Plain (sig : BilateralSig) : Prop :=
  ':' ∉ sig.alg.toList ∧ ':' ∉ sig.keyId.toList

/-- What stands before the first colon is determined. -/
theorem cut_unique {front front' back back' : List Char} (plain : ':' ∉ front) (plain' : ':' ∉ front')
    (same : front ++ ':' :: back = front' ++ ':' :: back') : front = front' ∧ back = back' := by
  induction front generalizing front' with
  | nil =>
      cases front' with
      | nil => exact ⟨rfl, (List.cons.inj same).2⟩
      | cons c front' =>
          rw [← (List.cons.inj same).1] at plain'
          exact absurd List.mem_cons_self plain'
  | cons c front ih =>
      cases front' with
      | nil =>
          rw [(List.cons.inj same).1] at plain
          exact absurd List.mem_cons_self plain
      | cons c' front' =>
          have rest := ih (fun inside => plain (List.mem_cons_of_mem _ inside))
            (fun inside => plain' (List.mem_cons_of_mem _ inside)) (List.cons.inj same).2
          exact ⟨by rw [(List.cons.inj same).1, rest.1], rest.2⟩

theorem joined_injective {left right : BilateralSig} (plain : left.Plain) (plain' : right.Plain)
    (same : left.joined = right.joined) : left = right := by
  have texts : ∀ sig : BilateralSig, sig.joined.toList =
      sig.alg.toList ++ ':' :: (sig.keyId.toList ++ ':' :: sig.signature.toList) := by
    intro sig
    simp [BilateralSig.joined, List.append_assoc]
  have lists := congrArg String.toList same
  rw [texts, texts] at lists
  rcases cut_unique plain.1 plain'.1 lists with ⟨alg, rest⟩
  rcases cut_unique plain.2 plain'.2 rest with ⟨keyId, signature⟩
  cases left
  cases right
  simp only [BilateralSig.mk.injEq]
  exact ⟨String.toList_inj.mp alg, String.toList_inj.mp keyId, String.toList_inj.mp signature⟩

/-! ## The handshake -/

/-- After any run of calls, a bilateral record is bound to its parties, its
handshake and its stored signatures; a settled record is the same after any
further run, whose openings draw fresh ids; and a call that raises changes no
record.  The payloads tell two signatures apart exactly when their joined texts
do. -/
theorem handshake_binds (canonical : Canonical runtime) (calls : List Call) :
    (∀ id record, Machine.after (step runtime) noRecords calls id = some record →
      record.state = .bilateral → record.handshakeId = id ∧ Bound runtime record) ∧
    (∀ later, Machine.Guarded (step runtime) Fresh
        (Machine.after (step runtime) noRecords calls) later →
      ∀ id record, Machine.after (step runtime) noRecords calls id = some record →
        record.state.terminal = true →
          Machine.after (step runtime) noRecords (calls ++ later) id = some record) ∧
    (∀ call e, (step runtime (Machine.after (step runtime) noRecords calls) call).1 = .error e →
      (step runtime (Machine.after (step runtime) noRecords calls) call).2 =
        Machine.after (step runtime) noRecords calls) ∧
    (∀ left right, NoCollision runtime left right →
      (PayloadsBind runtime left right ↔ (left.joined = right.joined → left = right))) := by
  have keep : ∀ records call, AllAttested runtime records →
      AllAttested runtime (step runtime records call).2 :=
    fun _ call attested => attested_step attested call
  have start : AllAttested runtime noRecords := by
    intro id record found
    cases found
  have all := Machine.invariant keep start calls
  refine ⟨?_, ?_, ?_, fun left right apart => payloadsBind_iff canonical apart⟩
  · intro id record found bilateral
    rcases all id record found with ⟨own, attested⟩
    exact ⟨own, attested.bound bilateral⟩
  · intro later fresh id record found terminal
    have stays : ∀ records call, records id = some record → Fresh records call →
        (step runtime records call).2 id = some record :=
      fun _ _ held unused => terminal_step unused held terminal
    rw [Machine.after_append]
    exact Machine.invariant_of_guarded stays found fresh
  · intro call e raises
    cases returns : outcome runtime (Machine.after (step runtime) noRecords calls) call with
    | error e' => rw [step_error returns]
    | ok record =>
        rw [step_ok returns] at raises
        cases raises

/-! ## Two signatures with one joined text -/

/-- The canonicalizer and the digest of this development under a given verifier. -/
def plainRuntime (verifyFn : String → Bytes → BilateralSig → Bool) : Runtime where
  verifyFn := verifyFn
  jcs value := JsonText.write value.normal
  sha256 data := Sha256.hex (Sha256.digest data)
  repr value := "'" ++ value ++ "'"

theorem plainRuntime_canonical (verifyFn : String → Bytes → BilateralSig → Bool) :
    Canonical (plainRuntime verifyFn) := by
  intro left right same
  have read := congrArg JsonText.readDocument same
  change JsonText.readDocument (JsonText.write left.normal) =
    JsonText.readDocument (JsonText.write right.normal) at read
  rw [JsonText.readDocument_write, JsonText.readDocument_write] at read
  exact Option.some.inj read

/-- Passes every signature; for tests only. -/
def noOpVerifier (_orgId : String) (_payload : Bytes) (_sig : BilateralSig) : Bool := true

/-- A colon in the key id and a colon in the algorithm join to one text. -/
theorem colon_unbound : ¬ PayloadsBind (plainRuntime noOpVerifier)
    ⟨"ed25519", "org:key1", "ab"⟩ ⟨"ed25519:org", "key1", "ab"⟩ := by
  intro binds
  have joined : (⟨"ed25519", "org:key1", "ab"⟩ : BilateralSig).joined =
      (⟨"ed25519:org", "key1", "ab"⟩ : BilateralSig).joined := by decide
  have digests : sigDigest (plainRuntime noOpVerifier) ⟨"ed25519", "org:key1", "ab"⟩ =
      sigDigest (plainRuntime noOpVerifier) ⟨"ed25519:org", "key1", "ab"⟩ := by
    rw [sigDigest, sigDigest, joined]
  have same := ((binds "" "" "" "").1 (by rw [digests])).2.2
  exact absurd (BilateralSig.mk.inj same).1 (by decide)

/-- A handshake that both parties confirm. -/
def completed : List Call :=
  [.openHandshake "clinic" (some "lab") "digest" ⟨"ed25519", "a", "01"⟩ "h1",
    .respond "h1" ⟨"ed25519", "b", "02"⟩, .confirm "h1" "clinic" ⟨"ed25519", "a", "03"⟩,
    .confirm "h1" "lab" ⟨"ed25519", "b", "04"⟩]

theorem completed_bound : ∃ record,
    Machine.after (step (plainRuntime noOpVerifier)) noRecords completed "h1" = some record ∧
      record.state = .bilateral ∧ Bound (plainRuntime noOpVerifier) record := by
  have bound := (handshake_binds (plainRuntime_canonical noOpVerifier) completed).1 "h1"
  exact ⟨_, rfl, rfl, (bound _ rfl rfl).2⟩

end Bilateral
end CapsuleEmit
