import CapsuleEmit.Produce.Concrete
import CapsuleEmit.RustLedger.Concrete
import CapsuleEmit.RustLedger.StoreCodec

namespace CapsuleEmit
namespace RustLedger

/-!
# Padding in a store

A padding line of a ledger is a padding record of the artifact store: the two
crates check the same members, and the digest that is the Capsule ID is of the
same members up to their order.
-/

open ArtifactStore (Record sha256Hex visitLimit)

/-! ## The shape of a padding line -/

theorem checkPaddingShape_eq_ok_iff {record : Value} {done : Unit} :
    checkPaddingShape record = .ok done ↔
      (∃ members, record.tree = .object members ∧
        ∀ member ∈ members, member.1 ∈ paddingMembers.map utf8) ∧
      record.str? "record_type" = some "padding" ∧
      record.str? "epistemic_type" = some "producer_claim" ∧
      ∃ storeNonce, record.str? "store_nonce" = some storeNonce ∧ isNonce storeNonce = true := by
  have closed : ∀ members : List (Bytes × Json),
      (members.find? (fun member => member.1 ∉ paddingMembers.map utf8)).elim (.ok ())
          (fun member => .error (.extra member.1)) = (.ok () : Except PaddingFault Unit) ↔
        ∀ member ∈ members, member.1 ∈ paddingMembers.map utf8 := by
    intro members
    cases found : members.find? (fun member => member.1 ∉ paddingMembers.map utf8) with
    | none =>
        have none := List.find?_eq_none.mp found
        simpa using none
    | some member =>
        have outside := List.find?_some found
        rw [decide_eq_true_eq] at outside
        simp only [Option.elim_some, reduceCtorEq, false_iff, not_forall]
        exact ⟨member, List.mem_of_find?_eq_some found, outside⟩
  have nonce : ∀ value : Option String, value.elim false isNonce = true ↔
      ∃ storeNonce, value = some storeNonce ∧ isNonce storeNonce = true := by
    intro value
    cases value <;> simp
  cases object : record.tree.asObject with
  | none =>
      have none : ∀ members, record.tree ≠ .object members := by
        intro members same
        rw [same] at object
        cases object
      simp [checkPaddingShape, object, none]
  | some members =>
      rw [asObject_eq_some_iff] at object
      simp only [checkPaddingShape, object, Json.asObject, Option.elim_some, ok_bind,
        bind_eq_ok_iff, ensure_eq_ok_iff, decide_eq_true_eq, exists_const, nonce, Json.object.injEq,
        exists_eq_left']
      rw [← closed members]
      constructor
      · rintro ⟨done, shaped, rest⟩
        exact ⟨shaped, rest⟩
      · rintro ⟨shaped, rest⟩
        exact ⟨(), shaped, rest⟩

theorem object_of_str? {line : Value} {name text : String}
    (found : line.str? name = some text) : ∃ members, line.tree = .object members := by
  rw [Value.str?] at found
  cases object : line.tree with
  | object members => exact ⟨members, rfl⟩
  | null => rw [object] at found; cases found
  | bool _ => rw [object] at found; cases found
  | number _ => rw [object] at found; cases found
  | string _ => rw [object] at found; cases found
  | array _ => rw [object] at found; cases found

/-- A member whose name a string is found under is that string. -/
theorem eq_of_str? {line : Value} {members : List (Bytes × Json)}
    (object : line.tree = .object members) {name text : String}
    (found : line.str? name = some text) {member : Bytes × Json} (inside : member ∈ members)
    (named : member.1 = utf8 name) : member = (utf8 name, Json.ofString text) :=
  List.inj_on_of_nodup_map (names_nodup object) inside (mem_of_str? object found) named

theorem str?_of_mem {line : Value} {members : List (Bytes × Json)}
    (object : line.tree = .object members) {name text : String}
    (inside : (utf8 name, Json.ofString text) ∈ members) : line.str? name = some text := by
  rw [Value.str?, object, Json.get, Json.lookup]
  cases found : members.reverse.find? (fun member => member.1 = utf8 name) with
  | none =>
      have none := List.find?_eq_none.mp found _ (List.mem_reverse.mpr inside)
      simp at none
  | some member =>
      have named := List.find?_some found
      rw [decide_eq_true_eq] at named
      have same : member = (utf8 name, Json.ofString text) :=
        List.inj_on_of_nodup_map (names_nodup object)
          (List.mem_reverse.mp (List.mem_of_find?_eq_some found)) inside named
      rw [same]
      simp

/-! ## Its Capsule and its record -/

section

variable {packages : StorePackages} {line : Value} {id : String} {envelope : Bytes}

/-- A string of a line that is not of its envelope is one of the Capsule. -/
theorem str?_bareLine {members : List (Bytes × Json)} (object : line.tree = .object members)
    {signature keyId : String} (signed : line.str? "signature" = some signature)
    (keyed : line.str? "key_id" = some keyId) {name text : String}
    (found : line.str? name = some text) (unsigned : name ≠ "signature")
    (unkeyed : name ≠ "key_id") : (bareLine line).str? name = some text := by
  rcases bareLine_members object signed keyed with ⟨bare, tree, perm, -⟩
  apply str?_of_mem tree
  rcases List.mem_cons.mp (perm.mem_iff.mp (mem_of_str? object found)) with same | inside
  · exact absurd (utf8_injective (congrArg Prod.fst same)) unsigned
  · rcases List.mem_cons.mp inside with same | inside
    · exact absurd (utf8_injective (congrArg Prod.fst same)) unkeyed
    · exact inside

/-- What a padding line and its Capsule have. -/
structure PaddingShape (line : Value) (bare : List (Bytes × Json)) : Prop where
  tree : (bareLine line).tree = .object bare
  names : ∀ member ∈ bare, ∃ name ∈ ArtifactStore.paddingMembers, ∃ text,
    member = (utf8 name, Json.ofString text)
  recordType : (bareLine line).str? "record_type" = some "padding"
  epistemicType : (bareLine line).str? "epistemic_type" = some "producer_claim"
  storeNonce : ∃ storeNonce, (bareLine line).str? "store_nonce" = some storeNonce ∧
    isNonce storeNonce = true
  capsuleId : (bareLine line).str? "capsule_id" = line.capsuleId

theorem paddingShape_of_line {signature keyId : String}
    (shaped : checkPaddingShape line = .ok ()) (stored : line.capsuleId = some id)
    (signed : line.str? "signature" = some signature) (keyed : line.str? "key_id" = some keyId) :
    ∃ bare, PaddingShape line bare := by
  rcases checkPaddingShape_eq_ok_iff.mp shaped with
    ⟨⟨members, object, closed⟩, recordType, epistemicType, storeNonce, nonce, isNonce⟩
  rcases bareLine_members object signed keyed with ⟨bare, tree, perm, unsigned, unkeyed⟩
  have kept : ∀ {name text : String}, line.str? name = some text → name ≠ "signature" →
      name ≠ "key_id" → (bareLine line).str? name = some text :=
    fun found => str?_bareLine object signed keyed found
  refine ⟨bare, tree, fun member inside => ?_, kept recordType (by decide) (by decide),
    kept epistemicType (by decide) (by decide),
    ⟨storeNonce, kept nonce (by decide) (by decide), isNonce⟩,
    (kept stored (by decide) (by decide)).trans stored.symm⟩
  have member_line : member ∈ members :=
    perm.mem_iff.mpr (List.mem_cons_of_mem _ (List.mem_cons_of_mem _ inside))
  rcases List.mem_map.mp (closed member member_line) with ⟨name, known, same⟩
  have outside : ∀ other, utf8 other ∉ bare.map Prod.fst → name ≠ other := by
    intro other absent equal
    exact absent (List.mem_map.mpr ⟨member, inside, by rw [← same, equal]⟩)
  simp only [paddingMembers, List.mem_cons, List.not_mem_nil, or_false] at known
  rcases known with rfl | rfl | rfl | rfl | rfl | rfl
  · exact ⟨_, by decide, id, eq_of_str? object stored member_line same.symm⟩
  · exact ⟨_, by decide, _, eq_of_str? object recordType member_line same.symm⟩
  · exact ⟨_, by decide, _, eq_of_str? object epistemicType member_line same.symm⟩
  · exact ⟨_, by decide, _, eq_of_str? object nonce member_line same.symm⟩
  · exact absurd rfl (outside _ unsigned)
  · exact absurd rfl (outside _ unkeyed)

theorem PaddingShape.nesting {bare : List (Bytes × Json)} (shape : PaddingShape line bare) :
    (bareLine line).tree.nesting ≤ visitLimit := by
  rw [shape.tree, Json.nesting]
  have flat : Json.nestingMembers bare ≤ 0 := by
    rw [Json.nestingMembers_le_iff]
    intro member inside
    rcases shape.names member inside with ⟨name, -, text, rfl⟩
    exact Nat.le_refl 0
  exact Nat.le_trans (Nat.succ_le_succ flat) (by decide)

theorem isNonce_iff_validId (text : String) : isNonce text = ArtifactStore.validId text := rfl

/-- The digest of the Capsule without its Capsule ID is the Capsule ID of the line. -/
theorem jsonDigest_bareLine (lawful : packages.Lawful) {bare : List (Bytes × Json)}
    {signature keyId : String} (shape : PaddingShape line bare)
    (signed : line.str? "signature" = some signature) (keyed : line.str? "key_id" = some keyId)
    (computed : computeCapsuleId packages.ledger line = .ok id) :
    packages.artifacts.jsonDigest
      (.object (bare.filter (fun member => member.1 ≠ utf8 "capsule_id"))) = some id := by
  rcases object_of_str? signed with ⟨members, object⟩
  rcases bareLine_members object signed keyed with ⟨other, tree, perm, -⟩
  rw [shape.tree, Json.object.injEq] at tree
  subst tree
  have digest : packages.ledger.jsonDigest (.object (preimage packages.ledger members)) =
      .ok id := by
    rw [computeCapsuleId, object] at computed
    exact computed
  have shared : ∀ member ∈ bare, packages.ledger.isLocalOnlyField member.1 = false := by
    intro member inside
    rcases shape.names member inside with ⟨name, known, text, rfl⟩
    rw [lawful.ledger.localOnly, decide_eq_false_iff_not]
    rintro (rfl | rfl) <;> exact absurd known (by decide)
  have filtered : (preimage packages.ledger members).Perm
      (bare.filter (fun member => member.1 ≠ utf8 "capsule_id")) := by
    have shorter := perm.filter (fun member =>
      member.1 ≠ utf8 "capsule_id" && !packages.ledger.isLocalOnlyField member.1)
    rw [List.filter_cons_of_neg (by simp [lawful.ledger.localOnly]),
      List.filter_cons_of_neg (by simp [lawful.ledger.localOnly])] at shorter
    apply shorter.trans
    rw [List.filter_congr (fun member inside => by rw [shared member inside, Bool.not_false,
      Bool.and_true])]
  have normal : (Json.object (preimage packages.ledger members)).normal =
      (Json.object (bare.filter (fun member => member.1 ≠ utf8 "capsule_id"))).normal := by
    rw [Json.normal, Json.normal, Json.normalMembers_perm filtered]
    exact (List.filter_sublist.map Prod.fst).nodup (names_nodup object)
  rw [lawful.digests, ← lawful.normal _ _ normal, digest]
  rfl

/-- The Capsule of a padding line is a padding record of the store. -/
theorem verifyPadding_bareLine (lawful : packages.Lawful) {bare : List (Bytes × Json)}
    {signature keyId : String} (shape : PaddingShape line bare) (stored : line.capsuleId = some id)
    (signed : line.str? "signature" = some signature) (keyed : line.str? "key_id" = some keyId)
    (computed : computeCapsuleId packages.ledger line = .ok id) :
    ArtifactStore.verifyPadding packages.artifacts id (bareLine line).tree = .ok () := by
  have member : ∀ name, ArtifactStore.memberStr name (bareLine line).tree =
      (bareLine line).str? name := fun _ => rfl
  have closed : (ArtifactStore.sortedKeys bare).find?
      (fun key => !ArtifactStore.paddingMembers.contains key) = none := by
    apply List.find?_eq_none.mpr
    intro key inside
    rw [ArtifactStore.sortedKeys, List.mem_filterMap] at inside
    rcases inside with ⟨bytes, sorted, text⟩
    rcases List.mem_map.mp ((List.perm_insertionSort _ _).mem_iff.mp sorted)
      with ⟨entry, inside, rfl⟩
    rcases shape.names entry inside with ⟨name, known, value, rfl⟩
    rw [utf8?_utf8, Option.some.injEq] at text
    subst text
    simp [known]
  rcases shape.storeNonce with ⟨storeNonce, nonce, isNonce⟩
  have digest := jsonDigest_bareLine lawful shape signed keyed computed
  have valid : (((bareLine line).str? "store_nonce").map ArtifactStore.validId).getD false =
      true := by
    rw [nonce]
    exact isNonce
  rw [ArtifactStore.verifyPadding]
  simp only [asObject_eq_some_iff.mpr shape.tree, closed, valid, member, shape.epistemicType,
    shape.capsuleId, stored, digest, decide_true, Bool.and_self, ensure_true, ok_bind]

/-- The record of a padding line with an envelope of a trusted signer verifies. -/
theorem verify_paddingLine (lawful : packages.Lawful) {trusted : List Bytes}
    (shaped : checkPaddingShape line = .ok ()) (stored : line.capsuleId = some id)
    (computed : computeCapsuleId packages.ledger line = .ok id)
    (enveloped : Enveloped packages line id envelope)
    (trusts : (packages.artifacts.envelope id envelope).publicKey ∈ trusted)
    (artifacts : List ArtifactStore.Artifact) :
    ArtifactStore.authenticate packages.artifacts
      ⟨id, (bareLine line).toText, envelope, artifacts⟩ trusted = .ok (bareLine line).tree := by
  rcases paddingShape_of_line shaped stored enveloped.signature enveloped.keyId with ⟨bare, shape⟩
  have decoded := decodeStrictJson_toText lawful (bareLine line)
  rw [if_pos shape.nesting] at decoded
  have record : ArtifactStore.isPadding (bareLine line).tree = true := decide_eq_true shape.recordType
  have checked := verifyPadding_bareLine lawful shape stored enveloped.signature enveloped.keyId
    computed
  have valid : ArtifactStore.validId id = true := by
    rcases isDigest_of_computeCapsuleId lawful.ledger computed with ⟨bytes, size, rfl⟩
    exact isNonce_hex ⟨bytes, size⟩
  have signer : trusted.any (fun key =>
      key = (packages.artifacts.envelope id envelope).publicKey) = true :=
    List.any_eq_true.mpr ⟨_, trusts, decide_eq_true rfl⟩
  rw [ArtifactStore.authenticate]
  simp only [valid, decoded, record, checked, enveloped.verified, signer, ensure_true, ok_bind,
    if_true, pure_eq_ok]

end

/-! ## Its length -/

theorem paddingRecord_signature (capsuleId storeNonce : String) (envelope publicKey : Bytes) :
    (paddingRecord capsuleId storeNonce envelope publicKey).str? "signature" =
      some (Sha256.hex envelope) := by
  simp [paddingRecord, Value.str?, objectOf, textOf, Json.get, Json.lookup]

theorem bareLine_paddingRecord (capsuleId storeNonce : String) (envelope publicKey : Bytes) :
    (bareLine (paddingRecord capsuleId storeNonce envelope publicKey)).tree =
      .object [(utf8 "capsule_id", Json.ofString capsuleId),
        (utf8 "record_type", Json.ofString "padding"),
        (utf8 "epistemic_type", Json.ofString "producer_claim"),
        (utf8 "store_nonce", Json.ofString storeNonce)] := by
  simp [bareLine, Value.remove, Value.mapMembers, paddingRecord, objectOf, OrderedMap.swapRemove,
    textOf]

theorem length_escape_names : ∀ name ∈ paddingMembers ++ ["padding", "producer_claim"],
    ((utf8 name).flatMap JsonText.escapeByte).length ≤ 14 := by
  decide

theorem length_paddingRecord_le (digest nonce envelope publicKey : Bytes) :
    (paddingRecord (Sha256.hex digest) (Sha256.hex nonce) envelope publicKey).toText.length ≤
        170 + 2 * (digest.length + nonce.length + envelope.length + publicKey.length) ∧
      (bareLine (paddingRecord (Sha256.hex digest) (Sha256.hex nonce) envelope publicKey)
        ).toText.length ≤ 170 + 2 * (digest.length + nonce.length) := by
  have capsuleId := length_escape_names "capsule_id" (by decide)
  have recordType := length_escape_names "record_type" (by decide)
  have epistemicType := length_escape_names "epistemic_type" (by decide)
  have storeNonce := length_escape_names "store_nonce" (by decide)
  have signature := length_escape_names "signature" (by decide)
  have keyId := length_escape_names "key_id" (by decide)
  have padding := length_escape_names "padding" (by decide)
  have claim := length_escape_names "producer_claim" (by decide)
  constructor
  · simp only [Value.toText, paddingRecord, objectOf, textOf, List.map_cons, List.map_nil,
      JsonText.write, JsonText.writeMembers, JsonText.writeString, Json.ofString, escape_hex,
      List.length_append, List.length_cons, List.length_nil, Sha256.length_utf8_hex]
    omega
  · rw [Value.toText, bareLine_paddingRecord]
    simp only [JsonText.write, JsonText.writeMembers, JsonText.writeString, Json.ofString,
      escape_hex, List.length_append, List.length_cons, List.length_nil, Sha256.length_utf8_hex]
    omega

end RustLedger
end CapsuleEmit
