import CapsuleEmit.RustLedger.Sealing

namespace CapsuleEmit
namespace RustLedger

/-!
# Sealed Capsules describe themselves

A sealed Capsule carries the ID that recomputes over it exactly when the body
it was sealed from has the sealer's version members.  A producer envelope
leaves the ID as it is, and what a caller supplies is laid out beside the
sealer's members and never in their place.
-/

/-! ## What an ID covers -/

/-- Whether a member is part of the Capsule ID. -/
def committed (name : String) : Bool := name ∉ ["capsule_id", "signature", "key_id"]

variable {packages : Packages}

theorem preimage_rawMember (lawful : packages.Lawful) (entries : List (String × Value)) :
    preimage packages (entries.map rawMember) =
      (entries.filter (fun member => committed member.1)).map rawMember := by
  rw [preimage, List.filter_map]
  congr 1
  apply List.filter_congr
  intro member _
  simp only [Function.comp_apply, rawMember, lawful.localOnly, ne_eq, utf8_inj, committed]
  by_cases id : member.1 = "capsule_id"
  · simp [id]
  · simp [id]

theorem computeCapsuleId_toValue (lawful : packages.Lawful) (members : Members) :
    computeCapsuleId packages members.toValue = packages.jsonDigest
      (.object ((members.entries.filter (fun member => committed member.1)).map rawMember)) := by
  rw [← preimage_rawMember lawful]
  rfl

/-- The Capsule ID a record carries is the one its members give. -/
def Consistent (packages : Packages) (capsule : Value) : Prop :=
  ∃ id, capsule.str? "capsule_id" = some id ∧ computeCapsuleId packages capsule = .ok id

/-- The members of a capsule, in order. -/
def Laid (capsule : Value) (entries : List (String × Value)) : Prop :=
  capsule.tree = .object (entries.map rawMember)

/-! ## A finished body -/

/-- The version members of a body are the sealer's. -/
def Versioned (body : Members) : Prop :=
  ("spec_version", textOf specVersion) ∈ body.entries ∧
    ("format_version", textOf formatVersion) ∈ body.entries

/-- The members of the Capsule of a body, in order. -/
def sealedMembers (id : String) (body : Members) : List (String × Value) :=
  sealerMembers id ++ body.entries.filter (fun member =>
    member.1 ∉ ["spec_version", "format_version", "capsule_id"])

theorem finishedMembers_entries (id : String) (body : Members) :
    (finishedMembers id body).entries = sealedMembers id body := by
  have sealer : (Members.of (sealerMembers id)).entries = sealerMembers id :=
    Members.of_entries (by simp [sealerMembers])
  change OrderedMap.keepAll body.entries (Members.of (sealerMembers id)).entries = _
  rw [OrderedMap.keepAll_eq body.once, sealer]
  rfl

theorem finishSeal_eq_ok_iff {body : Members} {capsule : Value} :
    finishSeal packages body = .ok capsule ↔ ∃ id, computeCapsuleId packages body.toValue = .ok id ∧
      capsule = (finishedMembers id body).toValue := by
  simp only [finishSeal, bind_eq_ok_iff, mapError_eq_ok_iff, pure_eq_ok, Except.ok.injEq,
    eq_comm (b := capsule)]

/-- The committed members of the Capsule of a versioned body are those of the body. -/
theorem sealedMembers_perm {id : String} {body : Members} (versioned : Versioned body) :
    ((sealedMembers id body).filter (fun member => committed member.1)).Perm
      (body.entries.filter (fun member => committed member.1)) := by
  have distinct : (sealedMembers id body).Nodup := by
    rw [← finishedMembers_entries]
    exact List.Nodup.of_map _ (finishedMembers id body).once
  apply (List.perm_ext_iff_of_nodup (distinct.filter _)
    ((List.Nodup.of_map _ body.once).filter _)).mpr
  intro member
  rw [List.mem_filter, List.mem_filter]
  apply and_congr_left
  intro part
  rw [sealedMembers, List.mem_append, List.mem_filter]
  constructor
  · rintro (own | ⟨inside, -⟩)
    · simp only [sealerMembers, List.mem_cons, List.not_mem_nil, or_false] at own
      rcases own with rfl | rfl | rfl
      · exact versioned.1
      · exact versioned.2
      · exact absurd part (by decide : ¬ committed "capsule_id" = true)
    · exact inside
  · intro inside
    have only {name : String} {value : Value} (kept : (name, value) ∈ body.entries)
        (named : member.1 = name) : member = (name, value) :=
      List.inj_on_of_nodup_map body.once inside kept named
    by_cases spec : member.1 = "spec_version"
    · exact Or.inl (by rw [only versioned.1 spec]; exact List.mem_cons_self)
    · by_cases format : member.1 = "format_version"
      · rw [only versioned.2 format]
        exact Or.inl (List.mem_cons_of_mem _ List.mem_cons_self)
      · have id : member.1 ≠ "capsule_id" := by
          intro same
          rw [same] at part
          exact absurd part (by decide)
        exact Or.inr ⟨inside, by simp [spec, format, id]⟩

/-- Members with one set of committed members have one Capsule ID. -/
theorem computeCapsuleId_congr (lawful : packages.Lawful)
    (canonical : ∀ left right, left.normal = right.normal →
      packages.jsonDigest left = packages.jsonDigest right) {left right : Members}
    (same : (left.entries.filter (fun member => committed member.1)).Perm
      (right.entries.filter (fun member => committed member.1))) :
    computeCapsuleId packages left.toValue = computeCapsuleId packages right.toValue := by
  rw [computeCapsuleId_toValue lawful, computeCapsuleId_toValue lawful]
  apply canonical
  rw [Json.normal, Json.normal, Json.normalMembers_perm (same.map rawMember)]
  have once := (List.filter_sublist (p := fun member : String × Value => committed member.1)).map
    Prod.fst |>.nodup left.once
  have names := once.map utf8_injective
  rwa [List.map_map] at names ⊢

/-- No two of the records have one digest, unless they have one canonical form. -/
def Collisionless (packages : Packages) (records : List Members) : Prop :=
  ∀ left ∈ records, ∀ right ∈ records, ∀ id,
    computeCapsuleId packages left.toValue = .ok id →
    computeCapsuleId packages right.toValue = .ok id →
      (Json.object (preimage packages (left.entries.map rawMember))).normal =
        (Json.object (preimage packages (right.entries.map rawMember))).normal

/-- A string member of a record with the canonical form of another is a member of it. -/
theorem mem_of_normal (lawful : packages.Lawful) {left right : List (String × Value)}
    (same : (Json.object (preimage packages (left.map rawMember))).normal =
      (Json.object (preimage packages (right.map rawMember))).normal)
    {name text : String} (part : committed name = true) (inside : (name, textOf text) ∈ left) :
    (name, textOf text) ∈ right := by
  rw [Json.normal, Json.normal, Json.object.injEq, preimage_rawMember lawful,
    preimage_rawMember lawful] at same
  have kept : (utf8 name, (Json.ofString text).normal) ∈ Json.normalMembers
      ((left.filter (fun member => committed member.1)).map rawMember) := by
    rw [(Json.normalMembers_map_perm _).mem_iff, List.map_map]
    exact List.mem_map.mpr ⟨_, List.mem_filter.mpr ⟨inside, part⟩, rfl⟩
  rw [same, (Json.normalMembers_map_perm _).mem_iff, List.map_map] at kept
  rcases List.mem_map.mp kept with ⟨⟨other, value⟩, member, equal⟩
  simp only [Function.comp_apply, rawMember, Prod.mk.injEq, utf8_inj] at equal
  rcases equal with ⟨rfl, form⟩
  have tree : value.tree = Json.ofString text := by
    cases shape : value.tree with
    | string bytes => rw [shape] at form; exact form
    | null => rw [shape] at form; cases form
    | bool _ => rw [shape] at form; cases form
    | number _ => rw [shape] at form; cases form
    | array _ => rw [shape] at form; cases form
    | object _ => rw [shape] at form; cases form
  have whole : value = textOf text := Value.ext tree
  rw [← whole]
  exact (List.mem_filter.mp member).1

/-! ## The envelope -/

theorem insert_tree {capsule : Value} {members : List (Bytes × Json)}
    (object : capsule.tree = .object members) (name text : String) :
    (capsule.insert name text).tree =
      .object (OrderedMap.insert (utf8 name) (Json.ofString text) members) := by
  simp only [Value.insert, object, Value.mapMembers]

/-- A member of the envelope is no part of the Capsule ID. -/
theorem computeCapsuleId_insert (lawful : packages.Lawful) {capsule : Value} {name : String}
    (envelope : name = "signature" ∨ name = "key_id") (text : String) :
    computeCapsuleId packages (capsule.insert name text) = computeCapsuleId packages capsule := by
  cases object : capsule.tree with
  | object members =>
      have dropped : (utf8 name ≠ utf8 "capsule_id" && !packages.isLocalOnlyField (utf8 name)) =
          false := by
        rw [lawful.localOnly, decide_eq_true envelope, Bool.not_true, Bool.and_false]
      rw [computeCapsuleId, computeCapsuleId, insert_tree object, object]
      dsimp only
      rw [preimage, OrderedMap.filter_insert (p := fun name =>
        name ≠ utf8 "capsule_id" && !packages.isLocalOnlyField name) dropped]
      rfl
  | null => simp only [computeCapsuleId, Value.insert, object, Value.mapMembers]
  | bool _ => simp only [computeCapsuleId, Value.insert, object, Value.mapMembers]
  | number _ => simp only [computeCapsuleId, Value.insert, object, Value.mapMembers]
  | string _ => simp only [computeCapsuleId, Value.insert, object, Value.mapMembers]
  | array _ => simp only [computeCapsuleId, Value.insert, object, Value.mapMembers]

theorem str?_insert {capsule : Value} {name text other found : String} (different : other ≠ name)
    (member : capsule.str? other = some found) :
    (capsule.insert name text).str? other = some found := by
  rcases object_of_str? member with ⟨members, object⟩
  apply str?_of_mem (insert_tree object name text)
  exact OrderedMap.mem_insert_of_ne (mem_of_str? object member) fun same =>
    different (utf8_injective same)

/-- An attached envelope keeps the Capsule ID a capsule carries, and the one it has. -/
theorem attachProducerEnvelope_id (lawful : packages.Lawful) {key : SigningKey}
    {capsule enveloped : Value} (attached : attachProducerEnvelope key capsule = .ok enveloped) :
    enveloped.str? "capsule_id" = capsule.str? "capsule_id" ∧
      computeCapsuleId packages enveloped = computeCapsuleId packages capsule := by
  simp only [attachProducerEnvelope, bind_eq_ok_iff, pure_eq_ok, Except.ok.injEq] at attached
  rcases attached with ⟨members, object, id, carried, digest, decoded, rfl⟩
  refine ⟨?_, ?_⟩
  · cases stored : capsule.str? "capsule_id" with
    | none => rw [stored] at carried; cases carried
    | some text => exact str?_insert (by decide) (str?_insert (by decide) stored)
  · rw [computeCapsuleId_insert lawful (Or.inr rfl), computeCapsuleId_insert lawful (Or.inl rfl)]

/-- A capsule with a hexadecimal ID takes an envelope. -/
theorem attachProducerEnvelope_eq {capsule : Value} {digest : Bytes}
    (carried : capsule.str? "capsule_id" = some (Sha256.hex digest)) (key : SigningKey) :
    attachProducerEnvelope key capsule =
      .ok ((capsule.insert "signature" (Sha256.hex (key.signProducerEnvelope digest))).insert
        "key_id" (Sha256.hex key.publicKey)) := by
  rcases object_of_str? carried with ⟨members, object⟩
  simp only [attachProducerEnvelope, object, Json.asObject, carried, hexDecode_hex,
    Option.elim_some, ok_bind, pure_eq_ok]

/-- A consistent capsule takes an envelope, and stays consistent. -/
theorem Consistent.attach (lawful : packages.Lawful) {capsule : Value}
    (consistent : Consistent packages capsule) (key : SigningKey) :
    ∃ enveloped, attachProducerEnvelope key capsule = .ok enveloped ∧
      enveloped.str? "capsule_id" = capsule.str? "capsule_id" ∧ Consistent packages enveloped := by
  rcases consistent with ⟨id, carried, computed⟩
  rcases isDigest_of_computeCapsuleId lawful computed with ⟨digest, -, rfl⟩
  have attached := attachProducerEnvelope_eq carried key
  rcases attachProducerEnvelope_id lawful attached with ⟨kept, same⟩
  exact ⟨_, attached, kept, _, kept.trans carried, same.trans computed⟩

/-! ## What sealing owes a body -/

/-- The Capsule of a body: its ID recomputes, an envelope leaves the ID as it is,
and no member of the body is in the place of one of the sealer's. -/
structure SealedWell (packages : Packages) (body : Members) (capsule : Value) : Prop where
  recomputes : Consistent packages capsule
  enveloped : ∀ key, ∃ enveloped, attachProducerEnvelope key capsule = .ok enveloped ∧
    enveloped.str? "capsule_id" = capsule.str? "capsule_id" ∧ Consistent packages enveloped
  laid : ∃ id, Laid capsule (sealedMembers id body)

theorem str?_of_laid {capsule : Value} {entries : List (String × Value)}
    (laid : Laid capsule entries) {name text : String} (inside : (name, textOf text) ∈ entries) :
    capsule.str? name = some text :=
  str?_of_mem laid (List.mem_map_of_mem (f := rawMember) inside)

theorem laid_of_finishSeal {body : Members} {capsule : Value}
    (finished : finishSeal packages body = .ok capsule) :
    ∃ id, computeCapsuleId packages body.toValue = .ok id ∧
      capsule = (finishedMembers id body).toValue ∧
        Laid capsule (sealedMembers id body) := by
  rcases finishSeal_eq_ok_iff.mp finished with ⟨id, computed, rfl⟩
  refine ⟨id, computed, rfl, ?_⟩
  rw [Laid, ← finishedMembers_entries]
  rfl

/-- The Capsule of a body with the sealer's version members is sealed well. -/
theorem sealedWell_of_versioned (lawful : packages.Lawful)
    (canonical : ∀ left right, left.normal = right.normal →
      packages.jsonDigest left = packages.jsonDigest right) {body : Members} {capsule : Value}
    (finished : finishSeal packages body = .ok capsule) (versioned : Versioned body) :
    SealedWell packages body capsule := by
  rcases laid_of_finishSeal finished with ⟨id, computed, rfl, laid⟩
  have consistent : Consistent packages (finishedMembers id body).toValue := by
    refine ⟨id, str?_of_laid laid (List.mem_append_left _ (by simp [sealerMembers])), ?_⟩
    rw [← computed]
    apply computeCapsuleId_congr lawful canonical
    rw [finishedMembers_entries]
    exact sealedMembers_perm versioned
  exact ⟨consistent, consistent.attach lawful, id, laid⟩

/-- The Capsule of a body is sealed well exactly when the body has the sealer's
version members. -/
theorem sealedWell_iff (lawful : packages.Lawful)
    (canonical : ∀ left right, left.normal = right.normal →
      packages.jsonDigest left = packages.jsonDigest right) {body : Members} {capsule : Value}
    (finished : finishSeal packages body = .ok capsule)
    (collisionless : ∀ id, Collisionless packages
      [body, finishedMembers id body]) :
    SealedWell packages body capsule ↔ Versioned body := by
  constructor
  · rcases laid_of_finishSeal finished with ⟨id, computed, rfl, laid⟩
    have carried : (finishedMembers id body).toValue.str? "capsule_id" = some id :=
      str?_of_laid laid (List.mem_append_left _ (by simp [sealerMembers]))
    rintro ⟨⟨stored, named, recomputed⟩, -, -⟩
    rw [carried, Option.some.injEq] at named
    subst named
    have same := collisionless id _ (List.mem_cons_of_mem _ List.mem_cons_self) body
      List.mem_cons_self id recomputed computed
    rw [finishedMembers_entries] at same
    exact ⟨mem_of_normal lawful same (by decide) (List.mem_append_left _ (by simp [sealerMembers])),
      mem_of_normal lawful same (by decide) (List.mem_append_left _ (by simp [sealerMembers]))⟩
  · exact sealedWell_of_versioned lawful canonical finished

/-! ## Bodies of actions -/

theorem optional_names (name : String) (value : Option Value) :
    ((optional name value).map Prod.fst).Sublist [name] := by
  cases value with
  | none => exact List.nil_sublist _
  | some value => exact List.Sublist.refl _

theorem coreAttestation_names (input : CapsuleInput) :
    ((coreAttestation input).map Prod.fst).Sublist
      (["agent_input_digest"] ++ ["agent_output_digest"] ++ ["tool_calls_digest"] ++
        ["reasoning_digest"] ++ ["host_binding"] ++ ["runtime", "attestation_refs"]) := by
  simp only [coreAttestation, List.map_append]
  exact ((((List.Sublist.refl _).append (optional_names _ _)).append (optional_names _ _)).append
    (optional_names _ _)).append (optional_names _ _) |>.append (List.Sublist.refl _)

theorem bodyMembers_names (input : CapsuleInput) :
    ((bodyMembers input).map Prod.fst).Sublist
      (["spec_version", "format_version", "canonicalization_id", "action_id", "action_type",
        "operator", "developer", "timestamp"] ++ ["domain"] ++ ["provenance"] ++
        ["model_attestation", "effect", "assurance", "disposition"] ++ ["chain"]) := by
  simp only [bodyMembers, List.map_append]
  exact ((((List.Sublist.refl _).append (optional_names _ _)).append (optional_names _ _)).append
    (List.Sublist.refl _)).append (optional_names _ _)

theorem checkExtensions_eq_ok_iff {extensions : Members} {done : Unit} :
    checkExtensions extensions = .ok done ↔
      ∀ member ∈ extensions.entries, member.1 ∉ coreComputeAttestationMembers := by
  rw [checkExtensions]
  cases found : extensions.entries.find? (fun member =>
    member.1 ∈ coreComputeAttestationMembers) with
  | none => simpa using found
  | some member =>
      have core := List.find?_some found
      rw [decide_eq_true_eq] at core
      exact ⟨nofun, fun none => absurd core (none _ (List.mem_of_find?_eq_some found))⟩

/-- The extensions stand between the members the sealer writes. -/
theorem computeAttestation_entries {input : CapsuleInput}
    (free : ∀ member ∈ input.computeAttestationExtensions.entries,
      member.1 ∉ coreComputeAttestationMembers) :
    (computeAttestation input).entries = coreAttestation input ++
      input.computeAttestationExtensions.entries ++ [(storeNonceField, textOf input.storeNonce)] := by
  have names := coreAttestation_names input
  have known : ∀ name ∈ (coreAttestation input).map Prod.fst,
      name ∈ coreComputeAttestationMembers ∧ name ≠ storeNonceField := by
    have each : ∀ name ∈ ["agent_input_digest"] ++ ["agent_output_digest"] ++
        ["tool_calls_digest"] ++ ["reasoning_digest"] ++ ["host_binding"] ++
          ["runtime", "attestation_refs"],
        name ∈ coreComputeAttestationMembers ∧ name ≠ storeNonceField := by decide
    exact fun name inside => each name (names.subset inside)
  have once : ((coreAttestation input).map Prod.fst).Nodup := names.nodup (by decide)
  have whole : ((coreAttestation input ++ input.computeAttestationExtensions.entries).map
      Prod.fst).Nodup := by
    rw [List.map_append, List.nodup_append]
    refine ⟨once, input.computeAttestationExtensions.once, ?_⟩
    rintro name inside other extension rfl
    rcases List.mem_map.mp extension with ⟨member, listed, rfl⟩
    exact free member listed (known _ inside).1
  have extended : ((Members.of (coreAttestation input)).extend
      input.computeAttestationExtensions.entries).entries =
        coreAttestation input ++ input.computeAttestationExtensions.entries := by
    change OrderedMap.insertAll _ (Members.of (coreAttestation input)).entries = _
    rw [Members.of_entries once, OrderedMap.insertAll_of_fresh whole]
  change OrderedMap.insert _ _ (((Members.of (coreAttestation input)).extend
    input.computeAttestationExtensions.entries).entries) = _
  rw [extended, OrderedMap.insert_of_notMem]
  rw [List.map_append, List.mem_append]
  rintro (core | extension)
  · exact (known _ core).2 rfl
  · rcases List.mem_map.mp extension with ⟨member, listed, same⟩
    exact free member listed (by rw [same]; decide)

/-- The body of an action has the sealer's members in place, the version members
among them. -/
theorem sealBody_spec {input : CapsuleInput} {body : Members} (built : sealBody input = .ok body) :
    Versioned body ∧ body.entries = bodyMembers input ∧
      (computeAttestation input).entries = coreAttestation input ++
        input.computeAttestationExtensions.entries ++
          [(storeNonceField, textOf input.storeNonce)] := by
  simp only [sealBody, bind_eq_ok_iff, pure_eq_ok, Except.ok.injEq] at built
  rcases built with ⟨_, -, _, -, _, free, rfl⟩
  have entries : (Members.of (bodyMembers input)).entries = bodyMembers input :=
    Members.of_entries ((bodyMembers_names input).nodup (by decide))
  refine ⟨?_, entries, computeAttestation_entries (checkExtensions_eq_ok_iff.mp free)⟩
  rw [Versioned, entries]
  exact ⟨by simp [bodyMembers], by simp [bodyMembers]⟩

/-! ## Local records -/

theorem localMembers_names (header : LocalRecordHeader) (actionId timestamp : String)
    (attestation : Members) (references : Option Value) (chain : Option ChainLink) :
    ((localMembers header actionId timestamp attestation references chain).map Prod.fst).Sublist
      (["spec_version", "format_version", "canonicalization_id", "action_id", "action_type",
        "operator", "developer", "timestamp", "domain", "provenance", "model_attestation",
        "assurance", "disposition"] ++ ["chain"] ++ ["references"]) := by
  simp only [localMembers, List.map_append]
  exact ((List.Sublist.refl _).append (optional_names _ _)).append (optional_names _ _)

/-- Members that are taken are added at the end, under names of their own. -/
theorem addMembers_ok {members : List (String × Value)} {body whole : Members}
    (added : addMembers members body = .ok whole) : whole.entries = body.entries ++ members ∧
      ∀ member ∈ members, member.1 ∉ ["capsule_id", "signature", "key_id"] := by
  induction members generalizing body with
  | nil =>
      cases added
      exact ⟨(List.append_nil _).symm, nofun⟩
  | cons member members ih =>
      rw [addMembers] at added
      split at added
      · cases added
      · next free =>
          rw [Bool.or_eq_true, not_or, Members.containsKey, decide_eq_true_eq,
            decide_eq_true_eq] at free
          rcases ih added with ⟨entries, named⟩
          refine ⟨?_, List.forall_mem_cons.mpr ⟨free.2, named⟩⟩
          rw [entries]
          change OrderedMap.insert _ _ _ ++ _ = _
          rw [OrderedMap.insert_of_notMem free.1, List.append_assoc]
          rfl

/-- Two members under new names are added at the end of a capsule. -/
theorem laid_insert {capsule : Value} {entries : List (String × Value)}
    (laid : Laid capsule entries) {name text : String} (fresh : name ∉ entries.map Prod.fst) :
    Laid (capsule.insert name text) (entries ++ [(name, textOf text)]) := by
  have absent : utf8 name ∉ (entries.map rawMember).map Prod.fst := by
    rw [List.map_map]
    intro inside
    rcases List.mem_map.mp inside with ⟨member, listed, same⟩
    exact fresh (List.mem_map.mpr ⟨member, listed, utf8_injective same⟩)
  rw [Laid, insert_tree laid, OrderedMap.insert_of_notMem absent, List.map_append]
  rfl

/-- What a sealed local record has: a Capsule ID that recomputes under its
envelope, its blocks before the nonce, and its members after the sealer's. -/
theorem sealLocalRecord_ok (lawful : packages.Lawful) {header : LocalRecordHeader}
    {actionId timestamp nonce : String} {blocks members : Members} {references : Option Value}
    {chain : Option ChainLink} {key : SigningKey} {attached : Except EnvelopeError Value}
    (done : sealLocalRecordWithMembers packages header actionId blocks members references chain key
      timestamp nonce = .ok attached) :
    (blocks.insert storeNonceField (textOf nonce)).entries =
        blocks.entries ++ [(storeNonceField, textOf nonce)] ∧
      ∃ capsule id envelope, attached = .ok capsule ∧ Consistent packages capsule ∧
        Laid capsule ([("capsule_id", textOf id)] ++
          localMembers header actionId timestamp (blocks.insert storeNonceField (textOf nonce))
            references chain ++ members.entries ++
          [("signature", textOf envelope)] ++ [("key_id", textOf (Sha256.hex key.publicKey))]) := by
  simp only [sealLocalRecordWithMembers, bind_eq_ok_iff, mapError_eq_ok_iff, ensure_eq_ok_iff,
    pure_eq_ok, Except.ok.injEq] at done
  rcases done with ⟨_, unnonced, body, added, id, computed, rfl⟩
  have absent : storeNonceField ∉ blocks.entries.map Prod.fst := by
    simpa [Members.containsKey] using unnonced
  refine ⟨OrderedMap.insert_of_notMem absent, ?_⟩
  have names := localMembers_names header actionId timestamp
    (blocks.insert storeNonceField (textOf nonce)) references chain
  rcases addMembers_ok added with ⟨entries, named⟩
  rw [Members.of_entries (names.nodup (by decide))] at entries
  -- no member of the body is one of the three the sealer adds to it
  have free : ∀ member ∈ body.entries, member.1 ∉ ["capsule_id", "signature", "key_id"] := by
    intro member inside
    rw [entries, List.mem_append] at inside
    rcases inside with own | given
    · have each : ∀ name ∈ ["spec_version", "format_version", "canonicalization_id", "action_id",
          "action_type", "operator", "developer", "timestamp", "domain", "provenance",
          "model_attestation", "assurance", "disposition"] ++ ["chain"] ++ ["references"],
          name ∉ ["capsule_id", "signature", "key_id"] := by decide
      exact each _ (names.subset (List.mem_map_of_mem own))
    · exact named member given
  have sealed : ((Members.of [("capsule_id", textOf id)]).keepAll body).entries =
      ("capsule_id", textOf id) :: body.entries := by
    change OrderedMap.keepAll body.entries [("capsule_id", textOf id)] = _
    rw [OrderedMap.keepAll_eq body.once, List.filter_eq_self.mpr]
    · rfl
    · intro member inside
      have other := free member inside
      simp only [List.mem_cons, not_or] at other
      simpa using other.1
  have laid : Laid ((Members.of [("capsule_id", textOf id)]).keepAll body).toValue
      (("capsule_id", textOf id) :: body.entries) := by
    rw [← sealed]
    rfl
  have consistent : Consistent packages
      ((Members.of [("capsule_id", textOf id)]).keepAll body).toValue := by
    refine ⟨id, str?_of_laid laid List.mem_cons_self, ?_⟩
    rw [← computed, computeCapsuleId_toValue lawful, computeCapsuleId_toValue lawful, sealed,
      List.filter_cons_of_neg (by simp [committed])]
  rcases consistent.attach lawful key with ⟨capsule, attached, -, kept⟩
  rcases isDigest_of_computeCapsuleId lawful computed with ⟨digest, -, rfl⟩
  refine ⟨capsule, Sha256.hex digest, Sha256.hex (key.signProducerEnvelope digest), attached, kept,
    ?_⟩
  have unsigned : ∀ name ∈ ["signature", "key_id"], name ∉
      (("capsule_id", textOf (Sha256.hex digest)) :: body.entries).map Prod.fst := by
    intro name listed inside
    rcases List.mem_map.mp inside with ⟨member, given, rfl⟩
    rcases List.mem_cons.mp given with rfl | given
    · exact absurd listed (by decide : "capsule_id" ∉ ["signature", "key_id"])
    · exact free member given (List.mem_cons_of_mem _ listed)
  have signed := @laid_insert _ _ laid _ (Sha256.hex (key.signProducerEnvelope digest))
    (unsigned "signature" List.mem_cons_self)
  have keyed := @laid_insert _ _ signed "key_id" (Sha256.hex key.publicKey) (by
    rw [List.map_append, List.mem_append, not_or]
    exact ⟨unsigned _ (List.mem_cons_of_mem _ List.mem_cons_self), by simp⟩)
  rw [attachProducerEnvelope_eq (str?_of_laid laid List.mem_cons_self), Except.ok.injEq] at attached
  rw [← attached]
  simpa only [entries, List.singleton_append, List.cons_append, List.nil_append,
    List.append_assoc] using keyed

/-! ## Every Capsule that is sealed -/

/-- The Capsule of a body describes itself exactly when the body has the
sealer's version members, as every body of an action has; a local record always
does; and an envelope never changes an ID. -/
theorem sealed_spec (lawful : packages.Lawful)
    (canonical : ∀ left right, left.normal = right.normal →
      packages.jsonDigest left = packages.jsonDigest right) :
    (∀ body capsule, finishSeal packages body = .ok capsule →
      (∀ id, Collisionless packages [body, finishedMembers id body]) →
        (SealedWell packages body capsule ↔ Versioned body)) ∧
    (∀ input capsule, sealCapsule packages input = .ok capsule →
      ∃ body, sealBody input = .ok body ∧ SealedWell packages body capsule ∧
        body.entries = bodyMembers input ∧
        (computeAttestation input).entries = coreAttestation input ++
          input.computeAttestationExtensions.entries ++
            [(storeNonceField, textOf input.storeNonce)]) ∧
    (∀ key capsule enveloped, attachProducerEnvelope key capsule = .ok enveloped →
      enveloped.str? "capsule_id" = capsule.str? "capsule_id" ∧
        computeCapsuleId packages enveloped = computeCapsuleId packages capsule) ∧
    ∀ header actionId blocks members references chain key timestamp nonce attached,
      sealLocalRecordWithMembers packages header actionId blocks members references chain key
        timestamp nonce = .ok attached →
      (blocks.insert storeNonceField (textOf nonce)).entries =
          blocks.entries ++ [(storeNonceField, textOf nonce)] ∧
        ∃ capsule id envelope, attached = .ok capsule ∧ Consistent packages capsule ∧
          Laid capsule ([("capsule_id", textOf id)] ++
            localMembers header actionId timestamp (blocks.insert storeNonceField (textOf nonce))
              references chain ++ members.entries ++
            [("signature", textOf envelope)] ++
            [("key_id", textOf (Sha256.hex key.publicKey))]) := by
  refine ⟨fun body capsule finished collisionless =>
      sealedWell_iff lawful canonical finished collisionless, ?_,
    fun key capsule enveloped attached => attachProducerEnvelope_id lawful attached,
    fun header actionId blocks members references chain key timestamp nonce attached done =>
      sealLocalRecord_ok lawful done⟩
  intro input capsule done
  simp only [sealCapsule, bind_eq_ok_iff] at done
  rcases done with ⟨body, built, finished⟩
  rcases sealBody_spec built with ⟨versioned, entries, attestation⟩
  exact ⟨body, built, sealedWell_of_versioned lawful canonical finished versioned, entries,
    attestation⟩

/-! ## A body of an earlier version -/

/-- A body with version members alone. -/
def versionBody (version : String) : Members :=
  ⟨[("spec_version", textOf version), ("format_version", textOf formatVersion)], by simp⟩

def earlierVersion : String := "draft-mih-scitt-agent-action-capsule-04"

/-- The canonical text of a body with version members alone. -/
def versionText (version : String) : Bytes :=
  JsonText.write (Json.object ((versionBody version).entries.map rawMember)).normal

def earlierDigest : Bytes :=
  ArtifactStore.bigEndian 32 0xc9b10a8e827252abc24abe82b4c4639a54b7195119db242836c666df6c50df25

def currentDigest : Bytes :=
  ArtifactStore.bigEndian 32 0xd2483349a3e565f6a52fe306b6ee9f17d99c2955b90e3627fb57870ea7f81c3b

def versionPackages : Packages := tablePackages
  [(versionText earlierVersion, earlierDigest), (versionText specVersion, currentDigest)] []

theorem versionPackages_lawful : versionPackages.Lawful :=
  tablePackages_lawful (by simp [earlierDigest, currentDigest]) _

/-- Every member of such a body is part of its ID. -/
theorem versionBody_preimage (version : String) :
    preimage versionPackages ((versionBody version).entries.map rawMember) =
      (versionBody version).entries.map rawMember := by
  rw [preimage_rawMember versionPackages_lawful]
  rfl

theorem versionPackages_earlier :
    computeCapsuleId versionPackages (versionBody earlierVersion).toValue =
      .ok (Sha256.hex earlierDigest) := by
  rw [computeCapsuleId_toValue versionPackages_lawful]
  exact tablePackages_jsonDigest (List.find?_cons_of_pos (decide_eq_true rfl))

theorem versionText_ne : versionText earlierVersion ≠ versionText specVersion := by
  intro same
  have trees := congrArg JsonText.readDocument same
  rw [versionText, versionText, JsonText.readDocument_write, JsonText.readDocument_write,
    Option.some.injEq, ← versionBody_preimage earlierVersion,
    ← versionBody_preimage specVersion] at trees
  have inside : ("spec_version", textOf earlierVersion) ∈ (versionBody specVersion).entries :=
    mem_of_normal versionPackages_lawful trees (by decide) List.mem_cons_self
  simp [versionBody, earlierVersion, specVersion, textOf, Json.ofString] at inside

theorem versionPackages_current :
    computeCapsuleId versionPackages (versionBody specVersion).toValue =
      .ok (Sha256.hex currentDigest) := by
  rw [computeCapsuleId_toValue versionPackages_lawful]
  have found : [(versionText earlierVersion, earlierDigest), (versionText specVersion,
      currentDigest)].find? (fun entry => entry.1 = versionText specVersion) =
        some (versionText specVersion, currentDigest) := by
    rw [List.find?_cons_of_neg (by simpa using versionText_ne)]
    exact List.find?_cons_of_pos (decide_eq_true rfl)
  exact tablePackages_jsonDigest found

/-- The committed members of the Capsule of such a body are the sealer's. -/
theorem computeCapsuleId_finished (id version : String) :
    computeCapsuleId versionPackages (finishedMembers id (versionBody version)).toValue =
      .ok (Sha256.hex currentDigest) := by
  rw [← versionPackages_current, computeCapsuleId_toValue versionPackages_lawful,
    computeCapsuleId_toValue versionPackages_lawful, finishedMembers_entries]
  congr 2

/-- The Capsule of a body of an earlier version has the ID of that body. -/
theorem finishSeal_earlierVersion : ∃ capsule,
    finishSeal versionPackages (versionBody earlierVersion) = .ok capsule ∧
      capsule.str? "spec_version" = some specVersion ∧
        ¬ Consistent versionPackages capsule := by
  refine ⟨_, finishSeal_eq_ok_iff.mpr ⟨_, versionPackages_earlier, rfl⟩, ?_, ?_⟩
  · exact str?_of_mem rfl List.mem_cons_self
  · rintro ⟨id, carried, computed⟩
    rw [computeCapsuleId_finished, Except.ok.injEq] at computed
    rw [← computed] at carried
    have stored : (finishedMembers (Sha256.hex earlierDigest)
        (versionBody earlierVersion)).toValue.str? "capsule_id" =
          some (Sha256.hex earlierDigest) :=
      str?_of_mem rfl (List.mem_cons_of_mem _ (List.mem_cons_of_mem _ List.mem_cons_self))
    rw [stored, Option.some.injEq] at carried
    exact absurd (hex_injective carried) (by decide)

/-- The Capsule of a body of this version describes itself. -/
theorem sealed_spec_current : ∃ capsule,
    finishSeal versionPackages (versionBody specVersion) = .ok capsule ∧
      SealedWell versionPackages (versionBody specVersion) capsule := by
  have finished := finishSeal_eq_ok_iff.mpr ⟨_, versionPackages_current, rfl⟩
  refine ⟨_, finished, ?_⟩
  apply ((sealed_spec versionPackages_lawful (fun _ _ => tablePackages_normal)).1 _ _ finished
    fun id => ?_).mpr ⟨by simp [versionBody], by simp [versionBody]⟩
  have versioned : Versioned (versionBody specVersion) :=
    ⟨List.mem_cons_self, List.mem_cons_of_mem _ List.mem_cons_self⟩
  have form : ∀ record ∈ [versionBody specVersion, finishedMembers id (versionBody specVersion)],
      (Json.object (preimage versionPackages (record.entries.map rawMember))).normal =
        (Json.object (preimage versionPackages
          ((versionBody specVersion).entries.map rawMember))).normal := by
    intro record inside
    rcases List.mem_cons.mp inside with rfl | last
    · rfl
    · rw [List.mem_singleton.mp last, finishedMembers_entries]
      rfl
  intro left inLeft right inRight _ _ _
  rw [form left inLeft, form right inRight]

end RustLedger
end CapsuleEmit
