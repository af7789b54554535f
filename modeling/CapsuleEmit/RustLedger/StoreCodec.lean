import CapsuleEmit.RustLedger.Layouts

namespace CapsuleEmit
namespace RustLedger

/-!
# Lines as records

A line that is written to the stores reads back with the same members, up to
their order.  The Capsule ID, the bytes of the Capsule and the envelope of a
record determine its line.
-/

open ArtifactStore (Record SameRecord acceptRecord sha256Hex visitLimit)

variable {packages : StorePackages}

/-! ## Members of a line -/

/-- Two objects with the same members. -/
def SameMembers (left right : Value) : Prop := ∃ members others,
  left.tree = .object members ∧ right.tree = .object others ∧ members.Perm others

theorem SameMembers.symm {left right : Value} (same : SameMembers left right) :
    SameMembers right left := by
  rcases same with ⟨members, others, leftTree, rightTree, perm⟩
  exact ⟨others, members, rightTree, leftTree, perm.symm⟩

theorem SameMembers.trans {first second third : Value} (left : SameMembers first second)
    (right : SameMembers second third) : SameMembers first third := by
  rcases left with ⟨members, others, firstTree, secondTree, perm⟩
  rcases right with ⟨middle, last, again, thirdTree, perm'⟩
  rw [secondTree, Json.object.injEq] at again
  subst again
  exact ⟨members, last, firstTree, thirdTree, perm.trans perm'⟩

/-- A string member of an object is one of its members. -/
theorem mem_of_str? {line : Value} {members : List (Bytes × Json)}
    (object : line.tree = .object members) {name text : String}
    (found : line.str? name = some text) : (utf8 name, Json.ofString text) ∈ members := by
  rw [Value.str?, object, Json.get, Json.lookup] at found
  rcases Option.bind_eq_some_iff.mp found with ⟨value, member, string⟩
  rcases Option.map_eq_some_iff.mp member with ⟨entry, first, rfl⟩
  have named := List.find?_some first
  have inside := List.mem_reverse.mp (List.mem_of_find?_eq_some first)
  rw [decide_eq_true_eq] at named
  rcases entry with ⟨key, value⟩
  dsimp only at named string
  subst named
  cases value with
  | string bytes =>
      rw [Json.asStr] at string
      rw [Json.ofString, Utf8.utf8_of_utf8? string]
      exact inside
  | null => cases string
  | bool _ => cases string
  | number _ => cases string
  | array _ => cases string
  | object _ => cases string

theorem names_nodup {line : Value} {members : List (Bytes × Json)}
    (object : line.tree = .object members) : (members.map Prod.fst).Nodup :=
  (object_sound_iff.mp ⟨object ▸ line.textual, object ▸ line.distinct⟩).1

theorem signature_ne_keyId : utf8 "signature" ≠ utf8 "key_id" := by
  rw [ne_eq, utf8_inj]
  decide

/-- The envelope of a line and the line without it. -/
theorem bareLine_members {line : Value} {members : List (Bytes × Json)}
    (object : line.tree = .object members) {signature keyId : String}
    (signed : line.str? "signature" = some signature) (named : line.str? "key_id" = some keyId) :
    ∃ bare, (bareLine line).tree = .object bare ∧
      members.Perm ((utf8 "signature", Json.ofString signature) ::
        (utf8 "key_id", Json.ofString keyId) :: bare) ∧
      utf8 "signature" ∉ bare.map Prod.fst ∧ utf8 "key_id" ∉ bare.map Prod.fst := by
  have once := names_nodup object
  have first := OrderedMap.perm_swapRemove once (mem_of_str? object signed)
  rcases @OrderedMap.nodup_swapRemove _ _ _ (utf8 "signature") _ once with ⟨once', absent⟩
  have inside : (utf8 "key_id", Json.ofString keyId) ∈
      OrderedMap.swapRemove (utf8 "signature") members := by
    rcases List.mem_cons.mp (first.mem_iff.mp (mem_of_str? object named)) with same | inside
    · exact absurd (congrArg Prod.fst same).symm signature_ne_keyId
    · exact inside
  have second := OrderedMap.perm_swapRemove once' inside
  rcases @OrderedMap.nodup_swapRemove _ _ _ (utf8 "key_id") _ once' with ⟨-, absent'⟩
  refine ⟨OrderedMap.swapRemove (utf8 "key_id")
    (OrderedMap.swapRemove (utf8 "signature") members), ?_, first.trans (second.cons _), ?_,
    absent'⟩
  · simp only [bareLine, Value.remove, object, Value.mapMembers]
  · intro again
    rcases List.mem_map.mp again with ⟨entry, member, same⟩
    exact absent (List.mem_map.mpr ⟨entry, OrderedMap.mem_of_mem_swapRemove member, same⟩)

/-- An envelope is put back at the end. -/
theorem withEnvelope_tree {bare : Value} {members : List (Bytes × Json)}
    (object : bare.tree = .object members) (unsigned : utf8 "signature" ∉ members.map Prod.fst)
    (unnamed : utf8 "key_id" ∉ members.map Prod.fst) (signature keyId : String) :
    (withEnvelope bare signature keyId).tree = .object (members ++
      [(utf8 "signature", Json.ofString signature), (utf8 "key_id", Json.ofString keyId)]) := by
  have absent : utf8 "key_id" ∉
      (members ++ [(utf8 "signature", Json.ofString signature)]).map Prod.fst := by
    rw [List.map_append, List.mem_append, not_or]
    refine ⟨unnamed, ?_⟩
    rw [List.map_singleton, List.mem_singleton]
    exact signature_ne_keyId.symm
  simp only [withEnvelope, Value.insert, object, Value.mapMembers,
    OrderedMap.insert_of_notMem unsigned, OrderedMap.insert_of_notMem absent, List.append_assoc,
    List.singleton_append]

/-- A line is its envelope put back on the line without it. -/
theorem withEnvelope_bareLine {line : Value} {members : List (Bytes × Json)}
    (object : line.tree = .object members) {signature keyId : String}
    (signed : line.str? "signature" = some signature) (named : line.str? "key_id" = some keyId) :
    SameMembers (withEnvelope (bareLine line) signature keyId) line := by
  rcases bareLine_members object signed named with ⟨bare, tree, perm, unsigned, unnamed⟩
  refine ⟨_, members, withEnvelope_tree tree unsigned unnamed signature keyId, object, ?_⟩
  apply List.Perm.trans _ perm.symm
  rw [List.append_cons]
  exact (List.perm_append_singleton _ _).trans ((List.perm_append_singleton _ _).cons _) |>.trans
    (List.Perm.swap _ _ _)

/-! ## What a record says of its line -/

/-- The envelope of a line: its bytes, which verify over the Capsule ID, and its
signer, both in lower-case hexadecimal. -/
structure Enveloped (packages : StorePackages) (line : Value) (id : String) (envelope : Bytes) :
    Prop where
  object : ∃ members, line.tree = .object members
  signature : line.str? "signature" = some (Sha256.hex envelope)
  verified : (packages.artifacts.envelope id envelope).ok = true
  keyId : line.str? "key_id" =
    some (Sha256.hex (packages.artifacts.envelope id envelope).publicKey)

theorem asObject_eq_some_iff {tree : Json} {members : List (Bytes × Json)} :
    tree.asObject = some members ↔ tree = .object members := by
  cases tree <;> simp [Json.asObject]

/-- A line with such an envelope is made a record, and no other line is. -/
theorem toRecord_eq_ok_iff {id : String} {line : Value} {statement : Bytes} {record : Record} :
    toRecord packages id line statement = .ok record ↔
      ∃ envelope, Enveloped packages line id envelope ∧ record = ⟨id, (bareLine line).toText,
        envelope, [statementArtifact packages statement]⟩ := by
  simp only [toRecord, envelopeMembers, bind_eq_ok_iff, elim_eq_ok_iff, ensure_eq_ok_iff,
    decide_eq_true_eq, asObject_eq_some_iff, pure_eq_ok, Except.ok.injEq, Prod.exists,
    Option.bind_eq_bind, Option.bind_eq_some_iff, Option.pure_def, Option.some.injEq,
    Prod.mk.injEq, exists_const]
  constructor
  · rintro ⟨members, object, signature, keyId, ⟨_, signed, _, named, rfl, rfl⟩, envelope, -,
      verified, signer, rfl, rfl⟩
    exact ⟨envelope, ⟨⟨members, object⟩, signed, verified, signer ▸ named⟩, rfl⟩
  · rintro ⟨envelope, ⟨⟨members, object⟩, signed, verified, named⟩, rfl⟩
    exact ⟨members, object, _, _, ⟨_, signed, _, named, rfl, rfl⟩, envelope, hexDecode_hex envelope,
      verified, rfl, rfl, rfl⟩

theorem elim_eq_error_iff {γ : Type*} {value : Option γ} {e e' : LedgerError} :
    value.elim (.error e) .ok = (.error e' : Except LedgerError γ) ↔ value = none ∧ e = e' := by
  cases value with
  | none => simp
  | some found => simp

/-- A line that is made no record is refused for its envelope. -/
theorem toRecord_error {id : String} {line : Value} {statement : Bytes} {e : LedgerError}
    (refused : toRecord packages id line statement = .error e) :
    ∃ detail, e = .envelope id detail := by
  simp only [toRecord, bind_eq_error_iff, elim_eq_error_iff, ensure_eq_error_iff, pure_eq_ok,
    reduceCtorEq, and_false, exists_false, or_false] at refused
  rcases refused with ⟨-, rfl⟩ | ⟨_, -, ⟨-, rfl⟩ | ⟨_, -, ⟨-, rfl⟩ | ⟨_, -, ⟨-, rfl⟩ |
    ⟨_, -, ⟨-, rfl⟩ | ⟨_, -, -, rfl⟩⟩⟩⟩⟩ <;> exact ⟨_, rfl⟩

/-- The text of a value determines it. -/
theorem toText_injective : Function.Injective Value.toText := by
  intro left right same
  have read := JsonText.readDocument_write left.tree
  rw [← Value.toText, same, Value.toText, JsonText.readDocument_write] at read
  exact Value.ext (Option.some.inj read).symm

/-- Lines with the same record have the same members. -/
theorem sameMembers_of_record {id id' : String} {line line' : Value}
    {statement statement' : Bytes} {record record' : Record}
    (made : toRecord packages id line statement = .ok record)
    (made' : toRecord packages id' line' statement' = .ok record')
    (sameId : record.capsuleId = record'.capsuleId) (capsule : record.capsule = record'.capsule)
    (envelope : record.producerEnvelope = record'.producerEnvelope) : SameMembers line line' := by
  rcases toRecord_eq_ok_iff.mp made with ⟨signed, enveloped, rfl⟩
  rcases toRecord_eq_ok_iff.mp made' with ⟨signed', enveloped', rfl⟩
  dsimp only at sameId capsule envelope
  subst sameId envelope
  rcases enveloped.object with ⟨members, object⟩
  rcases enveloped'.object with ⟨members', object'⟩
  have left := withEnvelope_bareLine object enveloped.signature enveloped.keyId
  have right := withEnvelope_bareLine object' enveloped'.signature enveloped'.keyId
  rw [← toText_injective capsule] at right
  exact left.symm.trans right

/-! ## Reading a record back -/

section

variable (lawful : packages.Lawful)

include lawful

/-- The decoder of the artifact store on the text of a value. -/
theorem decodeStrictJson_toText (value : Value) :
    ArtifactStore.decodeStrictJson packages.artifacts value.toText =
      if value.tree.nesting ≤ visitLimit then .ok value.tree
      else .error (packages.artifacts.jsonError value.toText) := by
  have read : packages.artifacts.json.ofText value.toText = some value.tree := by
    rw [lawful.text]
    exact JsonText.readDocument_write value.tree
  rw [ArtifactStore.decodeStrictJson, read]
  dsimp only
  rw [ArtifactStore.noDuplicates_eq, value.textual, value.distinct, Bool.true_and, Bool.true_and]
  by_cases shallow : value.tree.nesting ≤ visitLimit
  · have decoded := lawful.ledger.reads value (shallow.trans (by decide))
    rw [if_pos (decide_eq_true shallow), if_pos shallow, lawful.decoder, Value.toText, decoded]
    rfl
  · rw [if_neg (by simpa using shallow), if_neg shallow]

/-- A record is admitted only if the decoder of the ledger follows its Capsule. -/
theorem nesting_of_accepted {trusted : List Bytes} {record prepared : Record} {value : Value}
    (accepted : acceptRecord packages.artifacts trusted record = .ok prepared)
    (capsule : record.capsule = value.toText) : value.tree.nesting ≤ visitLimit := by
  rcases ArtifactStore.acceptRecord_ok accepted with ⟨made, verified, -, -⟩
  rcases succeeds_iff.mp verified with ⟨results, verified⟩
  rcases bind_eq_ok_iff.mp verified with ⟨tree, authentic, -⟩
  rcases bind_eq_ok_iff.mp authentic with ⟨-, -, authentic⟩
  rw [(ArtifactStore.prepare_ok made).2.1, capsule, decodeStrictJson_toText lawful] at authentic
  by_contra deep
  rw [if_neg deep] at authentic
  cases authentic

/-- The decoder follows a line whose record is admitted. -/
theorem nesting_line_of_accepted {trusted : List Bytes} {id : String} {line : Value}
    {statement : Bytes} {record prepared : Record}
    (made : toRecord packages id line statement = .ok record)
    (accepted : acceptRecord packages.artifacts trusted record = .ok prepared) :
    line.tree.nesting ≤ decoderLevels := by
  rcases toRecord_eq_ok_iff.mp made with ⟨envelope, enveloped, rfl⟩
  rcases enveloped.object with ⟨members, object⟩
  rcases bareLine_members object enveloped.signature enveloped.keyId with ⟨bare, tree, perm, -⟩
  have shallow := nesting_of_accepted lawful accepted rfl
  rw [tree, Json.nesting] at shallow
  have values := Json.nestingMembers_le_iff.mp (Nat.le_of_succ_le_succ shallow)
  rw [object, Json.nesting]
  apply (Nat.succ_le_succ (Json.nestingMembers_le_iff.mpr ?_)).trans (by decide : 127 ≤ decoderLevels)
  intro member inside
  rcases List.mem_cons.mp (perm.mem_iff.mp inside) with rfl | inside
  · exact Nat.zero_le _
  · rcases List.mem_cons.mp inside with rfl | inside
    · exact Nat.zero_le _
    · exact values member inside

omit lawful in
/-- The record of a line is stored as it is. -/
theorem prepared_toRecord {trusted : List Bytes} {id : String} {line : Value} {statement : Bytes}
    {record prepared : Record} (made : toRecord packages id line statement = .ok record)
    (accepted : acceptRecord packages.artifacts trusted record = .ok prepared) :
    prepared = record := by
  rcases toRecord_eq_ok_iff.mp made with ⟨envelope, -, rfl⟩
  rcases ArtifactStore.prepare_ok (ArtifactStore.acceptRecord_ok accepted).1 with
    ⟨sameId, capsule, signed, artifacts⟩
  have settled : ArtifactStore.prepareArtifact packages.artifacts
      (statementArtifact packages statement) = .ok (statementArtifact packages statement) := by
    simp [ArtifactStore.prepareArtifact, statementArtifact]
  simp only [List.mapM_cons, List.mapM_nil, settled, ok_bind, pure_eq_ok, Except.ok.injEq]
    at artifacts
  exact ArtifactStore.Record.ext sameId capsule signed artifacts.symm

omit lawful in
theorem SameRecord.eq_of_single {kept record : Record} {a : ArtifactStore.Artifact}
    (same : SameRecord kept record) (single : record.artifacts = [a]) : kept = record := by
  have artifacts := same.artifacts
  rw [single, List.perm_singleton] at artifacts
  exact ArtifactStore.Record.ext same.capsuleId same.capsule same.producerEnvelope
    (artifacts.trans single.symm)

/-- The record of a line reads back as the line. -/
theorem readRecord_toRecord {trusted : List Bytes} {id : String} {line : Value} {statement : Bytes}
    {record prepared : Record} (made : toRecord packages id line statement = .ok record)
    (accepted : acceptRecord packages.artifacts trusted record = .ok prepared) (lineNo : Nat) :
    ∃ read, readRecord packages lineNo id record = .ok (read, some statement) ∧
      SameMembers read line := by
  rcases toRecord_eq_ok_iff.mp made with ⟨envelope, enveloped, rfl⟩
  rcases enveloped.object with ⟨members, object⟩
  rcases bareLine_members object enveloped.signature enveloped.keyId with ⟨bare, tree, -⟩
  have shallow := nesting_of_accepted lawful accepted rfl
  have decoded : packages.ledger.decodeRecord (bareLine line).toText = .ok (bareLine line) :=
    lawful.ledger.reads (bareLine line) (shallow.trans (by decide))
  have attached : [statementArtifact packages statement].find? (fun a =>
      a.name = statementName && a.binding.isEmpty) = some (statementArtifact packages statement) :=
    rfl
  refine ⟨_, ?_, withEnvelope_bareLine object enveloped.signature enveloped.keyId⟩
  rw [readRecord, decoded]
  simp only [Except.mapError, ok_bind, tree, Json.asObject, Option.elim_some, pure_eq_ok, attached,
    Option.bind_some]
  rfl

end

/-! ## Admission of a record -/

/-- The record of a line is within the limits of a store. -/
def Sized (record : Record) (statement : Bytes) : Prop :=
  record.producerEnvelope.length ≤ ArtifactStore.maxEnvelope ∧
    record.capsule.length + record.producerEnvelope.length + statement.length ≤
      ArtifactStore.maxTotal

section

variable {id : String} {capsule envelope statement : Bytes} {trusted : List Bytes}

/-- The record of a line within the limits is stored as it is. -/
theorem prepare_line_iff :
    ArtifactStore.prepare packages.artifacts
        ⟨id, capsule, envelope, [statementArtifact packages statement]⟩ =
        .ok ⟨id, capsule, envelope, [statementArtifact packages statement]⟩ ↔
      Sized ⟨id, capsule, envelope, [statementArtifact packages statement]⟩ statement := by
  have settled : ArtifactStore.prepareArtifact packages.artifacts
      (statementArtifact packages statement) = .ok (statementArtifact packages statement) := by
    simp [ArtifactStore.prepareArtifact, statementArtifact]
  have single : (1 : Nat) ≤ ArtifactStore.maxArtifacts := by decide
  have sum : ([statementArtifact packages statement].map ArtifactStore.contentLength).sum =
      statement.length := by
    simp [ArtifactStore.contentLength, statementArtifact]
  simp only [ArtifactStore.prepare, bind_eq_ok_iff, ensure_eq_ok_iff, Bool.and_eq_true,
    decide_eq_true_eq, List.mapM_cons, List.mapM_nil, settled, ok_bind, pure_eq_ok, sum,
    List.length_singleton, single, true_and, exists_const, Sized, and_true]

/-- A statement of a record needs no check but that of its content. -/
theorem verify_line : succeeds (ArtifactStore.verify packages.artifacts
      ⟨id, capsule, envelope, [statementArtifact packages statement]⟩ trusted) =
    succeeds (ArtifactStore.authenticate packages.artifacts
      ⟨id, capsule, envelope, [statementArtifact packages statement]⟩ trusted) := by
  have name : ArtifactStore.validName statementName = true := by decide
  rw [ArtifactStore.verify]
  cases ArtifactStore.authenticate packages.artifacts
    ⟨id, capsule, envelope, [statementArtifact packages statement]⟩ trusted with
  | error e => rfl
  | ok capsule =>
      simp [ArtifactStore.verifyArtifact, statementArtifact, name, ArtifactStore.committedDigest,
        ArtifactStore.verifyState]

/-- An authentic record of a line is admitted if it is within the limits. -/
theorem acceptRecord_line_iff :
    acceptRecord packages.artifacts trusted
        ⟨id, capsule, envelope, [statementArtifact packages statement]⟩ =
        .ok ⟨id, capsule, envelope, [statementArtifact packages statement]⟩ ↔
      Sized ⟨id, capsule, envelope, [statementArtifact packages statement]⟩ statement ∧
        succeeds (ArtifactStore.authenticate packages.artifacts
          ⟨id, capsule, envelope, [statementArtifact packages statement]⟩ trusted) = true := by
  rw [← prepare_line_iff, ← verify_line, acceptRecord, bind_eq_ok_iff, succeeds_iff]
  constructor
  · rintro ⟨prepared, made, accepted⟩
    rcases bind_eq_ok_iff.mp accepted with ⟨results, verified, same⟩
    cases same
    exact ⟨made, results, verified⟩
  · rintro ⟨made, results, verified⟩
    exact ⟨_, made, by rw [verified]; rfl⟩

end

end RustLedger
end CapsuleEmit
