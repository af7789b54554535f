import CapsuleEmit.ArtifactStore.Wire
import CapsuleEmit.ArtifactStore.Concrete
import CapsuleEmit.Foundation.Utf8

namespace CapsuleEmit
namespace ArtifactStore

/-!
# Lines and records

A line may be another text of the record it carries: with whitespace, with other
escapes, with its members in another order.  A line that has none of these freedoms
is the line of its record.

A line that is refused is refused for its states alone, when it is a record but for
them, or is no record at all.
-/

variable {packages : Packages}

/-! ## Members in order -/

/-- Members whose names are some of the given ones, in order, are found one by one. -/
theorem eq_filterMap_find {names : List Bytes} (nodup : names.Nodup)
    {members : List (Bytes × Json)} (order : (members.map Prod.fst).Sublist names) :
    members = names.filterMap (fun name => members.find? (fun member => member.1 = name)) := by
  induction names generalizing members with
  | nil =>
      rw [List.sublist_nil, List.map_eq_nil_iff] at order
      rw [order]
      rfl
  | cons name names ih =>
      rw [List.nodup_cons] at nodup
      have skip : ∀ {found : List (Bytes × Json)}, (found.map Prod.fst).Sublist names →
          found.find? (fun member => member.1 = name) = none := by
        intro found within
        rw [List.find?_eq_none]
        intro member inside same
        apply nodup.1
        rw [← of_decide_eq_true same]
        exact within.subset (List.mem_map_of_mem inside)
      rw [List.filterMap_cons]
      cases members with
      | nil =>
          have rest : ([] : List (Bytes × Json)) = _ := ih nodup.2 (List.nil_sublist _)
          rw [List.find?_nil]
          exact rest
      | cons member members =>
          rw [List.map_cons] at order
          cases order with
          | cons _ within =>
              have absent := skip (by simpa using within : ((member :: members).map _).Sublist _)
              rw [absent]
              exact ih nodup.2 (by simpa using within)
          | cons_cons _ within =>
              have later : ∀ other ∈ names, (member :: members).find? (fun m => m.1 = other) =
                  members.find? (fun m => m.1 = other) := by
                intro other inside
                apply List.find?_cons_of_neg
                intro same
                exact nodup.1 (of_decide_eq_true same ▸ inside)
              rw [List.find?_cons_of_pos (by simp), List.filterMap_congr later, ← ih nodup.2 within]

/-! ## Lines that are the lines of their records -/

theorem ofString_of_asStr {value : Json} {s : String} (text : value.asStr = some s) :
    value = Json.ofString s := by
  unfold Json.asStr at text
  split at text
  · rw [Json.ofString, Utf8.utf8_of_utf8? text]
  · cases text

/-- An artifact with its members in the declared order and none that could be left out;
the state is a text. -/
structure CanonicalArtifact (tree : Json) (members : List (Bytes × Json)) : Prop where
  tree : tree = .object members
  order : (members.map Prod.fst).Sublist (artifactFields.map utf8)
  binding : (utf8 "binding", Json.ofString "") ∉ members
  contentSha256 : (utf8 "content_sha256", Json.ofString "") ∉ members
  state : ∀ value, (utf8 "state", value) ∈ members → ∃ text, value = Json.string text

/-- A record with its members in the declared order, and its artifacts too. -/
structure CanonicalRecord (tree : Json) (members : List (Bytes × Json)) : Prop where
  tree : tree = .object members
  order : (members.map Prod.fst).Sublist (recordFields.map utf8)
  artifacts : ∀ items, (utf8 "artifacts", Json.array items) ∈ members → ∀ item ∈ items,
    ∃ inner, CanonicalArtifact item inner

/-- Base64 texts that are decoded are those that are written. -/
def OneText (packages : Packages) : Prop :=
  ∀ text bytes, packages.decode64 text = some bytes → packages.encode64 bytes = text

theorem jsonBytes_of_readBytes (oneText : OneText packages) {value : Json} {bytes : Bytes}
    (read : readBytes packages value = some bytes) : value = jsonBytes packages bytes := by
  rcases Option.bind_eq_some_iff.mp read with ⟨text, asText, decoded⟩
  rw [ofString_of_asStr asText, jsonBytes, oneText text bytes decoded]

theorem nodup_artifactFields : (artifactFields.map utf8).Nodup := by decide

theorem nodup_recordFields : (recordFields.map utf8).Nodup := by decide

/-- Members in the declared order are the fields that were found. -/
theorem members_of_fields {names : List String} (nodup : (names.map utf8).Nodup)
    {members : List (Bytes × Json)} (order : (members.map Prod.fst).Sublist (names.map utf8))
    {fields : List (Option Json)} (found : structFields names (.object members) = some fields) :
    members = (names.zipWith (fun name field => field.map (fun value => (utf8 name, value)))
      fields).filterMap id := by
  have listed : fields = names.map (fun name =>
      (members.find? (fun member => member.1 = utf8 name)).map Prod.snd) := by
    simp only [structFields] at found
    split at found
    · exact (Option.some.inj found).symm
    · cases found
  have each : ∀ name : String, ((members.find? (fun member => member.1 = utf8 name)).map
      Prod.snd).map (fun value => (utf8 name, value)) =
        members.find? (fun member => member.1 = utf8 name) := by
    intro name
    cases place : members.find? (fun member => member.1 = utf8 name) with
    | none => rfl
    | some member =>
        have same := List.find?_some place
        rw [decide_eq_true_eq] at same
        rw [Option.map_some, Option.map_some, ← same]
  rw [listed, List.zipWith_map_right, List.zipWith_self, List.filterMap_map]
  simp only [each]
  have ordered := eq_filterMap_find nodup order
  rwa [List.filterMap_map] at ordered

theorem required_eq_some_iff {α : Type} {read : Json → Option α} {field : Option Json} {a : α} :
    required read field = some a ↔ ∃ value, field = some value ∧ read value = some a :=
  Option.bind_eq_some_iff

theorem defaulted_eq_some_iff {α : Type} {read : Json → Option α} {field : Option Json}
    {a other : α} : defaulted other read field = some a ↔
      field = none ∧ other = a ∨ ∃ value, field = some value ∧ read value = some a := by
  cases field with
  | none => simp [defaulted]
  | some value => simp [defaulted]

theorem isEmpty_of_member {members : List (Bytes × Json)} {name s : String}
    (absent : (utf8 name, Json.ofString "") ∉ members)
    (member : (utf8 name, Json.ofString s) ∈ members) : s.isEmpty = false := by
  rw [← Bool.not_eq_true, String.isEmpty_iff]
  rintro rfl
  exact absent member

theorem RetentionState.eq_of_ofJson {text : Bytes} {state : RetentionState}
    (read : RetentionState.ofJson (.string text) = some state) :
    Json.string text = Json.ofString state.asStr := by
  rcases Option.bind_eq_some_iff.mp read with ⟨s, decoded, parsed⟩
  have spelled : s = state.asStr := by
    unfold RetentionState.parse at parsed
    split at parsed
    · next same =>
        cases parsed
        exact same
    · split at parsed
      · next same =>
          cases parsed
          exact same
      · split at parsed
        · next same =>
            cases parsed
            exact same
        · cases parsed
  rw [Json.ofString, ← spelled, Utf8.utf8_of_utf8? decoded]

theorem Artifact.eq_toJson (oneText : OneText packages) {tree : Json}
    {members : List (Bytes × Json)} (canonical : CanonicalArtifact tree members) {a : Artifact}
    (read : Artifact.ofJson packages tree = some a) : tree = a.toJson packages := by
  rcases canonical with ⟨rfl, order, notEmpty, notEmpty', stateText⟩
  unfold Artifact.ofJson at read
  split at read
  · next name binding content state contentSha256 found =>
      have listed := members_of_fields nodup_artifactFields order found
      simp only [Option.bind_eq_bind, Option.bind_eq_some_iff, Option.pure_def,
        Option.some.injEq] at read
      rcases read with ⟨name', readName, binding', readBinding, content', readContent, state',
        readState, sha', readSha, rfl⟩
      rcases required_eq_some_iff.mp readName with ⟨nameValue, rfl, nameText⟩
      rcases required_eq_some_iff.mp readState with ⟨stateValue, rfl, stateRead⟩
      have written : members = [(utf8 "name", nameValue)] ++
          (binding.map (fun value => (utf8 "binding", value))).toList ++
          (content.map (fun value => (utf8 "content", value))).toList ++
          [(utf8 "state", stateValue)] ++
          (contentSha256.map (fun value => (utf8 "content_sha256", value))).toList := by
        rw [listed]
        cases binding <;> cases content <;> cases contentSha256 <;> rfl
      rcases stateText stateValue (by simp [written]) with ⟨text, rfl⟩
      have bindingPart : (binding.map (fun value => (utf8 "binding", value))).toList =
          if binding'.isEmpty then [] else [(utf8 "binding", Json.ofString binding')] := by
        rcases defaulted_eq_some_iff.mp readBinding with ⟨rfl, rfl⟩ | ⟨value, rfl, asText⟩
        · rfl
        · rw [ofString_of_asStr asText] at written ⊢
          rw [isEmpty_of_member notEmpty (by simp [written])]
          rfl
      have shaPart : (contentSha256.map (fun value => (utf8 "content_sha256", value))).toList =
          if sha'.isEmpty then [] else [(utf8 "content_sha256", Json.ofString sha')] := by
        rcases defaulted_eq_some_iff.mp readSha with ⟨rfl, rfl⟩ | ⟨value, rfl, asText⟩
        · rfl
        · rw [ofString_of_asStr asText] at written ⊢
          rw [isEmpty_of_member notEmpty' (by simp [written])]
          rfl
      have contentPart : (content.map (fun value => (utf8 "content", value))).toList =
          (content'.map (fun bytes => (utf8 "content", jsonBytes packages bytes))).toList := by
        rcases defaulted_eq_some_iff.mp readContent with ⟨rfl, rfl⟩ | ⟨value, rfl, asBytes⟩
        · rfl
        · rcases Option.map_eq_some_iff.mp asBytes with ⟨bytes, decoded, rfl⟩
          rw [jsonBytes_of_readBytes oneText decoded]
          rfl
      rw [written, bindingPart, contentPart, shaPart, ofString_of_asStr nameText,
        RetentionState.eq_of_ofJson stateRead, Artifact.toJson]
      cases content' with
      | none => rfl
      | some bytes => rfl
  · cases read

theorem mapM_eq_some_iff {α β : Type} {read : α → Option β} {items : List α} {found : List β} :
    items.mapM read = some found ↔ List.Forall₂ (fun item b => read item = some b) items found := by
  induction items generalizing found with
  | nil =>
      rw [List.mapM_nil, List.forall₂_nil_left_iff]
      exact ⟨fun same => (Option.some.inj same).symm, fun same => congrArg some same.symm⟩
  | cons item items ih =>
      simp only [List.mapM_cons, Option.bind_eq_bind, Option.bind_eq_some_iff, Option.pure_def,
        Option.some.injEq]
      constructor
      · rintro ⟨b, first, rest, others, rfl⟩
        exact .cons first (ih.mp others)
      · intro each
        cases each with
        | cons first rest => exact ⟨_, first, _, ih.mpr rest, rfl⟩

theorem Record.eq_toJson (oneText : OneText packages) {tree : Json}
    {members : List (Bytes × Json)} (canonical : CanonicalRecord tree members) {record : Record}
    (read : Record.ofJson packages tree = some record) : tree = record.toJson packages := by
  rcases canonical with ⟨rfl, order, inner⟩
  unfold Record.ofJson at read
  split at read
  · next capsuleId capsule producerEnvelope artifacts found =>
      have listed := members_of_fields nodup_recordFields order found
      simp only [Option.bind_eq_bind, Option.bind_eq_some_iff, Option.pure_def,
        Option.some.injEq] at read
      rcases read with ⟨id, readId, capsuleBytes, readCapsule, envelopeBytes, readEnvelope, rows,
        readRows, rfl⟩
      rcases required_eq_some_iff.mp readId with ⟨idValue, rfl, idText⟩
      rcases required_eq_some_iff.mp readCapsule with ⟨capsuleValue, rfl, capsuleText⟩
      rcases required_eq_some_iff.mp readEnvelope with ⟨envelopeValue, rfl, envelopeText⟩
      rcases required_eq_some_iff.mp readRows with ⟨rowsValue, rfl, rowsRead⟩
      have written : members = [(utf8 "capsule_id", idValue), (utf8 "capsule", capsuleValue),
          (utf8 "producer_envelope", envelopeValue), (utf8 "artifacts", rowsValue)] := listed
      rcases Option.bind_eq_some_iff.mp rowsRead with ⟨items, asItems, each⟩
      have array : rowsValue = .array items := by
        unfold Json.asArray at asItems
        split at asItems
        · rw [Option.some.inj asItems]
        · cases asItems
      subst array
      have rows' : items = rows.map (Artifact.toJson packages) := by
        have canonical := inner items (by simp [written])
        rw [mapM_eq_some_iff] at each
        clear written listed found rowsRead readRows asItems
        induction each with
        | nil => rfl
        | cons first rest ih =>
            rcases canonical _ List.mem_cons_self with ⟨own, form⟩
            rw [List.map_cons, Artifact.eq_toJson oneText form first,
              ih (fun item member => canonical item (List.mem_cons_of_mem _ member))]
      rw [written, ofString_of_asStr idText, jsonBytes_of_readBytes oneText capsuleText,
        jsonBytes_of_readBytes oneText envelopeText, rows', Record.toJson]
  · cases read

/-- What is written for an artifact is canonical. -/
theorem Artifact.canonical_toJson (a : Artifact) :
    ∃ members, CanonicalArtifact (a.toJson packages) members := by
  rcases a with ⟨name, binding, content, state, sha⟩
  refine ⟨_, rfl, ?_, ?_, ?_, ?_⟩
  · cases content <;> cases binding.isEmpty <;> cases sha.isEmpty <;>
      simp [artifactFields, List.sublist_cons_iff]
  · intro member
    have empty : binding = "" → binding.isEmpty = true := fun same => by rw [same]; rfl
    cases content <;> cases bound : binding.isEmpty <;> cases summed : sha.isEmpty <;>
      simp_all [jsonBytes, Json.ofString]
  · intro member
    have empty : sha = "" → sha.isEmpty = true := fun same => by rw [same]; rfl
    cases content <;> cases bound : binding.isEmpty <;> cases summed : sha.isEmpty <;>
      simp_all [jsonBytes, Json.ofString]
  · intro value member
    cases content <;> cases bound : binding.isEmpty <;> cases summed : sha.isEmpty <;>
      simp_all [jsonBytes, Json.ofString]

theorem Record.canonical_toJson (record : Record) :
    ∃ members, CanonicalRecord (record.toJson packages) members := by
  refine ⟨_, rfl, ?_, ?_⟩
  · simp [recordFields]
  · intro items member item inside
    have same : items = record.artifacts.map (Artifact.toJson packages) := by
      simpa [jsonBytes, Json.ofString] using member
    rw [same] at inside
    rcases List.mem_map.mp inside with ⟨a, -, rfl⟩
    exact a.canonical_toJson

/-! ## Records but for their states -/

/-- The state of an artifact whose state may be any text; an absent one is empty. -/
def looseState (packages : Packages) (tree : Json) : Option String :=
  match structFields artifactFields tree with
  | some [name, binding, content, state, contentSha256] => do
      let _ ← required Json.asStr name
      let _ ← defaulted "" Json.asStr binding
      let _ ← defaulted none (fun value => (readBytes packages value).map some) content
      let state ← defaulted "" Json.asStr state
      let _ ← defaulted "" Json.asStr contentSha256
      return state
  | _ => none

/-- The states of a record whose states may be any texts. -/
def looseStates (packages : Packages) (tree : Json) : Option (List String) :=
  match structFields recordFields tree with
  | some [capsuleId, capsule, producerEnvelope, artifacts] => do
      let _ ← required Json.asStr capsuleId
      let _ ← required (readBytes packages) capsule
      let _ ← required (readBytes packages) producerEnvelope
      required (readList (looseState packages)) artifacts
  | _ => none

theorem anyStateOk_eq (tree : Json) :
    anyStateOk packages tree = (looseState packages tree).map (fun _ => ()) := by
  unfold anyStateOk looseState
  generalize structFields artifactFields tree = fields
  split
  · simp only [Option.bind_eq_bind, Option.map_bind, Function.comp_def, Option.pure_def,
      Option.map_some]
  · next other =>
      first
        | rfl
        | split
          · exact absurd rfl (other _ _ _ _ _)
          · rfl

theorem lenientOk_eq (tree : Json) :
    lenientOk packages tree = (looseStates packages tree).isSome := by
  have rows : ∀ items : List Json, (items.mapM (anyStateOk packages)).isSome =
      (items.mapM (looseState packages)).isSome := by
    intro items
    induction items with
    | nil => rfl
    | cons item items ih =>
        rw [List.mapM_cons, List.mapM_cons, anyStateOk_eq]
        cases looseState packages item with
        | none => rfl
        | some state =>
            revert ih
            cases items.mapM (anyStateOk packages) <;> cases items.mapM (looseState packages) <;>
              simp
  have lists : ∀ field, (required (readList (anyStateOk packages)) field).isSome =
      (required (readList (looseState packages)) field).isSome := by
    intro field
    cases field with
    | none => rfl
    | some value =>
        simp only [required, readList, Option.bind_some]
        cases value.asArray with
        | none => rfl
        | some items => exact rows items
  unfold lenientOk looseStates
  generalize structFields recordFields tree = fields
  split
  · next capsuleId capsule producerEnvelope artifacts =>
      try dsimp only
      rw [lists]
      cases required Json.asStr capsuleId <;> cases required (readBytes packages) capsule <;>
        cases required (readBytes packages) producerEnvelope <;> simp
  · next other =>
      first
        | rfl
        | split
          · exact absurd rfl (other _ _ _ _)
          · rfl

/-- An artifact with a state of any text is one when the text is that of a state. -/
theorem artifact_isSome_iff {tree : Json} {state : String}
    (loose : looseState packages tree = some state) :
    (Artifact.ofJson packages tree).isSome = (RetentionState.parse state).isSome := by
  unfold looseState at loose
  unfold Artifact.ofJson
  split at loose
  · next name binding content stateField contentSha256 found =>
      simp only [Option.bind_eq_bind, Option.bind_eq_some_iff, Option.pure_def,
        Option.some.injEq] at loose
      rcases loose with ⟨name', readName, binding', readBinding, content', readContent, state',
        readState, sha', readSha, rfl⟩
      have states : (required RetentionState.ofJson stateField).isSome =
          (RetentionState.parse state').isSome := by
        rcases defaulted_eq_some_iff.mp readState with ⟨rfl, rfl⟩ | ⟨value, rfl, asText⟩
        · rfl
        · rw [ofString_of_asStr asText]
          simp [required, RetentionState.ofJson, Json.ofString]
      simp only [found, readName, readBinding, readContent, readSha]
      rw [← states]
      cases required RetentionState.ofJson stateField <;> rfl
  · cases loose

theorem record_isSome_iff {tree : Json} {states : List String}
    (loose : looseStates packages tree = some states) :
    (Record.ofJson packages tree).isSome = true ↔
      ∀ state ∈ states, (RetentionState.parse state).isSome = true := by
  have rows : ∀ {items : List Json} {states : List String},
      items.mapM (looseState packages) = some states →
        ((items.mapM (Artifact.ofJson packages)).isSome = true ↔
          ∀ state ∈ states, (RetentionState.parse state).isSome = true) := by
    intro items states each
    rw [mapM_eq_some_iff] at each
    induction each with
    | nil => simp
    | cons first rest ih =>
        rw [List.mapM_cons, List.forall_mem_cons, ← ih, ← artifact_isSome_iff first]
        cases Artifact.ofJson packages _ with
        | none => simp
        | some a => cases List.mapM (Artifact.ofJson packages) _ <;> simp
  unfold looseStates at loose
  unfold Record.ofJson
  split at loose
  · next capsuleId capsule producerEnvelope artifacts found =>
      simp only [Option.bind_eq_bind, Option.bind_eq_some_iff] at loose
      rcases loose with ⟨id, readId, capsuleBytes, readCapsule, envelopeBytes, readEnvelope,
        readRows⟩
      rcases required_eq_some_iff.mp readRows with ⟨value, rfl, rowsRead⟩
      rcases Option.bind_eq_some_iff.mp rowsRead with ⟨items, asItems, each⟩
      have read : required (readList (Artifact.ofJson packages)) (some value) =
          items.mapM (Artifact.ofJson packages) := by
        rw [required, Option.bind_some, readList, asItems, Option.bind_some]
      rw [← rows each]
      simp only [found, readId, readCapsule, readEnvelope, read]
      cases items.mapM (Artifact.ofJson packages) <;> simp
  · cases loose

/-! ## The codec -/

/-- The tree of a line is a record, if its states may be any texts. -/
def IsRecord (packages : Packages) (tree : Json) : Prop :=
  (Record.ofJson packages tree).isSome = true ∨ (looseStates packages tree).isSome = true

theorem decodeRecord_eq_ok_iff {line : Bytes} {record : Record} :
    decodeRecord packages line = .ok record ↔
      ∃ tree, packages.json.ofText line = some tree ∧
        Record.ofJson packages tree = some record := by
  unfold decodeRecord
  cases packages.json.ofText line with
  | none => simp
  | some tree =>
      simp only [Option.some.injEq, exists_eq_left']
      cases Record.ofJson packages tree with
      | none =>
          simp only [reduceCtorEq, iff_false]
          split <;> simp
      | some found => simp

theorem decodeRecord_invalid_iff {line : Bytes} :
    (∃ message, decodeRecord packages line = .error (.invalid message)) ↔
      ∃ tree states, packages.json.ofText line = some tree ∧
        looseStates packages tree = some states ∧
          ∃ state ∈ states, RetentionState.parse state = none := by
  unfold decodeRecord
  cases packages.json.ofText line with
  | none => simp
  | some tree =>
      simp only [lenientOk_eq, Option.some.injEq, exists_and_left, exists_eq_left']
      cases loose : looseStates packages tree with
      | none =>
          cases Record.ofJson packages tree <;> simp
      | some states =>
          have known := record_isSome_iff loose
          cases read : Record.ofJson packages tree with
          | none =>
              rw [read] at known
              simpa using known
          | some record =>
              rw [read] at known
              simp only [Option.isSome_some, true_iff] at known
              simp only [reduceCtorEq, exists_false, Option.some.injEq, exists_eq_left', false_iff,
                not_exists, not_and]
              intro state member unknown
              have some := known state member
              rw [unknown] at some
              cases some

theorem decodeRecord_corrupt_iff {line : Bytes} :
    (∃ message, decodeRecord packages line = .error (.corrupt message)) ↔
      ¬ ∃ tree, packages.json.ofText line = some tree ∧ IsRecord packages tree := by
  unfold decodeRecord IsRecord
  cases packages.json.ofText line with
  | none => simp
  | some tree =>
      simp only [lenientOk_eq, Option.some.injEq, exists_eq_left']
      cases looseStates packages tree with
      | none => cases Record.ofJson packages tree <;> simp
      | some states => cases Record.ofJson packages tree <;> simp

/-- A record reads back from its one line; a compact line whose members are in order is the
line of its record; and a line is refused for its states alone, or is no record. -/
theorem wire_codec (lawful : packages.Lawful) (oneText : OneText packages) :
    (∀ record, decodeRecord packages (encodeRecord packages record) = .ok record ∧
      newline ∉ encodeRecord packages record) ∧
    (∀ line tree members record, packages.json.ofText line = some tree →
      line = packages.json.toText tree → CanonicalRecord tree members →
        decodeRecord packages line = .ok record → encodeRecord packages record = line) ∧
    ∀ line, ((∃ message, decodeRecord packages line = .error (.invalid message)) ↔
        ∃ tree states, packages.json.ofText line = some tree ∧
          looseStates packages tree = some states ∧
            ∃ state ∈ states, RetentionState.parse state = none) ∧
      ((∃ message, decodeRecord packages line = .error (.corrupt message)) ↔
        ¬ ∃ tree, packages.json.ofText line = some tree ∧ IsRecord packages tree) := by
  refine ⟨fun record => ⟨decodeRecord_encodeRecord lawful record, lawful.json.newline_free _⟩, ?_,
    fun line => ⟨decodeRecord_invalid_iff, decodeRecord_corrupt_iff⟩⟩
  intro line tree members record read compact canonical decoded
  rcases decodeRecord_eq_ok_iff.mp decoded with ⟨other, again, found⟩
  rw [read] at again
  cases again
  rw [encodeRecord, ← Record.eq_toJson oneText canonical found, compact]

theorem concretePackages_oneText (class1 : Json → Class1) (signed : List SignedEnvelope) :
    OneText (concretePackages class1 signed) :=
  fun _ _ decoded => Base64.encode_decode decoded

/-- A record with an original and an empty Capsule. -/
def sparseRecord : Record := ⟨"x", [], [1], [⟨"n", "", some [], .purged, ""⟩]⟩

/-- Its tree, with the state given. -/
def sparseTree (state : String) : Json := .object [
  (utf8 "capsule_id", Json.ofString "x"), (utf8 "capsule", Json.ofString ""),
  (utf8 "producer_envelope", Json.ofString "AQ=="), (utf8 "artifacts", .array [.object [
    (utf8 "name", Json.ofString "n"), (utf8 "content", Json.ofString ""),
    (utf8 "state", Json.ofString state)]])]

def sparseLine (state : String) : Bytes := paddingPackages.json.toText (sparseTree state)

theorem ofText_sparseLine (state : String) :
    paddingPackages.json.ofText (sparseLine state) = some (sparseTree state) :=
  paddingPackages_lawful.json.ofText_toText _ (by simp [depthLimit, sparseTree])

theorem sparseTree_purged : sparseTree "purged" = sparseRecord.toJson paddingPackages := by rfl

theorem wire_codec_sparse : encodeRecord paddingPackages sparseRecord = sparseLine "purged" ∧
    ∃ message, decodeRecord paddingPackages (sparseLine "gone") = .error (.invalid message) := by
  have codec := wire_codec paddingPackages_lawful (concretePackages_oneText _ _)
  rcases sparseRecord.canonical_toJson with ⟨members, canonical⟩
  refine ⟨codec.2.1 _ (sparseTree "purged") members sparseRecord (ofText_sparseLine "purged") rfl
    (sparseTree_purged ▸ canonical) ?_, ?_⟩
  · rw [sparseLine, sparseTree_purged]
    exact (codec.1 sparseRecord).1
  · exact (codec.2.2 (sparseLine "gone")).1.mpr
      ⟨_, ["gone"], ofText_sparseLine "gone", by rfl, "gone", List.mem_cons_self, rfl⟩

def emptyRecord : Record := ⟨"", [], [], []⟩

/-- The line of a record with nothing in it, but for a space before its end. -/
def spacedLine : Bytes := utf8
  "\x7b\"capsule_id\":\"\",\"capsule\":\"\",\"producer_envelope\":\"\",\"artifacts\":[] \x7d"

set_option maxRecDepth 4000 in
/-- A line with a space carries the record, with its members in order, and is not its line. -/
theorem spaced_line :
    paddingPackages.json.ofText spacedLine = some (emptyRecord.toJson paddingPackages) ∧
      (∃ members, CanonicalRecord (emptyRecord.toJson paddingPackages) members) ∧
      decodeRecord paddingPackages spacedLine = .ok emptyRecord ∧
      encodeRecord paddingPackages emptyRecord ≠ spacedLine := by
  have read : paddingPackages.json.ofText spacedLine =
      some (emptyRecord.toJson paddingPackages) := by rfl
  refine ⟨read, emptyRecord.canonical_toJson, ?_, ?_⟩
  · exact decodeRecord_eq_ok_iff.mpr ⟨_, read, Record.ofJson_toJson paddingPackages_lawful _⟩
  · intro same
    have lengths := congrArg List.length same
    have shorter : (encodeRecord paddingPackages emptyRecord).length = 68 := by rfl
    rw [shorter] at lengths
    revert lengths
    decide

end ArtifactStore
end CapsuleEmit
