import CapsuleEmit.Disclose.Build
import CapsuleEmit.Disclose.Soundness

namespace CapsuleEmit
namespace Disclose

open Python

/-!
# What a disclosure of everything has

Each selected record has an envelope, and the envelope has exactly the fields
the record commits a digest for that are not suppressed.  Each value recomputes
to its digest, `null` among them, wherever it came from.

The records of a disclosure have different ids, for a record proof is of the one
record of its id; so what is read of the store under an id is read once.
-/

/-! ## What other packages promise -/

/-- Whether an entry is a leaf of the log. -/
def isLeaf (entry : Value) : Bool :=
  match entry.get "kind" with
  | .ok kind => !nonCapsuleKinds.any (fun name => (Value.str name).eq kind)
  | .error _ => false

/-- A record proof is of the one leaf of its id, an envelope is built where every value matches
the digest its capsule commits, and a digest is no empty text. -/
structure Builders.Lawful (packages : Packages) (builders : Builders) : Prop where
  bundles : ∀ {entries cid proof}, builders.bundle entries cid = .ok proof →
    (entries.filter (fun entry => isLeaf entry && hasId cid entry)).length = 1
  builds : ∀ {capsule disclosures envelope}, builders.build capsule disclosures = .ok envelope →
    envelope = envelopeOf capsule disclosures ∧ ∀ entry ∈ disclosures, ∃ digest,
      packages.jsonDigest entry.2 = .ok digest ∧ Commits capsule entry.1 digest
  digests : ∀ {value digest}, packages.jsonDigest value = .ok digest → digest ≠ ""

/-! ## What is expected -/

/-- A record commits a digest for an eligible field. -/
def CommitsTo (record : Value) (field : String) : Prop :=
  ∃ stored, (computeAttestation record).bind (fun attestation => committed attestation field) =
    .ok stored ∧ stored.truthy = true

/-- An envelope has exactly the committed fields that are not suppressed, each of them once, with
values that recompute to their digests. -/
def Shows (packages : Packages) (suppress : List String) (record envelope : Value) : Prop :=
  ∃ disclosures, envelope = envelopeOf record disclosures ∧
    (disclosures.map Prod.fst).Nodup ∧
    (∀ field, field ∈ disclosures.map Prod.fst ↔ CommitsTo record field ∧ field ∉ suppress) ∧
    ∀ entry ∈ disclosures, ∃ digest, packages.jsonDigest entry.2 = .ok digest ∧
      Commits record entry.1 digest

variable {packages : Packages} {builders : Builders}

/-! ## Envelopes -/

theorem computeAttestation_bind {record attestation : Value} {field : String}
    (found : computeAttestation record = .ok attestation) :
    (computeAttestation record).bind (fun attestation => committed attestation field) =
      committed attestation field := by
  rw [found]
  rfl

/-- What is put in an envelope in place of the fields that are `null`. -/
theorem addNulls_spec {cid : String} {record attestation envelope : Value}
    {fields disclosures : List (String × Value)} {eligible : List (String × String)}
    (ok : addNulls packages cid attestation fields eligible (envelopeOf record disclosures) =
      .ok envelope) (once : (disclosures.map Prod.fst).Nodup) :
    ∃ shown, envelope = envelopeOf record shown ∧ (shown.map Prod.fst).Nodup ∧
      (∀ field, field ∈ shown.map Prod.fst ↔ field ∈ disclosures.map Prod.fst ∨
        field ∈ eligible.map Prod.fst ∧ (fields.lookup field).any isNone = true) ∧
      ∀ entry ∈ shown, entry ∈ disclosures ∨ entry.2 = .none ∧
        ∃ digestField, (entry.1, digestField) ∈ eligible ∧ ∃ digest,
          packages.jsonDigest .none = .ok digest ∧
            attestation.get digestField = .ok (.str digest) := by
  induction eligible generalizing disclosures with
  | nil =>
      cases ok
      exact ⟨disclosures, rfl, once, by simp, fun entry inside => Or.inl inside⟩
  | cons first eligible ih =>
      rcases first with ⟨name, digestField⟩
      rw [addNulls] at ok
      by_cases null : (fields.lookup name).any isNone = true
      · rw [if_pos null] at ok
        rcases bind_eq_ok_iff.mp ok with ⟨stored, held, ok⟩
        rcases bind_eq_ok_iff.mp ok with ⟨digest, computed, ok⟩
        rcases bind_eq_ok_iff.mp ok with ⟨done, same, ok⟩
        rcases bind_eq_ok_iff.mp ok with ⟨next, put, ok⟩
        rw [orRaised, mapError_eq_ok_iff] at held put
        rw [nullDigest, mapError_eq_ok_iff] at computed
        rw [ensure_eq_ok_iff] at same
        have placed : next = envelopeOf record (OrderedMap.insert name .none disclosures) := by
          cases put
          rfl
        rw [placed] at ok
        rcases ih ok (OrderedMap.nodup_insert once) with ⟨shown, built, distinct, keys, each⟩
        refine ⟨shown, built, distinct, fun field => ?_, fun entry inside => ?_⟩
        · rw [keys, OrderedMap.keys_insert, List.map_cons, List.mem_cons]
          by_cases equal : field = name
          · rw [equal]
            have there : name ∈ if name ∈ disclosures.map Prod.fst then disclosures.map Prod.fst
                else disclosures.map Prod.fst ++ [name] := by
              split
              · next inside => exact inside
              · exact List.mem_append_right _ (List.mem_singleton_self _)
            exact ⟨fun _ => Or.inr ⟨Or.inl rfl, null⟩, fun _ => Or.inl there⟩
          · have same : (field ∈ if name ∈ disclosures.map Prod.fst then disclosures.map Prod.fst
                else disclosures.map Prod.fst ++ [name]) ↔ field ∈ disclosures.map Prod.fst := by
              split
              · exact Iff.rfl
              · rw [List.mem_append, List.mem_singleton, or_iff_left equal]
            rw [same]
            simp only [equal, false_or]
        · rcases each entry inside with old | ⟨isNull, other, inEligible, rest⟩
          · rcases OrderedMap.mem_insert old with old | rfl
            · exact Or.inl old
            · rw [eq_str same] at held
              exact Or.inr ⟨rfl, digestField, List.mem_cons_self, digest, computed, held⟩
          · exact Or.inr ⟨isNull, other, List.mem_cons_of_mem _ inEligible, rest⟩
      · rw [if_neg null] at ok
        rcases ih ok once with ⟨shown, built, distinct, keys, each⟩
        refine ⟨shown, built, distinct, fun field => ?_, fun entry inside => ?_⟩
        · rw [keys, List.map_cons, List.mem_cons]
          by_cases equal : field = name
          · rw [equal]
            simp only [null, Bool.false_eq_true, and_false]
          · simp only [equal, false_or]
        · rcases each entry inside with old | ⟨isNull, other, inEligible, rest⟩
          · exact Or.inl old
          · exact Or.inr ⟨isNull, other, List.mem_cons_of_mem _ inEligible, rest⟩

theorem lookup_eligible {field digestField : String}
    (inside : (field, digestField) ∈ disclosureEligibleFields) :
    Value.lookup field disclosureEligibleFields = some digestField := by
  rw [disclosureEligibleFields, List.mem_cons, List.mem_singleton, Prod.mk.injEq,
    Prod.mk.injEq] at inside
  rcases inside with ⟨rfl, rfl⟩ | ⟨rfl, rfl⟩ <;> rfl

/-- A committed digest is under an eligible field. -/
theorem commitsTo_iff {record attestation : Value} {field : String}
    (found : computeAttestation record = .ok attestation) : CommitsTo record field ↔
      ∃ digestField, (field, digestField) ∈ disclosureEligibleFields ∧
        ∃ stored, attestation.get digestField = .ok stored ∧ stored.truthy = true := by
  rw [CommitsTo, computeAttestation_bind found]
  constructor
  · rintro ⟨stored, held, true_⟩
    unfold committed at held
    split at held
    · cases held
      cases true_
    · next digestField named =>
        rw [Value.lookup, Option.map_eq_some_iff] at named
        rcases named with ⟨entry, there, rfl⟩
        have own := List.find?_some there
        rw [decide_eq_true_eq] at own
        exact ⟨entry.2, own ▸ List.mem_of_find?_eq_some there, stored, held, true_⟩
  · rintro ⟨digestField, inside, stored, held, true_⟩
    refine ⟨stored, ?_, true_⟩
    rw [committed, lookup_eligible inside]
    exact held

theorem commitsTo_of_commits (lawful : builders.Lawful packages) {record value : Value}
    {field digest : String} (computed : packages.jsonDigest value = .ok digest)
    (commits : Commits record field digest) : CommitsTo record field := by
  refine ⟨.str digest, commits, ?_⟩
  simpa [Value.truthy] using lawful.digests computed

theorem mem_commitments_iff {attestation : Value} {fields : List (String × String)}
    {stored : List (String × Bool)} (ok : commitments attestation fields = .ok stored)
    {field : String} : (field, true) ∈ stored ↔ ∃ digestField, (field, digestField) ∈ fields ∧
      ∃ held, attestation.get digestField = .ok held ∧ held.truthy = true := by
  have each := forall₂_of_mapM ok
  constructor
  · intro inside
    rcases exists_of_forall₂ each inside with ⟨entry, there, read⟩
    rcases map_eq_ok_iff.mp read with ⟨held, got, same⟩
    rw [Prod.mk.injEq] at same
    exact ⟨entry.2, by rw [← same.1]; exact there, held, got, same.2⟩
  · rintro ⟨digestField, there, held, got, true_⟩
    rcases exists_of_forall₂ each.flip there with ⟨entry, inside, read⟩
    rw [got] at read
    cases read
    dsimp only at inside
    rwa [true_] at inside

/-- A committed field that is neither supplied nor suppressed is missing. -/
theorem mem_missingOf {supplied : List (String × Value)} {suppress missing : List String}
    {record : Value} (ok : missingOf supplied suppress record = .ok missing) {field : String}
    (commits : CommitsTo record field) (shown : field ∉ suppress)
    (absent : supplied.lookup field = none) : field ∈ missing := by
  rcases bind_eq_ok_iff.mp ok with ⟨attestation, found, ok⟩
  rcases bind_eq_ok_iff.mp ok with ⟨stored, read, same⟩
  cases same
  rcases (commitsTo_iff found).mp commits with ⟨digestField, inside, held⟩
  have listed : (field, true) ∈ stored := by
    refine (mem_commitments_iff read).mpr ⟨digestField, List.mem_filter.mpr ⟨inside, ?_⟩, held⟩
    simpa using shown
  refine List.mem_map.mpr ⟨(field, true), List.mem_filter.mpr ⟨listed, ?_⟩, rfl⟩
  rw [absent]
  rfl

/-- The store is asked for committed fields that are neither supplied nor suppressed. -/
theorem of_mem_neededOf {supplied : List (String × Value)} {suppress needed : List String}
    {record : Value} (ok : neededOf supplied suppress record = .ok needed) {field : String}
    (inside : field ∈ needed) :
    CommitsTo record field ∧ field ∉ suppress ∧ supplied.lookup field = none := by
  rcases bind_eq_ok_iff.mp ok with ⟨attestation, found, ok⟩
  rcases bind_eq_ok_iff.mp ok with ⟨stored, read, same⟩
  cases same
  rcases List.mem_map.mp inside with ⟨⟨name, isStored⟩, kept, rfl⟩
  rw [List.mem_filter, Bool.and_eq_true, Bool.and_eq_true, Bool.not_eq_true',
    Option.isNone_iff_eq_none] at kept
  rcases kept with ⟨listed, ⟨true_, absent⟩, shown⟩
  dsimp only at true_ absent shown
  rw [true_] at listed
  exact ⟨(commitsTo_iff found).mpr ((mem_commitments_iff read).mp listed),
    by simpa using shown, absent⟩

theorem keys_filterMap {value : String → Option Value} (names : List String) :
    (names.filterMap (fun name => (value name).map (name, ·))).map Prod.fst =
      names.filter (fun name => (value name).isSome) := by
  induction names with
  | nil => rfl
  | cons name names ih =>
      rw [List.filterMap_cons, List.filter_cons]
      cases value name with
      | none => exact ih
      | some found => exact congrArg (name :: ·) ih

/-- The envelope of a record where nothing is missing. -/
theorem recordEnvelope_shows (lawful : builders.Lawful packages) {supplied : List (String × Value)}
    {suppress : List String} {cid : String} {record envelope : Value}
    (ok : recordEnvelope packages builders supplied suppress cid record = .ok envelope)
    (full : missingOf supplied suppress record = .ok []) :
    Shows packages suppress record envelope := by
  rcases bind_eq_ok_iff.mp ok with ⟨first, built, ok⟩
  rcases bind_eq_ok_iff.mp ok with ⟨attestation, found, ok⟩
  rw [orRaised, mapError_eq_ok_iff] at found
  rw [buildDisclosureEnvelope, if_neg (by decide)] at built
  generalize kept : supplied.filter (fun field => !suppress.contains field.1) = fields at built ok
  have lookup : ∀ field, fields.lookup field =
      if field ∈ suppress then none else supplied.lookup field := by
    intro field
    rw [← kept]
    split
    · next hidden =>
        rw [OrderedMap.lookup_eq_none_iff, List.mem_map]
        rintro ⟨entry, inside, rfl⟩
        have shown := (List.mem_filter.mp inside).2
        simp [hidden] at shown
    · next shown =>
        exact @OrderedMap.lookup_filter _ _ _ (fun name => !suppress.contains name) field
          (by simpa using shown) _
  have lawfulBuild : builders.build record (["agent_input", "agent_output"].filterMap
      (fun member => ((fields.lookup member).filter (fun value => !isNone value)).map
        (member, ·))) = .ok first := by
    split at built
    · next accepted =>
        cases built
        exact accepted
    · cases built
    · split at built <;> cases built
  rcases lawful.builds lawfulBuild with ⟨rfl, matched⟩
  have keys₀ := @keys_filterMap (fun member =>
    (fields.lookup member).filter (fun value => !isNone value)) ["agent_input", "agent_output"]
  rcases addNulls_spec ok (by rw [keys₀]; exact List.Nodup.filter _ (by decide)) with
    ⟨shown, rfl, once, keys, each⟩
  have recomputes : ∀ entry ∈ shown, ∃ digest, packages.jsonDigest entry.2 = .ok digest ∧
      Commits record entry.1 digest := by
    intro entry inside
    rcases each entry inside with old | ⟨isNull, digestField, eligible, digest, computed, held⟩
    · exact matched entry old
    · refine ⟨digest, by rw [isNull]; exact computed, ?_⟩
      rw [Commits, computeAttestation_bind found, committed, lookup_eligible eligible]
      exact held
  have present : ∀ field, field ∈ shown.map Prod.fst ↔
      field ∈ eligibleFields ∧ (fields.lookup field).isSome = true := by
    intro field
    rw [keys, keys₀, List.mem_filter]
    change field ∈ eligibleFields ∧ _ ∨ field ∈ eligibleFields ∧ _ ↔ _
    rw [← and_or_left]
    apply and_congr_right
    intro _
    cases fields.lookup field with
    | none => simp
    | some value => cases there : isNone value <;> simp [there]
  refine ⟨shown, rfl, once, fun field => ?_, recomputes⟩
  constructor
  · intro inside
    rcases List.mem_map.mp inside with ⟨entry, there, rfl⟩
    rcases recomputes entry there with ⟨digest, computed, commits⟩
    refine ⟨commitsTo_of_commits lawful computed commits, fun hidden => ?_⟩
    have isSome := ((present entry.1).mp inside).2
    rw [lookup, if_pos hidden] at isSome
    cases isSome
  · rintro ⟨commits, visible⟩
    rcases (commitsTo_iff found).mp commits with ⟨digestField, eligible, -⟩
    refine (present field).mpr ⟨List.mem_map.mpr ⟨_, eligible, rfl⟩, ?_⟩
    rw [lookup, if_neg visible]
    cases there : supplied.lookup field with
    | none => exact absurd (mem_missingOf full commits visible there) List.not_mem_nil
    | some value => rfl

/-! ## What the store could not supply -/

section

variable {α : Type} {cid other field : String} {byId : List (String × List (String × α))}

theorem entriesOf_insert {fields : List (String × α)} :
    entriesOf cid (OrderedMap.insert cid fields byId) = fields := by
  rw [entriesOf, OrderedMap.lookup_insert, if_pos rfl]
  rfl

theorem entriesOf_insert_of_ne {fields : List (String × α)} (apart : other ≠ cid) :
    entriesOf other (OrderedMap.insert cid fields byId) = entriesOf other byId := by
  rw [entriesOf, OrderedMap.lookup_insert, if_neg apart]
  rfl

theorem entriesOf_setField {value : α} : entriesOf cid (setField cid field value byId) =
    OrderedMap.insert field value (entriesOf cid byId) := entriesOf_insert

theorem entriesOf_setField_of_ne {value : α} (apart : other ≠ cid) :
    entriesOf other (setField cid field value byId) = entriesOf other byId :=
  entriesOf_insert_of_ne apart

end

/-- What was read under another id stays. -/
def Untouched (cid : String) (so so' : Originals) : Prop :=
  ∀ other ≠ cid, entriesOf other so'.originals = entriesOf other so.originals ∧
    so'.states.lookup other = so.states.lookup other

/-- The artifact of a field is present. -/
def Available (found : List (String × StoredArtifact)) (field : String) : Prop :=
  ∃ a, found.lookup field = some a ∧ a.state = present

/-- Some fields of a record: what is read is present in the store, and a state is of one that is
not. -/
theorem readFields_spec {cid : String} {found : List (String × StoredArtifact)}
    {fields : List String} {so so' : Originals}
    (ok : readFields builders cid found fields so = .ok so') :
    Untouched cid so so' ∧
      (∀ field, (entriesOf cid so'.originals).lookup field ≠ none →
        (entriesOf cid so.originals).lookup field ≠ none ∨ Available found field) ∧
      (so'.states.lookup cid ≠ none →
        so.states.lookup cid ≠ none ∨ ∃ field ∈ fields, ¬Available found field) := by
  induction fields generalizing so with
  | nil =>
      cases ok
      exact ⟨fun _ _ => ⟨rfl, rfl⟩, fun _ there => Or.inl there, Or.inl⟩
  | cons field fields ih =>
      have missed : ∀ {state : String}, ¬Available found field →
          readFields builders cid found fields { so with
            states := setField cid field state so.states } = .ok so' →
          Untouched cid so so' ∧
            (∀ field, (entriesOf cid so'.originals).lookup field ≠ none →
              (entriesOf cid so.originals).lookup field ≠ none ∨ Available found field) ∧
            (so'.states.lookup cid ≠ none →
              so.states.lookup cid ≠ none ∨ ∃ other ∈ field :: fields, ¬Available found other) := by
        intro state gone rest
        rcases ih rest with ⟨same, read, -⟩
        refine ⟨fun other apart => ⟨(same other apart).1, ?_⟩, read, fun _ => ?_⟩
        · rw [(same other apart).2]
          dsimp only
          rw [setField, OrderedMap.lookup_insert, if_neg apart]
        · exact Or.inr ⟨field, List.mem_cons_self, gone⟩
      unfold readFields at ok
      split at ok
      · next absent =>
          refine missed ?_ ok
          rintro ⟨a, there, -⟩
          rw [absent] at there
          cases there
      · next a there =>
          split at ok
          · next gone =>
              refine missed ?_ ok
              rintro ⟨other, same, isPresent⟩
              rw [there] at same
              cases same
              exact gone isPresent
          · next here =>
              rw [not_not] at here
              rcases bind_eq_ok_iff.mp ok with ⟨value, -, rest⟩
              rcases ih rest with ⟨same, read, states⟩
              refine ⟨fun other apart => ⟨(same other apart).1.trans
                (entriesOf_setField_of_ne apart), (same other apart).2⟩,
                fun name known => ?_, fun stated => ?_⟩
              · rcases read name known with before | available
                · dsimp only at before
                  rw [entriesOf_setField, OrderedMap.lookup_insert] at before
                  split at before
                  · next equal => exact Or.inr ⟨a, by rw [equal]; exact there, here⟩
                  · exact Or.inl before
                · exact Or.inr available
              · rcases states stated with before | ⟨name, inside, gone⟩
                · exact Or.inl before
                · exact Or.inr ⟨name, List.mem_cons_of_mem _ inside, gone⟩

/-- One record that has not been read: what has a state is a field the store was asked for and
has no original of. -/
theorem readRecord_spec {get : String → Except StoreError (List StoredArtifact)}
    {supplied : List (String × Value)} {suppress : List String} {cid : String} {record : Value}
    {so so' : Originals}
    (ok : readRecord builders get supplied suppress cid record so = .ok so') :
    Untouched cid so so' ∧ (entriesOf cid so.originals = [] → so.states.lookup cid = none →
      so'.states.lookup cid ≠ none → ∃ needed, neededOf supplied suppress record = .ok needed ∧
        ∃ field ∈ needed, (entriesOf cid so'.originals).lookup field = none) := by
  rcases bind_eq_ok_iff.mp ok with ⟨needed, asked, ok⟩
  rw [orRaised, mapError_eq_ok_iff] at asked
  split at ok
  · cases ok
    exact ⟨fun _ _ => ⟨rfl, rfl⟩, fun _ absent stated => absurd absent stated⟩
  · next some_ =>
      split at ok
      · cases ok
        refine ⟨fun other apart => ⟨rfl, ?_⟩, fun empty _ _ => ⟨needed, asked, ?_⟩⟩
        · dsimp only
          rw [OrderedMap.lookup_insert, if_neg apart]
        · cases needed with
          | nil => exact absurd rfl some_
          | cons field needed =>
              refine ⟨field, List.mem_cons_self, ?_⟩
              dsimp only
              rw [empty, List.lookup_nil]
      · cases ok
      · cases ok
      · rcases readFields_spec ok with ⟨same, read, states⟩
        refine ⟨same, fun empty absent stated => ⟨needed, asked, ?_⟩⟩
        rcases states stated with before | ⟨field, inside, gone⟩
        · exact absurd absent before
        · refine ⟨field, inside, ?_⟩
          by_contra known
          rcases read field known with before | available
          · rw [empty] at before
            exact before rfl
          · exact gone available

/-- Records with different ids, none of which has been read. -/
theorem readRecords_spec {get : String → Except StoreError (List StoredArtifact)}
    {reveal : List (String × List (String × Value))} {suppress : List String}
    {records : List Value} {ids : List String} {so so' : Originals}
    (named : List.Forall₂ (fun record id => idOf record = .ok id) records ids)
    (distinct : ids.Nodup)
    (fresh : ∀ id ∈ ids, entriesOf id so.originals = [] ∧ so.states.lookup id = none)
    (ok : readRecords builders get reveal suppress records so = .ok so') :
    (∀ other ∉ ids, entriesOf other so'.originals = entriesOf other so.originals ∧
      so'.states.lookup other = so.states.lookup other) ∧
    ∀ id ∈ ids, so'.states.lookup id ≠ none → ∃ record ∈ records, idOf record = .ok id ∧
      ∃ needed, neededOf (entriesOf id reveal) suppress record = .ok needed ∧
        ∃ field ∈ needed, (entriesOf id so'.originals).lookup field = none := by
  induction named generalizing so with
  | nil =>
      cases ok
      exact ⟨fun _ _ => ⟨rfl, rfl⟩, nofun⟩
  | @cons record id records ids own named ih =>
      rcases bind_eq_ok_iff.mp ok with ⟨cid, same, ok⟩
      rw [own, Except.ok.injEq] at same
      subst same
      rcases bind_eq_ok_iff.mp ok with ⟨middle, first, rest⟩
      rw [List.nodup_cons] at distinct
      rcases readRecord_spec first with ⟨untouched, states⟩
      have later : ∀ other ∈ ids, entriesOf other middle.originals = [] ∧
          middle.states.lookup other = none := by
        intro other inside
        have apart : other ≠ id := fun equal => distinct.1 (equal ▸ inside)
        rw [(untouched other apart).1, (untouched other apart).2]
        exact fresh other (List.mem_cons_of_mem _ inside)
      rcases ih distinct.2 later rest with ⟨others, each⟩
      refine ⟨fun other outside => ?_, fun name inside stated => ?_⟩
      · rw [List.mem_cons, not_or] at outside
        rw [(others other outside.2).1, (others other outside.2).2]
        exact untouched other outside.1
      · rcases List.mem_cons.mp inside with rfl | inside
        · rw [(others name distinct.1).2] at stated
          rw [(others name distinct.1).1]
          have before := fresh name List.mem_cons_self
          exact ⟨record, List.mem_cons_self, own, states before.1 before.2 stated⟩
        · rcases each name inside stated with ⟨other, member, rest⟩
          exact ⟨other, List.mem_cons_of_mem _ member, rest⟩

theorem readFields_distinct {cid : String} {found : List (String × StoredArtifact)}
    {fields : List String} {so so' : Originals}
    (ok : readFields builders cid found fields so = .ok so')
    (once : (so.originals.map Prod.fst).Nodup) : (so'.originals.map Prod.fst).Nodup := by
  induction fields generalizing so with
  | nil =>
      cases ok
      exact once
  | cons field fields ih =>
      unfold readFields at ok
      split at ok
      · exact ih ok once
      · split at ok
        · exact ih ok once
        · rcases bind_eq_ok_iff.mp ok with ⟨value, -, rest⟩
          exact ih rest (OrderedMap.nodup_insert once)

theorem readRecords_distinct {get : String → Except StoreError (List StoredArtifact)}
    {reveal : List (String × List (String × Value))} {suppress : List String}
    {records : List Value} {so so' : Originals}
    (ok : readRecords builders get reveal suppress records so = .ok so')
    (once : (so.originals.map Prod.fst).Nodup) : (so'.originals.map Prod.fst).Nodup := by
  induction records generalizing so with
  | nil =>
      cases ok
      exact once
  | cons record records ih =>
      rcases bind_eq_ok_iff.mp ok with ⟨cid, -, ok⟩
      rcases bind_eq_ok_iff.mp ok with ⟨middle, first, rest⟩
      apply ih rest
      rcases bind_eq_ok_iff.mp first with ⟨needed, -, first⟩
      split at first
      · cases first
        exact once
      · split at first
        · cases first
          exact once
        · cases first
        · cases first
        · exact readFields_distinct first once

theorem lookup_insertAll_of_none {fields revealed : List (String × Value)} {field : String}
    (absent : fields.lookup field = none) :
    (OrderedMap.insertAll fields revealed).lookup field = revealed.lookup field := by
  induction fields generalizing revealed with
  | nil => rfl
  | cons first fields ih =>
      rcases first with ⟨other, value⟩
      have apart : field ≠ other := by
        rintro rfl
        rw [OrderedMap.lookup_cons_of_eq rfl] at absent
        cases absent
      rw [OrderedMap.lookup_cons_of_ne apart] at absent
      change (OrderedMap.insertAll fields (OrderedMap.insert other value revealed)).lookup field = _
      rw [ih absent, OrderedMap.lookup_insert, if_neg apart]

/-- A field without an original is supplied as it is revealed. -/
theorem lookup_supply {reveal originals : List (String × List (String × Value))}
    (once : (originals.map Prod.fst).Nodup) {cid field : String}
    (absent : (entriesOf cid originals).lookup field = none) :
    (entriesOf cid (supply reveal originals)).lookup field =
      (entriesOf cid reveal).lookup field := by
  induction originals generalizing reveal with
  | nil => rfl
  | cons entry originals ih =>
      rcases entry with ⟨name, fields⟩
      rw [List.map_cons, List.nodup_cons] at once
      change (entriesOf cid (supply (OrderedMap.insert name (OrderedMap.insertAll fields
        (entriesOf name reveal)) reveal) originals)).lookup field = _
      by_cases same : cid = name
      · subst same
        have nothing : entriesOf cid originals = [] := by
          rw [entriesOf, OrderedMap.lookup_eq_none_iff.mpr once.1]
          rfl
        rw [entriesOf, OrderedMap.lookup_cons_of_eq rfl, Option.getD_some] at absent
        rw [ih once.2 (by rw [nothing, List.lookup_nil]), entriesOf_insert]
        exact lookup_insertAll_of_none absent
      · rw [entriesOf, OrderedMap.lookup_cons_of_ne same] at absent
        rw [ih once.2 absent, entriesOf_insert_of_ne same]

/-- Where nothing is missing, nothing is missing of any record. -/
theorem missingOf_of_missingForAll {supplied : List (String × List (String × Value))}
    {suppress : List String} {records : List Value}
    (ok : missingForAll supplied suppress records = .ok []) {record : Value} {cid : String}
    (inside : record ∈ records) (own : idOf record = .ok cid) :
    missingOf (entriesOf cid supplied) suppress record = .ok [] := by
  induction records with
  | nil => cases inside
  | cons first records ih =>
      rcases bind_eq_ok_iff.mp ok with ⟨id, named, ok⟩
      rcases bind_eq_ok_iff.mp ok with ⟨missing, found, ok⟩
      rcases bind_eq_ok_iff.mp ok with ⟨more, rest, same⟩
      rw [orRaised, mapError_eq_ok_iff] at found
      rw [pure_eq_ok, Except.ok.injEq, List.append_eq_nil_iff, List.map_eq_nil_iff] at same
      rcases same with ⟨rfl, rfl⟩
      rcases List.mem_cons.mp inside with rfl | later
      · rw [own, Except.ok.injEq] at named
        rw [named]
        exact found
      · exact ih rest later

/-- Where nothing is missing, the store could supply everything it was asked for. -/
theorem states_eq_nil {request : Request} {suppress : List String} {records : List Value}
    {ids : List String} {so : Originals}
    (named : List.Forall₂ (fun record id => idOf record = .ok id) records ids)
    (distinct : ids.Nodup) (read : readStore builders request records suppress = .ok so)
    (full : missingForAll (supply request.reveal so.originals) suppress records = .ok []) :
    so.states = [] := by
  unfold readStore storeOriginals at read
  split at read
  · cases read
    rfl
  · split at read
    · cases read
    · next get =>
        rcases readRecords_spec named distinct (fun _ _ => ⟨rfl, rfl⟩) read with ⟨others, each⟩
        by_contra some_
        rcases List.exists_mem_of_ne_nil _ some_ with ⟨⟨cid, states⟩, inside⟩
        have stated : so.states.lookup cid ≠ none := by
          rw [Ne, OrderedMap.lookup_eq_none_iff, not_not]
          exact List.mem_map_of_mem inside
        by_cases selected : cid ∈ ids
        · rcases each cid selected stated with ⟨record, member, own, needed, asked, field, wanted,
            absent⟩
          rcases of_mem_neededOf asked wanted with ⟨commits, shown, hidden⟩
          have supplied := @lookup_supply request.reveal _
            (readRecords_distinct read List.nodup_nil) _ _ absent
          rw [hidden] at supplied
          exact List.not_mem_nil (mem_missingOf (missingOf_of_missingForAll full member own)
            commits shown supplied)
        · rw [(others cid selected).2] at stated
          exact stated rfl

/-! ## The records of a disclosure -/

section

variable {path : String} {entries : List Value}
  {supplied : List (String × List (String × Value))} {suppress : List String}

/-- Each record of a disclosure has a record proof. -/
theorem bundle_of_discloseRecords {records : List Value} {done done' : Disclosed}
    (ok : discloseRecords packages builders path entries supplied suppress records done = .ok done')
    {record : Value} {cid : String} (inside : record ∈ records) (own : idOf record = .ok cid) :
    ∃ proof, builders.bundle entries cid = .ok proof := by
  induction records generalizing done with
  | nil => cases inside
  | cons first records ih =>
      rcases bind_eq_ok_iff.mp ok with ⟨id, named, ok⟩
      rcases bind_eq_ok_iff.mp ok with ⟨proof, bundled, ok⟩
      rcases bind_eq_ok_iff.mp ok with ⟨envelope, -, rest⟩
      rcases List.mem_cons.mp inside with rfl | later
      · rw [own, Except.ok.injEq] at named
        rcases bind_eq_ok_iff.mp bundled with ⟨kinds, -, bundled⟩
        rcases bind_eq_ok_iff.mp bundled with ⟨-, -, bundled⟩
        rcases bind_eq_ok_iff.mp bundled with ⟨-, -, bundled⟩
        rw [mapError_eq_ok_iff] at bundled
        exact ⟨proof, named ▸ bundled⟩
      · exact ih rest later

/-- Records with different ids have their envelopes under their ids, in order. -/
theorem discloseRecords_spec {records : List Value} {ids : List String} {done done' : Disclosed}
    (named : List.Forall₂ (fun record id => idOf record = .ok id) records ids)
    (distinct : ids.Nodup) (fresh : ∀ id ∈ ids, id ∉ done.envelopes.map Prod.fst)
    (ok : discloseRecords packages builders path entries supplied suppress records done =
      .ok done') :
    ∃ new, done'.envelopes = done.envelopes ++ new ∧ new.map Prod.fst = ids ∧
      List.Forall₂ (fun record entry => idOf record = .ok entry.1 ∧
        recordEnvelope packages builders (entriesOf entry.1 supplied) suppress entry.1 record =
          .ok entry.2) records new := by
  induction named generalizing done with
  | nil =>
      cases ok
      exact ⟨[], (List.append_nil _).symm, rfl, List.Forall₂.nil⟩
  | @cons record id records ids own named ih =>
      rcases bind_eq_ok_iff.mp ok with ⟨cid, same, ok⟩
      rw [own, Except.ok.injEq] at same
      subst same
      rcases bind_eq_ok_iff.mp ok with ⟨proof, -, ok⟩
      rcases bind_eq_ok_iff.mp ok with ⟨envelope, built, rest⟩
      rw [List.nodup_cons] at distinct
      have placed := @OrderedMap.insert_of_notMem _ _ _ id envelope _ (fresh id List.mem_cons_self)
      rw [placed] at rest
      have later : ∀ other ∈ ids,
          other ∉ (done.envelopes ++ [(id, envelope)]).map Prod.fst := by
        intro other inside
        rw [List.map_append, List.map_singleton, List.mem_append, List.mem_singleton, not_or]
        refine ⟨fresh other (List.mem_cons_of_mem _ inside), ?_⟩
        rintro rfl
        exact distinct.1 inside
      rcases ih distinct.2 later rest with ⟨new, all, keys, each⟩
      refine ⟨(id, envelope) :: new, ?_, congrArg (id :: ·) keys,
        List.Forall₂.cons ⟨own, built⟩ each⟩
      rw [all, List.append_assoc]
      rfl

end

theorem isLeaf_of_isCapsule {entry : Value} (capsule : isCapsule entry = .ok true) :
    isLeaf entry = true := by
  rcases bind_eq_ok_iff.mp capsule with ⟨kind, got, ok⟩
  rcases bind_eq_ok_iff.mp ok with ⟨recordType, -, same⟩
  rw [pure_eq_ok, Except.ok.injEq, Bool.and_eq_true] at same
  rw [isLeaf, got]
  exact same.1

theorem count_ids {records : List Value} {ids : List String}
    (named : List.Forall₂ (fun record id => idOf record = .ok id) records ids) (id : String) :
    ids.count id = (records.filter (hasId id)).length := by
  induction named with
  | nil => rfl
  | @cons record other records ids own named ih =>
      rw [List.count_cons, List.filter_cons, ih]
      by_cases same : other = id
      · rw [same] at own
        rw [hasId_iff.mpr own, same, beq_self_eq_true]
        rfl
      · have apart : hasId id record = false := by
          rw [← Bool.not_eq_true, hasId_iff, own, Except.ok.injEq]
          exact same
        rw [apart, beq_false_of_ne same]
        rfl

/-- The selected records have different ids when each of them has a record proof. -/
theorem distinct_ids (lawful : builders.Lawful packages) {entries records selected : List Value}
    {ids : List String} {selector mode : String} (read : readLedger entries = .ok records)
    (resolved : resolveSelector packages records selector = .ok (selected, mode))
    (named : List.Forall₂ (fun record id => idOf record = .ok id) selected ids)
    (bundled : ∀ id ∈ ids, ∃ proof, builders.bundle entries id = .ok proof) : ids.Nodup := by
  rcases resolveSelector_spec resolved with part | ⟨others, once, same⟩
  · rcases readLedger_sublist read with ⟨sub, capsules⟩
    rw [List.nodup_iff_count_le_one]
    intro id
    by_cases inside : id ∈ ids
    · rcases bundled id inside with ⟨proof, bundle⟩
      rw [count_ids named, ← lawful.bundles bundle]
      have leaves : selected.filter (hasId id) =
          selected.filter (fun entry => isLeaf entry && hasId id entry) := by
        apply List.filter_congr
        intro record member
        rw [isLeaf_of_isCapsule (capsules record (part.mem member)), Bool.true_and]
      rw [leaves]
      exact ((part.trans sub).filter _).length_le
    · rw [List.count_eq_zero_of_not_mem inside]
      exact Nat.zero_le 1
  · have equal : ids = others := by
      have left := map_eq_of_forall₂ (f := idOf) (g := Except.ok) (fun _ _ own => own) named
      have right := map_eq_of_forall₂ (f := idOf) (g := Except.ok) (fun _ _ own => own) same
      rw [left] at right
      exact List.map_injective_iff.mpr (fun _ _ equal => Except.ok.inj equal) right
    rw [equal]
    exact once

/-! ## Disclosures of everything -/

/-- The records the selector of a call names. -/
def Selected (packages : Packages) (entries : List Value) (request : Request)
    (selected : List Value) : Prop :=
  ∃ records mode, readLedger entries = .ok records ∧
    resolveSelector packages records request.selector = .ok (selected, mode)

/-- What is stated of an envelope: its id and the names of what it discloses. -/
def StatesFields (envelope stated : String × Value) : Prop :=
  stated.1 = envelope.1 ∧ ∃ (names : List String) (disclosures : List (String × Value)),
    disclosuresIn envelope.2 = .ok disclosures ∧ stated.2 = .list (names.map .str) ∧
      names.Perm (disclosures.map Prod.fst)

/-- A disclosure of everything the selected records commit and the call does not suppress. -/
structure Complete (packages : Packages) (entries : List Value) (request : Request)
    (selected : List Value) (d : Disclosure) : Prop where
  recordIds : List.Forall₂ (fun record id => idOf record = .ok id) selected d.recordIds
  envelopes : d.envelopes.map Prod.fst = d.recordIds
  shows : ∀ record ∈ selected, ∀ cid, idOf record = .ok cid → ∃ envelope,
    d.envelopes.lookup cid = some envelope ∧ Shows packages request.suppress record envelope
  range : ∀ records left right, readLedger entries = .ok records → NoDots left →
    request.selector.toList = left ++ '.' :: '.' :: right →
      ∃ i j first last, Names packages records (strip (String.ofList left)) i first ∧
        Names packages records (strip (String.ofList right)) j last ∧ i ≤ j ∧
          selected = (records.drop i).take (j + 1 - i)
  available : member? d.completeness "unavailable" = none
  statedIds : member? d.disclosureRecord "disclosed_capsule_ids" =
    some (.list (d.recordIds.map .str))
  statedFields : ∃ fields, member? d.disclosureRecord "disclosed_fields" = some (.dict fields) ∧
    List.Forall₂ StatesFields d.envelopes fields
  statedSuppressed : member? d.disclosureRecord "suppressed_fields" =
    some (.list (d.suppressedFields.map .str))
  suppressed : ∀ field, field ∈ d.suppressedFields ↔ field ∈ request.suppress

/-- What the record of a disclosure states of its envelopes. -/
theorem disclosedFields_spec {envelopes : List (String × Value)} {fields : List (String × Value)}
    (ok : disclosedFields envelopes = .ok fields) :
    List.Forall₂ StatesFields envelopes fields := by
  apply (forall₂_of_mapM ok).imp
  intro entry stated read
  rcases map_eq_ok_iff.mp read with ⟨disclosures, found, rfl⟩
  exact ⟨rfl, sortNames (disclosures.map Prod.fst), disclosures, found, rfl,
    List.perm_insertionSort _ _⟩

/-- What a disclosure of everything has before it is sealed. -/
theorem prepare_spec (lawful : builders.Lawful packages) {entries : List Value} {request : Request}
    {draft : Draft} (all : request.payloads = "all")
    (ok : prepare packages builders entries request = .ok draft) :
    ∃ selected, Selected packages entries request selected ∧
      List.Forall₂ (fun record id => idOf record = .ok id) selected draft.ids ∧
      draft.disclosed.envelopes.map Prod.fst = draft.ids ∧
      (∀ record ∈ selected, ∀ cid, idOf record = .ok cid → ∃ envelope,
        draft.disclosed.envelopes.lookup cid = some envelope ∧
          Shows packages request.suppress record envelope) ∧
      member? draft.completeness "unavailable" = none ∧
      draft.suppressed = sortNames request.suppress.dedup ∧
      ∃ fields, disclosedFields draft.disclosed.envelopes = .ok fields ∧
        draft.record = [("kind", .str "disclosure_record"), ("v", .int 1),
          ("audience", request.audience), ("selector", .str request.selector),
          ("disclosed_capsule_ids", .list (draft.ids.map .str)), ("disclosed_fields", .dict fields),
          ("suppressed_fields", .list (draft.suppressed.map .str)),
          ("completeness", draft.completeness), ("timestamp", .str builders.now)] := by
  rcases bind_eq_ok_iff.mp ok with ⟨-, -, ok⟩
  rcases bind_eq_ok_iff.mp ok with ⟨records, read, ok⟩
  rcases bind_eq_ok_iff.mp ok with ⟨-, -, ok⟩
  rcases bind_eq_ok_iff.mp ok with ⟨⟨selected, mode⟩, resolved, ok⟩
  rcases bind_eq_ok_iff.mp ok with ⟨ids, named, ok⟩
  rcases bind_eq_ok_iff.mp ok with ⟨-, -, ok⟩
  rcases bind_eq_ok_iff.mp ok with ⟨so, stored, ok⟩
  rcases bind_eq_ok_iff.mp ok with ⟨done, full, ok⟩
  rcases bind_eq_ok_iff.mp ok with ⟨disclosed, built, ok⟩
  rcases bind_eq_ok_iff.mp ok with ⟨fields, listed, same⟩
  cases same
  rw [orRaised, mapError_eq_ok_iff] at read listed
  dsimp only at *
  unfold checkMissing at full
  rw [if_pos all] at full
  rcases bind_eq_ok_iff.mp full with ⟨missing, found, nothing⟩
  rw [ensure_eq_ok_iff, List.isEmpty_iff] at nothing
  rw [nothing] at found
  have own := forall₂_of_mapM named
  have bundled : ∀ id ∈ ids, ∃ proof, builders.bundle entries id = .ok proof := by
    intro id inside
    rcases exists_of_forall₂ own inside with ⟨record, member, there⟩
    exact bundle_of_discloseRecords built member there
  have distinct := distinct_ids lawful read resolved own bundled
  rcases discloseRecords_spec own distinct (fun _ _ => List.not_mem_nil) built with
    ⟨new, placed, keys, each⟩
  rw [List.nil_append] at placed
  refine ⟨selected, ⟨records, mode, read, resolved⟩, own, by rw [placed]; exact keys, ?_, ?_, rfl,
    fields, listed, rfl⟩
  · intro record member cid there
    rcases exists_of_forall₂ each.flip member with ⟨entry, inside, same, envelope⟩
    rw [there, Except.ok.injEq] at same
    refine ⟨entry.2, ?_, ?_⟩
    · rw [placed, same]
      exact OrderedMap.lookup_of_mem (by rw [keys]; exact distinct) inside
    · rw [← same] at envelope
      have shows := recordEnvelope_shows lawful envelope
        (missingOf_of_missingForAll found member there)
      rcases shows with ⟨disclosures, same, once, exact_, recomputes⟩
      refine ⟨disclosures, same, once, fun field => ?_, recomputes⟩
      rw [exact_, List.mem_dedup]
  · have states := states_eq_nil own distinct stored found
    rw [states]
    rfl

/-- A disclosure of everything is complete, and nothing is written where `disclose` raises before
its record is sealed. -/
theorem disclose_complete (lawful : builders.Lawful packages) (entries : List Value)
    (request : Request) :
    (request.payloads = "all" → ∀ d, (disclose packages builders entries request).1 = .ok d →
      ∃ selected, Selected packages entries request selected ∧
        Complete packages entries request selected d) ∧
    (∀ refused, prepare packages builders entries request = .error refused →
      disclose packages builders entries request = (.error refused, entries)) ∧
    ∀ draft refused, prepare packages builders entries request = .ok draft →
      sealRecord packages builders draft.record = .error refused →
        disclose packages builders entries request = (.error refused, entries) := by
  refine ⟨fun all d ok => ?_, fun refused failed => by rw [disclose, failed],
    fun draft refused prepared failed => by rw [disclose, prepared]; simp only [failed]⟩
  unfold disclose at ok
  split at ok
  · cases ok
  · next draft prepared =>
      split at ok
      · cases ok
      · next record sealed_ =>
          split at ok
          · cases ok
          · cases ok
            rcases prepare_spec lawful all prepared with ⟨selected, named, own, keys, shows,
              available, suppressed, fields, listed, stated⟩
            rcases bind_eq_ok_iff.mp sealed_ with ⟨capsuleId, -, signed⟩
            rcases bind_eq_ok_iff.mp signed with ⟨envelope, -, same⟩
            rw [stated] at same
            cases same
            refine ⟨selected, named, ?_⟩
            constructor
            case recordIds => exact own
            case envelopes => exact keys
            case shows => exact shows
            case range =>
              intro records left right read clean form
              rcases named with ⟨others, mode, other, resolved⟩
              rw [read, Except.ok.injEq] at other
              rw [← other] at resolved
              exact resolveSelector_range clean form resolved
            case available => exact available
            case statedIds => rfl
            case statedFields => exact ⟨fields, rfl, disclosedFields_spec listed⟩
            case statedSuppressed => rfl
            case suppressed =>
              intro field
              rw [suppressed, sortNames, List.mem_insertionSort, List.mem_dedup]

/-! ## A disclosure of two records -/

/-- Whether a value recomputes to the digest a capsule commits for its field. -/
def matchesDigest (packages : Packages) (capsule : Value) (entry : String × Value) : Bool :=
  match packages.jsonDigest entry.2,
      (computeAttestation capsule).bind (fun attestation => committed attestation entry.1) with
  | .ok digest, .ok (.str stored) => stored = digest
  | _, _ => false

/-- Builders that prove the one leaf of an id, build an envelope where every value matches, and
read `null` for an original. -/
def concreteBuilders (packages : Packages) : Builders where
  bundle := fun entries cid =>
    match entries.filter (fun entry => isLeaf entry && hasId cid entry) with
    | [record] => .ok ⟨.str cid, record, .str "leaf"⟩
    | _ => .error (.recordProofError (cid ++ " does not resolve to one record"))
  build := fun capsule disclosures =>
    match disclosures.find? (fun entry => !matchesDigest packages capsule entry) with
    | none => .ok (envelopeOf capsule disclosures)
    | some entry => .error (.valueError ("digest_mismatch: " ++ entry.1))
  noCommittedDigest := "no_committed_digest"
  decodeStrictJson := fun content =>
    if content = utf8 "null" then .ok .none else .error "not decoded"
  signProducerEnvelope := fun _ => .ok ("d284", "8a88")
  appendToLedger := fun entries record => (none, entries ++ [record])
  now := "2026-01-01T00:00:00Z"

theorem concreteBuilders_lawful (known : List Signed) (included : List (String × String)) :
    (concreteBuilders (concretePackages known included)).Lawful
      (concretePackages known included) where
  bundles := by
    intro entries cid proof ok
    simp only [concreteBuilders] at ok
    split at ok
    · next single =>
        rw [single]
        rfl
    · cases ok
  builds := by
    intro capsule disclosures envelope ok
    simp only [concreteBuilders] at ok
    split at ok
    · next matched =>
        cases ok
        refine ⟨rfl, fun entry inside => ?_⟩
        have holds := List.find?_eq_none.mp matched entry inside
        rw [Bool.not_eq_true, Bool.not_eq_false', matchesDigest] at holds
        split at holds
        · next digest stored computed commits =>
            rw [of_decide_eq_true holds] at commits
            exact ⟨digest, computed, commits⟩
        · cases holds
    · cases ok
  digests := by
    rintro value digest computed rfl
    simp only [concretePackages] at computed
    split at computed
    · next text _ =>
        rw [Except.ok.injEq] at computed
        have length := Sha256.length_utf8_hex (Sha256.digest text)
        rw [computed, Sha256.length_digest] at length
        cases length
    · cases computed

/-- The id of a record whose answer is `null`. -/
def nullId : String := "055434fc5b1c7a3cc11217a1924b0bb2f7b5daf25f5e6f11c490f57d8a8349aa"

def nullReceipt : Value := .dict [
  ("canonicalization_id", .str "jcs"),
  ("model_attestation", .dict [("compute_attestation", .dict [
    ("agent_output_digest",
      .str "74234e98afe7498fb5daf1f36ac2d78acc339464f950703b8c019892f982b90b")])]),
  ("capsule_id", .str nullId)]

/-- A call for a range of both records: what the first commits is revealed, and the answer of
the second is in a store, behind an artifact that was not retained. -/
def rangeRequest : Request where
  path := "ledger.jsonl"
  selector := askedId ++ ".." ++ nullId
  audience := .str "auditor"
  payloads := "all"
  reveal := [(askedId, [("agent_input", .str "the question"),
    ("agent_output", .str "the answer")])]
  suppress := []
  store := some (.artifacts (fun cid =>
    if cid = nullId then .ok [
      ⟨"model_attestation.compute_attestation.agent_output_digest", "never_retained", []⟩,
      ⟨"model_attestation.compute_attestation.agent_output_digest", "present", utf8 "null"⟩]
    else .error .notFound))

theorem disclose_range : ∃ d,
    (disclose askedPackages (concreteBuilders askedPackages) [askedReceipt, nullReceipt]
      rangeRequest).1 = .ok d ∧
    ∃ selected, Selected askedPackages [askedReceipt, nullReceipt] rangeRequest selected ∧
      Complete askedPackages [askedReceipt, nullReceipt] rangeRequest selected d := by
  have disclosed : succeeds (disclose askedPackages (concreteBuilders askedPackages)
      [askedReceipt, nullReceipt] rangeRequest).1 = true := by
    decide +kernel
  rcases succeeds_iff.mp disclosed with ⟨d, ok⟩
  exact ⟨d, ok, (disclose_complete (concreteBuilders_lawful _ _) _ _).1 rfl d ok⟩

end Disclose
end CapsuleEmit
