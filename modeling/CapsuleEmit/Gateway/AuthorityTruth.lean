import CapsuleEmit.Gateway.Redaction

namespace CapsuleEmit
namespace Gateway
namespace Authority

open Numbers (Binary64 Value SameShape SameItems SameMembers)

/-!
# What an authority block says is true

A slot is either among the fields or among the absent ones, and its field is of
the last phase that had a value for it.  No text among the fields and the
grants is a credential.  The grants of the block are the grants of the gateway
exactly when redaction took items from the two lists in step.
-/

/-! ## Values and their texts -/

section

mutual
theorem clean_of_sameShape : ∀ {value text : Value}, SameShape value text → Clean value →
    Clean text
  | _, _, .null, _ => trivial
  | _, _, .bool _, _ => trivial
  | _, _, .int _, _ => trivial
  | _, _, .str _, clean => clean
  | _, _, .float _, genuine => cleanText_numberToString genuine
  | _, _, .list same, clean => cleanItems_of_sameItems same clean
  | _, _, .tuple same, clean => cleanItems_of_sameItems same clean
  | _, _, .dict same, clean => cleanMembers_of_sameMembers same clean

theorem cleanItems_of_sameItems : ∀ {items texts : List Value}, SameItems items texts →
    CleanItems items → CleanItems texts
  | _, _, .nil, _ => trivial
  | _, _, .cons first rest, clean =>
      ⟨clean_of_sameShape first clean.1, cleanItems_of_sameItems rest clean.2⟩

theorem cleanMembers_of_sameMembers : ∀ {members texts : List (String × Value)},
    SameMembers members texts → CleanMembers members → CleanMembers texts
  | _, _, .nil, _ => trivial
  | _, _, .cons _ first rest, clean =>
      ⟨clean_of_sameShape first clean.1, cleanMembers_of_sameMembers rest clean.2⟩
end

/-- The names of the members of an object. -/
def names : Value → List String
  | .dict members => members.map Prod.fst
  | _ => []

theorem map_fst_of_sameMembers {members texts : List (String × Value)}
    (same : SameMembers members texts) : texts.map Prod.fst = members.map Prod.fst := by
  induction members generalizing texts with
  | nil =>
      cases same
      rfl
  | cons member members ih =>
      cases same with
      | cons key first rest => rw [List.map_cons, List.map_cons, ih rest]

theorem names_of_sameShape {value text : Value} (same : SameShape value text) :
    names text = names value := by
  cases same with
  | dict members => exact map_fst_of_sameMembers members
  | _ => rfl

theorem exists_of_sameMembers {members texts : List (String × Value)}
    (same : SameMembers members texts) {key : String} {text : Value}
    (inside : (key, text) ∈ texts) : ∃ value, (key, value) ∈ members ∧ SameShape value text := by
  induction members generalizing texts with
  | nil =>
      cases same
      cases inside
  | cons member members ih =>
      cases same with
      | cons name first rest =>
          rcases List.mem_cons.mp inside with here | there
          · cases here
            exact ⟨_, List.mem_cons_self, first⟩
          · rcases ih rest there with ⟨value, member, shape⟩
            exact ⟨value, List.mem_cons_of_mem _ member, shape⟩

theorem sameItems_strings {strings : List String} {texts : List Value}
    (same : SameItems (strings.map .str) texts) : texts = strings.map .str := by
  induction strings generalizing texts with
  | nil =>
      cases same
      rfl
  | cons s strings ih =>
      cases same with
      | cons first rest =>
          cases first
          rw [ih rest, List.map_cons]

/-- A payload that is converted has the shape of its conversion. -/
theorem sameShape_of_canonicalize {quote : String → String} {field : String} {value text : Value}
    (done : Numbers.canonicalizeForDigest quote field value = .ok text) : SameShape value text := by
  rcases @Numbers.canonicalizeForDigest_finite quote field _
    (Numbers.finite_of_canonicalizeForDigest field done) with ⟨other, again, same, -⟩
  rw [done] at again
  cases again
  exact same

end

/-! ## The slots -/

section

variable {keyMap : KeyMap} {request response : Members}

/-- The field of a slot, if it gets one. -/
def slotField (keyMap : KeyMap) (request response : Members) (slot : String) : Option Hit :=
  (hit request response (keysOf keyMap slot)).bind (fun found =>
    match sanitize found.value with
    | (.null, some _) => none
    | (safe, _) => some { found with value := safe })

theorem auditSlot_of_none {collected : Collected} {slot : String}
    (none : slotField keyMap request response slot = none) :
    (auditSlot keyMap request response collected slot).fields = collected.fields ∧
      (auditSlot keyMap request response collected slot).absent = collected.absent ++ [slot] := by
  rw [auditSlot]
  cases found : hit request response (keysOf keyMap slot) with
  | none => exact ⟨rfl, rfl⟩
  | some found' =>
      rw [slotField, found, Option.bind_some] at none
      dsimp only
      split at none
      · next reason parts =>
          try rw [parts]
          exact ⟨rfl, rfl⟩
      · cases none

theorem auditSlot_of_some {collected : Collected} {slot : String} {field : Hit}
    (some : slotField keyMap request response slot = some field) :
    (auditSlot keyMap request response collected slot).fields =
        collected.fields ++ [(slot, field)] ∧
      (auditSlot keyMap request response collected slot).absent = collected.absent := by
  rw [auditSlot]
  cases found : hit request response (keysOf keyMap slot) with
  | none =>
      rw [slotField, found] at some
      cases some
  | some found' =>
      rw [slotField, found, Option.bind_some] at some
      dsimp only
      split at some
      · cases some
      · next safe reason other parts =>
          cases some
          first
          | exact ⟨rfl, rfl⟩
          | rw [parts]
            split
            · next again => cases again; exact (other _ rfl rfl).elim
            · next again => cases again; exact ⟨rfl, rfl⟩

theorem collect_eq (slots : List String) (collected : Collected) :
    (slots.foldl (auditSlot keyMap request response) collected).fields =
        collected.fields ++ slots.filterMap (fun slot =>
          (slotField keyMap request response slot).map (fun field => (slot, field))) ∧
      (slots.foldl (auditSlot keyMap request response) collected).absent =
        collected.absent ++
          slots.filter (fun slot => (slotField keyMap request response slot).isNone) := by
  induction slots generalizing collected with
  | nil => simp
  | cons slot slots ih =>
      rw [List.foldl_cons, (ih _).1, (ih _).2]
      cases field : slotField keyMap request response slot with
      | none =>
          rw [(auditSlot_of_none field).1, (auditSlot_of_none field).2]
          simp [field]
      | some value =>
          rw [(auditSlot_of_some field).1, (auditSlot_of_some field).2]
          simp [field]

theorem collect_fields : (collect keyMap request response).fields =
    auditSlots.filterMap (fun slot =>
      (slotField keyMap request response slot).map (fun field => (slot, field))) :=
  (collect_eq auditSlots ⟨[], [], []⟩).1

theorem collect_absent : (collect keyMap request response).absent =
    auditSlots.filter (fun slot => (slotField keyMap request response slot).isNone) :=
  (collect_eq auditSlots ⟨[], [], []⟩).2

theorem mem_collect_fields {slot : String} {field : Hit} :
    (slot, field) ∈ (collect keyMap request response).fields ↔
      slot ∈ auditSlots ∧ slotField keyMap request response slot = some field := by
  rw [collect_fields, List.mem_filterMap]
  constructor
  · rintro ⟨other, member, same⟩
    rcases Option.map_eq_some_iff.mp same with ⟨value, found, pair⟩
    cases pair
    exact ⟨member, found⟩
  · rintro ⟨member, found⟩
    exact ⟨slot, member, by rw [found]; rfl⟩

theorem lookup_filterMap {slots : List String} {f : String → Option Hit} {slot : String}
    (inside : slot ∈ slots) :
    (slots.filterMap (fun slot => (f slot).map (fun field => (slot, field)))).lookup slot =
      f slot := by
  induction slots with
  | nil => cases inside
  | cons other slots ih =>
      by_cases same : slot = other
      · subst same
        cases found : f slot with
        | some field => simp [found]
        | none =>
            simp only [List.filterMap_cons, found, Option.map_none]
            rw [List.lookup_eq_none_iff]
            intro member listed
            rcases List.mem_filterMap.mp listed with ⟨name, -, value⟩
            rcases Option.map_eq_some_iff.mp value with ⟨field, some, rfl⟩
            rw [bne_iff_ne]
            rintro rfl
            rw [found] at some
            cases some
      · have rest := ih ((List.mem_cons.mp inside).resolve_left same)
        cases found : f other with
        | none => simpa [List.filterMap_cons, found] using rest
        | some field =>
            simp only [List.filterMap_cons, found, Option.map_some]
            rw [List.lookup_cons, beq_eq_false_iff_ne.mpr same]
            exact rest

/-! ## The grants -/

/-- The items a slot was wired with, each with what is sealed for it. -/
def wired (keyMap : KeyMap) (request response : Members) (slot : String) : List (Option Value) :=
  (((hit request response (keysOf keyMap slot)).map (fun found => asList found.value)).getD []).map
    kept

theorem sanitize_null_of_dropped {value : Value} (single : ∀ items, value ≠ .list items)
    {safe : Value} {reason : String} (dropped : sanitize value = (safe, some reason)) :
    safe = .null := by
  cases value with
  | list items => exact absurd rfl (single items)
  | str text =>
      rw [sanitize] at dropped
      split at dropped
      · cases dropped
        rfl
      · cases dropped
  | dict members =>
      cases dropped
      rfl
  | _ => cases dropped

theorem asList_sanitize_list (items : List Value) :
    (match sanitize (.list items) with
      | (.null, some _) => []
      | (safe, _) => asList safe) = (items.map kept).reduceOption := by
  rw [← sanitizeItems_fst, sanitize]
  rcases sanitizeItems items with ⟨out, reasons⟩
  cases out with
  | nil => cases reasons <;> rfl
  | cons first rest => cases reasons <;> rfl

/-- What a value gives a list of grants is what is left of its items. -/
theorem asList_sanitize (value : Value) :
    (match sanitize value with
      | (.null, some _) => []
      | (safe, _) => asList safe) = ((asList value).map kept).reduceOption := by
  by_cases single : ∀ items, value ≠ .list items
  · have one : asList value = [value] := by
      cases value with
      | list items => exact absurd rfl (single items)
      | _ => rfl
    rw [one, List.map_cons, List.map_nil, kept]
    rcases parts : sanitize value with ⟨safe, reason⟩
    cases reason with
    | some reason =>
        rw [sanitize_null_of_dropped single parts]
        rfl
    | none =>
        have alone : asList safe = [safe] := by
          cases value with
          | list items => exact absurd rfl (single items)
          | str text =>
              rw [sanitize] at parts
              split at parts
              · cases parts
              · cases parts
                rfl
          | dict members => cases parts
          | _ =>
              cases parts
              rfl
        cases safe <;> exact alone
  · rcases not_forall_not.mp single with ⟨items, rfl⟩
    exact asList_sanitize_list items

theorem slotItems_collect {slot : String} (inside : slot ∈ auditSlots) :
    slotItems (collect keyMap request response).fields slot =
      (wired keyMap request response slot).reduceOption := by
  rw [slotItems, collect_fields, lookup_filterMap inside, slotField, wired]
  cases found : hit request response (keysOf keyMap slot) with
  | none => rfl
  | some found' =>
      rw [Option.map_some, Option.getD_some, ← asList_sanitize, Option.bind_some]
      split
      · rfl
      · rfl

/-- The grants of the gateway: at each position the members that are left. -/
def wiredGrants (jti aud : List (Option Value)) : List Value :=
  (List.range (max jti.length aud.length)).filterMap
    (fun i => grantEntry jti[i]?.join aud[i]?.join)

/-- The entry of a pair of items. -/
def entryOf (pair : Option Value × Option Value) : Value :=
  .dict ((pair.1.map (fun value => ("jti", value))).toList ++
    (pair.2.map (fun value => ("aud", value))).toList)

theorem toList_grantEntry (jti aud : Option Value) :
    (grantEntry jti aud).toList = (Alignment.pairAt jti aud).map entryOf := by
  cases jti <;> cases aud <;> rfl

theorem wiredGrants_eq (jti aud : List (Option Value)) :
    wiredGrants jti aud = (Alignment.joined jti aud).map entryOf := by
  rw [wiredGrants, Alignment.joined_eq_range, List.map_flatMap, List.filterMap_eq_flatMap_toList]
  congr 1
  funext i
  exact toList_grantEntry _ _

theorem buildGrants_collect : buildGrants (collect keyMap request response).fields =
    (Alignment.compacted (wired keyMap request response "idjag_jti")
      (wired keyMap request response "idjag_aud")).map entryOf := by
  rw [buildGrants, slotItems_collect (by decide), slotItems_collect (by decide),
    Alignment.compacted, ← wiredGrants_eq, wiredGrants, List.length_map, List.length_map]
  congr 1
  funext i
  rw [List.getElem?_map, List.getElem?_map]
  congr 1
  · cases ((wired keyMap request response "idjag_jti").reduceOption)[i]? <;> rfl
  · cases ((wired keyMap request response "idjag_aud").reduceOption)[i]? <;> rfl

theorem shape_eq (pair : Option Value × Option Value) : Alignment.shape pair =
    (decide ("jti" ∈ names (entryOf pair)), decide ("aud" ∈ names (entryOf pair))) := by
  rcases pair with ⟨jti, aud⟩
  cases jti <;> cases aud <;> rfl

theorem map_names_of_sameItems {items texts : List Value} (same : SameItems items texts) :
    texts.map names = items.map names := by
  induction items generalizing texts with
  | nil =>
      cases same
      rfl
  | cons item items ih =>
      cases same with
      | cons first rest =>
          rw [List.map_cons, List.map_cons, ih rest, names_of_sameShape first]

/-- Two lists of pairs with the same entries in a block have the same shapes. -/
theorem map_shape_of_sameItems {left right : List (Option Value × Option Value)}
    {texts : List Value} (sameLeft : SameItems (left.map entryOf) texts)
    (sameRight : SameItems (right.map entryOf) texts) :
    left.map Alignment.shape = right.map Alignment.shape := by
  have equal : left.map (names ∘ entryOf) = right.map (names ∘ entryOf) := by
    rw [← List.map_map, ← List.map_map, ← map_names_of_sameItems sameLeft,
      map_names_of_sameItems sameRight]
  have shapes : Alignment.shape =
      (fun list : List String => (decide ("jti" ∈ list), decide ("aud" ∈ list))) ∘
        (names ∘ entryOf) :=
    funext shape_eq
  rw [shapes, ← List.map_map, equal, List.map_map]

/-! ## Clean hits -/

theorem wire_of_lookup {members : Members} (wire : WireMembers members) {key : String}
    {value : Value} (found : members.lookup key = some value) : Wire value := by
  induction members with
  | nil => cases found
  | cons member members ih =>
      rcases member with ⟨name, item⟩
      rw [List.lookup_cons] at found
      split at found
      · cases found
        exact wire.1
      · exact ih wire.2 found

theorem wire_of_walk {parts : List String} {value found : Value} (wire : Wire value)
    (walked : walk value parts = some found) : Wire found := by
  induction parts generalizing value with
  | nil =>
      cases walked
      exact wire
  | cons part parts ih =>
      cases value with
      | dict members =>
          rcases Option.bind_eq_some_iff.mp walked with ⟨next, here, rest⟩
          exact ih (wire_of_lookup wire here) rest
      | _ => cases walked

theorem wire_of_candidate {md : Members} (wire : WireMembers md) {keys : List String}
    {found : Value} {key : String} (first : candidate md keys = some (found, key)) :
    Wire found := by
  rcases List.exists_of_findSome?_eq_some first with ⟨tried, -, result⟩
  rcases Option.map_eq_some_iff.mp result with ⟨value, inner, pair⟩
  cases pair
  rcases Option.bind_eq_some_iff.mp inner with ⟨raw, looked, there⟩
  have same : raw = found := by
    cases raw <;> cases there <;> rfl
  subst same
  rw [lookup] at looked
  split at looked
  · exact wire_of_lookup wire looked
  · split at looked
    · cases looked
    · have wireMd : Wire (.dict md) := wire
      exact wire_of_walk wireMd looked

theorem hit_eq (keys : List String) : hit request response keys =
    ((candidate response keys).map (fun found => (⟨found.1, found.2, "response"⟩ : Hit))).or
      (((candidate request keys).map (fun found => (⟨found.1, found.2, "request"⟩ : Hit))).or
        none) := rfl

theorem wire_of_hit (wireRequest : WireMembers request) (wireResponse : WireMembers response)
    {keys : List String} {found : Hit} (got : hit request response keys = some found) :
    Wire found.value := by
  rw [hit_eq] at got
  cases later : candidate response keys with
  | some pair =>
      rw [later] at got
      cases got
      exact wire_of_candidate wireResponse later
  | none =>
      cases earlier : candidate request keys with
      | none =>
          rw [later, earlier] at got
          cases got
      | some pair =>
          rw [later, earlier] at got
          cases got
          exact wire_of_candidate wireRequest earlier

theorem cleanItems_iff {items : List Value} : CleanItems items ↔ ∀ item ∈ items, Clean item := by
  induction items with
  | nil => exact ⟨fun _ _ inside => absurd inside List.not_mem_nil, fun _ => trivial⟩
  | cons item items ih =>
      rw [List.forall_mem_cons, ← ih]
      exact Iff.rfl

theorem clean_of_lookup {members : Members} (clean : CleanMembers members) {key : String}
    {value : Value} (found : members.lookup key = some value) : Clean value := by
  induction members with
  | nil => cases found
  | cons member members ih =>
      rcases member with ⟨name, item⟩
      rw [List.lookup_cons] at found
      split at found
      · cases found
        exact clean.1
      · exact ih clean.2 found

theorem slotField_eq_some {slot : String} {field : Hit}
    (got : slotField keyMap request response slot = some field) :
    ∃ found, hit request response (keysOf keyMap slot) = some found ∧
      field = { found with value := (sanitize found.value).1 } := by
  rcases Option.bind_eq_some_iff.mp got with ⟨found, there, kept⟩
  refine ⟨found, there, ?_⟩
  split at kept
  · cases kept
  · next safe reason other parts =>
      rw [parts]
      exact (Option.some.inj kept).symm

theorem clean_slotField (wireRequest : WireMembers request) (wireResponse : WireMembers response)
    {slot : String} {field : Hit} (got : slotField keyMap request response slot = some field) :
    Clean field.value := by
  rcases slotField_eq_some got with ⟨found, there, rfl⟩
  exact clean_sanitize (wire_of_hit wireRequest wireResponse there)

theorem clean_asList {value : Value} (clean : Clean value) : ∀ item ∈ asList value, Clean item := by
  cases value with
  | list items => exact cleanItems_iff.mp clean
  | _ =>
      intro item inside
      cases List.mem_singleton.mp inside
      exact clean

theorem clean_buildGrants (wireRequest : WireMembers request)
    (wireResponse : WireMembers response) :
    CleanItems (buildGrants (collect keyMap request response).fields) := by
  have items (slot : String) (inside : slot ∈ auditSlots) : ∀ item ∈
      slotItems (collect keyMap request response).fields slot, Clean item := by
    rw [slotItems, collect_fields, lookup_filterMap inside]
    cases got : slotField keyMap request response slot with
    | none => exact fun _ inside => absurd inside List.not_mem_nil
    | some field => exact clean_asList (clean_slotField wireRequest wireResponse got)
  rw [cleanItems_iff]
  intro grant inside
  rcases List.mem_filterMap.mp inside with ⟨i, -, entry⟩
  have jti := items "idjag_jti" (by decide)
  have aud := items "idjag_aud" (by decide)
  cases first : (slotItems (collect keyMap request response).fields "idjag_jti")[i]? with
  | none =>
      cases second : (slotItems (collect keyMap request response).fields "idjag_aud")[i]? with
      | none => rw [first, second] at entry; cases entry
      | some b =>
          rw [first, second] at entry
          cases entry
          exact ⟨aud b (List.mem_of_getElem? second), trivial⟩
  | some a =>
      cases second : (slotItems (collect keyMap request response).fields "idjag_aud")[i]? with
      | none =>
          rw [first, second] at entry
          cases entry
          exact ⟨jti a (List.mem_of_getElem? first), trivial⟩
      | some b =>
          rw [first, second] at entry
          cases entry
          exact ⟨jti a (List.mem_of_getElem? first), aud b (List.mem_of_getElem? second), trivial⟩

end

/-! ## Main results -/

/-- Metadata of one phase, as the gateway sends it. -/
structure Metadata where
  members : Members
  wire : WireMembers members

/-- The members of metadata that may be absent. -/
def membersOf (md : Option Metadata) : Members := (md.map Metadata.members).getD []

theorem wireMembers_membersOf (md : Option Metadata) : WireMembers (membersOf md) := by
  cases md with
  | none => trivial
  | some md => exact md.wire

/-- A member of an object. -/
def member (name : String) : Value → Option Value
  | .dict members => members.lookup name
  | _ => none

/-- The field of a value that was found under a key in a phase. -/
def FieldOf (found : Value) (key phase : String) (entry : Value) : Prop :=
  ∃ text, SameShape (sanitize found).1 text ∧
    entry = .dict [("value", text), ("key", .str key), ("phase", .str phase)]

/-- The fields, the grants and the absent slots of a block say what the
metadata say, and nothing that is a credential. -/
structure Truthful (keyMap : KeyMap) (request response : Members) (fields : Members)
    (grants absent : List Value) : Prop where
  aligned : SameItems (wiredGrants (wired keyMap request response "idjag_jti")
    (wired keyMap request response "idjag_aud")) grants
  once : ∀ slot ∈ auditSlots, Xor (slot ∈ fields.map Prod.fst) (Value.str slot ∈ absent)
  later : ∀ slot found key, candidate response (keysOf keyMap slot) = some (found, key) →
    ∀ entry, (slot, entry) ∈ fields → FieldOf found key "response" entry
  earlier : ∀ slot found key, candidate response (keysOf keyMap slot) = none →
    candidate request (keysOf keyMap slot) = some (found, key) →
    ∀ entry, (slot, entry) ∈ fields → FieldOf found key "request" entry
  cleanFields : ∀ slot entry, (slot, entry) ∈ fields →
    ∀ value, member "value" entry = some value → Clean value
  cleanGrants : ∀ grant ∈ grants, ∀ name, ∀ value, member name grant = some value → Clean value

/-- What a block lists. -/
def Lists (block : Value) (fields : Members) (grants absent : List Value) : Prop :=
  member "fields" block = some (.dict fields) ∧ member "grants" block = some (.list grants) ∧
    member "absent" block = some (.list absent)

/-- The parts of a block and what they were written for. -/
theorem parts_of_block {quote : String → String} {request response : Option Members}
    {keyMap : Option KeyMap} {text : Value}
    (built : buildAuthorityBlock quote request response keyMap = .ok text) :
    ∃ fields grants,
      Lists text fields grants (((collect (keyMapOf keyMap) (request.getD [])
        (response.getD [])).absent.insertionSort (· ≤ ·)).map .str) ∧
      SameMembers ((collect (keyMapOf keyMap) (request.getD []) (response.getD [])).fields.map
        (fun field => (field.1, fieldValue field.2))) fields ∧
      SameItems (buildGrants (collect (keyMapOf keyMap) (request.getD [])
        (response.getD [])).fields) grants := by
  have same := sameShape_of_canonicalize built
  rw [block] at same
  rcases same with _ | _ | _ | _ | _ | _ | _ | ⟨members⟩
  rcases members with _ | ⟨_, first, members⟩
  rcases members with _ | ⟨_, second, members⟩
  rcases members with _ | ⟨_, fields, members⟩
  rcases members with _ | ⟨_, grants, members⟩
  rcases members with _ | ⟨_, absent, members⟩
  rcases fields with _ | _ | _ | _ | _ | _ | _ | ⟨fields⟩
  rcases grants with _ | _ | _ | _ | _ | ⟨grants⟩
  rcases absent with _ | _ | _ | _ | _ | ⟨absent⟩
  cases sameItems_strings absent
  exact ⟨_, _, ⟨rfl, rfl, rfl⟩, fields, grants⟩

/-- Everything but the alignment of the grants holds of every block. -/
theorem truthful_iff {keyMap : KeyMap} {request response : Members} {fields : Members}
    {grants : List Value} (wireRequest : WireMembers request)
    (wireResponse : WireMembers response)
    (sameFields : SameMembers ((collect keyMap request response).fields.map
      (fun field => (field.1, fieldValue field.2))) fields)
    (sameGrants : SameItems (buildGrants (collect keyMap request response).fields) grants) :
    Truthful keyMap request response fields grants
        (((collect keyMap request response).absent.insertionSort (· ≤ ·)).map .str) ↔
      Alignment.InStep (wired keyMap request response "idjag_jti")
        (wired keyMap request response "idjag_aud") := by
  have field {slot : String} {entry : Value} (inside : (slot, entry) ∈ fields) :
      ∃ found, hit request response (keysOf keyMap slot) = some found ∧
        FieldOf found.value found.key found.phase entry := by
    rcases exists_of_sameMembers sameFields inside with ⟨value, listed, shape⟩
    rcases List.mem_map.mp listed with ⟨⟨name, field⟩, collected, pair⟩
    cases pair
    rcases slotField_eq_some (mem_collect_fields.mp collected).2 with ⟨found, there, rfl⟩
    refine ⟨found, there, ?_⟩
    rcases shape with _ | _ | _ | _ | _ | _ | _ | ⟨members⟩
    rcases members with _ | ⟨_, value, members⟩
    rcases members with _ | ⟨_, key, members⟩
    rcases members with _ | ⟨_, phase, members⟩
    cases key
    cases phase
    cases members
    exact ⟨_, value, rfl⟩
  constructor
  · intro truthful
    have aligned := truthful.aligned
    rw [wiredGrants_eq] at aligned
    rw [buildGrants_collect] at sameGrants
    exact Alignment.inStep_of_shape (map_shape_of_sameItems sameGrants aligned)
  · intro step
    refine ⟨?_, ?_, ?_, ?_, ?_, ?_⟩
    · rwa [wiredGrants_eq, ← Alignment.compacted_of_inStep step, ← buildGrants_collect]
    · intro slot inside
      have named : slot ∈ fields.map Prod.fst ↔
          (slotField keyMap request response slot).isSome = true := by
        rw [map_fst_of_sameMembers sameFields, List.map_map, List.mem_map]
        constructor
        · rintro ⟨⟨name, field⟩, collected, rfl⟩
          exact Option.isSome_iff_exists.mpr ⟨field, (mem_collect_fields.mp collected).2⟩
        · intro some
          rcases Option.isSome_iff_exists.mp some with ⟨field, got⟩
          exact ⟨(slot, field), mem_collect_fields.mpr ⟨inside, got⟩, rfl⟩
      have missing : Value.str slot ∈
            ((collect keyMap request response).absent.insertionSort (· ≤ ·)).map .str ↔
          (slotField keyMap request response slot).isNone = true := by
        rw [List.mem_map]
        constructor
        · rintro ⟨other, listed, same⟩
          cases same
          rw [List.mem_insertionSort, collect_absent, List.mem_filter] at listed
          exact listed.2
        · intro none
          refine ⟨slot, ?_, rfl⟩
          rw [List.mem_insertionSort, collect_absent, List.mem_filter]
          exact ⟨inside, none⟩
      rw [named, missing]
      cases slotField keyMap request response slot with
      | none => exact Or.inr ⟨rfl, Bool.false_ne_true⟩
      | some field => exact Or.inl ⟨rfl, Bool.false_ne_true⟩
    · intro slot found key first entry inside
      rcases field inside with ⟨other, there, same⟩
      rw [hit_eq, first] at there
      cases there
      exact same
    · intro slot found key absent first entry inside
      rcases field inside with ⟨other, there, same⟩
      rw [hit_eq, absent, first] at there
      cases there
      exact same
    · intro slot entry inside value valued
      rcases field inside with ⟨found, there, text, same, rfl⟩
      cases valued
      exact clean_of_sameShape same (clean_sanitize (wire_of_hit wireRequest wireResponse there))
    · intro grant inside name value valued
      have clean := cleanItems_iff.mp (cleanItems_of_sameItems sameGrants
        (clean_buildGrants wireRequest wireResponse)) grant inside
      cases grant with
      | dict members => exact clean_of_lookup clean valued
      | _ => cases valued

/-- A block that is built is truthful exactly when redaction dropped items of
the wired identifiers and audiences in step. -/
theorem authority_truthful_iff {quote : String → String} {request response : Option Metadata}
    {keyMap : Option KeyMap} {text : Value}
    (built : buildAuthorityBlock quote (request.map Metadata.members)
      (response.map Metadata.members) keyMap = .ok text) :
    ∃ fields grants absent, Lists text fields grants absent ∧
      (Truthful (keyMapOf keyMap) (membersOf request) (membersOf response) fields grants absent ↔
        Alignment.InStep
          (wired (keyMapOf keyMap) (membersOf request) (membersOf response) "idjag_jti")
          (wired (keyMapOf keyMap) (membersOf request) (membersOf response) "idjag_aud")) := by
  rcases parts_of_block built with ⟨fields, grants, lists, sameFields, sameGrants⟩
  exact ⟨fields, grants, _, lists, truthful_iff (wireMembers_membersOf request)
    (wireMembers_membersOf response) sameFields sameGrants⟩

/-! ### Grants that lose an item -/

/-- Two grants behind one call; the identifier of the first is a token. -/
def leakedGrant : Metadata where
  members := [("idjag_jti", .list [.str "eyJh.eyJz.c2ln", .str "jag-2"]),
    ("idjag_aud", .list [.str "https://a.example", .str "https://b.example"])]
  wire := ⟨⟨trivial, trivial, trivial⟩, ⟨trivial, trivial, trivial⟩, trivial⟩

/-- The block of a call whose metadata came with the response. -/
theorem authority_leaked : ∃ text,
    buildAuthorityBlock id none (some leakedGrant.members) none = .ok text ∧
      member "grants" text = some (.list [.dict [("jti", .str "jag-2"),
        ("aud", .str "https://a.example")], .dict [("aud", .str "https://b.example")]]) ∧
      ∀ fields grants absent, Lists text fields grants absent →
        ¬ Truthful defaultKeyMap [] leakedGrant.members fields grants absent := by
  refine ⟨_, rfl, rfl, ?_⟩
  intro fields grants absent lists truthful
  cases Option.some.inj lists.2.1
  exact absurd (map_names_of_sameItems truthful.aligned) (by decide)

/-- One grant with its identifier and its audience. -/
def singleGrant : Metadata where
  members := [("idjag_jti", .str "jag-1"), ("idjag_aud", .str "https://a.example")]
  wire := ⟨trivial, trivial, trivial⟩

theorem authority_truthful_single : ∃ text fields grants absent,
    buildAuthorityBlock id none (some singleGrant.members) none = .ok text ∧
      Lists text fields grants absent ∧
      Truthful defaultKeyMap [] singleGrant.members fields grants absent := by
  have built : buildAuthorityBlock id ((none : Option Metadata).map Metadata.members)
      ((some singleGrant).map Metadata.members) none = .ok _ := rfl
  rcases authority_truthful_iff built with ⟨fields, grants, absent, lists, iff⟩
  exact ⟨_, fields, grants, absent, rfl, lists, iff.mpr trivial⟩

end Authority
end Gateway
end CapsuleEmit
