import CapsuleEmit.Foundation.OrderedMap
import CapsuleEmit.Foundation.Tables
import CapsuleEmit.Produce.Model

namespace CapsuleEmit
namespace Produce

/-!
# Composing Capsules by slot

A composition is a Capsule that binds other Capsules to the slots `who`,
`can`, `did` and `audit`.  Its member references are written in the order of
the slots.  The Rust builder checks each member as it meets it, by slot and by
Capsule ID, and orders what its table by slot holds.  The Python slot form
keeps the Capsules in a list, remembers the slot of a Capsule under its ID, and
orders the list by the slots it remembers: nothing refuses a Capsule that comes
twice, nor a slot that does.
-/

/-- The closed composition slots, in canonical order. -/
inductive Slot where
  | who
  | can
  | did
  | audit
  deriving DecidableEq, Repr

namespace Slot

def name : Slot → String
  | who => "who"
  | can => "can"
  | did => "did"
  | audit => "audit"

/-- The place of a slot in the canonical order. -/
def rank : Slot → Nat
  | who => 0
  | can => 1
  | did => 2
  | audit => 3

theorem rank_injective : Function.Injective rank := by
  intro left right same
  cases left <;> cases right <;> first | rfl | cases same

theorem name_ne_empty (slot : Slot) : slot.name ≠ "" := by
  cases slot <;> decide

end Slot

def capsuleReferenceType : String := "capsule"
def digestAlgorithmSha256 : String := "SHA-256"

/-! ## Rust -/

namespace Rust

/-- An existing Capsule bound to one composition slot. -/
structure SlotMember where
  slot : Slot
  capsuleId : String
  json : Bytes

/-- What a verification found out. -/
structure VerificationResult where
  capsuleId : Option String

/-- The order in which a hash map gives up its values. -/
structure IterationOrder where
  values : List SlotMember → List SlotMember
  perm : ∀ members, (values members).Perm members

/-- The tables of a composition under construction. -/
structure Placed where
  bySlot : List (Slot × SlotMember)
  seenIds : List (String × Slot)

def Placed.none : Placed := ⟨[], []⟩

def Placed.add (placed : Placed) (member : SlotMember) : Placed :=
  ⟨placed.bySlot ++ [(member.slot, member)], placed.seenIds ++ [(member.capsuleId, member.slot)]⟩

section

variable (verifyCapsule : Bytes → Except String VerificationResult)

/-- The bytes of a member verify as the Capsule with its id. -/
def SlotMember.matches (member : SlotMember) : Bool :=
  match verifyCapsule member.json with
  | .ok verified => verified.capsuleId = some member.capsuleId
  | .error _ => false

/-- One turn of the loop over the members. -/
def placeMember (placed : Placed) (member : SlotMember) : Except String Placed := do
  ensure (placed.bySlot.lookup member.slot).isNone
    ("composition duplicates " ++ member.slot.name ++ " slot")
  ensure (isHex64 member.capsuleId)
    ("composition " ++ member.slot.name ++ " member has malformed Capsule ID")
  ensure (member.matches verifyCapsule)
    ("composition " ++ member.slot.name ++
      " member is not a matching verified format-4 Capsule")
  (placed.seenIds.lookup member.capsuleId).elim (.ok (placed.add member)) (fun prior =>
    .error ("composition " ++ member.slot.name ++ " slot duplicates Capsule ID " ++
      member.capsuleId ++ " from " ++ prior.name ++ " slot"))

/-- The reference to a member, as the Capsule holds it. -/
def memberReference (member : SlotMember) : Json :=
  .object (digestReferenceMap capsuleReferenceType digestAlgorithmSha256 member.capsuleId ++
    insertText "slot" member.slot.name)

/-- The references of a composition, or why there is none. -/
def composedMembers (order : IterationOrder) (members : List SlotMember) :
    Except String (List Json) := do
  ensure (!members.isEmpty) "composition requires at least one slot member"
  let placed ← members.foldlM (placeMember verifyCapsule) Placed.none
  .ok ((Tables.orderBy (fun member => member.slot.rank)
    (order.values (placed.bySlot.map Prod.snd))).map memberReference)

/-- Build a Capsule that binds existing Capsules into slots. -/
def buildComposition {β : Type} (buildWith : Input → List Json → Except String β)
    (order : IterationOrder) (input : Input) (members : List SlotMember) : Except String β := do
  let references ← composedMembers verifyCapsule order members
  buildWith input references

end

/-! ## What the Rust loop admits -/

section

variable {verifyCapsule : Bytes → Except String VerificationResult}

/-- A member that is a matching verified Capsule. -/
def SlotMember.Sound (verifyCapsule : Bytes → Except String VerificationResult)
    (member : SlotMember) : Prop :=
  isHex64 member.capsuleId = true ∧ member.matches verifyCapsule = true

def Placed.slots (placed : Placed) : List Slot := placed.bySlot.map Prod.fst

def Placed.ids (placed : Placed) : List String := placed.seenIds.map Prod.fst

theorem lookup_isNone_iff {α β : Type} [DecidableEq α] {key : α} {entries : List (α × β)} :
    (entries.lookup key).isNone = true ↔ key ∉ entries.map Prod.fst := by
  rw [Option.isNone_iff_eq_none, List.lookup_eq_none_iff]
  aesop

theorem placeMember_eq_ok_iff {placed placed' : Placed} {member : SlotMember} :
    placeMember verifyCapsule placed member = .ok placed' ↔
      (member.Sound verifyCapsule ∧ member.slot ∉ placed.slots ∧
        member.capsuleId ∉ placed.ids) ∧ placed.add member = placed' := by
  simp only [placeMember, bind_eq_ok_iff, ensure_eq_ok_iff, exists_const, SlotMember.Sound,
    Placed.slots, Placed.ids, lookup_isNone_iff]
  cases found : placed.seenIds.lookup member.capsuleId with
  | none =>
      have fresh : member.capsuleId ∉ placed.seenIds.map Prod.fst := by
        rw [← lookup_isNone_iff, found]
        rfl
      simp only [Option.elim_none, Except.ok.injEq]
      tauto
  | some prior =>
      have taken : ¬ member.capsuleId ∉ placed.seenIds.map Prod.fst := by
        rw [← lookup_isNone_iff, found]
        exact Bool.false_ne_true
      simp only [Option.elim_some, reduceCtorEq]
      tauto

/-- The tables after all members were placed. -/
def Placed.addAll (placed : Placed) (members : List SlotMember) : Placed :=
  ⟨placed.bySlot ++ members.map (fun member => (member.slot, member)),
    placed.seenIds ++ members.map (fun member => (member.capsuleId, member.slot))⟩

/-- The loop runs through exactly when every member is sound and no slot and no
Capsule ID is there twice. -/
theorem placeMembers_eq_ok_iff {members : List SlotMember} {placed placed' : Placed}
    (slotsOnce : placed.slots.Nodup) (idsOnce : placed.ids.Nodup) :
    members.foldlM (placeMember verifyCapsule) placed = .ok placed' ↔
      ((∀ member ∈ members, member.Sound verifyCapsule) ∧
        (placed.slots ++ members.map SlotMember.slot).Nodup ∧
        (placed.ids ++ members.map SlotMember.capsuleId).Nodup) ∧
      placed.addAll members = placed' := by
  induction members generalizing placed with
  | nil =>
      simp [Placed.addAll, slotsOnce, idsOnce]
  | cons member members ih =>
      rw [List.foldlM_cons, bind_eq_ok_iff]
      simp only [placeMember_eq_ok_iff, List.map_cons, List.forall_mem_cons]
      have slotsMore : (placed.add member).slots = placed.slots ++ [member.slot] := by
        simp [Placed.slots, Placed.add]
      have idsMore : (placed.add member).ids = placed.ids ++ [member.capsuleId] := by
        simp [Placed.ids, Placed.add]
      have slotsStill (fresh : member.slot ∉ placed.slots) : (placed.add member).slots.Nodup := by
        rw [slotsMore, ← List.concat_eq_append]
        exact slotsOnce.concat fresh
      have idsStill (fresh : member.capsuleId ∉ placed.ids) : (placed.add member).ids.Nodup := by
        rw [idsMore, ← List.concat_eq_append]
        exact idsOnce.concat fresh
      have same : (placed.add member).addAll members = placed.addAll (member :: members) := by
        simp [Placed.addAll, Placed.add]
      constructor
      · rintro ⟨next, ⟨⟨sound, freshSlot, freshId⟩, rfl⟩, rest⟩
        rw [ih (slotsStill freshSlot) (idsStill freshId),
          slotsMore, idsMore, List.append_assoc, List.append_assoc, same] at rest
        exact ⟨⟨⟨sound, rest.1.1⟩, rest.1.2.1, rest.1.2.2⟩, rest.2⟩
      · rintro ⟨⟨⟨sound, others⟩, slots, ids⟩, done⟩
        have freshSlot : member.slot ∉ placed.slots := fun inside =>
          (List.nodup_append.mp slots).2.2 _ inside _ List.mem_cons_self rfl
        have freshId : member.capsuleId ∉ placed.ids := fun inside =>
          (List.nodup_append.mp ids).2.2 _ inside _ List.mem_cons_self rfl
        refine ⟨placed.add member, ⟨⟨sound, freshSlot, freshId⟩, rfl⟩, ?_⟩
        rw [ih (slotsStill freshSlot) (idsStill freshId),
          slotsMore, idsMore, List.append_assoc, List.append_assoc, same]
        exact ⟨⟨others, slots, ids⟩, done⟩

/-- The builder takes sound members of distinct slots and Capsule IDs, and
writes their references in the order of the slots. -/
theorem composedMembers_eq_ok_iff {order : IterationOrder} {members : List SlotMember}
    {references : List Json} :
    composedMembers verifyCapsule order members = .ok references ↔
      (members ≠ [] ∧ (∀ member ∈ members, member.Sound verifyCapsule) ∧
        (members.map SlotMember.slot).Nodup ∧ (members.map SlotMember.capsuleId).Nodup) ∧
      (Tables.orderBy (fun member => member.slot.rank) members).map memberReference =
        references := by
  have ordered (slots : (members.map SlotMember.slot).Nodup) :
      Tables.orderBy (fun member => member.slot.rank) (order.values members) =
        Tables.orderBy (fun member => member.slot.rank) members := by
    apply Tables.orderBy_eq_of_perm
      ((order.perm members).trans (Tables.perm_orderBy _ members).symm)
    apply Tables.pairwise_orderBy_lt
    have distinct := slots.map Slot.rank_injective
    rwa [List.map_map] at distinct
  have values : (Placed.none.addAll members).bySlot.map Prod.snd = members := by
    simp [Placed.none, Placed.addAll, Function.comp_def]
  have slotsOnce : Placed.none.slots.Nodup := List.nodup_nil
  have idsOnce : Placed.none.ids.Nodup := List.nodup_nil
  rw [composedMembers, bind_eq_ok_iff]
  simp only [ensure_eq_ok_iff, exists_const, bind_eq_ok_iff, Bool.not_eq_true',
    List.isEmpty_eq_false_iff, Except.ok.injEq, placeMembers_eq_ok_iff slotsOnce idsOnce]
  constructor
  · rintro ⟨nonempty, placed, ⟨⟨sound, slots, ids⟩, rfl⟩, same⟩
    rw [values, ordered slots] at same
    exact ⟨⟨nonempty, sound, slots, ids⟩, same⟩
  · rintro ⟨⟨nonempty, sound, slots, ids⟩, same⟩
    refine ⟨nonempty, _, ⟨⟨sound, slots, ids⟩, rfl⟩, ?_⟩
    rw [values, ordered slots]
    exact same

end

end Rust

/-! ## Python -/

namespace Python

/-- A sealed Capsule as the surface hands it out. -/
structure EmitResult where
  capsuleId : String

/-- What a slot wrapper holds: a Capsule, or a payload to mint one from. -/
inductive SlotValue where
  | capsule (result : EmitResult)
  | payload (value : Json)

/-- A value tagged with its slot. -/
structure SlotMember where
  slot : Slot
  value : SlotValue

section

variable (emitCapsule : String → Json → Except String EmitResult)

/-- The Capsule of a slot wrapper: one that is there as it is, a payload minted
with its slot as the action. -/
def resolveSlotMember (member : SlotMember) : Except String EmitResult :=
  match member.value with
  | .capsule result => .ok result
  | .payload value => emitCapsule member.slot.name value

/-- The reference to a member; its slot is what the table says of its id. -/
def memberRef (slots : List (String × Slot)) (capsule : EmitResult) : Json :=
  .object (digestReferenceMap capsuleReferenceType digestAlgorithmSha256 capsule.capsuleId ++
    insertBlock "slot" (fun slot : Slot => .ofString slot.name) (slots.lookup capsule.capsuleId))

/-- The references of a flat composition. -/
def compose (slots : List (String × Slot)) (members : List EmitResult) :
    Except String (List Json) := do
  ensure (!members.isEmpty) "composition requires at least one member"
  .ok (members.map (memberRef slots))

/-- The slot a Capsule is remembered under, as its place in the order.  Every
Capsule of the list was entered, so the last value is never used. -/
def placeOf (slots : List (String × Slot)) (capsule : EmitResult) : Nat :=
  ((slots.lookup capsule.capsuleId).map Slot.rank).getD 0

/-- The references of the slot form: the Capsules in the order of the slots
remembered under their ids. -/
def composedMembers (members : List SlotMember) : Except String (List Json) := do
  let resolved ← members.mapM (resolveSlotMember emitCapsule)
  let slots := OrderedMap.insertAll
    (List.zipWith (fun capsule member => (capsule.capsuleId, member.slot)) resolved members) []
  compose slots (Tables.orderBy (placeOf slots) resolved)

/-- The options of a seal that the slot form reads. -/
structure SealOptions where
  references : Option (List Json)
  extraCompute : Payload

/-- The slot form of a seal.  The references and the extra members of the
outer call go to the composition. -/
def sealSlots {β : Type} (emit : String → SealOptions → Except String β) (options : SealOptions)
    (members : List SlotMember) : Except String β := do
  let refs ← composedMembers emitCapsule members
  emit "compose" ⟨options.references,
    OrderedMap.insert (utf8 "composed_members") (.array refs) options.extraCompute⟩

end

/-! ## What the Python slot form writes -/

section

variable {emitCapsule : String → Json → Except String EmitResult}

def holding (member : Slot × String) : SlotMember := ⟨member.1, .capsule ⟨member.2⟩⟩

theorem resolve_holding (members : List (Slot × String)) :
    (members.map holding).mapM (resolveSlotMember emitCapsule) =
      .ok (members.map (fun member => ⟨member.2⟩)) := by
  induction members with
  | nil => rfl
  | cons member members ih =>
      rw [List.map_cons, List.mapM_cons, ih]
      rfl

/-- The slot remembered for each Capsule ID. -/
def remembered (members : List (Slot × String)) : List (String × Slot) :=
  OrderedMap.insertAll (members.map Prod.swap) []

/-- Whatever comes twice, a nonempty list of Capsules is taken. -/
theorem composedMembers_holding {members : List (Slot × String)} (nonempty : members ≠ []) :
    composedMembers emitCapsule (members.map holding) =
      .ok ((Tables.orderBy (placeOf (remembered members))
        (members.map (fun member => ⟨member.2⟩))).map (memberRef (remembered members))) := by
  have entered : List.zipWith
      (fun (capsule : EmitResult) (member : SlotMember) => (capsule.capsuleId, member.slot))
      (members.map (fun member => (⟨member.2⟩ : EmitResult))) (members.map holding) =
        members.map Prod.swap := by
    rw [List.zipWith_map, List.zipWith_self]
    rfl
  have filled : (Tables.orderBy (placeOf (remembered members))
      (members.map (fun member => (⟨member.2⟩ : EmitResult)))).isEmpty = false := by
    rw [List.isEmpty_eq_false_iff]
    intro empty
    have perm := Tables.perm_orderBy (placeOf (remembered members))
      (members.map (fun member => (⟨member.2⟩ : EmitResult)))
    rw [empty, List.nil_perm, List.map_eq_nil_iff] at perm
    exact nonempty perm
  rw [composedMembers, resolve_holding, ok_bind, entered]
  change compose (remembered members) (Tables.orderBy (placeOf (remembered members)) _) = _
  rw [compose, filled]
  rfl

/-- The reference to a Capsule in its slot. -/
def slotReference (member : Slot × String) : Json :=
  .object (digestReferenceMap capsuleReferenceType digestAlgorithmSha256 member.2 ++
    [text "slot" member.1.name])

/-- Distinct Capsules are written in the order of their own slots. -/
theorem composedMembers_of_nodup {members : List (Slot × String)} (nonempty : members ≠ [])
    (idsOnce : (members.map Prod.snd).Nodup) :
    composedMembers emitCapsule (members.map holding) =
      .ok ((Tables.orderBy (fun member => member.1.rank) members).map slotReference) := by
  have swapped : (members.map Prod.swap).map Prod.fst = members.map Prod.snd := by
    rw [List.map_map]
    rfl
  have table : remembered members = members.map Prod.swap := by
    rw [remembered, OrderedMap.insertAll_of_fresh] <;> rw [List.nil_append]
    rwa [swapped]
  have found (member) (inside : member ∈ members) :
      (remembered members).lookup member.2 = some member.1 := by
    rw [table]
    exact OrderedMap.lookup_of_mem (swapped ▸ idsOnce) (List.mem_map_of_mem (f := Prod.swap) inside)
  have place (member) (inside : member ∈ members) :
      placeOf (remembered members) ⟨member.2⟩ = member.1.rank := by
    rw [placeOf, found member inside]
    rfl
  rw [composedMembers_holding nonempty, Tables.orderBy_map place, List.map_map]
  congr 1
  apply List.map_congr_left
  intro member inside
  have own := found member ((Tables.perm_orderBy _ members).mem_iff.mp inside)
  rw [Function.comp_apply, memberRef, own]
  rfl

end

end Python

/-! ## Agreement -/

section

open Rust (VerificationResult IterationOrder)

/-- A sealed Capsule that verifies under its own id. -/
structure Sealed (verifyCapsule : Bytes → Except String VerificationResult) where
  capsuleId : String
  payload : Bytes
  hex : isHex64 capsuleId = true
  verifies : ∃ verified, verifyCapsule payload = .ok verified ∧
    verified.capsuleId = some capsuleId

variable {verifyCapsule : Bytes → Except String VerificationResult}

abbrev Placement (verifyCapsule : Bytes → Except String VerificationResult) :=
  Slot × Sealed verifyCapsule

/-- A placed Capsule as the Rust wrappers make it. -/
def rustMember (placement : Placement verifyCapsule) : Rust.SlotMember :=
  ⟨placement.1, placement.2.capsuleId, placement.2.payload⟩

/-- A placed Capsule as the Python wrappers make it. -/
def pythonMember (placement : Placement verifyCapsule) : Python.SlotMember :=
  ⟨placement.1, .capsule ⟨placement.2.capsuleId⟩⟩

/-- The entry a placed Capsule should have. -/
def composedMember (placement : Placement verifyCapsule) : Json :=
  Python.slotReference (placement.1, placement.2.capsuleId)

variable (emitCapsule : String → Json → Except String Python.EmitResult)

def pythonComposition (placements : List (Placement verifyCapsule)) : Except String (List Json) :=
  Python.composedMembers emitCapsule (placements.map pythonMember)

def rustComposition (order : IterationOrder) (placements : List (Placement verifyCapsule)) :
    Except String (List Json) :=
  Rust.composedMembers verifyCapsule order (placements.map rustMember)

/-- No slot and no Capsule ID is there twice. -/
def Distinct (placements : List (Placement verifyCapsule)) : Prop :=
  (placements.map Prod.fst).Nodup ∧ (placements.map (fun p => p.2.capsuleId)).Nodup

/-- The two sides of a slot composition agree on a list of placed Capsules. -/
structure Agrees (placements : List (Placement verifyCapsule)) : Prop where
  accepted : ∀ order, succeeds (pythonComposition emitCapsule placements) = true ↔
    succeeds (rustComposition order placements) = true
  distinct : ∀ order, succeeds (rustComposition order placements) = true ↔ Distinct placements
  members : ∀ order references, rustComposition order placements = .ok references →
    pythonComposition emitCapsule placements = .ok references ∧
      ∃ ordered : List (Placement verifyCapsule), ordered.Perm placements ∧
        ordered.Pairwise (fun left right => left.1.rank < right.1.rank) ∧
        references = ordered.map composedMember
  unordered : ∀ permuted : List (Placement verifyCapsule), permuted.Perm placements →
    (pythonComposition emitCapsule permuted).toOption =
        (pythonComposition emitCapsule placements).toOption ∧
      ∀ order order', (rustComposition order permuted).toOption =
        (rustComposition order' placements).toOption

theorem rustMember_sound (placement : Placement verifyCapsule) :
    (rustMember placement).Sound verifyCapsule := by
  rcases placement.2.verifies with ⟨verified, checked, same⟩
  refine ⟨placement.2.hex, ?_⟩
  simp only [Rust.SlotMember.matches, rustMember, checked, same, decide_true]

theorem rustComposition_eq_ok_iff {order : IterationOrder}
    {placements : List (Placement verifyCapsule)} {references : List Json} :
    rustComposition order placements = .ok references ↔
      (placements ≠ [] ∧ Distinct placements) ∧
      (Tables.orderBy (fun placement => placement.1.rank) placements).map composedMember =
        references := by
  have sound : ∀ member ∈ placements.map rustMember, member.Sound verifyCapsule := by
    intro member inside
    rcases List.mem_map.mp inside with ⟨placement, -, rfl⟩
    exact rustMember_sound placement
  have written : (Tables.orderBy (fun member => member.slot.rank)
      (placements.map rustMember)).map Rust.memberReference =
        (Tables.orderBy (fun placement => placement.1.rank) placements).map composedMember := by
    have ordered : Tables.orderBy (fun member : Rust.SlotMember => member.slot.rank)
        (placements.map rustMember) =
          (Tables.orderBy (fun placement => placement.1.rank) placements).map rustMember :=
      Tables.orderBy_map (fun _ _ => rfl)
    rw [ordered, List.map_map]
    apply List.map_congr_left
    intro placement _
    change Rust.memberReference (rustMember placement) = composedMember placement
    rw [Rust.memberReference, insertText, if_neg (Slot.name_ne_empty _)]
    rfl
  rw [rustComposition, Rust.composedMembers_eq_ok_iff, written, List.map_map, List.map_map]
  simp only [ne_eq, List.map_eq_nil_iff, Distinct]
  constructor
  · rintro ⟨⟨nonempty, -, slots, ids⟩, same⟩
    exact ⟨⟨nonempty, slots, ids⟩, same⟩
  · rintro ⟨⟨nonempty, slots, ids⟩, same⟩
    exact ⟨⟨nonempty, sound, slots, ids⟩, same⟩

/-- The slot and the Capsule ID of a placed Capsule. -/
def slotAndId (placement : Placement verifyCapsule) : Slot × String :=
  (placement.1, placement.2.capsuleId)

theorem pythonComposition_eq (placements : List (Placement verifyCapsule)) :
    pythonComposition emitCapsule placements =
      Python.composedMembers emitCapsule ((placements.map slotAndId).map Python.holding) := by
  rw [List.map_map]
  rfl

theorem pythonComposition_succeeds {placements : List (Placement verifyCapsule)}
    (nonempty : placements ≠ []) :
    succeeds (pythonComposition emitCapsule placements) = true := by
  rw [pythonComposition_eq, Python.composedMembers_holding (by simpa using nonempty)]
  rfl

theorem pythonComposition_of_distinct {placements : List (Placement verifyCapsule)}
    (nonempty : placements ≠ []) (distinct : Distinct placements) :
    pythonComposition emitCapsule placements =
      .ok ((Tables.orderBy (fun placement => placement.1.rank) placements).map
        composedMember) := by
  have idsOnce : ((placements.map slotAndId).map Prod.snd).Nodup := by
    rw [List.map_map]
    exact distinct.2
  have ordered : Tables.orderBy (fun member : Slot × String => member.1.rank)
      (placements.map slotAndId) =
        (Tables.orderBy (fun placement => placement.1.rank) placements).map slotAndId :=
    Tables.orderBy_map (fun _ _ => rfl)
  rw [pythonComposition_eq, Python.composedMembers_of_nodup (by simpa using nonempty) idsOnce,
    ordered, List.map_map]
  rfl

theorem Distinct.perm {placements permuted : List (Placement verifyCapsule)}
    (perm : permuted.Perm placements) : Distinct permuted ↔ Distinct placements :=
  and_congr (perm.map Prod.fst).nodup_iff (perm.map (fun p => p.2.capsuleId)).nodup_iff

/-- Placed Capsules of distinct slots have one order. -/
theorem orderBy_perm {placements permuted : List (Placement verifyCapsule)}
    (perm : permuted.Perm placements) (distinct : Distinct placements) :
    Tables.orderBy (fun placement => placement.1.rank) permuted =
      Tables.orderBy (fun placement => placement.1.rank) placements := by
  apply Tables.orderBy_eq_of_perm (perm.trans (Tables.perm_orderBy _ placements).symm)
  apply Tables.pairwise_orderBy_lt
  have apart := distinct.1.map Slot.rank_injective
  rwa [List.map_map] at apart

theorem rustComposition_perm {placements permuted : List (Placement verifyCapsule)}
    (perm : permuted.Perm placements) (order order' : IterationOrder) :
    (rustComposition order permuted).toOption = (rustComposition order' placements).toOption := by
  have same : ∀ references, rustComposition order permuted = .ok references ↔
      rustComposition order' placements = .ok references := by
    intro references
    have empty : permuted = [] ↔ placements = [] := by
      rw [← List.length_eq_zero_iff, ← List.length_eq_zero_iff, perm.length_eq]
    rw [rustComposition_eq_ok_iff, rustComposition_eq_ok_iff, Distinct.perm perm, ne_eq, empty]
    apply and_congr_right
    intro accepted
    rw [orderBy_perm perm accepted.2]
  cases left : rustComposition order permuted with
  | ok references => rw [(same references).mp left]
  | error message =>
      cases right : rustComposition order' placements with
      | error message' => rfl
      | ok references => rw [(same references).mpr right] at left; cases left

/-- The Python slot form and the Rust builder agree on a list exactly when no
slot and no Capsule is there twice. -/
theorem composition_agrees_iff {placements : List (Placement verifyCapsule)}
    (nonempty : placements ≠ []) : Agrees emitCapsule placements ↔ Distinct placements := by
  have accepts : ∀ order, succeeds (rustComposition order placements) = true ↔
      Distinct placements := by
    intro order
    rw [succeeds_iff]
    simp only [rustComposition_eq_ok_iff, exists_and_left, exists_eq', and_true, nonempty, ne_eq,
      not_false_eq_true, true_and]
  have taken := pythonComposition_succeeds emitCapsule nonempty
  constructor
  · intro agrees
    have order : IterationOrder := ⟨id, List.Perm.refl⟩
    exact (accepts order).mp ((agrees.accepted order).mp taken)
  · intro distinct
    have written := pythonComposition_of_distinct emitCapsule nonempty distinct
    refine ⟨fun order => ?_, accepts, ?_, ?_⟩
    · rw [taken, (accepts order).mpr distinct]
    · intro order references built
      rw [rustComposition_eq_ok_iff] at built
      refine ⟨by rw [written, built.2], _, Tables.perm_orderBy _ placements,
        Tables.pairwise_orderBy_lt ?_, built.2.symm⟩
      have apart := distinct.1.map Slot.rank_injective
      rwa [List.map_map] at apart
    · intro permuted perm
      refine ⟨?_, fun order order' => rustComposition_perm perm order order'⟩
      have filled : permuted ≠ [] := fun empty =>
        nonempty (List.nil_perm.mp (empty ▸ perm))
      rw [pythonComposition_of_distinct emitCapsule filled ((Distinct.perm perm).mpr distinct),
        written, orderBy_perm perm distinct]

end

/-! ### A Capsule in two slots -/

/-- A verification that knows one Capsule by its bytes. -/
def knownCapsule (json : Bytes) : Except String Rust.VerificationResult :=
  if json = [123, 125] then .ok ⟨some (String.ofList (List.replicate 64 'a'))⟩
  else .error "not an object"

def sealedOnce : Sealed knownCapsule where
  capsuleId := String.ofList (List.replicate 64 'a')
  payload := [123, 125]
  hex := by decide
  verifies := ⟨_, rfl, rfl⟩

def noMint (_ : String) (_ : Json) : Except String Python.EmitResult :=
  .error "no payload is minted here"

theorem composition_agrees_single :
    [(Slot.did, sealedOnce)] ≠ [] ∧ Distinct [(Slot.did, sealedOnce)] ∧
      Agrees noMint [(Slot.did, sealedOnce)] := by
  have distinct : Distinct [(Slot.did, sealedOnce)] := ⟨List.nodup_singleton _, List.nodup_singleton _⟩
  exact ⟨List.cons_ne_nil _ _, distinct,
    (composition_agrees_iff noMint (List.cons_ne_nil _ _)).mpr distinct⟩

/-- Python takes a Capsule that is given as `who` and as `can`, and writes both
entries with the slot that came last; Rust refuses the list. -/
theorem composition_repeated :
    (pythonComposition noMint [(Slot.who, sealedOnce), (Slot.can, sealedOnce)]).toOption =
        some [composedMember (Slot.can, sealedOnce), composedMember (Slot.can, sealedOnce)] ∧
      ¬ Agrees noMint [(Slot.who, sealedOnce), (Slot.can, sealedOnce)] := by
  refine ⟨rfl, fun agrees => ?_⟩
  have taken : succeeds (pythonComposition noMint
      [(Slot.who, sealedOnce), (Slot.can, sealedOnce)]) = true :=
    pythonComposition_succeeds noMint (List.cons_ne_nil _ _)
  have order : Rust.IterationOrder := ⟨id, List.Perm.refl⟩
  have distinct := (agrees.distinct order).mp ((agrees.accepted order).mp taken)
  exact (List.nodup_cons.mp distinct.2).1 (List.mem_singleton_self _)
end Produce
end CapsuleEmit
