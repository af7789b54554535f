import CapsuleEmit.Produce.Canonical

namespace CapsuleEmit
namespace Produce

/-!
# The shape of an assembled Capsule

Everything a producer assembles from texts is text, holds no number and nests
at most two levels.  What goes deeper, or holds a number, is the coordinates
of a reference and the value of an extension.
-/

/-- A member made of texts, nested at most the given number of levels. -/
def Simple (levels : Nat) (member : Bytes × Json) : Prop :=
  (utf8? member.1).isSome = true ∧ member.2.textual = true ∧ member.2.nesting ≤ levels ∧
    ∀ p, member.2.everyNumber p = true

theorem Simple.mono {levels more : Nat} {member : Bytes × Json} (simple : Simple levels member)
    (le : levels ≤ more) : Simple more member :=
  ⟨simple.1, simple.2.1, Nat.le_trans simple.2.2.1 le, simple.2.2.2⟩

theorem utf8?_isSome (name : String) : (utf8? (utf8 name)).isSome = true := by simp

theorem simple_text (name value : String) : Simple 0 (text name value) :=
  ⟨utf8?_isSome name, utf8?_isSome value, Nat.le_refl 0, fun _ => rfl⟩

/-- An object of simple members is simple one level further out. -/
theorem simple_object {levels : Nat} {members : Payload} (name : String)
    (simple : ∀ m ∈ members, Simple levels m) :
    Simple (levels + 1) (member name (.object members)) :=
  ⟨utf8?_isSome name, Json.textualMembers_iff.mpr (fun m inside => ⟨(simple m inside).1,
      (simple m inside).2.1⟩),
    Nat.succ_le_succ (Json.nestingMembers_le_iff.mpr (fun m inside => (simple m inside).2.2.1)),
    fun _ => Json.everyNumberMembers_iff.mpr (fun m inside => (simple m inside).2.2.2 _)⟩

/-! ## Blocks -/

/-- All members of a list are simple. -/
def AllSimple (levels : Nat) (members : Payload) : Prop := ∀ m ∈ members, Simple levels m

theorem allSimple_nil (levels : Nat) : AllSimple levels [] := nofun

theorem allSimple_cons {levels : Nat} {m : Bytes × Json} {members : Payload} :
    AllSimple levels (m :: members) ↔ Simple levels m ∧ AllSimple levels members :=
  List.forall_mem_cons

theorem allSimple_append {levels : Nat} {left right : Payload} :
    AllSimple levels (left ++ right) ↔ AllSimple levels left ∧ AllSimple levels right :=
  List.forall_mem_append

theorem AllSimple.mono {levels more : Nat} {members : Payload} (simple : AllSimple levels members)
    (le : levels ≤ more) : AllSimple more members := fun m inside => (simple m inside).mono le

theorem allSimple_insertText (levels : Nat) (name value : String) :
    AllSimple levels (insertText name value) := by
  unfold insertText
  split
  · exact allSimple_nil levels
  · exact allSimple_cons.mpr ⟨(simple_text name value).mono (Nat.zero_le _), allSimple_nil levels⟩

theorem allSimple_insertBlock {α : Type} {levels : Nat} {name : String} {render : α → Json}
    {block : Option α} (simple : ∀ value, Simple levels (member name (render value))) :
    AllSimple levels (insertBlock name render block) := by
  cases block with
  | none => exact allSimple_nil levels
  | some value => exact allSimple_cons.mpr ⟨simple value, allSimple_nil levels⟩

theorem allSimple_nonempty {levels : Nat} {name : String} {members : Payload}
    (simple : AllSimple levels members) : AllSimple (levels + 1) (nonempty name members) := by
  unfold nonempty
  split
  · exact allSimple_nil _
  · exact allSimple_cons.mpr ⟨simple_object name simple, allSimple_nil _⟩

theorem allSimple_texts (levels : Nat) (texts : List (String × String)) :
    AllSimple levels (texts.map (fun t => text t.1 t.2)) := by
  intro m inside
  rcases List.mem_map.mp inside with ⟨t, -, rfl⟩
  exact (simple_text t.1 t.2).mono (Nat.zero_le _)

theorem simple_assurance (effect : Option Effect) (chain : Option Chain) :
    Simple 1 (member "assurance" (assurance effect chain)) :=
  simple_object _ (allSimple_texts 0 [("effect_mode", _), ("attestation_mode", _),
    ("ledger_mode", _)])

theorem simple_provenanceModeMap (mode : ProvenanceMode) :
    Simple 2 (member "provenance_mode" (provenanceModeMap mode)) := by
  apply simple_object
  change AllSimple 1 _
  simp only [allSimple_append, allSimple_insertText, and_true]
  refine ⟨allSimple_texts 1 [("mode", _)], allSimple_insertBlock fun source => ?_⟩
  exact simple_object _ (allSimple_texts 0 [("type", _), ("digest_alg", _), ("digest", _)])

theorem simple_dispositionMap (disposition : Disposition) :
    Simple 1 (member "disposition" (dispositionMap disposition)) := by
  apply simple_object
  change AllSimple 0 _
  simp only [allSimple_append, allSimple_insertText, and_true, allSimple_cons]
  exact ⟨simple_text _ _, simple_text _ _,
    ⟨utf8?_isSome _, rfl, Nat.le_refl 0, fun _ => rfl⟩, allSimple_nil 0⟩

theorem simple_effectMap (effect : Effect) : Simple 1 (member "effect" (effectMap effect)) := by
  apply simple_object
  change AllSimple 0 _
  simp only [allSimple_append, allSimple_insertText, and_true]
  exact allSimple_texts 0 [("type", _), ("status", _), ("irreversibility_class", _)]

theorem simple_chainMap (chain : Chain) : Simple 1 (member "chain" (chainMap chain)) :=
  simple_object _ (allSimple_texts 0 [("parent_capsule_id", _), ("relation", _)])

theorem allSimple_modelAttestation (model : Option Model) (compute : Option ComputeAttestation) :
    AllSimple 1 (modelAttestation model compute) := by
  apply allSimple_append.mpr
  constructor
  · cases model with
    | none => exact allSimple_nil 1
    | some model =>
        exact allSimple_append.mpr ⟨allSimple_insertText 1 _ _, allSimple_insertText 1 _ _⟩
  · apply allSimple_nonempty
    cases compute with
    | none => exact allSimple_nil 0
    | some compute =>
        simp only [computeAttestationMap, allSimple_append, allSimple_insertText, and_self]

/-- Everything but the references. -/
theorem assemble_split (input : Input) (timestamp : String) : ∃ front, AllSimple 2 front ∧
    ∀ references, assemble input timestamp references =
      front ++ insertBlock "references" Json.array references := by
  refine ⟨_, ?_, fun references => rfl⟩
  simp only [allSimple_append, allSimple_insertText, allSimple_cons, and_true]
  have texts := fun name value => (simple_text name value).mono (Nat.zero_le 2)
  refine ⟨⟨⟨⟨⟨⟨texts _ _, texts _ _, texts _ _, texts _ _, texts _ _, texts _ _, texts _ _,
    texts _ _, (simple_assurance _ _).mono (by decide), allSimple_nil 2⟩, ?_⟩, ?_⟩, ?_⟩, ?_⟩, ?_⟩
  · exact allSimple_insertBlock simple_provenanceModeMap
  · exact allSimple_insertBlock fun d => (simple_dispositionMap d).mono (by decide)
  · exact allSimple_insertBlock fun e => (simple_effectMap e).mono (by decide)
  · exact allSimple_insertBlock fun c => (simple_chainMap c).mono (by decide)
  · exact allSimple_nonempty (allSimple_modelAttestation _ _)

/-! ## References and extensions -/

theorem referenceMap_split (reference : Reference) : ∃ front, AllSimple 0 front ∧
    ∀ coordinates, referenceMap reference coordinates =
      .object (front ++ insertBlock "log_coordinates" id coordinates) := by
  refine ⟨_, ?_, fun coordinates => rfl⟩
  exact allSimple_append.mpr ⟨allSimple_texts 0 [("type", _), ("digest_alg", _), ("digest", _)],
    allSimple_insertText 0 _ _⟩

section

variable {P : Json → Prop}

/-- A condition that every simple member meets holds of a reference exactly when
it holds of the coordinates. -/
theorem forall_referenceMap (front : Payload) (simple : ∀ m ∈ front, P m.2)
    (coordinates : Option Json) :
    (∀ m ∈ front ++ insertBlock "log_coordinates" id coordinates, P m.2) ↔
      ∀ tree ∈ coordinates, P tree := by
  rw [List.forall_mem_append]
  constructor
  · rintro ⟨-, block⟩ tree inside
    cases inside
    exact block _ List.mem_cons_self
  · intro all
    refine ⟨simple, ?_⟩
    cases coordinates with
    | none => exact nofun
    | some tree =>
        intro m inside
        rw [List.mem_singleton.mp inside]
        exact all tree rfl

end

theorem nesting_referenceMap_le_iff {reference : Reference} {coordinates : Option Json} {n : Nat} :
    (referenceMap reference coordinates).nesting ≤ n + 1 ↔
      ∀ tree ∈ coordinates, tree.nesting ≤ n := by
  rcases referenceMap_split reference with ⟨front, simple, same⟩
  rw [same, Json.nesting, Nat.add_le_add_iff_right, Json.nestingMembers_le_iff]
  exact forall_referenceMap (P := fun tree => tree.nesting ≤ n) front (fun m inside =>
    Nat.le_trans (simple m inside).2.2.1 (Nat.zero_le n)) coordinates

theorem textual_referenceMap {reference : Reference} {coordinates : Option Json}
    (textual : ∀ tree ∈ coordinates, tree.textual = true) :
    (referenceMap reference coordinates).textual = true := by
  rcases referenceMap_split reference with ⟨front, simple, same⟩
  rw [same, Json.textual, Json.textualMembers_iff]
  intro m inside
  rcases List.mem_append.mp inside with inside | inside
  · exact ⟨(simple m inside).1, (simple m inside).2.1⟩
  · cases coordinates with
    | none => cases inside
    | some tree =>
        rw [List.mem_singleton.mp inside]
        exact ⟨utf8?_isSome _, textual tree rfl⟩

theorem everyNumber_referenceMap_iff {p : JsonNumber → Bool} {reference : Reference}
    {coordinates : Option Json} : (referenceMap reference coordinates).everyNumber p = true ↔
      ∀ tree ∈ coordinates, tree.everyNumber p = true := by
  rcases referenceMap_split reference with ⟨front, simple, same⟩
  rw [same, Json.everyNumber, Json.everyNumberMembers_iff]
  exact forall_referenceMap (P := fun tree => tree.everyNumber p = true) front
    (fun m inside => (simple m inside).2.2.2 p) coordinates

section

variable {input : Input} {timestamp : String} {references : Option (List Json)} {members : Payload}

theorem nesting_payload_le_iff {n : Nat} (deep : 2 ≤ n) :
    (Json.object (assemble input timestamp references ++ members)).nesting ≤ n + 1 ↔
      (∀ items ∈ references, ∀ item ∈ items, item.nesting + 1 ≤ n) ∧
        ∀ m ∈ members, m.2.nesting ≤ n := by
  rcases assemble_split input timestamp with ⟨front, simple, same⟩
  rw [same, Json.nesting, Nat.add_le_add_iff_right, Json.nestingMembers_le_iff,
    List.forall_mem_append, List.forall_mem_append]
  have first : ∀ m ∈ front, m.2.nesting ≤ n :=
    fun m inside => Nat.le_trans (simple m inside).2.2.1 deep
  cases references with
  | none => simp only [insertBlock, List.not_mem_nil, false_imp_iff, implies_true, and_true,
      Option.mem_def, reduceCtorEq, true_and, and_iff_right_iff_imp]; exact fun _ => first
  | some items =>
      have block : (∀ m ∈ insertBlock "references" Json.array (some items), m.2.nesting ≤ n) ↔
          ∀ item ∈ items, item.nesting + 1 ≤ n := by
        rw [insertBlock, List.forall_mem_singleton, member, Json.nesting]
        cases n with
        | zero => cases deep
        | succ n =>
            simp only [Nat.add_le_add_iff_right]
            exact Json.nestingItems_le_iff
      rw [block]
      simp only [Option.mem_def, Option.some.injEq, forall_eq']
      constructor
      · rintro ⟨⟨-, refs⟩, more⟩
        exact ⟨refs, more⟩
      · rintro ⟨refs, more⟩
        exact ⟨⟨first, refs⟩, more⟩

theorem textual_payload
    (refs : ∀ items ∈ references, ∀ item ∈ items, item.textual = true)
    (more : ∀ m ∈ members, (utf8? m.1).isSome = true ∧ m.2.textual = true) :
    (Json.object (assemble input timestamp references ++ members)).textual = true := by
  rcases assemble_split input timestamp with ⟨front, simple, same⟩
  rw [same, Json.textual, Json.textualMembers_iff, List.forall_mem_append, List.forall_mem_append]
  refine ⟨⟨fun m inside => ⟨(simple m inside).1, (simple m inside).2.1⟩, ?_⟩, more⟩
  cases references with
  | none => exact nofun
  | some items =>
      intro m inside
      rw [List.mem_singleton.mp inside]
      exact ⟨utf8?_isSome _, Json.textualItems_iff.mpr (refs items rfl)⟩

theorem everyNumber_payload_iff {p : JsonNumber → Bool} :
    (Json.object (assemble input timestamp references ++ members)).everyNumber p = true ↔
      (∀ items ∈ references, ∀ item ∈ items, item.everyNumber p = true) ∧
        ∀ m ∈ members, m.2.everyNumber p = true := by
  rcases assemble_split input timestamp with ⟨front, simple, same⟩
  rw [same, Json.everyNumber, Json.everyNumberMembers_iff, List.forall_mem_append,
    List.forall_mem_append]
  have first : ∀ m ∈ front, m.2.everyNumber p = true := fun m inside => (simple m inside).2.2.2 p
  have block : (∀ m ∈ insertBlock "references" Json.array references,
      m.2.everyNumber p = true) ↔ ∀ items ∈ references, ∀ item ∈ items,
        item.everyNumber p = true := by
    cases references with
    | none => exact ⟨fun _ => nofun, fun _ => nofun⟩
    | some items =>
        rw [insertBlock, List.forall_mem_singleton, member, Json.everyNumber]
        simp only [Option.mem_def, Option.some.injEq, forall_eq']
        exact Json.everyNumberItems_iff
  rw [block]
  exact and_congr_left fun _ => ⟨And.right, fun refs => ⟨first, refs⟩⟩

theorem names_assemble {other : Option (List Json)}
    (same : references.isSome = other.isSome) :
    (assemble input timestamp references).map Prod.fst =
      (assemble input timestamp other).map Prod.fst := by
  rcases assemble_split input timestamp with ⟨front, -, split⟩
  rw [split, split, List.map_append, List.map_append]
  cases references <;> cases other <;> simp_all [insertBlock, member]

/-- The same optional references up to their normal form. -/
def SameReferences : Option (List Json) → Option (List Json) → Prop :=
  Option.Rel (List.Forall₂ (fun a b => a.normal = b.normal))

theorem SameReferences.isSome {other : Option (List Json)}
    (same : SameReferences references other) : references.isSome = other.isSome := by
  cases same <;> rfl

/-- Capsules whose references have the same normal form have the same one. -/
theorem normal_payload {other : Option (List Json)} (same : SameReferences references other) :
    (Json.object (assemble input timestamp references ++ members)).normal =
      (Json.object (assemble input timestamp other ++ members)).normal := by
  rcases assemble_split input timestamp with ⟨front, -, split⟩
  rw [split, split, Json.normal, Json.normal]
  congr 1
  apply Json.normalMembers_congr
  have whole : ∀ list : Payload, List.Forall₂ (fun a b => a.1 = b.1 ∧ a.2.normal = b.2.normal)
      list list := fun list => List.forall₂_same.mpr (fun _ _ => ⟨rfl, rfl⟩)
  refine List.rel_append (List.rel_append (whole front) ?_) (whole members)
  cases same with
  | none => exact List.Forall₂.nil
  | some items =>
      exact List.Forall₂.cons ⟨rfl, congrArg Json.array (Json.normalItems_congr items)⟩
        List.Forall₂.nil

theorem normal_referenceMap {reference : Reference} {left right : Json}
    (same : left.normal = right.normal) :
    (referenceMap reference (some left)).normal = (referenceMap reference (some right)).normal := by
  rcases referenceMap_split reference with ⟨front, -, split⟩
  rw [split, split, Json.normal, Json.normal]
  congr 1
  apply Json.normalMembers_congr
  refine List.rel_append (List.forall₂_same.mpr (fun _ _ => ⟨rfl, rfl⟩)) ?_
  exact List.Forall₂.cons ⟨rfl, same⟩ List.Forall₂.nil

end

end Produce
end CapsuleEmit
