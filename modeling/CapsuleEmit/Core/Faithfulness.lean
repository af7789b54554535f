import CapsuleEmit.Core.Digest
import CapsuleEmit.Foundation.Sha256

namespace CapsuleEmit
namespace Core

/-!
# Digests of tuples

A value with tuples in it is digested over what `json.dumps` prints, and the same
value with lists in their place over its RFC 8785 text.  Both are texts of the
same tree, so the digests are equal when the tree is low, and only then as long as
SHA-256 tells the two texts apart.  `json.dumps` also follows no more levels than
the interpreter allows.
-/

namespace Value

/-! ## Plain values -/

mutual
/-- A plain value has a tree, which is low when the value is. -/
theorem tree_of_plain (str : Value → Str) : ∀ value : Value, value.plain = true →
    ∃ tree, value.tree str = some tree ∧ tree.low = value.low
  | .none, _ => ⟨_, rfl, rfl⟩
  | .bool _, _ => ⟨_, rfl, rfl⟩
  | .int _, _ => ⟨_, rfl, rfl⟩
  | .str _, _ => ⟨_, rfl, rfl⟩
  | .list _ items, plain => by
      rcases trees_of_plain str items plain with ⟨trees, exist, same⟩
      exact ⟨.array trees, by rw [tree, exist]; rfl, same⟩
  | .tuple _ items, plain => by
      rcases trees_of_plain str items plain with ⟨trees, exist, same⟩
      exact ⟨.array trees, by rw [tree, exist]; rfl, same⟩
  | .dict _ members, plain => by
      rcases members_of_plain str members plain with ⟨trees, exist, same⟩
      exact ⟨.object trees, by rw [tree, exist]; rfl, same⟩

theorem trees_of_plain (str : Value → Str) : ∀ items : List Value, plainItems items = true →
    ∃ trees, treeItems str items = some trees ∧ Tree.lowItems trees = lowItems items
  | [], _ => ⟨[], rfl, rfl⟩
  | item :: items, plain => by
      rw [plainItems, Bool.and_eq_true] at plain
      rcases tree_of_plain str item plain.1 with ⟨first, here, low⟩
      rcases trees_of_plain str items plain.2 with ⟨rest, there, others⟩
      exact ⟨first :: rest, by rw [treeItems, here, there]; rfl,
        by rw [Tree.lowItems, lowItems, low, others]⟩

theorem members_of_plain (str : Value → Str) :
    ∀ members : List (Value × Value), plainMembers members = true →
      ∃ trees, treeMembers str members = some trees ∧ Tree.lowMembers trees = lowMembers members
  | [], _ => ⟨[], rfl, rfl⟩
  | (key, value) :: members, plain => by
      simp only [plainMembers, Bool.and_eq_true] at plain
      rcases tree_of_plain str value plain.1.2 with ⟨first, here, low⟩
      rcases members_of_plain str members plain.2 with ⟨rest, there, others⟩
      cases key with
      | str name =>
          exact ⟨(name, first) :: rest, by rw [treeMembers, here, there]; rfl,
            by rw [Tree.lowMembers, lowMembers, low, others]; rfl⟩
      | _ => cases plain.1.1.1
end

theorem plain_parts {value part : Value} (plain : value.plain = true)
    (inside : part ∈ value.parts) : part.plain = true := by
  have items : ∀ {items : List Value}, plainItems items = true →
      ∀ item ∈ items, item.plain = true := by
    intro items
    induction items with
    | nil => exact fun _ _ inside => absurd inside List.not_mem_nil
    | cons item items ih =>
        intro all
        rw [plainItems, Bool.and_eq_true] at all
        exact List.forall_mem_cons.mpr ⟨all.1, ih all.2⟩
  have members : ∀ {members : List (Value × Value)}, plainMembers members = true →
      ∀ member ∈ members, member.1.plain = true ∧ member.2.plain = true := by
    intro members
    induction members with
    | nil => exact fun _ _ inside => absurd inside List.not_mem_nil
    | cons member members ih =>
        intro all
        simp only [plainMembers, Bool.and_eq_true] at all
        exact List.forall_mem_cons.mpr ⟨⟨all.1.1.2, all.1.2⟩, ih all.2⟩
  cases value with
  | list _ _ => exact items plain part inside
  | tuple _ _ => exact items plain part inside
  | set _ _ => cases plain
  | frozenset _ _ => cases plain
  | dict _ _ =>
      rcases List.mem_flatMap.mp inside with ⟨member, there, either⟩
      rcases List.mem_cons.mp either with rfl | either
      · exact (members plain member there).1
      · rcases List.mem_singleton.mp either with rfl
        exact (members plain member there).2
  | _ => cases inside

theorem plain_within {value part : Value} (plain : value.plain = true)
    (within : value.Within part) : part.plain = true := by
  induction within with
  | refl => exact plain
  | tail _ inside ih => exact plain_parts ih inside

/-- Neither a float nor a key that is not a string is in a plain value. -/
theorem not_wrong_of_plain {value : Value} (plain : value.plain = true) :
    (value.isFloat || value.hasNonStringKey) = false := by
  cases value with
  | float => cases plain
  | complex => cases plain
  | dict _ members =>
      change members.any (fun member => !member.1.isStr) = false
      change plainMembers members = true at plain
      induction members with
      | nil => rfl
      | cons member members ih =>
          simp only [plainMembers, Bool.and_eq_true] at plain
          rw [List.any_cons, plain.1.1.1, ih plain.2]
          rfl
  | _ => rfl

/-! ## Lists for tuples -/

mutual
theorem tree_listed (str : Value → Str) :
    ∀ value : Value, value.listed.tree str = value.tree str
  | .none => rfl
  | .bool _ => rfl
  | .int _ => rfl
  | .float => rfl
  | .complex => rfl
  | .str _ => rfl
  | .set _ _ => rfl
  | .frozenset _ _ => rfl
  | .list _ items => by rw [listed, tree, tree, trees_listed str items]
  | .tuple _ items => by rw [listed, tree, tree, trees_listed str items]
  | .dict _ members => by rw [listed, tree, tree, members_listed str members]

theorem trees_listed (str : Value → Str) :
    ∀ items : List Value, treeItems str (listedItems items) = treeItems str items
  | [] => rfl
  | item :: items => by
      rw [listedItems, treeItems, treeItems, tree_listed str item, trees_listed str items]

theorem members_listed (str : Value → Str) :
    ∀ members : List (Value × Value),
      treeMembers str (listedMembers members) = treeMembers str members
  | [] => rfl
  | (key, value) :: members => by
      cases key with
      | str name =>
          rw [listedMembers, treeMembers, treeMembers, tree_listed str value,
            members_listed str members]
      | _ => rfl
end

mutual
theorem plain_listed : ∀ value : Value, value.listed.plain = value.plain
  | .none => rfl
  | .bool _ => rfl
  | .int _ => rfl
  | .float => rfl
  | .complex => rfl
  | .str _ => rfl
  | .set _ _ => rfl
  | .frozenset _ _ => rfl
  | .list _ items => plainItems_listed items
  | .tuple _ items => plainItems_listed items
  | .dict _ members => plainMembers_listed members

theorem plainItems_listed : ∀ items : List Value, plainItems (listedItems items) = plainItems items
  | [] => rfl
  | item :: items => by
      rw [listedItems, plainItems, plainItems, plain_listed item, plainItems_listed items]

theorem plainMembers_listed : ∀ members : List (Value × Value),
    plainMembers (listedMembers members) = plainMembers members
  | [] => rfl
  | (key, value) :: members => by
      rw [listedMembers, plainMembers, plainMembers, plain_listed value,
        plainMembers_listed members]
end

mutual
theorem native_listed : ∀ value : Value, value.listed.native = true
  | .none => rfl
  | .bool _ => rfl
  | .int _ => rfl
  | .float => rfl
  | .complex => rfl
  | .str _ => rfl
  | .set _ _ => rfl
  | .frozenset _ _ => rfl
  | .list _ items => nativeItems_listed items
  | .tuple _ items => nativeItems_listed items
  | .dict _ members => nativeMembers_listed members

theorem nativeItems_listed : ∀ items : List Value, nativeItems (listedItems items) = true
  | [] => rfl
  | item :: items => by
      rw [listedItems, nativeItems, native_listed item, nativeItems_listed items]
      rfl

theorem nativeMembers_listed : ∀ members : List (Value × Value),
    nativeMembers (listedMembers members) = true
  | [] => rfl
  | (_, value) :: members => by
      rw [listedMembers, nativeMembers, native_listed value, nativeMembers_listed members]
      rfl
end

mutual
/-- Without a tuple there is nothing to replace. -/
theorem listed_native : ∀ value : Value, value.native = true → value.listed = value
  | .none, _ => rfl
  | .bool _, _ => rfl
  | .int _, _ => rfl
  | .float, _ => rfl
  | .complex, _ => rfl
  | .str _, _ => rfl
  | .set _ _, _ => rfl
  | .frozenset _ _, _ => rfl
  | .list id items, native => congrArg (Value.list id) (listedItems_native items native)
  | .dict id members, native => congrArg (Value.dict id) (listedMembers_native members native)

theorem listedItems_native : ∀ items : List Value, nativeItems items = true →
    listedItems items = items
  | [], _ => rfl
  | item :: items, native => by
      rw [nativeItems, Bool.and_eq_true] at native
      rw [listedItems, listed_native item native.1, listedItems_native items native.2]

theorem listedMembers_native : ∀ members : List (Value × Value), nativeMembers members = true →
    listedMembers members = members
  | [], _ => rfl
  | (_, value) :: members, native => by
      rw [nativeMembers, Bool.and_eq_true] at native
      rw [listedMembers, listed_native value native.1, listedMembers_native members native.2]
end

end Value

/-! ## The digest of a plain value -/

variable {packages : Packages}

/-- Neither walk finds anything in a plain value. -/
theorem find_of_plain {payload : Payload} (plain : payload.value.plain = true) :
    (Walk.find Value.floats payload.value).isSome = false ∧
      (Walk.find Value.nonStringKeys payload.value).isSome = false := by
  rcases guards_iff payload with ⟨floats, keys⟩
  have clean : ∀ part, payload.value.Within part → part.isFloat = false ∧
      part.hasNonStringKey = false := by
    intro part within
    exact Bool.or_eq_false_iff.mp (Value.not_wrong_of_plain (Value.plain_within plain within))
  constructor
  · apply Bool.eq_false_iff.mpr
    intro found
    rcases floats.mp found with ⟨part, within, hit⟩
    rw [(clean part within).1] at hit
    cases hit
  · apply Bool.eq_false_iff.mpr
    intro found
    rcases keys.mp found with ⟨part, within, hit⟩
    rw [(clean part within).2] at hit
    cases hit

/-- Without a tuple the digest is that of the RFC 8785 text. -/
theorem digest_native (documented : Documented packages) {value : Value} {tree : Tree}
    (plain : value.plain = true) (native : value.native = true)
    (printed : value.tree packages.str = some tree) (salt : Option Bytes) :
    digest packages value salt = .ok (packages.sha256 (jcs tree ++ saltSuffix salt)) := by
  unfold digest
  rw [documented.json value tree plain native printed]

/-- With a tuple it is that of what `json.dumps` prints. -/
theorem digest_foreign (documented : Documented packages) {payload : Payload} {tree : Tree}
    (plain : payload.value.plain = true) (foreign : payload.value.native = false)
    (printed : payload.value.tree packages.str = some tree) (salt : Option Bytes) :
    digest packages payload.value salt =
      if payload.value.nesting ≤ packages.dumpsLevels then
        .ok (packages.sha256 (dumps tree ++ saltSuffix salt))
      else .error .recursionError := by
  rcases find_of_plain plain with ⟨noFloat, noKey⟩
  unfold digest legacyText
  rw [documented.foreign payload.value plain foreign]
  simp only [noFloat, noKey, printed, Bool.false_eq_true, if_false]
  split_ifs
  · rfl
  · rfl

/-- Floats and keys that are not strings are always refused.  A tuple has the
digest of the list exactly when nothing in the value has to be escaped to be
ASCII and `json.dumps` can follow it. -/
theorem digest_faithful_iff (documented : Documented packages) (payload : Payload)
    (salt : Option Bytes)
    (apart : ∀ tree, payload.value.tree packages.str = some tree →
      packages.sha256 (dumps tree ++ saltSuffix salt) =
        packages.sha256 (jcs tree ++ saltSuffix salt) →
      dumps tree ++ saltSuffix salt = jcs tree ++ saltSuffix salt) :
    Faithful packages payload salt ↔
      (payload.value.plain = true → payload.value.native = true ∨
        payload.value.low = true ∧ payload.value.nesting ≤ packages.dumpsLevels) := by
  have refused : ∀ part, payload.value.Within part →
      (part.isFloat || part.hasNonStringKey) = true →
        ∃ raised, digest packages payload.value salt = .error raised :=
    fun _ within wrong => digest_refused documented payload salt within wrong
  constructor
  · intro faithful plain
    rcases Value.tree_of_plain packages.str payload.value plain with ⟨tree, printed, low⟩
    rcases faithful.asList plain with ⟨d, given, listed⟩
    rw [digest_native documented (by rw [Value.plain_listed, plain])
      (Value.native_listed payload.value) (by rw [Value.tree_listed, printed])] at listed
    cases native : payload.value.native with
    | true => exact Or.inl rfl
    | false =>
        rw [digest_foreign documented plain native printed] at given
        split_ifs at given with levels
        · have same : packages.sha256 (dumps tree ++ saltSuffix salt) =
              packages.sha256 (jcs tree ++ saltSuffix salt) :=
            (Except.ok.inj given).trans (Except.ok.inj listed).symm
          have texts := List.append_cancel_right (apart tree printed same)
          rw [← low]
          exact Or.inr ⟨(jcs_eq_dumps_iff tree).mp texts.symm, levels⟩
  · intro allowed
    refine ⟨refused, fun plain => ?_⟩
    rcases Value.tree_of_plain packages.str payload.value plain with ⟨tree, printed, low⟩
    refine ⟨packages.sha256 (jcs tree ++ saltSuffix salt), ?_,
      digest_native documented (by rw [Value.plain_listed, plain])
        (Value.native_listed payload.value) (by rw [Value.tree_listed, printed]) salt⟩
    cases native : payload.value.native with
    | true => exact digest_native documented plain native printed salt
    | false =>
        rcases allowed plain with isNative | ⟨isLow, levels⟩
        · rw [isNative] at native
          cases native
        · rw [digest_foreign documented plain native printed, if_pos levels,
            jcs_low tree (low.trans isLow)]

/-! ## A tuple of strings -/

/-- Packages that write JSON values and refuse everything else with a
`TypeError`. -/
def reference : Packages where
  canonical value :=
    if value.plain && value.native then
      (value.tree (fun _ => [])).elim (.error .typeError) (fun tree => .ok (jcs tree))
    else .error .typeError
  sha256 := Sha256.digest
  str _ := []
  dumpsLevels := 900

theorem reference_documented : Documented reference where
  json := by
    intro value tree plain native printed
    change value.tree (fun _ => []) = some tree at printed
    simp [reference, plain, native, printed]
  foreign := by
    intro value plain native
    simp [reference, plain, native]
  refuses := by
    intro value part within wrong bytes written
    cases plain : value.plain with
    | true =>
        rw [Value.not_wrong_of_plain (Value.plain_within plain within)] at wrong
        cases wrong
    | false => simp [reference, plain] at written

/-- A tuple of strings. -/
def tupleOf (texts : List Str) : Payload where
  value := .tuple 0 (texts.map .str)
  coherent := by
    have reached : ∀ part, (Value.tuple 0 (texts.map .str)).Within part →
        part = .tuple 0 (texts.map .str) ∨ part.id? = none := by
      intro part within
      induction within with
      | refl => exact Or.inl rfl
      | tail _ inside ih =>
          rcases ih with rfl | none
          · rcases List.mem_map.mp inside with ⟨text, _, rfl⟩
            exact Or.inr rfl
          · next outer _ _ =>
            cases outer with
            | list _ _ => cases none
            | tuple _ _ => cases none
            | set _ _ => cases none
            | frozenset _ _ => cases none
            | dict _ _ => cases none
            | _ => cases inside
    intro a b k first second keyA keyB
    change a.id? = some k at keyA
    change b.id? = some k at keyB
    rcases reached a first with rfl | none
    · rcases reached b second with rfl | none
      · rfl
      · rw [none] at keyB
        cases keyB
    · rw [none] at keyA
      cases keyA
  formed := by
    have plain : (Value.tuple 0 (texts.map .str)).hashable = true := by
      change Value.hashableItems (texts.map .str) = true
      induction texts with
      | nil => rfl
      | cons text texts ih => exact ih
    intro part within
    have inner : part.hashable = true := by
      induction within with
      | refl => exact plain
      | tail _ inside ih => exact Value.hashable_parts ih inside
    cases part with
    | set _ _ => cases inner
    | dict _ _ => cases inner
    | frozenset _ items => exact fun item inside => Value.hashable_parts inner inside
    | _ => trivial

/-- `("ab",)` is digested as `["ab"]` is. -/
theorem digest_faithful_low : Faithful reference (tupleOf [[97, 98]]) (some [120]) :=
  (digest_faithful_iff reference_documented (tupleOf [[97, 98]]) (some [120])
    (by
      intro tree printed _
      cases printed
      rw [jcs_low _ (by rfl)])).mpr (fun _ => Or.inr ⟨by rfl, by decide⟩)

/-- `("é",)` is not digested as `["é"]` is. -/
theorem digest_not_faithful : ¬ Faithful reference (tupleOf [[0xE9]]) none := by
  intro faithful
  rcases faithful.asList (by rfl) with ⟨d, given, listed⟩
  have tuple : digest reference (tupleOf [[0xE9]]).value none =
      .ok (Sha256.digest [91, 34, 92, 117, 48, 48, 101, 57, 34, 93]) := rfl
  have list : digest reference (tupleOf [[0xE9]]).value.listed none =
      .ok (Sha256.digest [91, 34, 195, 169, 34, 93]) := rfl
  rw [tuple] at given
  rw [list] at listed
  have same := Except.ok.inj (given.trans listed.symm)
  revert same
  decide +kernel

end Core
end CapsuleEmit
