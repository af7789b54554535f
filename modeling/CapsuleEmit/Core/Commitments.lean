import CapsuleEmit.Core.Emit
import CapsuleEmit.Core.Faithfulness

namespace CapsuleEmit
namespace Core

open ArtifactStore (validId)

/-!
# What an emitted capsule commits to

A capsule that is emitted states the digests of its payloads, its id covers
everything but its signature, its parent is in the ledger or is cited, and the
ledger has it once.

The digests are those of the payloads exactly when no caller's member has their
names: the members of `extra_compute` and of the model map replace what the emitter
wrote, and a profile's `model_attestation` or `chain` stands in for one that the
capsule does not have.
-/

/-! ## Reading a capsule -/

/-- The member of a dictionary. -/
def field (name : String) : Python.Value → Option Python.Value
  | .dict members => members.lookup name
  | _ => none

/-- A member of the compute attestation. -/
def attested (capsule : Members) (name : String) : Option Python.Value :=
  (capsule.lookup "model_attestation").bind (fun attestation =>
    (field "compute_attestation" attestation).bind (field name))

/-- The parent a capsule names. -/
def parentOf (capsule : Members) : Option Python.Value :=
  (capsule.lookup "chain").bind (field "parent_capsule_id")

/-- Some reference cites an id. -/
def Cites (capsule : Members) (id : String) : Prop :=
  ∃ items, capsule.lookup "references" = some (.list items) ∧
    ∃ item ∈ items, field "digest_alg" item = some (.str "SHA-256") ∧
      field "digest" item = some (.str id)

def Ledger.Holds (ledger : Ledger) (id : String) : Prop :=
  ∃ line ∈ ledger.lines, line.capsuleId = id

def Ledger.count (ledger : Ledger) (id : String) : Nat :=
  ledger.lines.countP (fun line => line.capsuleId = id)

/-- What is relied on of the sealing of a capsule object: its attestation, its chain
and its references are in the dictionary, and a parent that is no id is rejected. -/
structure Emitter.Documented (emitter : Emitter) : Prop where
  attests : ∀ object capsule, emitter.sealObject object = .ok capsule → ∀ name,
    attested capsule name =
      (object.modelAttestation.bind ModelAttestation.computeAttestation).bind (·.lookup name)
  chained : ∀ object capsule, emitter.sealObject object = .ok capsule → ∀ chain,
    object.chain = some chain → parentOf capsule = some (.str chain.parentCapsuleId)
  unchained : ∀ object capsule, emitter.sealObject object = .ok capsule →
    object.chain = none → capsule.lookup "chain" = none
  cites : ∀ object capsule, emitter.sealObject object = .ok capsule → ∀ references,
    object.references = some references → ∃ items,
      capsule.lookup "references" = some (.list items) ∧
      ∀ reference ∈ references, ∃ item ∈ items,
        field "digest_alg" item = some (.str reference.digestAlg) ∧
        field "digest" item = some (.str reference.digest)
  rejects : ∀ object capsule, emitter.sealObject object = .ok capsule → ∀ chain,
    object.chain = some chain → validId chain.parentCapsuleId = true

/-! ## What is promised -/

variable (emitter : Emitter) (around : Surroundings) (call : Call)

/-- The members of the attestation that are digests of payloads. -/
def digestNames : List String := ["agent_input_digest", "agent_output_digest"]

/-- What `extra_compute` and the model map have under a name. -/
def supplied (name : String) : Option Python.Value :=
  ((extraChip call).lookup name).or (call.extraCompute.lookup name)

/-- What a profile's own attestation has under a name. -/
def declared (name : String) : Option Python.Value := attested call.payloadMembers name

/-- A payload is committed to: its digest under the stated salt is there, and
nothing is where there is no payload. -/
def Commits (capsule : Members) (name : String) (value : Core.Value) : Prop :=
  match given value with
  | none => attested capsule name = none
  | some value => ∃ salt text, attested capsule "digest_salt" = salt.map Python.Value.str ∧
      digestHex emitter value salt = .ok text ∧ attested capsule name = some (.str text)

/-- A member that is no part of the signature. -/
def isUnsigned (name : String) : Bool := name ∉ ["signature", "key_id"]

/-- What a call that returns promises. -/
structure Committed (ledger : Ledger) (result : EmitResult) (ledger' : Ledger) : Prop where
  input : Commits emitter result.capsule "agent_input_digest" call.agentInput
  output : Commits emitter result.capsule "agent_output_digest" call.agentOutput
  own : ∀ name ∈ digestNames, ∀ value, supplied call name = some value →
    attested result.capsule name ≠ some value
  id : result.capsule.lookup "capsule_id" = some (.str result.capsuleId) ∧
    computeCapsuleId emitter (result.capsule.filter (fun entry => isUnsigned entry.1)) =
      .ok result.capsuleId
  parent : ∀ id, call.confirms = some id →
    (ledger.Holds id → parentOf result.capsule = some (.str id)) ∧
    (¬ ledger.Holds id → result.capsule.lookup "chain" = none ∧ Cites result.capsule id)
  recorded : ∃ text line, emitter.lineForm result.capsule = .ok text ∧ 0 < result.seq ∧
    ledger'.lines[result.seq - 1]? = some line ∧ line.text = text ∧
    line.capsuleId = result.capsuleId
  once : ledger'.count result.capsuleId = 1

/-- What a call must not be given: members that are named as the digests, a salt for
payloads whose salt is another one, and a chain where the parent is cited. -/
structure Untouched (ledger : Ledger) : Prop where
  digests : ∀ name ∈ digestNames, supplied call name = none ∧ declared call name = none
  salt : (given call.agentInput).isSome ∨ (given call.agentOutput).isSome → ∀ value,
    supplied call "digest_salt" = some value →
      ∃ salt, emitSalt around call = some salt ∧ value = .str salt
  chain : ∀ id, call.confirms = some id → ¬ ledger.Holds id →
    "chain" ∉ call.payloadMembers.map Prod.fst

/-! ## The attestation -/

variable {emitter around call}

theorem lookup_computeAttestation (input output : Option String) (name : String) :
    (computeAttestation around call input output).lookup name =
      (supplied call name).or ((ownMembers around call input output).lookup name) := by
  have chipOnce : ((extraChip call).map Prod.fst).Nodup :=
    (List.filter_sublist.map Prod.fst).nodup call.modelOnce
  rw [computeAttestation, OrderedMap.lookup_insertAll chipOnce,
    OrderedMap.lookup_insertAll call.extraOnce, supplied, Option.or_assoc]

theorem lookup_member (name other : String) (text : Option String) :
    (member name text).lookup other = if other = name then text.map Python.Value.str else none := by
  cases text with
  | none => simp [member]
  | some text =>
      change [(name, Python.Value.str text)].lookup other = _
      by_cases same : other = name
      · rw [OrderedMap.lookup_cons_of_eq same, if_pos same]
        rfl
      · rw [OrderedMap.lookup_cons_of_ne same, if_neg same]
        rfl

theorem lookup_ownMembers (input output : Option String) (name : String) :
    (ownMembers around call input output).lookup name =
      if name = "agent_input_digest" then input.map Python.Value.str
      else if name = "agent_output_digest" then output.map Python.Value.str
      else if name = "digest_salt" then
        (if input.isSome || output.isSome then emitSalt around call else none).map Python.Value.str
      else if name = "runtime" then call.runtime.map Python.Value.str
      else none := by
  simp only [ownMembers, OrderedMap.lookup_append, lookup_member]
  split_ifs <;> simp_all

/-- The members of a profile are new ones. -/
theorem addMembers_ok {members capsule capsule' : Members}
    (ok : addMembers members capsule = .ok capsule') : capsule' = capsule ++ members ∧
      ∀ entry ∈ members, entry.1 ∉ capsule.map Prod.fst ∧ entry.1 ∉ reservedMembers := by
  induction members generalizing capsule with
  | nil =>
      cases ok
      exact ⟨(List.append_nil _).symm, nofun⟩
  | cons entry members ih =>
      rcases entry with ⟨name, value⟩
      rw [addMembers] at ok
      split_ifs at ok with taken
      rcases ih ok with ⟨rfl, fresh⟩
      rw [not_or] at taken
      refine ⟨by rw [List.append_assoc, List.singleton_append],
        List.forall_mem_cons.mpr ⟨taken, fun other inside => ⟨fun there => ?_, (fresh other inside).2⟩⟩⟩
      apply (fresh other inside).1
      rw [List.map_append]
      exact List.mem_append_left _ there

/-- What is read of a capsule with the members of a profile. -/
theorem lookup_addMembers {capsule capsule' : Members}
    (ok : addMembers call.payloadMembers capsule = .ok capsule') (name : String) :
    capsule'.lookup name = (capsule.lookup name).or (call.payloadMembers.lookup name) ∧
      (call.payloadMembers.lookup name ≠ none → capsule.lookup name = none) := by
  rcases addMembers_ok ok with ⟨rfl, fresh⟩
  refine ⟨OrderedMap.lookup_append, fun there => ?_⟩
  have inside : name ∈ call.payloadMembers.map Prod.fst := by
    by_contra absent
    exact there (OrderedMap.lookup_eq_none_iff.mpr absent)
  rcases List.mem_map.mp inside with ⟨entry, member, rfl⟩
  exact OrderedMap.lookup_eq_none_iff.mpr (fresh entry member).1

/-! ## The id -/

/-- The id and the signature are the only other members that are written. -/
theorem lookup_signCapsule {capsule signed : Members} {id name : String}
    (ok : signCapsule emitter call capsule = .ok (id, signed)) (other : name ∉ reservedMembers) :
    signed.lookup name = capsule.lookup name := by
  simp only [signCapsule, bind_eq_ok_iff] at ok
  rcases ok with ⟨_, _, ⟨_, _⟩, _, same⟩
  cases same
  simp only [reservedMembers, List.mem_cons, List.not_mem_nil, or_false, not_or] at other
  rw [OrderedMap.lookup_insert, if_neg other.2.2.2, OrderedMap.lookup_insert, if_neg other.2.2.1,
    OrderedMap.lookup_insert, if_neg other.2.1, OrderedMap.lookup_insert, if_neg other.1]

/-- The id is computed from the members it covers and the declared algorithm. -/
theorem computeCapsuleId_congr {capsule other : Members}
    (members : capsule.filter (fun entry => isCovered entry.1) =
      other.filter (fun entry => isCovered entry.1))
    (algorithm : capsule.lookup "canonicalization_id" = other.lookup "canonicalization_id") :
    computeCapsuleId emitter capsule = computeCapsuleId emitter other := by
  unfold computeCapsuleId
  rw [members, algorithm]

/-- The id of a signed capsule recomputes without the signature. -/
theorem signCapsule_id {capsule signed : Members} {id : String}
    (ok : signCapsule emitter call capsule = .ok (id, signed)) :
    signed.lookup "capsule_id" = some (.str id) ∧
      computeCapsuleId emitter (signed.filter (fun entry => isUnsigned entry.1)) = .ok id := by
  simp only [signCapsule, bind_eq_ok_iff] at ok
  rcases ok with ⟨id', computed, ⟨signature, keyId⟩, _, same⟩
  cases same
  constructor
  · rw [OrderedMap.lookup_insert, if_neg (by decide), OrderedMap.lookup_insert,
      if_neg (by decide), OrderedMap.lookup_insert, if_pos rfl]
  · rw [← computed]
    apply computeCapsuleId_congr
    · have both : (fun entry : String × Python.Value => isCovered entry.1 && isUnsigned entry.1) =
          fun entry => isCovered entry.1 := by
        funext entry
        simp only [isCovered, isUnsigned]
        grind
      rw [List.filter_filter, both, OrderedMap.filter_insert (by decide),
        OrderedMap.filter_insert (by decide), OrderedMap.filter_insert (by decide)]
    · rw [OrderedMap.lookup_filter (p := isUnsigned) (by decide), OrderedMap.lookup_insert,
        if_neg (by decide), OrderedMap.lookup_insert, if_neg (by decide),
        OrderedMap.lookup_insert, if_neg (by decide)]

/-! ## The ledger -/

theorem Ledger.find_eq_some {ledger : Ledger} {id : String} {seq : Nat} {line : Line}
    (found : ledger.find id = some (seq, line)) :
    0 < seq ∧ ledger.lines[seq - 1]? = some line ∧ line.capsuleId = id := by
  rcases Option.map_eq_some_iff.mp found with ⟨⟨first, index⟩, there, same⟩
  cases same
  have named := List.find?_some there
  have inside := List.mem_zipIdx_iff_getElem?.mp (List.mem_of_find?_eq_some there)
  exact ⟨Nat.succ_pos _, inside, of_decide_eq_true named⟩

theorem Ledger.holds_of_find {ledger : Ledger} {id : String} {found : Nat × Line}
    (there : ledger.find id = some found) : ledger.Holds id := by
  rcases Ledger.find_eq_some there with ⟨_, at', named⟩
  exact ⟨found.2, List.mem_of_getElem? at', named⟩

theorem Ledger.find_eq_none_iff {ledger : Ledger} {id : String} :
    ledger.find id = none ↔ ¬ ledger.Holds id := by
  constructor
  · rintro missing ⟨line, inside, named⟩
    rw [Ledger.find, Option.map_eq_none_iff, List.find?_eq_none] at missing
    rcases List.mem_iff_getElem?.mp inside with ⟨index, there⟩
    exact missing (line, index) (List.mem_zipIdx_iff_getElem?.mpr there) (decide_eq_true named)
  · intro absent
    cases found : ledger.find id with
    | none => rfl
    | some pair => exact (absent (Ledger.holds_of_find found)).elim

theorem Ledger.count_eq_zero_iff {ledger : Ledger} {id : String} :
    ledger.count id = 0 ↔ ¬ ledger.Holds id := by
  rw [Ledger.count, List.countP_eq_zero]
  simp only [Ledger.Holds, decide_eq_true_eq, not_exists, not_and]

theorem inLedger_eq_ok {ledger : Ledger} {id : String} {same : Bool}
    (ok : inLedger ledger id = .ok same) (valid : validId id = true) :
    same = true ↔ ledger.Holds id := by
  rw [inLedger, valid] at ok
  simp only [Bool.not_true, Bool.false_eq_true, if_false] at ok
  split_ifs at ok
  cases ok
  rw [Option.isSome_iff_ne_none, ne_eq, Ledger.find_eq_none_iff, not_not]

/-- What is not an id counts as in the ledger. -/
theorem inLedger_eq_ok_false {ledger : Ledger} {id : String}
    (ok : inLedger ledger id = .ok false) : ¬ ledger.Holds id := by
  rw [← Ledger.find_eq_none_iff]
  rw [inLedger] at ok
  split_ifs at ok
  · cases Except.ok.inj ok
  · exact Option.isNone_iff_eq_none.mp (Option.isSome_eq_false_iff.mp (Except.ok.inj ok))

/-- An append leaves the record at its position, and adds one line for an id that
is new. -/
theorem appendLine_ok {line : Members} {id : String} {ledger ledger' : Ledger} {seq : Nat}
    (ok : appendLine emitter around line id ledger = .ok (seq, ledger')) :
    (∃ text entry, emitter.lineForm line = .ok text ∧ 0 < seq ∧
      ledger'.lines[seq - 1]? = some entry ∧ entry.text = text ∧ entry.capsuleId = id) ∧
    (ledger'.count id = 1 ↔ ledger.count id ≤ 1) := by
  simp only [appendLine, bind_eq_ok_iff, ensure_eq_ok_iff] at ok
  rcases ok with ⟨_, _, text, form, _, _, _, _, ok⟩
  cases found : ledger.find id with
  | some pair =>
      rcases pair with ⟨position, existing⟩
      rw [found] at ok
      dsimp only at ok
      split_ifs at ok with same
      cases ok
      rcases Ledger.find_eq_some found with ⟨positive, there, named⟩
      rw [Bool.and_eq_true, decide_eq_true_eq] at same
      refine ⟨⟨text, existing, form, positive, there, same.2, named⟩, ?_⟩
      have some : ledger.count id ≠ 0 := by
        rw [ne_eq, Ledger.count_eq_zero_iff, not_not]
        exact Ledger.holds_of_find found
      omega
  | none =>
      rw [found] at ok
      simp only [bind_eq_ok_iff] at ok
      rcases ok with ⟨_, _, ok⟩
      cases ok
      refine ⟨⟨text, ⟨id, text, true⟩, form, Nat.succ_pos _, ?_, rfl, rfl⟩, ?_⟩
      · rw [Nat.add_sub_cancel, List.getElem?_append_right (Nat.le_refl _), Nat.sub_self]
        rfl
      · have zero : ledger.count id = 0 :=
          Ledger.count_eq_zero_iff.mpr (Ledger.find_eq_none_iff.mp found)
        have one : ({ ledger with lines := ledger.lines ++ [⟨id, text, true⟩] } : Ledger).count id =
            ledger.count id + 1 := by
          rw [Ledger.count, List.countP_append]
          simp [Ledger.count]
        rw [one, zero]
        simp

/-! ## A sealed capsule -/

theorem payloadDigest_eq_ok {value : Core.Value} {text : Option String}
    (ok : payloadDigest emitter around call value = .ok text) :
    (given value = none ∧ text = none) ∨ ∃ payload d, given value = some payload ∧ text = some d ∧
      digestHex emitter payload (emitSalt around call) = .ok d := by
  rw [payloadDigest] at ok
  cases there : given value with
  | none =>
      rw [there] at ok
      cases ok
      exact Or.inl ⟨rfl, rfl⟩
  | some payload =>
      rw [there] at ok
      rcases map_eq_ok_iff.mp ok with ⟨d, digested, rfl⟩
      exact Or.inr ⟨payload, d, rfl, rfl, digested⟩

/-- What a sealed capsule has been made from. -/
structure Sealed (emitter : Emitter) (around : Surroundings) (call : Call) (ledger : Ledger)
    (capsule : Members) (input output : Option String) : Prop where
  digestedInput : payloadDigest emitter around call call.agentInput = .ok input
  digestedOutput : payloadDigest emitter around call call.agentOutput = .ok output
  states : ∀ name, attested capsule name =
    ((supplied call name).or ((ownMembers around call input output).lookup name)).or
      (declared call name)
  apart : (∃ name, declared call name ≠ none) → ∀ name,
    (supplied call name).or ((ownMembers around call input output).lookup name) = none
  parent : ∀ id, call.confirms = some id →
    (ledger.Holds id → parentOf capsule = some (.str id)) ∧
    (¬ ledger.Holds id → Cites capsule id ∧
      (capsule.lookup "chain" = none ↔ "chain" ∉ call.payloadMembers.map Prod.fst))

/-- What is read of the attestation of a capsule that is built. -/
theorem attested_buildCapsule (documented : emitter.Documented) {compute : Members}
    {effect : Option EffectRecord} {parent : Option String}
    {references : Option (List ReferenceEntry)} {capsule : Members}
    (ok : buildCapsule emitter around call compute effect parent references = .ok capsule)
    (name : String) : attested capsule name = compute.lookup name := by
  rw [documented.attests _ _ ok]
  cases empty : compute.isEmpty with
  | true =>
      have none : compute = [] := List.isEmpty_iff.mp empty
      subst none
      dsimp only [List.isEmpty_nil, if_true]
      split
      · rfl
      · rfl
  | false =>
      simp only [Bool.false_eq_true, if_false, Option.map_some]
      split
      · rfl
      · rfl

theorem mem_citeForeign (id : String) (references : Option (List ReferenceEntry)) :
    ∃ reference ∈ citeForeign id references, reference.digestAlg = "SHA-256" ∧
      reference.digest = id := by
  unfold citeForeign
  dsimp only
  split_ifs with cited
  · rcases List.any_eq_true.mp cited with ⟨reference, inside, same⟩
    rw [Bool.and_eq_true, decide_eq_true_eq, decide_eq_true_eq] at same
    exact ⟨reference, inside, same⟩
  · exact ⟨_, List.mem_append_right _ (List.mem_singleton_self _), rfl, rfl⟩

/-- The steps up to the append. -/
theorem sealCall_ok (documented : emitter.Documented) {ledger : Ledger} {id : String}
    {capsule : Members} (ok : sealCall emitter around call ledger = .ok (id, capsule)) :
    (∃ input output, Sealed emitter around call ledger capsule input output) ∧
      capsule.lookup "capsule_id" = some (.str id) ∧
      computeCapsuleId emitter (capsule.filter (fun entry => isUnsigned entry.1)) = .ok id := by
  simp only [sealCall, bind_eq_ok_iff] at ok
  rcases ok with ⟨_, _, input, digestedInput, output, digestedOutput, effect, _,
    ⟨parent, references⟩, place, base, built, full, added, signed⟩
  have reads : ∀ name ∉ reservedMembers, capsule.lookup name =
      (base.lookup name).or (call.payloadMembers.lookup name) := by
    intro name other
    rw [lookup_signCapsule signed other, (lookup_addMembers added name).1]
  have attestation : ∀ name, attested capsule name = (attested base name).or (declared call name) ∧
      (declared call name ≠ none → base.lookup "model_attestation" = none) := by
    intro name
    rw [attested, reads "model_attestation" (by decide), declared, attested, attested]
    cases there : call.payloadMembers.lookup "model_attestation" with
    | none => simp
    | some value =>
        rw [(lookup_addMembers added "model_attestation").2 (by rw [there]; nofun)]
        simp
  refine ⟨⟨input, output, digestedInput, digestedOutput, ?_, ?_, ?_⟩, signCapsule_id signed⟩
  · intro name
    rw [(attestation name).1, attested_buildCapsule documented built, lookup_computeAttestation]
  · rintro ⟨other, some⟩ name
    have bare := (attestation other).2 some
    rw [← lookup_computeAttestation, ← attested_buildCapsule documented built, attested, bare]
    rfl
  · intro target confirms
    rw [placed, confirms] at place
    simp only [bind_eq_ok_iff] at place
    rcases place with ⟨same, held, place⟩
    have chainOf := lookup_addMembers added "chain"
    cases same with
    | true =>
        cases place
        have valid := documented.rejects _ _ built _ rfl
        have holds := (inLedger_eq_ok held valid).mp rfl
        have named := documented.chained _ _ built _ rfl
        refine ⟨fun _ => ?_, fun absent => (absent holds).elim⟩
        rw [parentOf] at named ⊢
        cases there : base.lookup "chain" with
        | none =>
            rw [there] at named
            cases named
        | some chain =>
            rw [reads "chain" (by decide), there]
            rw [there] at named
            exact named
    | false =>
        cases place
        have absent := inLedger_eq_ok_false held
        have unchained := documented.unchained _ _ built rfl
        refine ⟨fun holds => (absent holds).elim, fun _ => ⟨?_, ?_⟩⟩
        · rcases documented.cites _ _ built _ rfl with ⟨items, listed, each⟩
          rcases mem_citeForeign target call.references with ⟨reference, inside, alg, digest⟩
          rcases each reference inside with ⟨item, there, itemAlg, itemDigest⟩
          refine ⟨items, ?_, item, there, by rw [itemAlg, alg], by rw [itemDigest, digest]⟩
          rw [reads "references" (by decide), listed]
          rfl
        · rw [reads "chain" (by decide), unchained, Option.none_or,
            OrderedMap.lookup_eq_none_iff]

/-! ## The calls that keep the promise -/

section

variable {ledger : Ledger} {capsule : Members} {input output : Option String}

/-- A digest that no caller's member replaces is that of the payload. -/
theorem Sealed.commits (sealed' : Sealed emitter around call ledger capsule input output)
    (untouched : Untouched around call ledger) {name : String} (known : name ∈ digestNames)
    {value : Core.Value} {text : Option String}
    (digested : payloadDigest emitter around call value = .ok text)
    (written : (ownMembers around call input output).lookup name = text.map Python.Value.str)
    (stored : text.isSome = true → (input.isSome || output.isSome) = true)
    (payload : (given value).isSome = true →
      (given call.agentInput).isSome = true ∨ (given call.agentOutput).isSome = true) :
    Commits emitter capsule name value := by
  have own : attested capsule name = text.map Python.Value.str := by
    rw [sealed'.states, (untouched.digests name known).1, (untouched.digests name known).2, written,
      Option.none_or, Option.or_none]
  rcases payloadDigest_eq_ok digested with ⟨none, rfl⟩ | ⟨some, d, there, rfl, computed⟩
  · rw [Commits, none]
    exact own
  · have salted : (ownMembers around call input output).lookup "digest_salt" =
        (emitSalt around call).map Python.Value.str := by
      rw [lookup_ownMembers, if_neg (by decide), if_neg (by decide), if_pos rfl, stored rfl,
        if_pos rfl]
    have undeclared : declared call "digest_salt" = none := by
      by_contra declared'
      have nothing := sealed'.apart ⟨_, declared'⟩ name
      rw [written, Option.map_some, Option.or_eq_none_iff] at nothing
      cases nothing.2
    rw [Commits, there]
    refine ⟨emitSalt around call, d, ?_, computed, own⟩
    rw [sealed'.states, undeclared, Option.or_none, salted]
    cases given' : supplied call "digest_salt" with
    | none => rfl
    | some value' =>
        rcases untouched.salt (payload (by rw [there]; rfl)) value' given' with ⟨salt, same, rfl⟩
        rw [same]
        rfl

/-- A digest that is committed to, and is no member of the caller's, was written by
the emitter, under the salt that the caller supplies if there is one. -/
theorem Sealed.untouched_salt (sealed' : Sealed emitter around call ledger capsule input output)
    {name : String} {value payload : Core.Value} {text : Option String}
    (digested : payloadDigest emitter around call value = .ok text)
    (written : (ownMembers around call input output).lookup name = text.map Python.Value.str)
    (unsupplied : supplied call name = none) (there : given value = some payload)
    (commits : Commits emitter capsule name value) {salt : Python.Value}
    (given' : supplied call "digest_salt" = some salt)
    (apart : ∀ text d, salt = .str text →
      digestHex emitter payload (emitSalt around call) = .ok d →
      digestHex emitter payload (some text) = .ok d → emitSalt around call = some text) :
    ∃ text, emitSalt around call = some text ∧ salt = .str text := by
  rcases payloadDigest_eq_ok digested with ⟨none, _⟩ | ⟨some, d, same, rfl, computed⟩
  · rw [none] at there
    cases there
  · rw [there] at same
    cases same
    rw [Commits, there] at commits
    rcases commits with ⟨stated, text, saltStated, computed', present⟩
    rw [sealed'.states, unsupplied, written, Option.none_or, Option.map_some, Option.some_or] at present
    cases present
    rw [sealed'.states, given', Option.some_or, Option.some_or] at saltStated
    cases stated with
    | none => cases saltStated
    | some text =>
        cases saltStated
        exact ⟨text, apart text d rfl computed computed', rfl⟩

/-- A member of the caller's with the name of a digest breaks the promise. -/
theorem Sealed.unsupplied (sealed' : Sealed emitter around call ledger capsule input output)
    {name : String} (own : ∀ value, supplied call name = some value →
      attested capsule name ≠ some value) : supplied call name = none := by
  cases given' : supplied call name with
  | none => rfl
  | some value =>
      apply (own value given' _).elim
      rw [sealed'.states, given', Option.some_or, Option.some_or]

/-- So does one in an attestation of a profile. -/
theorem Sealed.undeclared (sealed' : Sealed emitter around call ledger capsule input output)
    {name : String} {value : Core.Value} {text : Option String}
    (digested : payloadDigest emitter around call value = .ok text)
    (written : (ownMembers around call input output).lookup name = text.map Python.Value.str)
    (commits : Commits emitter capsule name value) : declared call name = none := by
  by_contra some
  have nothing := sealed'.apart ⟨name, some⟩ name
  have none : text = none := by
    rw [written, Option.or_eq_none_iff, Option.map_eq_none_iff] at nothing
    exact nothing.2
  rcases payloadDigest_eq_ok digested with ⟨missing, _⟩ | ⟨_, _, _, there, _⟩
  · rw [Commits, missing] at commits
    change attested capsule name = Option.none at commits
    rw [sealed'.states, nothing, Option.none_or] at commits
    exact some commits
  · rw [none] at there
    cases there

end

/-- A call that returns keeps its promise exactly when it is given no member that
replaces one of the emitter's own and the ledger does not repeat the id; and a call
that raises leaves the ledger as it was, unless it raises after the append. -/
theorem emit_committed_iff (documented : emitter.Documented) (around : Surroundings) (call : Call)
    (ledger : Ledger)
    (apart : ∀ payload, given call.agentInput = some payload ∨
      given call.agentOutput = some payload → ∀ text d,
      supplied call "digest_salt" = some (.str text) →
      digestHex emitter payload (emitSalt around call) = .ok d →
      digestHex emitter payload (some text) = .ok d → emitSalt around call = some text) :
    (∀ result ledger', emitCapsule emitter around call ledger = (.ok result, ledger') →
      (Committed emitter call ledger result ledger' ↔
        Untouched around call ledger ∧ ledger.count result.capsuleId ≤ 1)) ∧
    ∀ e ledger', emitCapsule emitter around call ledger = (.error e, ledger') →
      ledger' = ledger ∨ around.publish = .error e := by
  constructor
  · intro result ledger' returned
    rw [emitCapsule] at returned
    cases sealing : sealCall emitter around call ledger with
    | error e =>
        rw [sealing] at returned
        cases returned
    | ok pair =>
        rcases pair with ⟨id, capsule⟩
        rw [sealing] at returned
        dsimp only at returned
        cases appending : appendLine emitter around capsule id ledger with
        | error e =>
            rw [appending] at returned
            cases returned
        | ok pair =>
            rcases pair with ⟨seq, after⟩
            rw [appending] at returned
            dsimp only at returned
            rcases Prod.mk.inj returned with ⟨published, rfl⟩
            rcases map_eq_ok_iff.mp published with ⟨_, _, rfl⟩
            rcases sealCall_ok documented sealing with ⟨⟨input, output, sealed'⟩, idThere, recomputes⟩
            rcases appendLine_ok appending with ⟨recorded, once⟩
            have inputWritten : (ownMembers around call input output).lookup "agent_input_digest" =
                input.map Python.Value.str := by rw [lookup_ownMembers, if_pos rfl]
            have outputWritten : (ownMembers around call input output).lookup
                "agent_output_digest" = output.map Python.Value.str := by
              rw [lookup_ownMembers, if_neg (by decide), if_pos rfl]
            constructor
            · intro committed
              have noInput := sealed'.unsupplied (committed.own _ (List.mem_cons_self))
              have noOutput := sealed'.unsupplied (committed.own "agent_output_digest" (by decide))
              refine ⟨⟨?_, fun present salt given' => ?_, fun target confirms absent => ?_⟩,
                once.mp committed.once⟩
              · intro name known
                rcases List.mem_cons.mp known with rfl | known
                · exact ⟨noInput, sealed'.undeclared sealed'.digestedInput inputWritten
                    committed.input⟩
                · rcases List.mem_singleton.mp known with rfl
                  exact ⟨noOutput, sealed'.undeclared sealed'.digestedOutput outputWritten
                    committed.output⟩
              · rcases present with present | present
                · rcases Option.isSome_iff_exists.mp present with ⟨payload, there⟩
                  exact sealed'.untouched_salt sealed'.digestedInput inputWritten noInput there
                    committed.input given' (fun text d same => apart payload (Or.inl there) text d
                      (same ▸ given'))
                · rcases Option.isSome_iff_exists.mp present with ⟨payload, there⟩
                  exact sealed'.untouched_salt sealed'.digestedOutput outputWritten noOutput there
                    committed.output given' (fun text d same => apart payload (Or.inr there) text d
                      (same ▸ given'))
              · exact ((sealed'.parent target confirms).2 absent).2.mp
                  ((committed.parent target confirms).2 absent).1
            · rintro ⟨untouched, few⟩
              refine ⟨?_, ?_, fun name known value given' => ?_, ⟨idThere, recomputes⟩,
                fun target confirms => ⟨?_, fun absent => ⟨?_, ?_⟩⟩, recorded, once.mpr few⟩
              · exact sealed'.commits untouched List.mem_cons_self sealed'.digestedInput inputWritten
                  (fun some => by rw [some]; rfl) Or.inl
              · exact sealed'.commits untouched (by decide) sealed'.digestedOutput outputWritten
                  (fun some => by rw [some, Bool.or_true]) Or.inr
              · rw [(untouched.digests name known).1] at given'
                cases given'
              · exact (sealed'.parent target confirms).1
              · exact ((sealed'.parent target confirms).2 absent).2.mpr
                  (untouched.chain target confirms absent)
              · exact ((sealed'.parent target confirms).2 absent).1
  · intro e ledger' raised
    rw [emitCapsule] at raised
    split at raised
    · cases raised
      exact Or.inl rfl
    · split at raised
      · cases raised
        exact Or.inl rfl
      · rcases Prod.mk.inj raised with ⟨published, _⟩
        cases publishing : around.publish with
        | error e' =>
            rw [publishing] at published
            cases published
            exact Or.inr rfl
        | ok _ =>
            rw [publishing] at published
            cases published

/-! ## A call -/

def entry (name : String) (value : Option Python.Value) : Members :=
  (value.map (fun value => (name, value))).toList

theorem lookup_entry (name other : String) (value : Option Python.Value) :
    (entry name value).lookup other = if other = name then value else none := by
  cases value with
  | none => simp [entry]
  | some value =>
      change [(name, value)].lookup other = _
      by_cases same : other = name
      · rw [OrderedMap.lookup_cons_of_eq same, if_pos same]
      · rw [OrderedMap.lookup_cons_of_ne same, if_neg same]
        rfl

mutual
/-- What is printed of a value; a float has no tree. -/
def treeOf : Python.Value → Option Tree
  | .none => some .null
  | .bool b => some (.bool b)
  | .int n => some (.int n)
  | .float _ => none
  | .str text => some (.string (text.toList.map Char.toNat))
  | .list items => (treesOf items).map .array
  | .dict members => (memberTreesOf members).map .object

def treesOf : List Python.Value → Option (List Tree)
  | [] => some []
  | item :: items => do
      let first ← treeOf item
      let rest ← treesOf items
      return first :: rest

def memberTreesOf : List (String × Python.Value) → Option (List (Str × Tree))
  | [] => some []
  | (name, value) :: members => do
      let first ← treeOf value
      let rest ← memberTreesOf members
      return (name.toList.map Char.toNat, first) :: rest
end

mutual
/-- `json.dumps(value, separators=(",", ":"))` -/
def lineText : Tree → Bytes
  | .null => nullText
  | .bool b => boolText b
  | .int n => intText n
  | .string text => asciiString text
  | .array items => 91 :: (commas (lineTexts items) ++ [93])
  | .object members => 123 :: (commas (memberTexts members) ++ [125])

def lineTexts : List Tree → List Bytes
  | [] => []
  | item :: items => lineText item :: lineTexts items

def memberTexts : List (Str × Tree) → List Bytes
  | [] => []
  | (name, value) :: members => (asciiString name ++ 58 :: lineText value) :: memberTexts members
end

def referenceValue (reference : ReferenceEntry) : Python.Value :=
  .dict (entry "type" (some (.str reference.type)) ++
    entry "digest_alg" (some (.str reference.digestAlg)) ++
    entry "digest" (some (.str reference.digest)) ++
    entry "citation_purpose" (reference.citationPurpose.map Python.Value.str) ++
    entry "log_coordinates" reference.logCoordinates)

def attestationValue (attestation : ModelAttestation) : Python.Value :=
  .dict (entry "model_id" attestation.modelId ++ entry "provider" attestation.provider ++
    entry "compute_attestation" (attestation.computeAttestation.map Python.Value.dict))

theorem field_attestationValue (attestation : ModelAttestation) :
    field "compute_attestation" (attestationValue attestation) =
      attestation.computeAttestation.map Python.Value.dict := by
  simp [attestationValue, field, OrderedMap.lookup_append, lookup_entry]

/-- The dictionary of a capsule object without an effect. -/
def objectMembers (object : Capsule) : Members :=
  entry "spec_version" (some (.str object.specVersion)) ++
  entry "format_version" (some (.str object.formatVersion)) ++
  entry "action_id" (some (.str object.actionId)) ++
  entry "action_type" (some (.str object.actionType)) ++
  entry "operator" (some (.str object.operator)) ++
  entry "developer" (some (.str object.developer)) ++
  entry "timestamp" (some (.str object.timestamp)) ++
  entry "canonicalization_id" (some (.str object.canonicalizationId)) ++
  entry "model_attestation" (object.modelAttestation.map attestationValue) ++
  entry "assurance" (some (.dict (entry "attestation_mode" (some (.str object.assurance.attestationMode)) ++
    entry "effect_mode" (some (.str object.assurance.effectMode)) ++
    entry "ledger_mode" (some (.str object.assurance.ledgerMode))))) ++
  entry "disposition" (some (.dict (entry "decision" (some (.str object.disposition.decision)) ++
    entry "approver" (some (.str object.disposition.approver)) ++
    entry "human_disposed" (some (.bool object.disposition.humanDisposed)) ++
    entry "verdict_class" (some (.str object.disposition.verdictClass))))) ++
  entry "chain" (object.chain.map (fun chain => .dict
    (entry "parent_capsule_id" (some (.str chain.parentCapsuleId)) ++
      entry "relation" (some (.str chain.relation))))) ++
  entry "references" (object.references.map (fun references =>
    .list (references.map referenceValue)))

/-- An emitter that seals an object into its dictionary. -/
def sampleEmitter : Emitter where
  packages := reference
  sealObject object :=
    if object.chain.all (fun chain => validId chain.parentCapsuleId) then .ok (objectMembers object)
    else .error .other
  jcs members := (memberTreesOf members).elim (.error .other) (fun members => .ok (jcs (.object members)))
  normalizedJcs _ := .error .other
  lineForm members :=
    (memberTreesOf members).elim (.error .other) (fun members => .ok (lineText (.object members)))
  effectMode _ := "none"
  sign id := .ok ("d284" ++ id, "8a88e3dd7409f195fd52db2d3cba5d72ca6709bf1d94121bf3748801b40f6f5c")

theorem sampleEmitter_documented : sampleEmitter.Documented where
  attests := by
    intro object capsule ok name
    simp only [sampleEmitter] at ok
    split_ifs at ok
    cases ok
    have stated : (objectMembers object).lookup "model_attestation" =
        object.modelAttestation.map attestationValue := by
      simp [objectMembers, OrderedMap.lookup_append, lookup_entry]
    rw [attested, stated]
    cases object.modelAttestation with
    | none => rfl
    | some attestation =>
        rw [Option.map_some, Option.bind_some, Option.bind_some, field_attestationValue]
        cases attestation.computeAttestation with
        | none => rfl
        | some compute => rfl
  chained := by
    intro object capsule ok chain there
    simp only [sampleEmitter] at ok
    split_ifs at ok
    cases ok
    simp [parentOf, objectMembers, OrderedMap.lookup_append, lookup_entry, there, field]
  unchained := by
    intro object capsule ok there
    simp only [sampleEmitter] at ok
    split_ifs at ok
    cases ok
    simp [objectMembers, OrderedMap.lookup_append, lookup_entry, there]
  cites := by
    intro object capsule ok references there
    simp only [sampleEmitter] at ok
    split_ifs at ok
    cases ok
    refine ⟨references.map referenceValue, ?_, fun reference inside =>
      ⟨referenceValue reference, List.mem_map_of_mem inside, ?_, ?_⟩⟩
    · simp [objectMembers, OrderedMap.lookup_append, lookup_entry, there]
    · simp [referenceValue, field, OrderedMap.lookup_append, lookup_entry]
    · simp [referenceValue, field, OrderedMap.lookup_append, lookup_entry]
  rejects := by
    intro object capsule ok chain there
    simp only [sampleEmitter] at ok
    split_ifs at ok with valid
    rw [there] at valid
    exact valid

theorem validId_hex (bytes : Bytes) : validId (Sha256.hex (Sha256.digest bytes)) = true := by
  rw [validId, Bool.and_eq_true, decide_eq_true_eq, Sha256.length_utf8_hex, Sha256.length_digest]
  exact ⟨rfl, Sha256.utf8_hex_all _⟩

def sampleAround : Surroundings where
  salt := "000102030405060708090a0b0c0d0e0f"
  uuid := "6f1c2b1e-8c3d-4a57-9f60-0d2b7a1c5e44"
  now := "2026-10-01T12:00:00.000000Z"
  stubRefused := false
  locked := none
  stopped := none
  publish := .ok ()

/-- A call with a payload, a salt and a target of another stream. -/
def sampleCall (extra : Members) (once : (extra.map Prod.fst).Nodup) : Call where
  action := "write_po"
  operator := "acme-co"
  developer := "po-agent@v1"
  runtime := none
  agentInput := .str [104, 105]
  agentOutput := .none
  model := []
  verdict := "executed"
  effect := none
  confirms := some "0f0e0d0c0b0a09080706050403020100f0e0d0c0b0a090807060504030201000"
  relation := some "confirms"
  humanDisposed := false
  approver := "policy"
  decision := "accept"
  actionType := none
  extraCompute := extra
  dispositionAuthority := none
  saltDigests := true
  canonicalizationId := "jcs"
  references := none
  payloadMembers := []
  provenanceMode := none
  modelOnce := List.nodup_nil
  extraOnce := once
  membersOnce := List.nodup_nil

def emptyLedger : Ledger := ⟨[], false⟩

/-- What is returned for a capsule that the ledger takes. -/
theorem emitCapsule_new {ledger : Ledger} {id : String} {capsule : Members} {text : Bytes}
    (sealing : sealCall emitter around call ledger = .ok (id, capsule)) (valid : validId id = true)
    (record : isRecord capsule = true) (form : emitter.lineForm capsule = .ok text)
    (unlocked : around.locked = none) (open' : around.stopped = none)
    (readable : ledger.corrupt = false) (new : ledger.find id = none)
    (published : around.publish = .ok ()) :
    emitCapsule emitter around call ledger = (.ok ⟨id, capsule, ledger.lines.length + 1⟩,
      { ledger with lines := ledger.lines ++ [⟨id, text, true⟩] }) := by
  have appending : appendLine emitter around capsule id ledger = .ok (ledger.lines.length + 1,
      { ledger with lines := ledger.lines ++ [⟨id, text, true⟩] }) := by
    simp only [appendLine, valid, record, form, unlocked, open', readable, new]
    rfl
  simp only [emitCapsule, sealing, appending, published]
  rfl

def hosted : Call := sampleCall [("host", .str "h1")] (List.nodup_singleton _)

set_option maxRecDepth 8000 in
/-- The call is committed to, with another member in its attestation. -/
theorem emit_committed_hosted : ∃ result ledger',
    emitCapsule sampleEmitter sampleAround hosted emptyLedger = (.ok result, ledger') ∧
      Committed sampleEmitter hosted emptyLedger result ledger' := by
  have sealing : ∃ text capsule, sealCall sampleEmitter sampleAround hosted emptyLedger =
      .ok (Sha256.hex (Sha256.digest text), capsule) ∧ isRecord capsule = true ∧
        ∃ form, sampleEmitter.lineForm capsule = .ok form := ⟨_, _, rfl, rfl, _, rfl⟩
  rcases sealing with ⟨text, capsule, sealing, record, form, printed⟩
  have returned := emitCapsule_new sealing (validId_hex text) record printed rfl rfl rfl rfl rfl
  refine ⟨_, _, returned, ((emit_committed_iff sampleEmitter_documented sampleAround hosted emptyLedger
    (fun _ _ _ _ given' => by cases given')).1 _ _ returned).mpr ⟨⟨?_, ?_, ?_⟩, Nat.zero_le 1⟩⟩
  · intro name known
    rcases List.mem_cons.mp known with rfl | known
    · exact ⟨rfl, rfl⟩
    · rcases List.mem_singleton.mp known with rfl
      exact ⟨rfl, rfl⟩
  · intro _ value given'
    cases given'
  · intro _ _ _
    exact List.not_mem_nil

def overridden : Call := sampleCall [("agent_input_digest", .str "00")] (List.nodup_singleton _)

set_option maxRecDepth 8000 in
/-- A member of `extra_compute` stands where the digest of the input is to be. -/
theorem emit_not_committed : ∃ result ledger',
    emitCapsule sampleEmitter sampleAround overridden emptyLedger = (.ok result, ledger') ∧
      ¬ Committed sampleEmitter overridden emptyLedger result ledger' := by
  have sealing : ∃ text capsule, sealCall sampleEmitter sampleAround overridden emptyLedger =
      .ok (Sha256.hex (Sha256.digest text), capsule) ∧ isRecord capsule = true ∧
        (∃ form, sampleEmitter.lineForm capsule = .ok form) ∧
        attested capsule "agent_input_digest" = some (.str "00") :=
    ⟨_, _, rfl, rfl, ⟨_, rfl⟩, rfl⟩
  rcases sealing with ⟨text, capsule, sealing, record, ⟨form, printed⟩, replaced⟩
  have returned := emitCapsule_new sealing (validId_hex text) record printed rfl rfl rfl rfl rfl
  refine ⟨_, _, returned, fun committed => ?_⟩
  exact committed.own "agent_input_digest" List.mem_cons_self (.str "00") rfl replaced

end Core
end CapsuleEmit
