import CapsuleEmit.ArtifactStore.StrictJson
import CapsuleEmit.Foundation.ScannedDocuments

namespace CapsuleEmit
namespace Verify

open JsonText Scanner
open ArtifactStore.Python (isIntText intMaxStrDigits)

/-!
# Checking an input against its sealed digest

`verify_input_digest` compares the digest of a candidate with the one a
capsule was sealed with.  The strict tier scans the bytes the candidate came
from with hooks that refuse floats, integers in another form and repeated
names, and only refuses.  The function is to return a result whatever it is
given, and the strict tier is to let through the JSON texts whose numbers are
canonical integers and whose objects repeat no name.

It does neither.  A capsule whose attestation is not an object and a text that
is nested too deep end it with an exception.  The scanner takes texts in other
encodings and the constants, which are no JSON, and `int` refuses integers
that are too long.
-/

/-! ## The function -/

inductive VerifyReason where
  | verified
  | digestMismatch
  | nonConforming
  deriving DecidableEq

structure InputDigestResult where
  ok : Bool
  reason : VerifyReason
  deriving DecidableEq

/-- The classes of exceptions. -/
inductive Raised where
  | attributeError
  | floatInDigestError
  | recursionError
  | typeError
  | valueError
  | other
  deriving DecidableEq

/-- The levels the interpreter follows: in `json.loads`, and in `plain_json`
when Pydantic is loaded. -/
structure Interpreter where
  loadsLevels : Nat
  plainLevels : Option Nat

/-- A token matches `^(?:0|-?[1-9][0-9]*)$`. -/
def strictIntToken (token : Bytes) : Bool :=
  let leads (b : UInt8) := 49 ≤ b && b ≤ 57
  match token with
  | [] => false
  | [b] => b = 48 || leads b
  | b :: c :: rest =>
      if b = 45 then leads c && rest.all isDigit else leads b && (c :: rest).all isDigit

/-- `int(token)` does not refuse the token for its length. -/
def intConverts (token : Bytes) : Bool := (token.filter isDigit).length ≤ intMaxStrDigits

def strictParseInt (token : Bytes) : Bool := strictIntToken token && intConverts token

def strictParseFloat (_ : Bytes) : Bool := false

/-- The loop of `_strict_object_pairs` over the names. -/
def unseen (seen : List Bytes) : List Bytes → Bool
  | [] => true
  | key :: names => !seen.contains key && unseen (key :: seen) names

def strictObjectPairs (names : List Bytes) : Bool := unseen [] names

variable (interpreter : Interpreter)

def strictHooks : Hooks where
  levels := some interpreter.loadsLevels
  number := fun token =>
    if isIntText token then strictParseInt token.text else strictParseFloat token.text
  names := strictObjectPairs

/-- `_has_strict_token_violations`: every `ValueError` is caught, the
`RecursionError` is not. -/
def hasStrictTokenViolations (rawJsonBytes : Bytes) : Except Raised Bool :=
  match loads (strictHooks interpreter) rawJsonBytes with
  | .ok _ => .ok false
  | .error .violation => .ok true
  | .error .malformed => .ok true
  | .error .recursion => .error .recursionError

/-- `value.get(name, default)`: what is not an object has no such method. -/
def get (name : String) (value : Json) : Except Raised (Option Json) :=
  match value with
  | .object members => .ok (Json.lookup name members)
  | _ => .error .attributeError

/-- The stored digest, if there is one. -/
def stored (capsule : List (Bytes × Json)) : Except Raised (Option Json) := do
  let modelAttestation ← get "model_attestation" (.object capsule)
  let computeAttestation ← get "compute_attestation" (modelAttestation.getD (.object []))
  get "agent_input_digest" (computeAttestation.getD (.object []))

/-- `plain_json` of a JSON value is the value. -/
def plainJson (candidateInput : Json) : Except Raised Json :=
  match interpreter.plainLevels with
  | none => .ok candidateInput
  | some levels =>
      if candidateInput.nesting ≤ levels then .ok candidateInput else .error .recursionError

/-- The exceptions of the digest layer that are mapped. -/
def caught : List Raised :=
  [.floatInDigestError, .typeError, .valueError, .recursionError, .attributeError]

variable (jsonDigest : Json → Except Raised Bytes)

/-- The lenient tier. -/
def lenientTier (capsule : List (Bytes × Json)) (candidateInput : Json) :
    Except Raised InputDigestResult := do
  let found ← stored capsule
  match found with
  | none => .ok ⟨false, .digestMismatch⟩
  | some .null => .ok ⟨false, .digestMismatch⟩
  | some found =>
      match plainJson interpreter candidateInput >>= jsonDigest with
      | .error raised => if raised ∈ caught then .ok ⟨false, .nonConforming⟩ else .error raised
      | .ok actual =>
          match found with
          | .string digest =>
              if digest = actual then .ok ⟨true, .verified⟩ else .ok ⟨false, .digestMismatch⟩
          | _ => .ok ⟨false, .digestMismatch⟩

/-- The strict tier lets bytes through, when there are any to check. -/
def strictTier (strict : Bool) (rawJsonBytes : Option Bytes) : Except Raised Bool :=
  match strict, rawJsonBytes with
  | true, some raw => (hasStrictTokenViolations interpreter raw).map (fun violates => !violates)
  | _, _ => .ok true

def verifyInputDigest (capsule : List (Bytes × Json)) (candidateInput : Json) (strict : Bool)
    (rawJsonBytes : Option Bytes) : Except Raised InputDigestResult := do
  let passes ← strictTier interpreter strict rawJsonBytes
  if passes then lenientTier interpreter jsonDigest capsule candidateInput
  else .ok ⟨false, .nonConforming⟩

/-! ## What it is to do -/

/-- The bytes are a JSON text, its numbers canonical integers, and no object of
it repeats a member name. -/
def CanonicalText (raw : Bytes) : Prop :=
  Utf8.Valid raw ∧ ∃ document, readDocumentLenient raw = some document ∧
    document.everyNumber (fun number => strictIntToken number.text) = true ∧
    document.distinct = true

def isVerified (result : Except Raised InputDigestResult) : Prop :=
  result = .ok ⟨true, .verified⟩

/-- A result is returned with and without the strict tier, and the strict tier
lets through the canonical texts. -/
structure Honoured (capsule : List (Bytes × Json)) (candidateInput : Json) (raw : Bytes) :
    Prop where
  returns : ∀ strict, ∀ bytes ∈ [none, some raw],
    ∃ result, verifyInputDigest interpreter jsonDigest capsule candidateInput strict bytes =
      .ok result
  strict_iff : isVerified
      (verifyInputDigest interpreter jsonDigest capsule candidateInput true (some raw)) ↔
    isVerified (verifyInputDigest interpreter jsonDigest capsule candidateInput false none) ∧
      CanonicalText raw

/-! ## When it does it -/

/-- A member is an object when it is there. -/
def ObjectOrAbsent (member : Option Json) : Prop :=
  ∀ value, member = some value → ∃ members, value = .object members

/-- The attestations of a capsule are objects when they are there. -/
def Attested (capsule : List (Bytes × Json)) : Prop :=
  ObjectOrAbsent (Json.lookup "model_attestation" capsule) ∧
    ∀ members, Json.lookup "model_attestation" capsule = some (.object members) →
      ObjectOrAbsent (Json.lookup "compute_attestation" members)

/-- The digest of the candidate is the stored one. -/
def Sealed (capsule : List (Bytes × Json)) (candidateInput : Json) : Prop :=
  ∃ digest, (plainJson interpreter candidateInput >>= jsonDigest) = .ok digest ∧
    stored capsule = .ok (some (.string digest))

/-- A rule on number tokens. -/
def tokens (p : Bytes → Bool) : Hooks := ⟨none, fun token => p token.text, fun _ => true⟩

/-- No names repeat. -/
def distinctNames : Hooks := ⟨none, fun _ => true, strictObjectPairs⟩

/-- Bytes that Python reads with canonical integers and without repeated names
are JSON exactly when all their integers are short enough: they are in UTF-8
and without constants when they are, and not when they are not. -/
def ReadAlike (raw : Bytes) : Prop :=
  ∀ tree, loads free raw = .ok tree → tree.conforms (tokens strictIntToken) = true →
    tree.conforms distinctNames = true →
    (tree.conforms (tokens intConverts) = true ↔
      detectEncoding raw = .utf8 ∧ Utf8.Valid raw ∧ tree.toJson?.isSome = true)

/-! ## The hooks and the documents -/

theorem isIntText_of_strictIntToken {token : JsonNumber}
    (canonical : strictIntToken token.text = true) : isIntText token = true := by
  have digit : ∀ b : UInt8, (49 ≤ b && b ≤ 57) = true → (isDigit b || decide (b = 45)) = true := by
    intro b leads
    simp only [Bool.and_eq_true, decide_eq_true_eq] at leads
    simp only [isDigit, Bool.or_eq_true, Bool.and_eq_true, decide_eq_true_eq]
    exact Or.inl ⟨UInt8.le_trans (by decide) leads.1, leads.2⟩
  have digits : ∀ rest : Bytes, rest.all isDigit = true →
      rest.all (fun b => isDigit b || decide (b = 45)) = true := by
    intro rest all
    rw [List.all_eq_true] at all ⊢
    exact fun b inside => by rw [all b inside, Bool.true_or]
  unfold isIntText
  unfold strictIntToken at canonical
  split at canonical
  · cases canonical
  · next b text =>
      rw [text, List.all_cons, List.all_nil, Bool.and_true]
      rcases Bool.or_eq_true_iff.mp canonical with zero | leads
      · rw [of_decide_eq_true zero]
        rfl
      · exact digit b leads
  · next b c rest text =>
      rw [text]
      split_ifs at canonical with minus
      · rcases Bool.and_eq_true_iff.mp canonical with ⟨leads, all⟩
        rw [List.all_cons, List.all_cons, minus, digit c leads, digits rest all]
        rfl
      · rcases Bool.and_eq_true_iff.mp canonical with ⟨leads, all⟩
        rw [List.all_cons, digit b leads, digits _ all]
        rfl

theorem strictHooks_number (token : JsonNumber) : (strictHooks interpreter).number token =
    (strictIntToken token.text && intConverts token.text) := by
  change (if isIntText token then strictParseInt token.text else strictParseFloat token.text) = _
  cases canonical : strictIntToken token.text with
  | true => rw [isIntText_of_strictIntToken canonical, if_pos rfl, strictParseInt, canonical]
  | false =>
      split_ifs
      · rw [strictParseInt, canonical]
      · rfl

mutual
/-- What the strict hooks let through is what each rule lets through. -/
theorem conforms_strictHooks : ∀ tree : Tree, tree.conforms (strictHooks interpreter) =
    (tree.conforms (tokens strictIntToken) && tree.conforms (tokens intConverts) &&
      tree.conforms distinctNames)
  | .null => rfl
  | .bool _ => rfl
  | .number token => by
      simp only [Tree.conforms, strictHooks_number, tokens, distinctNames, Bool.and_true]
  | .constant _ => rfl
  | .string _ => rfl
  | .array items => conformsItems_strictHooks items
  | .object members => by
      simp only [Tree.conforms, conformsMembers_strictHooks members, tokens, distinctNames,
        Bool.and_true]
      rw [Bool.and_assoc]
      rfl

theorem conformsItems_strictHooks : ∀ items : List Tree,
    Tree.conformsItems (strictHooks interpreter) items =
      (Tree.conformsItems (tokens strictIntToken) items &&
        Tree.conformsItems (tokens intConverts) items && Tree.conformsItems distinctNames items)
  | [] => rfl
  | item :: items => by
      simp only [Tree.conformsItems, conforms_strictHooks item, conformsItems_strictHooks items]
      ac_rfl

theorem conformsMembers_strictHooks : ∀ members : List (Bytes × Tree),
    Tree.conformsMembers (strictHooks interpreter) members =
      (Tree.conformsMembers (tokens strictIntToken) members &&
        Tree.conformsMembers (tokens intConverts) members &&
          Tree.conformsMembers distinctNames members)
  | [] => rfl
  | (name, value) :: members => by
      simp only [Tree.conformsMembers, conforms_strictHooks value,
        conformsMembers_strictHooks members]
      ac_rfl
end

mutual
/-- The rules say of what was scanned what they say of its document. -/
theorem conforms_document (p : Bytes → Bool) : ∀ (tree : Tree) (document : Json),
    tree.toJson? = some document →
      tree.conforms (tokens p) = document.everyNumber (fun number => p number.text) ∧
        tree.conforms distinctNames = document.distinct
  | .null, _, same => by cases same; exact ⟨rfl, rfl⟩
  | .bool _, _, same => by cases same; exact ⟨rfl, rfl⟩
  | .number _, _, same => by cases same; exact ⟨rfl, rfl⟩
  | .constant _, _, same => by cases same
  | .string _, _, same => by cases same; exact ⟨rfl, rfl⟩
  | .array items, _, same => by
      rcases Option.map_eq_some_iff.mp same with ⟨values, read, rfl⟩
      exact conformsItems_document p items values read
  | .object members, _, same => by
      rcases Option.map_eq_some_iff.mp same with ⟨values, read, rfl⟩
      rcases conformsMembers_document p members values read with ⟨numbers, names⟩
      refine ⟨?_, names []⟩
      change (Tree.conformsMembers (tokens p) members && true) = _
      rw [Bool.and_true, numbers]
      rfl

theorem conformsItems_document (p : Bytes → Bool) : ∀ (items : List Tree) (values : List Json),
    Tree.toItems? items = some values →
      Tree.conformsItems (tokens p) items =
          Json.everyNumberItems (fun number => p number.text) values ∧
        Tree.conformsItems distinctNames items = Json.distinctItems values
  | [], _, same => by cases same; exact ⟨rfl, rfl⟩
  | item :: items, _, same => by
      rcases Option.bind_eq_some_iff.mp same with ⟨value, first, others⟩
      rcases Option.map_eq_some_iff.mp others with ⟨values, rest, rfl⟩
      rcases conforms_document p item value first with ⟨number, name⟩
      rcases conformsItems_document p items values rest with ⟨numbers, names⟩
      exact ⟨congrArg₂ and number numbers, congrArg₂ and name names⟩

theorem conformsMembers_document (p : Bytes → Bool) : ∀ (members : List (Bytes × Tree))
    (values : List (Bytes × Json)), Tree.toMembers? members = some values →
      Tree.conformsMembers (tokens p) members =
          Json.everyNumberMembers (fun number => p number.text) values ∧
        ∀ seen, (Tree.conformsMembers distinctNames members &&
          unseen seen (members.map Prod.fst)) = Json.distinctMembers seen values
  | [], _, same => by cases same; exact ⟨rfl, fun _ => rfl⟩
  | (name, tree) :: members, _, same => by
      rcases Option.bind_eq_some_iff.mp same with ⟨value, first, others⟩
      rcases Option.map_eq_some_iff.mp others with ⟨values, rest, rfl⟩
      rcases conforms_document p tree value first with ⟨number, distinct⟩
      rcases conformsMembers_document p members values rest with ⟨numbers, names⟩
      refine ⟨congrArg₂ and number numbers, fun seen => ?_⟩
      simp only [Tree.conformsMembers, List.map_cons, unseen, Json.distinctMembers, distinct,
        ← names (name :: seen)]
      ac_rfl
end

theorem loads_follows (hooks : Hooks) (raw : Bytes) :
    Follows (fun tree => tree.conforms hooks) (loads hooks raw) (loads free raw) := by
  unfold loads
  cases textOf raw with
  | none => exact nofun
  | some text => exact scanText_follows hooks text

theorem loads_iff {hooks : Hooks} {raw : Bytes} (shallow : loads hooks raw ≠ .error .recursion) :
    (∃ tree, loads hooks raw = .ok tree) ↔
      ∃ tree, loads free raw = .ok tree ∧ tree.conforms hooks = true := by
  have follows := loads_follows hooks raw
  cases scanned : loads hooks raw with
  | ok tree =>
      rw [scanned] at follows
      exact ⟨fun _ => ⟨tree, follows⟩, fun _ => ⟨tree, rfl⟩⟩
  | error stop =>
      have refused : ∀ tree, loads free raw = .ok tree → tree.conforms hooks = false := by
        rw [scanned] at follows shallow
        cases stop with
        | recursion => exact absurd rfl shallow
        | malformed => exact follows
        | violation => exact follows
      constructor
      · rintro ⟨tree, none⟩
        cases none
      · rintro ⟨tree, read, passes⟩
        rw [refused tree read] at passes
        cases passes

theorem canonicalText_iff {raw : Bytes} : CanonicalText raw ↔
    ∃ tree, loads free raw = .ok tree ∧ tree.conforms (tokens strictIntToken) = true ∧
      tree.conforms distinctNames = true ∧
      detectEncoding raw = .utf8 ∧ Utf8.Valid raw ∧ tree.toJson?.isSome = true := by
  constructor
  · rintro ⟨valid, document, read, numbers, names⟩
    have utf8 := detectEncoding_of_document read
    rcases readDocumentLenient_eq_some_iff.mp read with ⟨tree, scanned, part⟩
    rcases conforms_document strictIntToken tree document part with ⟨number, name⟩
    refine ⟨tree, ?_, number.trans numbers, name.trans names, utf8, valid, ?_⟩
    · rw [loads, textOf_of_plain utf8 valid]
      exact scanned
    · rw [part]
      rfl
  · rintro ⟨tree, scanned, numbers, names, utf8, valid, part⟩
    rcases Option.isSome_iff_exists.mp part with ⟨document, part⟩
    rcases conforms_document strictIntToken tree document part with ⟨number, name⟩
    rw [loads, textOf_of_plain utf8 valid] at scanned
    exact ⟨valid, document, readDocumentLenient_eq_some_iff.mpr ⟨tree, scanned, part⟩,
      number.symm.trans numbers, name.symm.trans names⟩

/-! ## The tiers -/

variable {interpreter} {jsonDigest}

theorem get_eq_ok_iff {name : String} {value : Json} {found : Option Json} :
    get name value = .ok found ↔
      ∃ members, value = .object members ∧ found = Json.lookup name members := by
  cases value with
  | object members =>
      simp only [get, Except.ok.injEq, Json.object.injEq, exists_eq_left']
      exact eq_comm
  | null => simp [get]
  | bool _ => simp [get]
  | number _ => simp [get]
  | string _ => simp [get]
  | array _ => simp [get]

/-- A capsule is navigated when its attestations are objects. -/
theorem stored_iff {capsule : List (Bytes × Json)} :
    (∃ found, stored capsule = .ok found) ↔ Attested capsule := by
  constructor
  · rintro ⟨found, ok⟩
    rcases bind_eq_ok_iff.mp ok with ⟨model, first, ok⟩
    rcases bind_eq_ok_iff.mp ok with ⟨compute, second, ok⟩
    rcases get_eq_ok_iff.mp first with ⟨members, same, rfl⟩
    cases same
    rcases get_eq_ok_iff.mp second with ⟨inner, object, rfl⟩
    rcases get_eq_ok_iff.mp ok with ⟨digests, last, -⟩
    refine ⟨fun value there => ⟨inner, ?_⟩, fun members there value present => ⟨digests, ?_⟩⟩
    · rw [there] at object
      exact object
    · rw [there] at object
      cases object
      rw [present] at last
      exact last
  · rintro ⟨first, second⟩
    unfold stored
    cases model : Json.lookup "model_attestation" capsule with
    | none => exact ⟨none, by simp only [get, model, ok_bind]; rfl⟩
    | some value =>
        rcases first value model with ⟨members, rfl⟩
        cases compute : Json.lookup "compute_attestation" members with
        | none =>
            exact ⟨none, by simp only [get, model, ok_bind, Option.getD_some, compute]; rfl⟩
        | some value =>
            rcases second members model value compute with ⟨inner, rfl⟩
            exact ⟨Json.lookup "agent_input_digest" inner,
              by simp only [get, model, ok_bind, Option.getD_some, compute]⟩

theorem lenientTier_returns (documented : ∀ candidate, jsonDigest candidate ≠ .error .other)
    {capsule : List (Bytes × Json)} {candidate : Json} {found : Option Json}
    (navigated : stored capsule = .ok found) :
    ∃ result, lenientTier interpreter jsonDigest capsule candidate = .ok result := by
  have mapped : ∀ raised, (plainJson interpreter candidate >>= jsonDigest) = .error raised →
      raised ∈ caught := by
    intro raised failed
    rcases bind_eq_error_iff.mp failed with deep | ⟨value, -, undigested⟩
    · unfold plainJson at deep
      split at deep
      · cases deep
      · split_ifs at deep
        cases deep
        decide
    · cases raised with
      | other => exact absurd undigested (documented value)
      | _ => decide
  simp only [lenientTier, navigated, ok_bind]
  split
  · exact ⟨_, rfl⟩
  · exact ⟨_, rfl⟩
  · split
    · next raised failed => exact ⟨_, if_pos (mapped raised failed)⟩
    · split
      · split_ifs
        · exact ⟨_, rfl⟩
        · exact ⟨_, rfl⟩
      · exact ⟨_, rfl⟩

/-- The lenient tier verifies exactly the candidates that were sealed. -/
theorem lenientTier_verified_iff {capsule : List (Bytes × Json)} {candidate : Json} :
    isVerified (lenientTier interpreter jsonDigest capsule candidate) ↔
      Sealed interpreter jsonDigest capsule candidate := by
  unfold isVerified Sealed lenientTier
  constructor
  · intro verified
    rcases bind_eq_ok_iff.mp verified with ⟨found, navigated, verified⟩
    split at verified
    · cases verified
    · cases verified
    · split at verified
      · split_ifs at verified
        cases verified
      · next actual digested =>
          split at verified
          · split_ifs at verified with same
            · exact ⟨actual, digested, by rw [navigated, same]⟩
            · cases verified
          · cases verified
  · rintro ⟨digest, digested, navigated⟩
    rw [navigated, ok_bind]
    simp only [digested, if_true]

theorem strictTier_eq_ok_iff {raw : Bytes} {passes : Bool} :
    strictTier interpreter true (some raw) = .ok passes ↔
      loads (strictHooks interpreter) raw ≠ .error .recursion ∧
        (passes = true ↔ ∃ tree, loads (strictHooks interpreter) raw = .ok tree) := by
  unfold strictTier hasStrictTokenViolations
  dsimp only
  generalize loads (strictHooks interpreter) raw = scan
  cases scan with
  | ok tree => cases passes <;> simp [Except.map]
  | error stop => cases stop <;> cases passes <;> simp [Except.map]

/-- With bytes the strict tier verifies the sealed candidates whose bytes pass it. -/
theorem strict_verified_iff {capsule : List (Bytes × Json)} {candidate : Json} {raw : Bytes} :
    isVerified (verifyInputDigest interpreter jsonDigest capsule candidate true (some raw)) ↔
      (∃ tree, loads (strictHooks interpreter) raw = .ok tree) ∧
        Sealed interpreter jsonDigest capsule candidate := by
  rw [← lenientTier_verified_iff]
  constructor
  · intro verified
    rcases bind_eq_ok_iff.mp verified with ⟨passes, tier, verified⟩
    cases passes with
    | false => cases verified
    | true => exact ⟨(strictTier_eq_ok_iff.mp tier).2.mp rfl, verified⟩
  · rintro ⟨⟨tree, read⟩, verified⟩
    have tier : strictTier interpreter true (some raw) = .ok true := by
      apply strictTier_eq_ok_iff.mpr
      rw [read]
      exact ⟨nofun, fun _ => ⟨tree, rfl⟩, fun _ => rfl⟩
    unfold verifyInputDigest
    rw [tier]
    exact verified

/-- Where the bytes are not too deep, reading them alike is letting through the
canonical texts. -/
theorem readAlike_iff {raw : Bytes}
    (shallow : loads (strictHooks interpreter) raw ≠ .error .recursion) :
    ReadAlike raw ↔
      ((∃ tree, loads (strictHooks interpreter) raw = .ok tree) ↔ CanonicalText raw) := by
  rw [loads_iff shallow, canonicalText_iff]
  simp only [conforms_strictHooks, Bool.and_eq_true]
  constructor
  · intro alike
    constructor
    · rintro ⟨tree, read, ⟨canonical, short⟩, distinct⟩
      exact ⟨tree, read, canonical, distinct, (alike tree read canonical distinct).mp short⟩
    · rintro ⟨tree, read, canonical, distinct, plain⟩
      exact ⟨tree, read, ⟨canonical, (alike tree read canonical distinct).mpr plain⟩, distinct⟩
  · intro same tree read canonical distinct
    constructor
    · intro short
      rcases same.mp ⟨tree, read, ⟨canonical, short⟩, distinct⟩ with ⟨other, again, -, -, plain⟩
      cases read.symm.trans again
      exact plain
    · intro plain
      rcases same.mpr ⟨tree, read, canonical, distinct, plain⟩ with ⟨other, again, ⟨-, short⟩, -⟩
      cases read.symm.trans again
      exact short

/-! ## The exact condition -/

/-- The function returns, and its strict tier lets the canonical texts through,
exactly when the attestations are objects, the bytes are not too deep, and
for a sealed candidate the bytes are read alike. -/
theorem verifyInputDigest_honoured_iff
    (documented : ∀ candidate, jsonDigest candidate ≠ .error .other)
    (capsule : List (Bytes × Json)) (candidateInput : Json) (raw : Bytes) :
    Honoured interpreter jsonDigest capsule candidateInput raw ↔
      Attested capsule ∧ loads (strictHooks interpreter) raw ≠ .error .recursion ∧
        (Sealed interpreter jsonDigest capsule candidateInput → ReadAlike raw) := by
  have lenient : isVerified
      (verifyInputDigest interpreter jsonDigest capsule candidateInput false none) ↔
        Sealed interpreter jsonDigest capsule candidateInput := lenientTier_verified_iff
  constructor
  · rintro ⟨returns, strict⟩
    rw [strict_verified_iff, lenient] at strict
    have attested : Attested capsule := by
      rcases returns false none (by simp) with ⟨result, ok⟩
      rcases bind_eq_ok_iff.mp ok with ⟨passes, tier, ok⟩
      cases tier
      rcases bind_eq_ok_iff.mp ok with ⟨found, navigated, -⟩
      exact stored_iff.mp ⟨found, navigated⟩
    have shallow : loads (strictHooks interpreter) raw ≠ .error .recursion := by
      rcases returns true (some raw) (by simp) with ⟨result, ok⟩
      rcases bind_eq_ok_iff.mp ok with ⟨passes, tier, -⟩
      exact (strictTier_eq_ok_iff.mp tier).1
    refine ⟨attested, shallow, fun sealed => (readAlike_iff shallow).mpr ?_⟩
    constructor
    · exact fun read => (strict.mp ⟨read, sealed⟩).2
    · exact fun canonical => (strict.mpr ⟨sealed, canonical⟩).1
  · rintro ⟨attested, shallow, alike⟩
    rcases stored_iff.mpr attested with ⟨found, navigated⟩
    have tiered : ∃ result, lenientTier interpreter jsonDigest capsule candidateInput =
        .ok result := lenientTier_returns documented navigated
    refine ⟨fun strict bytes given => ?_, ?_⟩
    · have tier : ∃ passes, strictTier interpreter strict bytes = .ok passes := by
        rcases List.mem_cons.mp given with rfl | given
        · exact ⟨true, by cases strict <;> rfl⟩
        · rcases List.mem_singleton.mp given with rfl
          cases strict with
          | false => exact ⟨true, rfl⟩
          | true =>
              rcases Classical.em (∃ tree, loads (strictHooks interpreter) raw = .ok tree)
                with read | unread
              · exact ⟨true, strictTier_eq_ok_iff.mpr ⟨shallow, fun _ => read, fun _ => rfl⟩⟩
              · exact ⟨false, strictTier_eq_ok_iff.mpr ⟨shallow, nofun, fun read =>
                  absurd read unread⟩⟩
      rcases tier with ⟨passes, tier⟩
      unfold verifyInputDigest
      rw [tier, ok_bind]
      cases passes with
      | true => exact tiered
      | false => exact ⟨_, rfl⟩
    · rw [strict_verified_iff, lenient]
      constructor
      · rintro ⟨read, sealed⟩
        exact ⟨sealed, ((readAlike_iff shallow).mp (alike sealed)).mp read⟩
      · rintro ⟨sealed, canonical⟩
        exact ⟨((readAlike_iff shallow).mp (alike sealed)).mpr canonical, sealed⟩

/-! ## Inputs -/

/-- The digest of an empty object. -/
def emptyDigest : Bytes :=
  utf8 "44136fa355b3678a1146ad16f7e8649e94fb4fc21fe77e8310c060f61caaff8a"

/-- `json_digest`, of an empty object. -/
def digestOfEmpty (value : Json) : Except Raised Bytes :=
  match value with
  | .object [] => .ok emptyDigest
  | _ => .error .valueError

def freshInterpreter : Interpreter := ⟨1000, none⟩

/-- A capsule an empty object was sealed in. -/
def emptyCapsule : List (Bytes × Json) :=
  [(utf8 "model_attestation", .object [(utf8 "compute_attestation",
    .object [(utf8 "agent_input_digest", .string emptyDigest)])])]

theorem emptyCapsule_stored : stored emptyCapsule = .ok (some (.string emptyDigest)) := by
  simp [stored, get, emptyCapsule, Json.lookup]

theorem emptyCapsule_sealed : Sealed freshInterpreter digestOfEmpty emptyCapsule (.object []) :=
  ⟨emptyDigest, rfl, emptyCapsule_stored⟩

theorem digestOfEmpty_documented (candidate : Json) : digestOfEmpty candidate ≠ .error .other := by
  unfold digestOfEmpty
  split <;> simp

/-- The bytes `{}` of the sealed object pass. -/
theorem verifyInputDigest_honoured_empty :
    Honoured freshInterpreter digestOfEmpty emptyCapsule (.object []) [123, 125] := by
  apply (verifyInputDigest_honoured_iff digestOfEmpty_documented _ _ _).mpr
  have read : loads free [123, 125] = .ok (.object []) := rfl
  have scanned : loads (strictHooks freshInterpreter) [123, 125] = .ok (.object []) := rfl
  refine ⟨stored_iff.mp ⟨_, emptyCapsule_stored⟩, ?_, fun _ => ?_⟩
  · rw [scanned]
    exact nofun
  · intro tree again _ _
    cases read.symm.trans again
    exact ⟨fun _ => ⟨rfl, Utf8.valid_of_ascii (by simp), rfl⟩, fun _ => rfl⟩

/-- A capsule whose attestation is `null` ends the function with an exception,
and `NaN` passes for the text of the sealed object. -/
theorem verifyInputDigest_dishonoured :
    ¬ Honoured freshInterpreter digestOfEmpty [(utf8 "model_attestation", .null)] (.object [])
        [123, 125] ∧
      ¬ Honoured freshInterpreter digestOfEmpty emptyCapsule (.object []) [78, 97, 78] := by
  constructor
  · rintro ⟨returns, -⟩
    rcases returns false none (by simp) with ⟨result, ok⟩
    simp [verifyInputDigest, strictTier, lenientTier, stored, get, Json.lookup] at ok
  · rintro ⟨-, strict⟩
    have read : loads (strictHooks freshInterpreter) [78, 97, 78] = .ok (.constant nanName) := rfl
    have verified := strict_verified_iff.mpr ⟨⟨_, read⟩, emptyCapsule_sealed⟩
    rcases (strict.mp verified).2 with ⟨-, document, text, -⟩
    cases text

end Verify
end CapsuleEmit
