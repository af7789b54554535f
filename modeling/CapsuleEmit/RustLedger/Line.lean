import CapsuleEmit.ArtifactStore.StrictJson
import CapsuleEmit.Foundation.JsonEnds
import CapsuleEmit.Foundation.Outcome
import CapsuleEmit.Foundation.Sha256

namespace CapsuleEmit
namespace RustLedger

/-!
# The lines of the Rust ledger

A ledger line is a JSON record with its Capsule ID, and a signed statement in
a file of its own.  The checks here are the ones every line goes through, when
it is appended and when the ledger is opened: its Capsule ID recomputes, a
padding record has nothing but its nonce, and the statement names the Capsule
ID and verifies under the key the record carries, if it carries one.

The canonicalizer, the record decoder, the COSE library and Ed25519 are other
packages, and parameters here.
-/

/-! ## Values and packages -/

theorem distinctMembers_iff {seen : List Bytes} {members : List (Bytes × Json)} :
    Json.distinctMembers seen members = true ↔ (members.map Prod.fst).Nodup ∧
      (∀ member ∈ members, member.1 ∉ seen) ∧ ∀ member ∈ members, member.2.distinct = true := by
  induction members generalizing seen with
  | nil => simp [Json.distinctMembers]
  | cons member members ih =>
      rw [Json.distinctMembers, Bool.and_eq_true, Bool.and_eq_true, ih, List.map_cons,
        List.nodup_cons, List.forall_mem_cons, List.forall_mem_cons]
      simp only [List.mem_map, not_exists, not_and, List.mem_cons, not_or, Bool.not_eq_true',
        List.contains_eq_mem, decide_eq_false_iff_not]
      constructor
      · rintro ⟨⟨fresh, first⟩, once, rest, values⟩
        exact ⟨⟨fun other inside => (rest other inside).1, once⟩,
          ⟨fresh, fun other inside => (rest other inside).2⟩, first, values⟩
      · rintro ⟨⟨others, once⟩, ⟨fresh, rest⟩, first, values⟩
        exact ⟨⟨fresh, first⟩, once, fun other inside => ⟨others other inside, rest other inside⟩,
          values⟩

theorem textualMembers_iff {members : List (Bytes × Json)} :
    Json.textualMembers members = true ↔ ∀ member ∈ members,
      (utf8? member.1).isSome = true ∧ member.2.textual = true := by
  induction members with
  | nil => simp [Json.textualMembers]
  | cons member members ih =>
      rw [Json.textualMembers, Bool.and_eq_true, Bool.and_eq_true, ih, List.forall_mem_cons]

/-- A `serde_json::Value`: its strings are UTF-8, its objects repeat no name and
its numbers keep their text. -/
@[ext]
structure Value where
  tree : Json
  textual : tree.textual = true
  distinct : tree.distinct = true

namespace Value

/-- `value.get(name).and_then(Value::as_str)` -/
def str? (value : Value) (name : String) : Option String := (value.tree.get name).bind Json.asStr

end Value

/-- An object of named values. -/
def objectOf (members : List (String × Value)) (once : (members.map Prod.fst).Nodup) : Value where
  tree := .object (members.map (fun member => (utf8 member.1, member.2.tree)))
  textual := by
    rw [Json.textual, textualMembers_iff, List.forall_mem_map]
    intro member _
    exact ⟨by rw [utf8?_utf8]; rfl, member.2.textual⟩
  distinct := by
    rw [Json.distinct, distinctMembers_iff, List.forall_mem_map, List.forall_mem_map]
    refine ⟨?_, fun _ _ => List.not_mem_nil, fun member _ => member.2.distinct⟩
    have names := once.map utf8_injective
    rwa [List.map_map] at names ⊢

def textOf (text : String) : Value where
  tree := Json.ofString text
  textual := by
    change (utf8? (utf8 text)).isSome = true
    rw [utf8?_utf8]
    rfl
  distinct := rfl

/-- Why a value has no canonical form. -/
inductive JcsError where
  | floatInDigest
  | unsafeInteger
  | notSerializable
  deriving DecidableEq

/-- The packages a ledger relies on: `jsonDigest` and `isLocalOnlyField` of the
canonicalizer, the record decoder, the attached payload of a COSE_Sign1, its
signature under a key, and whether bytes are an Ed25519 key. -/
structure Packages where
  jsonDigest : Json → Except JcsError String
  isLocalOnlyField : Bytes → Bool
  decodeRecord : Bytes → Except String Value
  parseSign1 : Bytes → Except String (Option Bytes)
  verifySignature : Bytes → Bytes → Bool
  isVerifyingKey : Bytes → Bool

/-- A SHA-256 digest in lower-case hexadecimal. -/
def IsDigest (id : String) : Prop := ∃ bytes : Bytes, bytes.length = 32 ∧ id = Sha256.hex bytes

/-- How many levels the decoder follows. -/
def decoderLevels : Nat := 128

/-- What the packages are relied on for: a digest is written in lower-case
hexadecimal, a value without numbers has one, the envelope of a record is not
part of its Capsule ID, a value within the limit of the decoder reads back from
its text, whitespace after a document is not part of it, and a document ends
with a character that is not whitespace. -/
structure Packages.Lawful (packages : Packages) : Prop where
  digest : ∀ value id, packages.jsonDigest value = .ok id → IsDigest id
  total : ∀ value : Value, value.tree.everyNumber (fun _ => false) = true →
    ∃ id, packages.jsonDigest value.tree = .ok id
  localOnly : ∀ name : String, packages.isLocalOnlyField (utf8 name) =
    decide (name = "signature" ∨ name = "key_id")
  reads : ∀ value : Value, value.tree.nesting ≤ decoderLevels →
    packages.decodeRecord (JsonText.write value.tree) = .ok value
  spaced : ∀ text space value, space.all JsonText.isSpace = true →
    (packages.decodeRecord (text ++ space) = .ok value ↔ packages.decodeRecord text = .ok value)
  ends : ∀ text value, packages.decodeRecord text = .ok value →
    ∃ space, space.all JsonText.isSpace = true ∧ JsonText.EndsAt text space

/-! ## Hexadecimal text -/

/-- Pairs of hexadecimal digits of either case. -/
def hexDecodeBytes : Bytes → Option Bytes
  | [] => some []
  | [_] => none
  | a :: b :: rest => do
      let high ← JsonText.hexValue a
      let low ← JsonText.hexValue b
      let bytes ← hexDecodeBytes rest
      return UInt8.ofNat (16 * high + low) :: bytes

/-- `hex::decode` -/
def hexDecode (text : String) : Option Bytes := hexDecodeBytes (utf8 text)

theorem hexValue_hexDigit : ∀ n < 16,
    (String.utf8EncodeChar (Sha256.hexDigit n)).length = 1 ∧
      JsonText.hexValue ((String.utf8EncodeChar (Sha256.hexDigit n)).headD 0) = some n := by
  decide

/-- A digit is one byte, and its value is read back from it. -/
theorem encode_hexDigit {n : Nat} (small : n < 16) :
    ∃ digit, String.utf8EncodeChar (Sha256.hexDigit n) = [digit] ∧
      JsonText.hexValue digit = some n := by
  rcases hexValue_hexDigit n small with ⟨single, value⟩
  rcases List.length_eq_one_iff.mp single with ⟨digit, shape⟩
  rw [shape] at value
  exact ⟨digit, shape, value⟩

/-- Encoded bytes are decoded to themselves. -/
@[simp] theorem hexDecode_hex (bytes : Bytes) : hexDecode (Sha256.hex bytes) = some bytes := by
  rw [hexDecode, Sha256.utf8_hex]
  induction bytes with
  | nil => rfl
  | cons b bytes ih =>
      have bound := b.toNat_lt
      rcases @encode_hexDigit (b.toNat / 16) (by omega) with ⟨high, shapeHigh, valueHigh⟩
      rcases @encode_hexDigit (b.toNat % 16) (by omega) with ⟨low, shapeLow, valueLow⟩
      have whole : UInt8.ofNat (16 * (b.toNat / 16) + b.toNat % 16) = b := by
        rw [Nat.div_add_mod, UInt8.ofNat_toNat]
      rw [List.flatMap_cons, shapeHigh, shapeLow]
      simp only [List.cons_append, List.nil_append, hexDecodeBytes, valueHigh, valueLow, ih,
        Option.bind_eq_bind, Option.bind_some, whole, Option.pure_def]

theorem hex_injective : Function.Injective Sha256.hex := by
  intro left right same
  have decoded := hexDecode_hex left
  rw [same, hexDecode_hex] at decoded
  exact (Option.some.inj decoded).symm

/-! ## Capsule IDs -/

/-- The members of a record that its Capsule ID is computed from. -/
def preimage (packages : Packages) (members : List (Bytes × Json)) : List (Bytes × Json) :=
  members.filter (fun member =>
    member.1 ≠ utf8 "capsule_id" && !packages.isLocalOnlyField member.1)

/-- `jcs::compute_capsule_id` -/
def computeCapsuleId (packages : Packages) (record : Value) : Except JcsError String :=
  match record.tree with
  | .object members => packages.jsonDigest (.object (preimage packages members))
  | _ => .error .notSerializable

/-! ## Padding records -/

/-- Why a padding record is malformed. -/
inductive PaddingFault where
  | notAnObject
  | extra (name : Bytes)
  | recordType
  | epistemicType
  | storeNonce
  deriving DecidableEq

def paddingMembers : List String :=
  ["capsule_id", "record_type", "epistemic_type", "store_nonce", "signature", "key_id"]

/-- Whether `record` is a padding record. -/
def isPadding (record : Value) : Bool := record.str? "record_type" = some "padding"

def isNonce (value : String) : Bool :=
  (utf8 value).length = 64 && (utf8 value).all Sha256.isHexByte

/-- `padding::check_padding_shape` -/
def checkPaddingShape (record : Value) : Except PaddingFault Unit := do
  let members ← record.tree.asObject.elim (.error .notAnObject) .ok
  (members.find? (fun member => member.1 ∉ paddingMembers.map utf8)).elim (.ok ())
    (fun member => .error (.extra member.1))
  ensure (record.str? "record_type" = some "padding") .recordType
  ensure (record.str? "epistemic_type" = some "producer_claim") .epistemicType
  ensure ((record.str? "store_nonce").elim false isNonce) .storeNonce

/-- The members a padding record's Capsule ID is computed from. -/
def paddingBody (storeNonce : String) : Value :=
  objectOf [("record_type", textOf "padding"), ("epistemic_type", textOf "producer_claim"),
    ("store_nonce", textOf storeNonce)] (by simp)

/-- A padding record with its producer envelope. -/
def paddingRecord (capsuleId storeNonce : String) (envelope publicKey : Bytes) : Value :=
  objectOf [("capsule_id", textOf capsuleId), ("record_type", textOf "padding"),
    ("epistemic_type", textOf "producer_claim"), ("store_nonce", textOf storeNonce),
    ("signature", textOf (Sha256.hex envelope)), ("key_id", textOf (Sha256.hex publicKey))]
    (by simp)

/-! ## Signed statements -/

/-- Why a COSE_Sign1 gives no payload. -/
inductive VerifyError where
  | decode (detail : String)
  | noPayload
  | badSignature
  deriving DecidableEq

/-- `cose::statement_payload` -/
def statementPayload (packages : Packages) (message : Bytes) : Except VerifyError Bytes := do
  let payload ← (packages.parseSign1 message).mapError .decode
  payload.elim (.error .noPayload) .ok

/-- The payload `cose::verify_signed_statement` gives. -/
def verifySignedStatement (packages : Packages) (message key : Bytes) :
    Except VerifyError Bytes := do
  let payload ← (packages.parseSign1 message).mapError .decode
  ensure (packages.verifySignature message key) .badSignature
  payload.elim (.error .noPayload) .ok

/-- Why a signed statement does not match its line. -/
inductive StatementFault where
  | verification (error : VerifyError)
  | badKey (keyHex : String)
  | unparseable (error : VerifyError)
  | payload (detail : String)
  | names (found : Option String) (expected : String)
  | missing
  deriving DecidableEq

/-- The key a record carries, if it carries one; a fault where it is not a key. -/
def producerVerifyingKey (packages : Packages) (capsule : Value) :
    Option (Except StatementFault Bytes) :=
  (capsule.str? "key_id").map (fun keyHex =>
    match hexDecode keyHex with
    | some key =>
        if key.length = 32 && packages.isVerifyingKey key then .ok key
        else .error (.badKey keyHex)
    | none => .error (.badKey keyHex))

/-- The payload of a record's statement, verified under the key the record
carries, if it carries one. -/
def matchedPayload (packages : Packages) (capsule : Value) (statement : Bytes) :
    Except StatementFault Bytes :=
  match producerVerifyingKey packages capsule with
  | some (.ok key) => (verifySignedStatement packages statement key).mapError .verification
  | some (.error fault) => .error fault
  | none => (statementPayload packages statement).mapError .unparseable

/-- `check_statement_matches` -/
def checkStatementMatches (packages : Packages) (capsule : Value) (capsuleId : String)
    (statement : Bytes) : Except StatementFault Unit := do
  let payload ← matchedPayload packages capsule statement
  let value ← (packages.decodeRecord payload).mapError .payload
  ensure (value.str? "capsule_id" = some capsuleId) (.names (value.str? "capsule_id") capsuleId)

/-! ## Errors -/

inductive LedgerError where
  | io
  | decode (detail : String)
  | jcs (error : JcsError)
  | capsuleIdMismatch (line : Nat) (stored recomputed : String)
  | missingCapsuleId (line : Nat)
  | chainBroken (line : Nat) (parent head : Option String)
  | missingStatement (line : Nat) (capsuleId path : String)
  | statementInvalid (line : Nat) (capsuleId : String) (fault : StatementFault)
  | appendChainMismatch (parent head : Option String)
  | noCapsuleId
  | malformedPadding (line : Nat) (fault : PaddingFault)
  | paddingMisrouted (detail : String)
  | missingRecord (line : Nat) (capsuleId : String)
  | store (detail : String)
  | log (detail : String)
  | alreadyInLog (capsuleId : String)
  | envelope (capsuleId detail : String)
  deriving DecidableEq

/-- Line `line`'s Capsule ID recomputes from its record. -/
def checkCapsuleId (packages : Packages) (line : Nat) (record : Value) (stored : String) :
    Except LedgerError Unit := do
  let recomputed ← (computeCapsuleId packages record).mapError .jcs
  ensure (recomputed = stored) (.capsuleIdMismatch line stored recomputed)

/-- Line `line`'s signed statement matches its record. -/
def checkStatement (packages : Packages) (line : Nat) (record : Value) (capsuleId : String)
    (statement : Bytes) : Except LedgerError Unit :=
  (checkStatementMatches packages record capsuleId statement).mapError
    (.statementInvalid line capsuleId)

theorem checkCapsuleId_eq_ok_iff {packages : Packages} {line : Nat} {record : Value}
    {stored : String} {done : Unit} : checkCapsuleId packages line record stored = .ok done ↔
      computeCapsuleId packages record = .ok stored := by
  simp only [checkCapsuleId, bind_eq_ok_iff, mapError_eq_ok_iff, ensure_eq_ok_iff,
    decide_eq_true_eq, exists_eq_right]

theorem checkStatement_eq_ok_iff {packages : Packages} {line : Nat} {record : Value}
    {id : String} {statement : Bytes} {done : Unit} :
    checkStatement packages line record id statement = .ok done ↔
      checkStatementMatches packages record id statement = .ok () := mapError_eq_ok_iff

/-- A Capsule ID that recomputes is a digest. -/
theorem isDigest_of_computeCapsuleId {packages : Packages} (lawful : packages.Lawful)
    {record : Value} {id : String} (computed : computeCapsuleId packages record = .ok id) :
    IsDigest id := by
  unfold computeCapsuleId at computed
  split at computed
  · exact lawful.digest _ _ computed
  · cases computed

/-! ## Index keys -/

def citationPurposeCounterpartyHalf : String := "counterparty_half"

def citationPurposeCounterpartyInclusion : String := "counterparty_inclusion"

/-- The index key of a record that cites another party's record. -/
def counterpartyHalfKey (foreignCapsuleId : String) : String :=
  citationPurposeCounterpartyHalf ++ ":" ++ foreignCapsuleId

/-- The index key of a record that cites an inclusion proof for another party's record. -/
def counterpartyInclusionKey (foreignCapsuleId : String) : String :=
  citationPurposeCounterpartyInclusion ++ ":" ++ foreignCapsuleId

/-- The default indexer. -/
def counterpartyCitationKeys (capsule : Value) : List String :=
  match (capsule.tree.get "references").bind Json.asArray with
  | none => []
  | some references =>
      let purpose (reference : Json) := (reference.get "citation_purpose").bind Json.asStr
      let halves := references.filterMap (fun reference =>
        if purpose reference = some citationPurposeCounterpartyHalf then
          ((reference.get "digest").bind Json.asStr).map counterpartyHalfKey
        else none)
      let half := ((((capsule.tree.get "model_attestation").bind
        (Json.get "compute_attestation")).bind (Json.get "counterparty_inclusion")).bind
          (Json.get "half_capsule_id")).bind Json.asStr
      if references.any (purpose · = some citationPurposeCounterpartyInclusion) then
        halves ++ (half.map counterpartyInclusionKey).toList
      else halves

/-! ## Lines -/

/-- One line of the ledger, in file order. -/
@[ext]
structure LedgerLine where
  capsuleId : String
  offset : Nat
  padding : Bool
  timestamp : Option String
  deriving DecidableEq

/-- `LedgerLine::new` -/
def LedgerLine.new (capsuleId : String) (offset : Nat) (record : Value) : LedgerLine :=
  ⟨capsuleId, offset, isPadding record, record.str? "timestamp"⟩

/-- The bytes of a record: `serde_json::to_string`. -/
def Value.toText (record : Value) : Bytes := JsonText.write record.tree

theorem newline_notMem_toText (record : Value) : newline ∉ record.toText :=
  JsonText.newline_notMem_write record.tree

theorem valid_toText (record : Value) : Utf8.Valid record.toText :=
  ((JsonText.readDocument_textual_iff record.textual).mp
    (JsonText.readDocument_write record.tree)).1

end RustLedger
end CapsuleEmit
