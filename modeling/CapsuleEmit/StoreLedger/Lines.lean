import CapsuleEmit.ArtifactStore.Record
import CapsuleEmit.Foundation.PythonJson

namespace CapsuleEmit
namespace StoreLedger

/-!
# Ledger lines

A line of the ledger is a JSON object: a capsule or a padding record with the
members `signature` and `key_id` of its producer envelope.  This module has
the checks a line passes before it is written and again when the ledger is
opened, and the record that holds it in the artifact store.

The checks depend on the members of a line, not on their order.  A line that
is read back from its record has its two envelope members at the end, so that
is the form in which this is stated: `Line.restored`.
-/

open Python (Dict Value)
open ArtifactStore (Record Artifact)

/-! ## Errors -/

/-- The classes of ledger errors. -/
inductive ErrorKind where
  | capsuleIdMismatch
  | missingCapsuleId
  | chainBroken
  | statementInvalid
  | appendChainMismatch
  | malformedPadding
  | paddingMisrouted
  | missingRecord
  | store
  | log
  | alreadyInLog
  | envelope
  | stale
  | importRefused
  | value
  deriving DecidableEq, Repr

/-- A ledger error.  The kind `value` is a Python error that is no ledger error. -/
structure LedgerError where
  kind : ErrorKind
  message : String
  line : Nat
  capsuleId : String
  deriving DecidableEq

abbrev Result (α : Type) := Except LedgerError α

/-! ## What other packages provide -/

/-- The outcome of the check of a producer envelope. -/
structure EnvelopeCheck where
  ok : Bool
  publicKey : Option Bytes

/-- What strict CBOR decoding says of a signed statement: its tag, whether it
is an array of four, and the third item when that is a byte string. -/
structure SignedMessage where
  tag : Nat
  four : Bool
  payload : Option Bytes

/-- The functions of other packages the ledger calls.  `repr` is the quoted
form of a value in an error text. -/
structure Packages where
  json : Python.JsonText
  jsonDigest : Value → Except String String
  verifyProducerEnvelope : String → Bytes → EnvelopeCheck
  publicPem : Bytes → Option String
  verifySign1 : Bytes → String → Except String (Option Bytes)
  strictDecode : Bytes → Except String SignedMessage
  sha256Hex : Bytes → String
  repr : Value → String

/-! ## The members of a line -/

/-- A member that is a string. -/
def str? (name : String) (line : Dict) : Option String := (line.get? name).bind Value.str?

def isPadding (line : Dict) : Bool := str? "record_type" line = some "padding"

/-- The parent a record is chained to. -/
def parent (line : Dict) : Option String :=
  ((line.get? "chain").bind Value.dict?).bind (str? "parent_capsule_id")

def timestamp (line : Dict) : Option String := str? "timestamp" line

def paddingMembers : List String := ["capsule_id", "record_type", "epistemic_type", "store_nonce"]

def envelopeMembers : List String := ["signature", "key_id"]

/-- Why a line is not a padding record's shape. -/
def checkPaddingShape (packages : Packages) (line : Dict) : Option String :=
  match line.find? (fun member =>
      !paddingMembers.contains member.1 && !envelopeMembers.contains member.1) with
  | some member => some ("padding record carries " ++ packages.repr (.str member.1) ++
      "; its only content is the store nonce")
  | none =>
      if str? "record_type" line ≠ some "padding" then
        some "padding record's record_type is not \"padding\""
      else if str? "epistemic_type" line ≠ some "producer_claim" then
        some "padding record's epistemic_type is not \"producer_claim\""
      else if ((str? "store_nonce" line).map ArtifactStore.validId).getD false then none
      else some "padding record's store_nonce is not 64 lowercase hex"

section

variable (packages : Packages)

/-! ## The digest and the statement -/

/-- The members a record's digest leaves out. -/
def digestExcluded : List String := ["capsule_id", "signature", "key_id"]

def computeRecordId (record : Dict) : Except String String :=
  packages.jsonDigest (.dict (record.filter (fun member => !digestExcluded.contains member.1)))

def recompute (lineNo : Nat) (record : Dict) (stored : String) : Result Unit :=
  match computeRecordId packages record with
  | .error e => .error ⟨.capsuleIdMismatch, "ledger line " ++ toString lineNo ++
      ": capsule_id does not recompute: " ++ e, lineNo, stored⟩
  | .ok recomputed =>
      ensure (recomputed = stored) ⟨.capsuleIdMismatch, "ledger line " ++ toString lineNo ++
        " corrupt: stored capsule_id " ++ packages.repr (.str stored) ++
        " does not match recomputed digest " ++ packages.repr (.str recomputed) ++
        " -- refusing to trust this entry", lineNo, stored⟩

def coseSign1Tag : Nat := 18

/-- The payload of a signed statement, checked under the line's key if it has one. -/
def statementPayload (keyId : Option Value) (statement : Bytes) : Except String (Option Bytes) :=
  match keyId.filter (fun value => match value with | .none => false | _ => true) with
  | some key =>
      match (match key.str? with | some s => Python.fromHex s | none => some []).bind
          packages.publicPem with
      | none => .error ("capsule key_id " ++ packages.repr key ++ " is not a valid Ed25519 public key")
      | some pem =>
          match packages.verifySign1 statement pem with
          | .error e =>
              .error ("COSE verification against the capsule's own key_id failed: " ++ e)
          | .ok payload => .ok payload
  | none =>
      match packages.strictDecode statement with
      | .error e => .error ("not a parseable COSE_Sign1: " ++ e)
      | .ok message =>
          if message.tag = coseSign1Tag ∧ message.four then .ok message.payload
          else .error "not a parseable COSE_Sign1: not a tag-18 array of four"

/-- Why a statement is not the signed statement of a line with this key. -/
def statementMismatch (keyId : Option Value) (capsuleId : String) (statement : Bytes) :
    Option String :=
  match statementPayload packages keyId statement with
  | .error detail => some detail
  | .ok none => some "message has no attached payload"
  | .ok (some payload) =>
      match Python.decodeStrictJson packages.json payload with
      | .error e => some ("COSE payload is not valid JSON: " ++ e)
      | .ok named =>
          let got := (named.dict?.bind (Dict.get? "capsule_id")).getD .none
          if got.str? = some capsuleId then none
          else some ("COSE payload names capsule_id " ++ packages.repr got ++ ", expected " ++
            packages.repr (.str capsuleId))

def checkStatementMatches (capsule : Dict) (capsuleId : String) (statement : Bytes) :
    Option String :=
  statementMismatch packages (capsule.get? "key_id") capsuleId statement

def checkStatement (lineNo : Nat) (record : Dict) (capsuleId : String) (statement : Bytes) :
    Result Unit :=
  match checkStatementMatches packages record capsuleId statement with
  | none => .ok ()
  | some detail => .error ⟨.statementInvalid, "ledger line " ++ toString lineNo ++
      " corrupt: signed statement for capsule_id " ++ capsuleId ++ " does not check out (" ++
      detail ++ ") -- refusing to trust this entry", lineNo, capsuleId⟩

def statementMissing (lineNo : Nat) (capsuleId : String) : LedgerError :=
  ⟨.statementInvalid, "ledger line " ++ toString lineNo ++
    ": the record's signed-statement attachment is missing or purged", lineNo, capsuleId⟩

/-! ## The record of a line -/

def statementName : String := "signed-statement"

/-- A line as an artifact record.  The line needs a valid envelope whose signer
its `key_id` names. -/
def toRecord (capsuleId : String) (line : Dict) (statement : Bytes) : Result Record := do
  let refuse (detail : String) : LedgerError :=
    ⟨.envelope, "capsule_id " ++ capsuleId ++ ": producer envelope: " ++ detail, 0, capsuleId⟩
  let body := (line.without "signature").without "key_id"
  match str? "signature" line, str? "key_id" line with
  | some signature, some keyId =>
      match Python.fromHex signature with
      | none => .error (refuse "signature is not hex")
      | some envelope =>
          let verified := packages.verifyProducerEnvelope capsuleId envelope
          match verified.publicKey with
          | none => .error (refuse "the envelope does not verify over the capsule_id")
          | some key => do
              ensure verified.ok (refuse "the envelope does not verify over the capsule_id")
              ensure (keyId = Sha256.hex key) (refuse "key_id is not the envelope's signer")
              ensure (signature = Sha256.hex envelope) (refuse "signature is not lowercase hex")
              match packages.json.dumps (.dict body) with
              | .error e => .error ⟨.value, e, 0, ""⟩
              | .ok bytes => .ok ⟨capsuleId, bytes, envelope,
                  [⟨statementName, "", some statement, .present, packages.sha256Hex statement⟩]⟩
  | _, _ => .error (refuse
      "a store-backed ledger needs the line's producer envelope (signature and key_id)")

/-- The line of a record: its capsule with the members of its envelope. -/
def restored (body : Dict) (signature keyId : String) : Dict :=
  (body.set "signature" (.str signature)).set "key_id" (.str keyId)

end

/-! ## Lines with the same members -/

/-- The same members, whatever their order: what every check of a line reads. -/
structure SameMembers (left right : Dict) : Prop where
  get : ∀ name, left.get? name = right.get? name
  names : ∀ name, name ∈ left.map Prod.fst ↔ name ∈ right.map Prod.fst
  body : left.filter (fun member => !digestExcluded.contains member.1) =
    right.filter (fun member => !digestExcluded.contains member.1)

section

variable {packages : Packages} {left right : Dict}

namespace SameMembers

theorem symm (same : SameMembers left right) : SameMembers right left :=
  ⟨fun name => (same.get name).symm, fun name => (same.names name).symm, same.body.symm⟩

theorem str? (same : SameMembers left right) (name : String) :
    StoreLedger.str? name left = StoreLedger.str? name right := by
  rw [StoreLedger.str?, StoreLedger.str?, same.get]

theorem isPadding (same : SameMembers left right) :
    StoreLedger.isPadding left = StoreLedger.isPadding right := by
  rw [StoreLedger.isPadding, StoreLedger.isPadding, same.str?]

theorem parent (same : SameMembers left right) :
    StoreLedger.parent left = StoreLedger.parent right := by
  rw [StoreLedger.parent, StoreLedger.parent, same.get]

theorem timestamp (same : SameMembers left right) :
    StoreLedger.timestamp left = StoreLedger.timestamp right := by
  rw [StoreLedger.timestamp, StoreLedger.timestamp, same.str?]

theorem recompute (same : SameMembers left right) (lineNo : Nat) (stored : String) :
    StoreLedger.recompute packages lineNo left stored =
      StoreLedger.recompute packages lineNo right stored := by
  rw [StoreLedger.recompute, StoreLedger.recompute, computeRecordId, computeRecordId, same.body]

theorem checkStatement (same : SameMembers left right) (lineNo : Nat) (capsuleId : String)
    (statement : Bytes) :
    StoreLedger.checkStatement packages lineNo left capsuleId statement =
      StoreLedger.checkStatement packages lineNo right capsuleId statement := by
  rw [StoreLedger.checkStatement, StoreLedger.checkStatement, checkStatementMatches,
    checkStatementMatches, same.get]

/-- A shape that is a padding record's is one in every order of its members. -/
theorem checkPaddingShape (same : SameMembers left right)
    (shaped : StoreLedger.checkPaddingShape packages left = none) :
    StoreLedger.checkPaddingShape packages right = none := by
  have closed : left.find? (fun member =>
      !paddingMembers.contains member.1 && !envelopeMembers.contains member.1) = none := by
    unfold StoreLedger.checkPaddingShape at shaped
    split at shaped
    · cases shaped
    · next found => exact found
  have closedRight : right.find? (fun member =>
      !paddingMembers.contains member.1 && !envelopeMembers.contains member.1) = none := by
    rw [List.find?_eq_none] at closed ⊢
    intro member inside
    have name := (same.names member.1).mpr (List.mem_map_of_mem inside)
    rcases List.mem_map.mp name with ⟨other, inLeft, equal⟩
    exact equal ▸ closed other inLeft
  rw [StoreLedger.checkPaddingShape, closed] at shaped
  rw [StoreLedger.checkPaddingShape, closedRight]
  simpa only [same.str?] using shaped

end SameMembers

/-! ## A line is read back from its record -/

theorem not_mem_without (key : String) (d : Dict) : key ∉ (d.without key).map Prod.fst := by
  intro inside
  rcases List.mem_map.mp inside with ⟨member, kept, same⟩
  simp [Dict.without, same] at kept

/-- The members of the envelope go to the end and everything else stays. -/
theorem restored_without (line : Dict) (signature keyId : String) :
    restored ((line.without "signature").without "key_id") signature keyId =
      (line.without "signature").without "key_id" ++
        [("signature", .str signature), ("key_id", .str keyId)] := by
  have noSignature : "signature" ∉ ((line.without "signature").without "key_id").map Prod.fst := by
    intro inside
    rcases List.mem_map.mp inside with ⟨member, kept, same⟩
    exact not_mem_without "signature" line
      (List.mem_map.mpr ⟨member, List.mem_of_mem_filter kept, same⟩)
  have noKey : "key_id" ∉ ((line.without "signature").without "key_id" ++
      [("signature", Value.str signature)]).map Prod.fst := by
    rw [List.map_append, List.mem_append]
    rintro (inside | inside)
    · exact not_mem_without "key_id" _ inside
    · simp at inside
  rw [restored, Dict.set_of_absent noSignature, Dict.set_of_absent noKey, List.append_assoc]
  rfl

theorem str?_eq_some {name s : String} {line : Dict} (found : str? name line = some s) :
    line.get? name = some (.str s) := by
  unfold str? at found
  rcases Option.bind_eq_some_iff.mp found with ⟨value, got, shape⟩
  cases value <;> simp_all [Value.str?]

theorem get?_append (name : String) (front back : Dict) :
    Dict.get? name (front ++ back) = (Dict.get? name front).or (Dict.get? name back) := by
  simp only [Dict.get?, Value.lookup, List.find?_append, Option.map_or]

/-- Restoring the envelope members of a line gives a line with the same members. -/
theorem sameMembers_restored {line : Dict} {signature keyId : String}
    (signed : str? "signature" line = some signature) (keyed : str? "key_id" line = some keyId) :
    SameMembers (restored ((line.without "signature").without "key_id") signature keyId) line := by
  have signature? := str?_eq_some signed
  have key? := str?_eq_some keyed
  rw [restored_without]
  constructor
  case get =>
    intro name
    rw [get?_append, Dict.get?_without, Dict.get?_without]
    by_cases isKey : name = "key_id"
    · rw [isKey, key?]
      simp [Dict.get?, Value.lookup]
    · by_cases isSignature : name = "signature"
      · rw [isSignature, signature?]
        simp [Dict.get?, Value.lookup]
      · rw [if_neg isKey, if_neg isSignature]
        have absent : Dict.get? name [("signature", .str signature), ("key_id", .str keyId)] = none := by
          simp [Dict.get?, Value.lookup, Ne.symm isKey, Ne.symm isSignature]
        rw [absent, Option.or_none]
  case names =>
    intro name
    have member_of_get : ∀ {key : String} {value : Value}, line.get? key = some value →
        key ∈ line.map Prod.fst := by
      intro key value got
      unfold Dict.get? Value.lookup at got
      rcases Option.map_eq_some_iff.mp got with ⟨member, found, _⟩
      exact List.mem_map.mpr ⟨member, List.mem_of_find?_eq_some found, by
        simpa using List.find?_some found⟩
    simp only [Dict.without, List.map_append, List.mem_append, List.mem_map, List.mem_filter]
    constructor
    · rintro (⟨member, ⟨⟨inside, _⟩, _⟩, same⟩ | ⟨member, inside, same⟩)
      · exact ⟨member, inside, same⟩
      · simp at inside
        rcases inside with rfl | rfl
        · exact same ▸ List.mem_map.mp (member_of_get signature?)
        · exact same ▸ List.mem_map.mp (member_of_get key?)
    · rintro ⟨member, inside, rfl⟩
      by_cases isSignature : member.1 = "signature"
      · exact Or.inr ⟨("signature", .str signature), by simp, isSignature.symm⟩
      · by_cases isKey : member.1 = "key_id"
        · exact Or.inr ⟨("key_id", .str keyId), by simp, isKey.symm⟩
        · exact Or.inl ⟨member, ⟨⟨inside, by simpa using isSignature⟩, by simpa using isKey⟩, rfl⟩
  case body =>
    rw [List.filter_append, Dict.without, Dict.without, List.filter_filter, List.filter_filter]
    have envelope : List.filter (fun member : String × Value => !digestExcluded.contains member.1)
        [("signature", .str signature), ("key_id", .str keyId)] = [] := by
      simp [digestExcluded]
    rw [envelope, List.append_nil]
    apply List.filter_congr
    intro member _
    by_cases isSignature : member.1 = "signature" <;> by_cases isKey : member.1 = "key_id" <;>
      simp [digestExcluded, isSignature, isKey]

end

end StoreLedger
end CapsuleEmit
