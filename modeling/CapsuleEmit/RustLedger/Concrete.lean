import CapsuleEmit.ArtifactStore.Concrete
import CapsuleEmit.Produce.Canonical
import CapsuleEmit.RustLedger.Line

namespace CapsuleEmit
namespace RustLedger

/-!
# Packages over tables

The packages as they answer on known records: a digest for each known
canonical text, and a payload and a key for each known signed statement.  The
record decoder is the reader of this development within the limits of the
crate.
-/

open ArtifactStore (bigEndian)

/-! ## The decoder -/

/-- A text without the whitespace at its end. -/
def trimSpace (text : Bytes) : Bytes := (text.reverse.dropWhile JsonText.isSpace).reverse

theorem trimSpace_append {text space : Bytes} (blank : space.all JsonText.isSpace = true) :
    trimSpace (text ++ space) = trimSpace text := by
  rw [trimSpace, List.reverse_append, List.dropWhile_append_of_pos, trimSpace]
  intro b inside
  exact List.all_eq_true.mp blank b (List.mem_reverse.mp inside)

theorem trimSpace_split (text : Bytes) :
    ∃ space, space.all JsonText.isSpace = true ∧ text = trimSpace text ++ space := by
  refine ⟨(text.reverse.takeWhile JsonText.isSpace).reverse, ?_, ?_⟩
  · rw [List.all_reverse]
    exact List.all_takeWhile
  · rw [trimSpace, ← List.reverse_append, List.takeWhile_append_dropWhile, List.reverse_reverse]

/-- The reader of this development within the limits of the crate. -/
def plainDecodeRecord (text : Bytes) : Except String Value :=
  match JsonText.readDocument (trimSpace text) with
  | some tree =>
      if sound : tree.textual = true ∧ tree.distinct = true ∧ tree.nesting ≤ decoderLevels then
        .ok ⟨tree, sound.1, sound.2.1⟩
      else .error "expected value"
  | none => .error "expected value"

theorem plainDecodeRecord_spaced {text space : Bytes} (blank : space.all JsonText.isSpace = true) :
    plainDecodeRecord (text ++ space) = plainDecodeRecord text := by
  rw [plainDecodeRecord, trimSpace_append blank, plainDecodeRecord]

theorem plainDecodeRecord_ends {text : Bytes} {value : Value}
    (decoded : plainDecodeRecord text = .ok value) :
    ∃ space, space.all JsonText.isSpace = true ∧ JsonText.EndsAt text space := by
  rcases trimSpace_split text with ⟨after, blank, same⟩
  unfold plainDecodeRecord at decoded
  split at decoded
  · next tree read =>
      rcases JsonText.readDocument_ends read with ⟨space, blank', front, b, whole, bounds⟩
      refine ⟨space ++ after, by rw [List.all_append, blank', blank]; rfl, front, b, ?_, bounds⟩
      conv_lhs => rw [same]
      rw [whole, List.append_assoc, List.cons_append]
  · cases decoded

/-- A value of no more levels reads back from its text. -/
theorem plainDecodeRecord_toText {value : Value} (shallow : value.tree.nesting ≤ decoderLevels) :
    plainDecodeRecord value.toText = .ok value := by
  have read := JsonText.read_write value.tree ((JsonText.write value.tree).length + 1) []
    (Nat.lt_succ_self _) JsonText.separated_nil
  rw [List.append_nil] at read
  rcases JsonText.read_endsAt read with ⟨front, b, whole, visible, -⟩
  have solid : JsonText.isSpace b = false := by
    by_contra space
    simp only [JsonText.isSpace, Bool.not_eq_false, Bool.or_eq_true, decide_eq_true_eq] at space
    rcases space with ((rfl | rfl) | rfl) | rfl <;> exact absurd visible (by decide)
  have trimmed : trimSpace value.toText = JsonText.write value.tree := by
    rw [Value.toText, whole, trimSpace, List.reverse_append, List.reverse_singleton,
      List.singleton_append, List.dropWhile_cons_of_neg (by rw [solid]; decide),
      List.reverse_cons, List.reverse_reverse]
  rw [plainDecodeRecord, trimmed, JsonText.readDocument_write]
  exact dif_pos ⟨value.textual, value.distinct, shallow⟩

/-! ## Signed statements -/

/-- The head of a CBOR item of a major type. -/
def cborHead (major n : Nat) : Bytes :=
  if n < 24 then [UInt8.ofNat (32 * major + n)]
  else if n < 256 then [UInt8.ofNat (32 * major + 24), UInt8.ofNat n]
  else [UInt8.ofNat (32 * major + 25), UInt8.ofNat (n / 256), UInt8.ofNat n]

def cborBytes (bytes : Bytes) : Bytes := cborHead 2 bytes.length ++ bytes

def cborText (text : String) : Bytes := cborHead 3 (utf8 text).length ++ utf8 text

/-- A signed statement under a key. -/
structure SignedStatement where
  contentType : String
  issuer : String
  subject : String
  payload : Bytes
  signature : Bytes
  key : Bytes

namespace SignedStatement

variable (statement : SignedStatement)

def protectedHeader : Bytes :=
  [0xa3, 0x01, 0x27, 0x03] ++ cborText statement.contentType ++ [0x0f, 0xa2, 0x01] ++
    cborText statement.issuer ++ [0x02] ++ cborText statement.subject

/-- The COSE_Sign1. -/
def message : Bytes :=
  [0xd2, 0x84] ++ cborBytes statement.protectedHeader ++ [0xa0] ++ cborBytes statement.payload ++
    cborBytes statement.signature

end SignedStatement

/-! ## Packages -/

/-- The packages as they answer on the given canonical texts and statements; the
digest of any other text without numbers is computed. -/
def tablePackages (digests : List (Bytes × Bytes)) (signed : List SignedStatement) : Packages where
  jsonDigest value :=
    match digests.find? (fun entry => entry.1 = JsonText.write value.normal) with
    | some entry => .ok (Sha256.hex entry.2)
    | none =>
        if value.everyNumber (fun _ => false) then
          .ok (Sha256.hex (Sha256.digest (JsonText.write value.normal)))
        else .error .notSerializable
  isLocalOnlyField name := name = utf8 "signature" || name = utf8 "key_id"
  decodeRecord := plainDecodeRecord
  parseSign1 message :=
    match signed.find? (fun statement => statement.message = message) with
    | some statement => .ok (some statement.payload)
    | none => .error "not a COSE_Sign1"
  verifySignature message key :=
    signed.any (fun statement => statement.message = message && statement.key = key)
  isVerifyingKey key := signed.any (fun statement => statement.key = key)

theorem tablePackages_isLocalOnlyField {digests : List (Bytes × Bytes)}
    {signed : List SignedStatement} (name : String) :
    (tablePackages digests signed).isLocalOnlyField (utf8 name) =
      decide (name = "signature" ∨ name = "key_id") := by
  simp only [tablePackages, utf8_inj, Bool.decide_or]

theorem tablePackages_lawful {digests : List (Bytes × Bytes)}
    (sized : ∀ entry ∈ digests, entry.2.length = 32) (signed : List SignedStatement) :
    (tablePackages digests signed).Lawful where
  digest value id computed := by
    simp only [tablePackages] at computed
    split at computed
    · next entry found =>
        cases computed
        exact ⟨entry.2, sized entry (List.mem_of_find?_eq_some found), rfl⟩
    · split at computed
      · cases computed
        exact ⟨_, Sha256.length_digest _, rfl⟩
      · cases computed
  total value unnumbered := by
    simp only [tablePackages]
    split
    · exact ⟨_, rfl⟩
    · exact ⟨_, if_pos unnumbered⟩
  localOnly name := tablePackages_isLocalOnlyField name
  reads value shallow := plainDecodeRecord_toText shallow
  spaced text space value blank := by
    change plainDecodeRecord (text ++ space) = .ok value ↔ plainDecodeRecord text = .ok value
    rw [plainDecodeRecord_spaced blank]
  ends text value decoded := plainDecodeRecord_ends decoded

theorem tablePackages_jsonDigest {digests : List (Bytes × Bytes)} {signed : List SignedStatement}
    {value : Json} {entry : Bytes × Bytes}
    (found : digests.find? (fun entry => entry.1 = JsonText.write value.normal) = some entry) :
    (tablePackages digests signed).jsonDigest value = .ok (Sha256.hex entry.2) := by
  simp only [tablePackages, found]

/-- No two statements have the same bytes. -/
def Separate (signed : List SignedStatement) : Prop :=
  ∀ first ∈ signed, ∀ second ∈ signed, first.message = second.message → first = second

theorem SignedStatement.message_ne {first second : SignedStatement}
    (sized : first.signature.length = second.signature.length)
    (different : first.signature ≠ second.signature) : first.message ≠ second.message := by
  intro same
  rw [message, message, cborBytes, cborBytes, cborBytes, cborBytes, cborBytes, cborBytes,
    ← List.append_assoc _ _ first.signature, ← List.append_assoc _ _ second.signature] at same
  exact different (List.append_inj_right' same sized)

section

variable {digests : List (Bytes × Bytes)} {signed : List SignedStatement}
  (separate : Separate signed) {statement : SignedStatement} (inside : statement ∈ signed)

include separate inside

theorem tablePackages_parseSign1 :
    (tablePackages digests signed).parseSign1 statement.message = .ok (some statement.payload) := by
  simp only [tablePackages]
  split
  · next other found =>
      have same := List.find?_some found
      rw [decide_eq_true_eq] at same
      rw [separate other (List.mem_of_find?_eq_some found) statement inside same]
  · next absent =>
      have none := List.find?_eq_none.mp absent statement inside
      simp at none

theorem tablePackages_verifySignature (key : Bytes) :
    (tablePackages digests signed).verifySignature statement.message key =
      decide (statement.key = key) := by
  simp only [tablePackages]
  rw [Bool.eq_iff_iff, List.any_eq_true, decide_eq_true_eq]
  constructor
  · rintro ⟨other, member, matched⟩
    rw [Bool.and_eq_true, decide_eq_true_eq, decide_eq_true_eq] at matched
    rw [← separate other member statement inside matched.1]
    exact matched.2
  · intro same
    exact ⟨statement, inside, by simp [same]⟩

end

theorem separate_singleton (statement : SignedStatement) : Separate [statement] := by
  intro first inFirst second inSecond _
  rw [List.mem_singleton.mp inFirst, List.mem_singleton.mp inSecond]

theorem separate_pair {first second : SignedStatement}
    (different : first.message ≠ second.message) : Separate [first, second] := by
  intro left inLeft right inRight same
  simp only [List.mem_cons, List.not_mem_nil, or_false] at inLeft inRight
  rcases inLeft with rfl | rfl <;> rcases inRight with rfl | rfl
  · rfl
  · exact absurd same different
  · exact absurd same.symm different
  · rfl

/-- Hexadecimal text is written as it is. -/
theorem escape_hex (bytes : Bytes) : (utf8 (Sha256.hex bytes)).flatMap JsonText.escapeByte =
    utf8 (Sha256.hex bytes) := by
  have plain : ∀ b : UInt8, Sha256.isHexByte b = true → JsonText.escapeByte b = [b] := by
    intro b hex
    simp only [Sha256.isHexByte, Bool.or_eq_true, Bool.and_eq_true, decide_eq_true_eq,
      UInt8.le_iff_toNat_le] at hex
    simp only [JsonText.escapeByte, ← UInt8.toNat_inj, UInt8.lt_iff_toNat_lt]
    simp only [UInt8.reduceToNat] at hex ⊢
    split_ifs <;> first | rfl | omega
  have every := List.all_eq_true.mp (Sha256.utf8_hex_all bytes)
  generalize utf8 (Sha256.hex bytes) = text at every
  induction text with
  | nil => rfl
  | cons b text ih =>
      rw [List.flatMap_cons, plain b (every b List.mem_cons_self),
        ih (fun c inside => every c (List.mem_cons_of_mem b inside))]
      rfl

/-! ## A record with a note -/

/-- A record with one note, signed by nobody it names. -/
def noteRecord (note : String) (digest : Bytes) : Value :=
  objectOf [("note", textOf note), ("capsule_id", textOf (Sha256.hex digest))] (by simp)

/-- The canonical text of a note. -/
def noteText (note : String) : Bytes :=
  JsonText.write (Json.object [(utf8 "note", Json.ofString note)]).normal

def noteDigest : Bytes :=
  bigEndian 32 0x7ab8177e6f3c09d584de9aa28c667ef72c9a46fd211ece81bcc70527e3598a8e

def signerKey : Bytes :=
  bigEndian 32 0x197f6b23e16c8532c6abc838facd5ea789be0c76b2920334039bfa8b3d368d61

/-- The record whose note is U+FFFD. -/
def replacedRecord : Value := noteRecord "\uFFFD" noteDigest

/-- The signed statement of the record whose note is U+FFFD. -/
def noteStatement : SignedStatement where
  contentType := "application/vnd.agent-action-capsule+json"
  issuer := "ledger-test"
  subject := Sha256.hex noteDigest
  payload := replacedRecord.toText
  signature :=
    bigEndian 32 0x6e34f36f674a0a389d4086c2bcabdc589f3c6d31dabff25758f3f01e297d22d5 ++
    bigEndian 32 0xfa2fb7e91fde38aabdec6274587de6e719c040df498a5da8865d767aff64030e
  key := signerKey

def notePackages : Packages := tablePackages [(noteText "\uFFFD", noteDigest)] [noteStatement]

theorem notePackages_lawful : notePackages.Lawful :=
  tablePackages_lawful (by simp [noteDigest, bigEndian]) _

section

variable (note : String) (digest : Bytes)

theorem noteRecord_capsuleId :
    (noteRecord note digest).str? "capsule_id" = some (Sha256.hex digest) := by
  simp [noteRecord, Value.str?, objectOf, textOf, Json.get, Json.lookup]

theorem noteRecord_absent {name : String} (other : name ≠ "note") (notId : name ≠ "capsule_id") :
    (noteRecord note digest).tree.get name = none := by
  simp [noteRecord, objectOf, Json.get, Json.lookup, other.symm, notId.symm]

theorem noteRecord_preimage (packages : Packages)
    (names : packages.isLocalOnlyField (utf8 "note") = false) :
    computeCapsuleId packages (noteRecord note digest) =
      packages.jsonDigest (.object [(utf8 "note", Json.ofString note)]) := by
  simp [computeCapsuleId, noteRecord, objectOf, textOf, preimage, names]

theorem nesting_noteRecord : (noteRecord note digest).tree.nesting ≤ decoderLevels := by
  simp [noteRecord, objectOf, textOf, Json.ofString, Json.nesting, Json.nestingMembers,
    decoderLevels]

end

/-! ## A padding record under two keys -/

def otherKey : Bytes :=
  bigEndian 32 0xea4a6c63e29c520abef5507b132ec5f9954776aebebe7b92421eea691446d22c

def paddingDigest : Bytes :=
  bigEndian 32 0x3ceb4dff078ac36e216ae4336f8628ce07ad7efd44d4478dc451cb5d95286f64

def paddingId : String := Sha256.hex paddingDigest

/-- The nonce of the padding record. -/
def paddingNonce : Bytes := List.replicate 32 0xcc

/-- The producer envelope of a Capsule ID: its digest under a key. -/
def producerEnvelope (key digest signature : Bytes) : Bytes :=
  [0xd2, 0x84] ++ cborBytes ([0xa3, 0x01, 0x27, 0x03] ++
    cborText "application/agent-action-capsule-id" ++ [0x04] ++ cborBytes key) ++ [0xa0] ++
    cborBytes digest ++ cborBytes signature

def firstPadding : Value := paddingRecord paddingId (Sha256.hex paddingNonce)
  (producerEnvelope signerKey paddingDigest
    (bigEndian 32 0x1b07758088f772b7950bd4627e5e32b9f13f9e2f7d1aa0a9fa365ce5c2620262 ++
      bigEndian 32 0x8d36e57d8c3283fc09aa8284d44cb5aa8776f5be66a4445a75e0a8d1174de50e))
  signerKey

def secondPadding : Value := paddingRecord paddingId (Sha256.hex paddingNonce)
  (producerEnvelope otherKey paddingDigest
    (bigEndian 32 0xe01585d068945ac313e259fa7eb1c5a0335db5764c0ec11dee171ffe71b904b5 ++
      bigEndian 32 0x9723e6566131b02b688ff08e8e07b049d352a15f5d87418ea73ac5972fdf820d))
  otherKey

def firstStatement : SignedStatement where
  contentType := "application/json"
  issuer := "ledger-test"
  subject := paddingId
  payload := firstPadding.toText
  signature :=
    bigEndian 32 0xa75d33414c5a25aed45acfa5f01e367349fc58cc4de9797d0a179f49046d585c ++
    bigEndian 32 0xb013d04e7791ef646f18eead125d7eaf492c62c3fc91ab21bd0988f0e3986502
  key := signerKey

def secondStatement : SignedStatement where
  contentType := "application/json"
  issuer := "ledger-test"
  subject := paddingId
  payload := secondPadding.toText
  signature :=
    bigEndian 32 0xcfcf5b6db208385db4c1cc61d87a42af7a701eb7574520b1d55957289720126e ++
    bigEndian 32 0xfd6ca5e13dd40fcfe81f8f178e1d6034b989fa9754ef90010d98f7762797f403
  key := otherKey

/-- The canonical text of the padding record. -/
def paddingText : Bytes := JsonText.write (paddingBody (Sha256.hex paddingNonce)).tree.normal

def paddingPackages : Packages :=
  tablePackages [(paddingText, paddingDigest)] [firstStatement, secondStatement]

theorem paddingPackages_lawful : paddingPackages.Lawful :=
  tablePackages_lawful (by simp [paddingDigest, bigEndian]) _

theorem signerKey_ne : signerKey ≠ otherKey := by decide

theorem paddingStatements_separate : Separate [firstStatement, secondStatement] := by
  apply separate_pair
  apply SignedStatement.message_ne
  · simp [firstStatement, secondStatement, bigEndian]
  · decide

theorem paddingBody_digest :
    paddingPackages.jsonDigest (paddingBody (Sha256.hex paddingNonce)).tree = .ok paddingId :=
  tablePackages_jsonDigest (List.find?_cons_of_pos (decide_eq_true rfl))

theorem paddingBody_id : computeCapsuleId paddingPackages (paddingBody (Sha256.hex paddingNonce)) =
    .ok paddingId := by
  rw [← paddingBody_digest]
  simp [computeCapsuleId, paddingBody, objectOf, preimage, paddingPackages_lawful.localOnly]

end RustLedger
end CapsuleEmit
