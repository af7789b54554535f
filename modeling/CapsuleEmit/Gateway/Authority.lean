import CapsuleEmit.Foundation.Alignment
import CapsuleEmit.Foundation.Lines
import CapsuleEmit.Foundation.Tables
import CapsuleEmit.Numbers.Payload

namespace CapsuleEmit
namespace Gateway
namespace Authority

open Numbers (Binary64 Value)

/-!
# The authority block of a tool call

Around a tool call the gateway sends metadata twice, with the request and with
the response.  From both, the audit block takes a value for each of four slots
by a map of candidate keys, drops what looks like token material, and joins the
identifiers of the grants with their audiences.  The block names the slots it
has no value for.
-/

/-! ## Lookup -/

abbrev Members := List (String × Value)

/-- The parts of a text between dots. -/
def segments (text : List Char) : List (List Char) :=
  (Lines.split '.' text).1 ++ [(Lines.split '.' text).2]

/-- Follow the parts of a dotted key through nested objects. -/
def walk : Value → List String → Option Value
  | current, [] => some current
  | .dict members, part :: parts => (members.lookup part).bind (fun next => walk next parts)
  | _, _ :: _ => none

/-- `_lookup(md, key)`: the literal key first, then the dotted path. -/
def lookup (md : Members) (key : String) : Option Value :=
  if md.any (fun member => member.1 = key) then md.lookup key
  else if '.' ∉ key.toList then none
  else walk (.dict md) ((segments key.toList).map String.ofList)

/-! ## Redaction -/

def maxLen : Nat := 512
def opaqueLen : Nat := 256

/-- A letter of a pattern matches a character whatever its case; the long s and
two letters i outside ASCII are cases as well. -/
def letterMatches (letter c : Char) : Bool :=
  c.toLower = letter || (letter = 's' && c = 'ſ') || (letter = 'i' && (c = 'İ' || c = 'ı'))

/-- What follows a text at the start, whatever the case of its letters. -/
def afterIgnoringCase : List Char → List Char → Option (List Char)
  | [], rest => some rest
  | letter :: letters, c :: rest =>
      if letterMatches letter c then afterIgnoringCase letters rest else none
  | _ :: _, [] => none

/-- The characters `\s` matches. -/
def isSpace (c : Char) : Bool :=
  let n := c.toNat
  (9 ≤ n && n ≤ 13) || (0x1C ≤ n && n ≤ 0x20) || n = 0x85 || n = 0xA0 || n = 0x1680 ||
    (0x2000 ≤ n && n ≤ 0x200A) || n = 0x2028 || n = 0x2029 || n = 0x202F || n = 0x205F ||
    n = 0x3000

/-- An authorization scheme, and white space. -/
def authScheme (value : List Char) : Bool :=
  ["bearer".toList, "basic".toList, "dpop".toList].any (fun scheme =>
    ((afterIgnoringCase scheme value).bind List.head?).any isSpace)

def isBase64Url (c : Char) : Bool := c.isAlphanum || c = '_' || c = '-'

/-- Three base64url segments of at least four characters. -/
def jwsCompact (value : List Char) : Bool :=
  (segments value).length = 3 &&
    (segments value).all (fun segment => 4 ≤ segment.length && segment.all isBase64Url)

def isHexDigit (c : Char) : Bool :=
  c.isDigit || ('a' ≤ c && c ≤ 'f') || ('A' ≤ c && c ≤ 'F')

def hex (value : List Char) : Bool := !value.isEmpty && value.all isHexDigit

/-- `token_shaped(value)` of a text: why it looks like token material. -/
def tokenShaped (value : String) : Option String :=
  if authScheme value.toList then some "authorization-scheme"
  else if jwsCompact value.toList then some "jws-compact"
  else if opaqueLen ≤ value.toList.length && !hex value.toList then some "opaque-long"
  else none

mutual
/-- `_sanitize(value)`: what is sealed for a value, and why something was left
out of it. -/
def sanitize : Value → Value × Option String
  | .list items =>
      match sanitizeItems items with
      | ([], reason :: _) => (.null, some reason)
      | (out, reasons) => (.list out, reasons.head?)
  | .str value =>
      match tokenShaped value with
      | some reason => (.null, some reason)
      | none =>
          (.str (if maxLen < value.toList.length then String.ofList (value.toList.take maxLen)
            else value), none)
  | .dict _ => (.null, some "not-an-identifier")
  | .null => (.null, none)
  | .bool b => (.bool b, none)
  | .int n => (.int n, none)
  | .float v => (.float v, none)
  | .tuple items => (.tuple items, none)

/-- The items that stay, and the reasons of those that do not. -/
def sanitizeItems : List Value → List Value × List String
  | [] => ([], [])
  | item :: items =>
      match sanitize item with
      | (_, some reason) => ((sanitizeItems items).1, reason :: (sanitizeItems items).2)
      | (safe, none) => (safe :: (sanitizeItems items).1, (sanitizeItems items).2)
end

/-! ## The block -/

def auditSlots : List String := ["subject", "idjag_jti", "idjag_aud", "resource_token"]

abbrev KeyMap := List (String × List String)

def defaultKeyMap : KeyMap :=
  [("subject", ["backendAuth.subject", "backendAuth.sub", "subject"]),
    ("idjag_jti", ["backendAuth.idJag.jti", "idjag_jti"]),
    ("idjag_aud", ["backendAuth.idJag.audience", "backendAuth.idJag.aud", "idjag_aud"]),
    ("resource_token", ["backendAuth.resourceToken.jti", "resource_token"])]

/-- `key_map or dict(DEFAULT_KEY_MAP)` -/
def keyMapOf : Option KeyMap → KeyMap
  | none => defaultKeyMap
  | some [] => defaultKeyMap
  | some keyMap => keyMap

/-- The candidate keys of a slot. -/
def keysOf (keyMap : KeyMap) (slot : String) : List String := (keyMap.lookup slot).getD []

/-- A value that counts as found. -/
def present : Value → Option Value
  | .null => none
  | value => some value

/-- The first candidate key with a value, and the value. -/
def candidate (md : Members) (keys : List String) : Option (Value × String) :=
  keys.findSome? (fun key => ((lookup md key).bind present).map (fun found => (found, key)))

/-- A value for a slot, the key it came from and the phase that supplied it. -/
structure Hit where
  value : Value
  key : String
  phase : String

/-- The loop over the phases: a later one wins. -/
def hit (request response : Members) (keys : List String) : Option Hit :=
  [("request", request), ("response", response)].foldl (fun earlier phase =>
    ((candidate phase.2 keys).map (fun found => (⟨found.1, found.2, phase.1⟩ : Hit))).or earlier)
    none

/-- What the loop over the slots has put together. -/
structure Collected where
  fields : List (String × Hit)
  absent : List String
  redacted : List String

/-- One turn of the loop over the slots. -/
def auditSlot (keyMap : KeyMap) (request response : Members) (collected : Collected)
    (slot : String) : Collected :=
  match hit request response (keysOf keyMap slot) with
  | none => { collected with absent := collected.absent ++ [slot] }
  | some found =>
      match sanitize found.value with
      | (.null, some _) =>
          { collected with
            redacted := collected.redacted ++ [slot], absent := collected.absent ++ [slot] }
      | (safe, reason) =>
          { collected with
            redacted := collected.redacted ++ (if reason.isSome then [slot] else [])
            fields := collected.fields ++ [(slot, { found with value := safe })] }

def collect (keyMap : KeyMap) (request response : Members) : Collected :=
  auditSlots.foldl (auditSlot keyMap request response) ⟨[], [], []⟩

def asList : Value → List Value
  | .list items => items
  | value => [value]

/-- The members a pair of items gives a grant; none when it gives no member. -/
def grantEntry (jti aud : Option Value) : Option Value :=
  match (jti.map (fun value => ("jti", value))).toList ++
      (aud.map (fun value => ("aud", value))).toList with
  | [] => none
  | entry => some (.dict entry)

/-- The items of a slot. -/
def slotItems (fields : List (String × Hit)) (slot : String) : List Value :=
  ((fields.lookup slot).map (fun field => asList field.value)).getD []

/-- `_build_grants(fields)` -/
def buildGrants (fields : List (String × Hit)) : List Value :=
  let jti := slotItems fields "idjag_jti"
  let aud := slotItems fields "idjag_aud"
  (List.range (max jti.length aud.length)).filterMap (fun i => grantEntry jti[i]? aud[i]?)

def fieldValue (field : Hit) : Value :=
  .dict [("value", field.value), ("key", .str field.key), ("phase", .str field.phase)]

def sortedNames (names : List String) : Value :=
  .list ((names.insertionSort (· ≤ ·)).map .str)

def metadataKeys : Option Members → Value
  | none => .null
  | some md => sortedNames (md.map Prod.fst)

def schema : String := "capsule-emit/agentgateway-audit/1"
def issue : String := "agentgateway/agentgateway#3042"

/-- The block before its floats are written as texts. -/
def block (keyMap : KeyMap) (request response : Option Members) : Value :=
  let collected := collect keyMap (request.getD []) (response.getD [])
  .dict [("schema", .str schema), ("issue", .str issue),
    ("fields", .dict (collected.fields.map (fun field => (field.1, fieldValue field.2)))),
    ("grants", .list (buildGrants collected.fields)),
    ("absent", sortedNames collected.absent), ("redacted", sortedNames collected.redacted),
    ("metadata_keys", .dict [("request", metadataKeys request),
      ("response", metadataKeys response)])]

/-- `build_authority_block(request_md, response_md, key_map=key_map)`; metadata
that is absent is `none`. -/
def buildAuthorityBlock (quote : String → String) (request response : Option Members)
    (keyMap : Option KeyMap) : Except Numbers.ConversionError Value :=
  Numbers.canonicalizeForDigest quote "extra_compute" (block (keyMapOf keyMap) request response)

end Authority
end Gateway
end CapsuleEmit
