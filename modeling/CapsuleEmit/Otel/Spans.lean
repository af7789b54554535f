import CapsuleEmit.Foundation.OrderedMap
import CapsuleEmit.Foundation.Sha256
import CapsuleEmit.Otel.Documents
import Mathlib.Algebra.Order.Floor.Ring
import Mathlib.Data.Rat.Floor

namespace CapsuleEmit
namespace Otel

open Scanner (Tree)

/-!
# The spans of an export

A span has facts when its ids and its start time are usable.  Ids are compared
in lower case and by a pattern whose end of text is also in front of a last
newline, so an id may have one behind it; its bytes are the same.  A span is an
effect unless one of its own attributes says that it reads.
-/

variable (interpreter : Interpreter)

/-! ## Attributes -/

/-- The value of an attribute. -/
inductive AnyValue where
  | text (content : Bytes)
  | bool (value : Bool)
  | int (value : Int)
  | float (source : Tree)
  | list (items : List AnyValue)

/-- What is under a key of an object, `None` included. -/
def entry (members : List (Bytes × Tree)) (key : String) : Option Tree :=
  (members.reverse.find? (fun member => member.1 = utf8 key)).map Prod.snd

/-- Whether a value counts as true. -/
def truthy : Tree → Bool
  | .null => false
  | .bool value => value
  | .number value => interpreter.number value ≠ some 0
  | .constant _ => true
  | .string content => !content.isEmpty
  | .array items => !items.isEmpty
  | .object members => !members.isEmpty

/-- A number without its fraction. -/
def truncate (q : Rat) : Int := if 0 ≤ q then ⌊q⌋ else ⌈q⌉

/-- `int(value)`, and nothing where it raises. -/
def toInt : Tree → Option Int
  | .bool value => some (if value then 1 else 0)
  | .number value => (interpreter.number value).map truncate
  | .string content => interpreter.int content
  | _ => none

/-- Whether `float(value)` returns. -/
def floats : Tree → Bool
  | .bool _ => true
  | .number _ => true
  | .constant _ => true
  | .string content => interpreter.float content
  | _ => false

mutual
/-- `_any_value`, and nothing where it raises. -/
def anyValue : Tree → Option AnyValue
  | .object members =>
      match entry members "stringValue" with
      | some (.string content) => some (.text content)
      | _ =>
          match entry members "boolValue" with
          | some (.bool value) => some (.bool value)
          | _ =>
              match (entry members "intValue").filter
                  (fun value => match value with | .bool _ => false | _ => true) with
              | some value => (toInt interpreter value).map .int
              | none =>
                  match entry members "doubleValue" with
                  | some value => if floats interpreter value then some (.float value) else none
                  | none => (arrayValue members).getD none
  | _ => none

/-- The last `arrayValue` of an object. -/
def arrayValue : List (Bytes × Tree) → Option (Option AnyValue)
  | [] => none
  | (name, value) :: rest =>
      match arrayValue rest with
      | some found => some found
      | none => if name = utf8 "arrayValue" then some (arrayOf value) else none

/-- `[_any_value(v) for v in (value or {}).get("values") or []]` -/
def arrayOf : Tree → Option AnyValue
  | .object members => (valuesOf members).getD (some (.list []))
  | value => if truthy interpreter value then none else some (.list [])

/-- The values of the last `values` of an object. -/
def valuesOf : List (Bytes × Tree) → Option (Option AnyValue)
  | [] => none
  | (name, value) :: rest =>
      match valuesOf rest with
      | some found => some found
      | none => if name = utf8 "values" then some (valueList value) else none

def valueList : Tree → Option AnyValue
  | .array items => (anyValues items).map .list
  | value => if truthy interpreter value then none else some (.list [])

def anyValues : List Tree → Option (List AnyValue)
  | [] => some []
  | item :: items => (anyValue item).bind (fun value => (anyValues items).map (value :: ·))
end

/-- One attribute; one whose value is not supported is left out. -/
def setAttribute (out : List (Bytes × AnyValue)) (item : Tree) : List (Bytes × AnyValue) :=
  match item with
  | .object members =>
      match entry members "key", entry members "value" with
      | some (.string key), some (.object value) =>
          match anyValue interpreter (.object value) with
          | some value => OrderedMap.insert key value out
          | none => out
      | _, _ => out
  | _ => out

/-- `_attrs` -/
def attrs (items : Option Tree) : List (Bytes × AnyValue) :=
  match items with
  | some (.array items) => items.foldl (setAttribute interpreter) []
  | _ => []

/-! ## Classification -/

inductive Classification where
  | effect
  | observation
  deriving DecidableEq

/-- `value.strip()` -/
def strip (text : List Char) : List Char :=
  let space := fun c => Produce.isWhiteSpace c || Produce.isSeparator c
  ((text.dropWhile space).reverse.dropWhile space).reverse

/-- `str.upper` on the characters whose upper case is one ASCII letter; no other character
takes part in a word that is looked for. -/
def upper (c : Char) : Char :=
  if c.toNat = 0x131 then 'I' else if c.toNat = 0x17F then 'S' else c.toUpper

/-- Whether a text is one of some words. -/
def isOneOf (words : List String) (text : List Char) : Bool :=
  words.any (fun word => word.toList = text)

def dbOperationSignal (op : Bytes) : Option Bool :=
  (utf8? op).bind (fun text =>
    let normalized := (strip text.toList).map upper
    if isOneOf ["INSERT", "UPDATE", "DELETE", "MERGE"] normalized then some true
    else if isOneOf ["SELECT"] normalized then some false
    else none)

def messagingOperationSignal (op : Bytes) : Option Bool :=
  (utf8? op).bind (fun text =>
    let normalized := (strip text.toList).map Char.toLower
    if isOneOf ["create", "send", "settle"] normalized then some true
    else if isOneOf ["receive", "process"] normalized then some false
    else none)

def mutatingRpcPrefixes : List String :=
  ["Create", "Update", "Delete", "Put", "Post", "Insert", "Remove", "Set", "Write", "Patch",
    "Merge", "Cancel", "Submit", "Register", "Revoke", "Grant"]

def queryRpcPrefixes : List String :=
  ["Get", "List", "Describe", "Read", "Query", "Find", "Search", "Lookup", "Check", "Head",
    "Fetch", "Watch"]

def rpcMethodSignal (method : Bytes) : Option Bool :=
  if mutatingRpcPrefixes.any (fun word => (utf8 word).isPrefixOf method) then some true
  else if queryRpcPrefixes.any (fun word => (utf8 word).isPrefixOf method) then some false
  else none

/-- The text of an attribute. -/
def attributeText (attributes : List (Bytes × AnyValue)) (key : String) : Option Bytes :=
  match attributes.lookup (utf8 key) with
  | some (.text content) => some content
  | _ => none

/-- `_span_commit_step_signal`: the first of the three attributes that says something. -/
def spanCommitStepSignal (attributes : List (Bytes × AnyValue)) : Option Bool :=
  ((attributeText attributes "db.operation.name").bind dbOperationSignal).or
    (((attributeText attributes "messaging.operation.type").bind messagingOperationSignal).or
      ((attributeText attributes "rpc.method").bind rpcMethodSignal))

def readOnlyHttpMethods : List String := ["GET", "HEAD", "OPTIONS"]

/-- `classify_span_signal_1` -/
def classifySpanSignal1 (attributes : List (Bytes × AnyValue)) : Classification :=
  match (attributeText attributes "http.request.method").filter (fun method => !method.isEmpty) with
  | some method =>
      if ((utf8? method).map (fun text =>
          isOneOf readOnlyHttpMethods (text.toList.map upper))).getD false then .observation
      else .effect
  | none => if spanCommitStepSignal attributes = some false then .observation else .effect

/-! ## Ids -/

/-- `str.lower` of a byte; no other character has a hexadecimal digit as its lower case. -/
def lowerByte (b : UInt8) : UInt8 := if 65 ≤ b && b ≤ 90 then b + 32 else b

/-- A match of `^[0-9a-f]{n}$`. -/
def matchesHex (n : Nat) (id : Bytes) : Bool :=
  (id.take n).length = n && (id.take n).all Sha256.isHexByte &&
    (id.drop n = [] || id.drop n = [newline])

/-- `_id` -/
def idOf (n : Nat) (value : Option Tree) : Option Bytes :=
  match value with
  | some (.string content) =>
      if matchesHex n (content.map lowerByte) && (content.map lowerByte).any (fun b => b ≠ 48) then
        some (content.map lowerByte)
      else none
  | _ => none

/-- White space `bytes.fromhex` skips. -/
def isAsciiSpace (b : UInt8) : Bool := b = 32 || (9 ≤ b && b ≤ 13)

/-- `bytes.fromhex` -/
def fromHex : Bytes → Option Bytes
  | [] => some []
  | a :: rest =>
      if isAsciiSpace a then fromHex rest
      else
        match rest with
        | [] => none
        | b :: rest => do
            let high ← JsonText.hexValue a
            let low ← JsonText.hexValue b
            let bytes ← fromHex rest
            return UInt8.ofNat (16 * high + low) :: bytes

/-- `_source_digest` -/
def sourceDigest (traceId spanId : Bytes) : String :=
  Sha256.hex (Sha256.digest ((fromHex traceId).getD [] ++ (fromHex spanId).getD []))

/-! ## Facts -/

/-- The last instant `datetime` holds. -/
def maxNs : Int := 253402300799 * 10 ^ 9

/-- `_nanos` -/
def nanos (value : Option Tree) : Option Int :=
  match value with
  | some (.bool _) => none
  | some value => (toInt interpreter value).filter (fun ns => 0 < ns && ns ≤ maxNs)
  | none => none

/-- What is known of a span. -/
structure SpanFacts where
  name : Bytes
  attributes : List (Bytes × AnyValue)
  resourceAttributes : List (Bytes × AnyValue)
  traceId : Bytes
  spanId : Bytes
  parentSpanId : Option Bytes
  traceFlags : Option String
  tracestate : Option Tree
  statusIsError : Bool

/-- `f"{flags & 0xFF:02x}"` of an integer. -/
def flagsText (value : Option Tree) : Option String :=
  match value with
  | some (.number number) =>
      if ArtifactStore.Python.isIntText number then
        (interpreter.number number).map (fun q =>
          Sha256.hex [UInt8.ofNat (truncate q % 256).toNat])
      else none
  | _ => none

/-- Whether a status code is one of an error. -/
def isErrorCode (code : Option Tree) : Bool :=
  match code with
  | some (.number number) => interpreter.number number = some 2
  | some (.string content) => content = utf8 "2" || content = utf8 "STATUS_CODE_ERROR"
  | _ => false

def statusIsError (status : Option Tree) : Bool :=
  match status with
  | some (.object members) => isErrorCode interpreter (entry members "code")
  | _ => false

/-- A span with usable ids and start time: its facts, its start and its end. -/
structure Parsed where
  facts : SpanFacts
  start : Int
  finish : Option Int

/-- `_span_facts` -/
def spanFacts (members : List (Bytes × Tree)) (resource : List (Bytes × AnyValue)) :
    Option Parsed :=
  match idOf 32 (entry members "traceId"), idOf 16 (entry members "spanId"),
      nanos interpreter (entry members "startTimeUnixNano") with
  | some traceId, some spanId, some start =>
      some {
        facts := {
          name := match entry members "name" with | some (.string content) => content | _ => []
          attributes := attrs interpreter (entry members "attributes")
          resourceAttributes := resource
          traceId := traceId
          spanId := spanId
          parentSpanId := idOf 16 (entry members "parentSpanId")
          traceFlags := flagsText interpreter (entry members "flags")
          tracestate := (entry members "traceState").filter (truthy interpreter)
          statusIsError := statusIsError interpreter (entry members "status") }
        start := start
        finish := (nanos interpreter (entry members "endTimeUnixNano")).filter
          (fun finish => start ≤ finish) }
  | _, _, _ => none

/-- A span as `_spans` yields it. -/
def parseSpan (span : Option Tree × Tree) : Option Parsed :=
  match span.2 with
  | .object members => spanFacts interpreter members (attrs interpreter span.1)
  | _ => none

/-! ## Which spans are sealed -/

/-- A text that names an id of some length in hexadecimal digits of either case, not all
zeros. -/
def NamesId (n : Nat) (value : Option Tree) (id : Bytes) : Prop :=
  ∃ content, value = some (.string content) ∧ id = content.map lowerByte ∧ id.length = n ∧
    id.all Sha256.isHexByte = true ∧ id.any (fun b => b ≠ 48) = true

/-- A span that is an effect, with valid ids and a start time. -/
def Eligible (span : Tree) (traceId spanId : Bytes) : Prop :=
  ∃ members, span = .object members ∧ NamesId 32 (entry members "traceId") traceId ∧
    NamesId 16 (entry members "spanId") spanId ∧
    (nanos interpreter (entry members "startTimeUnixNano")).isSome = true ∧
    classifySpanSignal1 (attrs interpreter (entry members "attributes")) = .effect

variable {interpreter}

/-- A valid id is taken in lower case. -/
theorem idOf_of_namesId {n : Nat} {value : Option Tree} {id : Bytes} (named : NamesId n value id) :
    idOf n value = some id := by
  rcases named with ⟨content, rfl, rfl, length, hex, some⟩
  have taken : (content.map lowerByte).take n = content.map lowerByte :=
    List.take_of_length_le (Nat.le_of_eq length)
  have dropped : (content.map lowerByte).drop n = [] := List.drop_of_length_le (Nat.le_of_eq length)
  have matched : matchesHex n (content.map lowerByte) = true := by
    rw [matchesHex, taken, dropped, length, hex]
    simp
  rw [idOf, matched, some]
  rfl

/-- An id without a newline behind it is a valid one. -/
theorem namesId_of_idOf {n : Nat} {value : Option Tree} {id : Bytes}
    (taken : idOf n value = some id) (length : id.length = n) : NamesId n value id := by
  unfold idOf at taken
  split at taken
  · next content =>
      split at taken
      · next both =>
          cases taken
          rw [Bool.and_eq_true] at both
          have matched := both.1
          rw [matchesHex, List.take_of_length_le (Nat.le_of_eq length), Bool.and_eq_true,
            Bool.and_eq_true] at matched
          exact ⟨content, rfl, rfl, length, matched.1.2, both.2⟩
      · cases taken
  · cases taken

/-- An effect with valid ids and a start time has facts. -/
theorem parseSpan_of_eligible {span : Tree} {traceId spanId : Bytes} {attributes : Option Tree}
    (eligible : Eligible interpreter span traceId spanId) :
    ∃ parsed, parseSpan interpreter (attributes, span) = some parsed ∧
      parsed.facts.traceId = traceId ∧ parsed.facts.spanId = spanId ∧
      classifySpanSignal1 parsed.facts.attributes = .effect := by
  rcases eligible with ⟨members, rfl, trace, id, started, effect⟩
  rcases Option.isSome_iff_exists.mp started with ⟨start, begins⟩
  cases read : parseSpan interpreter (attributes, .object members) with
  | none =>
      rw [parseSpan] at read
      dsimp only at read
      rw [spanFacts, idOf_of_namesId trace, idOf_of_namesId id, begins] at read
      cases read
  | some parsed =>
      refine ⟨parsed, rfl, ?_⟩
      rw [parseSpan] at read
      dsimp only at read
      rw [spanFacts, idOf_of_namesId trace, idOf_of_namesId id, begins] at read
      cases read
      exact ⟨rfl, rfl, effect⟩

/-- A span with facts, whose ids have nothing behind them, is valid; it is an effect when its
facts are. -/
theorem eligible_of_parseSpan {span : Option Tree × Tree} {parsed : Parsed}
    (read : parseSpan interpreter span = some parsed) (trace : parsed.facts.traceId.length = 32)
    (id : parsed.facts.spanId.length = 16)
    (effect : classifySpanSignal1 parsed.facts.attributes = .effect) :
    Eligible interpreter span.2 parsed.facts.traceId parsed.facts.spanId := by
  unfold parseSpan at read
  split at read
  · next members shape =>
      unfold spanFacts at read
      split at read
      · next traceId spanId start first second begins =>
          cases read
          exact ⟨members, shape, namesId_of_idOf first trace, namesId_of_idOf second id,
            by rw [begins]; rfl, effect⟩
      · cases read
  · cases read

end Otel
end CapsuleEmit
