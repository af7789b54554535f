import CapsuleEmit.Produce.Canonical
import CapsuleEmit.Produce.Validation

namespace CapsuleEmit
namespace Produce

/-!
# Building a Capsule in Python and in Rust

Both packages validate the input, assemble the members, add the extensions,
compute the Capsule ID, run the Class 1 check and give the canonical bytes.
Python writes a whole-number float in the coordinates of a reference as an
integer and sends the coordinates through the canonicalizer on the way in;
Rust takes them as they are.  Rust refuses a Capsule that nests more than 128
levels.
-/

/-! ## Python -/

namespace Python

open ArtifactStore.Python (Interpreter)

/-- What the package takes from the interpreter: `json.loads` and the integer a
float stands for, when it is a whole number, and `json.dumps` of a text. -/
structure Runtime where
  interpreter : Interpreter
  wholeNumber : JsonNumber → Option JsonNumber
  dumps : String → String

variable (runtime : Runtime)

def rules : Rules where
  blank := pythonBlank
  unset := Option.isNone
  quote := runtime.dumps

/-- A number, as an integer when it is a whole-number float. -/
def integralFloat (number : JsonNumber) : JsonNumber :=
  if isFloat number then (runtime.wholeNumber number).getD number else number

/-- Copy a value with each whole-number float as an integer. -/
def integralFloats (value : Json) : Json := value.mapNumbers (integralFloat runtime)

theorem integralFloats_eq_self {value : Json}
    (noFloat : value.everyNumber (fun number => !isFloat number) = true) :
    integralFloats runtime value = value := by
  refine Json.mapNumbers_eq_self (fun number whole => ?_) value noFloat
  rw [Bool.not_eq_true'] at whole
  rw [integralFloat, whole]
  rfl

/-- The timestamp in its UTC wire form. -/
def formatTimestamp : Option Instant → Except String String
  | none => .error "timestamp is required"
  | some instant => do
      ensure (1 ≤ instant.year && instant.year ≤ 9999) "timestamp is invalid"
      -- the digits below a microsecond keep an instant from being the zero time
      ensure (!(instant.atZero && instant.microsecond = 0 && instant.nanosecond = 0))
        "timestamp is required"
      return wireTimestamp (padded 4 instant.year.toNat) instant

variable (box : Canonicalizer)

/-- Detach and validate a caller's coordinates through canonical JSON. -/
def copyJson (coordinates : Coordinates) : Except String Json := do
  checkJsonValue "$" 1 coordinates.tree
  let encoded ← box.jcs (integralFloats runtime coordinates.tree)
  return box.loads encoded

def reference (reference : Reference) : Except String Json :=
  match reference.logCoordinates with
  | none => .ok (referenceMap reference none)
  | some coordinates => do
      let copy ← (copyJson runtime box coordinates).mapError
        (fun e => "reference log coordinates: " ++ e)
      return referenceMap reference (some copy)

def references : Option (List Reference) → Except String (Option (List Json))
  | none => .ok none
  | some references => (references.mapM (reference runtime box)).map some

/-- Validate an input and return a signature-free Capsule. -/
def build (input : Input) : Except String BuiltPayload := do
  validateInput (rules runtime) input
  let timestamp ← formatTimestamp input.timestamp
  let references ← references runtime box input.references
  let payload ← addExtensions (decodeStrictJson runtime.interpreter) runtime.dumps
    (assemble input timestamp references) input.extensions
  checkJsonValue "$" 1 (.object payload)
  let capsuleId ← box.computeCapsuleId payload
  let payload := payload ++ [text "capsule_id" capsuleId]
  box.class1 payload
  let encoded ← box.jcs (.object payload)
  return ⟨capsuleId, box.loads encoded, encoded⟩

end Python

/-! ## Rust -/

namespace Rust

/-- What the package takes from its libraries: the decoder of the
agent-action-capsule crate and the debug form of a text. -/
structure Runtime where
  decode : Bytes → Except String Json
  debug : String → String

variable (runtime : Runtime)

/-- No timestamp, or the zero time; compared before it is truncated. -/
def unset : Option Instant → Bool
  | none => true
  | some instant => instant.atZero && instant.nanosecond = 0

def rules : Rules where
  blank := rustBlank
  unset := unset
  quote := runtime.debug

/-- The year as chrono writes it: a sign outside four digits. -/
def formatYear (year : Int) : String :=
  if year < 0 then "-" ++ padded 4 (-year).toNat
  else if 9999 < year then "+" ++ padded 4 year.toNat
  else padded 4 year.toNat

def formatTimestamp (instant : Instant) : String :=
  wireTimestamp (formatYear instant.year) instant

def reference (reference : Reference) : Json :=
  referenceMap reference (reference.logCoordinates.map Coordinates.tree)

/-- The deepest nesting of a Capsule, the Capsule object included. -/
def maxCapsuleLevels : Nat := 128

/-- How many levels of objects and arrays a Capsule nests. -/
def nestingLevels (payload : Payload) : Nat := (Json.object payload).nesting

variable (box : Canonicalizer)

/-- Validate an input and return a signature-free Capsule. -/
def build (input : Input) : Except String BuiltPayload := do
  validateInput (rules runtime) input
  let instant ← input.timestamp.elim (.error "timestamp is required") .ok
  let payload ← addExtensions (decodeStrictJson runtime.decode) runtime.debug
    (assemble input (formatTimestamp instant) (input.references.map (List.map reference)))
    input.extensions
  ensure (nestingLevels payload ≤ maxCapsuleLevels)
    ("built Capsule nests " ++ toString (nestingLevels payload) ++
      " levels deep; a Capsule may nest at most " ++ toString maxCapsuleLevels)
  let capsuleId ← (box.computeCapsuleId payload).mapError (fun e => "compute capsule id: " ++ e)
  let payload := payload ++ [text "capsule_id" capsuleId]
  box.class1 payload
  let encoded ← (box.jcs (.object payload)).mapError
    (fun e => "encode canonical capsule payload: " ++ e)
  return ⟨capsuleId, .object payload, encoded⟩

end Rust

end Produce
end CapsuleEmit
