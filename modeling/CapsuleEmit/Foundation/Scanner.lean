import CapsuleEmit.Foundation.LossyUtf8
import CapsuleEmit.Foundation.Outcome
import CapsuleEmit.Foundation.Surrogates

namespace CapsuleEmit
namespace Scanner

open JsonText

/-!
# Reading JSON text with hooks

`json.loads` takes the bytes of a text, finds out how they are encoded, and
scans the text once.  It follows objects and arrays up to the recursion limit
of the interpreter, hands the text of each number and the names of each object
to hooks that may refuse them, and knows three constants that JSON does not
have.  What it hands out is of no interest here, so a number is kept as its
text and a constant as its name.

A text is the UTF-8 bytes of its code points, those of lone surrogates
included.
-/

/-! ## Encodings -/

/-- The encodings a text in JSON may be in. -/
inductive Encoding where
  | utf8
  | utf8Sig
  | utf16
  | utf16be
  | utf16le
  | utf32
  | utf32be
  | utf32le
  deriving DecidableEq

/-- `json.detect_encoding(b)` -/
def detectEncoding (b : Bytes) : Encoding :=
  if [0, 0, 0xFE, 0xFF].isPrefixOf b || [0xFF, 0xFE, 0, 0].isPrefixOf b then .utf32
  else if [0xFE, 0xFF].isPrefixOf b || [0xFF, 0xFE].isPrefixOf b then .utf16
  else if [0xEF, 0xBB, 0xBF].isPrefixOf b then .utf8Sig
  else match b with
    | [b0, b1] => if b0 = 0 then .utf16be else if b1 = 0 then .utf16le else .utf8
    | b0 :: b1 :: b2 :: b3 :: _ =>
        if b0 = 0 then (if b1 ≠ 0 then .utf16be else .utf32be)
        else if b1 = 0 then (if b2 ≠ 0 || b3 ≠ 0 then .utf16le else .utf32le)
        else .utf8
    | _ => .utf8

/-- A byte goes on with a character whose front has been read; the bytes of a
surrogate are a character. -/
def continues (front : Bytes) (b : UInt8) : Bool :=
  Utf8.continues front b || (front = [0xED] && 0xA0 ≤ b && b ≤ 0xBF)

/-- The bytes are characters and surrogates, the first of them after a front. -/
def passes : Bytes → Bytes → Bool
  | [], [] => true
  | _ :: _, [] => false
  | [], b :: rest =>
      if Utf8.width b = 1 then passes [] rest
      else Utf8.width b ≠ 0 && passes [b] rest
  | first :: front, b :: rest =>
      continues (first :: front) b &&
        (if front.length + 2 = Utf8.width first then passes [] rest
        else passes (first :: front ++ [b]) rest)

/-- The code units of two bytes each. -/
def units16 (big : Bool) : Bytes → Option (List Nat)
  | [] => some []
  | [_] => none
  | a :: b :: rest =>
      (units16 big rest).map (fun units =>
        (if big then a.toNat * 256 + b.toNat else b.toNat * 256 + a.toNat) :: units)

/-- The code points of code units; a surrogate that is not one of a pair stands
for itself. -/
def codePoints16 : List Nat → List Nat
  | [] => []
  | [unit] => [unit]
  | high :: low :: rest =>
      if 0xD800 ≤ high ∧ high < 0xDC00 ∧ 0xDC00 ≤ low ∧ low < 0xE000 then
        (0x10000 + (high - 0xD800) * 1024 + (low - 0xDC00)) :: codePoints16 rest
      else high :: codePoints16 (low :: rest)

/-- The code points of four bytes each. -/
def codePoints32 (big : Bool) : Bytes → Option (List Nat)
  | [] => some []
  | a :: b :: c :: d :: rest =>
      let point := if big then ((a.toNat * 256 + b.toNat) * 256 + c.toNat) * 256 + d.toNat
        else ((d.toNat * 256 + c.toNat) * 256 + b.toNat) * 256 + a.toNat
      if point < 0x110000 then (codePoints32 big rest).map (point :: ·) else none
  | _ => none

/-- `b.decode(encoding, "surrogatepass")` -/
def decode (encoding : Encoding) (b : Bytes) : Option Bytes :=
  match encoding with
  | .utf8 => if passes [] b then some b else none
  | .utf8Sig => if passes [] (b.drop 3) then some (b.drop 3) else none
  | .utf16 => ((units16 (b.head? = some 0xFE) (b.drop 2)).map codePoints16).map
      (List.flatMap codePoint)
  | .utf16be => ((units16 true b).map codePoints16).map (List.flatMap codePoint)
  | .utf16le => ((units16 false b).map codePoints16).map (List.flatMap codePoint)
  | .utf32 => (codePoints32 (b.head? = some 0) (b.drop 4)).map (List.flatMap codePoint)
  | .utf32be => (codePoints32 true b).map (List.flatMap codePoint)
  | .utf32le => (codePoints32 false b).map (List.flatMap codePoint)

/-- The text `json.loads` scans for bytes. -/
def textOf (b : Bytes) : Option Bytes := decode (detectEncoding b) b

/-! ## The scanner -/

/-- What has been scanned. -/
inductive Tree where
  | null
  | bool (value : Bool)
  | number (value : JsonNumber)
  | constant (name : Bytes)
  | string (bytes : Bytes)
  | array (items : List Tree)
  | object (members : List (Bytes × Tree))

/-- Why a scan stopped: the text is no JSON, a hook refused a token, or the
interpreter gave up. -/
inductive Stop where
  | malformed
  | violation
  | recursion
  deriving DecidableEq

/-- What a scan was told: the levels it may follow, and the hooks. -/
structure Hooks where
  levels : Option Nat
  number : JsonNumber → Bool
  names : List Bytes → Bool

/-- A reader of text at a number of levels left. -/
abbrev Reader (α : Type) := Option Nat → Bytes → Except Stop (α × Bytes)

/-- Enter an object or an array. -/
def enter : Option Nat → Except Stop (Option Nat)
  | none => .ok none
  | some 0 => .error .recursion
  | some (levels + 1) => .ok (some levels)

def orMalformed {α : Type} : Option α → Except Stop α
  | none => .error .malformed
  | some a => .ok a

def scanString (fuel : Nat) (bytes : Bytes) : Except Stop (Bytes × Bytes) :=
  orMalformed (readStringWith readEscapeLenient fuel bytes)

def scanLiteral (front : Bytes) (value : Tree) (rest : Bytes) : Except Stop (Tree × Bytes) :=
  (orMalformed (expect front rest)).map (fun rest => (value, rest))

def nanName : Bytes := [78, 97, 78]
def infinityName : Bytes := [73, 110, 102, 105, 110, 105, 116, 121]

def scanNumber (hooks : Hooks) (bytes : Bytes) : Except Stop (Tree × Bytes) := do
  let found ← orMalformed (readNumber bytes)
  ensure (hooks.number found.1) .violation
  return (.number found.1, found.2)

/-- A token that is neither an object nor an array. -/
def scanScalar (hooks : Hooks) (fuel : Nat) (b : UInt8) (rest : Bytes) :
    Except Stop (Tree × Bytes) :=
  if b = 34 then (scanString fuel rest).map (fun found => (.string found.1, found.2))
  else if b = 110 then scanLiteral [117, 108, 108] .null rest
  else if b = 116 then scanLiteral [114, 117, 101] (.bool true) rest
  else if b = 102 then scanLiteral [97, 108, 115, 101] (.bool false) rest
  else if b = 78 then scanLiteral [97, 78] (.constant nanName) rest
  else if b = 73 then scanLiteral [110, 102, 105, 110, 105, 116, 121] (.constant infinityName) rest
  else if b = 45 ∧ (expect infinityName rest).isSome then
    scanLiteral infinityName (.constant (45 :: infinityName)) rest
  else scanNumber hooks (b :: rest)

/-- What follows an opening bracket: the closing one, or more. -/
def opened {α : Type} (close : UInt8) (empty : α) (more : Bytes → Except Stop (α × Bytes))
    (bytes : Bytes) : Except Stop (α × Bytes) :=
  match skipSpace bytes with
  | [] => more []
  | b :: rest => if b = close then .ok (empty, rest) else more (b :: rest)

/-- What follows a value: the closing bracket, or a comma and more. -/
def followed {α : Type} (close : UInt8) (last : α) (more : Bytes → Except Stop (α × Bytes))
    (bytes : Bytes) : Except Stop (α × Bytes) :=
  match skipSpace bytes with
  | [] => .error .malformed
  | b :: rest =>
      if b = close then .ok (last, rest)
      else if b = 44 then more rest
      else .error .malformed

/-- A name and its colon. -/
def scanName (fuel : Nat) (bytes : Bytes) : Except Stop (Bytes × Bytes) :=
  match skipSpace bytes with
  | [] => .error .malformed
  | b :: rest =>
      if b = 34 then do
        let name ← scanString fuel rest
        match skipSpace name.2 with
        | [] => .error .malformed
        | b :: rest => if b = 58 then .ok (name.1, rest) else .error .malformed
      else .error .malformed

/-- The readers of a value, of items and of members. -/
structure Readers where
  value : Reader Tree
  items : Reader (List Tree)
  members : Reader (List (Bytes × Tree))

def scanValue (hooks : Hooks) (fuel : Nat) (readers : Readers) : Reader Tree :=
  fun levels bytes =>
    match skipSpace bytes with
    | [] => .error .malformed
    | b :: rest =>
        if b = 123 then do
          let inner ← enter levels
          let found ← opened 125 [] (readers.members inner) rest
          ensure (hooks.names (found.1.map Prod.fst)) .violation
          return (.object found.1, found.2)
        else if b = 91 then do
          let inner ← enter levels
          let found ← opened 93 [] (readers.items inner) rest
          return (.array found.1, found.2)
        else scanScalar hooks fuel b rest

def scanItems (readers : Readers) : Reader (List Tree) :=
  fun levels bytes => do
    let found ← readers.value levels bytes
    followed 93 [found.1] (fun rest => (readers.items levels rest).map
      (fun more => (found.1 :: more.1, more.2))) found.2

def scanMembers (fuel : Nat) (readers : Readers) : Reader (List (Bytes × Tree)) :=
  fun levels bytes => do
    let name ← scanName fuel bytes
    let found ← readers.value levels name.2
    followed 125 [(name.1, found.1)] (fun rest => (readers.members levels rest).map
      (fun more => ((name.1, found.1) :: more.1, more.2))) found.2

/-- The readers with a bound on the calls of one another. -/
def readers (hooks : Hooks) : Nat → Readers
  | 0 => ⟨fun _ _ => .error .malformed, fun _ _ => .error .malformed,
      fun _ _ => .error .malformed⟩
  | fuel + 1 =>
      ⟨scanValue hooks fuel (readers hooks fuel), scanItems (readers hooks fuel),
        scanMembers fuel (readers hooks fuel)⟩

/-- Every reader calls another on what it was given, or on less. -/
def enough (bytes : Bytes) : Nat := 2 * bytes.length + 2

/-- A whole text: one value and nothing but white space after it. -/
def scanText (hooks : Hooks) (text : Bytes) : Except Stop Tree := do
  let found ← (readers hooks (enough text)).value hooks.levels text
  ensure (found.2.all isSpace) .malformed
  return found.1

/-- `json.loads(b, parse_int=…, parse_float=…, object_pairs_hook=…)` -/
def loads (hooks : Hooks) (b : Bytes) : Except Stop Tree := do
  let text ← orMalformed (textOf b)
  scanText hooks text

end Scanner
end CapsuleEmit
