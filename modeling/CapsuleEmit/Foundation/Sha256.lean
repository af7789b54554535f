import CapsuleEmit.Foundation.Json
import Mathlib.Tactic.Common

namespace CapsuleEmit
namespace Sha256

/-!
# SHA-256

The hash function of FIPS 180-4 over byte lists, and the lower-case
hexadecimal text of a digest.  The constants are the first thirty-two bits of
the fractional parts of square and cube roots of the first primes.
-/

abbrev Word := UInt32

def rotate (x : Word) (n : Word) : Word := (x >>> n) ||| (x <<< (32 - n))

def roundConstants : List Word :=
  [0x428a2f98, 0x71374491, 0xb5c0fbcf, 0xe9b5dba5, 0x3956c25b, 0x59f111f1, 0x923f82a4, 0xab1c5ed5,
   0xd807aa98, 0x12835b01, 0x243185be, 0x550c7dc3, 0x72be5d74, 0x80deb1fe, 0x9bdc06a7, 0xc19bf174,
   0xe49b69c1, 0xefbe4786, 0x0fc19dc6, 0x240ca1cc, 0x2de92c6f, 0x4a7484aa, 0x5cb0a9dc, 0x76f988da,
   0x983e5152, 0xa831c66d, 0xb00327c8, 0xbf597fc7, 0xc6e00bf3, 0xd5a79147, 0x06ca6351, 0x14292967,
   0x27b70a85, 0x2e1b2138, 0x4d2c6dfc, 0x53380d13, 0x650a7354, 0x766a0abb, 0x81c2c92e, 0x92722c85,
   0xa2bfe8a1, 0xa81a664b, 0xc24b8b70, 0xc76c51a3, 0xd192e819, 0xd6990624, 0xf40e3585, 0x106aa070,
   0x19a4c116, 0x1e376c08, 0x2748774c, 0x34b0bcb5, 0x391c0cb3, 0x4ed8aa4a, 0x5b9cca4f, 0x682e6ff3,
   0x748f82ee, 0x78a5636f, 0x84c87814, 0x8cc70208, 0x90befffa, 0xa4506ceb, 0xbef9a3f7, 0xc67178f2]

/-- The eight words of the chaining value. -/
structure State where
  a : Word
  b : Word
  c : Word
  d : Word
  e : Word
  f : Word
  g : Word
  h : Word

def initial : State :=
  ⟨0x6a09e667, 0xbb67ae85, 0x3c6ef372, 0xa54ff53a, 0x510e527f, 0x9b05688c, 0x1f83d9ab, 0x5be0cd19⟩

/-- The message followed by a one bit, zeros, and its length in bits. -/
def pad (message : Bytes) : Bytes :=
  let bits := message.length * 8
  message ++ 0x80 :: List.replicate ((119 - message.length % 64) % 64) 0 ++
    (List.range 8).map (fun i => UInt8.ofNat (bits / 256 ^ (7 - i)))

def word (a b c d : UInt8) : Word :=
  UInt32.ofNat (((a.toNat * 256 + b.toNat) * 256 + c.toNat) * 256 + d.toNat)

def words : Bytes → List Word
  | a :: b :: c :: d :: rest => word a b c d :: words rest
  | _ => []

/-- One word of the message schedule from the last sixteen, newest first. -/
def scheduled (last : List Word) : Word :=
  let w2 := last.getD 1 0
  let w15 := last.getD 14 0
  let low := rotate w15 7 ^^^ rotate w15 18 ^^^ (w15 >>> 3)
  let high := rotate w2 17 ^^^ rotate w2 19 ^^^ (w2 >>> 10)
  last.getD 15 0 + low + last.getD 6 0 + high

/-- The message schedule, newest first. -/
def schedule (block : List Word) : Nat → List Word
  | 0 => block.reverse
  | n + 1 => let last := schedule block n; scheduled last :: last

def round (s : State) (constant scheduledWord : Word) : State :=
  let choose := (s.e &&& s.f) ^^^ ((~~~ s.e) &&& s.g)
  let majority := (s.a &&& s.b) ^^^ (s.a &&& s.c) ^^^ (s.b &&& s.c)
  let upper := rotate s.e 6 ^^^ rotate s.e 11 ^^^ rotate s.e 25
  let lower := rotate s.a 2 ^^^ rotate s.a 13 ^^^ rotate s.a 22
  let first := s.h + upper + choose + constant + scheduledWord
  ⟨first + (lower + majority), s.a, s.b, s.c, s.d + first, s.e, s.f, s.g⟩

def rounds : State → List Word → List Word → State
  | s, k :: ks, w :: ws => rounds (round s k w) ks ws
  | s, _, _ => s

def compress (s : State) (block : Bytes) : State :=
  let after := rounds s roundConstants (schedule (words block) 48).reverse
  ⟨s.a + after.a, s.b + after.b, s.c + after.c, s.d + after.d,
    s.e + after.e, s.f + after.f, s.g + after.g, s.h + after.h⟩

/-- The chaining value after a number of 64-byte blocks. -/
def absorb (s : State) : Nat → Bytes → State
  | 0, _ => s
  | n + 1, bytes => absorb (compress s (bytes.take 64)) n (bytes.drop 64)

def wordBytes (w : Word) : Bytes :=
  [UInt8.ofNat (w.toNat / 16777216), UInt8.ofNat (w.toNat / 65536), UInt8.ofNat (w.toNat / 256),
    UInt8.ofNat w.toNat]

def State.bytes (s : State) : Bytes :=
  wordBytes s.a ++ wordBytes s.b ++ wordBytes s.c ++ wordBytes s.d ++
    wordBytes s.e ++ wordBytes s.f ++ wordBytes s.g ++ wordBytes s.h

/-- The digest of a message. -/
def digest (message : Bytes) : Bytes :=
  let padded := pad message
  (absorb initial (padded.length / 64) padded).bytes

/-- A digest is thirty-two bytes long. -/
theorem length_digest (message : Bytes) : (digest message).length = 32 := by
  simp [digest, State.bytes, wordBytes]

/-! ## Hexadecimal text -/

/-- The lower-case hexadecimal digit of a value below sixteen. -/
def hexDigit (n : Nat) : Char := "0123456789abcdef".toList.getD n '0'

/-- The lower-case hexadecimal text of a byte sequence. -/
def hex (bytes : Bytes) : String :=
  String.ofList (bytes.flatMap (fun b => [hexDigit (b.toNat / 16), hexDigit (b.toNat % 16)]))

/-- A byte that is a lower-case hexadecimal digit. -/
def isHexByte (b : UInt8) : Bool := (48 ≤ b && b ≤ 57) || (97 ≤ b && b ≤ 102)

theorem utf8_hexDigit : ∀ n < 16, (String.utf8EncodeChar (hexDigit n)).length = 1 ∧
    (String.utf8EncodeChar (hexDigit n)).all isHexByte = true := by
  decide

theorem utf8_hex (bytes : Bytes) :
    utf8 (hex bytes) = bytes.flatMap (fun b =>
      String.utf8EncodeChar (hexDigit (b.toNat / 16)) ++
        String.utf8EncodeChar (hexDigit (b.toNat % 16))) := by
  simp [utf8, hex, List.utf8Encode, List.flatMap_assoc]

/-- The text of a byte sequence has two characters for each byte. -/
theorem length_utf8_hex (bytes : Bytes) : (utf8 (hex bytes)).length = 2 * bytes.length := by
  rw [utf8_hex]
  induction bytes with
  | nil => rfl
  | cons b bytes ih =>
      have bound := b.toNat_lt
      rw [List.flatMap_cons, List.length_append, ih, List.length_append,
        (utf8_hexDigit _ (by omega)).1, (utf8_hexDigit _ (by omega)).1, List.length_cons]
      omega

theorem utf8_hex_all (bytes : Bytes) : (utf8 (hex bytes)).all isHexByte = true := by
  rw [utf8_hex]
  induction bytes with
  | nil => rfl
  | cons b bytes ih =>
      have bound := b.toNat_lt
      rw [List.flatMap_cons, List.all_append, ih, List.all_append,
        (utf8_hexDigit _ (by omega)).2, (utf8_hexDigit _ (by omega)).2]
      rfl

example : hex (digest []) = "e3b0c44298fc1c149afbf4c8996fb92427ae41e4649b934ca495991b7852b855" := by
  decide +kernel

end Sha256
end CapsuleEmit
