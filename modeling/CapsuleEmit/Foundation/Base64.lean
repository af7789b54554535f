import CapsuleEmit.Foundation.Json
import Mathlib.Tactic.Common

namespace CapsuleEmit
namespace Base64

/-!
# Base64 with padding

The standard alphabet, padded to a multiple of four characters.  The decoder
is strict: it takes no whitespace, wants the padding, and wants the unused
bits of the last group to be zero, so every byte sequence has one text.
-/

/-- The character of a six-bit value. -/
def digit (n : Nat) : Char :=
  if n < 26 then Char.ofNat (n + 65)
  else if n < 52 then Char.ofNat (n + 71)
  else if n < 62 then Char.ofNat (n - 4)
  else if n = 62 then '+' else '/'

/-- The six-bit value of a character. -/
def value (c : Char) : Option Nat :=
  let n := c.toNat
  if 65 ≤ n ∧ n ≤ 90 then some (n - 65)
  else if 97 ≤ n ∧ n ≤ 122 then some (n - 71)
  else if 48 ≤ n ∧ n ≤ 57 then some (n + 4)
  else if n = 43 then some 62
  else if n = 47 then some 63
  else none

theorem value_digit : ∀ n < 64, value (digit n) = some n := by decide

theorem digit_ne_pad : ∀ n < 64, digit n ≠ '=' := by decide

/-- The characters of a byte sequence, three bytes to a group. -/
def encodeChars : Bytes → List Char
  | [] => []
  | [a] => [digit (a.toNat / 4), digit (a.toNat % 4 * 16), '=', '=']
  | [a, b] =>
      [digit (a.toNat / 4), digit (a.toNat % 4 * 16 + b.toNat / 16), digit (b.toNat % 16 * 4), '=']
  | a :: b :: c :: rest =>
      digit (a.toNat / 4) :: digit (a.toNat % 4 * 16 + b.toNat / 16) ::
        digit (b.toNat % 16 * 4 + c.toNat / 64) :: digit (c.toNat % 64) :: encodeChars rest

/-- The bytes of a character sequence. -/
def decodeChars : List Char → Option Bytes
  | [] => some []
  | [a, b, '=', '='] => do
      let a ← value a
      let b ← value b
      if b % 16 = 0 then some [UInt8.ofNat (a * 4 + b / 16)] else none
  | [a, b, c, '='] => do
      let a ← value a
      let b ← value b
      let c ← value c
      if c % 4 = 0 then
        some [UInt8.ofNat (a * 4 + b / 16), UInt8.ofNat (b % 16 * 16 + c / 4)]
      else none
  | a :: b :: c :: d :: rest => do
      let a ← value a
      let b ← value b
      let c ← value c
      let d ← value d
      let rest ← decodeChars rest
      return UInt8.ofNat (a * 4 + b / 16) :: UInt8.ofNat (b % 16 * 16 + c / 4) ::
        UInt8.ofNat (c % 4 * 64 + d) :: rest
  | _ => none

def encode (bytes : Bytes) : String := String.ofList (encodeChars bytes)

def decode (text : String) : Option Bytes := decodeChars text.toList

theorem ofNat_eq {b : UInt8} {n : Nat} (same : n = b.toNat) : UInt8.ofNat n = b := by
  rw [same, UInt8.ofNat_toNat]

theorem decodeChars_encodeChars (bytes : Bytes) :
    decodeChars (encodeChars bytes) = some bytes := by
  induction bytes using encodeChars.induct with
  | case1 => rfl
  | case2 a =>
      have boundA := a.toNat_lt
      simp only [encodeChars, decodeChars, value_digit (a.toNat / 4) (by omega),
        value_digit (a.toNat % 4 * 16) (by omega), bind, Option.bind]
      rw [if_pos (by omega), ofNat_eq (b := a) (by omega)]
  | case3 a b =>
      have boundA := a.toNat_lt
      have boundB := b.toNat_lt
      have inner : digit (b.toNat % 16 * 4) ≠ '=' := digit_ne_pad _ (by omega)
      rw [encodeChars]
      simp only [decodeChars, value_digit (a.toNat / 4) (by omega),
        value_digit (a.toNat % 4 * 16 + b.toNat / 16) (by omega),
        value_digit (b.toNat % 16 * 4) (by omega), bind, Option.bind]
      rw [if_pos (by omega), ofNat_eq (b := a) (by omega), ofNat_eq (b := b) (by omega)]
  | case4 a b c rest ih =>
      have boundA := a.toNat_lt
      have boundB := b.toNat_lt
      have boundC := c.toNat_lt
      have inner : digit (b.toNat % 16 * 4 + c.toNat / 64) ≠ '=' := digit_ne_pad _ (by omega)
      have last : digit (c.toNat % 64) ≠ '=' := digit_ne_pad _ (by omega)
      rw [encodeChars, decodeChars]
      · simp only [ih, value_digit (a.toNat / 4) (by omega),
          value_digit (a.toNat % 4 * 16 + b.toNat / 16) (by omega),
          value_digit (b.toNat % 16 * 4 + c.toNat / 64) (by omega),
          value_digit (c.toNat % 64) (by omega), bind, Option.bind, pure]
        rw [ofNat_eq (b := a) (by omega), ofNat_eq (b := b) (by omega),
          ofNat_eq (b := c) (by omega)]
      · intro pad
        exact absurd pad inner
      · intro pad
        exact absurd pad last

/-- Decoding undoes encoding. -/
theorem decode_encode (bytes : Bytes) : decode (encode bytes) = some bytes := by
  rw [decode, encode, String.toList_ofList, decodeChars_encodeChars]

example : encode [102, 111] = "Zm8=" := rfl

/-! ## One text for every byte sequence -/

theorem digit_value {c : Char} {n : Nat} (found : value c = some n) : n < 64 ∧ digit n = c := by
  have back : ∀ m, m = c.toNat → Char.ofNat m = c := by
    rintro m rfl
    exact Char.ofNat_toNat c
  unfold value at found
  simp only at found
  unfold digit
  split at found
  · next upper =>
      cases found
      exact ⟨by omega, by rw [if_pos (by omega)]; exact back _ (by omega)⟩
  · split at found
    · next lower =>
        cases found
        refine ⟨by omega, ?_⟩
        rw [if_neg (by omega), if_pos (by omega)]
        exact back _ (by omega)
    · split at found
      · next number =>
          cases found
          refine ⟨by omega, ?_⟩
          rw [if_neg (by omega), if_neg (by omega), if_pos (by omega)]
          exact back _ (by omega)
      · split at found
        · next plus =>
            cases found
            exact ⟨by decide, (back 43 plus.symm)⟩
        · split at found
          · next slash =>
              cases found
              exact ⟨by decide, (back 47 slash.symm)⟩
          · cases found

theorem encodeChars_decodeChars {text : List Char} {bytes : Bytes}
    (found : decodeChars text = some bytes) : encodeChars bytes = text := by
  induction text using decodeChars.induct generalizing bytes with
  | case1 =>
      cases found
      rfl
  | case2 a b =>
      simp only [decodeChars, Option.bind_eq_bind, Option.bind_eq_some_iff] at found
      rcases found with ⟨x, first, y, second, last⟩
      split at last
      · next whole =>
          cases last
          rcases digit_value first with ⟨smallX, rfl⟩
          rcases digit_value second with ⟨smallY, rfl⟩
          simp only [encodeChars, UInt8.toNat_ofNat', List.cons.injEq, and_true]
          exact ⟨congrArg digit (by omega), congrArg digit (by omega)⟩
      · cases last
  | case3 a b c notPad =>
      rw [decodeChars] at found
      · simp only [Option.bind_eq_bind, Option.bind_eq_some_iff] at found
        rcases found with ⟨x, first, y, second, z, third, last⟩
        split at last
        · next whole =>
            cases last
            rcases digit_value first with ⟨smallX, rfl⟩
            rcases digit_value second with ⟨smallY, rfl⟩
            rcases digit_value third with ⟨smallZ, rfl⟩
            simp only [encodeChars, UInt8.toNat_ofNat', List.cons.injEq, and_true]
            exact ⟨congrArg digit (by omega), congrArg digit (by omega), congrArg digit (by omega)⟩
        · cases last
      · exact notPad
  | case4 a b c d rest notTwo notOne ih =>
      rw [decodeChars] at found
      · simp only [Option.bind_eq_bind, Option.bind_eq_some_iff, Option.pure_def,
          Option.some.injEq] at found
        rcases found with ⟨x, first, y, second, z, third, w, fourth, tail, decoded, rfl⟩
        rcases digit_value first with ⟨smallX, rfl⟩
        rcases digit_value second with ⟨smallY, rfl⟩
        rcases digit_value third with ⟨smallZ, rfl⟩
        rcases digit_value fourth with ⟨smallW, rfl⟩
        simp only [encodeChars, UInt8.toNat_ofNat', ih decoded, List.cons.injEq, and_true]
        exact ⟨congrArg digit (by omega), congrArg digit (by omega), congrArg digit (by omega),
          congrArg digit (by omega)⟩
      · exact notTwo
      · exact notOne
  | case5 text notEmpty notTwo notOne notFour =>
      rw [decodeChars] at found
      · cases found
      · exact notEmpty
      · exact notTwo
      · exact notOne
      · exact notFour

/-- A text that is decoded is the text of its bytes. -/
theorem encode_decode {text : String} {bytes : Bytes} (found : decode text = some bytes) :
    encode bytes = text := by
  rw [encode, encodeChars_decodeChars found, String.ofList_toList]

end Base64
end CapsuleEmit
