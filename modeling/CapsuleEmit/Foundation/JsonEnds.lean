import CapsuleEmit.Foundation.Surrogates

namespace CapsuleEmit
namespace JsonText

open Utf8

/-!
# The last byte of a document

What the reader takes of a text is a front of it, and the last byte of that
front is a visible ASCII character: a bracket, a quotation mark, a digit or
a letter.  So only the whitespace after a document can be cut off its end.
-/

/-- What has been read ends with a visible ASCII character. -/
def EndsAt (bytes rest : Bytes) : Prop :=
  ∃ text b, bytes = text ++ b :: rest ∧ 32 < b ∧ b < 0x80

theorem EndsAt.front {bytes rest : Bytes} (ends : EndsAt bytes rest) (front : Bytes) :
    EndsAt (front ++ bytes) rest := by
  rcases ends with ⟨text, b, same, visible, ascii⟩
  exact ⟨front ++ text, b, by rw [same, List.append_assoc], visible, ascii⟩

theorem EndsAt.cons {bytes rest : Bytes} (ends : EndsAt bytes rest) (b : UInt8) :
    EndsAt (b :: bytes) rest := ends.front [b]

theorem endsAt_cons {b : UInt8} (visible : 32 < b) (ascii : b < 0x80) (rest : Bytes) :
    EndsAt (b :: rest) rest := ⟨[], b, rfl, visible, ascii⟩

theorem EndsAt.skipped {bytes rest : Bytes} (ends : EndsAt (skipSpace bytes) rest) :
    EndsAt bytes rest := by
  have whole := ends.front (bytes.takeWhile isSpace)
  rwa [skipSpace, List.takeWhile_append_dropWhile] at whole

/-! ## What is read is a front of the text -/

theorem read_front {fuel : Nat} {bytes rest : Bytes} {value : Json}
    (found : read fuel bytes = some (value, rest)) : ∃ text, bytes = text ++ rest := by
  have strict : readWith (readStringWith readEscape) fuel bytes = read fuel bytes := by
    rw [← (readWith_readString fuel).1]
    congr 1
    funext fuel bytes
    exact readStringWith_readEscape fuel bytes
  rw [← strict] at found
  rcases (readWith_agrees (agrees_of_escapes escapes_strict) fuel).1 bytes value rest found
    with ⟨text, same, -⟩
  exact ⟨text, same⟩

theorem readString_endsAt {fuel : Nat} {bytes content rest : Bytes}
    (found : readString fuel bytes = some (content, rest)) : EndsAt bytes rest := by
  induction fuel generalizing bytes content with
  | zero => cases found
  | succ fuel ih =>
      cases bytes with
      | nil => cases found
      | cons b tail =>
          rw [readString] at found
          split_ifs at found with quote solidus control
          · cases found
            subst quote
            exact endsAt_cons (by decide) (by decide) _
          · cases escape : readEscape tail with
            | none => simp [escape] at found
            | some pair =>
                rcases pair with ⟨part, after⟩
                rw [escape] at found
                rcases Option.map_eq_some_iff.mp found with ⟨⟨inner, last⟩, read, same⟩
                cases same
                rcases escapes_strict tail part after escape with ⟨text, same, -⟩
                rw [same]
                exact ((ih read).front text).cons b
          · rcases Option.map_eq_some_iff.mp found with ⟨⟨inner, last⟩, read, same⟩
            cases same
            exact (ih read).cons b

theorem expect_endsAt (text : Bytes) {b : UInt8} {front bytes rest : Bytes}
    (found : expect front bytes = some rest) (shape : front = text ++ [b]) (visible : 32 < b)
    (ascii : b < 0x80) : EndsAt bytes rest :=
  ⟨text, b, by rw [expect_split found, shape, List.append_assoc, List.singleton_append],
    visible, ascii⟩

theorem visible_of_isNumberByte {b : UInt8} (number : isNumberByte b = true) :
    32 < b ∧ b < 0x80 := by
  simp only [isNumberByte, Bool.or_eq_true, Bool.and_eq_true, decide_eq_true_eq,
    UInt8.le_iff_toNat_le, ← UInt8.toNat_inj] at number
  simp only [UInt8.lt_iff_toNat_lt]
  simp only [UInt8.reduceToNat] at number ⊢
  omega

theorem readNumber_endsAt {bytes rest : Bytes} {value : JsonNumber}
    (found : readNumber bytes = some (value, rest)) : EndsAt bytes rest := by
  unfold readNumber at found
  split at found
  · next wellFormed =>
      cases found
      rcases List.eq_nil_or_concat (bytes.takeWhile isNumberByte) with empty | ⟨text, b, shape⟩
      · rw [empty] at wellFormed
        cases wellFormed
      · have number : isNumberByte b = true := by
          apply List.all_eq_true.mp (List.all_takeWhile (p := isNumberByte) (l := bytes))
          rw [shape]
          simp
        refine ⟨text, b, ?_, visible_of_isNumberByte number⟩
        have whole := List.takeWhile_append_dropWhile (p := isNumberByte) (l := bytes)
        rw [shape] at whole
        simpa using whole.symm
  · cases found

/-! ## Documents -/

theorem readItems_endsAt {fuel : Nat} {bytes rest : Bytes} {items : List Json}
    (found : readItems fuel bytes = some (items, rest)) : EndsAt bytes rest := by
  induction fuel generalizing bytes items with
  | zero => cases found
  | succ fuel ih =>
      rw [readItems] at found
      split at found
      · cases found
      · next item after first =>
          rcases read_front first with ⟨text, same⟩
          rw [same]
          apply EndsAt.front
          apply EndsAt.skipped
          split at found
          · next close =>
              cases found
              rw [close]
              exact endsAt_cons (by decide) (by decide) _
          · next comma =>
              rcases Option.map_eq_some_iff.mp found with ⟨⟨others, last⟩, inner, pair⟩
              cases pair
              rw [comma]
              exact (ih inner).cons 44
          · cases found

theorem readMembers_endsAt {fuel : Nat} {bytes rest : Bytes} {members : List (Bytes × Json)}
    (found : readMembers fuel bytes = some (members, rest)) : EndsAt bytes rest := by
  induction fuel generalizing bytes members with
  | zero => cases found
  | succ fuel ih =>
      rw [readMembers] at found
      apply EndsAt.skipped
      split at found
      · next tail quote =>
          rw [quote]
          apply EndsAt.cons
          split at found
          · cases found
          · next name afterName label =>
              rcases readString_endsAt label with ⟨text, b, same, -⟩
              rw [same]
              apply EndsAt.front
              apply EndsAt.cons
              apply EndsAt.skipped
              split at found
              · next afterColon colon =>
                  rw [colon]
                  apply EndsAt.cons
                  split at found
                  · cases found
                  · next value afterValue held =>
                      rcases read_front held with ⟨text, same⟩
                      rw [same]
                      apply EndsAt.front
                      apply EndsAt.skipped
                      split at found
                      · next close =>
                          cases found
                          rw [close]
                          exact endsAt_cons (by decide) (by decide) _
                      · next comma =>
                          rcases Option.map_eq_some_iff.mp found with ⟨⟨others, last⟩, inner, pair⟩
                          cases pair
                          rw [comma]
                          exact (ih inner).cons 44
                      · cases found
              · cases found
      · cases found

theorem read_endsAt {fuel : Nat} {bytes rest : Bytes} {value : Json}
    (found : read fuel bytes = some (value, rest)) : EndsAt bytes rest := by
  cases fuel with
  | zero => cases found
  | succ fuel =>
      rw [read] at found
      apply EndsAt.skipped
      split at found
      · cases found
      · next b tail shape =>
          rw [shape]
          split_ifs at found with brace bracket quote n t f
          · apply EndsAt.cons
            apply EndsAt.skipped
            split at found
            · next close =>
                cases found
                rw [close]
                exact endsAt_cons (by decide) (by decide) _
            · rcases Option.map_eq_some_iff.mp found with ⟨⟨members, last⟩, inner, pair⟩
              cases pair
              exact readMembers_endsAt inner
          · apply EndsAt.cons
            apply EndsAt.skipped
            split at found
            · next close =>
                cases found
                rw [close]
                exact endsAt_cons (by decide) (by decide) _
            · rcases Option.map_eq_some_iff.mp found with ⟨⟨items, last⟩, inner, pair⟩
              cases pair
              exact readItems_endsAt inner
          · rcases Option.map_eq_some_iff.mp found with ⟨⟨content, last⟩, inner, pair⟩
            cases pair
            exact (readString_endsAt inner).cons b
          · rcases Option.map_eq_some_iff.mp found with ⟨last, inner, pair⟩
            cases pair
            exact (expect_endsAt [117, 108] inner rfl (by decide) (by decide)).cons b
          · rcases Option.map_eq_some_iff.mp found with ⟨last, inner, pair⟩
            cases pair
            exact (expect_endsAt [114, 117] inner rfl (by decide) (by decide)).cons b
          · rcases Option.map_eq_some_iff.mp found with ⟨last, inner, pair⟩
            cases pair
            exact (expect_endsAt [97, 108, 115] inner rfl (by decide) (by decide)).cons b
          · rcases Option.map_eq_some_iff.mp found with ⟨⟨number, last⟩, inner, pair⟩
            cases pair
            exact readNumber_endsAt inner

/-- A document ends with a visible ASCII character and whitespace. -/
theorem readDocument_ends {bytes : Bytes} {document : Json}
    (found : readDocument bytes = some document) :
    ∃ space, space.all isSpace = true ∧ EndsAt bytes space := by
  unfold readDocument at found
  split at found
  · next value rest held =>
      split_ifs at found with blank
      exact ⟨rest, blank, read_endsAt held⟩
  · cases found

end JsonText
end CapsuleEmit
