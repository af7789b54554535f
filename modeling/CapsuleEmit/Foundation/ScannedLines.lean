import CapsuleEmit.Foundation.Scanning

namespace CapsuleEmit
namespace Scanner

open JsonText

/-!
# What is scanned in front of white space

A text that was scanned to its end is scanned in the same way when white space
and anything else follow it: the scanner never looks past a token for more of
it.  So a text that starts with a whole document is that document, or no
document at all.  White space in front of a text is passed over.
-/

variable {sp : UInt8} {hooks : Hooks}

/-! ## Bytes that end a token -/

theorem space_cases (space : isSpace sp = true) : sp = 32 ∨ sp = 9 ∨ sp = 10 ∨ sp = 13 := by
  simpa [isSpace, or_assoc] using space

theorem hexValue_space (space : isSpace sp = true) : hexValue sp = none := by
  rcases space_cases space with rfl | rfl | rfl | rfl <;> decide

theorem not_number_of_space (space : isSpace sp = true) : isNumberByte sp = false := by
  rcases space_cases space with rfl | rfl | rfl | rfl <;> decide

theorem codeUnit_none {a b c d : UInt8} (space : isSpace sp = true)
    (inside : sp = a ∨ sp = b ∨ sp = c ∨ sp = d) : codeUnit a b c d = none := by
  have blank := hexValue_space space
  unfold codeUnit
  rcases inside with same | same | same | same <;> rw [← same, blank] <;>
    cases hexValue a <;> try rfl
  all_goals cases hexValue b <;> try rfl
  all_goals cases hexValue c <;> rfl

/-! ## Strings -/

/-- Bytes that are the start of a code unit only with what follows them are no string. -/
theorem notEscape_of_short (space : isSpace sp = true) {tail after more : Bytes}
    {a b c d : UInt8} (shape : tail ++ sp :: more = 92 :: 117 :: a :: b :: c :: d :: after)
    (short : ∀ a b c d after, tail = 92 :: 117 :: a :: b :: c :: d :: after → False)
    (fuel : Nat) : readStringWith readEscapeLenient fuel tail = none := by
  have solid : sp ≠ 92 ∧ sp ≠ 117 := by
    rcases space_cases space with rfl | rfl | rfl | rfl <;> decide
  have none_of : ∀ front : Bytes, front.length < 4 →
      readEscapeLenient (117 :: front) = none := by
    intro front few
    rcases front with _ | ⟨x, _ | ⟨y, _ | ⟨z, _ | ⟨w, front⟩⟩⟩⟩ <;> first | rfl | skip
    simp only [List.length_cons] at few
    omega
  cases fuel with
  | zero => rfl
  | succ fuel =>
      rcases tail with _ | ⟨x, _ | ⟨y, tail⟩⟩
      · rfl
      · simp only [List.cons_append, List.nil_append, List.cons.injEq] at shape
        exact absurd shape.2.1 solid.2
      · simp only [List.cons_append, List.cons.injEq] at shape
        rcases shape with ⟨rfl, rfl, shape⟩
        have few : tail.length < 4 := by
          by_contra enough
          rcases tail with _ | ⟨x, _ | ⟨y, _ | ⟨z, _ | ⟨w, tail⟩⟩⟩⟩
          · exact enough (by simp)
          · exact enough (by simp)
          · exact enough (by simp)
          · exact enough (by simp)
          · exact short x y z w tail rfl
        rw [readStringWith, if_neg (by decide), if_pos rfl, none_of tail few]

/-- An escape in front of the rest of a string; a surrogate may need the escape after it. -/
theorem readEscapeLenient_extend (space : isSpace sp = true) {bytes content rest : Bytes}
    (found : readEscapeLenient bytes = some (content, rest)) {fuel : Nat} {last : Bytes × Bytes}
    (goesOn : readStringWith readEscapeLenient fuel rest = some last) (more : Bytes) :
    readEscapeLenient (bytes ++ sp :: more) = some (content, rest ++ sp :: more) := by
  unfold readEscapeLenient at found
  split at found
  · next a b c d tail =>
      simp only [List.cons_append, readEscapeLenient]
      cases unit : codeUnit a b c d with
      | none => simp [unit] at found
      | some n =>
          simp only [unit] at found ⊢
          split at found
          · next high =>
              rw [if_pos high]
              split at found
              · next a' b' c' d' after =>
                  simp only [List.cons_append]
                  cases low : codeUnit a' b' c' d' with
                  | none => simp [low] at found
                  | some m =>
                      simp only [low] at found ⊢
                      split at found
                      · next inRange =>
                          rw [if_pos inRange]
                          simp only [Option.some.injEq, Prod.mk.injEq] at found ⊢
                          exact ⟨found.1, by rw [found.2]⟩
                      · next outside =>
                          rw [if_neg outside]
                          simp only [Option.some.injEq, Prod.mk.injEq] at found ⊢
                          exact ⟨found.1, by rw [← found.2]; rfl⟩
              · next short =>
                  simp only [Option.some.injEq, Prod.mk.injEq] at found
                  rcases found with ⟨rfl, rfl⟩
                  split
                  · next a' b' c' d' after shape =>
                      exact absurd goesOn (by
                        rw [notEscape_of_short space shape short]
                        exact nofun)
                  · rfl
          · next plain =>
              rw [if_neg plain]
              simp only [Option.some.injEq, Prod.mk.injEq] at found ⊢
              exact ⟨found.1, by rw [found.2]⟩
  · next e tail notUnicode =>
      rcases Option.map_eq_some_iff.mp found with ⟨b, escape, pair⟩
      cases pair
      have plain : e ≠ 117 := by
        rintro rfl
        rw [show simpleEscape 117 = none by decide] at escape
        cases escape
      rw [List.cons_append, readEscapeLenient]
      · rw [escape]
        rfl
      · intro a b c d rest' same _
        exact absurd same plain
  · cases found

theorem readStringWith_extend (space : isSpace sp = true) {fuel : Nat} {bytes : Bytes}
    {found : Bytes × Bytes} (read : readStringWith readEscapeLenient fuel bytes = some found)
    (more : Bytes) : readStringWith readEscapeLenient fuel (bytes ++ sp :: more) =
      some (found.1, found.2 ++ sp :: more) := by
  induction fuel generalizing bytes found with
  | zero => cases read
  | succ fuel ih =>
      cases bytes with
      | nil => cases read
      | cons b tail =>
          simp only [readStringWith, List.cons_append] at read ⊢
          split at read
          · next quote =>
              cases read
              rw [if_pos quote]
          · next notQuote =>
              rw [if_neg notQuote]
              split at read
              · next solidus =>
                  rw [if_pos solidus]
                  cases escape : readEscapeLenient tail with
                  | none => simp [escape] at read
                  | some pair =>
                      rcases pair with ⟨part, after⟩
                      rw [escape] at read
                      rcases Option.map_eq_some_iff.mp read with ⟨last, goesOn, rfl⟩
                      simp only [readEscapeLenient_extend space escape goesOn more, ih goesOn]
                      rfl
              · next notSolidus =>
                  rw [if_neg notSolidus]
                  split at read
                  · cases read
                  · next notControl =>
                      rcases Option.map_eq_some_iff.mp read with ⟨last, goesOn, rfl⟩
                      rw [if_neg notControl, ih goesOn]
                      rfl

/-! ## Tokens -/

/-- The result of a reader with more bytes left. -/
def behind {α : Type} (more : Bytes) (found : α × Bytes) : α × Bytes := (found.1, found.2 ++ more)

theorem scanString_extend (space : isSpace sp = true) {fuel : Nat} {bytes : Bytes}
    {found : Bytes × Bytes} (read : scanString fuel bytes = .ok found) (more : Bytes) :
    scanString fuel (bytes ++ sp :: more) = .ok (behind (sp :: more) found) := by
  rw [scanString, orMalformed_eq_ok_iff] at read ⊢
  exact readStringWith_extend space read more

theorem scanLiteral_extend {front : Bytes} {value : Tree} {rest : Bytes} {found : Tree × Bytes}
    (read : scanLiteral front value rest = .ok found) (more : Bytes) :
    scanLiteral front value (rest ++ more) = .ok (behind more found) := by
  rcases map_eq_ok_iff.mp read with ⟨after, expected, rfl⟩
  rw [orMalformed_eq_ok_iff] at expected
  rw [scanLiteral, expect_extend expected more]
  rfl

theorem readNumber_space (space : isSpace sp = true) (bytes more : Bytes) :
    readNumber (bytes ++ sp :: more) = (readNumber bytes).map (behind (sp :: more)) := by
  have ends := not_number_of_space space
  have taken : (bytes ++ sp :: more).takeWhile isNumberByte = bytes.takeWhile isNumberByte := by
    induction bytes with
    | nil => rw [List.nil_append, List.takeWhile_cons_of_neg (by simp [ends]), List.takeWhile_nil]
    | cons b bytes ih =>
        rw [List.cons_append]
        by_cases number : isNumberByte b = true
        · rw [List.takeWhile_cons_of_pos number, List.takeWhile_cons_of_pos number, ih]
        · rw [List.takeWhile_cons_of_neg number, List.takeWhile_cons_of_neg number]
  have left : (bytes ++ sp :: more).dropWhile isNumberByte =
      bytes.dropWhile isNumberByte ++ sp :: more := by
    induction bytes with
    | nil => rw [List.nil_append, List.dropWhile_cons_of_neg (by simp [ends]), List.dropWhile_nil,
        List.nil_append]
    | cons b bytes ih =>
        rw [List.cons_append]
        by_cases number : isNumberByte b = true
        · rw [List.cons_append, List.takeWhile_cons_of_pos number,
            List.takeWhile_cons_of_pos number, List.cons.injEq] at taken
          rw [List.dropWhile_cons_of_pos number, List.dropWhile_cons_of_pos number, ih taken.2]
        · rw [List.dropWhile_cons_of_neg number, List.dropWhile_cons_of_neg number,
            List.cons_append]
  unfold readNumber
  by_cases wellFormed : isNumberText (bytes.takeWhile isNumberByte) = true
  · rw [dif_pos wellFormed, dif_pos (by rw [taken]; exact wellFormed)]
    simp only [Option.map_some, behind, Option.some_inj, Prod.mk.injEq, JsonNumber.mk.injEq]
    exact ⟨taken, left⟩
  · rw [dif_neg wellFormed, dif_neg (by rw [taken]; exact wellFormed)]
    rfl

theorem scanNumber_extend (space : isSpace sp = true) {bytes : Bytes} {found : Tree × Bytes}
    (read : scanNumber hooks bytes = .ok found) (more : Bytes) :
    scanNumber hooks (bytes ++ sp :: more) = .ok (behind (sp :: more) found) := by
  rcases bind_eq_ok_iff.mp read with ⟨number, scanned, read⟩
  rcases bind_eq_ok_iff.mp read with ⟨done, passed, same⟩
  cases same
  rw [orMalformed_eq_ok_iff] at scanned
  rw [scanNumber, readNumber_space space, scanned]
  simp only [Option.map_some, orMalformed, ok_bind, behind]
  rw [ensure_eq_ok_iff.mp passed]
  rfl

/-- A literal without white space is not completed by what follows white space. -/
theorem expect_space {front bytes more : Bytes} (solid : sp ∉ front)
    (found : (expect front (bytes ++ sp :: more)).isSome = true) :
    (expect front bytes).isSome = true := by
  have begins : ∀ (front bytes : Bytes), sp ∉ front → front <+: bytes ++ sp :: more →
      front <+: bytes := by
    intro front
    induction front with
    | nil => exact fun bytes _ _ => List.nil_prefix
    | cons a front ih =>
        intro bytes solid starts
        rw [List.mem_cons, not_or] at solid
        cases bytes with
        | nil =>
            rw [List.nil_append, List.cons_prefix_cons] at starts
            exact absurd starts.1.symm solid.1
        | cons b bytes =>
            rw [List.cons_append, List.cons_prefix_cons] at starts
            rw [List.cons_prefix_cons]
            exact ⟨starts.1, ih bytes solid.2 starts.2⟩
  unfold expect at found ⊢
  split at found
  · next starts =>
      have whole := begins front bytes solid (List.isPrefixOf_iff_prefix.mp starts)
      rw [if_pos (List.isPrefixOf_iff_prefix.mpr whole)]
      rfl
  · cases found

theorem scanScalar_extend (space : isSpace sp = true) {fuel : Nat} {b : UInt8} {rest : Bytes}
    {found : Tree × Bytes} (read : scanScalar hooks fuel b rest = .ok found) (more : Bytes) :
    scanScalar hooks fuel b (rest ++ sp :: more) = .ok (behind (sp :: more) found) := by
  unfold scanScalar at read ⊢
  split_ifs at read with quote null isTrue isFalse nan infinity negative
  · rw [if_pos quote]
    rcases map_eq_ok_iff.mp read with ⟨text, scanned, rfl⟩
    rw [scanString_extend space scanned]
    rfl
  · rw [if_neg quote, if_pos null]
    exact scanLiteral_extend read _
  · rw [if_neg quote, if_neg null, if_pos isTrue]
    exact scanLiteral_extend read _
  · rw [if_neg quote, if_neg null, if_neg isTrue, if_pos isFalse]
    exact scanLiteral_extend read _
  · rw [if_neg quote, if_neg null, if_neg isTrue, if_neg isFalse, if_pos nan]
    exact scanLiteral_extend read _
  · rw [if_neg quote, if_neg null, if_neg isTrue, if_neg isFalse, if_neg nan, if_pos infinity]
    exact scanLiteral_extend read _
  · rw [if_neg quote, if_neg null, if_neg isTrue, if_neg isFalse, if_neg nan, if_neg infinity]
    rcases Option.isSome_iff_exists.mp negative.2 with ⟨after, expected⟩
    rw [if_pos ⟨negative.1, by rw [expect_extend expected]; rfl⟩]
    exact scanLiteral_extend read _
  · rw [if_neg quote, if_neg null, if_neg isTrue, if_neg isFalse, if_neg nan, if_neg infinity]
    have number := scanNumber_extend space read more
    rw [List.cons_append] at number
    rw [if_neg, number]
    rintro ⟨sign, name⟩
    have solid : sp ∉ infinityName := by
      rcases space_cases space with rfl | rfl | rfl | rfl <;> decide
    exact negative ⟨sign, expect_space solid name⟩

/-! ## Values -/

theorem opened_extend {α : Type} {close : UInt8} {empty : α}
    {more other : Bytes → Except Stop (α × Bytes)} {bytes : Bytes} {found : α × Bytes}
    {suffix : Bytes} (read : opened close empty more bytes = .ok found)
    (nothing : ∀ found, more [] ≠ .ok found)
    (inner : ∀ rest found, more rest = .ok found →
      other (rest ++ suffix) = .ok (behind suffix found)) :
    opened close empty other (bytes ++ suffix) = .ok (behind suffix found) := by
  rw [opened_eq_ok_iff] at read ⊢
  rcases read with ⟨rest, skipped, rfl⟩ | ⟨apart, read⟩
  · exact Or.inl ⟨rest ++ suffix, skipSpace_extend skipped suffix, rfl⟩
  · right
    cases skipped : skipSpace bytes with
    | nil =>
        rw [skipped] at read
        exact absurd read (nothing found)
    | cons b rest =>
        rw [skipSpace_extend skipped suffix]
        refine ⟨fun other same => ?_, ?_⟩
        · rw [List.cons.injEq] at same
          exact apart rest (by rw [skipped, same.1])
        · rw [skipped] at read
          exact inner (b :: rest) found read

theorem followed_extend {α : Type} {close : UInt8} {last : α}
    {more other : Bytes → Except Stop (α × Bytes)} {bytes : Bytes} {found : α × Bytes}
    {suffix : Bytes} (read : followed close last more bytes = .ok found)
    (inner : ∀ rest found, more rest = .ok found →
      other (rest ++ suffix) = .ok (behind suffix found)) :
    followed close last other (bytes ++ suffix) = .ok (behind suffix found) := by
  rw [followed_eq_ok_iff] at read ⊢
  rcases read with ⟨rest, skipped, rfl⟩ | ⟨rest, skipped, apart, read⟩
  · exact Or.inl ⟨rest ++ suffix, skipSpace_extend skipped suffix, rfl⟩
  · exact Or.inr ⟨rest ++ suffix, skipSpace_extend skipped suffix, apart, inner rest found read⟩

theorem scanName_extend (space : isSpace sp = true) {fuel : Nat} {bytes : Bytes}
    {found : Bytes × Bytes} (read : scanName fuel bytes = .ok found) (more : Bytes) :
    scanName fuel (bytes ++ sp :: more) = .ok (behind (sp :: more) found) := by
  unfold scanName at read ⊢
  cases skipped : skipSpace bytes with
  | nil => rw [skipped] at read; cases read
  | cons b rest =>
      rw [skipSpace_extend skipped]
      rw [skipped] at read
      dsimp only at read ⊢
      split at read
      · next quote =>
          rw [if_pos quote]
          rcases bind_eq_ok_iff.mp read with ⟨name, scanned, read⟩
          rw [scanString_extend space scanned, ok_bind]
          cases colon : skipSpace name.2 with
          | nil => rw [colon] at read; cases read
          | cons b rest =>
              rw [colon] at read
              simp only [behind, skipSpace_extend colon]
              dsimp only at read
              split at read
              · next same =>
                  cases read
                  rw [if_pos same]
              · cases read
      · cases read

theorem items_nil (hooks : Hooks) (fuel : Nat) (levels : Option Nat) (found : List Tree × Bytes) :
    (readers hooks fuel).items levels [] ≠ .ok found :=
  fun read => absurd ((readers_settle hooks fuel).2.1 levels [] found read).1 (by simp)

theorem members_nil (hooks : Hooks) (fuel : Nat) (levels : Option Nat)
    (found : List (Bytes × Tree) × Bytes) : (readers hooks fuel).members levels [] ≠ .ok found :=
  fun read => absurd ((readers_settle hooks fuel).2.2 levels [] found read).1 (by simp)

/-- What has been scanned is scanned in the same way in front of white space. -/
theorem readers_extend (space : isSpace sp = true) (hooks : Hooks) (fuel : Nat) (more : Bytes) :
    (∀ levels bytes found, (readers hooks fuel).value levels bytes = .ok found →
      (readers hooks fuel).value levels (bytes ++ sp :: more) =
        .ok (behind (sp :: more) found)) ∧
    (∀ levels bytes found, (readers hooks fuel).items levels bytes = .ok found →
      (readers hooks fuel).items levels (bytes ++ sp :: more) =
        .ok (behind (sp :: more) found)) ∧
    (∀ levels bytes found, (readers hooks fuel).members levels bytes = .ok found →
      (readers hooks fuel).members levels (bytes ++ sp :: more) =
        .ok (behind (sp :: more) found)) := by
  induction fuel with
  | zero => exact ⟨nofun, nofun, nofun⟩
  | succ fuel ih =>
      rcases ih with ⟨values, items, members⟩
      refine ⟨fun levels bytes found ok => ?_, fun levels bytes found ok => ?_,
        fun levels bytes found ok => ?_⟩
      · change scanValue hooks fuel (readers hooks fuel) levels bytes = .ok found at ok
        change scanValue hooks fuel (readers hooks fuel) levels (bytes ++ sp :: more) = _
        unfold scanValue at ok ⊢
        cases skipped : skipSpace bytes with
        | nil => rw [skipped] at ok; cases ok
        | cons b rest =>
            rw [skipSpace_extend skipped]
            rw [skipped] at ok
            dsimp only at ok ⊢
            split_ifs at ok with object array
            · rw [if_pos object]
              rcases bind_eq_ok_iff.mp ok with ⟨inner, entered, ok⟩
              rcases bind_eq_ok_iff.mp ok with ⟨read, inside, ok⟩
              rcases bind_eq_ok_iff.mp ok with ⟨done, checked, same⟩
              cases same
              rw [entered, ok_bind, opened_extend inside (members_nil hooks fuel inner)
                (fun rest found => members inner rest found), ok_bind]
              simp only [behind, checked, ok_bind]
              rfl
            · rw [if_neg object, if_pos array]
              rcases bind_eq_ok_iff.mp ok with ⟨inner, entered, ok⟩
              rcases bind_eq_ok_iff.mp ok with ⟨read, inside, same⟩
              cases same
              rw [entered, ok_bind, opened_extend inside (items_nil hooks fuel inner)
                (fun rest found => items inner rest found), ok_bind]
              rfl
            · rw [if_neg object, if_neg array]
              exact scanScalar_extend space ok more
      · change scanItems (readers hooks fuel) levels bytes = .ok found at ok
        change scanItems (readers hooks fuel) levels (bytes ++ sp :: more) = _
        rcases bind_eq_ok_iff.mp ok with ⟨read, first, ok⟩
        rw [scanItems, values levels bytes read first, ok_bind]
        apply followed_extend ok
        intro rest found again
        rcases map_eq_ok_iff.mp again with ⟨after, inside, rfl⟩
        rw [items levels rest after inside]
        rfl
      · change scanMembers fuel (readers hooks fuel) levels bytes = .ok found at ok
        change scanMembers fuel (readers hooks fuel) levels (bytes ++ sp :: more) = _
        rcases bind_eq_ok_iff.mp ok with ⟨name, named, ok⟩
        rcases bind_eq_ok_iff.mp ok with ⟨read, first, ok⟩
        unfold scanMembers
        rw [scanName_extend space named, ok_bind]
        simp only [behind]
        rw [values levels name.2 read first, ok_bind]
        apply followed_extend ok
        intro rest found again
        rcases map_eq_ok_iff.mp again with ⟨after, inside, rfl⟩
        rw [members levels rest after inside]
        rfl

/-! ## Texts -/

/-- A text that starts with a whole document, and white space after it, is that document or
none. -/
theorem scanText_extend (space : isSpace sp = true) {text : Bytes} {tree : Tree}
    (scanned : scanText hooks text = .ok tree) (more : Bytes) :
    scanText hooks (text ++ sp :: more) = .ok tree ∨
      scanText hooks (text ++ sp :: more) = .error .malformed := by
  rcases bind_eq_ok_iff.mp scanned with ⟨found, read, scanned⟩
  rcases bind_eq_ok_iff.mp scanned with ⟨done, blank, same⟩
  cases same
  have again := (readers_extend space hooks (enough text) more).1 _ _ _ read
  have settled := ((readers_settle hooks (enough text)).1 _ _ _ again).2
    (enough (text ++ sp :: more)) (by simp only [enough]; omega)
  simp only [scanText]
  dsimp only at settled
  rw [settled, ok_bind]
  simp only [behind]
  cases (found.2 ++ sp :: more).all isSpace with
  | true => exact Or.inl rfl
  | false => exact Or.inr rfl

/-- White space in front of a text is passed over. -/
theorem scanText_blank {blank : Bytes} (spaces : blank.all isSpace = true) (text : Bytes) :
    scanText hooks (blank ++ text) = scanText hooks text := by
  have skipped : skipSpace (blank ++ text) = skipSpace text := by
    induction blank with
    | nil => rfl
    | cons b blank ih =>
        rw [List.all_cons, Bool.and_eq_true] at spaces
        rw [List.cons_append, skipSpace, List.dropWhile_cons_of_pos spaces.1]
        exact ih spaces.2
  have same : ∀ fuel, (readers hooks (fuel + 1)).value hooks.levels (blank ++ text) =
      (readers hooks (fuel + 1)).value hooks.levels text := by
    intro fuel
    change scanValue _ _ _ _ _ = scanValue _ _ _ _ _
    unfold scanValue
    rw [skipped]
  have calls : (readers hooks (enough (blank ++ text))).value hooks.levels text =
      (readers hooks (enough text)).value hooks.levels text := by
    apply readers_enough
    simp only [enough, List.length_append]
    omega
  have enoughPos : enough (blank ++ text) = (2 * (blank ++ text).length + 1) + 1 := rfl
  rw [scanText, scanText, ← calls, enoughPos, same]

/-- A text whose first token starts like none is malformed. -/
theorem scanText_malformed {b : UInt8} {rest : Bytes} (solid : isSpace b = false)
    (structural : b ≠ 123 ∧ b ≠ 91 ∧ b ≠ 34) (literal : b ∉ [110, 116, 102, 78, 73])
    (number : isNumberByte b = false) : scanText hooks (b :: rest) = .error .malformed := by
  have skipped : skipSpace (b :: rest) = b :: rest := skipSpace_cons solid rest
  have empty : readNumber (b :: rest) = none := by
    have nothing : (b :: rest).takeWhile isNumberByte = [] :=
      List.takeWhile_cons_of_neg (by simp [number])
    unfold readNumber
    rw [dif_neg (by rw [nothing]; decide)]
  have minus : b ≠ 45 := by
    rintro rfl
    cases number
  simp only [List.mem_cons, List.not_mem_nil, or_false, not_or] at literal
  have value : (readers hooks (enough (b :: rest))).value hooks.levels (b :: rest) =
      .error .malformed := by
    change scanValue _ _ _ _ _ = _
    unfold scanValue
    rw [skipped]
    dsimp only
    rw [if_neg structural.1, if_neg structural.2.1, scanScalar, if_neg structural.2.2,
      if_neg literal.1, if_neg literal.2.1, if_neg literal.2.2.1, if_neg literal.2.2.2.1,
      if_neg literal.2.2.2.2, if_neg (fun both => minus both.1), scanNumber, empty]
    rfl
  rw [scanText, value]
  rfl

end Scanner
end CapsuleEmit
