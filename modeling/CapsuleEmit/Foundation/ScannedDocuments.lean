import CapsuleEmit.Foundation.Scanning

namespace CapsuleEmit
namespace Scanner

open JsonText

/-!
# The documents among the scanned texts

Without hooks and limits, and up to the three constants, the scanner is the
reader of JSON documents.  The bytes of a document do not look like another
encoding than UTF-8, so in UTF-8 they are scanned as they are.
-/

/-! ## The reader of documents -/

mutual
/-- The document of what has been scanned; a constant is in none. -/
def Tree.toJson? : Tree → Option Json
  | .null => some .null
  | .bool value => some (.bool value)
  | .number value => some (.number value)
  | .constant _ => none
  | .string bytes => some (.string bytes)
  | .array items => (toItems? items).map .array
  | .object members => (toMembers? members).map .object

def Tree.toItems? : List Tree → Option (List Json)
  | [] => some []
  | item :: items => item.toJson?.bind (fun value => (toItems? items).map (value :: ·))

def Tree.toMembers? : List (Bytes × Tree) → Option (List (Bytes × Json))
  | [] => some []
  | (name, tree) :: members =>
      tree.toJson?.bind (fun value => (toMembers? members).map ((name, value) :: ·))
end

section

variable {α β : Type}

/-- What a scan read, as a part of a document. -/
def readAs (part : α → Option β) (x : Except Stop (α × Bytes)) : Option (β × Bytes) :=
  x.toOption.bind (fun found => (part found.1).map (fun value => (value, found.2)))

theorem readAs_ok (part : α → Option β) (found : α × Bytes) :
    readAs part (.ok found) = (part found.1).map (fun value => (value, found.2)) := rfl

theorem readAs_map {γ δ : Type} {part : α → Option β} {whole : γ → Option δ} {f : α → γ} {g : β → δ}
    (same : ∀ a, whole (f a) = (part a).map g) (x : Except Stop (α × Bytes)) :
    readAs whole (x.map (fun found => (f found.1, found.2))) =
      (readAs part x).map (fun found => (g found.1, found.2)) := by
  cases x with
  | error stop => rfl
  | ok found =>
      simp only [Except.map, readAs_ok, same]
      cases part found.1 <;> rfl

theorem readAs_opened {close : UInt8} {part : α → Option β} {empty : α} {none : β}
    (nothing : part empty = some none) (more : Bytes → Except Stop (α × Bytes)) (bytes : Bytes) :
    readAs part (opened close empty more bytes) =
      match skipSpace bytes with
      | [] => readAs part (more [])
      | b :: rest => if b = close then some (none, rest) else readAs part (more (b :: rest)) := by
  unfold opened
  cases skipSpace bytes with
  | nil => rfl
  | cons b rest =>
      dsimp only
      split_ifs
      · rw [readAs_ok, nothing]
        rfl
      · rfl

/-- What follows a value, as a part of a document. -/
theorem readAs_followed {γ : Type} {close : UInt8} {part : α → Option β} {last : α} {f : α → α}
    {first : Option γ} {one : γ → β} {join : γ → β → β} (alone : part last = first.map one)
    (joined : ∀ a, part (f a) = first.bind (fun value => (part a).map (join value)))
    (more : Bytes → Except Stop (α × Bytes)) (bytes : Bytes) :
    readAs part (followed close last
      (fun rest => (more rest).map (fun found => (f found.1, found.2))) bytes) =
      first.bind (fun value =>
        match skipSpace bytes with
        | [] => none
        | b :: rest =>
            if b = close then some (one value, rest)
            else if b = 44 then
              (readAs part (more rest)).map (fun found => (join value found.1, found.2))
            else none) := by
  unfold followed
  cases skipSpace bytes with
  | nil => cases first <;> rfl
  | cons b rest =>
      dsimp only
      split_ifs
      · rw [readAs_ok, alone]
        cases first <;> rfl
      · cases more rest with
        | error stop => cases first <;> rfl
        | ok found =>
            simp only [Except.map, readAs_ok, joined]
            cases first with
            | none => rfl
            | some value =>
                simp only [Option.bind_some]
                cases part found.1 <;> rfl
      · cases first <;> rfl

end

theorem readNumber_eq_none {bytes : Bytes}
    (wrong : isNumberText (bytes.takeWhile isNumberByte) = false) : readNumber bytes = none := by
  unfold readNumber
  rw [dif_neg (by rw [wrong]; exact Bool.false_ne_true)]

theorem scanScalar_readWith (fuel : Nat) (b : UInt8) (rest : Bytes) :
    readAs Tree.toJson? (scanScalar free fuel b rest) =
      readScalarWith (readStringWith readEscapeLenient) fuel b rest := by
  have literal : ∀ front value, readAs Tree.toJson? (scanLiteral front value rest) =
      (expect front rest).bind (fun rest => value.toJson?.map (fun value => (value, rest))) := by
    intro front value
    unfold scanLiteral
    cases expect front rest <;> rfl
  have refused : ∀ front name,
      readAs Tree.toJson? (scanLiteral front (.constant name) rest) = none := by
    intro front name
    rw [literal]
    cases expect front rest <;> rfl
  unfold scanScalar readScalarWith
  split_ifs with quote isNull isTrue isFalse isNan isInfinity minus
  · unfold scanString
    cases readStringWith readEscapeLenient fuel rest <;> rfl
  · rw [literal]
    cases expect [117, 108, 108] rest <;> rfl
  · rw [literal]
    cases expect [114, 117, 101] rest <;> rfl
  · rw [literal]
    cases expect [97, 108, 115, 101] rest <;> rfl
  · rw [refused, readNumber_eq_none (by rw [isNan]; rfl)]
    rfl
  · rw [refused, readNumber_eq_none (by rw [isInfinity]; rfl)]
    rfl
  · rcases Option.isSome_iff_exists.mp minus.2 with ⟨after, found⟩
    rw [refused, readNumber_eq_none (by rw [minus.1, expect_split found]; rfl)]
    rfl
  · unfold scanNumber
    cases readNumber (b :: rest) <;> rfl

/-- What follows an item is read alike when the items after it are. -/
theorem readAs_item {fuel : Nat} (found : Tree × Bytes)
    (items : ∀ bytes, readAs Tree.toItems? ((readers free fuel).items none bytes) =
      readItemsWith (readStringWith readEscapeLenient) fuel bytes) :
    readAs Tree.toItems? (followed 93 [found.1] (fun rest =>
      ((readers free fuel).items none rest).map
        (fun more => (found.1 :: more.1, more.2))) found.2) =
    match readAs Tree.toJson? (.ok found) with
    | none => none
    | some (item, rest) =>
        match skipSpace rest with
        | 93 :: rest => some ([item], rest)
        | 44 :: rest => (readItemsWith (readStringWith readEscapeLenient) fuel rest).map
            (fun found => (item :: found.1, found.2))
        | _ => none := by
  have alone : Tree.toItems? [found.1] = found.1.toJson?.map (fun value => [value]) := by
    simp only [Tree.toItems?, Option.map_some]
    cases found.1.toJson? <;> rfl
  rw [readAs_followed alone (fun _ => rfl), readAs_ok]
  cases found.1.toJson? with
  | none => rfl
  | some value =>
      simp only [Option.bind_some, Option.map_some, items]
      cases skipSpace found.2 with
      | nil => rfl
      | cons b rest =>
          dsimp only
          split_ifs with closed comma
          · rw [closed]
            rfl
          · rw [comma]
            rfl
          · split
            · next same => exact absurd (List.cons.inj same).1 closed
            · next same => exact absurd (List.cons.inj same).1 comma
            · rfl

/-- What follows a member is read alike when the members after it are. -/
theorem readAs_member {fuel : Nat} (name : Bytes) (found : Tree × Bytes)
    (members : ∀ bytes, readAs Tree.toMembers? ((readers free fuel).members none bytes) =
      readMembersWith (readStringWith readEscapeLenient) fuel bytes) :
    readAs Tree.toMembers? (followed 125 [(name, found.1)] (fun rest =>
      ((readers free fuel).members none rest).map
        (fun more => ((name, found.1) :: more.1, more.2))) found.2) =
    match readAs Tree.toJson? (.ok found) with
    | none => none
    | some (value, rest) =>
        match skipSpace rest with
        | 125 :: rest => some ([(name, value)], rest)
        | 44 :: rest => (readMembersWith (readStringWith readEscapeLenient) fuel rest).map
            (fun found => ((name, value) :: found.1, found.2))
        | _ => none := by
  have alone : Tree.toMembers? [(name, found.1)] =
      found.1.toJson?.map (fun value => [(name, value)]) := by
    simp only [Tree.toMembers?, Option.map_some]
    cases found.1.toJson? <;> rfl
  rw [readAs_followed alone (fun _ => rfl), readAs_ok]
  cases found.1.toJson? with
  | none => rfl
  | some value =>
      simp only [Option.bind_some, Option.map_some, members]
      cases skipSpace found.2 with
      | nil => rfl
      | cons b rest =>
          dsimp only
          split_ifs with closed comma
          · rw [closed]
            rfl
          · rw [comma]
            rfl
          · split
            · next same => exact absurd (List.cons.inj same).1 closed
            · next same => exact absurd (List.cons.inj same).1 comma
            · rfl

/-- Without hooks and limits the scanner reads the documents, and trees with constants. -/
theorem readers_readWith (fuel : Nat) :
    (∀ bytes, readAs Tree.toJson? ((readers free fuel).value none bytes) =
      readWith (readStringWith readEscapeLenient) fuel bytes) ∧
    (∀ bytes, readAs Tree.toItems? ((readers free fuel).items none bytes) =
      readItemsWith (readStringWith readEscapeLenient) fuel bytes) ∧
    (∀ bytes, readAs Tree.toMembers? ((readers free fuel).members none bytes) =
      readMembersWith (readStringWith readEscapeLenient) fuel bytes) := by
  induction fuel with
  | zero => exact ⟨fun _ => rfl, fun _ => rfl, fun _ => rfl⟩
  | succ fuel ih =>
      rcases ih with ⟨values, items, members⟩
      refine ⟨fun bytes => ?_, fun bytes => ?_, fun bytes => ?_⟩
      · change readAs _ (scanValue free fuel (readers free fuel) none bytes) = _
        rw [scanValue, readWith]
        cases skipSpace bytes with
        | nil => rfl
        | cons b rest =>
            dsimp only
            split_ifs with object array
            · simp only [enter, ok_bind, free, ensure_true]
              have inside := @readAs_map _ _ _ _ Tree.toMembers? Tree.toJson? Tree.object Json.object
                (fun _ => rfl) (opened 125 [] ((readers free fuel).members none) rest)
              refine inside.trans ?_
              have nothing : Tree.toMembers? [] = some [] := rfl
              rw [readAs_opened nothing]
              cases skipSpace rest with
              | nil => simp only [members]
              | cons c after =>
                  dsimp only
                  split_ifs with closed
                  · rw [closed]
                    rfl
                  · rw [members]
                    split
                    · next same =>
                        cases same
                        exact absurd rfl closed
                    · rfl
            · simp only [enter, ok_bind]
              have inside := @readAs_map _ _ _ _ Tree.toItems? Tree.toJson? Tree.array Json.array
                (fun _ => rfl) (opened 93 [] ((readers free fuel).items none) rest)
              refine inside.trans ?_
              have nothing : Tree.toItems? [] = some [] := rfl
              rw [readAs_opened nothing]
              cases skipSpace rest with
              | nil => simp only [items]
              | cons c after =>
                  dsimp only
                  split_ifs with closed
                  · rw [closed]
                    rfl
                  · rw [items]
                    split
                    · next same =>
                        cases same
                        exact absurd rfl closed
                    · rfl
            · exact scanScalar_readWith fuel b rest
      · change readAs _ (scanItems (readers free fuel) none bytes) = _
        rw [scanItems, readItemsWith, ← values]
        cases (readers free fuel).value none bytes with
        | error stop => rfl
        | ok found => exact readAs_item found items
      · change readAs _ (scanMembers fuel (readers free fuel) none bytes) = _
        rw [scanMembers, readMembersWith, scanName]
        cases skipSpace bytes with
        | nil => rfl
        | cons b rest =>
            dsimp only
            split_ifs with quote
            · subst quote
              split
              · next tail same =>
                  cases same
                  unfold scanString
                  cases readStringWith readEscapeLenient fuel rest with
                  | none => rfl
                  | some name =>
                      simp only [orMalformed, ok_bind]
                      cases skipSpace name.2 with
                      | nil => rfl
                      | cons c after =>
                          dsimp only
                          split_ifs with colon
                          · subst colon
                            split
                            · next tail same =>
                                cases same
                                rw [← values, ok_bind]
                                cases (readers free fuel).value none after with
                                | error stop => rfl
                                | ok found => exact readAs_member name.1 found members
                            · next other => exact absurd rfl (other after)
                          · split
                            · next same => exact absurd (List.cons.inj same).1 colon
                            · rfl
              · next other => exact absurd rfl (other rest)
            · split
              · next same => exact absurd (List.cons.inj same).1 quote
              · rfl

/-- A text is a document when it is scanned without hooks and holds no constant. -/
theorem readDocumentLenient_eq_some_iff {text : Bytes} {document : Json} :
    readDocumentLenient text = some document ↔
      ∃ tree, scanText free text = .ok tree ∧ tree.toJson? = some document := by
  have calls : ∀ found, (readers free (text.length + 1)).value none text = .ok found ↔
      (readers free (enough text)).value none text = .ok found := by
    intro found
    constructor
    · exact fun read => ((readers_settle free _).1 none text found read).2 _
        (by unfold enough; omega)
    · exact fun read => ((readers_settle free _).1 none text found read).2 _ (by omega)
  have read := (readers_readWith (text.length + 1)).1 text
  unfold readDocumentLenient readDocumentWith scanText
  rw [← read]
  cases scanned : (readers free (text.length + 1)).value none text with
  | error stop =>
      constructor
      · intro none
        cases none
      · rintro ⟨tree, found, -⟩
        rcases bind_eq_ok_iff.mp found with ⟨found, value, -⟩
        rw [(calls found).mpr value] at scanned
        cases scanned
  | ok found =>
      have unlimited : free.levels = none := rfl
      rw [readAs_ok]
      simp only [unlimited, (calls found).mp scanned, ok_bind]
      cases part : found.1.toJson? with
      | none =>
          constructor
          · intro none
            cases none
          · rintro ⟨tree, same, whole⟩
            rcases bind_eq_ok_iff.mp same with ⟨-, -, same⟩
            cases same
            rw [part] at whole
            cases whole
      | some value =>
          simp only [Option.map_some]
          cases found.2.all isSpace with
          | false => simp only [ensure_false, error_bind, Bool.false_eq_true, if_false]; simp
          | true => simp [part]

/-! ## UTF-8 texts -/

theorem passes_finish {first : UInt8} (front rest more : Bytes) (left : rest ≠ [])
    (started : front ≠ []) (whole : Utf8.width first = front.length + rest.length + 1)
    (continued : ∀ b ∈ rest, Utf8.isContinuation b = true) :
    passes (first :: front) (rest ++ more) = passes [] more := by
  induction rest generalizing front with
  | nil => exact absurd rfl left
  | cons b rest ih =>
      have goesOn : continues (first :: front) b = true := by
        cases front with
        | nil => exact absurd rfl started
        | cons second front =>
            unfold continues
            rw [Bool.or_eq_true]
            exact Or.inl (continued b List.mem_cons_self)
      rw [List.cons_append, passes, goesOn, Bool.true_and]
      cases rest with
      | nil => rw [if_pos (by rw [whole]; rfl), List.nil_append]
      | cons c rest =>
          rw [if_neg (by rw [whole]; simp only [List.length_cons]; omega)]
          apply ih (front ++ [b]) (List.cons_ne_nil c rest)
          · exact List.append_ne_nil_of_right_ne_nil _ (List.cons_ne_nil b [])
          · rw [whole, List.length_append, List.length_singleton, List.length_cons]
            omega
          · exact fun d inside => continued d (List.mem_cons_of_mem b inside)

theorem passes_completes {first : UInt8} {rest : Bytes} (complete : Utf8.Completes first rest)
    (more : Bytes) : passes [] (first :: rest ++ more) = passes [] more := by
  cases rest with
  | nil =>
      have one : Utf8.width first = 1 := complete
      rw [List.cons_append, passes, if_pos one, List.nil_append]
  | cons second rest =>
      rcases complete with ⟨whole, isSecond, continued⟩
      have goesOn : continues [first] second = true := by
        unfold continues
        rw [Bool.or_eq_true]
        exact Or.inl isSecond
      have wide : ¬ Utf8.width first = 1 := by omega
      have start : passes [] (first :: second :: rest ++ more) =
          passes [first] (second :: (rest ++ more)) := by
        rw [List.cons_append, passes, if_neg wide, decide_eq_true (by omega), Bool.true_and]
        rfl
      rw [start, passes, goesOn, Bool.true_and]
      cases rest with
      | nil => rw [if_pos (by rw [whole]), List.nil_append]
      | cons third rest =>
          rw [if_neg (by rw [whole]; simp only [List.length_cons, List.length_nil]; omega)]
          apply passes_finish _ _ _ (List.cons_ne_nil third rest) (List.cons_ne_nil second [])
          · rw [whole, List.length_singleton]
            omega
          · exact continued

theorem passes_of_valid {bytes : Bytes} (valid : Utf8.Valid bytes) : passes [] bytes = true := by
  rcases Utf8.valid_iff.mp valid with ⟨chars, rfl⟩
  clear valid
  induction chars with
  | nil => rfl
  | cons c chars ih =>
      rcases Utf8.encode_completes c with ⟨first, rest, shape, complete⟩
      rw [List.flatMap_cons, shape, passes_completes complete]
      exact ih

/-- A byte that values, items and members may begin with. -/
def Begins (b : UInt8) : Prop := b ≠ 0 ∧ b < 0x80

theorem begins_of_space {b : UInt8} (space : isSpace b = true) : Begins b := by
  simp only [isSpace, Bool.or_eq_true, decide_eq_true_eq] at space
  rcases space with ((rfl | rfl) | rfl) | rfl <;> exact ⟨by decide, by decide⟩

theorem begins_of_number {b : UInt8} (number : isNumberByte b = true) : Begins b := by
  simp only [isNumberByte, Bool.or_eq_true, Bool.and_eq_true, decide_eq_true_eq] at number
  rcases number with ((((⟨low, high⟩ | rfl) | rfl) | rfl) | rfl) | rfl
  · refine ⟨?_, UInt8.lt_of_le_of_lt high (by decide)⟩
    rintro rfl
    exact absurd low (by decide)
  all_goals exact ⟨by decide, by decide⟩

section

variable {strings : Nat → Bytes → Option (Bytes × Bytes)}

theorem begins_of_skipSpace {b c : UInt8} {rest after : Bytes}
    (skipped : skipSpace (b :: rest) = c :: after) (begins : Begins c) : Begins b := by
  by_cases space : isSpace b = true
  · exact begins_of_space space
  · unfold skipSpace at skipped
    rw [List.dropWhile_cons_of_neg space] at skipped
    rw [(List.cons.inj skipped).1]
    exact begins

theorem readNumber_begins {b : UInt8} {bytes : Bytes} {found : JsonNumber × Bytes}
    (read : readNumber (b :: bytes) = some found) : Begins b := by
  by_cases number : isNumberByte b = true
  · exact begins_of_number number
  · rw [readNumber_eq_none (by rw [List.takeWhile_cons_of_neg number]; rfl)] at read
    cases read

theorem readScalarWith_begins {fuel : Nat} {b : UInt8} {rest : Bytes} {found : Json × Bytes}
    (read : readScalarWith strings fuel b rest = some found) : Begins b := by
  unfold readScalarWith at read
  split_ifs at read with quote null isTrue isFalse
  · exact quote ▸ ⟨by decide, by decide⟩
  · exact null ▸ ⟨by decide, by decide⟩
  · exact isTrue ▸ ⟨by decide, by decide⟩
  · exact isFalse ▸ ⟨by decide, by decide⟩
  · rcases Option.map_eq_some_iff.mp read with ⟨number, read, -⟩
    exact readNumber_begins read

theorem readWith_begins {fuel : Nat} {b : UInt8} {rest : Bytes} {found : Json × Bytes}
    (read : readWith strings fuel (b :: rest) = some found) : Begins b := by
  cases fuel with
  | zero => cases read
  | succ fuel =>
      rw [readWith] at read
      cases skipped : skipSpace (b :: rest) with
      | nil => rw [skipped] at read; cases read
      | cons c after =>
          apply begins_of_skipSpace skipped
          rw [skipped] at read
          dsimp only at read
          split_ifs at read with object array
          · exact object ▸ ⟨by decide, by decide⟩
          · exact array ▸ ⟨by decide, by decide⟩
          · exact readScalarWith_begins read

theorem readItemsWith_begins {fuel : Nat} {b : UInt8} {rest : Bytes} {found : List Json × Bytes}
    (read : readItemsWith strings fuel (b :: rest) = some found) : Begins b := by
  cases fuel with
  | zero => cases read
  | succ fuel =>
      rw [readItemsWith] at read
      cases first : readWith strings fuel (b :: rest) with
      | none => rw [first] at read; cases read
      | some item => exact readWith_begins first

theorem readMembersWith_begins {fuel : Nat} {b : UInt8} {rest : Bytes}
    {found : List (Bytes × Json) × Bytes}
    (read : readMembersWith strings fuel (b :: rest) = some found) : Begins b := by
  cases fuel with
  | zero => cases read
  | succ fuel =>
      rw [readMembersWith] at read
      split at read
      · next after skipped => exact begins_of_skipSpace skipped ⟨by decide, by decide⟩
      · cases read

end

theorem readStringWith_begins {escape : Bytes → Option (Bytes × Bytes)} {fuel : Nat} {b : UInt8}
    {rest : Bytes} {found : Bytes × Bytes}
    (read : readStringWith escape fuel (b :: rest) = some found) : b ≠ 0 := by
  cases fuel with
  | zero => cases read
  | succ fuel =>
      rintro rfl
      rw [readStringWith, if_neg (by decide), if_neg (by decide), if_pos (by decide)] at read
      cases read

theorem begins_after_space {b : UInt8} {rest : Bytes}
    (next : ∀ c after, skipSpace (b :: rest) = c :: after → Begins c) : Begins b := by
  cases skipped : skipSpace (b :: rest) with
  | nil =>
      apply begins_of_space
      by_contra solid
      unfold skipSpace at skipped
      rw [List.dropWhile_cons_of_neg solid] at skipped
      cases skipped
  | cons c after => exact begins_of_skipSpace skipped (next c after skipped)

/-- The second byte of a document is not NUL either. -/
theorem readWith_second {escape : Bytes → Option (Bytes × Bytes)} {fuel : Nat} {b c : UInt8}
    {rest after : Bytes} {value : Json}
    (read : readWith (readStringWith escape) fuel (b :: c :: rest) = some (value, after))
    (blank : after.all isSpace = true) : c ≠ 0 := by
  cases fuel with
  | zero => cases read
  | succ fuel =>
      by_cases space : isSpace b = true
      · have same : skipSpace (b :: c :: rest) = skipSpace (c :: rest) := by
          unfold skipSpace
          rw [List.dropWhile_cons_of_pos space]
        have again : readWith (readStringWith escape) (fuel + 1) (b :: c :: rest) =
            readWith (readStringWith escape) (fuel + 1) (c :: rest) := by
          rw [readWith, same, readWith]
        exact (readWith_begins (again.symm.trans read)).1
      · have same : skipSpace (b :: c :: rest) = b :: c :: rest := by
          unfold skipSpace
          rw [List.dropWhile_cons_of_neg space]
        rw [readWith, same] at read
        dsimp only at read
        split_ifs at read with object array
        · apply And.left
          apply begins_after_space
          intro d tail skipped
          rw [skipped] at read
          split at read
          · next same => exact (List.cons.inj same).1 ▸ ⟨by decide, by decide⟩
          · rcases Option.map_eq_some_iff.mp read with ⟨members, inner, -⟩
            exact readMembersWith_begins inner
        · apply And.left
          apply begins_after_space
          intro d tail skipped
          rw [skipped] at read
          split at read
          · next same => exact (List.cons.inj same).1 ▸ ⟨by decide, by decide⟩
          · rcases Option.map_eq_some_iff.mp read with ⟨items, inner, -⟩
            exact readItemsWith_begins inner
        · have literal : ∀ d front, expect (d :: front) (c :: rest) ≠ none → c = d := by
            intro d front found
            unfold expect at found
            split_ifs at found with isPrefix
            · simp only [List.isPrefixOf, Bool.and_eq_true, beq_iff_eq] at isPrefix
              exact isPrefix.1.symm
            · exact absurd rfl found
          have expected : ∀ d front {f : Bytes → Json × Bytes}, d ≠ 0 →
              (expect (d :: front) (c :: rest)).map f = some (value, after) → c ≠ 0 := by
            intro d front f different found
            rcases Option.map_eq_some_iff.mp found with ⟨tail, found, -⟩
            rw [literal d front (by rw [found]; exact Option.some_ne_none _)]
            exact different
          unfold readScalarWith at read
          split_ifs at read
          · rcases Option.map_eq_some_iff.mp read with ⟨content, read, -⟩
            exact readStringWith_begins read
          · exact expected _ _ (by decide) read
          · exact expected _ _ (by decide) read
          · exact expected _ _ (by decide) read
          · rcases Option.map_eq_some_iff.mp read with ⟨number, read, pair⟩
            by_cases digit : isNumberByte c = true
            · exact (begins_of_number digit).1
            · unfold readNumber at read
              split at read
              · next wellFormed =>
                  cases read
                  cases pair
                  by_cases first : isNumberByte b = true
                  · rw [List.dropWhile_cons_of_pos first, List.dropWhile_cons_of_neg digit,
                      List.all_cons, Bool.and_eq_true] at blank
                    exact (begins_of_space blank.1).1
                  · rw [List.takeWhile_cons_of_neg first] at wellFormed
                    cases wellFormed
              · cases read

theorem detectEncoding_utf8 {b c : UInt8} (first : Begins b) (second : c ≠ 0) (rest : Bytes) :
    detectEncoding (b :: c :: rest) = .utf8 := by
  rcases first with ⟨solid, ascii⟩
  have different : ∀ mark : UInt8, 0x80 ≤ mark → (mark == b) = false := by
    intro mark high
    rw [beq_eq_false_iff_ne]
    rintro rfl
    exact absurd ascii (UInt8.not_lt.mpr high)
  have noMark : (0 == b) = false := by
    rw [beq_eq_false_iff_ne]
    exact Ne.symm solid
  unfold detectEncoding
  simp only [List.isPrefixOf, noMark, different 0xFF (by decide), different 0xFE (by decide),
    different 0xEF (by decide), Bool.false_and, Bool.or_self, Bool.false_eq_true, if_false]
  cases rest with
  | nil => simp [solid, second]
  | cons d rest =>
      cases rest with
      | nil => rfl
      | cons e rest => simp [solid, second]

/-- A document is in UTF-8 as far as its first bytes tell. -/
theorem detectEncoding_of_document {bytes : Bytes} {document : Json}
    (read : readDocumentLenient bytes = some document) : detectEncoding bytes = .utf8 := by
  unfold readDocumentLenient readDocumentWith at read
  cases found : readWith (readStringWith readEscapeLenient) (bytes.length + 1) bytes with
  | none => rw [found] at read; cases read
  | some pair =>
      rw [found] at read
      dsimp only at read
      split_ifs at read with blank
      cases bytes with
      | nil => cases found
      | cons b rest =>
          have begins := readWith_begins found
          cases rest with
          | nil =>
              have marks : ∀ a c : UInt8, ∀ front, (a :: c :: front).isPrefixOf [b] = false := by
                intro a c front
                simp [List.isPrefixOf]
              unfold detectEncoding
              simp only [marks, Bool.or_self, Bool.false_eq_true, if_false]
          | cons c rest => exact detectEncoding_utf8 begins (readWith_second found blank) rest

/-- The text of UTF-8 bytes that do not look like another encoding is the bytes. -/
theorem textOf_of_plain {bytes : Bytes} (utf8 : detectEncoding bytes = .utf8)
    (valid : Utf8.Valid bytes) : textOf bytes = some bytes := by
  unfold textOf
  rw [utf8, decode, if_pos (passes_of_valid valid)]

end Scanner
end CapsuleEmit
