import CapsuleEmit.Foundation.Scanner

namespace CapsuleEmit
namespace Scanner

open JsonText

/-!
# What a scan reads

A scan that succeeds has read at least one byte, and it needs no more calls of
its readers than bytes it read; any scan of a text goes the same way once the
calls are twice as many as the bytes.  Hooks only refuse: a scan under hooks
reads what the scan without hooks and limits reads, when the tree passes the
hooks and is not too deep, and otherwise stops.
-/

/-! ## Bytes read -/

theorem skipSpace_shortens {bytes rest : Bytes} {b : UInt8} (found : skipSpace bytes = b :: rest) :
    rest.length < bytes.length := by
  have bound : (skipSpace bytes).length ≤ bytes.length :=
    (List.dropWhile_sublist isSpace).length_le
  rw [found, List.length_cons] at bound
  exact bound

theorem expect_shortens {front bytes rest : Bytes} (found : expect front bytes = some rest) :
    rest.length ≤ bytes.length := by
  rw [expect_split found, List.length_append]
  exact Nat.le_add_left _ _

theorem readNumber_shortens {b : UInt8} {bytes rest : Bytes} {value : JsonNumber}
    (found : readNumber (b :: bytes) = some (value, rest)) : rest.length ≤ bytes.length := by
  unfold readNumber at found
  split at found
  · next wellFormed =>
      cases found
      by_cases number : isNumberByte b = true
      · rw [List.dropWhile_cons_of_pos number]
        exact (List.dropWhile_sublist isNumberByte).length_le
      · rw [List.takeWhile_cons_of_neg number] at wellFormed
        cases wellFormed
  · cases found

theorem readEscapeLenient_shortens {bytes content rest : Bytes}
    (found : readEscapeLenient bytes = some (content, rest)) : rest.length ≤ bytes.length := by
  rcases escapes_lenient bytes content rest found with ⟨text, rfl, -⟩
  rw [List.length_append]
  exact Nat.le_add_left _ _

/-! ## Enough calls -/

section

variable {α : Type}

/-- A reader with a bound on its calls has read some bytes, and as many calls as
bytes would have been enough. -/
def Settles (read : Nat → Except Stop (α × Bytes)) (bytes : Bytes) (found : α × Bytes) : Prop :=
  found.2.length < bytes.length ∧
    ∀ calls, bytes.length ≤ calls + found.2.length → read calls = .ok found

theorem orMalformed_eq_ok_iff {x : Option α} {a : α} : orMalformed x = .ok a ↔ x = some a := by
  cases x <;> simp [orMalformed]

theorem scanString_settles {fuel : Nat} {bytes : Bytes} {found : Bytes × Bytes}
    (read : scanString fuel bytes = .ok found) :
    Settles (fun calls => scanString calls bytes) bytes found := by
  simp only [Settles, scanString, orMalformed_eq_ok_iff] at read ⊢
  induction fuel generalizing bytes found with
  | zero => cases read
  | succ fuel ih =>
      cases bytes with
      | nil => cases read
      | cons b bytes =>
          have positive : ∀ calls rest, (rest : Bytes).length ≤ bytes.length →
              (b :: bytes).length ≤ calls + rest.length → ∃ fewer, calls = fewer + 1 := by
            intro calls rest shorter bound
            simp only [List.length_cons] at bound
            exact ⟨calls - 1, by omega⟩
          rw [readStringWith] at read
          split_ifs at read with quote escape
          · cases read
            refine ⟨Nat.lt_succ_self _, fun calls bound => ?_⟩
            rcases positive calls bytes le_rfl bound with ⟨fewer, rfl⟩
            rw [readStringWith, if_pos quote]
          · cases escaped : readEscapeLenient bytes with
            | none => rw [escaped] at read; cases read
            | some pair =>
                rw [escaped] at read
                rcases Option.map_eq_some_iff.mp read with ⟨inner, rest, rfl⟩
                rcases ih rest with ⟨shorter, enough⟩
                have less := readEscapeLenient_shortens escaped
                refine ⟨by simp only [List.length_cons]; omega, fun calls bound => ?_⟩
                rcases positive calls inner.2 (by omega) bound with ⟨fewer, rfl⟩
                simp only [List.length_cons] at bound
                rw [readStringWith, if_neg quote, if_pos escape, escaped]
                simp only [enough fewer (by omega), Option.map_some]
          · rcases Option.map_eq_some_iff.mp read with ⟨inner, rest, rfl⟩
            rcases ih rest with ⟨shorter, enough⟩
            refine ⟨Nat.lt_succ_of_lt shorter, fun calls bound => ?_⟩
            rcases positive calls inner.2 (by omega) bound with ⟨fewer, rfl⟩
            simp only [List.length_cons] at bound
            rw [readStringWith, if_neg quote, if_neg escape, if_neg (by assumption),
              enough fewer (by omega), Option.map_some]

/-- What is read after an opening bracket. -/
theorem opened_eq_ok_iff {close : UInt8} {empty : α} {more : Bytes → Except Stop (α × Bytes)}
    {bytes : Bytes} {found : α × Bytes} : opened close empty more bytes = .ok found ↔
      (∃ rest, skipSpace bytes = close :: rest ∧ found = (empty, rest)) ∨
        ((∀ rest, skipSpace bytes ≠ close :: rest) ∧ more (skipSpace bytes) = .ok found) := by
  unfold opened
  cases skipSpace bytes with
  | nil => simp
  | cons b rest =>
      by_cases same : b = close
      · simp [same, eq_comm]
      · simp [same]

/-- What is read after a value. -/
theorem followed_eq_ok_iff {close : UInt8} {last : α} {more : Bytes → Except Stop (α × Bytes)}
    {bytes : Bytes} {found : α × Bytes} : followed close last more bytes = .ok found ↔
      (∃ rest, skipSpace bytes = close :: rest ∧ found = (last, rest)) ∨
        (∃ rest, skipSpace bytes = 44 :: rest ∧ close ≠ 44 ∧ more rest = .ok found) := by
  unfold followed
  cases skipSpace bytes with
  | nil => simp
  | cons b rest =>
      by_cases same : b = close
      · subst same
        simp only [if_pos, Except.ok.injEq, List.cons.injEq, true_and]
        constructor
        · rintro rfl
          exact Or.inl ⟨rest, rfl, rfl⟩
        · rintro (⟨after, rfl, rfl⟩ | ⟨after, ⟨rfl, -⟩, different, -⟩)
          · rfl
          · exact absurd rfl different
      · dsimp only
        rw [if_neg same]
        split_ifs with comma
        · subst comma
          simp [same, Ne.symm same]
        · simp [same, comma]

/-- A bound on the calls is the successor of one when any byte was read. -/
theorem Settles.of_succ {read : Nat → Except Stop (α × Bytes)} {bytes : Bytes} {found : α × Bytes}
    (shorter : found.2.length < bytes.length)
    (enough : ∀ calls, bytes.length ≤ calls + 1 + found.2.length → read (calls + 1) = .ok found) :
    Settles read bytes found := by
  refine ⟨shorter, fun calls bound => ?_⟩
  cases calls with
  | zero => omega
  | succ calls => exact enough calls bound

/-- Brackets around what settles settle. -/
theorem opened_settles (read : Nat → Bytes → Except Stop (α × Bytes)) {close : UInt8} {empty : α}
    {fuel : Nat} {bytes : Bytes} {found : α × Bytes}
    (settles : ∀ rest found, read fuel rest = .ok found →
      Settles (fun calls => read calls rest) rest found)
    (ok : opened close empty (read fuel) bytes = .ok found) :
    Settles (fun calls => opened close empty (read calls) bytes) bytes found := by
  have solid : (skipSpace bytes).length ≤ bytes.length :=
    (List.dropWhile_sublist isSpace).length_le
  simp only [Settles, opened_eq_ok_iff] at ok ⊢
  rcases ok with ⟨rest, closed, rfl⟩ | ⟨more, inner⟩
  · exact ⟨skipSpace_shortens closed, fun _ _ => Or.inl ⟨rest, closed, rfl⟩⟩
  · rcases settles _ _ inner with ⟨shorter, enough⟩
    exact ⟨by omega, fun calls bound => Or.inr ⟨more, enough calls (by omega)⟩⟩

/-- Values that settle and are followed by what settles settle. -/
theorem followed_settles (read : Nat → Bytes → Except Stop (α × Bytes)) {β : Type} {close : UInt8}
    {last : β} {fuel : Nat} {join : α → β} {bytes : Bytes} {found : β × Bytes}
    (settles : ∀ rest found, read fuel rest = .ok found →
      Settles (fun calls => read calls rest) rest found)
    (ok : followed close last (fun rest => (read fuel rest).map (fun more => (join more.1, more.2)))
      bytes = .ok found) :
    Settles (fun calls => followed close last
      (fun rest => (read calls rest).map (fun more => (join more.1, more.2))) bytes)
        bytes found := by
  simp only [Settles, followed_eq_ok_iff, map_eq_ok_iff] at ok ⊢
  rcases ok with ⟨rest, closed, rfl⟩ | ⟨rest, comma, different, more, inner, rfl⟩
  · exact ⟨skipSpace_shortens closed, fun _ _ => Or.inl ⟨rest, closed, rfl⟩⟩
  · have less := skipSpace_shortens comma
    rcases settles _ _ inner with ⟨shorter, enough⟩
    exact ⟨by dsimp only; omega, fun calls bound =>
      Or.inr ⟨rest, comma, different, more, enough calls (by dsimp only at bound; omega), rfl⟩⟩

theorem scanName_settles {fuel : Nat} {bytes : Bytes} {found : Bytes × Bytes}
    (ok : scanName fuel bytes = .ok found) :
    Settles (fun calls => scanName calls bytes) bytes found := by
  simp only [Settles, scanName] at ok ⊢
  cases skipped : skipSpace bytes with
  | nil => rw [skipped] at ok; cases ok
  | cons b rest =>
      rw [skipped] at ok
      have less := skipSpace_shortens skipped
      dsimp only at ok ⊢
      split_ifs at ok ⊢ with quote
      rcases bind_eq_ok_iff.mp ok with ⟨name, read, colon⟩
      rcases scanString_settles read with ⟨shorter, enough⟩
      have last : found.2.length < name.2.length := by
        cases skippedToo : skipSpace name.2 with
        | nil => rw [skippedToo] at colon; cases colon
        | cons c after =>
            rw [skippedToo] at colon
            dsimp only at colon
            split_ifs at colon
            cases colon
            exact skipSpace_shortens skippedToo
      refine ⟨by omega, fun calls bound => ?_⟩
      simp only [enough calls (by omega), ok_bind]
      exact colon

theorem scanScalar_shortens {hooks : Hooks} {fuel : Nat} {b : UInt8} {rest : Bytes}
    {found : Tree × Bytes} (ok : scanScalar hooks fuel b rest = .ok found) :
    found.2.length ≤ rest.length := by
  have literal : ∀ front value, scanLiteral front value rest = .ok found →
      found.2.length ≤ rest.length := by
    intro front value read
    rcases map_eq_ok_iff.mp read with ⟨after, expected, rfl⟩
    exact expect_shortens (orMalformed_eq_ok_iff.mp expected)
  unfold scanScalar at ok
  split_ifs at ok
  · rcases map_eq_ok_iff.mp ok with ⟨name, read, rfl⟩
    exact (scanString_settles read).1.le
  all_goals first
    | exact literal _ _ ok
    | skip
  rcases bind_eq_ok_iff.mp ok with ⟨⟨value, after⟩, read, more⟩
  rcases bind_eq_ok_iff.mp more with ⟨-, -, same⟩
  cases same
  exact readNumber_shortens (orMalformed_eq_ok_iff.mp read)

theorem scanScalar_enough {hooks : Hooks} {fuel calls : Nat} {b : UInt8} {rest : Bytes}
    {found : Tree × Bytes} (ok : scanScalar hooks fuel b rest = .ok found)
    (bound : rest.length ≤ calls + found.2.length) : scanScalar hooks calls b rest = .ok found := by
  by_cases quote : b = 34
  · unfold scanScalar at ok ⊢
    rw [if_pos quote] at ok ⊢
    rcases map_eq_ok_iff.mp ok with ⟨name, read, rfl⟩
    exact map_eq_ok_iff.mpr ⟨name, (scanString_settles read).2 calls bound, rfl⟩
  · unfold scanScalar at ok ⊢
    rw [if_neg quote] at ok ⊢
    exact ok

/-- A scan that succeeds has read some bytes, and as many calls are enough. -/
theorem readers_settle (hooks : Hooks) (fuel : Nat) :
    (∀ levels bytes found, (readers hooks fuel).value levels bytes = .ok found →
      Settles (fun calls => (readers hooks calls).value levels bytes) bytes found) ∧
    (∀ levels bytes found, (readers hooks fuel).items levels bytes = .ok found →
      Settles (fun calls => (readers hooks calls).items levels bytes) bytes found) ∧
    (∀ levels bytes found, (readers hooks fuel).members levels bytes = .ok found →
      Settles (fun calls => (readers hooks calls).members levels bytes) bytes found) := by
  induction fuel with
  | zero => exact ⟨nofun, nofun, nofun⟩
  | succ fuel ih =>
      rcases ih with ⟨values, items, members⟩
      refine ⟨fun levels bytes found ok => ?_, fun levels bytes found ok => ?_,
        fun levels bytes found ok => ?_⟩
      · change scanValue hooks fuel (readers hooks fuel) levels bytes = .ok found at ok
        unfold scanValue at ok
        cases skipped : skipSpace bytes with
        | nil => rw [skipped] at ok; cases ok
        | cons b rest =>
            have less := skipSpace_shortens skipped
            rw [skipped] at ok
            dsimp only at ok
            split_ifs at ok with object array
            · rcases bind_eq_ok_iff.mp ok with ⟨inner, entered, ok⟩
              rcases bind_eq_ok_iff.mp ok with ⟨read, inside, ok⟩
              rcases bind_eq_ok_iff.mp ok with ⟨done, checked, same⟩
              cases same
              rcases opened_settles (fun calls => (readers hooks calls).members inner)
                (fun rest found => members inner rest found) inside with ⟨shorter, enough⟩
              refine Settles.of_succ (by exact shorter.trans less) (fun calls bound => ?_)
              change scanValue hooks calls (readers hooks calls) levels bytes = _
              unfold scanValue
              rw [skipped]
              dsimp only at bound enough ⊢
              rw [if_pos object, entered, ok_bind, enough calls (by omega), ok_bind, checked]
              rfl
            · rcases bind_eq_ok_iff.mp ok with ⟨inner, entered, ok⟩
              rcases bind_eq_ok_iff.mp ok with ⟨read, inside, same⟩
              cases same
              rcases opened_settles (fun calls => (readers hooks calls).items inner)
                (fun rest found => items inner rest found) inside with ⟨shorter, enough⟩
              refine Settles.of_succ (by exact shorter.trans less) (fun calls bound => ?_)
              change scanValue hooks calls (readers hooks calls) levels bytes = _
              unfold scanValue
              rw [skipped]
              dsimp only at bound enough ⊢
              rw [if_neg object, if_pos array, entered, ok_bind, enough calls (by omega)]
              rfl
            · have shorter := scanScalar_shortens ok
              apply Settles.of_succ (by omega)
              intro calls bound
              change scanValue hooks calls (readers hooks calls) levels bytes = _
              unfold scanValue
              rw [skipped]
              dsimp only
              rw [if_neg object, if_neg array]
              exact scanScalar_enough ok (by omega)
      · change scanItems (readers hooks fuel) levels bytes = .ok found at ok
        rcases bind_eq_ok_iff.mp ok with ⟨read, first, ok⟩
        rcases values levels bytes read first with ⟨shorter, enough⟩
        rcases followed_settles (fun calls => (readers hooks calls).items levels)
          (fun rest found => items levels rest found) ok with ⟨less, more⟩
        apply Settles.of_succ (less.trans shorter)
        intro calls bound
        change scanItems (readers hooks calls) levels bytes = _
        have again : (readers hooks calls).value levels bytes = .ok read := enough calls (by omega)
        rw [scanItems, again, ok_bind]
        exact more calls (by omega)
      · change scanMembers fuel (readers hooks fuel) levels bytes = .ok found at ok
        rcases bind_eq_ok_iff.mp ok with ⟨name, named, ok⟩
        rcases bind_eq_ok_iff.mp ok with ⟨read, first, ok⟩
        rcases scanName_settles named with ⟨front, enoughNames⟩
        rcases values levels name.2 read first with ⟨shorter, enough⟩
        rcases followed_settles (fun calls => (readers hooks calls).members levels)
          (fun rest found => members levels rest found) ok with ⟨less, more⟩
        apply Settles.of_succ ((less.trans shorter).trans front)
        intro calls bound
        change scanMembers calls (readers hooks calls) levels bytes = _
        unfold scanMembers
        simp only [enoughNames calls (by omega), ok_bind, enough calls (by omega)]
        exact more calls (by omega)

/-! ## Twice as many calls as bytes -/

/-- Computations that only end with `malformed` are equal when they succeed alike. -/
theorem eq_of_ok_iff {x y : Except Stop α} (left : ∀ stop, x = .error stop → stop = .malformed)
    (right : ∀ stop, y = .error stop → stop = .malformed) (same : ∀ a, x = .ok a ↔ y = .ok a) :
    x = y := by
  cases x with
  | ok a => exact ((same a).mp rfl).symm
  | error stop =>
      cases y with
      | ok a => exact (same a).mpr rfl
      | error other => rw [left stop rfl, right other rfl]

theorem orMalformed_error {x : Option α} {stop : Stop} (failed : orMalformed x = .error stop) :
    stop = .malformed := by
  cases x with
  | none => exact (Except.error.inj failed).symm
  | some a => cases failed

theorem scanName_error {fuel : Nat} {bytes : Bytes} {stop : Stop}
    (failed : scanName fuel bytes = .error stop) : stop = .malformed := by
  unfold scanName at failed
  split at failed
  · exact (Except.error.inj failed).symm
  · split_ifs at failed
    · rcases bind_eq_error_iff.mp failed with unread | ⟨name, -, colon⟩
      · exact orMalformed_error unread
      · split at colon
        · exact (Except.error.inj colon).symm
        · split_ifs at colon
          exact (Except.error.inj colon).symm
    · exact (Except.error.inj failed).symm

theorem scanString_enough {calls larger : Nat} {bytes : Bytes} (enough : bytes.length ≤ calls)
    (more : bytes.length ≤ larger) : scanString larger bytes = scanString calls bytes := by
  apply eq_of_ok_iff (fun _ => orMalformed_error) (fun _ => orMalformed_error)
  exact fun found => ⟨fun ok => (scanString_settles ok).2 calls (Nat.le_add_right_of_le enough),
    fun ok => (scanString_settles ok).2 larger (Nat.le_add_right_of_le more)⟩

theorem scanName_enough {calls larger : Nat} {bytes : Bytes} (enough : bytes.length ≤ calls)
    (more : bytes.length ≤ larger) : scanName larger bytes = scanName calls bytes := by
  apply eq_of_ok_iff (fun _ => scanName_error) (fun _ => scanName_error)
  exact fun found => ⟨fun ok => (scanName_settles ok).2 calls (Nat.le_add_right_of_le enough),
    fun ok => (scanName_settles ok).2 larger (Nat.le_add_right_of_le more)⟩

theorem opened_congr {close : UInt8} {empty : α} {more other : Bytes → Except Stop (α × Bytes)}
    {bytes : Bytes} (same : more (skipSpace bytes) = other (skipSpace bytes)) :
    opened close empty more bytes = opened close empty other bytes := by
  unfold opened
  cases skipped : skipSpace bytes with
  | nil => rw [skipped] at same; exact same
  | cons b rest => rw [skipped] at same; simp only [same]

theorem followed_congr {close : UInt8} {last : α} {more other : Bytes → Except Stop (α × Bytes)}
    {bytes : Bytes} (same : ∀ rest, rest.length < bytes.length → more rest = other rest) :
    followed close last more bytes = followed close last other bytes := by
  unfold followed
  cases skipped : skipSpace bytes with
  | nil => rfl
  | cons b rest => simp only [same rest (skipSpace_shortens skipped)]

/-- Another call makes no difference once there are twice as many as bytes. -/
theorem readers_stable (hooks : Hooks) (fuel : Nat) :
    (∀ levels bytes, 2 * bytes.length + 1 ≤ fuel →
      (readers hooks (fuel + 1)).value levels bytes = (readers hooks fuel).value levels bytes) ∧
    (∀ levels bytes, 2 * bytes.length + 2 ≤ fuel →
      (readers hooks (fuel + 1)).items levels bytes = (readers hooks fuel).items levels bytes) ∧
    (∀ levels bytes, 2 * bytes.length + 2 ≤ fuel →
      (readers hooks (fuel + 1)).members levels bytes =
        (readers hooks fuel).members levels bytes) := by
  induction fuel with
  | zero =>
      exact ⟨fun _ _ bound => absurd bound (by omega), fun _ _ bound => absurd bound (by omega),
        fun _ _ bound => absurd bound (by omega)⟩
  | succ fuel ih =>
      rcases ih with ⟨values, items, members⟩
      refine ⟨fun levels bytes bound => ?_, fun levels bytes bound => ?_,
        fun levels bytes bound => ?_⟩
      · change scanValue hooks (fuel + 1) (readers hooks (fuel + 1)) levels bytes =
          scanValue hooks fuel (readers hooks fuel) levels bytes
        unfold scanValue
        cases skipped : skipSpace bytes with
        | nil => rfl
        | cons b rest =>
            have less := skipSpace_shortens skipped
            have solid : (skipSpace rest).length ≤ rest.length :=
              (List.dropWhile_sublist isSpace).length_le
            have inItems : ∀ inner, opened 93 [] ((readers hooks (fuel + 1)).items inner) rest =
                opened 93 [] ((readers hooks fuel).items inner) rest :=
              fun inner => opened_congr (items inner (skipSpace rest) (by omega))
            have inMembers : ∀ inner,
                opened 125 [] ((readers hooks (fuel + 1)).members inner) rest =
                  opened 125 [] ((readers hooks fuel).members inner) rest :=
              fun inner => opened_congr (members inner (skipSpace rest) (by omega))
            have scalar : scanScalar hooks (fuel + 1) b rest = scanScalar hooks fuel b rest := by
              have strings : scanString (fuel + 1) rest = scanString fuel rest :=
                scanString_enough (by omega) (by omega)
              unfold scanScalar
              rw [strings]
            simp only [inItems, inMembers, scalar]
      · change scanItems (readers hooks (fuel + 1)) levels bytes =
          scanItems (readers hooks fuel) levels bytes
        unfold scanItems
        rw [values levels bytes (by omega)]
        cases first : (readers hooks fuel).value levels bytes with
        | error stop => rfl
        | ok found =>
            have shorter := ((readers_settle hooks fuel).1 levels bytes found first).1
            simp only [ok_bind]
            apply followed_congr
            intro rest less
            rw [items levels rest (by omega)]
      · change scanMembers (fuel + 1) (readers hooks (fuel + 1)) levels bytes =
          scanMembers fuel (readers hooks fuel) levels bytes
        have names : scanName (fuel + 1) bytes = scanName fuel bytes :=
          scanName_enough (by omega) (by omega)
        unfold scanMembers
        rw [names]
        cases named : scanName fuel bytes with
        | error stop => rfl
        | ok name =>
            have front := (scanName_settles named).1
            simp only [ok_bind]
            rw [values levels name.2 (by omega)]
            cases first : (readers hooks fuel).value levels name.2 with
            | error stop => rfl
            | ok found =>
                have shorter := ((readers_settle hooks fuel).1 levels name.2 found first).1
                simp only [ok_bind]
                apply followed_congr
                intro rest less
                rw [members levels rest (by omega)]

/-- The bound a text is scanned with is as good as any larger one. -/
theorem readers_enough (hooks : Hooks) (levels : Option Nat) {bytes : Bytes} {fuel : Nat}
    (within : enough bytes ≤ fuel) : (readers hooks fuel).value levels bytes =
      (readers hooks (enough bytes)).value levels bytes := by
  induction fuel, within using Nat.le_induction with
  | base => rfl
  | succ fuel within ih =>
      unfold enough at within
      rw [(readers_stable hooks fuel).1 levels bytes (by omega), ih]

end

/-! ## What hooks refuse -/

/-- No hooks and no limit. -/
def free : Hooks := ⟨none, fun _ => true, fun _ => true⟩

mutual
/-- What has been scanned passes the hooks. -/
def Tree.conforms (hooks : Hooks) : Tree → Bool
  | .null => true
  | .bool _ => true
  | .number value => hooks.number value
  | .constant _ => true
  | .string _ => true
  | .array items => conformsItems hooks items
  | .object members => conformsMembers hooks members && hooks.names (members.map Prod.fst)

def Tree.conformsItems (hooks : Hooks) : List Tree → Bool
  | [] => true
  | item :: items => item.conforms hooks && conformsItems hooks items

def Tree.conformsMembers (hooks : Hooks) : List (Bytes × Tree) → Bool
  | [] => true
  | (_, value) :: members => value.conforms hooks && conformsMembers hooks members
end

section

variable {α β : Type}

/-- A scan under hooks next to the scan without: it reads the same, and that
passes, or nothing that passes is read without hooks, or it was too deep. -/
def Follows (p : α → Bool) (hooked plain : Except Stop α) : Prop :=
  match hooked with
  | .ok found => plain = .ok found ∧ p found = true
  | .error .recursion => True
  | .error _ => ∀ found, plain = .ok found → p found = false

theorem follows_self (p : α → Bool) (x : Except Stop α) (all : ∀ a, x = .ok a → p a = true) :
    Follows p x x := by
  cases x with
  | ok found => exact ⟨rfl, all found rfl⟩
  | error stop =>
      cases stop with
      | recursion => trivial
      | malformed => exact nofun
      | violation => exact nofun

/-- What comes after a scan that follows another follows what comes after the other. -/
theorem Follows.bind {p : α → Bool} {q : β → Bool} {hooked plain : Except Stop α}
    {next after : α → Except Stop β} (first : Follows p hooked plain)
    (rest : ∀ a, plain = .ok a → p a = true → Follows q (next a) (after a))
    (part : ∀ a b, plain = .ok a → after a = .ok b → q b = true → p a = true) :
    Follows q (hooked >>= next) (plain >>= after) := by
  have refused : (∀ a, plain = .ok a → p a = false) →
      ∀ b, (plain >>= after) = .ok b → q b = false := by
    intro none b read
    rcases bind_eq_ok_iff.mp read with ⟨a, found, read⟩
    by_contra passes
    have whole := part a b found read (by simpa using passes)
    rw [none a found] at whole
    cases whole
  cases hooked with
  | ok a =>
      rcases first with ⟨found, passes⟩
      rw [found, ok_bind, ok_bind]
      exact rest a found passes
  | error stop =>
      cases stop with
      | recursion => trivial
      | malformed => exact refused first
      | violation => exact refused first

theorem Follows.map {p : α → Bool} {q : β → Bool} {f : α → β} {hooked plain : Except Stop α}
    (same : ∀ a, q (f a) = p a) (first : Follows p hooked plain) :
    Follows q (hooked.map f) (plain.map f) := by
  have refused : (∀ a, plain = .ok a → p a = false) →
      ∀ b, plain.map f = .ok b → q b = false := by
    intro none b read
    rcases map_eq_ok_iff.mp read with ⟨a, found, rfl⟩
    rw [same, none a found]
  cases hooked with
  | ok a =>
      rcases first with ⟨rfl, passes⟩
      exact ⟨rfl, (same a).trans passes⟩
  | error stop =>
      cases stop with
      | recursion => trivial
      | malformed => exact refused first
      | violation => exact refused first

theorem Follows.opened {p : α × Bytes → Bool} {close : UInt8} {empty : α}
    {more other : Bytes → Except Stop (α × Bytes)} {bytes : Bytes}
    (inner : ∀ rest, Follows p (more rest) (other rest)) (none : ∀ rest, p (empty, rest) = true) :
    Follows p (opened close empty more bytes) (opened close empty other bytes) := by
  unfold Scanner.opened
  cases skipSpace bytes with
  | nil => exact inner []
  | cons b rest =>
      dsimp only
      split_ifs
      · exact ⟨rfl, none rest⟩
      · exact inner (b :: rest)

theorem Follows.followed {p : α × Bytes → Bool} {close : UInt8} {last : α}
    {more other : Bytes → Except Stop (α × Bytes)} {bytes : Bytes}
    (inner : ∀ rest, Follows p (more rest) (other rest)) (alone : ∀ rest, p (last, rest) = true) :
    Follows p (followed close last more bytes) (followed close last other bytes) := by
  unfold Scanner.followed
  cases skipSpace bytes with
  | nil => exact nofun
  | cons b rest =>
      dsimp only
      split_ifs
      · exact ⟨rfl, alone rest⟩
      · exact inner rest
      · exact nofun

end

theorem scanScalar_follows (hooks : Hooks) (fuel : Nat) (b : UInt8) (rest : Bytes) :
    Follows (fun found => found.1.conforms hooks) (scanScalar hooks fuel b rest)
      (scanScalar free fuel b rest) := by
  have literal : ∀ front value, value.conforms hooks = true →
      Follows (fun found => found.1.conforms hooks) (scanLiteral front value rest)
        (scanLiteral front value rest) := by
    intro front value passes
    apply follows_self
    intro found read
    rcases map_eq_ok_iff.mp read with ⟨after, -, rfl⟩
    exact passes
  unfold scanScalar
  split_ifs
  · apply follows_self
    intro found read
    rcases map_eq_ok_iff.mp read with ⟨name, -, rfl⟩
    rfl
  all_goals first
    | exact literal _ _ rfl
    | skip
  unfold scanNumber
  cases readNumber (b :: rest) with
  | none => exact nofun
  | some found =>
      simp only [orMalformed, ok_bind, free, ensure_true]
      cases passes : hooks.number found.1 with
      | true => exact ⟨rfl, passes⟩
      | false =>
          intro other same
          cases same
          exact passes

/-- Under hooks and a limit the same is read, if it passes and was not too deep. -/
theorem readers_follow (hooks : Hooks) (fuel : Nat) :
    (∀ levels bytes, Follows (fun found => found.1.conforms hooks)
      ((readers hooks fuel).value levels bytes) ((readers free fuel).value none bytes)) ∧
    (∀ levels bytes, Follows (fun found => Tree.conformsItems hooks found.1)
      ((readers hooks fuel).items levels bytes) ((readers free fuel).items none bytes)) ∧
    (∀ levels bytes, Follows (fun found => Tree.conformsMembers hooks found.1)
      ((readers hooks fuel).members levels bytes) ((readers free fuel).members none bytes)) := by
  induction fuel with
  | zero => exact ⟨fun _ _ => nofun, fun _ _ => nofun, fun _ _ => nofun⟩
  | succ fuel ih =>
      rcases ih with ⟨values, items, members⟩
      refine ⟨fun levels bytes => ?_, fun levels bytes => ?_, fun levels bytes => ?_⟩
      · change Follows _ (scanValue hooks fuel (readers hooks fuel) levels bytes)
          (scanValue free fuel (readers free fuel) none bytes)
        unfold scanValue
        cases skipSpace bytes with
        | nil => exact nofun
        | cons b rest =>
            dsimp only
            split_ifs with object array
            · cases entered : enter levels with
              | error stop =>
                  cases levels with
                  | none => cases entered
                  | some levels => cases levels <;> cases entered; trivial
              | ok inner =>
                  simp only [enter, ok_bind]
                  apply Follows.bind
                    (Follows.opened (fun rest => members inner rest) (fun _ => rfl))
                  · intro found read passes
                    simp only [free, ensure_true, ok_bind]
                    cases named : hooks.names (found.1.map Prod.fst) with
                    | true => exact ⟨rfl, by simp [Tree.conforms, passes, named]⟩
                    | false =>
                        intro other same
                        cases same
                        simp [Tree.conforms, named]
                  · intro found other read same passes
                    cases same
                    simp only [Tree.conforms, Bool.and_eq_true] at passes
                    exact passes.1
            · cases entered : enter levels with
              | error stop =>
                  cases levels with
                  | none => cases entered
                  | some levels => cases levels <;> cases entered; trivial
              | ok inner =>
                  simp only [enter, ok_bind]
                  have inside : Follows (fun found => Tree.conformsItems hooks found.1)
                      (opened 93 [] ((readers hooks fuel).items inner) rest)
                      (opened 93 [] ((readers free fuel).items none) rest) :=
                    Follows.opened (fun rest => items inner rest) (fun _ => rfl)
                  apply Follows.map ?_ inside
                  exact fun _ => rfl
            · exact scanScalar_follows hooks fuel b rest
      · change Follows _ (scanItems (readers hooks fuel) levels bytes)
          (scanItems (readers free fuel) none bytes)
        unfold scanItems
        apply Follows.bind (values levels bytes)
        · intro found read passes
          apply Follows.followed
          · intro rest
            exact Follows.map (fun more => by simp only [Tree.conformsItems, passes, Bool.true_and])
              (items levels rest)
          · intro rest
            simp only [Tree.conformsItems, passes, Bool.true_and]
        · intro found other read same passes
          rcases followed_eq_ok_iff.mp same with ⟨rest, -, rfl⟩ | ⟨rest, -, -, more⟩
          · simp only [Tree.conformsItems, Bool.and_true] at passes
            exact passes
          · rcases map_eq_ok_iff.mp more with ⟨tail, -, rfl⟩
            simp only [Tree.conformsItems, Bool.and_eq_true] at passes
            exact passes.1
      · change Follows _ (scanMembers fuel (readers hooks fuel) levels bytes)
          (scanMembers fuel (readers free fuel) none bytes)
        unfold scanMembers
        cases scanName fuel bytes with
        | error stop =>
            cases stop with
            | recursion => trivial
            | malformed => exact nofun
            | violation => exact nofun
        | ok name =>
            simp only [ok_bind]
            apply Follows.bind (values levels name.2)
            · intro found read passes
              apply Follows.followed
              · intro rest
                exact Follows.map
                  (fun more => by simp only [Tree.conformsMembers, passes, Bool.true_and])
                  (members levels rest)
              · intro rest
                simp only [Tree.conformsMembers, passes, Bool.true_and]
            · intro found other read same passes
              rcases followed_eq_ok_iff.mp same with ⟨rest, -, rfl⟩ | ⟨rest, -, -, more⟩
              · simp only [Tree.conformsMembers, Bool.and_true] at passes
                exact passes
              · rcases map_eq_ok_iff.mp more with ⟨tail, -, rfl⟩
                simp only [Tree.conformsMembers, Bool.and_eq_true] at passes
                exact passes.1

/-- A text is scanned under hooks and a limit as without them. -/
theorem scanText_follows (hooks : Hooks) (text : Bytes) :
    Follows (fun tree => tree.conforms hooks) (scanText hooks text) (scanText free text) := by
  unfold scanText
  apply Follows.bind ((readers_follow hooks (enough text)).1 hooks.levels text)
  · intro found read passes
    cases blank : found.2.all isSpace with
    | true => exact ⟨rfl, passes⟩
    | false => exact nofun
  · intro found other read same passes
    rcases bind_eq_ok_iff.mp same with ⟨-, -, same⟩
    cases same
    exact passes

end Scanner
end CapsuleEmit
