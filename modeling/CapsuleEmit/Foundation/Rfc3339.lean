import CapsuleEmit.Foundation.Calendar
import CapsuleEmit.Foundation.Json

namespace CapsuleEmit
namespace Rfc3339

/-!
# Date-times as text

A date-time is a date, a time of day with up to nine fraction digits, and `Z` or an
offset of hours and minutes.  Its parts are kept as the digits that are written, so
that a text is that of one date-time.  What it denotes is an instant, counted from
the beginning of 1970.
-/

open Calendar (Date)

/-! ## Digits -/

instance tenNeZero : NeZero 10 := ⟨by decide⟩

abbrev Two := Fin 10 × Fin 10

abbrev Four := Two × Two

def two (digits : Two) : Nat := 10 * digits.1 + digits.2

def four (digits : Four) : Nat := 100 * two digits.1 + two digits.2

/-- The byte that writes a digit. -/
def byte (digit : Fin 10) : UInt8 := UInt8.ofNat (48 + digit)

/-- The digit a byte writes. -/
def digit? (b : UInt8) : Option (Fin 10) :=
  if isDigit b then some (Fin.ofNat 10 (b.toNat - 48)) else none

theorem isDigit_iff {b : UInt8} : isDigit b = true ↔ 48 ≤ b.toNat ∧ b.toNat ≤ 57 := by
  rw [isDigit, Bool.and_eq_true, decide_eq_true_eq, decide_eq_true_eq, UInt8.le_iff_toNat_le,
    UInt8.le_iff_toNat_le]
  rfl

theorem toNat_byte (digit : Fin 10) : (byte digit).toNat = 48 + digit := by
  revert digit
  decide

theorem isDigit_byte (digit : Fin 10) : isDigit (byte digit) = true := by
  revert digit
  decide

@[simp] theorem digit?_byte (digit : Fin 10) : digit? (byte digit) = some digit := by
  revert digit
  decide

theorem byte_of_digit? {b : UInt8} {digit : Fin 10} (read : digit? b = some digit) :
    b = byte digit := by
  unfold digit? at read
  split at read
  · next written =>
      rw [isDigit_iff] at written
      apply UInt8.toNat_inj.mp
      rw [toNat_byte, ← Option.some.inj read, Fin.val_ofNat]
      omega
  · cases read

/-! ## Date-times -/

/-- The hours and minutes of an offset, and whether it is ahead. -/
structure Offset where
  ahead : Bool
  hours : Two
  minutes : Two
deriving DecidableEq, Repr

/-- A date-time as it is written; without an offset it ends in `Z`. -/
structure Stamp where
  year : Four
  month : Two
  day : Two
  hour : Two
  minute : Two
  second : Two
  fraction : List (Fin 10)
  zone : Option Offset
deriving DecidableEq, Repr

def twoBytes (digits : Two) : Bytes := [byte digits.1, byte digits.2]

def fourBytes (digits : Four) : Bytes := twoBytes digits.1 ++ twoBytes digits.2

def fractionBytes (fraction : List (Fin 10)) : Bytes :=
  if fraction = [] then [] else 46 :: fraction.map byte

def zoneBytes : Option Offset → Bytes
  | none => [90]
  | some offset => (if offset.ahead then 43 else 45) ::
      (twoBytes offset.hours ++ 58 :: twoBytes offset.minutes)

/-- The text of a date-time. -/
def Stamp.text (stamp : Stamp) : Bytes :=
  fourBytes stamp.year ++ 45 :: (twoBytes stamp.month ++ 45 :: (twoBytes stamp.day ++
    84 :: (twoBytes stamp.hour ++ 58 :: (twoBytes stamp.minute ++ 58 :: (twoBytes stamp.second ++
      (fractionBytes stamp.fraction ++ zoneBytes stamp.zone))))))

def Stamp.date (stamp : Stamp) : Date := ⟨four stamp.year, two stamp.month, two stamp.day⟩

/-- The hours and minutes of an offset are in their ranges. -/
def Ranged (zone : Option Offset) : Prop :=
  ∀ offset, zone = some offset → two offset.hours ≤ 23 ∧ two offset.minutes ≤ 59

/-- Every part of a date-time is in its range, and its date is one of the calendar. -/
structure Stamp.Real (stamp : Stamp) : Prop where
  date : stamp.date.Real
  hour : two stamp.hour ≤ 23
  minute : two stamp.minute ≤ 59
  second : two stamp.second ≤ 59
  zone : Ranged stamp.zone

/-! ## Instants -/

/-- The minutes an offset is ahead of UTC. -/
def zoneMinutes : Option Offset → Int
  | none => 0
  | some offset =>
      let minutes : Int := 60 * two offset.hours + two offset.minutes
      if offset.ahead then minutes else -minutes

/-- The number of the first day of 1970. -/
def epochDay : Int := (⟨1970, 1, 1⟩ : Date).number

/-- The whole seconds from the beginning of 1970 to a date-time. -/
def Stamp.seconds (stamp : Stamp) : Int :=
  (stamp.date.number - epochDay) * 86400 + two stamp.hour * 3600 + two stamp.minute * 60 +
    two stamp.second - zoneMinutes stamp.zone * 60

/-- The number of the first fraction digits, padded with zeros. -/
def leading (fraction : List (Fin 10)) : Nat → Nat
  | 0 => 0
  | k + 1 => 10 * leading fraction k + (fraction[k]?.getD 0).val

/-- The nanoseconds from the beginning of 1970 to a date-time. -/
def Stamp.nanoseconds (stamp : Stamp) : Int := stamp.seconds * 1000000000 + leading stamp.fraction 9

/-- The microseconds, finer digits cut off. -/
def Stamp.microseconds (stamp : Stamp) : Int := stamp.seconds * 1000000 + leading stamp.fraction 6

theorem leading_lt (fraction : List (Fin 10)) (k : Nat) : leading fraction k < 10 ^ k := by
  induction k with
  | zero => exact Nat.one_pos
  | succ k ih =>
      have digit := (fraction[k]?.getD 0).isLt
      rw [leading, Nat.pow_succ]
      omega

/-- Microseconds are nanoseconds with three digits cut off. -/
theorem Stamp.microseconds_eq (stamp : Stamp) : stamp.microseconds = stamp.nanoseconds / 1000 := by
  have seventh := (stamp.fraction[6]?.getD 0).isLt
  have eighth := (stamp.fraction[7]?.getD 0).isLt
  have ninth := (stamp.fraction[8]?.getD 0).isLt
  have digits : leading stamp.fraction 9 = 10 * (10 * (10 * leading stamp.fraction 6 +
      (stamp.fraction[6]?.getD 0).val) + (stamp.fraction[7]?.getD 0).val) +
      (stamp.fraction[8]?.getD 0).val := rfl
  unfold microseconds nanoseconds
  omega

/-! ## Reading -/

def readTwo : Bytes → Option (Two × Bytes)
  | a :: b :: rest => (digit? a).bind (fun x => (digit? b).map (fun y => ((x, y), rest)))
  | _ => none

def readFour (bytes : Bytes) : Option (Four × Bytes) :=
  (readTwo bytes).bind (fun first =>
    (readTwo first.2).map (fun second => ((first.1, second.1), second.2)))

def readByte (b : UInt8) : Bytes → Option Bytes
  | c :: rest => if c = b then some rest else none
  | [] => none

def readDigits : Bytes → List (Fin 10) × Bytes
  | [] => ([], [])
  | b :: rest =>
      match digit? b with
      | none => ([], b :: rest)
      | some digit => (digit :: (readDigits rest).1, (readDigits rest).2)

/-- An optional point and one to nine digits. -/
def readFraction (bytes : Bytes) : Option (List (Fin 10) × Bytes) :=
  match readByte 46 bytes with
  | none => some ([], bytes)
  | some tail =>
      let found := readDigits tail
      if 1 ≤ found.1.length ∧ found.1.length ≤ 9 then some found else none

/-- `Z` or an offset, and nothing after it. -/
def readZone (bytes : Bytes) : Option (Option Offset) :=
  if bytes = [90] then some none
  else
    match bytes with
    | [] => none
    | sign :: rest =>
        if sign = 43 ∨ sign = 45 then do
          let (hours, rest) ← readTwo rest
          let rest ← readByte 58 rest
          let (minutes, rest) ← readTwo rest
          if rest = [] then some (some ⟨sign = 43, hours, minutes⟩) else none
        else none

/-- The date-time a text is of. -/
def Stamp.read (bytes : Bytes) : Option Stamp := do
  let (year, bytes) ← readFour bytes
  let bytes ← readByte 45 bytes
  let (month, bytes) ← readTwo bytes
  let bytes ← readByte 45 bytes
  let (day, bytes) ← readTwo bytes
  let bytes ← readByte 84 bytes
  let (hour, bytes) ← readTwo bytes
  let bytes ← readByte 58 bytes
  let (minute, bytes) ← readTwo bytes
  let bytes ← readByte 58 bytes
  let (second, bytes) ← readTwo bytes
  let (fraction, bytes) ← readFraction bytes
  let zone ← readZone bytes
  return ⟨year, month, day, hour, minute, second, fraction, zone⟩

theorem readTwo_eq_some_iff {bytes rest : Bytes} {digits : Two} :
    readTwo bytes = some (digits, rest) ↔ bytes = twoBytes digits ++ rest := by
  constructor
  · intro found
    unfold readTwo at found
    split at found
    · next a b tail =>
        rcases Option.bind_eq_some_iff.mp found with ⟨x, first, found⟩
        rcases Option.map_eq_some_iff.mp found with ⟨y, second, pair⟩
        cases pair
        rw [byte_of_digit? first, byte_of_digit? second]
        rfl
    · cases found
  · rintro rfl
    simp [twoBytes, readTwo]

theorem readFour_eq_some_iff {bytes rest : Bytes} {digits : Four} :
    readFour bytes = some (digits, rest) ↔ bytes = fourBytes digits ++ rest := by
  unfold readFour
  rw [Option.bind_eq_some_iff]
  constructor
  · rintro ⟨⟨first, middle⟩, one, found⟩
    rcases Option.map_eq_some_iff.mp found with ⟨⟨second, tail⟩, other, pair⟩
    cases pair
    have middle' : middle = twoBytes second ++ tail := readTwo_eq_some_iff.mp other
    rw [readTwo_eq_some_iff.mp one, middle', fourBytes, List.append_assoc]
  · rintro rfl
    refine ⟨(digits.1, twoBytes digits.2 ++ rest), readTwo_eq_some_iff.mpr ?_, ?_⟩
    · rw [fourBytes, List.append_assoc]
    · rw [readTwo_eq_some_iff.mpr rfl]
      rfl

theorem readByte_eq_some_iff {b : UInt8} {bytes rest : Bytes} :
    readByte b bytes = some rest ↔ bytes = b :: rest := by
  cases bytes with
  | nil => simp [readByte]
  | cons c tail => simp [readByte]

/-- The text does not go on with a digit. -/
def NoDigit (rest : Bytes) : Prop := ∀ b tail, rest = b :: tail → isDigit b = false

theorem readDigits_eq_iff {bytes rest : Bytes} {digits : List (Fin 10)} :
    readDigits bytes = (digits, rest) ↔ bytes = digits.map byte ++ rest ∧ NoDigit rest := by
  induction bytes generalizing digits with
  | nil =>
      rw [readDigits, Prod.mk.injEq]
      constructor
      · rintro ⟨rfl, rfl⟩
        exact ⟨rfl, nofun⟩
      · rintro ⟨same, -⟩
        have empty := List.append_eq_nil_iff.mp same.symm
        exact ⟨(List.map_eq_nil_iff.mp empty.1).symm, empty.2.symm⟩
  | cons b bytes ih =>
      rw [readDigits]
      cases written : digit? b with
      | none =>
          have other : isDigit b = false := by
            rw [digit?] at written
            split at written
            · cases written
            · next notDigit => exact Bool.eq_false_iff.mpr notDigit
          simp only [Prod.mk.injEq]
          constructor
          · rintro ⟨rfl, rfl⟩
            exact ⟨rfl, fun c tail same => (List.cons.inj same).1 ▸ other⟩
          · rintro ⟨same, -⟩
            cases digits with
            | nil => exact ⟨rfl, same⟩
            | cons digit digits =>
                rw [(List.cons.inj same).1, isDigit_byte] at other
                cases other
      | some digit =>
          simp only [Prod.mk.injEq]
          constructor
          · rintro ⟨rfl, rfl⟩
            rcases ih.mp rfl with ⟨same, ends⟩
            refine ⟨?_, ends⟩
            rw [List.map_cons, List.cons_append, ← same, byte_of_digit? written]
          · rintro ⟨same, ends⟩
            cases digits with
            | nil =>
                have notDigit := ends b bytes same.symm
                rw [byte_of_digit? written, isDigit_byte] at notDigit
                cases notDigit
            | cons first digits =>
                rw [List.map_cons, List.cons_append, List.cons.injEq] at same
                rw [same.1, digit?_byte] at written
                rw [ih.mpr ⟨same.2, ends⟩, Option.some.inj written]
                exact ⟨rfl, rfl⟩

theorem readFraction_sound {bytes rest : Bytes} {fraction : List (Fin 10)}
    (found : readFraction bytes = some (fraction, rest)) :
    fraction.length ≤ 9 ∧ bytes = fractionBytes fraction ++ rest := by
  unfold readFraction at found
  split at found
  · cases found
    exact ⟨Nat.zero_le 9, rfl⟩
  · next tail point =>
      dsimp only at found
      split at found
      · next few =>
          have split := Option.some.inj found
          rw [split] at few
          have digits := (readDigits_eq_iff.mp split).1
          have written : fraction ≠ [] := by
            rintro rfl
            cases few.1
          refine ⟨few.2, ?_⟩
          rw [readByte_eq_some_iff.mp point, digits, fractionBytes, if_neg written]
          rfl
      · cases found

theorem readFraction_text {fraction : List (Fin 10)} {rest : Bytes} (few : fraction.length ≤ 9)
    (ends : NoDigit rest) (noPoint : readByte 46 rest = none) :
    readFraction (fractionBytes fraction ++ rest) = some (fraction, rest) := by
  unfold readFraction fractionBytes
  cases fraction with
  | nil => simp [noPoint]
  | cons digit fraction =>
      rw [if_neg (List.cons_ne_nil digit fraction), List.cons_append,
        readByte_eq_some_iff.mpr rfl]
      simp only [readDigits_eq_iff.mpr ⟨rfl, ends⟩]
      exact if_pos ⟨Nat.le_add_left 1 _, few⟩

theorem readZone_eq_some_iff {bytes : Bytes} {zone : Option Offset} :
    readZone bytes = some zone ↔ bytes = zoneBytes zone := by
  constructor
  · intro found
    unfold readZone at found
    split at found
    · next z =>
        cases found
        exact z
    · split at found
      · cases found
      · next sign rest _ =>
          split at found
          · next signed =>
              simp only [Option.bind_eq_bind, Option.bind_eq_some_iff] at found
              rcases found with ⟨⟨hours, rest₁⟩, readHours, rest₂, colon, ⟨minutes, rest₃⟩,
                readMinutes, last⟩
              split at last
              · next ended =>
                  have hours' := readTwo_eq_some_iff.mp readHours
                  have colon' : rest₁ = 58 :: rest₂ := readByte_eq_some_iff.mp colon
                  have minutes' := readTwo_eq_some_iff.mp readMinutes
                  cases last
                  subst ended
                  rw [hours', colon', minutes', List.append_nil]
                  rcases signed with plus | minus
                  · rw [plus]
                    rfl
                  · rw [minus]
                    rfl
              · cases last
          · cases found
  · rintro rfl
    cases zone with
    | none => rfl
    | some offset =>
        rcases offset with ⟨ahead, hours, minutes⟩
        have noZ : zoneBytes (some ⟨ahead, hours, minutes⟩) ≠ [90] := by
          intro same
          have lengths := congrArg List.length same
          simp [zoneBytes, twoBytes] at lengths
        have read : ∀ rest, readTwo (twoBytes hours ++ rest) = some (hours, rest) :=
          fun rest => readTwo_eq_some_iff.mpr rfl
        have read' : readTwo (twoBytes minutes) = some (minutes, []) :=
          readTwo_eq_some_iff.mpr (List.append_nil _).symm
        unfold readZone
        rw [if_neg noZ]
        cases ahead with
        | true => simp [zoneBytes, read, read', readByte]
        | false => simp [zoneBytes, read, read', readByte]

theorem noDigit_zoneBytes (zone : Option Offset) : NoDigit (zoneBytes zone) := by
  intro b tail same
  cases zone with
  | none =>
      cases same
      rfl
  | some offset =>
      rcases offset with ⟨ahead, hours, minutes⟩
      cases ahead with
      | true =>
          cases same
          rfl
      | false =>
          cases same
          rfl

theorem noPoint_zoneBytes (zone : Option Offset) : readByte 46 (zoneBytes zone) = none := by
  cases zone with
  | none => rfl
  | some offset =>
      rcases offset with ⟨ahead, hours, minutes⟩
      cases ahead with
      | true => rfl
      | false => rfl

/-- A text is read when it is that of a date-time with at most nine fraction digits. -/
theorem Stamp.read_eq_some_iff {bytes : Bytes} {stamp : Stamp} :
    Stamp.read bytes = some stamp ↔ stamp.fraction.length ≤ 9 ∧ bytes = stamp.text := by
  constructor
  · intro found
    simp only [Stamp.read, Option.bind_eq_bind, Option.bind_eq_some_iff, readByte_eq_some_iff]
      at found
    rcases found with ⟨⟨year, rest₁⟩, readYear, rest₂, dash, ⟨month, rest₃⟩, readMonth, rest₄,
      dash', ⟨day, rest₅⟩, readDay, rest₆, letter, ⟨hour, rest₇⟩, readHour, rest₈, colon,
      ⟨minute, rest₉⟩, readMinute, rest₁₀, colon', ⟨second, rest₁₁⟩, readSecond,
      ⟨fraction, rest₁₂⟩, fractional, zone, zoned, made⟩
    cases made
    rw [readFour_eq_some_iff] at readYear
    rw [readTwo_eq_some_iff] at readMonth readDay readHour readMinute readSecond
    rw [readZone_eq_some_iff] at zoned
    rcases readFraction_sound fractional with ⟨few, fractional⟩
    dsimp only at *
    refine ⟨few, ?_⟩
    rw [readYear, dash, readMonth, dash', readDay, letter, readHour, colon, readMinute, colon',
      readSecond, fractional, zoned]
    rfl
  · rintro ⟨few, rfl⟩
    simp only [Stamp.read, Stamp.text, Option.bind_eq_bind, Option.bind_eq_some_iff,
      readByte_eq_some_iff]
    refine ⟨_, readFour_eq_some_iff.mpr rfl, _, rfl, _, readTwo_eq_some_iff.mpr rfl, _, rfl,
      _, readTwo_eq_some_iff.mpr rfl, _, rfl, _, readTwo_eq_some_iff.mpr rfl, _, rfl,
      _, readTwo_eq_some_iff.mpr rfl, _, rfl, _, readTwo_eq_some_iff.mpr rfl,
      _, readFraction_text few (noDigit_zoneBytes _) (noPoint_zoneBytes _),
      _, readZone_eq_some_iff.mpr rfl, rfl⟩

/-- The text is that of a real date-time with at most nine fraction digits. -/
def Denotes (s : String) (stamp : Stamp) : Prop :=
  stamp.fraction.length ≤ 9 ∧ utf8 s = stamp.text ∧ stamp.Real

/-- A text denotes one date-time. -/
theorem Denotes.unique {s : String} {one other : Stamp} (left : Denotes s one)
    (right : Denotes s other) : one = other := by
  have read := Stamp.read_eq_some_iff.mpr ⟨left.1, left.2.1⟩
  rw [Stamp.read_eq_some_iff.mpr ⟨right.1, right.2.1⟩] at read
  exact (Option.some.inj read).symm

/-! ## Writing -/

def twoOf (n : Nat) : Two := (Fin.ofNat 10 (n / 10), Fin.ofNat 10 n)

def fourOf (n : Nat) : Four := (twoOf (n / 10 / 10), twoOf n)

theorem two_twoOf {n : Nat} (small : n < 100) : two (twoOf n) = n := by
  simp only [two, twoOf, Fin.val_ofNat]
  omega

theorem four_fourOf {n : Nat} (small : n < 10000) : four (fourOf n) = n := by
  simp only [four, fourOf, two, twoOf, Fin.val_ofNat]
  omega

/-- The last digits of a number. -/
def lastDigits : Nat → Nat → List (Fin 10)
  | 0, _ => []
  | k + 1, n => lastDigits k (n / 10) ++ [Fin.ofNat 10 n]

@[simp] theorem length_lastDigits (k n : Nat) : (lastDigits k n).length = k := by
  induction k generalizing n with
  | zero => rfl
  | succ k ih => rw [lastDigits, List.length_append, ih, List.length_singleton]

/-- The first digits of a fraction, padded with zeros. -/
def firstDigits (fraction : List (Fin 10)) (k : Nat) : List (Fin 10) :=
  (List.range k).map (fun i => fraction[i]?.getD 0)

theorem firstDigits_succ (fraction : List (Fin 10)) (k : Nat) :
    firstDigits fraction (k + 1) = firstDigits fraction k ++ [fraction[k]?.getD 0] := by
  rw [firstDigits, List.range_succ, List.map_append]
  rfl

@[simp] theorem lastDigits_leading (fraction : List (Fin 10)) (k : Nat) :
    lastDigits k (leading fraction k) = firstDigits fraction k := by
  induction k with
  | zero => rfl
  | succ k ih =>
      have digit := (fraction[k]?.getD 0).isLt
      have front : (10 * leading fraction k + (fraction[k]?.getD 0).val) / 10 =
          leading fraction k := by omega
      have last : Fin.ofNat 10 (10 * leading fraction k + (fraction[k]?.getD 0).val) =
          fraction[k]?.getD 0 := by
        apply Fin.ext
        rw [Fin.val_ofNat]
        omega
      rw [lastDigits, leading, front, last, ih, firstDigits_succ]

theorem leading_eq_zero_iff (fraction : List (Fin 10)) (k : Nat) :
    leading fraction k = 0 ↔ ∀ digit ∈ firstDigits fraction k, digit = 0 := by
  induction k with
  | zero => simp [leading, firstDigits]
  | succ k ih =>
      have digit : (fraction[k]?.getD 0).val = 0 ↔ fraction[k]?.getD 0 = 0 := Fin.val_eq_zero_iff
      rw [leading, firstDigits_succ, Nat.add_eq_zero_iff, Nat.mul_eq_zero, digit, ih]
      simp [or_imp, forall_and]

/-- The date-time of an instant given in seconds. -/
def Stamp.ofSeconds (seconds : Int) (fraction : List (Fin 10)) : Stamp :=
  let date := Date.ofNumber (seconds / 86400 + epochDay)
  let clock := (seconds % 86400).toNat
  ⟨fourOf date.year.toNat, twoOf date.month, twoOf date.day, twoOf (clock / 3600),
    twoOf (clock / 60 % 60), twoOf (clock % 60), fraction, none⟩

/-- Seconds that fall in the years 0 to 9999. -/
def InYears (seconds : Int) : Prop :=
  0 ≤ (Date.ofNumber (seconds / 86400 + epochDay)).year ∧
    (Date.ofNumber (seconds / 86400 + epochDay)).year ≤ 9999

theorem Stamp.date_ofSeconds {seconds : Int} (within : InYears seconds)
    (fraction : List (Fin 10)) :
    (Stamp.ofSeconds seconds fraction).date = Date.ofNumber (seconds / 86400 + epochDay) := by
  have real := Calendar.real_ofNumber (seconds / 86400 + epochDay)
  have month := real.month
  have day := real.day
  have long := Calendar.monthLength_le (Date.ofNumber (seconds / 86400 + epochDay)).year
    (Date.ofNumber (seconds / 86400 + epochDay)).month
  unfold InYears at within
  simp only [Stamp.date, Stamp.ofSeconds]
  rw [four_fourOf (by omega), two_twoOf (by omega), two_twoOf (by omega),
    Int.toNat_of_nonneg within.1]

theorem Stamp.real_ofSeconds {seconds : Int} (within : InYears seconds)
    (fraction : List (Fin 10)) : (Stamp.ofSeconds seconds fraction).Real := by
  refine ⟨?_, ?_, ?_, ?_, nofun⟩
  · rw [Stamp.date_ofSeconds within]
    exact Calendar.real_ofNumber _
  · simp only [Stamp.ofSeconds]
    rw [two_twoOf (by omega)]
    omega
  · simp only [Stamp.ofSeconds]
    rw [two_twoOf (by omega)]
    omega
  · simp only [Stamp.ofSeconds]
    rw [two_twoOf (by omega)]
    omega

theorem Stamp.seconds_ofSeconds {seconds : Int} (within : InYears seconds)
    (fraction : List (Fin 10)) : (Stamp.ofSeconds seconds fraction).seconds = seconds := by
  rw [Stamp.seconds, Stamp.date_ofSeconds within, Calendar.number_ofNumber]
  simp only [Stamp.ofSeconds, zoneMinutes]
  rw [two_twoOf (by omega), two_twoOf (by omega), two_twoOf (by omega)]
  omega

end Rfc3339
end CapsuleEmit
