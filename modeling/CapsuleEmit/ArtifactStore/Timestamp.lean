import CapsuleEmit.ArtifactStore.Index
import CapsuleEmit.Foundation.Rfc3339
import Mathlib.Tactic.IntervalCases

namespace CapsuleEmit
namespace ArtifactStore

/-!
# The timestamps of the index

The index reads a timestamp by places: five separators at fixed places, six
fields of digits between them, a fraction of any length up to nine, and what
is left as the offset.  It counts days with a closed formula.

A text is accepted when it is that of a real date-time, and its value is the
instant of that date-time in whole microseconds, so later timestamps never
have smaller values.
-/

open Calendar (Date daysBeforeYear daysBeforeMonth monthLength monthLengths isLeap)
open Rfc3339

/-! ## Days -/

theorem daysIn_eq {month : Nat} (within : 1 ≤ month ∧ month ≤ 12) (year : Int) :
    daysIn year month = monthLength year month := by
  have leap : (year % 4 = 0 ∧ (year % 100 ≠ 0 ∨ year % 400 = 0)) ↔ isLeap year = true := by
    simp [isLeap]
  unfold daysIn monthLength
  rw [if_congr leap rfl rfl]
  rcases within with ⟨low, high⟩
  interval_cases month <;> cases isLeap year <;> rfl

/-- The years of the formula begin in March. -/
theorem civilYears (y : Int) :
    y / 400 * 146097 + ((y - y / 400 * 400) * 365 + (y - y / 400 * 400) / 4 -
      (y - y / 400 * 400) / 100) = daysBeforeYear (y + 1) - 366 := by
  unfold daysBeforeYear
  omega

/-- The formula counts January and February after the months of the year before. -/
theorem civilMonths_winter {month : Nat} (within : 1 ≤ month ∧ month ≤ 2) (year : Int) :
    (153 * (((month : Int) + 9) % 12) + 2) / 5 = daysBeforeMonth year month + 306 := by
  unfold daysBeforeMonth
  rcases within with ⟨low, high⟩
  interval_cases month <;> cases isLeap year <;> rfl

/-- The formula counts the other months from March. -/
theorem civilMonths_later {month : Nat} (within : 3 ≤ month ∧ month ≤ 12) (year : Int) :
    (153 * (((month : Int) + 9) % 12) + 2) / 5 + (Calendar.yearLength year - 306) =
      daysBeforeMonth year month := by
  unfold daysBeforeMonth Calendar.yearLength
  rcases within with ⟨low, high⟩
  interval_cases month <;> cases isLeap year <;> rfl

/-- The formula counts the days of the calendar. -/
theorem daysFromCivil_eq {month : Nat} (within : 1 ≤ month ∧ month ≤ 12) (year : Int)
    (day : Nat) :
    daysFromCivil year month day = (⟨year, month, day⟩ : Date).number - epochDay := by
  have epoch : epochDay = 719528 := rfl
  unfold daysFromCivil Date.number
  by_cases winter : month ≤ 2
  · have months := civilMonths_winter ⟨within.1, winter⟩ year
    have winter' : (month : Int) ≤ 2 := Int.ofNat_le.mpr winter
    have years := civilYears (year - 1)
    rw [Int.sub_add_cancel] at years
    simp only [if_pos winter', months, epoch]
    omega
  · have months := civilMonths_later ⟨Nat.lt_of_not_le winter, within.2⟩ year
    have winter' : ¬ (month : Int) ≤ 2 := fun less => winter (Int.ofNat_le.mp less)
    have years := civilYears year
    have length := Calendar.daysBeforeYear_succ year
    simp only [if_neg winter', epoch]
    omega

/-! ## Fields -/

theorem drop_of_getElem? {b : Bytes} {i : Nat} {c : UInt8} (there : b[i]? = some c) :
    b.drop i = c :: b.drop (i + 1) := by
  rcases List.getElem?_eq_some_iff.mp there with ⟨within, same⟩
  rw [List.drop_eq_getElem_cons within, same]

/-- The number written by digits, after a number. -/
def numberFrom (n : Int) (written : List (Fin 10)) : Int :=
  written.foldl (fun n digit => n * 10 + digit.val) n

theorem exists_byte {c : UInt8} (digit : isDigit c = true) : ∃ x, c = byte x := by
  have found : ∃ x, digit? c = some x := ⟨_, if_pos digit⟩
  rcases found with ⟨x, read⟩
  exact ⟨x, byte_of_digit? read⟩

theorem foldlM_digits_iff {field : Bytes} {n value : Int} :
    field.foldlM (fun (n : Int) (c : UInt8) =>
        if isDigit c then some (n * 10 + (c.toNat - 48 : Int)) else none) n = some value ↔
      ∃ written : List (Fin 10), field = written.map byte ∧ value = numberFrom n written := by
  induction field generalizing n with
  | nil =>
      constructor
      · intro same
        exact ⟨[], rfl, (Option.some.inj same).symm⟩
      · rintro ⟨written, empty, rfl⟩
        rw [List.map_eq_nil_iff.mp empty.symm]
        rfl
  | cons c field ih =>
      rw [List.foldlM_cons, Option.bind_eq_bind, Option.bind_eq_some_iff]
      have next : ∀ x : Fin 10, n * 10 + ((byte x).toNat - 48 : Int) = n * 10 + x.val := by
        intro x
        rw [toNat_byte]
        omega
      constructor
      · rintro ⟨m, first, found⟩
        split at first
        · next digit =>
            rcases exists_byte digit with ⟨x, rfl⟩
            rcases ih.mp found with ⟨written, rfl, rfl⟩
            refine ⟨x :: written, rfl, ?_⟩
            rw [← Option.some.inj first, next]
            rfl
        · cases first
      · rintro ⟨written, same, rfl⟩
        cases written with
        | nil => cases same
        | cons x written =>
            rw [List.map_cons, List.cons.injEq] at same
            refine ⟨n * 10 + x.val, ?_, ih.mpr ⟨written, same.2, rfl⟩⟩
            rw [same.1, isDigit_byte, if_pos rfl, next]

theorem digits_iff {b : Bytes} {start len : Nat} {value : Int} (any : 0 < len) :
    digits b start len = some value ↔ ∃ (written : List (Fin 10)) (rest : Bytes),
      b.drop start = written.map byte ++ rest ∧ written.length = len ∧
        value = numberFrom 0 written := by
  unfold digits
  constructor
  · intro found
    split at found
    · next within =>
        rcases foldlM_digits_iff.mp found with ⟨written, field, number⟩
        refine ⟨written, (b.drop start).drop len, ?_, ?_, number⟩
        · rw [← field, List.take_append_drop]
        · rw [← List.length_map (f := byte), ← field, List.length_take, List.length_drop]
          omega
    · cases found
  · rintro ⟨written, rest, place, rfl, rfl⟩
    have lengths := congrArg List.length place
    rw [List.length_drop, List.length_append, List.length_map] at lengths
    have within : start + written.length ≤ b.length := by omega
    rw [if_pos within, place, List.take_left' (List.length_map _)]
    exact foldlM_digits_iff.mpr ⟨written, rfl, rfl⟩

theorem digits_two_iff {b : Bytes} {start : Nat} {value : Int} :
    digits b start 2 = some value ↔ ∃ (field : Two) (rest : Bytes),
      b.drop start = twoBytes field ++ rest ∧ value = two field := by
  have number : ∀ x y : Fin 10, numberFrom 0 [x, y] = two (x, y) := by
    intro x y
    simp only [numberFrom, two, List.foldl_cons, List.foldl_nil]
    omega
  rw [digits_iff Nat.two_pos]
  constructor
  · rintro ⟨written, rest, place, length, rfl⟩
    rcases List.length_eq_two.mp length with ⟨x, y, rfl⟩
    exact ⟨(x, y), rest, place, number x y⟩
  · rintro ⟨⟨x, y⟩, rest, place, rfl⟩
    exact ⟨[x, y], rest, place, rfl, (number x y).symm⟩

theorem digits_four_iff {b : Bytes} {start : Nat} {value : Int} :
    digits b start 4 = some value ↔ ∃ (field : Four) (rest : Bytes),
      b.drop start = fourBytes field ++ rest ∧ value = four field := by
  have number : ∀ x y z w : Fin 10, numberFrom 0 [x, y, z, w] = four ((x, y), (z, w)) := by
    intro x y z w
    simp only [numberFrom, four, two, List.foldl_cons, List.foldl_nil]
    omega
  rw [digits_iff (by decide)]
  constructor
  · rintro ⟨written, rest, place, length, rfl⟩
    rcases List.length_eq_four.mp length with ⟨x, y, z, w, rfl⟩
    exact ⟨((x, y), (z, w)), rest, place, number x y z w⟩
  · rintro ⟨⟨⟨x, y⟩, z, w⟩, rest, place, rfl⟩
    exact ⟨[x, y, z, w], rest, place, rfl, (number x y z w).symm⟩

theorem drop_two {b rest : Bytes} {start : Nat} {field : Two}
    (place : b.drop start = twoBytes field ++ rest) : rest = b.drop (start + 2) := by
  rw [← List.drop_drop, place]
  rfl

theorem drop_four {b rest : Bytes} {start : Nat} {field : Four}
    (place : b.drop start = fourBytes field ++ rest) : rest = b.drop (start + 4) := by
  rw [← List.drop_drop, place]
  rfl

/-! ## Fractions -/

theorem takeWhile_digits {written : List (Fin 10)} {rest : Bytes} (ends : NoDigit rest) :
    (written.map byte ++ rest).takeWhile isDigit = written.map byte := by
  induction written with
  | nil =>
      cases rest with
      | nil => rfl
      | cons b tail => exact List.takeWhile_cons_of_neg (Bool.eq_false_iff.mp (ends b tail rfl))
  | cons x written ih =>
      rw [List.map_cons, List.cons_append, List.takeWhile_cons_of_pos (isDigit_byte x), ih]

/-- The first six digits, and zeros for those that are missing. -/
theorem micros_eq (written : List (Fin 10)) :
    (List.range 6).foldl (fun (micros : Int) k =>
        micros * 10 +
          (((written.map byte)[k]?).map (fun (c : UInt8) => (c.toNat - 48 : Int))).getD 0) 0 =
      leading written 6 := by
  have digit : ∀ k : Nat,
      (((written.map byte)[k]?).map (fun (c : UInt8) => (c.toNat - 48 : Int))).getD 0 =
      ((written[k]?.getD 0 : Fin 10).val : Int) := by
    intro k
    rw [List.getElem?_map, Option.map_map]
    cases written[k]? with
    | none => rfl
    | some x =>
        simp only [Option.map_some, Function.comp, Option.getD_some, toNat_byte]
        omega
  have six : List.range 6 = [0, 1, 2, 3, 4, 5] := rfl
  simp only [digit, six, List.foldl_cons, List.foldl_nil, leading]
  omega

theorem fraction_sound {b : Bytes} {start stop : Nat} {micros : Int}
    (found : fraction b start = some (micros, stop)) :
    ∃ written : List (Fin 10), written.length ≤ 9 ∧
      b.drop start = fractionBytes written ++ b.drop stop ∧ micros = leading written 6 := by
  unfold fraction at found
  split at found
  · next point =>
      dsimp only at found
      split at found
      · next few =>
          cases split : readDigits (b.drop (start + 1)) with
          | mk written rest =>
              rcases readDigits_eq_iff.mp split with ⟨place, ends⟩
              rw [place, takeWhile_digits ends, List.length_map] at few found
              rw [micros_eq] at found
              have any : written ≠ [] := by
                rintro rfl
                cases few.1
              have after : rest = b.drop (start + 1 + written.length) := by
                rw [← List.drop_drop, place, List.drop_left' (List.length_map _)]
              cases found
              refine ⟨written, few.2, ?_, rfl⟩
              rw [drop_of_getElem? point, place, fractionBytes, if_neg any, ← after]
              rfl
      · cases found
  · cases found
    exact ⟨[], Nat.zero_le 9, rfl, rfl⟩

theorem fraction_complete {b rest : Bytes} {start : Nat} {written : List (Fin 10)}
    (few : written.length ≤ 9) (place : b.drop start = fractionBytes written ++ rest)
    (ends : NoDigit rest) (noPoint : readByte 46 rest = none) :
    ∃ stop, fraction b start = some ((leading written 6 : Int), stop) ∧ b.drop stop = rest := by
  unfold fraction
  cases written with
  | nil =>
      have other : b[start]? ≠ some 46 := by
        intro point
        rw [drop_of_getElem? point] at place
        have starts : rest = 46 :: b.drop (start + 1) := place.symm
        rw [readByte_eq_some_iff.mpr starts] at noPoint
        cases noPoint
      rw [if_neg other]
      exact ⟨start, rfl, place⟩
  | cons x written =>
      rw [fractionBytes, if_neg (List.cons_ne_nil x written), List.cons_append] at place
      have point : b[start]? = some 46 := by
        rw [← Nat.add_zero start, ← List.getElem?_drop, place]
        rfl
      have after : b.drop (start + 1) = (x :: written).map byte ++ rest := by
        rw [← List.drop_drop, place]
        rfl
      rw [if_pos point]
      dsimp only
      rw [after, takeWhile_digits ends, List.length_map,
        if_pos ⟨Nat.le_add_left 1 written.length, few⟩, micros_eq]
      refine ⟨_, rfl, ?_⟩
      rw [← List.drop_drop, after, List.drop_left' (List.length_map _)]

/-! ## Offsets -/

theorem offsetMinutes_sound {b : Bytes} {i : Nat} {minutes : Int}
    (found : offsetMinutes b i = some minutes) :
    ∃ zone, b.drop i = zoneBytes zone ∧ Ranged zone ∧ minutes = zoneMinutes zone := by
  unfold offsetMinutes at found
  split at found
  · next last =>
      cases found
      exact ⟨none, last, nofun, rfl⟩
  · next sign _ _ _ _ last =>
      split at found
      · next signed =>
          simp only [Option.bind_eq_bind, Option.bind_eq_some_iff] at found
          rcases found with ⟨hours, readHours, minutes, readMinutes, made⟩
          rcases digits_two_iff.mp readHours with ⟨⟨h, h'⟩, rest, place, rfl⟩
          rcases digits_two_iff.mp readMinutes with ⟨⟨m, m'⟩, rest', place', rfl⟩
          rw [← List.drop_drop, last] at place place'
          cases place
          cases place'
          split at made
          · cases made
          · next within =>
              refine ⟨some ⟨sign = 43, (h, h'), (m, m')⟩, ?_, ?_, ?_⟩
              · rw [last]
                rcases signed with rfl | rfl
                · rfl
                · rfl
              · intro offset same
                cases same
                dsimp only
                omega
              · rw [← Option.some.inj made]
                rcases signed with rfl | rfl
                · simp [zoneMinutes, Int.mul_comm]
                · simp [zoneMinutes, Int.mul_comm]
      · cases found
  · cases found

theorem offsetMinutes_complete {b : Bytes} {i : Nat} {zone : Option Offset}
    (place : b.drop i = zoneBytes zone) (ranged : Ranged zone) :
    offsetMinutes b i = some (zoneMinutes zone) := by
  cases zone with
  | none =>
      unfold offsetMinutes
      rw [place]
      rfl
  | some offset =>
      rcases offset with ⟨ahead, ⟨h, h'⟩, m, m'⟩
      have hours : digits b (i + 1) 2 = some (two (h, h') : Int) :=
        digits_two_iff.mpr ⟨(h, h'), 58 :: twoBytes (m, m'),
          by rw [← List.drop_drop, place]; rfl, rfl⟩
      have minutes : digits b (i + 4) 2 = some (two (m, m') : Int) :=
        digits_two_iff.mpr ⟨(m, m'), [], by rw [← List.drop_drop, place]; rfl, rfl⟩
      have within := ranged _ rfl
      dsimp only at within
      unfold offsetMinutes
      rw [place]
      cases ahead with
      | true => simp [zoneBytes, twoBytes, hours, minutes, within, zoneMinutes, Int.mul_comm]
      | false => simp [zoneBytes, twoBytes, hours, minutes, within, zoneMinutes, Int.mul_comm]

/-! ## Timestamps -/

theorem parseTimestamp_sound {s : String} {value : Int} (found : parseTimestamp s = some value) :
    ∃ stamp, Denotes s stamp ∧ value = stamp.microseconds := by
  simp only [parseTimestamp, Option.bind_eq_bind, Option.bind_eq_some_iff, Option.guard_eq_some',
    Option.pure_def, Option.some.injEq] at found
  rcases found with ⟨-, ⟨dash, dash', letter, colon, colon'⟩, year, readYear, month, readMonth,
    day, readDay, hour, readHour, minute, readMinute, second, readSecond, ⟨micros, stop⟩,
    fractional, offset, zoned, -, ⟨low, high, first, last, hours, minutes, seconds⟩, rfl⟩
  rcases digits_four_iff.mp readYear with ⟨year, _, yearPlace, rfl⟩
  rcases digits_two_iff.mp readMonth with ⟨month, _, monthPlace, rfl⟩
  rcases digits_two_iff.mp readDay with ⟨day, _, dayPlace, rfl⟩
  rcases digits_two_iff.mp readHour with ⟨hour, _, hourPlace, rfl⟩
  rcases digits_two_iff.mp readMinute with ⟨minute, _, minutePlace, rfl⟩
  rcases digits_two_iff.mp readSecond with ⟨second, _, secondPlace, rfl⟩
  rcases fraction_sound fractional with ⟨written, few, fractionPlace, rfl⟩
  rcases offsetMinutes_sound zoned with ⟨zone, zonePlace, ranged, rfl⟩
  have text : utf8 s = (⟨year, month, day, hour, minute, second, written, zone⟩ : Stamp).text := by
    rw [drop_four yearPlace] at yearPlace
    rw [drop_two monthPlace] at monthPlace
    rw [drop_two dayPlace] at dayPlace
    rw [drop_two hourPlace] at hourPlace
    rw [drop_two minutePlace] at minutePlace
    rw [drop_two secondPlace] at secondPlace
    rw [← List.drop_zero (l := utf8 s)]
    rw [yearPlace, drop_of_getElem? dash, monthPlace, drop_of_getElem? dash', dayPlace,
      drop_of_getElem? letter, hourPlace, drop_of_getElem? colon, minutePlace,
      drop_of_getElem? colon', secondPlace, fractionPlace, zonePlace]
    rfl
  have within : 1 ≤ two month ∧ two month ≤ 12 := by omega
  rw [daysIn_eq within] at last
  refine ⟨⟨year, month, day, hour, minute, second, written, zone⟩, ⟨few, text, ?_⟩, ?_⟩
  · refine ⟨⟨within, ?_⟩, ?_, ?_, ?_, ranged⟩
    · simp only [Stamp.date]
      omega
    · exact Int.ofNat_le.mp hours
    · exact Int.ofNat_le.mp minutes
    · exact Int.ofNat_le.mp seconds
  · rw [daysFromCivil_eq within]
    rfl

theorem parseTimestamp_complete {s : String} {stamp : Stamp} (denotes : Denotes s stamp) :
    parseTimestamp s = some stamp.microseconds := by
  rcases stamp with ⟨⟨⟨y, y'⟩, z, z'⟩, ⟨m, m'⟩, ⟨d, d'⟩, ⟨h, h'⟩, ⟨n, n'⟩, ⟨c, c'⟩, written, zone⟩
  rcases denotes with ⟨few, text, ⟨⟨within, days⟩, hours, minutes, seconds, ranged⟩⟩
  dsimp only [Stamp.date] at few within days hours minutes seconds ranged
  have fields : ∀ (i : Nat) (field : Two), (∃ rest, (utf8 s).drop i = twoBytes field ++ rest) →
      digits (utf8 s) i 2 = some (two field : Int) :=
    fun i field place => digits_two_iff.mpr ⟨field, place.choose, place.choose_spec, rfl⟩
  have year : digits (utf8 s) 0 4 = some (four ((y, y'), z, z') : Int) :=
    digits_four_iff.mpr ⟨_, _, by rw [text]; rfl, rfl⟩
  rcases @fraction_complete (utf8 s) _ 19 _ few (by rw [text]; rfl)
    (noDigit_zoneBytes zone) (noPoint_zoneBytes zone) with ⟨stop, fractional, zonePlace⟩
  simp only [parseTimestamp, Option.bind_eq_bind, Option.bind_eq_some_iff, Option.guard_eq_some',
    Option.pure_def, Option.some.injEq]
  refine ⟨(), ?_, _, year, _, fields 5 (m, m') ⟨_, by rw [text]; rfl⟩,
    _, fields 8 (d, d') ⟨_, by rw [text]; rfl⟩, _, fields 11 (h, h') ⟨_, by rw [text]; rfl⟩,
    _, fields 14 (n, n') ⟨_, by rw [text]; rfl⟩, _, fields 17 (c, c') ⟨_, by rw [text]; rfl⟩,
    _, fractional, _, offsetMinutes_complete zonePlace ranged, (), ?_, ?_⟩
  · rw [text]
    exact ⟨rfl, rfl, rfl, rfl, rfl⟩
  · rw [daysIn_eq within]
    omega
  · rw [daysFromCivil_eq within]
    rfl

/-- Timestamps are accepted by their form, and their values are instants in the order
of time. -/
theorem parseTimestamp_spec : (∀ (s : String) (value : Int), parseTimestamp s = some value ↔
      ∃ stamp, Denotes s stamp ∧ value = stamp.microseconds) ∧
    (∀ stamp : Stamp, stamp.microseconds = stamp.nanoseconds / 1000) ∧
    ∀ (earlier later : String) (a b : Int) (one other : Stamp), parseTimestamp earlier = some a →
      parseTimestamp later = some b → Denotes earlier one → Denotes later other →
        (one.nanoseconds ≤ other.nanoseconds → a ≤ b) ∧
        (a < b → one.nanoseconds < other.nanoseconds) := by
  refine ⟨fun s value => ⟨parseTimestamp_sound, ?_⟩, Stamp.microseconds_eq, ?_⟩
  · rintro ⟨stamp, denotes, rfl⟩
    exact parseTimestamp_complete denotes
  · intro earlier later a b one other readOne readOther denotesOne denotesOther
    rw [parseTimestamp_complete denotesOne, Stamp.microseconds_eq] at readOne
    rw [parseTimestamp_complete denotesOther, Stamp.microseconds_eq] at readOther
    cases readOne
    cases readOther
    exact ⟨fun le => Int.ediv_le_ediv (by decide) le, fun less => Int.not_le.mp (fun le =>
      Int.not_le.mpr less (Int.ediv_le_ediv (by decide) le))⟩

/-- The last microsecond of 1969, and half an hour of 1970 written from further east. -/
def beforeEpoch : Stamp :=
  ⟨((1, 9), 6, 9), (1, 2), (3, 1), (2, 3), (5, 9), (5, 9), [9, 9, 9, 9, 9, 9, 5], none⟩

def afterEpoch : Stamp :=
  ⟨((1, 9), 7, 0), (0, 1), (0, 1), (0, 1), (0, 0), (0, 0), [], some ⟨true, (0, 0), (3, 0)⟩⟩

theorem beforeEpoch_denotes : Denotes "1969-12-31T23:59:59.9999995Z" beforeEpoch :=
  ⟨by decide, by decide, ⟨by decide, by decide, by decide, by decide, nofun⟩⟩

theorem afterEpoch_denotes : Denotes "1970-01-01T01:00:00+00:30" afterEpoch := by
  refine ⟨by decide, by decide, ⟨by decide, by decide, by decide, by decide, ?_⟩⟩
  intro offset same
  cases same
  decide

theorem parseTimestamp_epoch : parseTimestamp "1969-12-31T23:59:59.9999995Z" = some (-1) ∧
    parseTimestamp "1970-01-01T01:00:00+00:30" = some 1800000000 ∧
    beforeEpoch.nanoseconds < afterEpoch.nanoseconds := by
  have before := (parseTimestamp_spec.1 "1969-12-31T23:59:59.9999995Z" (-1)).mpr
    ⟨beforeEpoch, beforeEpoch_denotes, by decide⟩
  have after := (parseTimestamp_spec.1 "1970-01-01T01:00:00+00:30" 1800000000).mpr
    ⟨afterEpoch, afterEpoch_denotes, by decide⟩
  exact ⟨before, after, (parseTimestamp_spec.2.2 _ _ _ _ _ _ before after beforeEpoch_denotes
    afterEpoch_denotes).2 (by decide)⟩

end ArtifactStore
end CapsuleEmit
