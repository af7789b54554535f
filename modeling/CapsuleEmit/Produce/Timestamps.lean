import CapsuleEmit.Foundation.Rfc3339
import CapsuleEmit.Foundation.Outcome

namespace CapsuleEmit
namespace Timestamps

/-!
# The wire form of a timestamp

Two builders bring a timestamp text to the wire form: an instant of UTC, with six
fraction digits when it is no whole second.  One hands the text on to the date parser
of its engine and cuts the answer apart; the other keeps a date of its library, whose
years are 1 to 9999.

A text that denotes an instant of these years has the same wire form in both.
-/

open Calendar (Date)
open Rfc3339

/-! ## The fields of an instant -/

structure DateTime where
  date : Date
  hour : Nat
  minute : Nat
  second : Nat
deriving DecidableEq, Repr

/-- The fields of an instant of UTC. -/
def DateTime.ofSeconds (seconds : Int) : DateTime :=
  let clock := (seconds % 86400).toNat
  ⟨Date.ofNumber (seconds / 86400 + epochDay), clock / 3600, clock / 60 % 60, clock % 60⟩

/-- A number in a width it fits, padded with zeros. -/
def zeroPad (width n : Nat) : Bytes := (lastDigits width n).map byte

/-- The fields up to the seconds, after the text of the year. -/
def DateTime.text (year : Bytes) (moment : DateTime) : Bytes :=
  year ++ 45 :: (zeroPad 2 moment.date.month ++ 45 :: (zeroPad 2 moment.date.day ++
    84 :: (zeroPad 2 moment.hour ++ 58 :: (zeroPad 2 moment.minute ++
      58 :: zeroPad 2 moment.second))))

/-- The first instant of the year 1, and the last of the year 9999. -/
def minSeconds : Int := ((⟨1, 1, 1⟩ : Date).number - epochDay) * 86400

def maxSeconds : Int := ((⟨10000, 1, 1⟩ : Date).number - epochDay) * 86400 - 1

namespace TypeScript

/-- The time value an engine gives a date text, in milliseconds. -/
abbrev Engine := Bytes → Option Int

/-- A year of four digits, or a sign and six digits. -/
def isoYear (year : Int) : Bytes :=
  if 0 ≤ year ∧ year ≤ 9999 then zeroPad 4 year.toNat
  else (if year < 0 then 45 else 43) :: zeroPad 6 year.natAbs

def toISOString (date : Int) : Bytes :=
  let moment := DateTime.ofSeconds (date / 1000)
  moment.text (isoYear moment.date.year) ++ 46 :: (zeroPad 3 (date % 1000).toNat ++ [90])

/-- Format UTC: microseconds when they are not zero, no fraction otherwise. -/
def formatTimestamp (engine : Engine) (value : String) : Except String Bytes :=
  match Stamp.read (utf8 value) with
  | none => .error "timestamp must be RFC 3339 with timezone"
  | some stamp =>
      let fraction := (List.rightpad 9 0 stamp.fraction).map byte
      let milliseconds := fraction.take 3
      match engine ((utf8 value).take 19 ++ 46 :: (milliseconds ++ zoneBytes stamp.zone)) with
      | none => .error "timestamp is invalid"
      | some date =>
          let microRemainder := (fraction.drop 3).take 3
          let utc := toISOString date
          let base := utc.take 19
          let micros := (utc.drop 20).take 3 ++ microRemainder
          if micros ≠ [] ∧ ∀ c ∈ micros, c = 48 then .ok (base ++ [90])
          else .ok (base ++ 46 :: (micros ++ [90]))

end TypeScript

namespace Python

/-- The instant the fields before the fraction name, without a timezone. -/
def strptime (stamp : Stamp) : Option Int :=
  if stamp.date.Real ∧ 1 ≤ stamp.date.year ∧ two stamp.hour ≤ 23 ∧ two stamp.minute ≤ 59 ∧
      two stamp.second ≤ 59 then
    some (Stamp.seconds { stamp with zone := none })
  else none

/-- Take an offset off, within the years of the library. -/
def toUtc (parsed : Int) : Option Offset → Except String Int
  | none => .ok parsed
  | some offset => do
      ensure (two offset.hours ≤ 23 && two offset.minutes ≤ 59) "timestamp is invalid"
      let utc := parsed - zoneMinutes (some offset) * 60
      ensure (minSeconds ≤ utc && utc ≤ maxSeconds) "timestamp is invalid"
      return utc

/-- The number that digits write. -/
def int (digits : List (Fin 10)) : Nat :=
  digits.foldl (fun n (digit : Fin 10) => 10 * n + digit.val) 0

/-- Render a timestamp: whole seconds omit the fraction, otherwise six digits. -/
def formatTimestamp (timestamp : String) : Except String Bytes :=
  match Stamp.read (utf8 timestamp) with
  | none => .error "timestamp must be RFC 3339 with timezone"
  | some stamp => do
      let parsed ← (strptime stamp).elim (.error "timestamp is invalid") .ok
      let utc ← toUtc parsed stamp.zone
      let microsecond := int ((List.rightpad 9 0 stamp.fraction).take 6)
      -- the zero time counts as no timestamp, unless digits below a microsecond follow
      ensure (!(utc = minSeconds && microsecond = 0 && stamp.fraction.all (fun d => d = 0)))
        "timestamp is required"
      let moment := DateTime.ofSeconds utc
      return moment.text (zeroPad 4 moment.date.year.toNat) ++
        ((if microsecond = 0 then [] else 46 :: zeroPad 6 microsecond) ++ [90])

end Python

/-! ## The wire form -/

/-- A date-time in UTC, with no fraction or six digits that are not all zero. -/
structure Wire (stamp : Stamp) : Prop where
  real : stamp.Real
  utc : stamp.zone = none
  fraction : stamp.fraction = [] ∨ stamp.fraction.length = 6 ∧ ∃ digit ∈ stamp.fraction, digit ≠ 0

/-- The wire form of an instant given in seconds and a fraction. -/
def wire (seconds : Int) (fraction : List (Fin 10)) : Stamp :=
  Stamp.ofSeconds seconds (if leading fraction 6 = 0 then [] else firstDigits fraction 6)

theorem inYears_of_bounds {seconds : Int} (low : minSeconds ≤ seconds)
    (high : seconds ≤ maxSeconds) : InYears seconds := by
  have within := Calendar.Date.number_within (Calendar.real_ofNumber (seconds / 86400 + epochDay))
  rw [Calendar.number_ofNumber] at within
  have first : minSeconds = (366 - epochDay) * 86400 := rfl
  have last : maxSeconds = (3652425 - epochDay) * 86400 - 1 := rfl
  have one : Calendar.daysBeforeYear 1 = 366 := rfl
  have all : Calendar.daysBeforeYear (9999 + 1) = 3652425 := rfl
  constructor
  · apply Int.not_lt.mp
    intro before
    have bound := Calendar.daysBeforeYear_le (show (Date.ofNumber
      (seconds / 86400 + epochDay)).year < 1 by omega)
    omega
  · apply Int.not_lt.mp
    intro after
    have bound := Calendar.daysBeforeYear_le (show 9999 < (Date.ofNumber
      (seconds / 86400 + epochDay)).year from after)
    omega

theorem leading_firstDigits (fraction : List (Fin 10)) {k n : Nat} (less : k ≤ n) :
    leading (firstDigits fraction n) k = leading fraction k := by
  induction k with
  | zero => rfl
  | succ k ih =>
      have digit : (firstDigits fraction n)[k]?.getD 0 = fraction[k]?.getD 0 := by
        rw [firstDigits, List.getElem?_map, List.getElem?_range less]
        rfl
      rw [leading, leading, ih (Nat.le_of_succ_le less), digit]

theorem wire_spec {seconds : Int} (within : InYears seconds) (fraction : List (Fin 10)) :
    Wire (wire seconds fraction) ∧ (wire seconds fraction).nanoseconds =
      (seconds * 1000000 + leading fraction 6) * 1000 := by
  constructor
  · refine ⟨Stamp.real_ofSeconds within _, rfl, ?_⟩
    simp only [wire, Stamp.ofSeconds]
    split
    · exact Or.inl rfl
    · next some =>
        rw [leading_eq_zero_iff] at some
        refine Or.inr ⟨by rw [firstDigits, List.length_map, List.length_range], ?_⟩
        by_contra none
        apply some
        intro digit member
        by_contra nonzero
        exact none ⟨digit, member, nonzero⟩
  · rw [Stamp.nanoseconds, wire, Stamp.seconds_ofSeconds within]
    simp only [Stamp.ofSeconds]
    split
    · next zero =>
        rw [zero]
        simp [leading]
        omega
    · have below : ∀ k, 6 ≤ k → (firstDigits fraction 6)[k]?.getD 0 = 0 := by
        intro k beyond
        rw [List.getElem?_eq_none, Option.getD_none]
        rw [firstDigits, List.length_map, List.length_range]
        exact beyond
      rw [leading, leading, leading, leading_firstDigits fraction (Nat.le_refl 6),
        below 6 (by decide), below 7 (by decide), below 8 (by decide)]
      simp only [Fin.val_zero]
      omega

/-! ## Digits -/

theorem take_rightpad (fraction : List (Fin 10)) {k : Nat} (within : k ≤ 9) :
    (List.rightpad 9 0 fraction).take k = firstDigits fraction k := by
  apply List.ext_getElem?
  intro i
  rw [firstDigits, List.getElem?_map, List.getElem?_take, List.rightpad]
  split
  · next inside =>
      rw [List.getElem?_range inside, Option.map_some]
      by_cases given : i < fraction.length
      · rw [List.getElem?_append_left given, List.getElem?_eq_getElem given]
        rfl
      · have missing := Nat.le_of_not_lt given
        rw [List.getElem?_append_right missing, List.getElem?_eq_none missing,
          List.getElem?_replicate_of_lt (by omega)]
        rfl
  · next outside =>
      rw [List.getElem?_eq_none (by rw [List.length_range]; omega)]
      rfl

theorem int_firstDigits (fraction : List (Fin 10)) (k : Nat) :
    Python.int (firstDigits fraction k) = leading fraction k := by
  induction k with
  | zero => rfl
  | succ k ih =>
      unfold Python.int at ih ⊢
      rw [firstDigits_succ, List.foldl_append, ih]
      rfl

/-- The text before the fraction is that of the date-time. -/
theorem text_ofSeconds {seconds : Int} (fraction : List (Fin 10)) :
    (DateTime.ofSeconds seconds).text
        (zeroPad 4 (DateTime.ofSeconds seconds).date.year.toNat) ++
      (fractionBytes fraction ++ [90]) = (Stamp.ofSeconds seconds fraction).text := by
  simp only [DateTime.text, List.append_assoc, List.cons_append]
  rfl

theorem length_text {year : Bytes} (moment : DateTime) :
    (moment.text year).length = year.length + 15 := by
  simp [DateTime.text, zeroPad]

/-! ## The engine's text -/

namespace TypeScript

/-- Every part has a value its place may have; a month may be too short for the day. -/
structure Bounded (stamp : Stamp) : Prop where
  month : 1 ≤ two stamp.month ∧ two stamp.month ≤ 12
  day : 1 ≤ two stamp.day ∧ two stamp.day ≤ 31
  hour : two stamp.hour ≤ 24
  minute : two stamp.minute ≤ 59
  second : two stamp.second ≤ 59
  zone : Ranged stamp.zone

/-- What is documented of the date format: a real date-time has the time value of its
instant, and a text with a part out of bounds has none. -/
structure Documented (engine : Engine) : Prop where
  real : ∀ stamp : Stamp, stamp.fraction.length = 3 → stamp.Real →
    engine stamp.text = some (stamp.seconds * 1000 + leading stamp.fraction 3)
  bounded : ∀ stamp : Stamp, stamp.fraction.length = 3 → ¬ Bounded stamp →
    engine stamp.text = none

theorem dateText_eq {s : String} {stamp : Stamp} (text : utf8 s = stamp.text) :
    (utf8 s).take 19 ++ 46 :: (((List.rightpad 9 0 stamp.fraction).map byte).take 3 ++
      zoneBytes stamp.zone) =
        Stamp.text { stamp with fraction := firstDigits stamp.fraction 3 } := by
  rw [text, ← List.map_take, take_rightpad _ (by decide)]
  rcases stamp with ⟨⟨⟨y, y'⟩, z, z'⟩, ⟨m, m'⟩, ⟨d, d'⟩, ⟨h, h'⟩, ⟨n, n'⟩, ⟨c, c'⟩, fraction, zone⟩
  rfl

theorem micros_eq (fraction : List (Fin 10)) :
    (firstDigits fraction 3).map byte ++
        (((List.rightpad 9 0 fraction).map byte).drop 3).take 3 =
      (firstDigits fraction 6).map byte := by
  rw [← take_rightpad fraction (k := 3) (by decide), ← take_rightpad fraction (k := 6) (by decide),
    ← List.map_drop, ← List.map_take, ← List.map_append, ← List.take_add]

theorem micros_zero_iff (fraction : List (Fin 10)) :
    ((firstDigits fraction 6).map byte ≠ [] ∧ ∀ c ∈ (firstDigits fraction 6).map byte, c = 48) ↔
      leading fraction 6 = 0 := by
  have zero : ∀ digit, byte digit = 48 ↔ digit = 0 := by decide
  rw [leading_eq_zero_iff]
  constructor
  · intro zeros digit member
    exact (zero digit).mp (zeros.2 _ (List.mem_map_of_mem member))
  · intro zeros
    refine ⟨by simp [firstDigits], ?_⟩
    intro c member
    rcases List.mem_map.mp member with ⟨digit, inside, rfl⟩
    exact (zero digit).mpr (zeros digit inside)

theorem toISOString_eq {seconds : Int} (within : InYears seconds) {part : Nat}
    (small : part < 1000) : toISOString (seconds * 1000 + part) =
      (DateTime.ofSeconds seconds).text (zeroPad 4 (DateTime.ofSeconds seconds).date.year.toNat) ++
        46 :: (zeroPad 3 part ++ [90]) := by
  have whole : (seconds * 1000 + part) / 1000 = seconds := by omega
  have rest : ((seconds * 1000 + part) % 1000).toNat = part := by omega
  have year : isoYear (DateTime.ofSeconds seconds).date.year =
      zeroPad 4 (DateTime.ofSeconds seconds).date.year.toNat := if_pos within
  rw [toISOString, whole, rest]
  simp only [year]

/-- A real date-time whose instant falls in the years 0 to 9999 is brought to the wire
form. -/
theorem formatTimestamp_eq {engine : Engine} (documented : Documented engine) {s : String}
    {stamp : Stamp} (denotes : Denotes s stamp) (within : InYears stamp.seconds) :
    formatTimestamp engine s = .ok (wire stamp.seconds stamp.fraction).text := by
  have date := documented.real { stamp with fraction := firstDigits stamp.fraction 3 }
    (by simp [firstDigits]) ⟨denotes.2.2.date, denotes.2.2.hour, denotes.2.2.minute,
      denotes.2.2.second, denotes.2.2.zone⟩
  rw [leading_firstDigits _ (Nat.le_refl 3)] at date
  have seconds : Stamp.seconds { stamp with fraction := firstDigits stamp.fraction 3 } =
      stamp.seconds := rfl
  have length := @length_text (zeroPad 4 (DateTime.ofSeconds stamp.seconds).date.year.toNat)
    (DateTime.ofSeconds stamp.seconds)
  have four : (zeroPad 4 (DateTime.ofSeconds stamp.seconds).date.year.toNat).length = 4 := by
    rw [zeroPad, List.length_map, length_lastDigits]
  have three : (zeroPad 3 (leading stamp.fraction 3)).length = 3 := by
    rw [zeroPad, List.length_map, length_lastDigits]
  rw [four] at length
  unfold formatTimestamp
  rw [Stamp.read_eq_some_iff.mpr ⟨denotes.1, denotes.2.1⟩]
  simp only [dateText_eq denotes.2.1, date, seconds,
    toISOString_eq within (leading_lt stamp.fraction 3)]
  rw [wire, ← text_ofSeconds]
  generalize (DateTime.ofSeconds stamp.seconds).text
    (zeroPad 4 (DateTime.ofSeconds stamp.seconds).date.year.toNat) = clock at length
  have base : (clock ++ 46 :: (zeroPad 3 (leading stamp.fraction 3) ++ [90])).take 19 = clock :=
    List.take_left' length
  have tail : ((clock ++ 46 :: (zeroPad 3 (leading stamp.fraction 3) ++ [90])).drop 20).take 3 =
      (firstDigits stamp.fraction 3).map byte := by
    rw [← List.drop_drop (i := 1) (j := 19), List.drop_left' length, List.drop_succ_cons,
      List.drop_zero, List.take_left' three, zeroPad, lastDigits_leading]
  rw [base, tail, micros_eq]
  by_cases zero : leading stamp.fraction 6 = 0
  · rw [if_pos ((micros_zero_iff _).mpr zero), if_pos zero]
    rfl
  · have some : firstDigits stamp.fraction 6 ≠ [] := by simp [firstDigits]
    rw [if_neg (fun zeros => zero ((micros_zero_iff _).mp zeros)), if_neg zero, fractionBytes,
      if_neg some]
    rfl

/-- A text that has no parts in their bounds is refused. -/
theorem formatTimestamp_refused {engine : Engine} (documented : Documented engine) {s : String}
    (unbounded : ¬ ∃ stamp, stamp.fraction.length ≤ 9 ∧ utf8 s = Stamp.text stamp ∧
      Bounded stamp) : ∃ error, formatTimestamp engine s = .error error := by
  unfold formatTimestamp
  cases read : Stamp.read (utf8 s) with
  | none => exact ⟨_, rfl⟩
  | some stamp =>
      rcases Stamp.read_eq_some_iff.mp read with ⟨few, text⟩
      have outside : ¬ Bounded { stamp with fraction := firstDigits stamp.fraction 3 } :=
        fun inside => unbounded ⟨stamp, few, text, inside.month, inside.day, inside.hour,
          inside.minute, inside.second, inside.zone⟩
      simp only [dateText_eq text,
        documented.bounded { stamp with fraction := firstDigits stamp.fraction 3 }
          (by simp [firstDigits]) outside]
      exact ⟨_, rfl⟩

end TypeScript

/-! ## The library's years -/

namespace Python

/-- The instant is one that has a wire form: it falls in the years of the library, the
year written is one too, and it is not the zero time. -/
structure Formattable (stamp : Stamp) : Prop where
  year : 1 ≤ stamp.date.year
  first : minSeconds ≤ stamp.seconds
  last : stamp.seconds ≤ maxSeconds
  given : ¬ (stamp.seconds = minSeconds ∧ ∀ digit ∈ stamp.fraction, digit = 0)

theorem seconds_local (stamp : Stamp) :
    stamp.seconds = Stamp.seconds { stamp with zone := none } - zoneMinutes stamp.zone * 60 := by
  simp only [Stamp.seconds, Stamp.date, zoneMinutes]
  omega

/-- A date-time of the library's years, before an offset is taken off. -/
theorem local_within {stamp : Stamp} (real : stamp.Real) (year : 1 ≤ stamp.date.year) :
    minSeconds ≤ Stamp.seconds { stamp with zone := none } ∧
      Stamp.seconds { stamp with zone := none } ≤ maxSeconds := by
  have within := Calendar.Date.number_within real.date
  have digits : stamp.date.year < 10000 := by
    have small := (stamp.year.1.1).isLt
    have small' := (stamp.year.1.2).isLt
    have small'' := (stamp.year.2.1).isLt
    have small''' := (stamp.year.2.2).isLt
    simp only [Stamp.date, four, two]
    omega
  have low := Calendar.daysBeforeYear_le (show 0 < stamp.date.year from year)
  have high := Calendar.daysBeforeYear_le digits
  have one : Calendar.daysBeforeYear (0 + 1) = 366 := rfl
  have all : Calendar.daysBeforeYear 10000 = 3652425 := rfl
  have first : minSeconds = (366 - epochDay) * 86400 := rfl
  have last : maxSeconds = (3652425 - epochDay) * 86400 - 1 := rfl
  have clock := real.hour
  have clock' := real.minute
  have clock'' := real.second
  have number : Stamp.seconds { stamp with zone := none } =
      (stamp.date.number - epochDay) * 86400 + two stamp.hour * 3600 + two stamp.minute * 60 +
        two stamp.second - 0 * 60 := rfl
  constructor <;> omega

theorem strptime_eq_some_iff {stamp : Stamp} (ranged : Ranged stamp.zone) {parsed : Int} :
    strptime stamp = some parsed ↔ stamp.Real ∧ 1 ≤ stamp.date.year ∧
      parsed = Stamp.seconds { stamp with zone := none } := by
  unfold strptime
  constructor
  · intro found
    split at found
    · next all =>
        exact ⟨⟨all.1, all.2.2.1, all.2.2.2.1, all.2.2.2.2, ranged⟩, all.2.1,
          (Option.some.inj found).symm⟩
    · cases found
  · rintro ⟨real, year, rfl⟩
    exact if_pos ⟨real.date, year, real.hour, real.minute, real.second⟩

theorem toUtc_eq_ok_iff {parsed utc : Int} {zone : Option Offset} :
    toUtc parsed zone = .ok utc ↔ Ranged zone ∧ utc = parsed - zoneMinutes zone * 60 ∧
      (zone = none ∨ minSeconds ≤ utc ∧ utc ≤ maxSeconds) := by
  cases zone with
  | none =>
      simp only [toUtc, Except.ok.injEq, zoneMinutes, true_or, and_true]
      constructor
      · rintro rfl
        refine ⟨?_, by omega⟩
        intro offset impossible
        cases impossible
      · rintro ⟨-, rfl⟩
        omega
  | some offset =>
      simp only [toUtc, bind_eq_ok_iff, ensure_eq_ok_iff, Bool.and_eq_true, decide_eq_true_eq,
        pure_eq_ok, Except.ok.injEq, reduceCtorEq, false_or]
      constructor
      · rintro ⟨-, ranged, -, within, rfl⟩
        refine ⟨?_, rfl, within⟩
        intro other same
        cases same
        exact ranged
      · rintro ⟨ranged, rfl, within⟩
        exact ⟨(), ranged offset rfl, (), within, rfl⟩

theorem leading_of_zeros {fraction : List (Fin 10)} (zeros : ∀ digit ∈ fraction, digit = 0)
    (k : Nat) : leading fraction k = 0 := by
  rw [leading_eq_zero_iff]
  intro digit member
  rcases List.mem_map.mp member with ⟨i, -, rfl⟩
  cases place : fraction[i]? with
  | none => rfl
  | some digit => exact zeros digit (List.mem_of_getElem? place)

theorem zero_time_iff {utc : Int} {fraction : List (Fin 10)} :
    (!(utc = minSeconds && int ((List.rightpad 9 0 fraction).take 6) = 0 &&
        fraction.all (fun d => d = 0))) = true ↔
      ¬ (utc = minSeconds ∧ ∀ digit ∈ fraction, digit = 0) := by
  rw [take_rightpad _ (by decide), int_firstDigits, Bool.not_eq_true', ← Bool.not_eq_true]
  simp only [Bool.and_eq_true, decide_eq_true_eq, List.all_eq_true]
  exact not_congr ⟨fun all => ⟨all.1.1, all.2⟩,
    fun both => ⟨⟨both.1, leading_of_zeros both.2 6⟩, both.2⟩⟩

/-- The wire form is given exactly to the date-times that have one. -/
theorem formatTimestamp_eq_ok_iff {s : String} {text : Bytes} :
    formatTimestamp s = .ok text ↔ ∃ stamp, Denotes s stamp ∧ Formattable stamp ∧
      text = (wire stamp.seconds stamp.fraction).text := by
  have form : ∀ (utc : Int) (fraction : List (Fin 10)), (DateTime.ofSeconds utc).text
        (zeroPad 4 (DateTime.ofSeconds utc).date.year.toNat) ++
          ((if leading fraction 6 = 0 then [] else 46 :: zeroPad 6 (leading fraction 6)) ++ [90]) =
        (wire utc fraction).text := by
    intro utc fraction
    have six : zeroPad 6 (leading fraction 6) = (firstDigits fraction 6).map byte := by
      rw [zeroPad, lastDigits_leading]
    rw [wire, ← text_ofSeconds, six]
    split
    · rfl
    · rw [fractionBytes, if_neg (by simp [firstDigits])]
  unfold formatTimestamp
  cases read : Stamp.read (utf8 s) with
  | none =>
      simp only [reduceCtorEq, false_iff]
      rintro ⟨stamp, denotes, -⟩
      rw [Stamp.read_eq_some_iff.mpr ⟨denotes.1, denotes.2.1⟩] at read
      cases read
  | some stamp =>
      rcases Stamp.read_eq_some_iff.mp read with ⟨few, written⟩
      simp only [bind_eq_ok_iff, ensure_eq_ok_iff, zero_time_iff, toUtc_eq_ok_iff, pure_eq_ok,
        Except.ok.injEq]
      rw [take_rightpad _ (by decide), int_firstDigits]
      constructor
      · rintro ⟨parsed, given, utc, ⟨ranged, shifted, within⟩, -, notZero, rfl⟩
        cases fields : strptime stamp with
        | none =>
            rw [fields] at given
            cases given
        | some other =>
            rw [fields] at given
            cases given
            rcases (strptime_eq_some_iff ranged).mp fields with ⟨real, year, rfl⟩
            rw [← seconds_local] at shifted
            subst shifted
            have bounds : minSeconds ≤ stamp.seconds ∧ stamp.seconds ≤ maxSeconds := by
              rcases within with noZone | bounds
              · have local' := local_within real year
                rw [← noZone] at local'
                exact local'
              · exact bounds
            exact ⟨stamp, ⟨few, written, real⟩, ⟨year, bounds.1, bounds.2, notZero⟩, form _ _⟩
      · rintro ⟨other, denotes, formattable, rfl⟩
        have same := Stamp.read_eq_some_iff.mpr ⟨denotes.1, denotes.2.1⟩
        rw [read] at same
        cases same
        have fields := (strptime_eq_some_iff denotes.2.2.zone).mpr
          ⟨denotes.2.2, formattable.year, rfl⟩
        refine ⟨_, by rw [fields]; rfl, stamp.seconds, ⟨denotes.2.2.zone, seconds_local stamp,
          Or.inr ⟨formattable.first, formattable.last⟩⟩, (), formattable.given, form _ _⟩

end Python

/-! ## Agreement -/

/-- Both refuse a text, or both return the same text. -/
def Agree (engine : TypeScript.Engine) (s : String) : Prop :=
  ((∃ error, TypeScript.formatTimestamp engine s = .error error) ∧
    ∃ error, Python.formatTimestamp s = .error error) ∨
  ∃ text, TypeScript.formatTimestamp engine s = .ok text ∧ Python.formatTimestamp s = .ok text

/-- Date-times with a wire form get it from both, texts with a part out of bounds get it
from neither, and no other text gets one from the library. -/
theorem formatTimestamp_agree {engine : TypeScript.Engine}
    (documented : TypeScript.Documented engine) (s : String) :
    (∀ stamp, Denotes s stamp → Python.Formattable stamp →
      ∃ out : Stamp, Wire out ∧ out.nanoseconds = stamp.microseconds * 1000 ∧
        TypeScript.formatTimestamp engine s = .ok out.text ∧
        Python.formatTimestamp s = .ok out.text) ∧
    ((¬ ∃ stamp : Stamp, stamp.fraction.length ≤ 9 ∧ utf8 s = stamp.text ∧
      TypeScript.Bounded stamp) → (∃ error, TypeScript.formatTimestamp engine s = .error error) ∧
        ∃ error, Python.formatTimestamp s = .error error) ∧
    ((¬ ∃ stamp, Denotes s stamp ∧ Python.Formattable stamp) →
      ∃ error, Python.formatTimestamp s = .error error) := by
  have refused : (¬ ∃ stamp, Denotes s stamp ∧ Python.Formattable stamp) →
      ∃ error, Python.formatTimestamp s = .error error := by
    intro none
    rcases error_or_ok (Python.formatTimestamp s) with failed | ⟨text, returned⟩
    · exact failed
    · rcases Python.formatTimestamp_eq_ok_iff.mp returned with ⟨stamp, denotes, formattable, -⟩
      exact absurd ⟨stamp, denotes, formattable⟩ none
  refine ⟨?_, ?_, refused⟩
  · intro stamp denotes formattable
    have within := inYears_of_bounds formattable.first formattable.last
    rcases wire_spec within stamp.fraction with ⟨form, instant⟩
    exact ⟨wire stamp.seconds stamp.fraction, form, instant,
      TypeScript.formatTimestamp_eq documented denotes within,
      Python.formatTimestamp_eq_ok_iff.mpr ⟨stamp, denotes, formattable, rfl⟩⟩
  · intro unbounded
    refine ⟨TypeScript.formatTimestamp_refused documented unbounded, refused ?_⟩
    rintro ⟨stamp, denotes, -⟩
    have days := denotes.2.2.date.day
    have long := Calendar.monthLength_le stamp.date.year stamp.date.month
    exact unbounded ⟨stamp, denotes.1, denotes.2.1, denotes.2.2.date.month,
      ⟨days.1, Nat.le_trans days.2 long⟩, Nat.le_succ_of_le denotes.2.2.hour, denotes.2.2.minute,
      denotes.2.2.second, denotes.2.2.zone⟩

/-! ## An engine -/

namespace TypeScript

theorem bounded_iff {stamp : Stamp} : Bounded stamp ↔
    (1 ≤ two stamp.month ∧ two stamp.month ≤ 12) ∧ (1 ≤ two stamp.day ∧ two stamp.day ≤ 31) ∧
      two stamp.hour ≤ 24 ∧ two stamp.minute ≤ 59 ∧ two stamp.second ≤ 59 ∧ Ranged stamp.zone :=
  ⟨fun b => ⟨b.month, b.day, b.hour, b.minute, b.second, b.zone⟩,
    fun b => ⟨b.1, b.2.1, b.2.2.1, b.2.2.2.1, b.2.2.2.2.1, b.2.2.2.2.2⟩⟩

instance (zone : Option Offset) : Decidable (Ranged zone) :=
  inferInstanceAs (Decidable (∀ offset ∈ zone, two offset.hours ≤ 23 ∧ two offset.minutes ≤ 59))

instance (stamp : Stamp) : Decidable (Bounded stamp) := decidable_of_iff' _ bounded_iff

/-- An engine that counts on from a day its month does not have, and takes the hour 24
for the midnight that ends a day. -/
def rollover (text : Bytes) : Option Int :=
  (Stamp.read text).bind (fun stamp =>
    if Bounded stamp ∧ (two stamp.hour = 24 → two stamp.minute = 0 ∧ two stamp.second = 0 ∧
        leading stamp.fraction 3 = 0) then
      some (stamp.seconds * 1000 + leading stamp.fraction 3)
    else none)

theorem rollover_documented : Documented rollover := by
  have read : ∀ stamp : Stamp, stamp.fraction.length = 3 → Stamp.read stamp.text = some stamp := by
    intro stamp three
    exact Stamp.read_eq_some_iff.mpr ⟨by omega, rfl⟩
  constructor
  · intro stamp three real
    have days := real.date.day
    have long := Calendar.monthLength_le stamp.date.year stamp.date.month
    have hours := real.hour
    rw [rollover, read stamp three]
    refine if_pos ⟨⟨real.date.month, ⟨days.1, Nat.le_trans days.2 long⟩, Nat.le_succ_of_le hours,
      real.minute, real.second, real.zone⟩, ?_⟩
    intro midnight
    omega
  · intro stamp three outside
    rw [rollover, read stamp three]
    exact if_neg (fun both => outside both.1)

end TypeScript

/-- A fraction of at most six digits, the last of which is not zero. -/
def Trimmed (text : Bytes) : Prop :=
  ∃ out : Stamp, text = out.text ∧ out.fraction.length ≤ 6 ∧ out.fraction.getLast? ≠ some 0

/-- A tenth of a second is written with six digits, and only one of the two takes the
year 0. -/
theorem forms_differ :
    (∃ text, TypeScript.formatTimestamp TypeScript.rollover "2026-10-16T00:00:00.1Z" = .ok text ∧
      Python.formatTimestamp "2026-10-16T00:00:00.1Z" = .ok text ∧ ¬ Trimmed text) ∧
    ¬ Agree TypeScript.rollover "0000-01-01T00:00:00Z" := by
  constructor
  · refine ⟨utf8 "2026-10-16T00:00:00.100000Z", by decide, by decide, ?_⟩
    rintro ⟨out, text, few, last⟩
    have read := Stamp.read_eq_some_iff.mpr ⟨Nat.le_trans few (by decide), text⟩
    have tenth : Stamp.read (utf8 "2026-10-16T00:00:00.100000Z") = some ⟨((2, 0), 2, 6), (1, 0),
        (1, 6), (0, 0), (0, 0), (0, 0), [1, 0, 0, 0, 0, 0], none⟩ := by decide
    rw [tenth] at read
    cases read
    exact last rfl
  · rintro (⟨⟨error, failed⟩, -⟩ | ⟨text, -, returned⟩)
    · cases failed
    · cases returned

/-- An offset that carries an instant into the year before. -/
def newYear : Stamp :=
  ⟨((2, 0), 2, 6), (0, 1), (0, 1), (0, 1), (0, 0), (0, 0), [2, 5], some ⟨true, (0, 2), (0, 0)⟩⟩

theorem formatTimestamp_newYear :
    ∃ out : Stamp, Wire out ∧ out.nanoseconds = newYear.microseconds * 1000 ∧
      TypeScript.formatTimestamp TypeScript.rollover "2026-01-01T01:00:00.25+02:00" =
        .ok out.text ∧
      Python.formatTimestamp "2026-01-01T01:00:00.25+02:00" = .ok out.text := by
  refine (formatTimestamp_agree TypeScript.rollover_documented "2026-01-01T01:00:00.25+02:00").1
    newYear ⟨by decide, by decide, ⟨by decide, by decide, by decide, by decide, by decide⟩⟩
    ⟨by decide, by decide, by decide, by decide⟩

end Timestamps
end CapsuleEmit
