import Mathlib.Tactic.Common
import Vtoydump.Basis.Fault
import Vtoydump.Basis.Packing

/-!
# Time stamps of entries

`time.c` converts between seconds since the Unix epoch and the packed local
date and time of an entry.  Every fourth year counts as leap, in both
directions, so the two are inverse to each other over all 128 years that seven
bits can name, and a later time is stored some multiple of 128 years too early.
Sums of `long long` values are converted to `time_t`; those of `int` and `long`
values are signed, so they fault when a `time_t` of 32 bits cannot hold them.
-/

namespace Vtoydump.Exfat

open CRun

def secInDay : Nat := 86400

def secInYear : Nat := 365 * secInDay

/-- `EPOCH_DIFF_DAYS`: ten years and their leap days. -/
def epochDiffDays : Nat := 10 * 365 + 10 / 4

def epochDiffSec : Nat := epochDiffDays * secInDay

def leapYears (year : Nat) : Nat := (1980 + year - 1) / 4 - (1980 - 1) / 4

def isLeapYear (year : Nat) : Bool := (1980 + year) % 4 == 0

def daysInYear (month : Nat) : Nat :=
  [0, 0, 31, 59, 90, 120, 151, 181, 212, 243, 273, 304, 334].getD month 0

inductive TimeT where
  | bits32
  | bits64
  deriving DecidableEq, Repr

namespace TimeT

def modulus : TimeT → Nat
  | .bits32 => 4294967296
  | .bits64 => 18446744073709551616

def Holds (timeT : TimeT) (value : Int) : Prop :=
  -(timeT.modulus : Int) ≤ 2 * value ∧ 2 * value < timeT.modulus

instance (timeT : TimeT) (value : Int) : Decidable (timeT.Holds value) :=
  inferInstanceAs (Decidable (_ ∧ _))

def store (timeT : TimeT) (value : Int) : Int := Int.bmod value timeT.modulus

/-- The result of a signed operation, a fault when a `time_t` cannot hold it. -/
def check (timeT : TimeT) (value : Int) : Run Int :=
  if timeT.Holds value then .ok value else .error .intOverflow

variable {timeT : TimeT} {value bound : Int}

theorem check_of_holds (holds : timeT.Holds value) : timeT.check value = .ok value := if_pos holds

theorem store_of_holds (holds : timeT.Holds value) : timeT.store value = value := by
  unfold Holds at holds
  rw [store, Int.bmod_eq_of_le] <;> omega

theorem Holds.mono (holds : timeT.Holds bound) (lower : 0 ≤ value) (upper : value ≤ bound) :
    timeT.Holds value := by
  unfold Holds at holds ⊢
  omega

end TimeT

/-- `exfat_timezone`, in seconds to the west, in a build with this `time_t`. -/
structure Timezone where
  timeT : TimeT
  seconds : Int

/-- The exFAT epoch, a local time, in seconds since the Unix epoch. -/
def Timezone.epoch (timezone : Timezone) : Int := epochDiffSec + timezone.seconds

def exfatExfat2unix (timezone : Timezone) (date time : UInt16) (centisec : UInt8) : Run Int :=
  let day := (date &&& 0x1f).toNat
  let month := (date >>> 5 &&& 0xf).toNat
  let year := (date >>> 9).toNat
  let twosec := (time &&& 0x1f).toNat
  let min := (time >>> 5 &&& 0x3f).toNat
  let hour := (time >>> 11).toNat
  let store := timezone.timeT.store
  let check := timezone.timeT.check
  if day = 0 ∨ month = 0 ∨ 12 < month then .ok 0
  else if 23 < hour ∨ 59 < min ∨ 29 < twosec then .ok 0
  else if 199 < centisec.toNat then .ok 0
  else do
    let unixTime := store epochDiffSec
    let unixTime := store (unixTime + (year * secInYear + leapYears year * secInDay : Nat))
    let unixTime := store (unixTime + (daysInYear month * secInDay : Nat))
    let unixTime :=
      if isLeapYear year ∧ 2 < month then store (unixTime + secInDay) else unixTime
    let unixTime := store (unixTime + ((day - 1) * secInDay : Nat))
    let unixTime := store (unixTime + (hour * 3600 : Nat))
    let unixTime := store (unixTime + (min * 60 : Nat))
    let unixTime ← check (unixTime + (twosec * 2 : Nat))
    let unixTime ← check (unixTime + (centisec.toNat / 100 : Nat))
    check (unixTime + timezone.seconds)

/-- The loop over the months: the month, and the days that are left of it. -/
def findMonth (year : Nat) (days : Int) : Nat → Nat → Nat × Int
  | 0, _ => (0, days)
  | left + 1, month =>
      let leapDay : Int := if isLeapYear year ∧ month = 2 then 1 else 0
      let leapSub : Int := if isLeapYear year ∧ 3 ≤ month then 1 else 0
      if month = 12 ∨ days - leapSub < daysInYear (month + 1) + leapDay then
        (month, days - (daysInYear month + leapSub))
      else findMonth year days left (month + 1)

def intOfTime (value : Int) : Int := Int.bmod value 4294967296

def exfatUnix2exfat (timezone : Timezone) (unixTime : Int) :
    Run (UInt16 × UInt16 × UInt8) := do
  let shift := timezone.timeT.store (epochDiffSec + timezone.seconds)
  -- time before the exFAT epoch cannot be represented
  let elapsed ← timezone.timeT.check (max unixTime shift - shift)
  let seconds := elapsed.toNat
  let total := intOfTime (seconds / secInDay : Nat)
  let quadrupled ← checkInt (4 * total)
  let year := UInt16.ofInt (quadrupled.tdiv (4 * 365 + 1))
  let days := total - (year.toNat * 365 + leapYears year.toNat : Nat)
  let (month, rest) := findMonth year.toNat days 12 1
  let day := UInt16.ofInt (rest + 1)
  let hour := seconds % secInDay / 3600
  let min := seconds % 3600 / 60
  let twosec := seconds % 60 / 2
  return (UInt16.ofNat (day.toNat ||| month <<< 5 ||| year.toNat <<< 9),
    UInt16.ofNat (twosec ||| min <<< 5 ||| hour <<< 11), UInt8.ofNat (seconds % 2 * 100))

section Fields

theorem toNat_date (date : UInt16) :
    (date &&& 0x1f).toNat = date.toNat % 32 ∧
      (date >>> 5 &&& 0xf).toNat = date.toNat / 32 % 16 ∧
      (date >>> 9).toNat = date.toNat / 512 := by
  refine ⟨?_, ?_, ?_⟩
  · exact (UInt16.toNat_and _ _).trans (Nat.and_two_pow_sub_one_eq_mod _ 5)
  · rw [UInt16.toNat_and, UInt16.toNat_shiftRight, Nat.shiftRight_eq_div_pow]
    exact Nat.and_two_pow_sub_one_eq_mod _ 4
  · rw [UInt16.toNat_shiftRight, Nat.shiftRight_eq_div_pow]
    rfl

theorem toNat_time (time : UInt16) :
    (time &&& 0x1f).toNat = time.toNat % 32 ∧
      (time >>> 5 &&& 0x3f).toNat = time.toNat / 32 % 64 ∧
      (time >>> 11).toNat = time.toNat / 2048 := by
  refine ⟨?_, ?_, ?_⟩
  · exact (UInt16.toNat_and _ _).trans (Nat.and_two_pow_sub_one_eq_mod _ 5)
  · rw [UInt16.toNat_and, UInt16.toNat_shiftRight, Nat.shiftRight_eq_div_pow]
    exact Nat.and_two_pow_sub_one_eq_mod _ 6
  · rw [UInt16.toNat_shiftRight, Nat.shiftRight_eq_div_pow]
    rfl

end Fields

def monthStart (leap : Bool) (month : Nat) : Nat :=
  daysInYear month + if leap ∧ 3 ≤ month then 1 else 0

def monthStop (leap : Bool) (month : Nat) : Nat :=
  if month = 12 then 365 + leap.toNat else monthStart leap (month + 1)

def yearStart (year : Nat) : Nat := year * 365 + leapYears year

section Calendar

variable {year days : Nat}

theorem monthStop_le {leap : Bool} : ∀ month < 13, ∀ later < 13, 0 < month → month < later →
    monthStop leap month ≤ monthStart leap later := by
  cases leap <;> decide +kernel

theorem monthStop_le_add {leap : Bool} : ∀ month < 13, 0 < month →
    monthStop leap month ≤ monthStart leap month + 31 := by
  cases leap <;> decide +kernel

theorem monthStop_le_year {leap : Bool} : ∀ month < 13, 0 < month →
    monthStop leap month ≤ 365 + leap.toNat := by
  cases leap <;> decide +kernel

/-- The loop ends at the month that the day lies in. -/
theorem findMonth_spec {left month : Nat} (started : monthStart (isLeapYear year) month ≤ days)
    (inYear : days < 365 + (isLeapYear year).toNat) (passes : month + left = 13)
    (more : 0 < left) (counted : 0 < month) :
    ∃ found, findMonth year days left month =
        (found, ((days - monthStart (isLeapYear year) found : Nat) : Int)) ∧
      0 < found ∧ found ≤ 12 ∧ monthStart (isLeapYear year) found ≤ days ∧
      days < monthStop (isLeapYear year) found := by
  induction left generalizing month with
  | zero => omega
  | succ left inductionHypothesis =>
      have start : ((daysInYear month : Int) +
          if isLeapYear year ∧ 3 ≤ month then 1 else 0) =
          (monthStart (isLeapYear year) month : Nat) := by
        unfold monthStart
        split_ifs <;> rfl
      have limit : (days : Int) - (if isLeapYear year ∧ 3 ≤ month then 1 else 0) <
          daysInYear (month + 1) + (if isLeapYear year ∧ month = 2 then 1 else 0) ↔
          days < monthStart (isLeapYear year) (month + 1) := by
        unfold monthStart
        cases isLeapYear year
        · simp
        · simp
          split_ifs <;> omega
      rw [findMonth]
      simp only [start, limit]
      split_ifs with stop
      · refine ⟨month, ?_, counted, by omega, started, ?_⟩
        · rw [Nat.cast_sub started]
        · unfold monthStop
          split_ifs with last
          · exact inYear
          · exact stop.resolve_left last
      · rw [not_or, Nat.not_lt] at stop
        exact inductionHypothesis stop.2 (by omega) (by omega) (Nat.succ_pos month)

theorem month_unique {leap : Bool} {month other : Nat} (counted : 0 < month)
    (countedOther : 0 < other) (named : month ≤ 12) (namedOther : other ≤ 12)
    (begun : monthStart leap month ≤ days) (begunOther : monthStart leap other ≤ days)
    (inside : days < monthStop leap month) (insideOther : days < monthStop leap other) :
    month = other := by
  rcases Nat.lt_trichotomy month other with before | same | after
  · have apart := @monthStop_le leap month (by omega) other (by omega) counted before
    omega
  · exact same
  · have apart := @monthStop_le leap other (by omega) month (by omega) countedOther after
    omega

theorem yearStart_succ (year : Nat) :
    yearStart (year + 1) = yearStart year + 365 + (isLeapYear year).toNat := by
  unfold yearStart leapYears
  cases leap : isLeapYear year <;>
    simp only [isLeapYear, beq_iff_eq, beq_eq_false_iff_ne] at leap <;>
    simp only [Bool.toNat_true, Bool.toNat_false] <;> omega

/-- The division by the days of four years finds the year of a day. -/
theorem year_eq_iff : 4 * days / 1461 = year ↔
    yearStart year ≤ days ∧ days < yearStart (year + 1) := by
  unfold yearStart leapYears
  omega

end Calendar

/-- The date and time of an entry, field by field. -/
structure Stamp where
  year : Nat
  month : Nat
  day : Nat
  hour : Nat
  min : Nat
  twosec : Nat
  second : Nat
  year_lt : year < 128
  month_pos : 0 < month
  month_le : month ≤ 12
  day_pos : 0 < day
  day_le : monthStart (isLeapYear year) month + day ≤ monthStop (isLeapYear year) month
  hour_lt : hour < 24
  min_lt : min < 60
  twosec_lt : twosec < 30
  second_lt : second < 2

namespace Stamp

variable (stamp : Stamp)

def date : UInt16 := UInt16.ofNat (stamp.day ||| stamp.month <<< 5 ||| stamp.year <<< 9)

def time : UInt16 := UInt16.ofNat (stamp.twosec ||| stamp.min <<< 5 ||| stamp.hour <<< 11)

def centisec : UInt8 := UInt8.ofNat (stamp.second * 100)

def days : Nat :=
  yearStart stamp.year + monthStart (isLeapYear stamp.year) stamp.month + (stamp.day - 1)

def seconds : Nat :=
  stamp.days * secInDay + stamp.hour * 3600 + stamp.min * 60 + stamp.twosec * 2 + stamp.second

theorem day_lt : stamp.day < 32 := by
  have room := @monthStop_le_add (isLeapYear stamp.year) stamp.month
    (Nat.lt_succ_of_le stamp.month_le) stamp.month_pos
  have last := stamp.day_le
  omega

theorem toNat_date : stamp.date.toNat = stamp.day + 32 * (stamp.month + 16 * stamp.year) := by
  have day := stamp.day_lt
  have month := stamp.month_le
  have year := stamp.year_lt
  have packed := @packed_eq stamp.day stamp.month stamp.year 5 4 day (by omega)
  rw [date, UInt16.toNat_ofNat', packed]
  omega

theorem toNat_time : stamp.time.toNat = stamp.twosec + 32 * (stamp.min + 64 * stamp.hour) := by
  have hour := stamp.hour_lt
  have min := stamp.min_lt
  have twosec := stamp.twosec_lt
  have packed := @packed_eq stamp.twosec stamp.min stamp.hour 5 6 (by omega) (by omega)
  rw [time, UInt16.toNat_ofNat', packed]
  omega

theorem toNat_centisec : stamp.centisec.toNat = stamp.second * 100 := by
  have second := stamp.second_lt
  rw [centisec, UInt8.toNat_ofNat']
  omega

/-- Up to the seconds, no sum of the conversion is larger than its local time. -/
theorem local_eq : epochDiffSec + stamp.seconds =
    epochDiffSec + (stamp.year * secInYear + leapYears stamp.year * secInDay) +
      daysInYear stamp.month * secInDay +
      (if isLeapYear stamp.year ∧ 2 < stamp.month then secInDay else 0) +
      (stamp.day - 1) * secInDay + stamp.hour * 3600 + stamp.min * 60 + stamp.twosec * 2 +
      stamp.second := by
  rw [seconds, days, yearStart, monthStart, secInYear, secInDay]
  cases isLeapYear stamp.year with
  | false =>
      simp only [Bool.false_eq_true, false_and, if_false]
      omega
  | true =>
      simp only [true_and]
      split_ifs <;> omega

/-- The conversion of an entry's stamp, with whatever hundredths of the second, when
`time_t` holds its local time and its time. -/
theorem exfatExfat2unix_eq (timezone : Timezone) {centisec : UInt8}
    (whole : centisec.toNat / 100 = stamp.second)
    (localHeld : timezone.timeT.Holds (epochDiffSec + stamp.seconds : Nat))
    (held : timezone.timeT.Holds (timezone.epoch + stamp.seconds)) :
    exfatExfat2unix timezone stamp.date stamp.time centisec =
      .ok (timezone.epoch + stamp.seconds) := by
  have day := stamp.day_lt
  have dayPos := stamp.day_pos
  have month := stamp.month_le
  have monthPos := stamp.month_pos
  have year := stamp.year_lt
  have hour := stamp.hour_lt
  have min := stamp.min_lt
  have twosec := stamp.twosec_lt
  have second := stamp.second_lt
  obtain ⟨dateDay, dateMonth, dateYear⟩ := Exfat.toNat_date stamp.date
  obtain ⟨timeTwosec, timeMin, timeHour⟩ := Exfat.toNat_time stamp.time
  rw [stamp.toNat_date] at dateDay dateMonth dateYear
  rw [stamp.toNat_time] at timeTwosec timeMin timeHour
  have fieldDay : (stamp.date &&& 0x1f).toNat = stamp.day := by omega
  have fieldMonth : (stamp.date >>> 5 &&& 0xf).toNat = stamp.month := by omega
  have fieldYear : (stamp.date >>> 9).toNat = stamp.year := by omega
  have fieldTwosec : (stamp.time &&& 0x1f).toNat = stamp.twosec := by omega
  have fieldMin : (stamp.time >>> 5 &&& 0x3f).toNat = stamp.min := by omega
  have fieldHour : (stamp.time >>> 11).toNat = stamp.hour := by omega
  have sum := stamp.local_eq
  have stored : ∀ value : Nat, value ≤ epochDiffSec + stamp.seconds →
      timezone.timeT.store (value : Int) = value := fun value upper =>
    TimeT.store_of_holds (localHeld.mono (Int.natCast_nonneg _) (Int.ofNat_le.mpr upper))
  have checked : ∀ value : Nat, value ≤ epochDiffSec + stamp.seconds →
      timezone.timeT.check (value : Int) = .ok (value : Int) := fun value upper =>
    TimeT.check_of_holds (localHeld.mono (Int.natCast_nonneg _) (Int.ofNat_le.mpr upper))
  unfold exfatExfat2unix
  simp only [fieldDay, fieldMonth, fieldYear, fieldTwosec, fieldMin, fieldHour, whole]
  rw [if_neg (by omega), if_neg (by omega), if_neg (by omega)]
  have leapDay : ∀ value : Nat,
      value + (if isLeapYear stamp.year ∧ 2 < stamp.month then secInDay else 0) ≤
        epochDiffSec + stamp.seconds →
      (if isLeapYear stamp.year ∧ 2 < stamp.month then
        timezone.timeT.store ((value : Int) + secInDay) else value) =
      ((value + if isLeapYear stamp.year ∧ 2 < stamp.month then secInDay else 0 : Nat) : Int) := by
    intro value upper
    split_ifs at upper ⊢
    · rw [← Nat.cast_add, stored _ upper]
    · rfl
  rw [stored _ (by omega), ← Nat.cast_add, stored _ (by omega), ← Nat.cast_add,
    stored _ (by omega), leapDay _ (by omega), ← Nat.cast_add, stored _ (by omega),
    ← Nat.cast_add, stored _ (by omega), ← Nat.cast_add, stored _ (by omega), ← Nat.cast_add,
    checked _ (by omega), ok_bind, ← Nat.cast_add, checked _ (by omega), ok_bind, ← sum]
  have total : ((epochDiffSec + stamp.seconds : Nat) : Int) + timezone.seconds =
      timezone.epoch + stamp.seconds := by
    rw [Timezone.epoch, Nat.cast_add]
    omega
  rw [total]
  exact TimeT.check_of_holds held

end Stamp

def stampSeconds : Nat := yearStart 128 * secInDay

/-- Every second of the 128 years has a date and a time. -/
theorem exists_stamp {seconds : Nat} (inside : seconds < stampSeconds) :
    ∃ stamp : Stamp, stamp.seconds = seconds := by
  have bounded : seconds / secInDay < yearStart 128 := by
    rw [Nat.div_lt_iff_lt_mul (by decide)]
    exact inside
  obtain ⟨begun, ended⟩ := (@year_eq_iff _ (seconds / secInDay)).mp rfl
  have year : 4 * (seconds / secInDay) / 1461 < 128 := by
    have limit : yearStart 128 = 46752 := by decide
    omega
  generalize number : 4 * (seconds / secInDay) / 1461 = found at begun ended year
  rw [yearStart_succ] at ended
  obtain ⟨month, -, counted, named, started, stopped⟩ := @findMonth_spec found
    (seconds / secInDay - yearStart found) 12 1 (by simp [monthStart, daysInYear]) (by omega) rfl
    (by decide) (by decide)
  refine ⟨⟨found, month,
    seconds / secInDay - yearStart found - monthStart (isLeapYear found) month + 1,
    seconds % secInDay / 3600, seconds % 3600 / 60, seconds % 60 / 2, seconds % 2, year, counted,
    named, Nat.succ_pos _, by omega, ?_, by omega, by omega, by omega⟩, ?_⟩
  · rw [secInDay]
    omega
  · rw [Stamp.seconds, Stamp.days]
    dsimp only
    rw [secInDay] at begun started ⊢
    omega

theorem toNat_ofInt_natCast {value : Nat} (small : value < 65536) :
    (UInt16.ofInt (value : Int)).toNat = value := by
  rw [UInt16.ofInt, UInt16.toNat_ofNat']
  omega

theorem computed_year {days year : Nat} (found : 4 * days / 1461 = year) (small : year < 65536) :
    intOfTime (days : Nat) = days ∧ checkInt (4 * (days : Int)) = .ok (4 * (days : Int)) ∧
      (UInt16.ofInt ((4 * (days : Int)).tdiv (4 * 365 + 1))).toNat = year := by
  refine ⟨?_, ?_, ?_⟩
  · unfold intOfTime
    rw [Int.bmod_eq_of_le] <;> omega
  · apply checkInt_of_inInt
    unfold InInt intMax
    omega
  · have quotient : (4 * (days : Int)).tdiv (4 * 365 + 1) = (year : Nat) := by
      have positive : (0 : Int) ≤ 4 * (days : Int) := by omega
      rw [Int.tdiv_eq_ediv_of_nonneg positive]
      omega
    rw [quotient, toNat_ofInt_natCast small]

section Rounds

theorem isLeapYear_round (year round : Nat) : isLeapYear (year + 128 * round) = isLeapYear year := by
  unfold isLeapYear
  congr 1
  omega

theorem yearStart_round (year round : Nat) :
    yearStart (year + 128 * round) = yearStart year + 46752 * round := by
  unfold yearStart leapYears
  omega

theorem days_round {year : Nat} (round : Nat) {days : Nat} (begun : yearStart year ≤ days) :
    ((days + 46752 * round : Nat) : Int) -
      ((year + 128 * round) * 365 + leapYears (year + 128 * round) : Nat) =
      ((days - yearStart year : Nat) : Int) := by
  have start := yearStart_round year round
  rw [yearStart] at start
  rw [start, Nat.cast_add, Nat.cast_add, Nat.cast_sub begun]
  ring

end Rounds

/-- The date of a later round of 128 years is stored as the one of the first. -/
theorem Stamp.date_round (stamp : Stamp) (round : Nat) :
    UInt16.ofNat (stamp.day ||| stamp.month <<< 5 ||| (stamp.year + 128 * round) <<< 9) =
      stamp.date := by
  have month := stamp.month_le
  have packed := @packed_eq stamp.day stamp.month (stamp.year + 128 * round) 5 4 stamp.day_lt
    (by omega)
  rw [← UInt16.toNat_inj, stamp.toNat_date, UInt16.toNat_ofNat', packed]
  have day := stamp.day_lt
  have year := stamp.year_lt
  omega

/-- The conversion to an entry finds the date and the time of the second, in the 128 years
that an entry can name. -/
theorem Stamp.exfatUnix2exfat_eq (stamp : Stamp) (round : Nat) {timezone : Timezone}
    {unixTime : Int} {elapsed : Nat} (few : round < 512)
    (epochHeld : timezone.timeT.Holds timezone.epoch) (held : timezone.timeT.Holds elapsed)
    (time : max unixTime timezone.epoch = timezone.epoch + elapsed)
    (parts : stamp.seconds + stampSeconds * round = elapsed) :
    exfatUnix2exfat timezone unixTime = .ok (stamp.date, stamp.time, stamp.centisec) := by
  have day := stamp.day_lt
  have dayPos := stamp.day_pos
  have hour := stamp.hour_lt
  have min := stamp.min_lt
  have twosec := stamp.twosec_lt
  have second := stamp.second_lt
  have last := stamp.day_le
  have years := stamp.year_lt
  have shift : timezone.timeT.store (epochDiffSec + timezone.seconds) = timezone.epoch :=
    TimeT.store_of_holds epochHeld
  have behind : max unixTime timezone.epoch - timezone.epoch = elapsed := by
    rw [time, add_sub_cancel_left]
  have span : stampSeconds = 46752 * 86400 := rfl
  rw [span, Stamp.seconds, secInDay] at parts
  have days : elapsed / secInDay = stamp.days + 46752 * round := by
    rw [secInDay]
    omega
  have daily : elapsed % secInDay / 3600 = stamp.hour ∧ elapsed % 3600 / 60 = stamp.min ∧
      elapsed % 60 / 2 = stamp.twosec ∧ elapsed % 2 = stamp.second := by
    rw [secInDay]
    omega
  have inYear := @monthStop_le_year (isLeapYear stamp.year) stamp.month
    (Nat.lt_succ_of_le stamp.month_le) stamp.month_pos
  have rest : stamp.days - yearStart stamp.year =
      monthStart (isLeapYear stamp.year) stamp.month + (stamp.day - 1) := by
    rw [Stamp.days]
    omega
  have begun : yearStart stamp.year ≤ stamp.days := by
    rw [Stamp.days, Nat.add_assoc]
    exact Nat.le_add_right _ _
  have year : 4 * (stamp.days + 46752 * round) / 1461 = stamp.year + 128 * round := by
    have next := yearStart_succ (stamp.year + 128 * round)
    have first := yearStart_round stamp.year round
    rw [isLeapYear_round] at next
    rw [year_eq_iff]
    omega
  obtain ⟨total, quadrupled, named⟩ := computed_year year (by omega)
  obtain ⟨found, searched, counted, foundLe, started, stopped⟩ :=
    @findMonth_spec (stamp.year + 128 * round) (stamp.days - yearStart stamp.year) 12 1
      (by simp [monthStart, daysInYear]) (by rw [isLeapYear_round, rest]; omega) rfl (by decide)
      (by decide)
  rw [isLeapYear_round] at searched started stopped
  have month : found = stamp.month :=
    month_unique counted stamp.month_pos foundLe stamp.month_le started (by rw [rest]; omega)
      stopped (by rw [rest]; omega)
  subst found
  have left := days_round round begun
  have dayFound : (UInt16.ofInt (((stamp.days - yearStart stamp.year -
      monthStart (isLeapYear stamp.year) stamp.month : Nat) : Int) + 1)).toNat = stamp.day := by
    have one : ((stamp.days - yearStart stamp.year -
        monthStart (isLeapYear stamp.year) stamp.month : Nat) : Int) + 1 = (stamp.day : Nat) := by
      rw [rest]
      omega
    rw [one, toNat_ofInt_natCast (by omega)]
  have date := stamp.date_round round
  generalize stamp.days + 46752 * round = whole at days total quadrupled named left
  generalize stamp.year + 128 * round = found at named left searched date
  rw [exfatUnix2exfat]
  simp only [shift, behind, TimeT.check_of_holds held]
  rw [ok_bind]
  simp only [Int.toNat_natCast, days, total, quadrupled]
  rw [ok_bind]
  simp only [named, left, searched, dayFound, date, daily.1, daily.2.1, daily.2.2.1,
    daily.2.2.2]
  rfl

/-- A time that `time_t` holds together with its local time, before the year 65536 of the
exFAT epoch. -/
structure Timezone.Reaches (timezone : Timezone) (unixTime : Int) : Prop where
  held : timezone.timeT.Holds unixTime
  localHeld : timezone.timeT.Holds (unixTime - timezone.seconds)
  year : unixTime < timezone.epoch + 512 * stampSeconds

/-- A time as an entry with centiseconds keeps it: from the epoch on, in its round of 128
years. -/
def Timezone.kept (timezone : Timezone) (unixTime : Int) : Int :=
  timezone.epoch + (max unixTime timezone.epoch - timezone.epoch) % stampSeconds

section Kept

variable {timezone : Timezone} {unixTime : Int}

/-- What is stored of a time, and what is read again. -/
theorem Timezone.Reaches.exists_stamp (reaches : timezone.Reaches unixTime)
    (epochHeld : timezone.timeT.Holds timezone.epoch) :
    ∃ stamp : Stamp, exfatUnix2exfat timezone unixTime =
        .ok (stamp.date, stamp.time, stamp.centisec) ∧
      timezone.kept unixTime = timezone.epoch + stamp.seconds ∧
      timezone.timeT.Holds (epochDiffSec + stamp.seconds : Nat) ∧
      timezone.timeT.Holds (timezone.epoch + stamp.seconds) := by
  have year := reaches.year
  have held := reaches.held
  have localHeld := reaches.localHeld
  obtain ⟨elapsed, known⟩ : ∃ elapsed : Nat,
      max unixTime timezone.epoch = timezone.epoch + elapsed :=
    ⟨(max unixTime timezone.epoch - timezone.epoch).toNat, by omega⟩
  obtain ⟨stamp, seconds⟩ := @Exfat.exists_stamp (elapsed % stampSeconds)
    (Nat.mod_lt _ (by decide))
  have parts : stamp.seconds + stampSeconds * (elapsed / stampSeconds) = elapsed := by
    rw [seconds, Nat.mod_add_div]
  have start : timezone.epoch = epochDiffSec + timezone.seconds := rfl
  have origin : epochDiffSec = 315532800 := rfl
  have small : (315532800 : Int) * 2 < timezone.timeT.modulus := by
    cases timezone.timeT <;> decide
  have elapsedHeld : timezone.timeT.Holds elapsed := by
    unfold TimeT.Holds at held localHeld ⊢
    omega
  have upper : stamp.seconds ≤ elapsed := by
    rw [seconds]
    exact Nat.mod_le _ _
  have few : elapsed / stampSeconds < 512 := by
    rw [Nat.div_lt_iff_lt_mul (by decide)]
    have below : (elapsed : Int) < 512 * stampSeconds := by
      have positive : (0 : Int) < stampSeconds := by decide
      omega
    exact_mod_cast below
  refine ⟨stamp, stamp.exfatUnix2exfat_eq _ few epochHeld elapsedHeld known parts, ?_, ?_, ?_⟩
  · rw [kept, known, seconds, Int.natCast_emod, add_sub_cancel_left]
  · unfold TimeT.Holds at held localHeld ⊢
    omega
  · unfold TimeT.Holds at held epochHeld ⊢
    omega

end Kept

end Vtoydump.Exfat
