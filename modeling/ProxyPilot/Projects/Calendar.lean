import Mathlib.Tactic.SplitIfs
import ProxyPilot.Data.Checks

namespace ProxyPilot.Projects

open Data

/-! # Wall times of schedules (`operational-project-schedule-time.js`)

Instants are milliseconds; the reading of an instant in a timezone is given.

Every day has one date, every date one text.
-/

structure LocalTime where
  date : String
  time : String
  weekday : Nat

/-- `Intl.DateTimeFormat` by timezone; an unknown timezone throws. -/
abbrev Zones := String → Option (Int → LocalTime)

inductive Frequency where
  | once | daily | weekly
deriving DecidableEq

structure Timing where
  frequency : Frequency
  date : Option String
  time : String
  weekday : Option Nat
  timezone : String

structure Refusal where
  status : Nat
  message : String

abbrev Answer := Except Refusal

def fail (status : Nat) (message : String) : Answer α := .error ⟨status, message⟩

def failIf (refused : Prop) [Decidable refused] (status : Nat) (message : String) : Answer Unit :=
  require (decide ¬ refused) ⟨status, message⟩

def orFail (status : Nat) (message : String) (value : Option α) : Answer α := demand value ⟨status, message⟩

def minute : Int := 60000

def day : Int := 86400000

/-- Days from 1970-01-01; a day past the end of its month rolls over. -/
def daysOfDate (year month dayOfMonth : Int) : Int :=
  let shifted := if month ≤ 2 then year - 1 else year
  let era := shifted.fdiv 400
  let yearOfEra := shifted - era * 400
  let dayOfYear := (153 * (if month > 2 then month - 3 else month + 9) + 2) / 5 + dayOfMonth - 1
  era * 146097 + (yearOfEra * 365 + yearOfEra / 4 - yearOfEra / 100 + dayOfYear) - 719468

def dateOfDays (days : Int) : Int × Int × Int :=
  let shifted := days + 719468
  let era := shifted.fdiv 146097
  let dayOfEra := shifted - era * 146097
  let yearOfEra := (dayOfEra - dayOfEra / 1460 + dayOfEra / 36524 - dayOfEra / 146096) / 365
  let dayOfYear := dayOfEra - (365 * yearOfEra + yearOfEra / 4 - yearOfEra / 100)
  let monthFromMarch := (5 * dayOfYear + 2) / 153
  let month := if monthFromMarch < 10 then monthFromMarch + 3 else monthFromMarch - 9
  let year := yearOfEra + era * 400
  (if month ≤ 2 then year + 1 else year, month, dayOfYear - (153 * monthFromMarch + 2) / 5 + 1)

def digits (text : List Char) : Option Nat :=
  text.foldl (fun number c => number.bind fun n => if c.isDigit then some (10 * n + (c.toNat - 48))
    else none) (some 0)

/-- `Date.parse(date + 'T00:00Z')`. -/
def dateParse (date : String) : Option Int :=
  match date.toList with
  | [y₁, y₂, y₃, y₄, '-', m₁, m₂, '-', d₁, d₂] => do
    let year ← digits [y₁, y₂, y₃, y₄]
    let month ← digits [m₁, m₂]
    let dayOfMonth ← digits [d₁, d₂]
    guard (1 ≤ month ∧ month ≤ 12 ∧ 1 ≤ dayOfMonth ∧ dayOfMonth ≤ 31)
    return daysOfDate year month dayOfMonth * day
  | _ => none

def padded (width : Nat) (number : Int) : String :=
  let text := toString number
  String.ofList (List.replicate (width - text.length) '0') ++ text

/-- `toISOString().slice(0, 10)`. -/
def isoDate (instant : Int) : String :=
  let (year, month, dayOfMonth) := dateOfDays (instant.fdiv day)
  padded 4 year ++ "-" ++ padded 2 month ++ "-" ++ padded 2 dayOfMonth

example : isoDate ((dateParse "2026-02-30").getD 0) = "2026-03-02" := by decide

def scheduleTiming (zones : Zones) (timing : Timing) : Answer Timing :=
  if (zones timing.timezone).isNone then fail 400 "Choose a valid timezone"
  else if timing.frequency = .once ∧ ¬ timing.date.any (fun date => (dateParse date).any (isoDate · = date)) then
    fail 400 "Choose a valid date"
  else if timing.frequency = .weekly ∧ timing.weekday = none then fail 400 "Choose a weekday"
  else .ok timing

def LocalTime.key (parts : LocalTime) : String := parts.date ++ "T" ++ parts.time

def occurrenceKey (format : Int → LocalTime) (instant : Int) : String := (format instant).key

/-- The wall times the schedule runs at. -/
def Timing.falls (timing : Timing) (exclude : Option String) (parts : LocalTime) : Bool :=
  parts.time = timing.time && !(exclude = some parts.key) &&
    !(timing.frequency = .once && !(timing.date = some parts.date)) &&
    !(timing.frequency = .weekly && !(timing.weekday = some parts.weekday))

/-- The first of so many minutes that falls on the schedule. -/
def search (format : Int → LocalTime) (falls : LocalTime → Bool) : Nat → Int → Option Int
  | 0, _ => none
  | count + 1, instant =>
    if falls (format instant) then some instant else search format falls count (instant + minute)

def nextSchedule (format : Int → LocalTime) (timing : Timing) (after : Int)
    (exclude : Option String) : Option Int :=
  let begins := after.fdiv minute * minute + minute
  let found (start ends : Int) :=
    search format (timing.falls exclude) ((ends - start + minute - 1).fdiv minute).toNat start
  if timing.frequency = .once then
    (timing.date.bind dateParse).bind fun date => found (max begins (date - day)) (date + 2 * day)
  else found begins (begins + 8 * day)

theorem dayOfYear_range {dayOfEra yearOfEra : Int} (positive : 0 ≤ dayOfEra) (bound : dayOfEra < 146097)
    (year : yearOfEra = (dayOfEra - dayOfEra / 1460 + dayOfEra / 36524 - dayOfEra / 146096) / 365) :
    0 ≤ dayOfEra - (365 * yearOfEra + yearOfEra / 4 - yearOfEra / 100) ∧
      dayOfEra - (365 * yearOfEra + yearOfEra / 4 - yearOfEra / 100) ≤ 365 := by
  rcases Int.lt_or_le dayOfEra 146096 with less | last
  · have before : dayOfEra / 146096 = 0 := by omega
    have century : yearOfEra / 100 = dayOfEra / 36524 := by omega
    rw [before] at year
    rw [century]
    generalize same : dayOfEra / 36524 = c at *
    -- omega follows the leap years within each century of the era
    have centuries : c = 0 ∨ c = 1 ∨ c = 2 ∨ c = 3 := by omega
    rcases centuries with rfl | rfl | rfl | rfl <;> omega
  · obtain rfl : dayOfEra = 146096 := by omega
    subst year
    decide

theorem dateOfDays_range (days : Int) :
    1 ≤ (dateOfDays days).2.1 ∧ (dateOfDays days).2.1 ≤ 12 ∧ 1 ≤ (dateOfDays days).2.2 ∧
      (dateOfDays days).2.2 ≤ 31 := by
  have whole := Int.mul_fdiv_add_fmod (days + 719468) 146097
  have low := Int.fmod_nonneg_of_pos (days + 719468) (show (0 : Int) < 146097 by decide)
  have high := Int.fmod_lt_of_pos (days + 719468) (show (0 : Int) < 146097 by decide)
  simp only [dateOfDays]
  generalize dayOfEra_eq : days + 719468 - (days + 719468).fdiv 146097 * 146097 = dayOfEra
  generalize yearOfEra_eq : (dayOfEra - dayOfEra / 1460 + dayOfEra / 36524 - dayOfEra / 146096) / 365 = yearOfEra
  have range := dayOfYear_range (by omega) (by omega) yearOfEra_eq.symm
  generalize dayOfEra - (365 * yearOfEra + yearOfEra / 4 - yearOfEra / 100) = dayOfYear at *
  generalize month_eq : (5 * dayOfYear + 2) / 153 = month
  refine ⟨?_, ?_, ?_, ?_⟩
  · split <;> omega
  · split <;> omega
  · omega
  · omega

/-- The days up to a date that is given by its era, its year there and its day in a year from March on. -/
theorem daysOfDate_march {era yearOfEra dayOfYear month : Int} (year : 0 ≤ yearOfEra ∧ yearOfEra < 400)
    (inYear : 0 ≤ dayOfYear ∧ dayOfYear ≤ 365) (monthOf : (5 * dayOfYear + 2) / 153 = month) :
    daysOfDate (if (if month < 10 then month + 3 else month - 9) ≤ 2 then yearOfEra + era * 400 + 1
      else yearOfEra + era * 400)
        (if month < 10 then month + 3 else month - 9) (dayOfYear - (153 * month + 2) / 5 + 1) =
      era * 146097 + (yearOfEra * 365 + yearOfEra / 4 - yearOfEra / 100 + dayOfYear) - 719468 := by
  have backEra : (yearOfEra + era * 400).fdiv 400 = era := by
    rw [Int.fdiv_eq_ediv_of_nonneg _ (by decide)]
    omega
  have backYear : yearOfEra + era * 400 - era * 400 = yearOfEra := by omega
  rcases Int.lt_or_le month 10 with early | late
  · have march : ¬ month + 3 ≤ 2 := by omega
    have later : month + 3 > 2 := by omega
    have backMonth : month + 3 - 3 = month := by omega
    simp only [daysOfDate, early, march, later, if_true, if_false, backEra, backYear, backMonth]
    omega
  · have early : ¬ month < 10 := by omega
    have january : month - 9 ≤ 2 := by omega
    have later : ¬ month - 9 > 2 := by omega
    have backShift : yearOfEra + era * 400 + 1 - 1 = yearOfEra + era * 400 := by omega
    have backMonth : month - 9 + 9 = month := by omega
    simp only [daysOfDate, early, january, later, if_true, if_false, backShift, backEra, backYear, backMonth]
    omega

/-- The days of a date count back to it. -/
theorem daysOfDate_dateOfDays (days : Int) :
    daysOfDate (dateOfDays days).1 (dateOfDays days).2.1 (dateOfDays days).2.2 = days := by
  have whole := Int.mul_fdiv_add_fmod (days + 719468) 146097
  have low := Int.fmod_nonneg_of_pos (days + 719468) (show (0 : Int) < 146097 by decide)
  have high := Int.fmod_lt_of_pos (days + 719468) (show (0 : Int) < 146097 by decide)
  have positive : 0 ≤ days + 719468 - (days + 719468).fdiv 146097 * 146097 := by omega
  have range := dayOfYear_range positive (by omega) rfl
  exact (daysOfDate_march (by omega) range rfl).trans (by omega)

/-- One step of `digits`. -/
def digitStep (number : Option Nat) (c : Char) : Option Nat :=
  number.bind fun n => if c.isDigit then some (10 * n + (c.toNat - 48)) else none

theorem digits_fold (text : List Char) : digits text = text.foldl digitStep (some 0) := rfl

theorem digitStep_ok {c : Char} (digit : c.isDigit = true) (n : Nat) :
    digitStep (some n) c = some (10 * n + (c.toNat - 48)) := by
  simp [digitStep, digit]

theorem foldl_digitStep_ok {text : List Char} (all : ∀ c ∈ text, c.isDigit = true) (value : Nat) :
    text.foldl digitStep (some value) = some (Nat.ofDigitChars 10 text value) := by
  induction text generalizing value with
  | nil => simp
  | cons c rest ih =>
    rw [List.forall_mem_cons] at all
    rw [List.foldl_cons, digitStep_ok all.1, ih all.2, Nat.ofDigitChars_cons]
    rfl

theorem foldl_digitStep_none (text : List Char) : text.foldl digitStep none = none := by
  induction text with
  | nil => rfl
  | cons c rest ih => exact ih

theorem foldl_digitStep_digit {text : List Char} {value number : Nat}
    (read : text.foldl digitStep (some value) = some number) : ∀ c ∈ text, c.isDigit = true := by
  induction text generalizing value with
  | nil => simp
  | cons c rest ih =>
    by_cases digit : c.isDigit = true
    · rw [List.foldl_cons, digitStep_ok digit] at read
      exact List.forall_mem_cons.mpr ⟨digit, ih read⟩
    · rw [List.foldl_cons, show digitStep (some value) c =
        none by simp [digitStep, digit], foldl_digitStep_none] at read
      contradiction

theorem padded_toList (width : Nat) (number : Int) : (padded width number).toList =
    List.replicate (width - (toString number).length) '0' ++ (toString number).toList := by
  simp [padded]

/-- A number is read back from its padded text; a minus sign is no digit. -/
theorem digits_padded {width number : Nat} {value : Int} (read : digits (padded width value).toList = some number) :
    value = number := by
  rw [digits_fold] at read
  have all := foldl_digitStep_digit read
  rw [foldl_digitStep_ok all, Option.some.injEq, padded_toList] at read
  rw [padded_toList] at all
  rcases Int.lt_or_le value 0 with negative | positive
  · have sign : '-' ∈ (toString value).toList := by
      simp [Int.repr_eq_if, Int.not_le.mpr negative]
    exact absurd (all '-' (List.mem_append_right _ sign)) (by decide)
  · simp only [Int.toString_eq_repr, Int.repr_eq_if, positive, if_true, Nat.repr_eq_ofList_toDigits,
      String.toList_ofList, Nat.ofDigitChars_append, Nat.ofDigitChars_replicate_zero, Nat.mul_zero,
      Nat.ofDigitChars_ten_toDigits] at read
    omega

theorem padded_two_length {number : Int} (positive : 0 ≤ number) (bound : number < 60) :
    (padded 2 number).toList.length = 2 := by
  have small : ∀ n : Fin 60, (padded 2 n.val).toList.length = 2 := by decide
  have named := small ⟨number.toNat, by omega⟩
  rwa [show ((number.toNat : Nat) : Int) = number by omega] at named

theorem isoDate_toList (instant : Int) : (isoDate instant).toList =
    (padded 4 (dateOfDays (instant.fdiv day)).1).toList ++ '-' ::
      ((padded 2 (dateOfDays (instant.fdiv day)).2.1).toList ++ '-' ::
        (padded 2 (dateOfDays (instant.fdiv day)).2.2).toList) := by
  simp [isoDate]

/-- A parsed date is four, two and two digits. -/
theorem dateParse_some {date : String} {parsed : Int} (read : dateParse date = some parsed) :
    ∃ years months days year month dayOfMonth, date.toList = years ++ '-' :: (months ++ '-' :: days) ∧
      months.length = 2 ∧ days.length = 2 ∧ digits years = some year ∧ digits months = some month ∧
      digits days = some dayOfMonth ∧ parsed = daysOfDate year month dayOfMonth * day := by
  unfold dateParse at read
  split at read
  case h_2 => contradiction
  rename_i y₁ y₂ y₃ y₄ m₁ m₂ d₁ d₂ shape
  obtain ⟨year, years, read⟩ := Option.bind_eq_some_iff.mp read
  obtain ⟨month, months, read⟩ := Option.bind_eq_some_iff.mp read
  obtain ⟨dayOfMonth, days, read⟩ := Option.bind_eq_some_iff.mp read
  obtain ⟨_, _, read⟩ := Option.bind_eq_some_iff.mp read
  exact ⟨_, _, _, year, month, dayOfMonth, shape, rfl, rfl, years, months, days, (Option.some.inj read).symm⟩

/-- The date of an instant parses to the start of its day. -/
theorem dateParse_isoDate {instant parsed : Int} (read : dateParse (isoDate instant) = some parsed) :
    parsed = instant.fdiv day * day := by
  have range := dateOfDays_range (instant.fdiv day)
  have counted := daysOfDate_dateOfDays (instant.fdiv day)
  have monthLength := padded_two_length (show 0 ≤ (dateOfDays (instant.fdiv day)).2.1 by omega) (by omega)
  have dayLength := padded_two_length (show 0 ≤ (dateOfDays (instant.fdiv day)).2.2 by omega) (by omega)
  obtain ⟨years, months, days, year, month, dayOfMonth, shape, monthsLength, daysLength, isYear,
      isMonth, isDay, rfl⟩ :=
    dateParse_some read
  rw [isoDate_toList] at shape
  obtain ⟨sameYear, shape⟩ := List.append_inj' shape (by simp [monthLength, dayLength, monthsLength, daysLength])
  obtain ⟨sameMonth, shape⟩ := List.append_inj' (List.cons.inj shape).2 (by simp [dayLength, daysLength])
  rw [← sameYear] at isYear
  rw [← sameMonth] at isMonth
  rw [← (List.cons.inj shape).2] at isDay
  rw [← digits_padded isYear, ← digits_padded isMonth, ← digits_padded isDay, counted]

end ProxyPilot.Projects
