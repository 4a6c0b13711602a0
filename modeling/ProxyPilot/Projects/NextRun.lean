import Mathlib.Order.Bounds.Defs
import ProxyPilot.Projects.Calendar
import ProxyPilot.Projects.Tasks

namespace ProxyPilot.Projects

open Data

/-! # The next run of a schedule

A search of so many minutes against the set of all later minutes that fall on
the schedule.
-/

/-- How far a zone's clock is ahead of universal time, which is never a day. -/
structure Clock where
  offset : Int → Int
  bounded : ∀ instant, -day < offset instant ∧ offset instant < day

def Clock.wall (clock : Clock) (instant : Int) : Int := instant + clock.offset instant

def timeOfDay (wall : Int) : String :=
  padded 2 ((wall.fdiv 3600000).fmod 24) ++ ":" ++ padded 2 ((wall.fdiv minute).fmod 60)

/-- `formatToParts` of an instant. -/
def Clock.reading (clock : Clock) (instant : Int) : LocalTime where
  date := isoDate (clock.wall instant)
  time := timeOfDay (clock.wall instant)
  weekday := (((clock.wall instant).fdiv day + 4).fmod 7).toNat

section Search

variable {format : Int → LocalTime} {falls : LocalTime → Bool} {count : Nat} {start found : Int}

theorem search_some (searched : search format falls count start = some found) :
    ∃ k < count, found = start + k * minute ∧ falls (format found) = true ∧
      ∀ j < k, falls (format (start + j * minute)) = false := by
  induction count generalizing start with
  | zero => contradiction
  | succ count ih =>
    rw [search] at searched
    split at searched
    case isTrue falling =>
      cases searched
      exact ⟨0, by omega, by simp, falling, by simp⟩
    case isFalse standing =>
      obtain ⟨k, bound, rfl, falling, before⟩ := ih searched
      refine ⟨k + 1, by omega, by rw [Int.natCast_add, Int.add_mul]; omega, falling, fun j less => ?_⟩
      cases j with
      | zero => simpa using standing
      | succ j =>
        have earlier := before j (by omega)
        rwa [show start + minute + j * minute = start + (j + 1 : Nat) * minute by
          rw [Int.natCast_add, Int.add_mul]; omega] at earlier

theorem search_none (searched : search format falls count start = none) :
    ∀ k < count, falls (format (start + k * minute)) = false := by
  induction count generalizing start with
  | zero => simp
  | succ count ih =>
    rw [search] at searched
    split at searched
    case isTrue => contradiction
    case isFalse standing =>
      intro k bound
      cases k with
      | zero => simpa using standing
      | succ k =>
        have later := ih searched k (by omega)
        rwa [show start + minute + k * minute = start + (k + 1 : Nat) * minute by
          rw [Int.natCast_add, Int.add_mul]; omega] at later

/-- The whole minutes from `start` up to `ends` are the turns of the loop. -/
theorem window_turn {ends instant : Int} (wholeStart : start % minute = 0) (whole : instant % minute = 0)
    (from_ : start ≤ instant) (below : instant < ends) :
    ∃ k < ((ends - start + minute - 1).fdiv minute).toNat, instant = start + k * minute := by
  rw [Int.fdiv_eq_ediv_of_nonneg _ (by decide)]
  simp only [minute] at *
  exact ⟨((instant - start) / 60000).toNat, by omega, by omega⟩

theorem window_below {ends : Int} {k : Nat} (bound : k < ((ends - start + minute - 1).fdiv minute).toNat) :
    start + k * minute < ends := by
  rw [Int.fdiv_eq_ediv_of_nonneg _ (by decide)] at bound
  simp only [minute] at *
  omega

theorem window_some {ends : Int} (wholeStart : start % minute = 0)
    (searched : search format falls ((ends - start + minute - 1).fdiv minute).toNat start = some found) :
    found < ends ∧ IsLeast { instant | instant % minute = 0 ∧ start ≤ instant ∧
      falls (format instant) = true } found := by
  obtain ⟨k, bound, rfl, falling, before⟩ := search_some searched
  have below := window_below bound
  refine ⟨below, ⟨?_, ?_, falling⟩, fun other ⟨whole, from_, falls⟩ => ?_⟩
  · simp only [minute] at *; omega
  · simp only [minute]; omega
  · by_contra less
    have earlierTurn : other < start + k * minute := by omega
    obtain ⟨j, -, rfl⟩ := window_turn wholeStart whole from_ earlierTurn
    have earlier : j < k := by simp only [minute] at less; omega
    simp [before j earlier] at falls

theorem window_none {ends instant : Int} (wholeStart : start % minute = 0)
    (searched : search format falls ((ends - start + minute - 1).fdiv minute).toNat start = none)
    (whole : instant % minute = 0) (from_ : start ≤ instant) (falling : falls (format instant) = true) :
    ends ≤ instant := by
  by_contra below
  obtain ⟨k, bound, rfl⟩ := window_turn wholeStart whole from_ (Int.not_le.mp below)
  simp [search_none searched k bound] at falling

end Search

/-- The whole minutes after an instant at which the clock shows a wall time of the schedule that is not excluded. -/
def upcoming (format : Int → LocalTime) (timing : Timing) (after : Int) (exclude : Option String) : Set Int :=
  { instant | instant % minute = 0 ∧ after < instant ∧ (format instant).time = timing.time ∧
      exclude ≠ some (occurrenceKey format instant) ∧
      (timing.frequency = .once → timing.date = some (format instant).date) ∧
      (timing.frequency = .weekly → timing.weekday = some (format instant).weekday) }

/-- The next run is the least of these minutes, and there is none only where there is no such minute. -/
def NextRight (format : Int → LocalTime) (timing : Timing) (after : Int) (exclude : Option String) : Prop :=
  (∀ next, nextSchedule format timing after exclude = some next →
    IsLeast (upcoming format timing after exclude) next) ∧
    (nextSchedule format timing after exclude = none → upcoming format timing after exclude = ∅)

variable {format : Int → LocalTime} {timing : Timing} {after instant : Int} {exclude : Option String}

theorem mem_upcoming : instant ∈ upcoming format timing after exclude ↔
    instant % minute = 0 ∧ after < instant ∧ timing.falls exclude (format instant) = true := by
  simp [upcoming, Timing.falls, occurrenceKey, imp_iff_not_or, and_assoc]

/-- The first whole minute after an instant. -/
theorem begins_le_iff (whole : instant % minute = 0) :
    after.fdiv minute * minute + minute ≤ instant ↔ after < instant := by
  rw [Int.fdiv_eq_ediv_of_nonneg _ (by decide)]
  simp only [minute] at *
  omega

theorem begins_whole (after : Int) : (after.fdiv minute * minute + minute) % minute = 0 := by
  simp only [minute]
  omega

theorem window_upcoming (start : Int) (from_ : ∀ instant ∈ upcoming format timing after exclude, start ≤ instant)
    (later : after.fdiv minute * minute + minute ≤ start) :
    { instant | instant % minute = 0 ∧ start ≤ instant ∧ timing.falls exclude (format instant) = true } =
      upcoming format timing after exclude := by
  ext instant
  rw [mem_upcoming]
  constructor
  · rintro ⟨whole, reached, falling⟩
    exact ⟨whole, (begins_le_iff whole).mp (by omega), falling⟩
  · rintro ⟨whole, above, falling⟩
    exact ⟨whole, from_ instant (mem_upcoming.mpr ⟨whole, above, falling⟩), falling⟩

theorem nextSchedule_recurring (recurring : timing.frequency ≠ .once) : nextSchedule format timing after exclude =
    search format (timing.falls exclude)
      ((after.fdiv minute * minute + minute + 8 * day - (after.fdiv minute * minute + minute) +
        minute - 1).fdiv minute).toNat
      (after.fdiv minute * minute + minute) := by
  simp only [nextSchedule, recurring, if_false]

theorem within_week_iff (whole : instant % minute = 0) :
    instant < after.fdiv minute * minute + minute + 8 * day ↔ instant ≤ after + 8 * day := by
  rw [Int.fdiv_eq_ediv_of_nonneg _ (by decide)]
  simp only [minute, day] at *
  omega

/-- What a daily or weekly search finds is the least next run and within eight days. -/
theorem recurring_found {found : Int} (recurring : timing.frequency ≠ .once)
    (next : nextSchedule format timing after exclude = some found) :
    IsLeast (upcoming format timing after exclude) found ∧ found ≤ after + 8 * day := by
  have same : _ = upcoming format timing after exclude := window_upcoming (after.fdiv minute * minute + minute)
    (fun instant member =>
      (begins_le_iff (mem_upcoming.mp member).1).mpr (mem_upcoming.mp member).2.1) (Int.le_refl _)
  obtain ⟨below, least⟩ := window_some (begins_whole after) ((nextSchedule_recurring recurring).symm.trans next)
  rw [same] at least
  exact ⟨least, (within_week_iff (mem_upcoming.mp least.1).1).mp below⟩

/-- Where it finds nothing, the eight days hold nothing. -/
theorem recurring_missed (recurring : timing.frequency ≠ .once)
    (next : nextSchedule format timing after exclude = none)
    (member : instant ∈ upcoming format timing after exclude) : ¬ instant ≤ after + 8 * day := by
  intro near
  obtain ⟨whole, above, falling⟩ := mem_upcoming.mp member
  have past := window_none (begins_whole after) ((nextSchedule_recurring recurring).symm.trans next) whole
    ((begins_le_iff whole).mpr above) falling
  exact absurd ((within_week_iff whole).mpr near) (Int.not_lt.mpr past)

theorem recurring_some_iff (recurring : timing.frequency ≠ .once) :
    nextSchedule format timing after exclude ≠ none ↔
    ∃ instant ∈ upcoming format timing after exclude, instant ≤ after + 8 * day := by
  cases next : nextSchedule format timing after exclude with
  | none => simpa using fun instant member => Int.not_le.mp (recurring_missed recurring next member)
  | some found =>
    obtain ⟨least, near⟩ := recurring_found recurring next
    simpa using ⟨found, least.1, near⟩

theorem recurring_right (recurring : timing.frequency ≠ .once)
    (reached : nextSchedule format timing after exclude ≠ none) :
    NextRight format timing after exclude := by
  exact ⟨fun found next => (recurring_found recurring next).1, fun missed => absurd missed reached⟩

variable {zones : Zones} {clock : Clock}

theorem scheduleTiming_date (accepted : scheduleTiming zones timing = .ok timing)
    (once : timing.frequency = .once) : ∃ date start, timing.date = some date ∧ dateParse date = some start := by
  simp only [scheduleTiming, once, true_and] at accepted
  split at accepted
  · contradiction
  split at accepted
  · contradiction
  rename_i valid
  cases dated : timing.date with
  | none => simp [dated] at valid
  | some date =>
    cases parsed : dateParse date with
    | none => simp [dated, parsed] at valid
    | some start => exact ⟨date, start, rfl, parsed⟩

/-- A date's wall times lie from a day before its start to a day after its end. -/
theorem once_near {date : String} {start : Int} (dated : timing.date = some date)
    (parsed : dateParse date = some start) (once : timing.frequency = .once)
    (member : instant ∈ upcoming clock.reading timing after exclude) :
    start - day < instant ∧ instant < start + 2 * day := by
  obtain ⟨-, -, -, -, onDate, -⟩ := member
  obtain rfl : isoDate (clock.wall instant) = date := (Option.some.inj (dated.symm.trans (onDate once))).symm
  have start_eq := dateParse_isoDate parsed
  have ahead := clock.bounded instant
  rw [Int.fdiv_eq_ediv_of_nonneg _ (by decide)] at start_eq
  simp only [Clock.wall, day] at *
  omega

theorem once_right (accepted : scheduleTiming zones timing = .ok timing)
    (once : timing.frequency = .once) : NextRight clock.reading timing after exclude := by
  obtain ⟨date, start, dated, parsed⟩ := scheduleTiming_date accepted once
  have wholeDay : start % day = 0 := by
    obtain ⟨-, -, -, year, month, dayOfMonth, -, -, -, -, -, -, rfl⟩ := dateParse_some parsed
    exact Int.mul_emod_left _ _
  have wholeStart : max (after.fdiv minute * minute + minute) (start - day) % minute = 0 := by
    have first := begins_whole after
    rcases Int.le_total (after.fdiv minute * minute + minute) (start - day) with le | le
    · rw [Int.max_eq_right le]
      simp only [day, minute] at *
      omega
    · rwa [Int.max_eq_left le]
  have same : _ = upcoming clock.reading timing after exclude := window_upcoming
    (max (after.fdiv minute * minute + minute) (start - day))
    (fun instant member => by
      have begun := (begins_le_iff (mem_upcoming.mp member).1).mpr (mem_upcoming.mp member).2.1
      have near := once_near dated parsed once member
      omega)
    (Int.le_max_left _ _)
  have body : nextSchedule clock.reading timing after exclude = search clock.reading (timing.falls exclude)
      ((start + 2 * day - max (after.fdiv minute * minute + minute) (start - day) + minute - 1).fdiv minute).toNat
      (max (after.fdiv minute * minute + minute) (start - day)) := by
    simp [nextSchedule, once, dated, parsed]
  constructor
  · intro found next
    have least := (window_some wholeStart (body.symm.trans next)).2
    rwa [same] at least
  · intro next
    refine Set.eq_empty_iff_forall_notMem.mpr fun instant member => ?_
    have inWindow := member
    rw [← same] at inWindow
    have past := window_none wholeStart (body.symm.trans next) inWindow.1 inWindow.2.1 inWindow.2.2
    exact absurd (once_near dated parsed once member).2 (Int.not_lt.mpr past)

/-- One hour forward at two o'clock on Sunday, 11 January 1970. -/
def gapClock : Clock where
  offset instant := if instant < 10 * day + 7200000 then 0 else 3600000
  bounded instant := by split <;> decide

def gapZones : Zones := fun timezone => if timezone = "Gap" then some gapClock.reading else none

def sundayTiming : Timing where
  frequency := .weekly
  date := none
  time := "02:30"
  weekday := some 0
  timezone := "Gap"

/-- The run of Sunday, 4 January. -/
def sundayRun : Int := 3 * day + 9000000

theorem timeOfDay_half_past_two {wall : Int} (same : timeOfDay wall = "02:30") :
    (wall.fdiv 3600000).fmod 24 = 2 ∧ (wall.fdiv minute).fmod 60 = 30 := by
  have hourLow := Int.fmod_nonneg_of_pos (wall.fdiv 3600000) (show (0 : Int) < 24 by decide)
  have hourHigh := Int.fmod_lt_of_pos (wall.fdiv 3600000) (show (0 : Int) < 24 by decide)
  have hourLength := padded_two_length hourLow (by omega)
  have shape : (padded 2 ((wall.fdiv 3600000).fmod 24)).toList ++ ':' ::
      (padded 2 ((wall.fdiv minute).fmod 60)).toList =
      ['0', '2'] ++ ':' :: ['3', '0'] := by
    simpa [timeOfDay] using congrArg String.toList same
  obtain ⟨hour, rest⟩ := List.append_inj shape hourLength
  have two : digits (padded 2 ((wall.fdiv 3600000).fmod 24)).toList = some 2 := by rw [hour]; rfl
  have thirty : digits (padded 2 ((wall.fdiv minute).fmod 60)).toList = some 30 :=
    by rw [(List.cons.inj rest).2]; rfl
  exact ⟨digits_padded two, digits_padded thirty⟩

/-- No minute of the eight days after that run shows half past two on a Sunday. -/
theorem gap_week {exclude : Option String} {instant : Int}
    (member : instant ∈ upcoming gapClock.reading sundayTiming sundayRun exclude) :
    ¬ instant ≤ sundayRun + 8 * day := by
  obtain ⟨whole, above, time, -, -, weekly⟩ := member
  have weekday := Option.some.inj (weekly rfl)
  obtain ⟨hour, minutes⟩ := timeOfDay_half_past_two time
  simp only [Clock.reading, Clock.wall, gapClock, sundayRun, minute, day] at *
  rw [Int.fdiv_eq_ediv_of_nonneg _ (by decide), Int.fmod_eq_emod_of_nonneg _ (by decide)] at weekday hour minutes
  by_cases before : instant < 10 * 86400000 + 7200000
  · simp only [before, if_true] at weekday hour minutes
    omega
  · simp only [before, if_false] at weekday hour minutes
    omega

theorem spring_gap_stops_schedule :
    scheduleTiming gapZones sundayTiming = .ok sundayTiming ∧
      nextSchedule gapClock.reading sundayTiming sundayRun none = none ∧
      17 * day + 5400000 ∈ upcoming gapClock.reading sundayTiming sundayRun none := by
  refine ⟨rfl, ?_, mem_upcoming.mpr (by decide)⟩
  by_contra reached
  obtain ⟨instant, member, near⟩ := (recurring_some_iff (by decide)).mp reached
  exact gap_week member near

theorem insertDue_next {state next : TaskState} {current s : Schedule} {rest : List Schedule} {uuid : String}
    {now dueAt : Int} (recurring : s.timing.frequency ≠ .once) (zone : zones s.timing.timezone = some format)
    (due : s.nextRunAt = some dueAt) (claimed : insertDue zones state current s rest uuid now = some next) :
    next.schedules.get current.id =
      some { current with nextRunAt := nextSchedule format s.timing now (some (occurrenceKey format dueAt)) } := by
  simp only [insertDue, due, zone, Option.bind_eq_bind, Option.bind_some, recurring, if_false] at claimed
  cases claimed
  exact Table.get_put_self _ _

/-- The next run is the least minute of the schedule, and a recurring schedule has one, exactly when the timing
names one date or a minute of the eight days to come falls on it; the tick writes no next run otherwise. -/
theorem schedule_has_next_run (clock : Clock) (zones : Zones) (timing : Timing)
    (zone : zones timing.timezone = some clock.reading) (accepted : scheduleTiming zones timing = .ok timing) :
    (∀ after exclude,
      (NextRight clock.reading timing after exclude ∧
          (timing.frequency ≠ .once → nextSchedule clock.reading timing after exclude ≠ none)) ↔
        timing.frequency = .once ∨
          ∃ instant ∈ upcoming clock.reading timing after exclude, instant ≤ after + 8 * day) ∧
    ∀ state current s rest uuid now dueAt next, s.timing = timing → timing.frequency ≠ .once →
      s.nextRunAt = some dueAt →
      insertDue zones state current s rest uuid now = some next →
      ((∃ row, next.schedules.get current.id = some row ∧ row.nextRunAt ≠ none) ↔
        ∃ instant ∈ upcoming clock.reading timing now (some (occurrenceKey clock.reading dueAt)),
          instant ≤ now + 8 * day) := by
  constructor
  · intro after exclude
    by_cases once : timing.frequency = .once
    · simp [once, once_right accepted once]
    · simp only [once, not_false_eq_true, true_imp_iff, false_or, ne_eq]
      exact ⟨fun right => (recurring_some_iff once).mp right.2, fun near =>
        ⟨recurring_right once ((recurring_some_iff once).mpr near), (recurring_some_iff once).mpr near⟩⟩
  · rintro state current s rest uuid now dueAt next rfl recurring due claimed
    rw [insertDue_next recurring zone due claimed]
    simpa using recurring_some_iff recurring

theorem schedule_has_next_run_sunday : NextRight gapClock.reading sundayTiming 0 none := by
  have right := (schedule_has_next_run gapClock gapZones sundayTiming (if_pos rfl) rfl).1 0 none
  have near : ∃ instant ∈ upcoming gapClock.reading sundayTiming 0 none, instant ≤ 0 + 8 * day :=
    ⟨sundayRun, mem_upcoming.mpr (by decide), by decide⟩
  exact (right.mpr (.inr near)).1

end ProxyPilot.Projects
