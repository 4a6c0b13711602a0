import ProxyPilot.Data.Counting
import ProxyPilot.Data.Paths
import ProxyPilot.Data.Text
import ProxyPilot.Projects.Calendar

namespace ProxyPilot.Cron

open Data

/-! # Cron expressions (`backup-cron.js`)

A field is a list of pieces, and a piece is a loop over the values it stands for.

A piece is met by a value when its loop reaches the value.  A piece freezes when its loop
never ends: it counts down, or it counts up to numbers that are too large for its step.
-/

abbrev Text := List Char

def number (n : Nat) : Number := .ofInt n

/-- `parseInt(text, 10)` -/
def parseInt (text : Text) : Number :=
  match text.dropWhile whiteSpace with
  | '-' :: rest => signed (-1) rest
  | '+' :: rest => signed 1 rest
  | rest => signed 1 rest
where
  signed (sign : Int) (text : Text) : Number :=
    let digits := text.takeWhile Char.isDigit
    if digits = [] then .nan else .ofInt (sign * (Nat.ofDigitChars 10 digits 0 : Nat))

/-- `n || 1` -/
def orOne (n : Number) : Number := if n = .nan ∨ n = number 0 then number 1 else n

/-- The loop of a piece: `for (v = from; v <= to; v += step)`. -/
structure Loop where
  start : Number
  last : Number
  step : Number
deriving DecidableEq

def bodyOf (piece : Text) : Text :=
  if piece.contains '/' then
    let b := (piece.splitOn '/').headD []
    if b = [] then ['*'] else b
  else piece

def stepOf (piece : Text) : Number :=
  if piece.contains '/' then orOne (parseInt ((piece.splitOn '/').getD 1 [])) else number 1

/-- The loop that a piece stands for, unless it is skipped. -/
def pieceLoop (lo hi : Nat) (piece : Text) : Option Loop :=
  let body := bodyOf piece
  if body = ['*'] then some ⟨number lo, number hi, stepOf piece⟩
  else if body.contains '-' then
    some ⟨parseInt ((body.splitOn '-').headD []), parseInt ((body.splitOn '-').getD 1 []), stepOf piece⟩
  else
    let n := parseInt body
    if n = .nan then none else some ⟨n, n, stepOf piece⟩

/-- One turn of the loop: day of the week 7 is Sunday, which is 0. -/
def turn (value : Number) (lo hi : Nat) (v : Number) : Option Unit :=
  if lo = 0 ∧ hi = 7 ∧ v.same (number 7) then (if value.same (number 0) then some () else none)
  else if v.same value then some ()
  else none

def matchPiece (value : Number) (lo hi : Nat) (piece : Text) (fuel : Nat) : Option (Option Unit) :=
  match pieceLoop lo hi piece with
  | none => some none
  | some loop => Number.count loop.last loop.step (turn value lo hi) fuel loop.start

def matchField (field : Text) (value : Number) (lo hi : Nat) (fuel : Nat) : Option Bool :=
  if field = ['*'] then some true
  else (firstAnswer (matchPiece value lo hi) (field.splitOn ',') fuel).map Option.isSome

/-- What the getters of a `Date` return. -/
structure Moment where
  minutes : Number
  hours : Number
  date : Number
  month : Number
  day : Number

/-- `expr.trim().split(/\s+/)`, without the seconds. -/
def cronFields (expr : Text) : Option (List Text) :=
  let parts := (oneSpace (trim expr)).splitOn ' '
  if parts.length < 5 ∨ 6 < parts.length then none
  else some (if parts.length = 5 then parts else parts.drop 1)

structure Check where
  field : Text
  value : Number
  lo : Nat
  hi : Nat

def Check.holds (check : Check) (fuel : Nat) : Option Bool :=
  matchField check.field check.value check.lo check.hi fuel

/-- The fields in the order in which they are matched. -/
def cronChecks (fields : List Text) (dt : Moment) : List Check :=
  let values :=
    [(dt.minutes, 0, 59), (dt.hours, 0, 23), (dt.date, 1, 31), (dt.month.add (number 1), 1, 12), (dt.day, 0, 7)]
  (fields.zip values).map fun entry => ⟨entry.1, entry.2.1, entry.2.2.1, entry.2.2.2⟩

def cronMatches (expr : Text) (dt : Moment) (fuel : Nat) : Option Bool :=
  match cronFields expr with
  | none => some false
  | some fields =>
    (firstAnswer (fun check fuel => (Check.holds check fuel).map fun holds => if holds then none
      else some ()) (cronChecks fields dt) fuel).map
      Option.isNone

/-- The time zone of the host: the getters of a `Date`, and `setSeconds(0, 0)`. -/
structure Zone where
  moment : Int → Moment
  wholeMinute : Int → Int

def minutesOfYear : Nat := 366 * 24 * 60

/-- The time that the loop of `computeNextRunMs` looks at in its turn `i`. -/
def Zone.turn (zone : Zone) (fromMs : Int) (i : Nat) : Int := zone.wholeMinute (fromMs + 60000) + i * 60000

def computeNextRunMs (zone : Zone) (expr : Text) (fromMs : Int) (fuel : Nat) : Option (Option Int) :=
  if expr = [] then some none
  else match cronFields expr with
    | none => some none
    | some _ =>
      firstAnswer
        (fun i fuel => (cronMatches expr (zone.moment (zone.turn fromMs i)) fuel).map fun fires =>
          if fires then some (zone.turn fromMs i) else none)
        (List.range minutesOfYear) fuel

def fieldChar (c : Char) : Bool := c.isDigit || ['*', ',', '-', '/'].contains c

def isValidCronExpr (expr : Text) : Bool :=
  !expr.isEmpty &&
    match cronFields expr with
    | none => false
    | some fields => fields.all fun f => !f.isEmpty && f.all fieldChar

example : isValidCronExpr "0 3 1-7,15 * */2".toList = true ∧ isValidCronExpr "@daily".toList = false := by decide

section

-- every proof below asks for these equations: here they are made once
attribute [local simp] parseInt parseInt.signed orOne stepOf pieceLoop matchPiece matchField

end

theorem number_low (n : Nat) : Number.le (number n) .minusInfinity = false := by
  have above := Number.ofInt_mono (m := 0) (n := n) (by omega)
  cases low : Number.le (number n) .minusInfinity with
  | false => rfl
  | true =>
    have zero := Number.le_trans above low
    rw [Number.ofInt_of_small (by decide)] at zero
    cases zero

theorem parseInt_low {text : Text} (unsigned : '-' ∉ text) : (parseInt text).le .minusInfinity = false := by
  have bare : '-' ∉ text.dropWhile whiteSpace := fun member => unsigned (List.dropWhile_subset _ member)
  have natural : ∀ rest, (parseInt.signed 1 rest).le .minusInfinity = false := by
    intro rest
    unfold parseInt.signed
    simp only []
    split
    · rfl
    · simpa [number] using number_low (Nat.ofDigitChars 10 (rest.takeWhile Char.isDigit) 0)
  unfold parseInt
  split
  · next rest shape => simp [shape] at bare
  · exact natural _
  · exact natural _

theorem one_positive : (number 1).positive = true := by
  rw [number, Number.ofInt_of_small (by decide)]
  rfl

theorem orOne_moves (n : Number) : (orOne n).positive = true ∨ (orOne n).negative = true := by
  unfold orOne
  split
  · exact Or.inl one_positive
  · next some =>
      simp only [not_or] at some
      cases n with
      | nan => exact absurd rfl some.1
      | infinity => exact Or.inl rfl
      | minusInfinity => exact Or.inr rfl
      | whole n fits =>
        have nonzero : n ≠ 0 := by
          rintro rfl
          exact some.2 (Number.ofInt_of_fits fits).symm
        simp only [Number.positive, Number.negative, decide_eq_true_eq]
        omega

theorem stepOf_moves (piece : Text) : (stepOf piece).positive = true ∨ (stepOf piece).negative = true := by
  unfold stepOf
  split
  · exact orOne_moves _
  · exact Or.inl one_positive

theorem mem_getD (pieces : List Text) (i : Nat) : pieces.getD i [] ∈ pieces ∨ pieces.getD i [] = [] := by
  cases found : pieces[i]? with
  | none => exact Or.inr (by simp [List.getD, found])
  | some piece => exact Or.inl (by simpa [List.getD, found] using List.mem_of_getElem? found)

theorem unsigned_part (body : Text) (i : Nat) : '-' ∉ (body.splitOn '-').getD i [] := by
  rcases mem_getD (body.splitOn '-') i with member | empty
  · exact not_mem_of_mem_splitOn member
  · rw [empty]
    exact List.not_mem_nil

theorem pieceLoop_some {lo hi : Nat} {piece : Text} {loop : Loop} (stands : pieceLoop lo hi piece = some loop) :
    (loop.step.positive = true ∨ loop.step.negative = true) ∧ loop.start.le .minusInfinity = false := by
  have first : ∀ body : Text, (body.splitOn '-').headD [] = (body.splitOn '-').getD 0 [] := by
    intro body
    cases body.splitOn '-' <;> rfl
  unfold pieceLoop at stands
  simp only [] at stands
  split at stands
  · cases stands
    exact ⟨stepOf_moves piece, number_low lo⟩
  · split at stands
    · cases stands
      refine ⟨stepOf_moves piece, parseInt_low ?_⟩
      rw [first]
      exact unsigned_part _ 0
    · next unsigned =>
        split at stands
        · cases stands
        · cases stands
          exact ⟨stepOf_moves piece, parseInt_low (by simpa using unsigned)⟩

section Pieces

variable (value : Number) (lo hi : Nat)

/-- The loop of the piece reaches the value. -/
def PieceMeets (piece : Text) : Prop := ∃ loop, pieceLoop lo hi piece = some loop ∧
    Number.Meets loop.start loop.last loop.step (turn value lo hi)

/-- The loop of the piece neither reaches the value nor leaves its range. -/
def PieceFreezes (piece : Text) : Prop :=
  ∃ loop, pieceLoop lo hi piece = some loop ∧ Number.Freezes loop.start loop.last loop.step (turn value lo hi)

variable {value lo hi}

theorem steady_matchPiece (piece : Text) : Steady (matchPiece value lo hi piece) := by
  unfold matchPiece
  cases pieceLoop lo hi piece with
  | none => exact steady_const _
  | some loop => exact Number.steady_count

variable {piece : Text} {field : Text}

theorem halts_matchPiece : Halts (matchPiece value lo hi piece) ↔ ¬PieceFreezes value lo hi piece := by
  unfold matchPiece PieceFreezes
  cases stands : pieceLoop lo hi piece with
  | none => simp [Halts]
  | some loop =>
    obtain ⟨moves, low⟩ := pieceLoop_some stands
    simpa using Number.halts_count_iff moves low

theorem passes_matchPiece :
    Returns (matchPiece value lo hi piece) none ↔ ¬PieceFreezes value lo hi piece ∧
      ¬PieceMeets value lo hi piece := by
  unfold matchPiece PieceFreezes PieceMeets
  cases stands : pieceLoop lo hi piece with
  | none => simp [Returns]
  | some loop =>
    obtain ⟨moves, low⟩ := pieceLoop_some stands
    simpa using Number.returns_none_iff moves low

theorem meets_matchPiece : Returns (matchPiece value lo hi piece) (some ()) ↔ PieceMeets value lo hi piece := by
  unfold matchPiece PieceMeets
  cases stands : pieceLoop lo hi piece with
  | none => simp [Returns]
  | some loop =>
    obtain ⟨moves, low⟩ := pieceLoop_some stands
    have meets := @Number.returns_some_iff _ loop.start loop.last loop.step (turn value lo hi) moves low
    constructor
    · intro returned
      exact ⟨loop, rfl, meets.mp ⟨(), returned⟩⟩
    · rintro ⟨_, same, met⟩
      cases same
      obtain ⟨_, returned⟩ := meets.mpr met
      exact returned

/-- No piece of these freezes or is met. -/
def Passed (value : Number) (lo hi : Nat) (pieces : List Text) : Prop :=
  ∀ piece ∈ pieces, ¬PieceFreezes value lo hi piece ∧ ¬PieceMeets value lo hi piece

/-- The first piece that freezes or is met is met. -/
def FieldMeets (check : Check) : Prop :=
  check.field = ['*'] ∨ ∃ front piece back, check.field.splitOn ',' = front ++ piece :: back ∧
    Passed check.value check.lo check.hi front ∧ PieceMeets check.value check.lo check.hi piece

/-- The first piece that freezes or is met freezes. -/
def FieldFreezes (check : Check) : Prop :=
  check.field ≠ ['*'] ∧ ∃ front piece back, check.field.splitOn ',' = front ++ piece :: back ∧
    Passed check.value check.lo check.hi front ∧ PieceFreezes check.value check.lo check.hi piece

theorem steady_matchField (field : Text) : Steady (matchField field value lo hi) := by
  unfold matchField
  split
  · exact steady_const _
  · exact steady_map (steady_firstAnswer steady_matchPiece _)

theorem halts_matchField : Halts (matchField field value lo hi) ↔ ¬FieldFreezes ⟨field, value, lo, hi⟩ := by
  unfold matchField FieldFreezes
  split
  · next star => simp [star, Halts]
  · next other =>
      rw [halts_map, halts_firstAnswer steady_matchPiece]
      simp only [passes_matchPiece, halts_matchPiece, Passed, ne_eq, other, not_false_eq_true,
        true_and, not_exists, not_and]

theorem returns_matchField : Returns (matchField field value lo hi) true ↔ FieldMeets ⟨field, value, lo, hi⟩ := by
  unfold matchField FieldMeets
  split
  · next star => simp [star, Returns]
  · next other =>
      have answered : (∃ b, Returns (firstAnswer (matchPiece value lo hi) (field.splitOn ',')) b ∧
          b.isSome = true) ↔
          Returns (firstAnswer (matchPiece value lo hi) (field.splitOn ',')) (some ()) := by
        constructor
        · rintro ⟨_ | _, returned, holds⟩
          · cases holds
          · exact returned
        · exact fun returned => ⟨_, returned, rfl⟩
      rw [returns_map, answered, returns_firstAnswer_some steady_matchPiece]
      simp only [passes_matchPiece, meets_matchPiece, Passed, other, false_or]

end Pieces

/-- The field holds for the moment, and its matching comes to an end. -/
theorem returns_holds (check : Check) : Returns check.holds true ↔ FieldMeets check := returns_matchField

/-- The first field that freezes or does not hold freezes. -/
def CronFreezes (expr : Text) (dt : Moment) : Prop :=
  ∃ fields front check back, cronFields expr = some fields ∧ cronChecks fields dt = front ++ check :: back ∧
    (∀ earlier ∈ front, FieldMeets earlier) ∧ FieldFreezes check

/-- Every field holds for the moment. -/
def CronMeets (expr : Text) (dt : Moment) : Prop :=
  ∃ fields, cronFields expr = some fields ∧ ∀ check ∈ cronChecks fields dt, FieldMeets check

/-- The check of a field as one of several that must hold. -/
def refutes (check : Check) (fuel : Nat) : Option (Option Unit) :=
  (check.holds fuel).map fun holds => if holds then none else some ()

theorem steady_refutes (check : Check) : Steady (refutes check) := steady_map (steady_matchField _)

theorem halts_refutes {check : Check} : Halts (refutes check) ↔ ¬FieldFreezes check := by
  unfold refutes
  rw [halts_map]
  exact halts_matchField

theorem passes_refutes {check : Check} : Returns (refutes check) none ↔ FieldMeets check := by
  unfold refutes
  rw [returns_map, ← returns_holds]
  simp

variable {expr : Text} {dt : Moment}

theorem cronMatches_eq :
    cronMatches expr dt = fun fuel => match cronFields expr with
      | none => some false
      | some fields => (firstAnswer refutes (cronChecks fields dt) fuel).map Option.isNone := rfl

theorem steady_cronMatches (expr : Text) (dt : Moment) : Steady (cronMatches expr dt) := by
  rw [cronMatches_eq]
  cases cronFields expr with
  | none => exact steady_const _
  | some fields => exact steady_map (steady_firstAnswer steady_refutes _)

theorem halts_cronMatches : Halts (cronMatches expr dt) ↔ ¬CronFreezes expr dt := by
  rw [cronMatches_eq]
  unfold CronFreezes
  cases parsed : cronFields expr with
  | none => simp [Halts]
  | some fields =>
    simp only []
    rw [halts_map, halts_firstAnswer steady_refutes]
    simp only [passes_refutes, halts_refutes, Option.some.injEq, exists_and_left, exists_eq_left',
      not_exists, not_and]

theorem returns_cronMatches : Returns (cronMatches expr dt) true ↔ CronMeets expr dt := by
  rw [cronMatches_eq]
  unfold CronMeets
  cases parsed : cronFields expr with
  | none => simp [Returns]
  | some fields =>
    have clear : (∃ b, Returns (firstAnswer refutes (cronChecks fields dt)) b ∧ b.isNone = true) ↔
        Returns (firstAnswer refutes (cronChecks fields dt)) none := by simp
    simp only []
    rw [returns_map, clear, returns_firstAnswer_none steady_refutes]
    simp [passes_refutes]

theorem misses_cronMatches : Returns (cronMatches expr dt) false ↔ ¬CronFreezes expr dt ∧ ¬CronMeets expr dt := by
  rw [← halts_cronMatches, ← returns_cronMatches]
  constructor
  · intro returned
    refine ⟨returned.halts, fun met => ?_⟩
    cases (steady_cronMatches expr dt).unique returned met
  · rintro ⟨halts, unmet⟩
    obtain ⟨result, returned⟩ := halts_iff.mp halts
    cases result with
    | false => exact returned
    | true => exact absurd returned unmet

section NextRun

variable (zone : Zone) (expr : Text) (fromMs : Int)

/-- Of the minutes of the next year, the first one at which the expression is met or freezes is one
at which it freezes. -/
def NextRunFreezes : Prop :=
  expr ≠ [] ∧ ∃ i < minutesOfYear,
    (∀ j < i, ¬CronFreezes expr (zone.moment (zone.turn fromMs j)) ∧
      ¬CronMeets expr (zone.moment (zone.turn fromMs j))) ∧
      CronFreezes expr (zone.moment (zone.turn fromMs i))

/-- One turn of the search. -/
def runsAt (i : Nat) (fuel : Nat) : Option (Option Int) :=
  (cronMatches expr (zone.moment (zone.turn fromMs i)) fuel).map fun fires =>
    if fires then some (zone.turn fromMs i) else none

variable {zone expr fromMs}

theorem steady_runsAt (i : Nat) : Steady (runsAt zone expr fromMs i) := steady_map (steady_cronMatches _ _)

theorem passes_runsAt {i : Nat} : Returns (runsAt zone expr fromMs i) none ↔
    Returns (cronMatches expr (zone.moment (zone.turn fromMs i))) false := by
  unfold runsAt
  rw [returns_map]
  simp

/-- The search over any number of minutes. -/
theorem halts_search (n : Nat) : Halts (firstAnswer (runsAt zone expr fromMs) (List.range n)) ↔
    ∀ i < n, (∀ j < i, Returns (cronMatches expr (zone.moment (zone.turn fromMs j))) false) →
      ¬CronFreezes expr (zone.moment (zone.turn fromMs i)) := by
  have halts : ∀ i, Halts (runsAt zone expr fromMs i) ↔ ¬CronFreezes expr (zone.moment (zone.turn fromMs i)) := by
    intro i
    unfold runsAt
    rw [halts_map, halts_cronMatches]
  rw [halts_firstAnswer_range steady_runsAt]
  simp only [passes_runsAt, halts]

theorem halts_computeNextRunMs : Halts (computeNextRunMs zone expr fromMs) ↔ ¬NextRunFreezes zone expr fromMs := by
  unfold NextRunFreezes
  by_cases empty : expr = []
  · have body : computeNextRunMs zone expr fromMs = fun _ => some none := by
      funext fuel
      simp [computeNextRunMs, empty]
    rw [body]
    simp [empty, Halts]
  · cases parsed : cronFields expr with
    | none =>
      have body : computeNextRunMs zone expr fromMs = fun _ => some none := by
        funext fuel
        simp [computeNextRunMs, parsed]
      simp [body, Halts, CronFreezes, parsed]
    | some fields =>
      have body : computeNextRunMs zone expr fromMs =
          firstAnswer (runsAt zone expr fromMs) (List.range minutesOfYear) := by
        funext fuel
        simp only [computeNextRunMs, if_neg empty, parsed]
        generalize List.range minutesOfYear = turns
        rfl
      rw [body, halts_search]
      generalize minutesOfYear = minutes
      simp only [misses_cronMatches, ne_eq, empty, not_false_eq_true, true_and, not_exists, not_and]

end NextRun

/-- Field, expression and next run come to an end exactly when nothing on their way freezes. -/
theorem cron_halts_iff (expr : Text) :
    (∀ field value lo hi, Halts (matchField field value lo hi) ↔ ¬FieldFreezes ⟨field, value, lo, hi⟩) ∧
      (∀ dt, Halts (cronMatches expr dt) ↔ ¬CronFreezes expr dt) ∧
      ∀ zone fromMs, Halts (computeNextRunMs zone expr fromMs) ↔ ¬NextRunFreezes zone expr fromMs :=
  ⟨fun _ _ _ _ => halts_matchField, fun _ => halts_cronMatches, fun _ _ => halts_computeNextRunMs⟩

/-- A host on universal time. -/
def utc : Zone where
  moment t :=
    let days := t / 86400000
    let calendar := Projects.dateOfDays days
    { minutes := .ofInt (t / 60000 % 60), hours := .ofInt (t / 3600000 % 24),
      date := .ofInt calendar.2.2, month := .ofInt (calendar.2.1 - 1),
      day := .ofInt ((days + 4) % 7) }
  wholeMinute t := t - t % 60000

def everyMinuteBackwards : Text := "*/-1 * * * *".toList

theorem piece_freezes_backwards : PieceFreezes (number 1) 0 59 "*/-1".toList := by
  refine ⟨⟨number 0, number 59, .ofInt (-1)⟩, by decide +kernel, ?_⟩
  apply Number.freezes_of_negative
  · decide +kernel
  · decide +kernel
  · decide +kernel
  · intro v below
    have other : v ≠ number 1 := by
      rintro rfl
      revert below
      decide +kernel
    simp [turn, Number.same, other]

theorem cron_freezes_backwards : CronFreezes everyMinuteBackwards (utc.moment 60000) := by
  refine ⟨["*/-1".toList, ['*'], ['*'], ['*'], ['*']], [], ⟨"*/-1".toList, number 1, 0, 59⟩, _,
    by decide +kernel, by rfl, by simp, by decide, ?_⟩
  exact ⟨[], "*/-1".toList, [], by decide, by simp [Passed], piece_freezes_backwards⟩

/-- A minute field that counts down is accepted, and from one minute past the hour on nothing comes to an end. -/
theorem negative_step_freezes :
    isValidCronExpr everyMinuteBackwards = true ∧ (∀ fuel, matchField "*/-1".toList (number 1) 0 59 fuel = none) ∧
      (∀ fuel, cronMatches everyMinuteBackwards (utc.moment 60000) fuel = none) ∧
      ∀ fuel, computeNextRunMs utc everyMinuteBackwards 0 fuel = none := by
  have field : FieldFreezes ⟨"*/-1".toList, number 1, 0, 59⟩ :=
    ⟨by decide, [], "*/-1".toList, [], by decide, by simp [Passed], piece_freezes_backwards⟩
  have next : NextRunFreezes utc everyMinuteBackwards 0 :=
    ⟨by decide, 0, by decide, by simp, by simpa [Zone.turn, utc] using cron_freezes_backwards⟩
  refine ⟨by decide +kernel, not_halts.mp ?_, not_halts.mp ?_, not_halts.mp ?_⟩
  · exact fun halts => halts_matchField.mp halts field
  · exact fun halts => halts_cronMatches.mp halts cron_freezes_backwards
  · exact fun halts => halts_computeNextRunMs.mp halts next

end ProxyPilot.Cron
