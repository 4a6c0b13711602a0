import ProxyPilot.Data.Fuel
import ProxyPilot.Data.Number

namespace ProxyPilot.Data

/-! # Counting loops over doubles

`for (v = start; v <= to; v += step)`, left as soon as some value has an answer.
-/

namespace Number

variable {β : Type}

def count (last step : Number) (answer : Number → Option β) : Nat → Number → Option (Option β)
  | 0, _ => none
  | fuel + 1, v =>
    if le v last then
      match answer v with
      | some b => some (some b)
      | none => count last step answer fuel (v.add step)
    else some none

variable {start last step : Number} {answer : Number → Option β}

variable {fuel : Nat} {v : Number} {b : β}

theorem count_outside (outside : le v last = false) : count last step answer (fuel + 1) v = some none :=
  if_neg (by rw [outside]; exact Bool.false_ne_true)

theorem count_answer (inside : le v last = true) (found : answer v = some b) :
    count last step answer (fuel + 1) v = some (some b) := by
  refine (if_pos inside).trans ?_
  rw [found]

theorem count_next (inside : le v last = true) (silent : answer v = none) :
    count last step answer (fuel + 1) v = count last step answer fuel (v.add step) := by
  refine (if_pos inside).trans ?_
  rw [silent]

theorem steady_count : Steady fun fuel => count last step answer fuel start := by
  intro fuel result known
  induction fuel generalizing start with
  | zero => cases known
  | succ fuel ih =>
    cases inside : le start last with
    | false => simpa [count_outside inside] using known
    | true =>
      cases found : answer start with
      | some b => simpa [count_answer inside found] using known
      | none =>
        have later := @ih (start.add step) (by simpa [count_next inside found] using known)
        simpa [count_next inside found] using later

theorem returns_count_of_outside (outside : le start last = false) :
    Returns (fun fuel => count last step answer fuel start) none :=
  ⟨1, count_outside outside⟩

theorem returns_count_next {result : Option β} (inside : le start last = true) (silent : answer start = none) :
    Returns (fun fuel => count last step answer fuel start) result ↔
      Returns (fun fuel => count last step answer fuel (start.add step)) result := by
  constructor
  · rintro ⟨fuel, known⟩
    cases fuel with
    | zero => cases known
    | succ fuel => exact ⟨fuel, by simpa [count_next inside silent] using known⟩
  · rintro ⟨fuel, known⟩
    exact ⟨fuel + 1, by simpa [count_next inside silent] using known⟩

theorem returns_count_answer (inside : le start last = true) (found : answer start = some b) :
    Returns (fun fuel => count last step answer fuel start) (some b) :=
  ⟨1, count_answer inside found⟩

/-- The first value of the loop that lies outside the range or has an answer. -/
def Ends (last : Number) (answer : Number → Option β) (v : Number) : Prop :=
  le v last = false ∨ (answer v).isSome = true

theorem halts_count : Halts (fun fuel => count last step answer fuel start) ↔
    ∃ k, Ends last answer (walk start step k) := by
  constructor
  · rintro ⟨fuel, known⟩
    induction fuel generalizing start with
    | zero => cases known
    | succ fuel ih =>
      cases inside : le start last with
      | false => exact ⟨0, Or.inl inside⟩
      | true =>
        cases found : answer start with
        | some b => exact ⟨0, Or.inr (by simp [walk, found])⟩
        | none =>
          obtain ⟨k, ends⟩ := @ih (start.add step) (by simpa [count_next inside found] using known)
          exact ⟨k + 1, by rwa [walk_succ]⟩
  · rintro ⟨k, ends⟩
    induction k generalizing start with
    | zero =>
      rcases ends with outside | found
      · exact (returns_count_of_outside outside).halts
      · cases inside : le start last with
        | false => exact (returns_count_of_outside inside).halts
        | true =>
          obtain ⟨b, found⟩ := Option.isSome_iff_exists.mp found
          exact (returns_count_answer inside found).halts
    | succ k ih =>
      rw [walk_succ] at ends
      obtain ⟨result, returned⟩ := halts_iff.mp (ih ends)
      cases inside : le start last with
      | false => exact (returns_count_of_outside inside).halts
      | true =>
        cases found : answer start with
        | some b => exact (returns_count_answer inside found).halts
        | none => exact ((returns_count_next inside found).mpr returned).halts

theorem answer_of_returns (returns : Returns (fun fuel => count last step answer fuel start) (some b)) :
    le start last = true ∧ ∃ k, le (walk start step k) last = true ∧ answer (walk start step k) = some b := by
  obtain ⟨fuel, known⟩ := returns
  induction fuel generalizing start with
  | zero => cases known
  | succ fuel ih =>
    cases inside : le start last with
    | false => simp [count_outside inside] at known
    | true =>
      refine ⟨rfl, ?_⟩
      cases found : answer start with
      | some c =>
        have same : c = b := by simpa [count_answer inside found] using known
        exact ⟨0, inside, by rw [← same]; exact found⟩
      | none =>
        obtain ⟨_, k, value, answered⟩ := @ih (start.add step) (by simpa [count_next inside found] using known)
        exact ⟨k + 1, by rwa [walk_succ], by rwa [walk_succ]⟩

theorem silent_of_returns (returns : Returns (fun fuel => count last step answer fuel start) none) :
    ∃ k, le (walk start step k) last = false ∧ ∀ j < k, answer (walk start step j) = none := by
  obtain ⟨fuel, known⟩ := returns
  induction fuel generalizing start with
  | zero => cases known
  | succ fuel ih =>
    cases inside : le start last with
    | false => exact ⟨0, inside, by simp⟩
    | true =>
      cases found : answer start with
      | some b => simp [count_answer inside found] at known
      | none =>
        obtain ⟨k, outside, silent⟩ := @ih (start.add step) (by simpa [count_next inside found] using known)
        refine ⟨k + 1, by rwa [walk_succ], ?_⟩
        intro j before
        cases j with
        | zero => exact found
        | succ j =>
          rw [walk_succ]
          exact silent j (by omega)

/-- Counting from `start`, some value of the range has an answer. -/
def Meets (start last step : Number) (answer : Number → Option β) : Prop :=
  le start last = true ∧ ∃ k, le (walk start step k) last = true ∧ (answer (walk start step k)).isSome = true

/-- The step leads out of the range: it moves up every number of the range, or it makes the first one undefined. -/
def Advances (start last step : Number) : Prop :=
  (positive step = true ∧ ∀ v, le start v = true → le v last = true → v.add step ≠ v) ∨ start.add step = .nan

/-- The loop never ends. -/
def Freezes (start last step : Number) (answer : Number → Option β) : Prop :=
  le start last = true ∧ ¬Meets start last step answer ∧ ¬Advances start last step

section Steps

variable (moves : positive step = true ∨ negative step = true) (low : le start .minusInfinity = false)

include moves low

/-- Until the loop leaves the range, its values are numbers of the range. -/
theorem inside_before (inside : le start last = true) {k : Nat}
    (value : le (walk start step k) last = true) {j : Nat} (before : j ≤ k) :
    le (walk start step j) last = true := by
  have number := (ne_nan_of_le inside).1
  rcases moves with up | down
  · obtain ⟨more, rfl⟩ := Nat.exists_eq_add_of_le before
    exact le_trans (walk_le_later up number low j more) value
  · cases j with
    | zero => exact inside
    | succ j =>
      by_cases result : start.add step = .nan
      · have undefined : ∀ i, walk start step (i + 1) = .nan := by
          intro i
          rw [walk_succ, result]
          induction i with
          | zero => rfl
          | succ i ih => rw [walk, ih, add]
        obtain ⟨i, rfl⟩ : ∃ i, k = i + 1 := ⟨k - 1, by omega⟩
        rw [undefined] at value
        cases value
      · exact le_trans (walk_down down number result (j + 1)).1 inside

theorem ends_of_advances (advances : Advances start last step) (inside : le start last = true) :
    ∃ k, le (walk start step k) last = false := by
  have number := (ne_nan_of_le inside).1
  rcases advances with ⟨up, clear⟩ | undefined
  · cases last with
    | nan => exact absurd rfl (ne_nan_of_le inside).2
    | minusInfinity => simp [inside] at low
    | infinity =>
      have stuck : Number.infinity.add step = .infinity := by
        cases step <;> first | rfl | contradiction
      exact absurd stuck (clear .infinity inside (le_refl (by simp)))
    | whole t fits =>
      cases start with
      | nan => contradiction
      | minusInfinity => contradiction
      | infinity => cases inside
      | whole n exact =>
        apply walk_leaves up number low ((t - n).toNat + 1) clear
        rintro m fitsM same
        cases same
        omega
  · exact ⟨1, by simp [walk, undefined, le]⟩

theorem stays_of_stuck (stuck : ¬Advances start last step) (inside : le start last = true)
    (k : Nat) : le (walk start step k) last = true := by
  have number := (ne_nan_of_le inside).1
  simp only [Advances, not_or, not_and] at stuck
  obtain ⟨held, result⟩ := stuck
  rcases moves with up | down
  · obtain ⟨v, above, below, same⟩ : ∃ v, le start v = true ∧ le v last = true ∧ v.add step = v := by
      have held := held up
      simpa using held
    exact le_trans (walk_le_of_stuck up number low same above k) below
  · exact le_trans (walk_down down number result k).1 inside

/-- A loop goes on for ever when its range is not empty, none of its values has an answer and its
step does not lead out. -/
theorem halts_count_iff : Halts (fun fuel => count last step answer fuel start) ↔
    ¬Freezes start last step answer := by
  rw [halts_count]
  constructor
  · rintro ⟨k, ends⟩ ⟨inside, unmet, stuck⟩
    have value := stays_of_stuck moves low stuck inside k
    rcases ends with outside | found
    · simp [value] at outside
    · exact unmet ⟨inside, k, value, found⟩
  · intro ends
    cases inside : le start last with
    | false => exact ⟨0, Or.inl inside⟩
    | true =>
      by_cases met : Meets start last step answer
      · obtain ⟨_, k, _, found⟩ := met
        exact ⟨k, Or.inr found⟩
      · have advances : Advances start last step := by
          apply Classical.byContradiction
          intro stuck
          exact ends ⟨inside, met, stuck⟩
        obtain ⟨k, outside⟩ := ends_of_advances moves low advances inside
        exact ⟨k, Or.inl outside⟩

theorem returns_none_iff : Returns (fun fuel => count last step answer fuel start) none ↔
    ¬Freezes start last step answer ∧ ¬Meets start last step answer := by
  constructor
  · intro returns
    refine ⟨(halts_count_iff moves low).mp returns.halts, ?_⟩
    rintro ⟨inside, k, value, found⟩
    obtain ⟨out, outside, silent⟩ := silent_of_returns returns
    rcases Nat.lt_or_ge k out with before | after
    · simp [silent k before] at found
    · simp [inside_before moves low inside value after] at outside
  · rintro ⟨runs, unmet⟩
    obtain ⟨result, returned⟩ := halts_iff.mp ((halts_count_iff moves low).mpr runs)
    cases result with
    | none => exact returned
    | some b =>
      obtain ⟨inside, k, value, found⟩ := answer_of_returns returned
      exact absurd ⟨inside, k, value, by simp [found]⟩ unmet

theorem returns_some_iff : (∃ b, Returns (fun fuel => count last step answer fuel start) (some b)) ↔
    Meets start last step answer := by
  constructor
  · rintro ⟨b, returned⟩
    obtain ⟨inside, k, value, found⟩ := answer_of_returns returned
    exact ⟨inside, k, value, by simp [found]⟩
  · intro met
    have runs : ¬Freezes start last step answer := fun frozen => frozen.2.1 met
    obtain ⟨result, returned⟩ := halts_iff.mp ((halts_count_iff moves low).mpr runs)
    cases result with
    | none => exact absurd met ((returns_none_iff moves low).mp returned).2
    | some b => exact ⟨b, returned⟩

end Steps

/-- Counting down, only what lies below the first value can be reached. -/
theorem freezes_of_negative (down : negative step = true) (inside : le start last = true)
    (result : start.add step ≠ .nan)
    (silent : ∀ v, le v start = true → answer v = none) : Freezes start last step answer := by
  have number := (ne_nan_of_le inside).1
  refine ⟨inside, ?_, ?_⟩
  · rintro ⟨_, k, _, found⟩
    simp [silent _ (walk_down down number result k).1] at found
  · rintro (⟨up, _⟩ | undefined)
    · cases step <;> simp_all [positive, negative]
      omega
    · exact result undefined

end Number

end ProxyPilot.Data
