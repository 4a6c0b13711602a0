import Mathlib.Data.List.Basic

namespace ProxyPilot.Transition

/-! # Interrupted sequences

A sequence of fallible steps stops at the first step that fails; a crash after
`k` steps is the sequence cut to its first `k` steps.
-/

variable {State : Type u} {Step : Type v} {Error : Type w} (apply : State → Step → Except Error State)

def attempt (state : State) : List Step → State
  | [] => state
  | step :: rest =>
    match apply state step with
    | .ok next => attempt next rest
    | .error _ => state

/-- Every step succeeds. -/
def Completes (state : State) : List Step → State → Prop
  | [], after => after = state
  | step :: rest, after => ∃ next, apply state step = .ok next ∧ Completes next rest after

variable {apply}

@[simp] theorem attempt_nil (state : State) : attempt apply state [] = state := rfl

theorem attempt_cons_ok {state next : State} {step : Step} (moved : apply state step = .ok next)
    (rest : List Step) : attempt apply state (step :: rest) = attempt apply next rest := by
  simp only [attempt, moved]

variable {first : List Step} {state middle : State} {count : Nat}

theorem attempt_append (second : List Step)
    (completed : Completes apply state first middle) :
    attempt apply state (first ++ second) = attempt apply middle second := by
  induction first generalizing state with
  | nil => cases completed; rfl
  | cons step rest ih =>
    obtain ⟨next, moved, completed⟩ := completed
    rw [List.cons_append, attempt_cons_ok moved, ih completed]

/-- A cut sequence either ends inside its first part or passes it. -/
theorem attempt_take_append (second : List Step)
    (completed : Completes apply state first middle) (passed : first.length ≤ count) :
    attempt apply state ((first ++ second).take count) =
      attempt apply middle (second.take (count - first.length)) := by
  rw [List.take_append, List.take_of_length_le passed, attempt_append _ completed]

theorem attempt_take_first {state : State} (second : List Step)
    (inside : count ≤ first.length) :
    attempt apply state ((first ++ second).take count) = attempt apply state (first.take count) := by
  rw [List.take_append_of_le_length inside]

/-- What each step of the list preserves, every cut of it preserves. -/
theorem attempt_preserves (holds : State → Prop) {steps : List Step}
    (preserves : ∀ state, ∀ step ∈ steps, ∀ after, holds state → apply state step = .ok after → holds after)
    {state : State} (before : holds state) : holds (attempt apply state steps) := by
  induction steps generalizing state with
  | nil => exact before
  | cons step rest ih =>
    cases moved : apply state step with
    | error reason =>
      simp only [attempt, moved]
      exact before
    | ok next =>
      rw [attempt_cons_ok moved]
      have after := preserves state step List.mem_cons_self next before moved
      exact ih (fun state other member => preserves state other (List.mem_cons_of_mem _ member)) after

end ProxyPilot.Transition
