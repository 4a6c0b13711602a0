import Mathlib.Logic.Relation

namespace ProxyPilot.Transition

/-- Every choice a step leaves open (who moves, what an external party answers,
what the clock shows) is part of the label, so a step is a partial function and
a run is a list of labels. -/
structure System (State : Type u) (Label : Type v) where
  initial : State → Prop
  step : State → Label → Option State

namespace System

variable {State : Type u} {Label : Type v} (system : System State Label)

/-- Run a list of labels; a label without a step ends the run. -/
def exec : State → List Label → Option State
  | state, [] => some state
  | state, label :: rest => (system.step state label).bind fun next => exec next rest

def Reachable (state : State) : Prop :=
  ∃ first labels, system.initial first ∧ system.exec first labels = some state

variable {system}

@[simp] theorem exec_nil (state : State) : system.exec state [] = some state := rfl

variable {state after : State} {label : Label} {rest : List Label} {labels : List Label}
  {allowed : State → Label → Prop}

theorem exec_cons :
    system.exec state (label :: rest) = some after ↔
      ∃ next, system.step state label = some next ∧ system.exec next rest = some after :=
  Option.bind_eq_some_iff

theorem exec_append {first second : List Label} :
    system.exec state (first ++ second) = some after ↔
      ∃ middle, system.exec state first = some middle ∧ system.exec middle second = some after := by
  induction first generalizing state with
  | nil => simp
  | cons label rest ih =>
    simp only [List.cons_append, exec_cons, ih]
    constructor
    · rintro ⟨next, moved, middle, ran, finished⟩
      exact ⟨middle, ⟨next, moved, ran⟩, finished⟩
    · rintro ⟨middle, ⟨next, moved, ran⟩, finished⟩
      exact ⟨next, moved, middle, ran, finished⟩

theorem Reachable.of_initial {state : State} (initial : system.initial state) :
    system.Reachable state := ⟨state, [], initial, rfl⟩

theorem Reachable.exec (reached : system.Reachable state)
    (ran : system.exec state labels = some after) : system.Reachable after := by
  obtain ⟨first, earlier, initial, before⟩ := reached
  exact ⟨first, earlier ++ labels, initial, exec_append.mpr ⟨state, before, ran⟩⟩

theorem Reachable.step (reached : system.Reachable state)
    (moved : system.step state label = some after) : system.Reachable after :=
  reached.exec (show system.exec state [label] = some after from exec_cons.mpr ⟨after, moved, rfl⟩)

variable (system)

/-- What every step preserves, a run preserves. -/
theorem exec_preserves (holds : State → Prop)
    (preserves : ∀ {state label after}, holds state → system.step state label = some after → holds after)
    (before : holds state)
    (ran : system.exec state labels = some after) : holds after := by
  induction labels generalizing state with
  | nil => cases ran; exact before
  | cons label rest ih =>
    obtain ⟨next, moved, ran⟩ := exec_cons.mp ran
    exact ih (preserves before moved) ran

variable {system} in
/-- The invariant rule. -/
theorem Reachable.invariant (holds : State → Prop)
    (initially : ∀ state, system.initial state → holds state)
    (preserves : ∀ {state label after}, holds state → system.step state label = some after → holds after)
    {state : State} (reached : system.Reachable state) : holds state := by
  obtain ⟨first, labels, initial, ran⟩ := reached
  exact system.exec_preserves holds preserves (initially first initial) ran

/-- Steps inside a reflexive, transitive relation make runs inside it. -/
theorem exec_relates (holds : State → Prop) (relates : State → State → Prop)
    (refl : ∀ state, relates state state)
    (trans : ∀ {first second third}, relates first second → relates second third → relates first third)
    (preserves : ∀ {state label after}, holds state → system.step state label = some after → holds after)
    (steps : ∀ {state label after}, holds state → system.step state label = some after →
      relates state after)
    (before : holds state)
    (ran : system.exec state labels = some after) : relates state after := by
  induction labels generalizing state with
  | nil => cases ran; exact refl _
  | cons label rest ih =>
    obtain ⟨next, moved, ran⟩ := exec_cons.mp ran
    exact trans (steps before moved) (ih (preserves before moved) ran)

/-- Every step of the run is taken from a state that allows it. -/
def Along (allowed : State → Label → Prop) : State → List Label → Prop
  | _, [] => True
  | state, label :: rest =>
    allowed state label ∧ ∀ next, system.step state label = some next → Along allowed next rest

variable {system} in
@[simp] theorem along_cons_iff {state : State} :
    system.Along allowed state (label :: rest) ↔
      allowed state label ∧ ∀ next, system.step state label = some next → system.Along allowed next rest := Iff.rfl

instance decidableAlong (allowed : State → Label → Prop) [∀ state label, Decidable (allowed state label)] :
    (state : State) → (labels : List Label) → Decidable (system.Along allowed state labels)
  | _, [] => isTrue trivial
  | state, label :: rest =>
    match moved : system.step state label with
    | none => decidable_of_iff (allowed state label) (by simp [moved])
    | some next =>
      have := decidableAlong allowed next rest
      decidable_of_iff (allowed state label ∧ system.Along allowed next rest) (by simp [moved])

variable {system}

theorem along_cons {state next : State}
    (first : allowed state label) (moved : system.step state label = some next)
    (later : system.Along allowed next rest) :
    system.Along allowed state (label :: rest) :=
  ⟨first, fun _ moved' => Option.some.inj (moved.symm.trans moved') ▸ later⟩

theorem along_append {state middle : State}
    {first second : List Label} (ran : system.exec state first = some middle) :
    system.Along allowed state (first ++ second) ↔
      system.Along allowed state first ∧ system.Along allowed middle second := by
  induction first generalizing state with
  | nil => cases ran; exact ⟨fun later => ⟨trivial, later⟩, And.right⟩
  | cons label rest ih =>
    obtain ⟨next, moved, ran⟩ := exec_cons.mp ran
    simp [moved, ih ran, and_assoc]

theorem along_of_forall {allowed : Label → Prop}
    (all : ∀ label ∈ labels, allowed label) {state : State} :
    system.Along (fun _ label => allowed label) state labels := by
  induction labels generalizing state with
  | nil => trivial
  | cons label rest ih =>
    refine ⟨all label List.mem_cons_self, fun next _ => ih ?_⟩
    exact fun other member => all other (List.mem_cons_of_mem _ member)

variable (system)

/-- What every allowed step preserves, a run of allowed steps preserves. -/
theorem exec_preserves_along (allowed : State → Label → Prop) (holds : State → Prop)
    (preserves : ∀ {state label after}, holds state → allowed state label →
      system.step state label = some after → holds after)
    (along : system.Along allowed state labels)
    (before : holds state) (ran : system.exec state labels = some after) : holds after := by
  induction labels generalizing state with
  | nil => cases ran; exact before
  | cons label rest ih =>
    obtain ⟨next, moved, ran⟩ := exec_cons.mp ran
    exact ih (along.2 next moved) (preserves before along.1 moved) ran

end System

end ProxyPilot.Transition
