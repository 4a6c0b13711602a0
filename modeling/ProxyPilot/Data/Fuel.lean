namespace ProxyPilot.Data

/-! # Computations that are given fuel

A loop with no bound of its own is a function of the fuel: `none` is a loop that is still
running when the fuel is used up.
-/

universe u

variable {α : Type u} {β γ : Type}

def Returns (run : Nat → Option β) (b : β) : Prop := ∃ fuel, run fuel = some b

def Halts (run : Nat → Option β) : Prop := ∃ fuel, (run fuel).isSome = true

/-- More fuel does not change a result. -/
def Steady (run : Nat → Option β) : Prop := ∀ fuel b, run fuel = some b → run (fuel + 1) = some b

section

-- the proofs below ask for these equations: here they are made once
attribute [local simp] Returns Halts

end

variable {run : Nat → Option β} {f : β → γ}

theorem halts_iff : Halts run ↔ ∃ b, Returns run b := by
  simp only [Halts, Returns, Option.isSome_iff_exists]
  exact exists_comm

theorem not_halts : ¬Halts run ↔ ∀ fuel, run fuel = none := by simp [Halts]

variable {b : β} {next : β → Nat → Option γ} {c : γ}

theorem Returns.halts (returns : Returns run b) : Halts run := halts_iff.mpr ⟨b, returns⟩

theorem Steady.later (steady : Steady run) {fuel more : Nat} (known : run fuel = some b) (le : fuel ≤ more) :
    run more = some b := by
  induction le with
  | refl => exact known
  | step _ ih => exact steady _ b ih

theorem Steady.unique (steady : Steady run) {b c : β} (first : Returns run b) (second : Returns run c) : b = c := by
  obtain ⟨fuel, first⟩ := first
  obtain ⟨more, second⟩ := second
  have left := steady.later first (Nat.le_max_left fuel more)
  have right := steady.later second (Nat.le_max_right fuel more)
  rw [left] at right
  exact Option.some.inj right

theorem steady_const (result : Option β) : Steady fun _ => result := fun _ _ known => known

theorem returns_some (b c : β) : Returns (fun _ => some b) c ↔ b = c := by simp [Returns]

theorem steady_bind (first : Steady run) (second : ∀ b, Steady (next b)) :
    Steady fun fuel => (run fuel).bind fun b => next b fuel := by
  intro fuel c known
  obtain ⟨b, ran, after⟩ := Option.bind_eq_some_iff.mp known
  exact Option.bind_eq_some_iff.mpr ⟨b, first fuel b ran, second b fuel c after⟩

theorem returns_bind (first : Steady run) (second : ∀ b, Steady (next b)) :
    Returns (fun fuel => (run fuel).bind fun b => next b fuel) c ↔ ∃ b, Returns run b ∧ Returns (next b) c := by
  constructor
  · rintro ⟨fuel, known⟩
    obtain ⟨b, ran, after⟩ := Option.bind_eq_some_iff.mp known
    exact ⟨b, ⟨fuel, ran⟩, fuel, after⟩
  · rintro ⟨b, ⟨fuel, ran⟩, more, after⟩
    have ran := first.later ran (Nat.le_max_left fuel more)
    have after := (second b).later after (Nat.le_max_right fuel more)
    exact ⟨max fuel more, Option.bind_eq_some_iff.mpr ⟨b, ran, after⟩⟩

theorem steady_map (steady : Steady run) : Steady fun fuel => (run fuel).map f := by
  intro fuel c known
  obtain ⟨b, ran, same⟩ := Option.map_eq_some_iff.mp known
  exact Option.map_eq_some_iff.mpr ⟨b, steady fuel b ran, same⟩

theorem returns_map :
    Returns (fun fuel => (run fuel).map f) c ↔ ∃ b, Returns run b ∧ f b = c := by
  simp only [Returns, Option.map_eq_some_iff]
  constructor
  · rintro ⟨fuel, b, ran, same⟩
    exact ⟨b, ⟨fuel, ran⟩, same⟩
  · rintro ⟨b, ⟨fuel, ran⟩, same⟩
    exact ⟨fuel, b, ran, same⟩

theorem halts_map : Halts (fun fuel => (run fuel).map f) ↔ Halts run := by simp [Halts]

section Search

variable {answer : α → Nat → Option (Option β)} (steady : ∀ a, Steady (answer a))

/-- Ask one after the other until there is an answer. -/
def firstAnswer (answer : α → Nat → Option (Option β)) : List α → Nat → Option (Option β)
  | [], _ => some none
  | a :: rest, fuel => (answer a fuel).bind fun
      | some b => some (some b)
      | none => firstAnswer answer rest fuel

include steady

theorem steady_firstAnswer (asked : List α) : Steady (firstAnswer answer asked) := by
  induction asked with
  | nil => exact steady_const _
  | cons a rest ih =>
    apply steady_bind (steady a)
    intro b
    cases b with
    | none => exact ih
    | some b => exact steady_const _

theorem returns_firstAnswer_cons {a : α} {rest : List α} {result : Option β} :
    Returns (firstAnswer answer (a :: rest)) result ↔
      (result.isSome ∧ Returns (answer a) result) ∨
        (Returns (answer a) none ∧ Returns (firstAnswer answer rest) result) := by
  have next : ∀ b, Steady fun fuel => match b with
      | some b => some (some b)
      | none => firstAnswer answer rest fuel := by
    intro b
    cases b with
    | none => exact steady_firstAnswer steady rest
    | some b => exact steady_const _
  refine Iff.trans (returns_bind (steady a) next) ?_
  constructor
  · rintro ⟨b, asked, after⟩
    cases b with
    | none => exact Or.inr ⟨asked, after⟩
    | some b =>
      have same := (returns_some _ _).mp after
      subst same
      exact Or.inl ⟨rfl, asked⟩
  · rintro (⟨some, asked⟩ | ⟨asked, after⟩)
    · obtain ⟨b, rfl⟩ := Option.isSome_iff_exists.mp some
      exact ⟨_, asked, (returns_some _ _).mpr rfl⟩
    · exact ⟨none, asked, after⟩

variable {asked : List α}

/-- There is no answer when each of them says so. -/
theorem returns_firstAnswer_none : Returns (firstAnswer answer asked) none ↔
    ∀ a ∈ asked, Returns (answer a) none := by
  induction asked with
  | nil => simp [firstAnswer, returns_some]
  | cons a rest ih => simp [returns_firstAnswer_cons steady, ih]

/-- The answer is that of the first one that has an answer. -/
theorem returns_firstAnswer_some {b : β} : Returns (firstAnswer answer asked) (some b) ↔
    ∃ front a back, asked = front ++ a :: back ∧
      (∀ earlier ∈ front, Returns (answer earlier) none) ∧ Returns (answer a) (some b) := by
  induction asked with
  | nil => simp [firstAnswer, returns_some]
  | cons first rest ih =>
    rw [returns_firstAnswer_cons steady, ih]
    constructor
    · rintro (⟨_, asked⟩ | ⟨asked, front, a, back, rfl, earlier, found⟩)
      · exact ⟨[], first, rest, rfl, by simp, asked⟩
      · exact ⟨first :: front, a, back, rfl, by simpa using ⟨asked, earlier⟩, found⟩
    · rintro ⟨front, a, back, same, earlier, found⟩
      cases front with
      | nil =>
        cases same
        exact Or.inl ⟨rfl, found⟩
      | cons head front =>
        cases same
        exact Or.inr ⟨earlier first List.mem_cons_self, front, a, back, rfl,
          fun e member => earlier e (List.mem_cons_of_mem _ member), found⟩

/-- The search does not end when one of them does not and it is reached. -/
theorem halts_firstAnswer : Halts (firstAnswer answer asked) ↔
    ∀ front a back, asked = front ++ a :: back →
      (∀ earlier ∈ front, Returns (answer earlier) none) → Halts (answer a) := by
  induction asked with
  | nil => simp [halts_iff, firstAnswer, returns_some]
  | cons first rest ih =>
    constructor
    · intro halts front a back same earlier
      obtain ⟨result, returned⟩ := halts_iff.mp halts
      rcases (returns_firstAnswer_cons steady).mp returned with ⟨some, found⟩ | ⟨passed, later⟩
      · cases front with
        | nil =>
          cases same
          exact found.halts
        | cons head front =>
          cases same
          rw [(steady first).unique found (earlier first List.mem_cons_self)] at some
          cases some
      · cases front with
        | nil =>
          cases same
          exact passed.halts
        | cons head front =>
          cases same
          exact ih.mp later.halts front a back rfl fun e member => earlier e (List.mem_cons_of_mem _ member)
    · intro each
      obtain ⟨answered, found⟩ := halts_iff.mp (each [] first rest rfl (by simp))
      cases answered with
      | some b => exact ((returns_firstAnswer_cons steady).mpr (Or.inl ⟨rfl, found⟩)).halts
      | none =>
        have later := ih.mpr fun front a back same earlier =>
          each (first :: front) a back (by rw [same, List.cons_append]) (by simpa using ⟨found, earlier⟩)
        obtain ⟨result, returned⟩ := halts_iff.mp later
        exact ((returns_firstAnswer_cons steady).mpr (Or.inr ⟨found, returned⟩)).halts

end Search

theorem range_split {n i : Nat} {front back : List Nat}
    (split : List.range n = front ++ i :: back) : front = List.range i ∧ i < n := by
  have short : front.length < n := by
    have lengths := congrArg List.length split
    simp only [List.length_range, List.length_append, List.length_cons] at lengths
    omega
  have position : i = front.length := by
    have found := congrArg (·[front.length]?) split
    simpa [short, eq_comm] using found
  subst position
  have taken := congrArg (List.take front.length) split
  rw [List.take_range, Nat.min_eq_left (Nat.le_of_lt short), List.take_left] at taken
  exact ⟨taken.symm, short⟩

theorem halts_firstAnswer_range {answer : Nat → Nat → Option (Option β)}
    (steady : ∀ i, Steady (answer i)) {n : Nat} :
    Halts (firstAnswer answer (List.range n)) ↔ ∀ i < n, (∀ j < i, Returns (answer j) none) → Halts (answer i) := by
  rw [halts_firstAnswer steady]
  constructor
  · intro each i below earlier
    have split : List.range n = List.range i ++ i :: (List.range (n - i - 1)).map (i + 1 + ·) := by
      obtain ⟨more, rfl⟩ : ∃ more, n = i + (1 + more) := ⟨n - i - 1, by omega⟩
      rw [List.range_add, List.range_add]
      simp [Function.comp_def, Nat.add_assoc]
    exact each _ i _ split (by simpa using earlier)
  · intro each front i back split earlier
    obtain ⟨rfl, below⟩ := range_split split
    exact each i below (by simpa using earlier)

end ProxyPilot.Data
