namespace ProxyPilot.Data

variable {ε : Type u} {α : Type v} {β : Type w}

def require (holds : Bool) (code : ε) : Except ε Unit := if holds then .ok () else .error code

def demand (found : Option α) (code : ε) : Except ε α :=
  match found with
  | some a => .ok a
  | none => .error code

variable {holds : Bool} {f : α → Except ε α'} {inputs : List α} {outputs : List α'}

@[simp] theorem require_ok {code : ε} {u : Unit} : require holds code = .ok u ↔ holds = true := by
  cases holds <;> simp [require]

variable {found : Option α} {code e : ε}

@[simp] theorem demand_ok {code : ε} {a : α} : demand found code = .ok a ↔ found = some a := by
  cases found <;> simp [demand]

theorem bind_ok {α β : Type v} {x : Except ε α} {next : α → Except ε β} {b : β} :
    x >>= next = .ok b ↔ ∃ a, x = .ok a ∧ next a = .ok b := by
  cases x with
  | error e => exact ⟨fun failed => by contradiction, fun ⟨_, failed, _⟩ => by contradiction⟩
  | ok a =>
    constructor
    · exact fun ran => ⟨a, rfl, ran⟩
    · intro ⟨_, same, ran⟩
      cases same
      exact ran

theorem map_ok {α β : Type v} {x : Except ε α} {f : α → β} {b : β} :
    f <$> x = .ok b ↔ ∃ a, x = .ok a ∧ f a = b := by
  cases x with
  | error e => exact ⟨fun failed => by contradiction, fun ⟨_, failed, _⟩ => by contradiction⟩
  | ok a =>
    constructor
    · intro same
      cases same
      exact ⟨a, rfl, rfl⟩
    · intro ⟨_, same, result⟩
      cases same
      cases result
      rfl

@[simp] theorem require_error : require holds code = .error e ↔ holds = false ∧ code = e := by
  cases holds <;> simp [require]

@[simp] theorem demand_error : demand found code = .error e ↔ found = none ∧ code = e := by
  cases found <;> simp [demand]

theorem bind_error {α β : Type v} {x : Except ε α} {next : α → Except ε β} {e : ε} :
    x >>= next = .error e ↔ x = .error e ∨ ∃ a, x = .ok a ∧ next a = .error e := by
  cases x with
  | error other => simp [bind, Except.bind]
  | ok a => simp [bind, Except.bind]

/-- What a fallible map over a list gives. -/
theorem mem_mapM_ok (mapped : inputs.mapM f = .ok outputs) {output : α'} :
    output ∈ outputs ↔ ∃ input ∈ inputs, f input = .ok output := by
  induction inputs generalizing outputs with
  | nil =>
    cases mapped
    simp
  | cons input rest ih =>
    rw [List.mapM_cons] at mapped
    obtain ⟨first, one, mapped⟩ := bind_ok.mp mapped
    obtain ⟨others, more, same⟩ := bind_ok.mp mapped
    cases same
    simp only [List.mem_cons, ih more]
    constructor
    · rintro (rfl | ⟨other, member, gives⟩)
      · exact ⟨input, Or.inl rfl, one⟩
      · exact ⟨other, Or.inr member, gives⟩
    · rintro ⟨other, rfl | member, gives⟩
      · exact Or.inl (Except.ok.inj (gives.symm.trans one))
      · exact Or.inr ⟨other, member, gives⟩

theorem mapM_ok_each (mapped : inputs.mapM f = .ok outputs) {input : α}
    (member : input ∈ inputs) : ∃ output, f input = .ok output := by
  induction inputs generalizing outputs with
  | nil => cases member
  | cons first rest ih =>
    rw [List.mapM_cons] at mapped
    obtain ⟨output, one, mapped⟩ := bind_ok.mp mapped
    obtain ⟨others, more, _⟩ := bind_ok.mp mapped
    rcases List.mem_cons.mp member with rfl | member
    · exact ⟨output, one⟩
    · exact ih more member

/-- What every step keeps, the list keeps. -/
theorem mapM_ok_map {κ : Type u} {before : α → κ} {after : α' → κ}
    (each : ∀ input output, f input = .ok output → after output = before input)
    (mapped : inputs.mapM f = .ok outputs) :
    outputs.map after = inputs.map before := by
  induction inputs generalizing outputs with
  | nil =>
    cases mapped
    rfl
  | cons input rest ih =>
    rw [List.mapM_cons] at mapped
    obtain ⟨output, one, mapped⟩ := bind_ok.mp mapped
    obtain ⟨others, more, same⟩ := bind_ok.mp mapped
    cases same
    rw [List.map_cons, List.map_cons, each input output one, ih more]

theorem mapM_total (each : ∀ input ∈ inputs, ∃ output, f input = .ok output) :
    ∃ outputs, inputs.mapM f = .ok outputs := by
  induction inputs with
  | nil => exact ⟨[], rfl⟩
  | cons input rest ih =>
    obtain ⟨output, one⟩ := each input List.mem_cons_self
    obtain ⟨outputs, others⟩ := ih fun other member => each other (List.mem_cons_of_mem input member)
    exact ⟨output :: outputs,
      by rw [List.mapM_cons, bind_ok]; exact ⟨output, one, bind_ok.mpr ⟨outputs, others, rfl⟩⟩⟩

/-- A fallible map that gives back what the list was made from. -/
theorem mapM_back {g : α' → Except ε β} {back : β → α'} {outputs : List β}
    (each : ∀ b ∈ outputs, g (back b) = .ok b) :
    (outputs.map back).mapM g = .ok outputs := by
  induction outputs with
  | nil => rfl
  | cons b rest ih =>
    have first := each b List.mem_cons_self
    have others := ih fun c member => each c (List.mem_cons_of_mem b member)
    rw [List.map_cons, List.mapM_cons, bind_ok]
    exact ⟨b, first, bind_ok.mpr ⟨rest, others, rfl⟩⟩

/-- A check that passed, and what came after it. -/
theorem require_bind_ok {ε : Type u} {β : Type} {code : ε} {next : Unit → Except ε β} {b : β} :
    (require holds code >>= next) = .ok b ↔ holds = true ∧ next () = .ok b := by
  rw [bind_ok]
  constructor
  · intro ⟨_, passed, ran⟩
    exact ⟨require_ok.mp passed, ran⟩
  · intro ⟨passed, ran⟩
    exact ⟨(), require_ok.mpr passed, ran⟩

section Folds

variable {σ : Type v} {ι : Type w} {step : σ → ι → Except ε σ} {inputs : List ι} {s s' : σ}

/-- What every step keeps holds after the fold. -/
theorem foldlM_keeps (holds : σ → Prop) (ran : inputs.foldlM step s = .ok s')
    (kept : ∀ input ∈ inputs, ∀ s s', step s input = .ok s' → holds s → holds s') (start : holds s) : holds s' := by
  induction inputs generalizing s with
  | nil =>
    cases ran
    exact start
  | cons input rest ih =>
    rw [List.foldlM_cons] at ran
    obtain ⟨middle, first, ran⟩ := bind_ok.mp ran
    exact ih ran (fun other member => kept other (List.mem_cons_of_mem _ member))
      (kept input List.mem_cons_self s middle first start)

/-- What one step sets up and every step keeps holds after the fold. -/
theorem foldlM_reaches (holds : σ → Prop) (ran : inputs.foldlM step s = .ok s')
    (kept : ∀ input ∈ inputs, ∀ s s', step s input = .ok s' → holds s → holds s') {input : ι}
    (member : input ∈ inputs)
    (sets : ∀ s s', step s input = .ok s' → holds s') : holds s' := by
  induction inputs generalizing s with
  | nil => cases member
  | cons first rest ih =>
    rw [List.foldlM_cons] at ran
    obtain ⟨middle, ranFirst, ranRest⟩ := bind_ok.mp ran
    have later := fun other (member : other ∈ rest) => kept other (List.mem_cons_of_mem _ member)
    rcases List.mem_cons.mp member with rfl | member
    · exact foldlM_keeps holds ranRest later (sets s middle ranFirst)
    · exact ih ranRest later member

end Folds

end ProxyPilot.Data
