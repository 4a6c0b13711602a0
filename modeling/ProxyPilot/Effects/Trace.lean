import ProxyPilot.Data.History

namespace ProxyPilot.Effects

/-! # Outcomes of stateful programs

What a program that may throw leaves behind: a postcondition for its result and one for
its exception, over the state each of them ends in.

The state of such a program is its record. What a call answers depends on when it is
made; the answer goes on the record with the call.
-/

section

variable {ε σ α β : Type}

def Leads (program : EStateM ε σ α) (state : σ) (returns : α → σ → Prop) (throws : ε → σ → Prop) : Prop :=
  match program state with
  | .ok result after => returns result after
  | .error failure after => throws failure after

section Rules

variable {state : σ} {returns : α → σ → Prop} {throws : ε → σ → Prop}

theorem leads_pure {result : α} : Leads (pure result : EStateM ε σ α) state returns throws ↔
    returns result state := Iff.rfl

theorem leads_throw {failure : ε} : Leads (throw failure : EStateM ε σ α) state returns throws ↔
    throws failure state := Iff.rfl

theorem leads_get {returns : σ → σ → Prop} : Leads (get : EStateM ε σ σ) state returns throws ↔
    returns state state := Iff.rfl

variable {program : EStateM ε σ α}

theorem leads_bind {next : α → EStateM ε σ β} {returns : β → σ → Prop} :
    Leads (program >>= next) state returns throws ↔
      Leads program state (fun result after => Leads (next result) after returns throws) throws := by
  show Leads (EStateM.bind program next) state returns throws ↔ _
  unfold Leads EStateM.bind
  cases program state <;> rfl

theorem leads_tryCatch {handler : ε → EStateM ε σ α} :
    Leads (tryCatch program handler) state returns throws ↔
      Leads program state returns (fun failure after => Leads (handler failure) after returns throws) := by
  show Leads (EStateM.tryCatch program handler) state returns throws ↔ _
  unfold Leads EStateM.tryCatch
  cases program state <;> rfl

variable {returns' : α → σ → Prop} {throws' : ε → σ → Prop}

theorem Leads.mono
    (leads : Leads program state returns throws)
    (result : ∀ result after, returns result after → returns' result after)
    (failure : ∀ failure after, throws failure after → throws' failure after) :
    Leads program state returns' throws' := by
  unfold Leads at leads ⊢
  cases ended : program state with
  | ok value after =>
    rw [ended] at leads
    exact result value after leads
  | error thrown after =>
    rw [ended] at leads
    exact failure thrown after leads

theorem leads_always {holds : Prop} (now : holds) : Leads program state (fun _ _ => holds) fun _ _ => holds := by
  unfold Leads
  cases program state <;> exact now

/-- Two facts about one run. -/
theorem Leads.and
    (leads : Leads program state returns throws) (leads' : Leads program state returns' throws') :
    Leads program state (fun result after => returns result after ∧ returns' result after)
      (fun failure after => throws failure after ∧ throws' failure after) := by
  unfold Leads at leads leads' ⊢
  cases ended : program state with
  | ok value after =>
    rw [ended] at leads leads'
    exact ⟨leads, leads'⟩
  | error thrown after =>
    rw [ended] at leads leads'
    exact ⟨leads, leads'⟩

end Rules

/-- One program for each item, in order. -/
def each (items : List α) (program : α → EStateM ε σ Unit) : EStateM ε σ Unit :=
  match items with
  | [] => pure ()
  | item :: rest => do
    program item
    each rest program

/-- The loop rule: an invariant of the items that are done. -/
theorem leads_each {program : α → EStateM ε σ Unit} {throws : ε → σ → Prop} (during : List α → σ → Prop) :
    ∀ (done : List α) {rest : List α} {state : σ}, during done state →
      (∀ earlier item later state, earlier ++ item :: later = done ++ rest → during earlier state →
        Leads (program item) state (fun _ after => during (earlier ++ [item]) after) throws) →
      Leads (each rest program) state (fun _ after => during (done ++ rest) after) throws
  | done, [], state, now, _ => by
    rw [List.append_nil]
    exact leads_pure.mpr now
  | done, item :: rest, state, now, step => by
    refine leads_bind.mpr
      ((step done item rest state rfl now).mono (fun _ after next => ?_) fun _ _ thrown => thrown)
    have later := leads_each during (done ++ [item]) next fun earlier item later state split =>
        step earlier item later state (by
      rw [split, List.append_assoc, List.singleton_append])
    rwa [List.append_assoc, List.singleton_append] at later

/-- The program keeps an invariant where it returns, and throws inside `throws`. -/
def Keeps (holds : σ → Prop) (throws : ε → σ → Prop) (program : EStateM ε σ α) : Prop :=
  ∀ state, holds state → Leads program state (fun _ after => holds after) throws

namespace Keeps

variable {holds : σ → Prop} {throws throws' : ε → σ → Prop}

theorem pure {result : α} : Keeps holds throws (Pure.pure result : EStateM ε σ α) := fun _ now => leads_pure.mpr now

theorem get : Keeps holds throws (MonadState.get : EStateM ε σ σ) := fun _ now => leads_get.mpr now

theorem bind {program : EStateM ε σ α} {next : α → EStateM ε σ β} (first : Keeps holds throws program)
    (later : ∀ result, Keeps holds throws (next result)) : Keeps holds throws (program >>= next) :=
  fun state now =>
    leads_bind.mpr ((first state now).mono (fun result after next => later result after next)
    fun _ _ thrown => thrown)

theorem tryCatch {program : EStateM ε σ α} {handler : ε → EStateM ε σ α} (first : Keeps holds throws program)
    (handled : ∀ failure state, throws failure state →
    Leads (handler failure) state (fun _ after => holds after) throws') :
    Keeps holds throws' (MonadExcept.tryCatch program handler) :=
  fun state now => leads_tryCatch.mpr ((first state now).mono (fun _ _ kept => kept) handled)

theorem each {items : List α} {program : α → EStateM ε σ Unit}
    (step : ∀ item ∈ items, Keeps holds throws (program item)) :
    Keeps holds throws (Effects.each items program) := by
  intro state now
  refine leads_each (fun _ state => holds state) [] now fun earlier item later state split kept => ?_
  have member : item ∈ items := by
    rw [← List.nil_append items, ← split]
    exact List.mem_append_right _ List.mem_cons_self
  exact step item member state kept

end Keeps

end

open Data

variable {ε ω α β : Type}

/-- A call whose failure is the program's to handle. -/
def observe (answer : Nat → α) (event : α → ω) : EStateM ε (List ω) α := fun log =>
  .ok (answer log.length) (log ++ [event (answer log.length)])

/-- A call whose failure ends the program. -/
def insist (answer : Nat → Except ε α) (event : Except ε α → ω) : EStateM ε (List ω) α := do
  match ← observe answer event with
  | .ok result => pure result
  | .error failure => throw failure

/-- From a lawful record on which `before` holds, the program only makes calls that obey the law. -/
def Lawful (law : List ω → ω → Prop) (before : List ω → Prop) (program : EStateM ε (List ω) α)
    (returns : α → List ω → Prop) : Prop :=
  ∀ log, Obeys law log → before log → Leads program log (fun result after => Obeys law after ∧
    returns result after) fun _ after => Obeys law after

namespace Lawful

variable {law : List ω → ω → Prop} {before before' : List ω → Prop} {returns : α → List ω → Prop}

theorem pure {result : α} (holds : ∀ log, before log → returns result log) :
    Lawful law before (Pure.pure result : EStateM ε (List ω) α) returns :=
  fun log lawful now => leads_pure.mpr ⟨lawful, holds log now⟩

theorem throw {failure : ε} : Lawful law before (MonadExcept.throw failure : EStateM ε (List ω) α) returns :=
  fun _ lawful _ => leads_throw.mpr lawful

variable {program : EStateM ε (List ω) α}

variable {next : α → EStateM ε (List ω) β} {returns' : β → List ω → Prop}

theorem bind
    (first : Lawful law before program returns)
    (later : ∀ result, Lawful law (returns result) (next result) returns') :
    Lawful law before (program >>= next) returns' :=
  fun log lawful now =>
    leads_bind.mpr ((first log lawful now).mono (fun result after ⟨lawful, holds⟩ =>
    later result after lawful holds) fun _ _ lawful => lawful)

/-- The rule for a sequence, with what holds between written out. -/
theorem through (returns : α → List ω → Prop)
    (first : Lawful law before program returns)
    (later : ∀ result, Lawful law (returns result) (next result) returns') :
    Lawful law before (program >>= next) returns' := bind first later

theorem mono {returns' : α → List ω → Prop} (kept : Lawful law before program returns)
    (stronger : ∀ log, before' log → before log) (weaker : ∀ result log, returns result log → returns' result log) :
    Lawful law before' program returns' :=
  fun log lawful now =>
    (kept log lawful (stronger log now)).mono (fun result after ⟨lawful, holds⟩ =>
    ⟨lawful, weaker result after holds⟩) fun _ _ lawful => lawful

/-- Every answer a call may get, and what holds once it is on the record. -/
theorem observe {answer : Nat → α} {event : α → ω} (allowed : ∀ log result, before log → law log (event result))
    (holds : ∀ log result, before log → (∃ n, answer n = result) → returns result (log ++ [event result])) :
    Lawful law before (Effects.observe answer event : EStateM ε (List ω) α) returns :=
  fun log lawful now => ⟨lawful.snoc (allowed log _ now), holds log _ now ⟨_, rfl⟩⟩

theorem insist {answer : Nat → Except ε α} {event : Except ε α → ω}
    (allowed : ∀ log result, before log → law log (event result))
    (holds : ∀ log result, before log → returns result (log ++ [event (.ok result)])) :
    Lawful law before (Effects.insist answer event) returns := by
  refine through (fun result log => ∀ value, result = .ok value →
    returns value log) (observe allowed ?_) fun result => ?_
  · intro log result now _ value same
    rw [same]
    exact holds log value now
  · cases result with
    | ok value => exact pure fun log holds => holds value rfl
    | error failure => exact throw

/-- What the whole run of such a program has done. -/
theorem obeys (kept : Lawful law before program returns) (now : before []) :
    Leads program [] (fun result after => Obeys law after ∧ returns result after) fun _ after => Obeys law after :=
  kept [] .nil now

end Lawful

end ProxyPilot.Effects
