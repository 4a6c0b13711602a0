import ProxyPilot.Broker.Execution

namespace ProxyPilot.Broker

open Data Transition

variable {store : Store} {outcome : Outcome} {now : Time} {proc : Proc} {s s' t : State}
  {configured : Bool} {label : Label}
  {labels : List Label}

def OperationRecord.inMinute (connectionId : Uuid) (start : Time) (o : OperationRecord) : Bool :=
  o.connectionId = connectionId && start ≤ o.createdAt && o.createdAt < start + 60000

/-- The operations of a connection created in the minute from `start` on. -/
def minute (store : Store) (connectionId : Uuid) (start : Time) : List OperationRecord :=
  store.operations.rows.filter (·.inMinute connectionId start)

/-- What no later record changes of an operation. -/
def Constant (counts : OperationRecord → Bool) : Prop :=
  ∀ o o' : OperationRecord, o.Follows o' → counts o' = counts o

theorem constant_minute (connectionId : Uuid) (start : Time) : Constant (·.inMinute connectionId start) := by
  intro o o' follows
  rw [← follows.same]
  rfl

theorem minute_length (store : Store) (connectionId : Uuid) (start : Time) :
    (minute store connectionId start).length = store.operations.rows.countP (·.inMinute connectionId start) :=
  List.countP_eq_length_filter.symm

variable {o : OperationRecord}

/-- What shares a minute with an operation of now is recent. -/
theorem recent_of_inMinute {connectionId : Uuid} {start now : Time} (until_ : now < start + 60000)
    (inside : o.inMinute connectionId start = true) :
    o.connectionId = connectionId ∧ now - 60000 < o.createdAt := by
  simp only [OperationRecord.inMinute, Bool.and_eq_true, decide_eq_true_eq] at inside
  obtain ⟨⟨named, after⟩, _⟩ := inside
  exact ⟨named, Int.lt_of_lt_of_le (Int.sub_lt_iff.mpr until_) after⟩

variable {counts : OperationRecord → Bool} {id : Uuid}

/-- Writing an operation again counts nothing anew. -/
theorem countP_putOperation (constant : Constant counts) {o old : OperationRecord}
    (grows : Table.Grows OperationRecord.Follows store.operations (store.operations.put o))
    (found : store.operations.get o.id = some old) :
    (store.operations.put o).rows.countP counts = store.operations.rows.countP counts := by
  obtain ⟨o', found', follows⟩ := grows _ old found
  cases found'.symm.trans (Table.get_put_self store.operations o)
  exact Table.countP_put found (constant old o follows)

/-- A turn counts at most the operation it reserves. -/
theorem Effect.countP (effect : Effect store now proc outcome) (valid : store.Valid) (fits : proc.Fits store)
    (constant : Constant counts) :
    outcome.store.operations.rows.countP counts = store.operations.rows.countP counts ∨
      ∃ o a, .reserved o a ∈ outcome.events ∧ counts o = true ∧ o.createdAt = now ∧
        outcome.store.operations.rows.countP counts = store.operations.rows.countP counts + 1 := by
  have grows := (effect.grows valid fits).operations
  cases effect with
  | @reserved s c e a o built =>
    have absent : store.operations.get o.id = none :=
      get_fresh valid.operations (Nat.le_of_eq (by rw [built]; rfl))
    have rows : (store.operations.put o).rows = store.operations.rows ++ [o] := Table.rows_put_new absent
    simp only [Store.reserve, rows, List.countP_append, List.countP_singleton]
    by_cases counted : counts o = true
    · exact Or.inr ⟨o, a, List.mem_singleton_self _, counted, by rw [built]; rfl, by simp [counted]⟩
    · exact Or.inl (by simp [counted])
  | called => exact Or.inl (countP_putOperation constant grows fits.stored)
  | settled own =>
    obtain ⟨_, state, _, held⟩ := fits.job own
    exact Or.inl (countP_putOperation constant grows held.stored)
  | reconciled found => exact Or.inl (countP_putOperation constant grows found)
  | _ => exact Or.inl rfl

theorem Effect.created_now (effect : Effect store now proc outcome) {a : Option Approval}
    (told : .reserved o a ∈ outcome.events) : o.createdAt = now := by
  cases effect with
  | reserved built =>
    cases List.mem_singleton.mp told
    rw [built]
    rfl
  | created => cases List.mem_singleton.mp told
  | passed => cases List.mem_singleton.mp told
  | called => cases List.mem_singleton.mp told
  | _ => cases told

/-- No operation is younger than the clock, and no minute of a connection has
more than ten. -/
structure Paced (s : State) : Prop where
  created : ∀ o ∈ s.store.operations.rows, o.createdAt ≤ s.clock
  minutes : ∀ connectionId start, (minute s.store connectionId start).length ≤ 10

theorem step_clock (moved : step configured s label = some s') : s'.clock = label.now := by
  cases label with
  | call call now =>
    obtain ⟨procs, locks, same, _⟩ := begin_eq { s with clock := now } call
    cases (Option.some.inj moved).symm.trans same
    rfl
  | restart now =>
    cases moved
    rfl
  | reply id reply now =>
    obtain ⟨process, answer, _, _, rfl⟩ := step_reply moved
    unfold State.apply
    split
    · rfl
    · dsimp only
      split <;> rfl

theorem Paced.step (inv : s.Inv) (paced : Paced s) (later : s.clock ≤ label.now)
    (moved : Broker.step configured s label = some s') : Paced s' := by
  have clock := step_clock moved
  have older {o o' : OperationRecord} (stored : o ∈ s.store.operations.rows) (follows : o.Follows o') :
      o'.createdAt ≤ s'.clock := by
    rw [clock, ← follows.same]
    exact Int.le_trans (paced.created o stored) later
  cases inv.moves moved with
  | still store =>
    constructor
    · intro o member
      rw [store] at member
      exact older member (.refl o)
    · intro connectionId start
      rw [store]
      exact paced.minutes connectionId start
  | reopened _ store =>
    constructor
    · intro o member
      rw [store] at member
      obtain ⟨old, stored, rfl⟩ := List.mem_map.mp member
      exact older stored old.reopened_follows
    · intro connectionId start
      have same : (minute s.store.reopen connectionId start).length =
          (minute s.store connectionId start).length := by
        simp only [minute_length, Store.reopen, Table.map, List.countP_map]
        exact List.countP_congr fun o _ =>
          iff_of_eq (congrArg (· = true) (constant_minute connectionId start o _ o.reopened_follows))
      rw [store, same]
      exact paced.minutes connectionId start
  | turned process outcome turns store =>
    have effect := turns.turned.effect
    have fits := inv.fits process turns.listed
    constructor
    · intro o member
      rw [store] at member
      obtain ⟨old, stored, follows⟩ | ⟨a, told⟩ := effect.operations_from inv.valid fits member
      · exact older stored follows
      · rw [clock]
        exact Int.le_of_eq (effect.created_now told)
    · intro connectionId start
      have before := paced.minutes connectionId start
      rw [minute_length] at before ⊢
      rw [store]
      obtain same | ⟨o, a, told, counted, created, more⟩ :=
        effect.countP inv.valid fits (constant_minute connectionId start)
      · exact same ▸ before
      · -- what the new operation shares its minute with is recent
        have rate := (effect.admits inv.valid fits told).rate
        have until_ : label.now < start + 60000 := by
          simp only [OperationRecord.inMinute, Bool.and_eq_true, decide_eq_true_eq, created] at counted
          exact counted.2
        have named : o.connectionId = connectionId := by
          simp only [OperationRecord.inMinute, Bool.and_eq_true, decide_eq_true_eq] at counted
          exact counted.1.1
        have shared : s.store.operations.rows.countP (·.inMinute connectionId start) ≤
            (recent s.store o.connectionId label.now).length := by
          rw [recent, ← List.countP_eq_length_filter]
          refine List.countP_mono_left fun other _ inside => ?_
          obtain ⟨same, late⟩ := recent_of_inMinute until_ inside
          simp only [Bool.and_eq_true, decide_eq_true_eq]
          exact ⟨same.trans named.symm, late⟩
        rw [more]
        exact Nat.succ_le_of_lt (Nat.lt_of_le_of_lt shared rate)

theorem Paced.run (initial : (brokerSystem configured).initial s)
    (along : (brokerSystem configured).Along (fun s label => s.clock ≤ label.now) s labels)
    (ran : (brokerSystem configured).exec s labels = some s') : Paced s' := by
  have ends := (brokerSystem configured).exec_preserves_along (fun s label => s.clock ≤ label.now)
    (fun s => s.Inv ∧ Paced s) (fun ⟨inv, paced⟩ later moved => ⟨inv.step moved, paced.step inv later moved⟩)
    along ⟨.initial initial, ?_⟩ ran
  · exact ends.2
  · constructor
    · intro o member
      rw [initial.1] at member
      cases member
    · intro connectionId start
      rw [initial.1]
      exact Nat.zero_le 10

theorem Founded.call {log : List Event} (founded : Founded log) {newer older : List Event}
    (split : log = newer ++ .called o :: older) : ∃ o₀ a, .reserved o₀ a ∈ older ∧
      o₀.Follows { o with state := .reserved } ∧
        (o.operation = .itemSetState → ∃ a', a = some a' ∧ a'.Binds o) := by
  induction newer generalizing log with
  | nil =>
    subst split
    exact founded.1 o rfl
  | cons event newer ih =>
    subst split
    exact ih founded.2 rfl

/-- An approved write of process `id + 1`, up to its call: process `id` approves
it. -/
def writing (id : Nat) (approvalId : Uuid) (key : String) : List Label :=
  [.call (.approve 6 ⟨1, .setState 9 .closed, none, none⟩) 0, .reply id (.authenticated owner) 0,
    .reply id .entered 0,
    .reply id (.decided true) 0, .reply id .resumed 0,
    .call (.execute 7 ⟨1, .setState 9 .closed, some approvalId, none⟩ key) 0, .reply (id + 1) .entered 0,
    .reply (id + 1) (.decided true) 0, .reply (id + 1) .resumed 0,
      .reply (id + 1) (.read (some ⟨"secret", 3, 1⟩)) 0,
    .reply (id + 1) (.decided true) 0, .reply (id + 1) .resumed 0]

end ProxyPilot.Broker
