import ProxyPilot.Coordinator.Effects

namespace ProxyPilot.Coordinator

open Data Transition

/-! # The life of a run

Its state moves forward, its result is written with its end, and only an agent nobody
has stopped or taken over adds a step.
-/

/-- The transitions of a run. -/
inductive RunState.Moves : RunState → RunState → Prop where
  | stay (state : RunState) : Moves state state
  | start : Moves .prepared .starting
  | run : Moves .starting .running
  | cancel {state : RunState} (active : state.active = true) : Moves state .cancelling
  | stop (state : StopState) : Moves .cancelling (.stopped state)

def RunState.final : RunState → Option StopState
  | .stopped state => some state
  | _ => none

/-- What one transaction may do to a run. -/
structure AgentRun.Later (before after : AgentRun) : Prop where
  moves : before.state.Moves after.state
  fence : before.fence ≤ after.fence
  raised : before.fence < after.fence → before.state = .prepared ∧ after.state = .starting ∨
    after.state = .cancelling
  count : before.actionCount ≤ after.actionCount
  profileId : after.profileId = before.profileId
  startedAt : after.startedAt = before.startedAt
  maxActions : after.maxActions = before.maxActions

namespace AgentRun.Later

theorem refl (run : AgentRun) : Later run run where
  moves := .stay run.state
  fence := Nat.le_refl _
  raised := fun higher => absurd higher (Nat.lt_irrefl _)
  count := Nat.le_refl _
  profileId := rfl
  startedAt := rfl
  maxActions := rfl

/-- A run that keeps its fence. -/
theorem still {before after : AgentRun} (moves : before.state.Moves after.state)
    (fence : after.fence = before.fence)
    (count : before.actionCount ≤ after.actionCount) (profileId : after.profileId = before.profileId)
    (startedAt : after.startedAt = before.startedAt)
    (maxActions : after.maxActions = before.maxActions) : Later before after where
  moves := moves
  fence := fence.ge
  raised := fun higher => absurd fence higher.ne'
  count := count
  profileId := profileId
  startedAt := startedAt
  maxActions := maxActions

theorem recoverFence (run : AgentRun) : Later run run.recoverFence := by
  unfold AgentRun.recoverFence
  split
  case isTrue active =>
      exact ⟨.cancel active, Nat.le_succ _, fun _ => .inr rfl, Nat.le_refl _, rfl, rfl, rfl⟩
  · exact refl run

end AgentRun.Later

/-- An inactive run stays so. -/
theorem RunState.Moves.inactive {before after : RunState} (moves : before.Moves after)
    (inactive : before.active = false) :
    after.active = false := by
  cases moves with
  | stay => exact inactive
  | start => contradiction
  | run => contradiction
  | cancel active => rfl
  | stop state => rfl

variable {config : Config} {db after : Db} {mark : Mark}

theorem grows_put {runs : Table AgentRun} {run new : AgentRun} (found : runs.get run.id = some run)
    (named : new.id = run.id)
    (later : run.Later new) : Table.Grows AgentRun.Later runs (runs.put new) := by
  refine .put AgentRun.Later.refl fun old stored => ?_
  have same : old = run := Option.some.inj (stored.symm.trans (show runs.get new.id = some run from named ▸ found))
  exact same ▸ later

theorem DbMove.runs_grow (move : DbMove config db after mark) : Table.Grows AgentRun.Later db.runs after.runs := by
  cases move with
  | prepared run fresh => exact .put_new AgentRun.Later.refl fresh
  | reserved run attempt found state =>
    exact grows_put found rfl ⟨state ▸ .start, Nat.le_succ _, fun _ => .inl ⟨state, rfl⟩,
      Nat.le_refl _, rfl, rfl, rfl⟩
  | running run attempts found state =>
    exact grows_put found rfl (.still (state ▸ .run) rfl (Nat.le_refl _) rfl rfl rfl)
  | stepped run step reserves =>
    exact grows_put reserves.found rfl (.still (.stay _) rfl (Nat.le_succ _) rfl rfl rfl)
  | fenced run reason found active =>
    exact grows_put found rfl ⟨.cancel active, Nat.le_succ _, fun _ => .inr rfl, Nat.le_refl _, rfl, rfl, rfl⟩
  | stopped run attempts result found state =>
    exact grows_put found rfl (.still (state ▸ .stop _) rfl (Nat.le_refl _) rfl rfl rfl)
  | recovered => exact .map AgentRun.recoverFence AgentRun.recoverFence_id fun run _ => .recoverFence run
  | calls => exact .refl AgentRun.Later.refl _
  | attempts => exact .refl AgentRun.Later.refl _
  | approvals => exact .refl AgentRun.Later.refl _
  | begun => exact .refl AgentRun.Later.refl _
  | held => exact .refl AgentRun.Later.refl _
  | closed => exact .refl AgentRun.Later.refl _
  | recorded => exact .refl AgentRun.Later.refl _
  | reconciled => exact .refl AgentRun.Later.refl _

/-- A takeover that has ended belongs to a run that has stopped, apart from the runs
this turn still has to fence. -/
def Settled (db : Db) (waived : List String) : Prop :=
  ∀ takeover ∈ db.takeovers.rows, ∃ run, db.runs.get takeover.runId = some run ∧
    (takeover.state = .ended → run.state.active = true → takeover.runId ∈ waived)

namespace Settled

/-- Runs that go on keep the takeovers settled. -/
theorem grow {waived : List String} (settled : Settled db waived)
    (runs : Table.Grows AgentRun.Later db.runs after.runs)
    (takeovers : ∀ new ∈ after.takeovers.rows, ∃ old ∈ db.takeovers.rows, new.runId = old.runId ∧
      (new.state = .ended → old.state = .ended ∨ ∀ run, after.runs.get new.runId = some run →
        run.state.active = false)) :
    Settled after waived := by
  intro new member
  obtain ⟨old, stored, named, ended⟩ := takeovers new member
  obtain ⟨run, found, waiting⟩ := settled old stored
  obtain ⟨run', found', later⟩ := runs old.runId run found
  refine ⟨run', named ▸ found', fun state active => ?_⟩
  rcases ended state with before | stopped
  · have was : run.state.active = true := by
      cases inactive : run.state.active with
      | true => rfl
      | false => exact absurd (later.moves.inactive inactive) (by simp [active])
    exact named ▸ waiting before was
  · rw [stopped run' (named ▸ found')] at active
    contradiction

theorem same {waived : List String} (settled : Settled db waived)
    (runs : Table.Grows AgentRun.Later db.runs after.runs)
    (takeovers : after.takeovers = db.takeovers) : Settled after waived :=
  settled.grow runs fun new member => ⟨new, takeovers ▸ member, rfl, .inl⟩

/-- A run that has stopped needs no waiver. -/
theorem unwaive {waived fewer : List String} (settled : Settled db waived)
    (stopped : ∀ id ∈ waived, id ∈ fewer ∨ ∀ run, db.runs.get id = some run → run.state.active = false) :
    Settled db fewer := by
  intro takeover member
  obtain ⟨run, found, waiting⟩ := settled takeover member
  refine ⟨run, found, fun ended active => ?_⟩
  rcases stopped _ (waiting ended active) with kept | inactive
  · exact kept
  · rw [inactive run found] at active
    contradiction

/-- Nobody has ever taken over a running run that is not taken over. -/
theorem never_taken (settled : Settled db []) {run : AgentRun} (found : db.runs.get run.id = some run)
    (running : run.state = .running) (free : db.takenOver run.id = false) :
    ∀ takeover ∈ db.takeovers.rows, takeover.runId ≠ run.id := by
  intro takeover member same
  obtain ⟨owner, stored, waiting⟩ := settled takeover member
  rw [same, found] at stored
  cases stored
  have standing := List.any_eq_false.mp free takeover member
  simp only [same, decide_true, Bool.true_and, decide_eq_true_eq, ne_eq, Decidable.not_not] at standing
  exact absurd (waiting standing (by rw [running]; rfl)) List.not_mem_nil

end Settled

theorem mem_endTakeovers {takeover : Takeover} {runs : List String} {reason : String}
    (member : takeover ∈ (endTakeovers db runs reason).takeovers.rows) :
    ∃ old ∈ db.takeovers.rows, takeover.runId = old.runId ∧
      (takeover.state = .ended → old.state = .ended ∨ old.runId ∈ runs) := by
  obtain ⟨old, stored, rfl⟩ := List.mem_map.mp member
  unfold Takeover.endFor
  split
  case isTrue standing =>
      simp only [Bool.and_eq_true, List.contains_iff_mem] at standing
      exact ⟨old, stored, rfl, fun _ => .inr standing.1⟩
  · exact ⟨old, stored, rfl, .inl⟩

theorem DbMove.settled (move : DbMove config db after mark) {waived : List String} (settled : Settled db waived) :
    Settled after (mark.closed ++ waived) := by
  have grows := move.runs_grow
  cases move with
  | begun takeover run found fresh standing =>
    intro other member
    rcases Table.mem_put.mp member with rfl | ⟨stored, _⟩
    · exact ⟨run, found, fun ended => absurd ended standing⟩
    · exact settled other stored
  | held takeover found =>
    refine settled.grow grows fun new member => ?_
    rcases Table.mem_put.mp member with rfl | ⟨stored, _⟩
    · exact ⟨takeover, Table.get_mem found, rfl, fun ended => by contradiction⟩
    · exact ⟨new, stored, rfl, .inl⟩
  | closed takeover found reason =>
    intro other member
    rcases Table.mem_put.mp member with rfl | ⟨stored, _⟩
    · obtain ⟨run, owner, _⟩ := settled takeover (Table.get_mem found)
      exact ⟨run, owner, fun _ _ => List.mem_cons_self⟩
    · obtain ⟨run, owner, waiting⟩ := settled other stored
      exact ⟨run, owner, fun ended active => List.mem_cons_of_mem _ (waiting ended active)⟩
  | fenced run reason found active =>
    refine settled.grow grows fun new member => ?_
    obtain ⟨old, stored, named, ended⟩ := mem_endTakeovers member
    refine ⟨old, stored, named, fun state => (ended state).imp_right fun inside other found' => ?_⟩
    have same : new.runId = run.id := named.trans (List.mem_singleton.mp inside)
    have put : (db.runs.put { run with
      state := .cancelling, fence := run.fence + 1, fencedFor := some reason }).get run.id =
        some other := same ▸ found'
    cases Option.some.inj ((Table.get_put_self db.runs _).symm.trans put)
    rfl
  | recovered =>
    refine settled.grow grows fun new member => ?_
    obtain ⟨old, stored, named, _⟩ := mem_endTakeovers member
    refine ⟨old, stored, named, fun _ => .inr fun run found => ?_⟩
    have put : (db.runs.map AgentRun.recoverFence AgentRun.recoverFence_id).get new.runId = some run := found
    rw [Table.get_map] at put
    obtain ⟨before, _, rfl⟩ := Option.map_eq_some_iff.mp put
    unfold AgentRun.recoverFence
    split
    · rfl
    case isFalse inactive => simpa using inactive
  | calls => exact settled.same grows rfl
  | attempts => exact settled.same grows rfl
  | prepared => exact settled.same grows rfl
  | reserved => exact settled.same grows rfl
  | running => exact settled.same grows rfl
  | stepped => exact settled.same grows rfl
  | stopped => exact settled.same grows rfl
  | approvals => exact settled.same grows rfl
  | recorded => exact settled.same grows rfl
  | reconciled => exact settled.same grows rfl

def stepCount (steps : Table Step) (runId : String) : Nat := steps.rows.countP (·.runId = runId)

/-- The approval a step has used. -/
def Spent (approvals : Table Approval) (step : Step) (id : String) : Prop :=
  ∃ approval, approvals.get id = some approval ∧ approval.state = .consumed ∧ approval.action = step.action ∧
    approval.runId = step.runId ∧ approval.attemptId = step.attemptId ∧ approval.fence = step.fence

structure RunInv (db : Db) : Prop where
  results : ∀ run ∈ db.runs.rows, (db.results.get run.id).map RunResult.finalState = run.state.final
  finished : ∀ result ∈ db.results.rows, ∃ run, db.runs.get result.runId = some run
  owned : ∀ step ∈ db.steps.rows, ∃ run, db.runs.get step.runId = some run
  counted : ∀ run ∈ db.runs.rows, run.actionCount = stepCount db.steps run.id
  bounded : ∀ run ∈ db.runs.rows, ∀ max, run.maxActions = some max → run.actionCount ≤ max
  asked : ∀ step ∈ db.steps.rows, step.action = .submitBoundFixture → step.approvalId ≠ none
  spent : ∀ step ∈ db.steps.rows, ∀ id, step.approvalId = some id → Spent db.approvals step id
  once : ∀ step ∈ db.steps.rows, ∀ other ∈ db.steps.rows, ∀ id, step.approvalId = some id →
    other.approvalId = some id → Keyed.key step = Keyed.key other

/-- What a step row keeps. -/
structure Step.Same (before after : Step) : Prop where
  runId : after.runId = before.runId
  ordinal : after.ordinal = before.ordinal
  attemptId : after.attemptId = before.attemptId
  fence : after.fence = before.fence
  action : after.action = before.action
  approvalId : after.approvalId = before.approvalId

theorem Step.Same.key {before after : Step} (same : Step.Same before after) :
    Keyed.key after = Keyed.key before := by
  show (after.runId, after.ordinal) = (before.runId, before.ordinal)
  rw [same.runId, same.ordinal]

theorem Step.Same.trans {first second third : Step} (before : Step.Same first second)
    (after : Step.Same second third) :
    Step.Same first third where
  runId := after.runId.trans before.runId
  ordinal := after.ordinal.trans before.ordinal
  attemptId := after.attemptId.trans before.attemptId
  fence := after.fence.trans before.fence
  action := after.action.trans before.action
  approvalId := after.approvalId.trans before.approvalId

theorem Step.interrupt_same (runs : List String) (step : Step) :
    Step.Same step (Process.Step.interrupt runs step) := by
  unfold Process.Step.interrupt
  split <;> exact ⟨rfl, rfl, rfl, rfl, rfl, rfl⟩

theorem stepCount_map (steps : Table Step) {change : Step → Step}
    (key : ∀ step, Keyed.key (change step) = Keyed.key step)
    (runId : String) : stepCount (steps.map change key) runId = stepCount steps runId := by
  show (steps.rows.map change).countP _ = _
  rw [List.countP_map]
  refine List.countP_congr fun step _ => ?_
  have same : (change step).runId = step.runId := congrArg Prod.fst (key step)
  simp [same]

theorem consumed_spends {approvals : Table Approval} {approval : Approval} {id : String}
    (found : approvals.get id = some approval) :
    (consumed approvals (some id)).get id = some { approval with state := .consumed } := by
  have named : approval.id = id := Table.get_key found
  simp only [consumed, Option.bind_some, found]
  subst named
  exact Table.get_put_self approvals { approval with state := .consumed }

/-- A step consumes no approval another step has used. -/
theorem consumed_keeps {approvals : Table Approval} {used : Option String}
    (open_ : ∀ id, used = some id → ∃ approval, approvals.get id = some approval ∧ approval.state = .approved) :
    ∀ id approval, approvals.get id = some approval → approval.state = .consumed →
      (consumed approvals used).get id = some approval := by
  cases used with
  | none => exact fun id approval found _ => found
  | some used =>
    obtain ⟨approval, found, state⟩ := open_ used rfl
    have named : approval.id = used := Table.get_key found
    simp only [consumed, Option.bind_some, found]
    subst named
    have spent : approval.state ≠ .consumed := by rw [state]; decide
    exact keeps_put found spent

namespace RunInv

/-- A run is replaced by one with the same steps and the same end. -/
theorem put_run (inv : RunInv db) {run new : AgentRun} (found : db.runs.get run.id = some run)
    (named : new.id = run.id)
    (final : new.state.final = run.state.final) (count : new.actionCount = run.actionCount)
    (max : new.maxActions = run.maxActions) : RunInv { db with runs := db.runs.put new } := by
  have member := Table.get_mem found
  have stays (id : String) (known : ∃ run, db.runs.get id = some run) :
      ∃ run, (db.runs.put new).get id = some run := by
    rw [Table.get_put]
    split
    · exact ⟨new, rfl⟩
    · exact known
  exact
    { inv with
      results := Table.all_put inv.results (by rw [named, final]; exact inv.results run member)
      finished := fun result stored => stays result.runId (inv.finished result stored)
      owned := fun step stored => stays step.runId (inv.owned step stored)
      counted := Table.all_put inv.counted (by rw [named, count]; exact inv.counted run member)
      bounded := Table.all_put inv.bounded (by rw [count, max]; exact inv.bounded run member) }

theorem keep_approvals (inv : RunInv db) {approvals : Table Approval}
    (keeps : ∀ id approval, db.approvals.get id = some approval → approval.state = .consumed →
      approvals.get id = some approval) : RunInv { db with approvals } :=
  { inv with
    spent := fun step stored id used => by
      obtain ⟨approval, found, state, fields⟩ := inv.spent step stored id used
      exact ⟨approval, keeps id approval found state, state, fields⟩ }

theorem same_steps (inv : RunInv db) {steps : Table Step}
    (same : ∀ new ∈ steps.rows, ∃ old ∈ db.steps.rows, Step.Same old new)
    (count : ∀ runId, stepCount steps runId = stepCount db.steps runId) : RunInv { db with steps } :=
  { inv with
    owned := fun new member => by
      obtain ⟨old, stored, same⟩ := same new member
      exact same.runId ▸ inv.owned old stored
    counted := fun run member => (inv.counted run member).trans (count run.id).symm
    asked := fun new member submits => by
      obtain ⟨old, stored, same⟩ := same new member
      exact same.approvalId ▸ inv.asked old stored (same.action ▸ submits)
    spent := fun new member id used => by
      obtain ⟨old, stored, same⟩ := same new member
      obtain ⟨approval, found, state, action, runId, attemptId, fence⟩ :=
        inv.spent old stored id (same.approvalId ▸ used)
      exact ⟨approval, found, state, action.trans same.action.symm, runId.trans same.runId.symm,
        attemptId.trans same.attemptId.symm, fence.trans same.fence.symm⟩
    once := fun new member other member' id used used' => by
      obtain ⟨old, stored, kept⟩ := same new member
      obtain ⟨old', stored', kept'⟩ := same other member'
      rw [kept.key, kept'.key]
      exact inv.once old stored old' stored' id (kept.approvalId ▸ used) (kept'.approvalId ▸ used') }

variable {run : AgentRun}

theorem prepared (inv : RunInv db) (fresh : db.runs.get run.id = none) (state : run.state = .prepared)
    (uncounted : run.actionCount = 0) : RunInv { db with runs := db.runs.put run } := by
  have stays (id : String) (known : ∃ run, db.runs.get id = some run) :
      ∃ found, (db.runs.put run).get id = some found := by
    rw [Table.get_put]
    split
    · exact ⟨run, rfl⟩
    · exact known
  have unfinished : db.results.get run.id = none := by
    refine Table.get_eq_none_iff.mpr fun result stored same => ?_
    obtain ⟨owner, found⟩ := inv.finished result stored
    rw [show result.runId = run.id from same, fresh] at found
    contradiction
  have unstepped : stepCount db.steps run.id = 0 := by
    refine List.countP_eq_zero.mpr fun step stored same => ?_
    obtain ⟨owner, found⟩ := inv.owned step stored
    rw [of_decide_eq_true same, fresh] at found
    contradiction
  exact
    { inv with
      results := Table.all_put inv.results (by rw [unfinished, state]; rfl)
      finished := fun result stored => stays result.runId (inv.finished result stored)
      owned := fun step stored => stays step.runId (inv.owned step stored)
      counted := Table.all_put inv.counted (by rw [uncounted, unstepped])
      bounded := Table.all_put inv.bounded (by rw [uncounted]; exact fun max _ => Nat.zero_le max) }

theorem stopped (inv : RunInv db) {result : RunResult} (found : db.runs.get run.id = some run)
    (named : result.runId = run.id) :
    RunInv { db with
      runs := db.runs.put { run with state := .stopped result.finalState },
      results := db.results.put result } := by
  have stays (id : String) (known : ∃ run, db.runs.get id = some run) :
      ∃ found, (db.runs.put { run with state := .stopped result.finalState }).get id = some found := by
    rw [Table.get_put]
    split
    · exact ⟨_, rfl⟩
    · exact known
  have written : (db.results.put result).get run.id = some result := by
    rw [← named]
    exact Table.get_put_self db.results result
  have member := Table.get_mem found
  exact
    { inv with
      results := by
        intro other stored
        rcases Table.mem_put.mp stored with rfl | ⟨stored, different⟩
        · show ((db.results.put result).get run.id).map _ = _
          rw [written]
          rfl
        · show ((db.results.put result).get other.id).map _ = _
          rw [Table.get_put_other _ (show other.id ≠ result.runId from named ▸ different)]
          exact inv.results other stored
      finished := fun other stored => by
        rcases Table.mem_put.mp stored with rfl | ⟨stored, _⟩
        · exact stays _ (named ▸ ⟨run, found⟩)
        · exact stays _ (inv.finished other stored)
      owned := fun step stored => stays step.runId (inv.owned step stored)
      counted := Table.all_put inv.counted (inv.counted run member)
      bounded := Table.all_put inv.bounded (inv.bounded run member) }

theorem stepped (inv : RunInv db) {step : Step} (reserves : Reserves config db run step) :
    RunInv { db with runs := db.runs.put { run with actionCount := run.actionCount + 1 }
                     approvals := consumed db.approvals step.approvalId
                     steps := db.steps.put step } := by
  have member := Table.get_mem reserves.found
  have named := reserves.named
  have rows := Table.rows_put_new reserves.fresh
  have stays (id : String) (known : ∃ run, db.runs.get id = some run) :
      ∃ found, (db.runs.put { run with actionCount := run.actionCount + 1 }).get id = some found := by
    rw [Table.get_put]
    split
    · exact ⟨_, rfl⟩
    · exact known
  have keeps : ∀ id approval, db.approvals.get id = some approval → approval.state = .consumed →
      (consumed db.approvals step.approvalId).get id = some approval := by
    refine consumed_keeps fun id used => ?_
    obtain ⟨approval, found, state, _⟩ := reserves.approved id used
    exact ⟨approval, found, state⟩
  -- an approval that is approved has been used by no step
  have unused : ∀ old ∈ db.steps.rows, ∀ id, step.approvalId = some id → old.approvalId ≠ some id := by
    intro old stored id used same
    obtain ⟨approval, found, state, _⟩ := inv.spent old stored id same
    obtain ⟨approval', found', state', _⟩ := reserves.approved id used
    rw [found] at found'
    cases found'
    rw [state] at state'
    contradiction
  have count (runId : String) : stepCount (db.steps.put step) runId =
      stepCount db.steps runId + if step.runId = runId then 1 else 0 := by
    unfold stepCount
    rw [rows, List.countP_append]
    by_cases same : step.runId = runId <;> simp [same]
  exact
    { results := Table.all_put inv.results (inv.results run member)
      finished := fun result stored => stays result.runId (inv.finished result stored)
      owned := fun other stored => by
        rcases Table.mem_put.mp stored with rfl | ⟨stored, _⟩
        · exact stays _ (named ▸ ⟨run, reserves.found⟩)
        · exact stays _ (inv.owned other stored)
      counted := by
        intro other stored
        rw [count]
        rcases Table.mem_put.mp stored with rfl | ⟨stored, different⟩
        · show run.actionCount + 1 = stepCount db.steps run.id + if step.runId = run.id then 1 else 0
          rw [if_pos named, ← inv.counted run member]
        · rw [if_neg (named ▸ Ne.symm different)]
          exact inv.counted other stored
      bounded := Table.all_put inv.bounded fun max limited => reserves.room max limited
      asked := Table.all_put inv.asked reserves.asked
      spent := by
        intro other stored id used
        rcases Table.mem_put.mp stored with rfl | ⟨stored, _⟩
        · obtain ⟨approval, found, _, action, runId, attemptId, fence, _⟩ := reserves.approved id used
          rw [used]
          exact ⟨_, consumed_spends found, rfl, action, runId, attemptId, fence⟩
        · obtain ⟨approval, found, state, fields⟩ := inv.spent other stored id used
          exact ⟨approval, keeps id approval found state, state, fields⟩
      once := by
        intro first stored second stored' id used used'
        rcases Table.mem_put.mp stored with rfl | ⟨known, _⟩
        · rcases Table.mem_put.mp stored' with rfl | ⟨known', _⟩
          · rfl
          · exact absurd used' (unused second known' id used)
        · rcases Table.mem_put.mp stored' with rfl | ⟨known', _⟩
          · exact absurd used (unused first known id used')
          · exact inv.once first known second known' id used used' }

theorem recovered (inv : RunInv db) : RunInv (recoverWorkers db Process.interruptRuns).1 := by
  have fenced : RunInv { db with runs := db.runs.map AgentRun.recoverFence AgentRun.recoverFence_id } := by
    have stays (id : String) (known : ∃ run, db.runs.get id = some run) :
        ∃ found, (db.runs.map AgentRun.recoverFence AgentRun.recoverFence_id).get id = some found := by
      obtain ⟨run, found⟩ := known
      rw [Table.get_map, found]
      exact ⟨_, rfl⟩
    have kept (run : AgentRun) : run.recoverFence.state.final = run.state.final ∧
        run.recoverFence.actionCount = run.actionCount ∧ run.recoverFence.maxActions = run.maxActions := by
      unfold AgentRun.recoverFence
      split
      case isTrue active =>
          refine ⟨?_, rfl, rfl⟩
          cases state : run.state with
          | stopped stop => rw [state] at active; contradiction
          | _ => rfl
      · exact ⟨rfl, rfl, rfl⟩
    exact
      { inv with
        results := Table.all_map AgentRun.recoverFence AgentRun.recoverFence_id fun run stored => by
          rw [AgentRun.recoverFence_id, (kept run).1]
          exact inv.results run stored
        finished := fun result stored => stays result.runId (inv.finished result stored)
        owned := fun step stored => stays step.runId (inv.owned step stored)
        counted := Table.all_map AgentRun.recoverFence AgentRun.recoverFence_id fun run stored => by
          rw [AgentRun.recoverFence_id, (kept run).2.1]
          exact inv.counted run stored
        bounded := Table.all_map AgentRun.recoverFence AgentRun.recoverFence_id fun run stored => by
          rw [(kept run).2.1, (kept run).2.2]
          exact inv.bounded run stored }
  have interrupted : RunInv { db with
      runs := db.runs.map AgentRun.recoverFence AgentRun.recoverFence_id
      steps := db.steps.map (Process.Step.interrupt db.activeRuns) (Process.Step.interrupt_key db.activeRuns) } := by
    refine fenced.same_steps (fun new member => ?_) (stepCount_map db.steps _)
    obtain ⟨old, stored, rfl⟩ := List.mem_map.mp member
    exact ⟨old, stored, Step.interrupt_same _ old⟩
  exact { interrupted.keep_approvals (keeps_close db.approvals db.activeRuns "coordinator_restart") with }

end RunInv

theorem DbMove.runInv (move : DbMove config db after mark) (inv : RunInv db) : RunInv after := by
  cases move with
  | calls => exact { inv with }
  | attempts => exact { inv with }
  | prepared run fresh state uncounted => exact inv.prepared fresh state uncounted
  | reserved run attempt found state =>
    have put : RunInv { db with runs := db.runs.put { run with state := .starting, fence := run.fence + 1 } } :=
      inv.put_run found rfl (by rw [state]; rfl) rfl rfl
    exact { put with }
  | running run attempts found state =>
    have put : RunInv { db with runs := db.runs.put { run with state := .running } } :=
      inv.put_run found rfl (by rw [state]; rfl) rfl rfl
    exact { put with }
  | stepped run step reserves => exact inv.stepped reserves
  | fenced run reason found active =>
    have final : run.state.final = none := by
      cases state : run.state with
      | stopped stop => rw [state] at active; contradiction
      | _ => rfl
    have put : RunInv
        { db with runs := db.runs.put { run with state := .cancelling, fence := run.fence + 1, fencedFor := some reason } } :=
      inv.put_run found rfl final.symm rfl rfl
    exact { put.keep_approvals (keeps_close db.approvals [run.id] "run_stopping") with }
  | stopped run attempts result found state fresh named => exact { inv.stopped found named with }
  | recovered => exact inv.recovered
  | approvals approvals keeps => exact inv.keep_approvals keeps
  | begun takeover => exact { inv.keep_approvals (keeps_close db.approvals [takeover.runId] "taken_over") with }
  | held => exact { inv with }
  | closed => exact { inv with }
  | recorded step state claims errorCode found =>
    refine inv.same_steps (fun new member => ?_) fun runId => Table.countP_put found rfl
    rcases Table.mem_put.mp member with rfl | ⟨stored, _⟩
    · exact ⟨step, Table.get_mem found, rfl, rfl, rfl, rfl, rfl, rfl⟩
    · exact ⟨new, stored, rfl, rfl, rfl, rfl, rfl, rfl⟩
  | reconciled => exact { inv with }

end ProxyPilot.Coordinator
