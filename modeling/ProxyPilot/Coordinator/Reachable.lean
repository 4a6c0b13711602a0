import ProxyPilot.Coordinator.Turns

namespace ProxyPilot.Coordinator

open Data Transition

variable {p p' : Process} {label : RunLabel}

structure ProcessInv (p : Process) : Prop where
  runs : RunInv p.db
  paused : p.booting = true → p.turn = none
  terminating : ∀ stop ∈ p.terminating.rows, p.db.Fenced stop.runId
  collecting : ∀ stop, p.turn = some (.collect stop) → p.db.Fenced stop.runId
  settled : ∃ waived, Settled p.db waived ∧ (p.booting = false → waived = waivedBy p.turn)

theorem recovered_inactive (db : Db) :
    ∀ run ∈ (recoverWorkers db Process.interruptRuns).1.runs.rows, run.state.active = false := by
  intro run member
  obtain ⟨before, _, rfl⟩ := List.mem_map.mp (show run ∈ db.runs.rows.map AgentRun.recoverFence from member)
  unfold AgentRun.recoverFence
  split
  · rfl
  case isFalse inactive => exact Bool.eq_false_iff.mpr inactive

namespace ProcessInv

theorem initial (first : coordinator.initial p) : ProcessInv p := by
  obtain ⟨config, rfl⟩ := first
  have runs : RunInv Db.empty := by constructor <;> exact fun _ member => nomatch member
  exact
    { runs
      paused := fun _ => rfl
      terminating := fun _ member => nomatch member
      collecting := fun _ collects => by cases collects
      settled := ⟨[], (fun _ member => nomatch member), fun _ => rfl⟩ }

theorem settled_now (inv : ProcessInv p) (going : p.booting = false) : Settled p.db (waivedBy p.turn) := by
  obtain ⟨waived, settled, same⟩ := inv.settled
  exact same going ▸ settled

theorem turned (inv : ProcessInv p) (going : p.booting = false)
    (turned : Process.Turned p p' label) : ProcessInv p' := by
  obtain ⟨mark, move, _, fences⟩ := turned.move
  exact
    { runs := move.runInv inv.runs
      paused := fun booting => by
        rw [turned.booting, going] at booting
        contradiction
      terminating := fun stop member => (turned.terminating stop member).elim
        (fun stored => move.fenced_stays (inv.terminating stop stored)) id
      collecting := turned.collecting
      settled := ⟨waivedBy p'.turn, (move.settled (inv.settled_now going)).unwaive fences, fun _ => rfl⟩ }

theorem crash (inv : ProcessInv p) : ProcessInv p.crash := by
  obtain ⟨waived, settled, _⟩ := inv.settled
  exact
    { runs := inv.runs
      paused := fun _ => rfl
      terminating := fun _ member => nomatch member
      collecting := fun _ collects => by cases collects
      settled := ⟨waived, settled, fun booting => by cases booting⟩ }

theorem recover (inv : ProcessInv p) (booting : p.booting = true) : ProcessInv p.recover := by
  have move : DbMove p.config p.db p.recover.db .quiet := .recovered
  have still : p.recover.turn = none := inv.paused booting
  obtain ⟨waived, settled, _⟩ := inv.settled
  have unwaived : Settled p.recover.db [] := (move.settled settled).unwaive fun _ _ =>
    .inr fun run found => recovered_inactive p.db run (Table.get_mem found)
  exact
    { runs := move.runInv inv.runs
      paused := fun _ => still
      terminating := fun stop member => move.fenced_stays (inv.terminating stop member)
      collecting := fun stop turn => by
        rw [still] at turn
        contradiction
      settled := ⟨[], unwaived, fun _ => by rw [still]; rfl⟩ }

end ProcessInv

/-- A step is a crash, a restart, or a turn of a process that has started. -/
theorem step_turned (inv : ProcessInv p) (moved : coordinator.step p label = some p') :
    p' = p.crash ∨ (p.booting = true ∧ p' = p.recover) ∨ (p.booting = false ∧ Process.Turned p p' label) := by
  have handled (other : (if p.booting ∨ p.turn.isSome then none else p.handle label) = some p') :
      p.booting = false ∧ Process.Turned p p' label := by
    split at other
    · contradiction
    case isFalse free =>
        simp only [not_or, Bool.not_eq_true, Option.isSome_eq_false_iff, Option.isNone_iff_eq_none] at free
        exact ⟨free.1, Process.handle_turned free.2 other⟩
  cases label with
  | crash => exact .inl (Option.some.inj moved).symm
  | recover =>
    refine .inr (.inl ?_)
    change (if p.booting then some p.recover else none) = some p' at moved
    split at moved
    case isTrue booting => exact ⟨booting, (Option.some.inj moved).symm⟩
    · contradiction
  | «continue» uuid now =>
    obtain ⟨op, turn, rfl⟩ := Option.map_eq_some_iff.mp moved
    have going : p.booting = false := by
      cases booting : p.booting with
      | true => rw [inv.paused booting] at turn; contradiction
      | false => rfl
    exact .inr (.inr ⟨going, Process.continueTurn_turned turn inv.terminating inv.collecting⟩)
  | _ => exact .inr (.inr (handled moved))

theorem ProcessInv.step (inv : ProcessInv p) (moved : coordinator.step p label = some p') : ProcessInv p' := by
  rcases step_turned inv moved with rfl | ⟨booting, rfl⟩ | ⟨going, turned⟩
  · exact inv.crash
  · exact inv.recover booting
  · exact inv.turned going turned

theorem ProcessInv.reachable (reached : coordinator.Reachable p) : ProcessInv p :=
  reached.invariant ProcessInv (fun _ => .initial) fun inv moved => inv.step moved

theorem step_move (inv : ProcessInv p) (moved : coordinator.step p label = some p') :
    ∃ mark, DbMove p.config p.db p'.db mark ∧ Process.Caused p label mark := by
  rcases step_turned inv moved with rfl | ⟨_, rfl⟩ | ⟨_, turned⟩
  · exact ⟨.quiet, .same p.config p.db, trivial⟩
  · exact ⟨.quiet, .recovered, trivial⟩
  · obtain ⟨mark, move, caused, _⟩ := turned.move
    exact ⟨mark, move, caused⟩

variable {config : Config} {db after : Db} {mark : Mark} {runId : String}

theorem DbMove.steps_from (move : DbMove config db after mark) :
    ∀ step ∈ after.steps.rows, (∃ old ∈ db.steps.rows, Step.Same old step) ∨
      ∃ run, Reserves config db run step := by
  have same (step : Step) (member : step ∈ db.steps.rows) : ∃ old ∈ db.steps.rows, Step.Same old step :=
    ⟨step, member, rfl, rfl, rfl, rfl, rfl, rfl⟩
  intro step member
  cases move with
  | stepped run new reserves =>
    rcases Table.mem_put.mp member with rfl | ⟨stored, _⟩
    · exact .inr ⟨run, reserves⟩
    · exact .inl (same step stored)
  | recovered =>
    obtain ⟨old, stored, rfl⟩ := List.mem_map.mp member
    exact .inl ⟨old, stored, Step.interrupt_same _ old⟩
  | recorded old state claims errorCode found =>
    rcases Table.mem_put.mp member with rfl | ⟨stored, _⟩
    · exact .inl ⟨old, Table.get_mem found, rfl, rfl, rfl, rfl, rfl, rfl⟩
    · exact .inl (same step stored)
  | calls => exact .inl (same step member)
  | attempts => exact .inl (same step member)
  | prepared => exact .inl (same step member)
  | reserved => exact .inl (same step member)
  | running => exact .inl (same step member)
  | fenced => exact .inl (same step member)
  | stopped => exact .inl (same step member)
  | approvals => exact .inl (same step member)
  | begun => exact .inl (same step member)
  | held => exact .inl (same step member)
  | closed => exact .inl (same step member)
  | reconciled => exact .inl (same step member)

/-- A step is there, or it is reserved by a run nobody has ever taken over. -/
theorem steps_from (inv : ProcessInv p) (moved : coordinator.step p label = some p') :
    ∀ step ∈ p'.db.steps.rows, (∃ old ∈ p.db.steps.rows, Step.Same old step) ∨
      ∃ run, Reserves p.config p.db run step ∧ ∀ takeover ∈ p.db.takeovers.rows, takeover.runId ≠ run.id := by
  intro step member
  have same (stored : step ∈ p.db.steps.rows) : ∃ old ∈ p.db.steps.rows, Step.Same old step :=
    ⟨step, stored, rfl, rfl, rfl, rfl, rfl, rfl⟩
  rcases step_turned inv moved with rfl | ⟨_, rfl⟩ | ⟨going, turned⟩
  · exact .inl (same member)
  · obtain ⟨old, stored, rfl⟩ := List.mem_map.mp member
    exact .inl ⟨old, stored, Step.interrupt_same _ old⟩
  · by_cases waived : waivedBy p.turn = []
    · obtain ⟨mark, move, _⟩ := turned.move
      refine (move.steps_from step member).imp_right fun ⟨run, reserves⟩ => ⟨run, reserves, ?_⟩
      exact (waived ▸ inv.settled_now going).never_taken reserves.found reserves.running reserves.free
    · exact .inl (same (turned.steps waived ▸ member))

/-- A run that was fenced or taken over. -/
def Db.Closed (db : Db) (runId : String) : Prop :=
  db.Fenced runId ∨ ∃ takeover ∈ db.takeovers.rows, takeover.runId = runId

theorem DbMove.takeovers_stay (move : DbMove config db after mark)
    (taken : ∃ takeover ∈ db.takeovers.rows, takeover.runId = runId) :
    ∃ takeover ∈ after.takeovers.rows, takeover.runId = runId := by
  obtain ⟨takeover, member, owned⟩ := taken
  have stored : db.takeovers.get takeover.id = some takeover := Table.get_of_mem member
  have put (new : Takeover) (same : new.id = takeover.id → new.runId = runId) :
      ∃ takeover ∈ (db.takeovers.put new).rows, takeover.runId = runId := by
    by_cases named : new.id = takeover.id
    · exact ⟨new, Table.mem_put.mpr (.inl rfl), same named⟩
    · exact ⟨takeover, Table.mem_put.mpr (.inr ⟨member, Ne.symm named⟩), owned⟩
  have replaced (old : Takeover) (found : db.takeovers.get old.id = some old) (named : old.id = takeover.id) :
      old.runId = runId := by
    rw [named, stored] at found
    exact Option.some.inj found ▸ owned
  have ended (runs : List String) (reason : String) :
      ∃ takeover ∈ (endTakeovers db runs reason).takeovers.rows, takeover.runId = runId := by
    refine ⟨takeover.endFor runs reason, List.mem_map_of_mem member, ?_⟩
    unfold Takeover.endFor
    split <;> exact owned
  cases move with
  | begun new run found fresh standing =>
    refine put new fun named => ?_
    rw [named, stored] at fresh
    contradiction
  | held old found => exact put _ (replaced old found)
  | closed old found reason => exact put _ (replaced old found)
  | fenced run reason found active => exact ended [run.id] "run_stopping"
  | recovered => exact ended db.activeRuns "coordinator_restart"
  | _ => exact ⟨takeover, member, owned⟩

theorem DbMove.closed_stays (move : DbMove config db after mark)
    (closed : db.Closed runId) : after.Closed runId :=
  closed.imp move.fenced_stays move.takeovers_stay

/-- A closed run gains no step. -/
theorem closed_run {labels : List RunLabel} (inv : ProcessInv p) (ran : coordinator.exec p labels = some p')
    (closed : p.db.Closed runId) :
    ∀ step ∈ p'.db.steps.rows, step.runId = runId → ∃ old ∈ p.db.steps.rows, Step.Same old step := by
  induction labels generalizing p with
  | nil =>
    cases ran
    exact fun step member _ => ⟨step, member, rfl, rfl, rfl, rfl, rfl, rfl⟩
  | cons label rest ih =>
    intro step member owned
    obtain ⟨next, moved, ran⟩ := System.exec_cons.mp ran
    obtain ⟨mark, move, _⟩ := step_move inv moved
    obtain ⟨middle, stored, kept⟩ := ih (inv.step moved) ran (move.closed_stays closed) step member owned
    rcases steps_from inv moved middle stored with ⟨old, stored', kept'⟩ | ⟨run, reserves, untaken⟩
    · exact ⟨old, stored', kept'.trans kept⟩
    · -- a step is reserved by a running run
      have named : runId = run.id := owned.symm.trans (kept.runId.trans reserves.named)
      subst named
      rcases closed with ⟨other, found, inactive⟩ | ⟨takeover, taken, owner⟩
      · rw [reserves.found] at found
        cases found
        rw [reserves.running] at inactive
        contradiction
      · exact absurd owner (untaken takeover taken)

theorem DbMove.new_run (move : DbMove config db after mark)
    {run : AgentRun} (fresh : db.runs.get runId = none) (found : after.runs.get runId = some run) :
    run.state = .prepared := by
  have put {old new : AgentRun} (known : db.runs.get old.id = some old)
      (found : (db.runs.put new).get runId = some run)
      (named : new.id = old.id) : run.state = .prepared := by
    rw [Table.get_put] at found
    split at found
    case isTrue same =>
        rw [show runId = old.id from Eq.trans same named, known] at fresh
        contradiction
    · rw [fresh] at found
      contradiction
  have same (found : db.runs.get runId = some run) : run.state = .prepared := by
    rw [fresh] at found
    contradiction
  cases move with
  | prepared new unknown state =>
    rw [Table.get_put] at found
    split at found
    · cases found
      exact state
    · exact same found
  | reserved old attempt known => exact put known found rfl
  | running old attempts known => exact put known found rfl
  | stepped old step reserves => exact put reserves.found found rfl
  | fenced old reason known => exact put known found rfl
  | stopped old attempts result known => exact put known found rfl
  | recovered =>
    change (db.runs.map AgentRun.recoverFence AgentRun.recoverFence_id).get runId = some run at found
    rw [Table.get_map, fresh] at found
    contradiction
  | _ => exact same found

/-- The life of a run: its states and its fence move forward, its result stands with its
end, its steps are counted and within their limit, every submit uses an approval of its
own, and nothing is added to a run that was fenced or taken over. -/
theorem run_lifecycle (reached : coordinator.Reachable p) :
    RunInv p.db ∧
    (∀ label p', coordinator.step p label = some p' →
      Table.Grows AgentRun.Later p.db.runs p'.db.runs ∧
      (∀ runId run, p'.db.runs.get runId = some run → p.db.runs.get runId = none → run.state = .prepared) ∧
      ∀ step ∈ p'.db.steps.rows, (∃ old ∈ p.db.steps.rows, Step.Same old step) ∨
        ∃ run, Reserves p.config p.db run step ∧ ∀ takeover ∈ p.db.takeovers.rows, takeover.runId ≠ run.id) ∧
    ∀ labels p', coordinator.exec p labels = some p' → ∀ runId, p.db.Closed runId →
      ∀ step ∈ p'.db.steps.rows, step.runId = runId → ∃ old ∈ p.db.steps.rows, Step.Same old step := by
  have inv := ProcessInv.reachable reached
  refine ⟨inv.runs, fun label p' moved => ?_, fun labels p' ran runId closed => closed_run inv ran closed⟩
  obtain ⟨mark, move, _⟩ := step_move inv moved
  exact ⟨move.runs_grow, fun runId run found fresh => move.new_run fresh found, steps_from inv moved⟩

/-- The rules of a guide whose only choice is the login. -/
def loginRules : Rules where
  start := [.submitBoundFixture]
  finish := []
  modelActions := []
  forbid := []
  approvalRequired := [.submitBoundFixture]
  stopWhen := [.verifiedAccount]
  maxSteps := 4
  maxModelCalls := 0
  model := false
  accepted := by decide

/-- One profile that may log in with its binding. -/
def demoConfig : Config where
  project := fun id =>
    if id = "project" then some ⟨some "https://demo.fractionate.ai", 1, false, 1,
      some ⟨none, none, none, none, none⟩⟩ else none
  profile := fun id =>
    if id = "profile" then
      some ⟨"project", 1, some "guide", some "hash", some 1, ["https://demo.fractionate.ai"],
        [.type, .read], false, false⟩
    else none
  guides := fun id => if id = "project" then [⟨"guide", "hash", false, some loginRules⟩] else []
  binding := fun id =>
    if id = "binding" then some ⟨"project", "profile", "https://demo.fractionate.ai", 1, true⟩ else none
  runAccess := fun actorId _ => actorId = "owner"

/-- What the owner approves. -/
def loginFields : ApprovalFields :=
  ⟨"run", some "attempt", 1, .submitBoundFixture, some "binding", some 1, some "hash",
    ⟨"https://demo.fractionate.ai", "hash", loginRules, false⟩, some "https://demo.fractionate.ai"⟩

/-- A run is started and launched, and its login approved and reserved. -/
def loginReserved : List RunLabel :=
  [.start "owner" "project" "profile" (some "binding") "run" 0, .execute "run" "attempt" "workspace" 0,
    .launched "run" (.ok ("vm", "boot")) 0, .continue "approval" 0, .approve "owner" true "approval" loginFields,
    .poll "run" false 0]

/-- The owner stops the run. -/
def stopped : List RunLabel :=
  [.stop "owner" "run", .continue "" 0, .continue "" 0,
    .stopAnswered "run" (some (⟨"run", some "attempt", 1, true, true, "attestation", none⟩, true))]

theorem run_lifecycle_stopped :
    ∃ p, coordinator.exec ⟨demoConfig, .empty, ∅, ∅, none, false, []⟩ (loginReserved ++ stopped) = some p ∧
      p.db.runs.rows.map (fun run => (run.state, run.actionCount)) = [(.stopped .cancelled, 1)] ∧ RunInv p.db := by
  refine ⟨_, rfl, by rfl, ?_⟩
  have reached : coordinator.Reachable _ := ⟨_, loginReserved ++ stopped, ⟨demoConfig, rfl⟩, rfl⟩
  exact (run_lifecycle reached).1

end ProxyPilot.Coordinator
