import ProxyPilot.Coordinator.Machine

namespace ProxyPilot.Coordinator

open Data Transition

/-! # What one transaction does

Every step of the coordinator is one of these moves of its database.
-/

/-- `stepped`: the agent's step, reserved under a live attempt nobody has taken over. -/
structure Reserves (config : Config) (db : Db) (run : AgentRun) (step : Step) : Prop where
  found : db.runs.get run.id = some run
  running : run.state = .running
  named : step.runId = run.id
  attempt : ∃ attempt, db.attempts.get step.attemptId = some attempt ∧ attempt.runId = run.id ∧
    attempt.state = .running ∧
    attempt.fence = run.fence
  fence : step.fence = run.fence
  free : db.takenOver run.id = false
  room : ∀ max, run.maxActions = some max → run.actionCount < max
  fresh : db.steps.get (Keyed.key step) = none
  reserved : step.state = .reserved
  asked : step.action = .submitBoundFixture → step.approvalId ≠ none
  approved : ∀ id, step.approvalId = some id → ∃ approval, db.approvals.get id = some approval ∧
    approval.state = .approved ∧
    approval.action = step.action ∧ approval.runId = step.runId ∧ approval.attemptId = step.attemptId ∧
    approval.fence = step.fence ∧ approval.digest = approvalFields config db run step.action

/-- The approvals after a step that consumes one. -/
def consumed (approvals : Table Approval) (approvalId : Option String) : Table Approval :=
  match approvalId.bind approvals.get with
  | some approval => approvals.put { approval with state := .consumed }
  | none => approvals

/-- What the invariants of later modules must know of a move. -/
inductive Mark where
  | quiet
  | closes (runId : String)
  | finishes (runId : String)
  | decides (runId : String) (decision : Verdict)

def Mark.closed : Mark → List String
  | .closes runId => [runId]
  | _ => []

def Attempt.SameRun (before after : Attempt) : Prop := after.runId = before.runId

theorem Attempt.SameRun.refl (attempt : Attempt) : SameRun attempt attempt := rfl

inductive DbMove (config : Config) (db : Db) : Db → Mark → Prop where
  | calls (calls : Table ModelCall) : DbMove config db { db with calls } .quiet
  | attempts (attempts : Table Attempt) (kept : Table.Grows Attempt.SameRun db.attempts attempts) :
      DbMove config db { db with attempts } .quiet
  | prepared (run : AgentRun) (fresh : db.runs.get run.id = none) (state : run.state = .prepared)
      (uncounted : run.actionCount = 0) (gate : profileGate db run.profileId = none)
      (alone : ∀ other ∈ db.runs.rows, other.profileId = run.profileId → ∃ stop, other.state = .stopped stop) :
      DbMove config db { db with runs := db.runs.put run } .quiet
  | reserved (run : AgentRun) (attempt : Attempt) (found : db.runs.get run.id = some run)
      (state : run.state = .prepared)
      (fresh : db.attempts.get attempt.id = none) :
      DbMove config db
        { db with runs := db.runs.put { run with state := .starting, fence := run.fence + 1 }
                  attempts := db.attempts.put attempt } .quiet
  | running (run : AgentRun) (attempts : Table Attempt) (found : db.runs.get run.id = some run)
      (state : run.state = .starting) (kept : Table.Grows Attempt.SameRun db.attempts attempts) :
      DbMove config db { db with runs := db.runs.put { run with state := .running }, attempts } .quiet
  | stepped (run : AgentRun) (step : Step) (reserves : Reserves config db run step) :
      DbMove config db
        { db with runs := db.runs.put { run with actionCount := run.actionCount + 1 }
                  approvals := consumed db.approvals step.approvalId
                  steps := db.steps.put step } .quiet
  | fenced (run : AgentRun) (reason : StopState) (found : db.runs.get run.id = some run)
      (active : run.state.active = true) :
      DbMove config db
        (endTakeovers (closeApprovals
          { db with runs := db.runs.put { run with state := .cancelling, fence := run.fence + 1, fencedFor := some reason } }
          [run.id] "run_stopping") [run.id] "run_stopping") .quiet
  | stopped (run : AgentRun) (attempts : Table Attempt) (result : RunResult) (found : db.runs.get run.id = some run)
      (state : run.state = .cancelling) (fresh : db.results.get run.id = none) (named : result.runId = run.id)
      (kept : Table.Grows Attempt.SameRun db.attempts attempts) :
      DbMove config db
        { db with runs := db.runs.put { run with state := .stopped result.finalState }
                  results := db.results.put result, attempts } (.finishes run.id)
  | recovered : DbMove config db (recoverWorkers db Process.interruptRuns).1 .quiet
  | approvals (approvals : Table Approval)
      (keeps : ∀ id approval, db.approvals.get id = some approval → approval.state = .consumed →
        approvals.get id = some approval) : DbMove config db { db with approvals } .quiet
  | begun (takeover : Takeover) (run : AgentRun) (found : db.runs.get takeover.runId = some run)
      (fresh : db.takeovers.get takeover.id = none) (standing : takeover.state ≠ .ended) :
      DbMove config db (closeApprovals { db with takeovers := db.takeovers.put takeover }
        [takeover.runId] "taken_over") .quiet
  | held (takeover : Takeover) (found : db.takeovers.get takeover.id = some takeover) :
      DbMove config db { db with takeovers := db.takeovers.put { takeover with state := .holding } } .quiet
  | closed (takeover : Takeover) (found : db.takeovers.get takeover.id = some takeover) (reason : String) :
      DbMove config db
        { db with takeovers := db.takeovers.put { takeover with state := .ended, endReason := some reason } }
        (.closes takeover.runId)
  | recorded (step : Step) (state : StepState) (claims : Claims) (errorCode : Option String)
      (found : db.steps.get (Keyed.key step) = some step) (reserved : step.state = .reserved) (outcome : state ≠ .reserved) :
      DbMove config db { db with steps := db.steps.put { step with state, claims, errorCode } } .quiet
  | reconciled (row : Reconciliation) (item : DecidedItem) (about : item ∈ runSubjects db row.runId)
      (subject : item.item.subject = row.subject) (kind : (item.item.kind = .run) ↔ row.decision = .acknowledged)
      (fresh : ∀ old ∈ db.reconciliations, old.id ≠ row.id) :
      DbMove config db { db with reconciliations := db.reconciliations ++ [row] } (.decides row.runId row.decision)

theorem DbMove.same (config : Config) (db : Db) : DbMove config db db .quiet := .calls db.calls

variable {config : Config} {db after : Db} {now : Int}

theorem insert_ok {α : Type} {κ : Type} [Keyed α κ] [DecidableEq κ] {table next : Table α} {row : α}
    (inserted : insert table row = .ok next) : table.get (Keyed.key row) = none ∧ next = table.put row := by
  obtain ⟨fresh, inserted⟩ := require_bind_ok.mp inserted
  exact ⟨Option.isNone_iff_eq_none.mp fresh, (Except.ok.inj inserted).symm⟩

theorem get_named {runs : Table AgentRun} {id : String} {run : AgentRun} (found : runs.get id = some run) :
    run.id = id ∧ runs.get run.id = some run := by
  have named : run.id = id := Table.get_key found
  exact ⟨named, named ▸ found⟩

theorem stopped_of_inactive {state : RunState} (inactive : state.active = false) (going : state ≠ .cancelling) :
    ∃ stop, state = .stopped stop := by
  cases state with
  | stopped stop => exact ⟨stop, rfl⟩
  | cancelling => exact absurd rfl going
  | prepared => contradiction
  | starting => contradiction
  | running => contradiction

/-- An attempt is replaced by one of the same run. -/
theorem attempt_kept {attempt new : Attempt} (found : db.attempts.get attempt.id = some attempt)
    (named : new.id = attempt.id)
    (owned : new.runId = attempt.runId) : Table.Grows Attempt.SameRun db.attempts (db.attempts.put new) := by
  refine Table.Grows.put Attempt.SameRun.refl fun old stored => ?_
  have same : old = attempt :=
    Option.some.inj (stored.symm.trans (show db.attempts.get new.id = some attempt from named ▸ found))
  exact same ▸ owned

theorem attemptOf_some {runId : String} {attempt : Attempt} (last : db.attemptOf runId = some attempt) :
    db.attempts.get attempt.id = some attempt ∧ attempt.runId = runId := by
  have owned := List.find?_some last
  exact ⟨Table.get_of_mem (List.mem_reverse.mp (List.mem_of_find?_eq_some last)), of_decide_eq_true owned⟩

theorem current_ok {runId attemptId : String} {fence : Nat} {live : AgentRun × Attempt × Profile}
    (passed : current config db now runId attemptId fence = .ok live) :
    db.runs.get runId = some live.1 ∧ db.attempts.get attemptId = some live.2.1 ∧ live.2.1.runId = runId ∧
      live.1.fence = fence ∧ live.2.1.fence = fence ∧ live.1.state = .running ∧ live.2.1.state = .running := by
  obtain ⟨run, found, passed⟩ := bind_ok.mp passed
  obtain ⟨attempt, stored, passed⟩ := bind_ok.mp passed
  obtain ⟨alive, passed⟩ := require_bind_ok.mp passed
  obtain ⟨pinned, _, passed⟩ := bind_ok.mp passed
  cases passed
  obtain ⟨stored, owned⟩ := Option.filter_eq_some_iff.mp (demand_ok.mp stored)
  simp only [Bool.and_eq_true, decide_eq_true_eq] at alive owned
  exact ⟨demand_ok.mp found, stored, owned, alive.1.1.1.1.1, alive.1.1.1.1.2, alive.1.1.1.2, alive.1.1.2⟩

theorem prepare_ok {input : RunInput} {uuid : String} (done : prepare config db now input uuid = .ok after) :
    ∃ run, db.runs.get run.id = none ∧ run.profileId = input.profileId ∧ run.state = .prepared ∧
      run.actionCount = 0 ∧
      (∀ other ∈ db.runs.rows, other.profileId = input.profileId → ∃ stop, other.state = .stopped stop) ∧
      after = { db with runs := db.runs.put run } := by
  obtain ⟨_, done⟩ := require_bind_ok.mp done
  obtain ⟨profile, _, done⟩ := bind_ok.mp done
  obtain ⟨project, _, done⟩ := bind_ok.mp done
  obtain ⟨guide, _, done⟩ := bind_ok.mp done
  obtain ⟨_, done⟩ := require_bind_ok.mp done
  obtain ⟨actions, _, done⟩ := bind_ok.mp done
  obtain ⟨bindingRevision, _, done⟩ := bind_ok.mp done
  obtain ⟨limits, _, done⟩ := bind_ok.mp done
  obtain ⟨_, _, done⟩ := bind_ok.mp done
  obtain ⟨_, done⟩ := require_bind_ok.mp done
  obtain ⟨alone, done⟩ := require_bind_ok.mp done
  obtain ⟨runs, inserted, done⟩ := bind_ok.mp done
  obtain ⟨fresh, rfl⟩ := insert_ok inserted
  refine ⟨_, fresh, rfl, rfl, rfl, fun other member same => ?_, (Except.ok.inj done).symm⟩
  have still : other.state.active = false ∧ other.state ≠ .cancelling := by
    simpa [same] using List.all_eq_true.mp alone other member
  exact stopped_of_inactive still.1 still.2

theorem reserveAttempt_ok {runId attemptId workspaceId : String} {done : Db × Attempt}
    (reserved : reserveAttempt config db now runId attemptId workspaceId = .ok done) : DbMove config db done.1 .quiet := by
  obtain ⟨run, found, reserved⟩ := bind_ok.mp reserved
  obtain ⟨ready, reserved⟩ := require_bind_ok.mp reserved
  obtain ⟨_, _, reserved⟩ := bind_ok.mp reserved
  obtain ⟨_, reserved⟩ := require_bind_ok.mp reserved
  obtain ⟨attempts, inserted, reserved⟩ := bind_ok.mp reserved
  obtain ⟨fresh, rfl⟩ := insert_ok inserted
  cases reserved
  simp only [Bool.and_eq_true, decide_eq_true_eq] at ready
  exact .reserved run _ (get_named (demand_ok.mp found)).2 ready.1 fresh

theorem launching_ok {runId attemptId : String} {fence : Nat} {live : AgentRun × Attempt × Project}
    (passed : launching config db now runId attemptId fence = .ok live) :
    db.runs.get runId = some live.1 ∧ live.1.state = .starting ∧ db.attempts.get live.2.1.id = some live.2.1 := by
  obtain ⟨run, found, passed⟩ := bind_ok.mp passed
  obtain ⟨attempt, stored, passed⟩ := bind_ok.mp passed
  obtain ⟨alive, passed⟩ := require_bind_ok.mp passed
  obtain ⟨pinned, _, passed⟩ := bind_ok.mp passed
  cases passed
  simp only [Bool.and_eq_true, decide_eq_true_eq] at alive
  exact ⟨demand_ok.mp found, alive.1.1.1.1.1,
    Table.get_of_mem (Table.get_mem (Option.filter_eq_some_iff.mp (demand_ok.mp stored)).1)⟩

theorem markRunning_ok {runId attemptId vmUuid bootId : String} {fence : Nat}
    (marked : markRunning config db now runId attemptId fence vmUuid bootId = .ok after) : DbMove config db after .quiet := by
  obtain ⟨live, passed, marked⟩ := bind_ok.mp marked
  obtain ⟨found, starting, stored⟩ := launching_ok passed
  cases marked
  exact .running live.1 _ (get_named found).2 starting (attempt_kept stored rfl rfl)

theorem renewLease_ok {runId attemptId : String} {fence : Nat}
    (renewed : renewLease config db now runId attemptId fence = .ok after) : DbMove config db after .quiet := by
  obtain ⟨live, passed, renewed⟩ := bind_ok.mp renewed
  obtain ⟨_, stored, _⟩ := current_ok passed
  cases renewed
  exact .attempts _ (attempt_kept (Table.get_of_mem (Table.get_mem stored)) rfl rfl)

theorem fence_ok {runId : String} {reason : StopState}
    (fenced : fence db runId reason (fun db =>
      endTakeovers (closeApprovals db [runId] "run_stopping") [runId] "run_stopping") = .ok after) :
    DbMove config db after .quiet ∧ ∃ run, after.runs.get runId = some run ∧ run.state.active = false := by
  obtain ⟨run, found, fenced⟩ := bind_ok.mp fenced
  obtain ⟨found, active⟩ := Option.filter_eq_some_iff.mp (demand_ok.mp found)
  obtain ⟨named, found⟩ := get_named found
  cases fenced
  subst named
  exact ⟨.fenced run reason found active,
    { run with state := .cancelling, fence := run.fence + 1, fencedFor := some reason },
    Table.get_put_self db.runs _, rfl⟩

theorem writeResult_ok {run : AgentRun} {state : StopState} {resultClass : ResultClass} {receipt : Option Receipt}
    {needsHuman : Bool} (written : writeResult db run state resultClass receipt needsHuman = .ok after) :
    ∃ result, result.runId = run.id ∧ result.finalState = state ∧ db.results.get run.id = none ∧
      after = { db with results := db.results.put result } := by
  obtain ⟨results, inserted, written⟩ := bind_ok.mp written
  obtain ⟨fresh, rfl⟩ := insert_ok inserted
  exact ⟨_, rfl, rfl, fresh, (Except.ok.inj written).symm⟩

theorem finishStop_ok {runId : String} {reason : StopState} {resultClass : ResultClass} {receipt : Receipt}
    {verified needsHuman : Bool} (stopped : finishStop db runId reason receipt verified (fun db run =>
      writeResult db run reason resultClass (some receipt) needsHuman) = .ok after) :
    receipt.fits db runId verified = true ∧ DbMove config db after (.finishes runId) := by
  obtain ⟨run, found, stopped⟩ := bind_ok.mp stopped
  obtain ⟨fits, stopped⟩ := require_bind_ok.mp stopped
  obtain ⟨written, wrote, stopped⟩ := bind_ok.mp stopped
  obtain ⟨found, state⟩ := Option.filter_eq_some_iff.mp (demand_ok.mp found)
  obtain ⟨named, found⟩ := get_named found
  subst named
  obtain ⟨result, named, rfl, fresh, rfl⟩ := writeResult_ok wrote
  cases stopped
  refine ⟨fits, .stopped run _ result found (of_decide_eq_true state) fresh named ?_⟩
  cases last : db.attemptOf run.id with
  | none => exact Table.Grows.refl Attempt.SameRun.refl db.attempts
  | some attempt =>
    simp only
    split
    · exact attempt_kept (attemptOf_some last).1 rfl rfl
    · exact Table.Grows.refl Attempt.SameRun.refl db.attempts

theorem abandonUnlaunched_ok {runId : String} {reason : StopState} {resultClass : ResultClass} {needsHuman : Bool}
    (stopped : abandonUnlaunched db runId reason (fun db run => writeResult db run reason resultClass none needsHuman) =
      .ok after) :
    db.attemptOf runId = none ∧ DbMove config db after (.finishes runId) ∧ after.steps = db.steps := by
  obtain ⟨run, found, stopped⟩ := bind_ok.mp stopped
  obtain ⟨unlaunched, stopped⟩ := require_bind_ok.mp stopped
  obtain ⟨written, wrote, stopped⟩ := bind_ok.mp stopped
  obtain ⟨found, state⟩ := Option.filter_eq_some_iff.mp (demand_ok.mp found)
  obtain ⟨named, found⟩ := get_named found
  subst named
  obtain ⟨result, named, rfl, fresh, rfl⟩ := writeResult_ok wrote
  cases stopped
  have kept : Table.Grows Attempt.SameRun db.attempts db.attempts :=
    Table.Grows.refl Attempt.SameRun.refl db.attempts
  exact ⟨Option.isNone_iff_eq_none.mp unlaunched,
    .stopped run db.attempts result found (of_decide_eq_true state) fresh named kept, rfl⟩

theorem keeps_put {approvals : Table Approval} {old new : Approval} (found : approvals.get new.id = some old)
    (spent : old.state ≠ .consumed) :
    ∀ id approval, approvals.get id = some approval → approval.state = .consumed →
      (approvals.put new).get id = some approval := by
  intro id approval stored consumed
  rw [Table.get_put_other, stored]
  intro same
  rw [show id = new.id from same, found] at stored
  exact spent (Option.some.inj stored ▸ consumed)

theorem keeps_new {approvals : Table Approval} {new : Approval} (fresh : approvals.get new.id = none) :
    ∀ id approval, approvals.get id = some approval → approval.state = .consumed →
      (approvals.put new).get id = some approval := by
  intro id approval stored _
  rw [Table.get_put_other, stored]
  intro same
  rw [show id = new.id from same, fresh] at stored
  contradiction

theorem keeps_close (approvals : Table Approval) (runs : List String) (reason : String) :
    ∀ id approval, approvals.get id = some approval → approval.state = .consumed →
      (approvals.map (Approval.closeFor runs reason) (Approval.closeFor_id runs reason)).get id = some approval := by
  intro id approval stored consumed
  rw [Table.get_map, stored]
  simp [Approval.closeFor, Approval.open, consumed]

theorem requestApproval_ok {ref : Ref} {action : BrowserAction} {uuid : String}
    (requested : requestApproval config db ref action uuid = .ok after) : DbMove config db after .quiet := by
  obtain ⟨run, _, requested⟩ := bind_ok.mp requested
  obtain ⟨_, requested⟩ := require_bind_ok.mp requested
  obtain ⟨_, requested⟩ := require_bind_ok.mp requested
  obtain ⟨_, requested⟩ := require_bind_ok.mp requested
  obtain ⟨approvals, inserted, requested⟩ := bind_ok.mp requested
  obtain ⟨fresh, rfl⟩ := insert_ok inserted
  cases requested
  exact .approvals _ (keeps_new fresh)

theorem approve_ok {actorId approvalId : String} {elevated : Bool} {digest : ApprovalFields}
    (approved : approve config db actorId elevated approvalId digest = .ok after) : DbMove config db after .quiet := by
  obtain ⟨approval, found, approved⟩ := bind_ok.mp approved
  obtain ⟨run, _, approved⟩ := bind_ok.mp approved
  obtain ⟨_, approved⟩ := require_bind_ok.mp approved
  obtain ⟨pending, approved⟩ := require_bind_ok.mp approved
  obtain ⟨_, approved⟩ := require_bind_ok.mp approved
  have stored : db.approvals.get approval.id = some approval :=
    Table.get_of_mem (Table.get_mem (demand_ok.mp found))
  have spent : approval.state ≠ .consumed := by
    rw [of_decide_eq_true pending]
    decide
  cases stale : approvalStale config db run approval with
  | some reason =>
    rw [stale] at approved
    cases approved
    exact .approvals _ (keeps_put stored spent)
  | none =>
    rw [stale] at approved
    cases approved
    exact .approvals _ (keeps_put stored spent)

/-- What a step takes from its approval. -/
theorem consumeIfAsked_ok {approvalId : Option String} {ref : Ref} {action : BrowserAction}
    (taken : consumeIfAsked config db approvalId ref action = .ok after) :
    after = { db with approvals := consumed db.approvals approvalId } ∧
    ∀ id, approvalId = some id → ∃ approval run, db.approvals.get id = some approval ∧
      db.runs.get ref.runId = some run ∧
      approval.state = .approved ∧ approval.action = action ∧ approval.runId = ref.runId ∧
      approval.attemptId = ref.attemptId ∧ approval.fence = ref.fence ∧
        approval.digest = approvalFields config db run action := by
  cases approvalId with
  | none =>
    cases taken
    exact ⟨rfl, fun id same => by contradiction⟩
  | some id =>
    obtain ⟨approval, found, taken⟩ := bind_ok.mp taken
    obtain ⟨matching, taken⟩ := require_bind_ok.mp taken
    obtain ⟨run, stored, taken⟩ := bind_ok.mp taken
    obtain ⟨digest, taken⟩ := require_bind_ok.mp taken
    cases taken
    simp only [Bool.and_eq_true, decide_eq_true_eq] at matching digest
    have found := demand_ok.mp found
    refine ⟨?_, fun other same => ?_⟩
    · simp [consumed, found]
    · cases same
      exact ⟨approval, run, found, demand_ok.mp stored, matching.1.1.1.1, matching.1.1.1.2,
        matching.1.1.2, matching.1.2,
        matching.2, digest.symm⟩

theorem insertStep_ok {ref : Ref} {action : BrowserAction} {decidedBy : DecidedBy}
    {approvalId : Option String} {ordinal : Nat}
    (inserted : insertStep config ref action decidedBy approvalId db ordinal = .ok after) :
    ∃ step, step.runId = ref.runId ∧ step.ordinal = ordinal ∧ step.attemptId = ref.attemptId ∧
      step.fence = ref.fence ∧
      step.action = action ∧ step.approvalId = approvalId ∧ step.state = .reserved ∧
      db.steps.get (Keyed.key step) = none ∧
      after = { db with approvals := consumed db.approvals approvalId, steps := db.steps.put step } ∧
      ∀ id, approvalId = some id → ∃ approval run, db.approvals.get id = some approval ∧
        db.runs.get ref.runId = some run ∧
        approval.state = .approved ∧ approval.action = action ∧ approval.runId = ref.runId ∧
        approval.attemptId = ref.attemptId ∧ approval.fence = ref.fence ∧
        approval.digest = approvalFields config db run action := by
  obtain ⟨taken, took, inserted⟩ := bind_ok.mp inserted
  obtain ⟨rfl, approved⟩ := consumeIfAsked_ok took
  obtain ⟨steps, put, inserted⟩ := bind_ok.mp inserted
  obtain ⟨fresh, rfl⟩ := insert_ok put
  cases inserted
  exact ⟨_, rfl, rfl, rfl, rfl, rfl, rfl, rfl, fresh, rfl, approved⟩

theorem authorizeAction_ok {ref : Ref} {action : BrowserAction} {decidedBy : DecidedBy}
    {approvalId bindingId : Option String}
    {done : Db × Nat} (free : db.takenOver ref.runId = false) (asked : action = .submitBoundFixture → approvalId ≠ none)
    (authorized : authorizeAction config db now ⟨ref.runId, ref.attemptId, ref.fence, action, bindingId⟩
      (insertStep config ref action decidedBy approvalId) = .ok done) : DbMove config db done.1 .quiet := by
  obtain ⟨live, passed, authorized⟩ := bind_ok.mp authorized
  obtain ⟨_, authorized⟩ := require_bind_ok.mp authorized
  obtain ⟨_, authorized⟩ := require_bind_ok.mp authorized
  obtain ⟨actions, _, authorized⟩ := bind_ok.mp authorized
  obtain ⟨_, authorized⟩ := require_bind_ok.mp authorized
  obtain ⟨room, authorized⟩ := require_bind_ok.mp authorized
  obtain ⟨next, inserted, authorized⟩ := bind_ok.mp authorized
  obtain ⟨found, attempt, owned, fence, attemptFence, running, attemptRunning⟩ := current_ok passed
  obtain ⟨same, found⟩ := get_named found
  have named : live.1.id = ref.runId := same
  cases authorized
  obtain ⟨step, stepRun, stepOrdinal, stepAttempt, stepFence, stepAction, stepApproval, stepState,
      fresh, rfl, approved⟩ :=
    insertStep_ok inserted
  subst stepApproval
  refine .stepped live.1 step
    { found, running, fresh
      named := stepRun.trans named.symm
      attempt :=
        ⟨live.2.1, stepAttempt ▸ attempt, owned.trans named.symm, attemptRunning, attemptFence.trans fence.symm⟩
      fence := stepFence.trans fence.symm
      free := named ▸ free
      room := fun max limited => by simpa [limited] using room
      reserved := stepState
      asked := fun submits => asked (stepAction.symm.trans submits)
      approved := fun id same => ?_ }
  obtain ⟨approval, run, stored, current, state, actionSame, runSame, attemptSame, fenceSame,
      digest⟩ := approved id same
  refine ⟨approval, stored, state, actionSame.trans stepAction.symm, runSame.trans stepRun.symm,
    attemptSame.trans stepAttempt.symm, fenceSame.trans stepFence.symm, ?_⟩
  have counted : run = { live.1 with actionCount := live.1.actionCount + 1 } := by
    rw [← named] at current
    exact Option.some.inj (current.symm.trans (Table.get_put_self db.runs _))
  rw [digest, counted, stepAction]
  rfl

theorem finishStep_ok {runId : String} {ordinal : Nat} {state : StepState} {claims : Claims} {errorCode : Option String}
    (outcome : state ≠ .reserved) (finished : finishStep db runId ordinal state claims errorCode = .ok after) :
    DbMove config db after .quiet := by
  obtain ⟨step, found, finished⟩ := bind_ok.mp finished
  obtain ⟨found, reserved⟩ := Option.filter_eq_some_iff.mp (demand_ok.mp found)
  cases finished
  exact .recorded step state claims errorCode (Table.get_of_mem (Table.get_mem found))
    (of_decide_eq_true reserved) outcome

theorem beginTakeover_ok {actorId runId uuid : String} (begun : Process.beginTakeover config db actorId runId uuid now = .ok after) :
    DbMove config db after .quiet := by
  obtain ⟨run, found, begun⟩ := bind_ok.mp begun
  obtain ⟨_, begun⟩ := require_bind_ok.mp begun
  obtain ⟨_, begun⟩ := require_bind_ok.mp begun
  obtain ⟨attempt, _, begun⟩ := bind_ok.mp begun
  obtain ⟨_, begun⟩ := require_bind_ok.mp begun
  obtain ⟨takeovers, inserted, begun⟩ := bind_ok.mp begun
  obtain ⟨fresh, rfl⟩ := insert_ok inserted
  cases begun
  exact .begun _ run (demand_ok.mp found) fresh (by simp)

theorem holdTakeover_ok {id : String} (held : Process.holdTakeover db id = .ok after) : DbMove config db after .quiet := by
  obtain ⟨takeover, found, held⟩ := bind_ok.mp held
  cases held
  exact .held takeover (Table.get_of_mem (Table.get_mem (Option.filter_eq_some_iff.mp (demand_ok.mp found)).1))

theorem start_ok {actorId projectId profileId uuid : String} {bindingId : Option String}
    (started : Process.start config db actorId projectId profileId bindingId uuid now = .ok after) :
    DbMove config db after .quiet := by
  obtain ⟨_, started⟩ := require_bind_ok.mp started
  obtain ⟨project, _, started⟩ := bind_ok.mp started
  obtain ⟨profile, _, started⟩ := bind_ok.mp started
  obtain ⟨versionId, _, started⟩ := bind_ok.mp started
  obtain ⟨guide, _, started⟩ := bind_ok.mp started
  obtain ⟨rules, _, started⟩ := bind_ok.mp started
  obtain ⟨gate, started⟩ := require_bind_ok.mp started
  obtain ⟨origin, _, started⟩ := bind_ok.mp started
  obtain ⟨run, fresh, profile, state, uncounted, alone, rfl⟩ := prepare_ok started
  exact .prepared run fresh state uncounted (by rw [profile]; simpa using gate) (by rw [profile]; exact alone)

theorem reconcile_ok {actorId runId uuid : String} {verified : Bool} {subject : Subject} {decision : Verdict}
    (decided : Process.reconcile config db actorId runId verified subject decision uuid now = .ok after) :
    DbMove config db after (.decides runId decision) := by
  obtain ⟨run, _, decided⟩ := bind_ok.mp decided
  obtain ⟨_, decided⟩ := require_bind_ok.mp decided
  obtain ⟨item, found, decided⟩ := bind_ok.mp decided
  obtain ⟨kind, decided⟩ := require_bind_ok.mp decided
  obtain ⟨fresh, decided⟩ := require_bind_ok.mp decided
  cases decided
  have found := demand_ok.mp found
  refine .reconciled ⟨uuid, runId, subject, item.item.kind, decision, actorId, now⟩ item
    (List.mem_of_find?_eq_some found) (by simpa using List.find?_some found) (by simpa using kind) ?_
  simpa using fresh

end ProxyPilot.Coordinator
