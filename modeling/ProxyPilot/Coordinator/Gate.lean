import ProxyPilot.Coordinator.Decisions
import ProxyPilot.Coordinator.Reachable

namespace ProxyPilot.Coordinator

open Data Transition

/-! # The start gate over a run

Every write nobody has decided is seen by the gate, as long as no run ends while a
write of its own is still reserved and the gate looks at every run with an open write.
-/

variable {config : Config} {db after : Db}

structure GateInv (db : Db) : Prop where
  decisions : DecisionInv db.reconciliations
  unreserved : ∀ step ∈ db.steps.rows, (db.results.get step.runId).isSome = true →
    writeActions.contains step.action = true → step.state ≠ .reserved
  seen : ∀ run ∈ db.runs.rows, (db.results.get run.id).isSome = true → db.OpenRun run.id →
    db.newerRuns run < gateLimit

theorem GateInv.gate_iff (inv : GateInv db) (profileId : String) :
    (profileGate db profileId).isSome = true ↔ db.OpenWrite profileId := by
  rw [profileGate_iff]
  constructor
  · rintro ⟨run, member, gates⟩
    obtain ⟨step, stored, owned, write, uncertain, undecided⟩ := (gating_iff inv.decisions run.id).mp gates
    obtain ⟨known, profile, finished⟩ := mem_finishedRuns.mp (List.mem_of_mem_take member)
    refine ⟨run, known, profile, finished, step, stored, owned, ?_, undecided⟩
    unfold Step.unconfirmed
    rcases uncertain with state | timedOut
    · rw [write, state]
      rfl
    · rw [timedOut, Bool.or_true]
  · rintro ⟨run, known, profile, finished, step, stored, owned, unconfirmed, undecided⟩
    have write := Step.unconfirmed_write unconfirmed
    have uncertain : step.state = .uncertain ∨ step.timedOut = true := by
      have settled := inv.unreserved step stored (owned ▸ finished) write
      unfold Step.unconfirmed at unconfirmed
      cases state : step.state with
      | uncertain => exact .inl rfl
      | reserved => exact absurd state settled
      | done => exact .inr (by simpa [state] using unconfirmed)
      | failed => exact .inr (by simpa [state] using unconfirmed)
    refine ⟨run, mem_take_finishedRuns (mem_finishedRuns.mpr ⟨known, profile, finished⟩) ?_, ?_⟩
    · exact inv.seen run known finished ⟨step, stored, owned, unconfirmed, undecided⟩
    · exact (gating_iff inv.decisions run.id).mpr ⟨step, stored, owned, write, uncertain, undecided⟩

structure AgentRun.SamePlace (new old : AgentRun) : Prop where
  id : new.id = old.id
  profileId : new.profileId = old.profileId
  startedAt : new.startedAt = old.startedAt

/-- The runs keep their places. -/
structure Placed (before after : Table AgentRun) : Prop where
  rows : ∀ new ∈ after.rows, ∃ old ∈ before.rows, new.SamePlace old
  count : ∀ counts : AgentRun → Bool, (∀ {new old : AgentRun}, new.SamePlace old → counts new = counts old) →
    after.rows.countP counts = before.rows.countP counts

namespace Placed

variable {runs : Table AgentRun}

theorem refl (runs : Table AgentRun) : Placed runs runs where
  rows := fun new member => ⟨new, member, rfl, rfl, rfl⟩
  count := fun _ _ => rfl

theorem put {run new : AgentRun} (found : runs.get run.id = some run) (same : new.SamePlace run) :
    Placed runs (runs.put new) where
  rows := fun other member => by
    rcases Table.mem_put.mp member with rfl | ⟨stored, _⟩
    · exact ⟨run, Table.get_mem found, same⟩
    · exact ⟨other, stored, rfl, rfl, rfl⟩
  count := fun counts places =>
    Table.countP_put (show runs.get new.id = some run from same.id ▸ found) (places same)

theorem recoverFence (runs : Table AgentRun) :
    Placed runs (runs.map AgentRun.recoverFence AgentRun.recoverFence_id) := by
  have same (run : AgentRun) : run.recoverFence.SamePlace run :=
    ⟨run.recoverFence_id, (AgentRun.Later.recoverFence run).profileId, (AgentRun.Later.recoverFence run).startedAt⟩
  refine ⟨fun new member => ?_, fun counts places => ?_⟩
  · obtain ⟨old, stored, rfl⟩ := List.mem_map.mp member
    exact ⟨old, stored, same old⟩
  · show (runs.rows.map AgentRun.recoverFence).countP counts = _
    rw [List.countP_map]
    exact congrArg (List.countP · runs.rows) (funext fun run => places (same run))

theorem newerRuns (placed : Placed db.runs after.runs) {new old : AgentRun} (same : new.SamePlace old) :
    after.newerRuns new = db.newerRuns old := by
  unfold Db.newerRuns
  have right : (fun other : AgentRun => other.profileId = new.profileId && other.id ≠ new.id && other.newer new) =
      fun other => other.profileId = old.profileId && other.id ≠ old.id && other.newer old := by
    funext other
    simp [AgentRun.newer, same.id, same.profileId, same.startedAt]
  rw [right]
  exact placed.count _ fun {left left'} places => by
    simp [AgentRun.newer, places.id, places.profileId, places.startedAt]

end Placed

theorem Confirmed_congr (same : after.reconciliations = db.reconciliations) {step : Step} :
    after.Confirmed step ↔ db.Confirmed step := by
  unfold Db.Confirmed
  rw [same]

namespace GateInv

/-- Steps of runs that go on, and reads, do not matter to the gate. -/
theorem keep (inv : GateInv db) (reconciliations : after.reconciliations = db.reconciliations)
    (results : after.results = db.results) (placed : Placed db.runs after.runs)
    (steps : ∀ step ∈ after.steps.rows, (db.results.get step.runId).isSome = true →
      step ∈ db.steps.rows ∨ writeActions.contains step.action = false) : GateInv after where
  decisions := ⟨reconciliations ▸ inv.decisions.ids, reconciliations ▸ inv.decisions.steps⟩
  unreserved := fun step member finished write => by
    rw [results] at finished
    rcases steps step member finished with stored | read
    · exact inv.unreserved step stored finished write
    · rw [read] at write
      contradiction
  seen := fun new member finished opened => by
    obtain ⟨old, stored, same⟩ := placed.rows new member
    rw [results, same.id] at finished
    obtain ⟨step, kept, owned, unconfirmed, undecided⟩ := opened
    rw [placed.newerRuns same]
    refine inv.seen old stored finished ⟨step, ?_, owned.trans same.id, unconfirmed, ?_⟩
    · refine (steps step kept ?_).resolve_right ?_
      · rw [owned, same.id]
        exact finished
      · rw [Step.unconfirmed_write unconfirmed]
        exact Bool.noConfusion
    · exact fun confirmed => undecided ((Confirmed_congr reconciliations).mpr confirmed)

variable {run : AgentRun} {row : Reconciliation}

theorem prepared (inv : GateInv db) (runs : RunInv db) (fresh : db.runs.get run.id = none)
    (gate : profileGate db run.profileId = none) : GateInv { db with runs := db.runs.put run } where
  decisions := inv.decisions
  unreserved := inv.unreserved
  seen := fun other member finished opened => by
    rcases Table.mem_put.mp member with rfl | ⟨stored, _⟩
    · obtain ⟨result, found⟩ := Option.isSome_iff_exists.mp finished
      obtain ⟨owner, known⟩ := runs.finished result (Table.get_mem found)
      rw [show result.runId = other.id from Table.get_key found, fresh] at known
      contradiction
    · -- the gate was open: no other run of this profile has an open write
      have different : run.profileId ≠ other.profileId := by
        intro same
        have stands := (inv.gate_iff run.profileId).mpr ⟨other, stored, same.symm, finished, opened⟩
        rw [gate] at stands
        contradiction
      have count : Db.newerRuns { db with runs := db.runs.put run } other = db.newerRuns other := by
        unfold Db.newerRuns
        rw [Table.rows_put_new fresh, List.countP_append]
        simp [different]
      exact count ▸ inv.seen other stored finished opened

/-- A run may end when none of its writes is reserved, and the gate looks at it. -/
structure MayEnd (db : Db) (runId : String) : Prop where
  settled : ∀ step ∈ db.steps.rows, step.runId = runId → writeActions.contains step.action = true →
    step.state ≠ .reserved
  seen : db.OpenRun runId → ∀ run ∈ db.runs.rows, run.id = runId → db.newerRuns run < gateLimit

theorem stopped (inv : GateInv db) {attempts : Table Attempt} {result : RunResult}
    (found : db.runs.get run.id = some run) (named : result.runId = run.id) (mayEnd : MayEnd db run.id) :
    GateInv { db with runs := db.runs.put { run with state := .stopped result.finalState }
                      results := db.results.put result, attempts } := by
  have ended (id : String) (finished : ((db.results.put result).get id).isSome = true) :
      id = run.id ∨ (db.results.get id).isSome = true := by
    rw [Table.get_put] at finished
    split at finished
    case isTrue same => exact .inl (Eq.trans same named)
    · exact .inr finished
  have placed : Placed db.runs (db.runs.put { run with state := .stopped result.finalState }) :=
    .put found ⟨rfl, rfl, rfl⟩
  exact
    { decisions := inv.decisions
      unreserved := fun step member finished write => by
        rcases ended step.runId finished with same | before
        · exact mayEnd.settled step member same write
        · exact inv.unreserved step member before write
      seen := fun new member finished opened => by
        obtain ⟨old, stored, same⟩ := placed.rows new member
        have count :
            Db.newerRuns { db with runs := db.runs.put { run with state := .stopped result.finalState } } new =
            db.newerRuns old := Placed.newerRuns placed same
        refine count.trans_lt ?_
        rcases ended new.id finished with ends | before
        · exact mayEnd.seen (ends ▸ opened) old stored (same.id.symm.trans ends)
        · rw [same.id] at before
          exact inv.seen old stored before (same.id ▸ opened) }

/-- A decision on what happened settles the step for good. -/
theorem confirmed_stays {step : Step} (confirmed : db.Confirmed step)
    (known : row.runId = step.runId → row.subject = .step step.ordinal →
      row.decision = .happened ∨ row.decision = .didNotHappen) :
    Db.Confirmed { db with reconciliations := db.reconciliations ++ [row] } step := by
  obtain ⟨old, last, verdict⟩ := confirmed
  have stored : old ∈ db.reconciliations ++ [row] := List.mem_append_left _ last.stored
  by_cases about : row.runId = step.runId ∧ row.subject = .step step.ordinal
  · rcases Reconciliation.before_total row old with before | after
    · refine ⟨old, ⟨stored, last.owned, last.about, fun other member owned named => ?_⟩, verdict⟩
      rcases List.mem_append.mp member with earlier | new
      · exact last.last other earlier owned named
      · exact List.mem_singleton.mp new ▸ before
    · refine ⟨row, ⟨List.mem_append_right _ (List.mem_singleton_self row), about.1, about.2,
        fun other member owned named => ?_⟩,
        known about.1 about.2⟩
      rcases List.mem_append.mp member with earlier | new
      · exact Reconciliation.before_trans (last.last other earlier owned named) after
      · exact List.mem_singleton.mp new ▸ Reconciliation.before_refl row
  · refine ⟨old, ⟨stored, last.owned, last.about, fun other member owned named => ?_⟩, verdict⟩
    rcases List.mem_append.mp member with earlier | new
    · exact last.last other earlier owned named
    · cases List.mem_singleton.mp new
      exact absurd ⟨owned, named⟩ about

theorem reconciled (inv : GateInv db) (fresh : ∀ old ∈ db.reconciliations, old.id ≠ row.id)
    (kind : ∀ ordinal, row.subject = .step ordinal → row.decision ≠ .acknowledged)
    (mayDecide : row.decision = .unknown → (db.results.get row.runId).isSome = true →
      ∀ run ∈ db.runs.rows, run.id = row.runId → db.newerRuns run < gateLimit) :
    GateInv { db with reconciliations := db.reconciliations ++ [row] } where
  decisions :=
    { ids := by
        rw [List.map_append, List.map_singleton, List.nodup_append]
        refine ⟨inv.decisions.ids, by simp, fun id member other single same => ?_⟩
        obtain ⟨old, stored, rfl⟩ := List.mem_map.mp member
        exact fresh old stored (same.trans (List.mem_singleton.mp single))
      steps := fun other member ordinal about => by
        rcases List.mem_append.mp member with stored | new
        · exact inv.decisions.steps other stored ordinal about
        · cases List.mem_singleton.mp new
          exact kind ordinal about }
  unreserved := inv.unreserved
  seen := fun run stored finished opened => by
    obtain ⟨step, member, owned, unconfirmed, undecided⟩ := opened
    by_cases reopens : row.runId = run.id ∧ row.decision = .unknown
    · exact mayDecide reopens.2 (reopens.1 ▸ finished) run stored reopens.1.symm
    · refine inv.seen run stored finished ⟨step, member, owned, unconfirmed, fun confirmed => undecided ?_⟩
      refine confirmed_stays confirmed fun named about => ?_
      have known := kind step.ordinal about
      cases verdict : row.decision with
      | happened => exact .inl rfl
      | didNotHappen => exact .inr rfl
      | unknown => exact absurd ⟨named.trans owned, verdict⟩ reopens
      | acknowledged => exact absurd verdict known

end GateInv

/-- The subject of a step is a write or a read. -/
theorem step_subject_kind {steps : List Step} {calls : List ModelCall} {result : Option RunResult}
    {item : SubjectItem}
    {ordinal : Nat} (listed : item ∈ uncertainSubjects steps calls result) (about : item.subject = .step ordinal) :
    item.kind ≠ .run := by
  have each (member : item ∈ steps.filterMap Step.subjectItem ++
      calls.filterMap ModelCall.subjectItem) : item.kind ≠ .run := by
    rcases List.mem_append.mp member with ofStep | ofCall
    · obtain ⟨step, _, same⟩ := List.mem_filterMap.mp ofStep
      unfold Step.subjectItem at same
      split at same
      · contradiction
      · cases same
        simp only
        split <;> decide
    · obtain ⟨call, _, same⟩ := List.mem_filterMap.mp ofCall
      unfold ModelCall.subjectItem at same
      split at same
      · cases same
        contradiction
      · contradiction
  unfold uncertainSubjects at listed
  cases result with
  | none => exact each listed
  | some result =>
    simp only at listed
    split at listed
    · cases List.mem_singleton.mp listed
      contradiction
    · exact each listed

theorem DbMove.gateInv {mark : Mark} (move : DbMove config db after mark) (runs : RunInv db) (inv : GateInv db)
    (mayEnd : ∀ runId, mark = .finishes runId → GateInv.MayEnd db runId)
    (mayDecide : ∀ runId, mark = .decides runId .unknown → (db.results.get runId).isSome = true →
      ∀ run ∈ db.runs.rows, run.id = runId → db.newerRuns run < gateLimit) : GateInv after := by
  have unfinished {run : AgentRun} (found : db.runs.get run.id = some run) (going : run.state.final = none) :
      db.results.get run.id = none := by
    have result := runs.results run (Table.get_mem found)
    rwa [going, Option.map_eq_none_iff] at result
  cases move with
  | calls => exact inv.keep rfl rfl (.refl _) fun _ member _ => .inl member
  | attempts => exact inv.keep rfl rfl (.refl _) fun _ member _ => .inl member
  | approvals => exact inv.keep rfl rfl (.refl _) fun _ member _ => .inl member
  | begun => exact inv.keep rfl rfl (.refl _) fun _ member _ => .inl member
  | held => exact inv.keep rfl rfl (.refl _) fun _ member _ => .inl member
  | closed => exact inv.keep rfl rfl (.refl _) fun _ member _ => .inl member
  | reserved run attempt found => exact inv.keep rfl rfl (.put found ⟨rfl, rfl, rfl⟩) fun _ member _ => .inl member
  | running run attempts found => exact inv.keep rfl rfl (.put found ⟨rfl, rfl, rfl⟩) fun _ member _ => .inl member
  | fenced run reason found => exact inv.keep rfl rfl (.put found ⟨rfl, rfl, rfl⟩) fun _ member _ => .inl member
  | prepared run fresh state uncounted gate => exact inv.prepared runs fresh gate
  | stopped run attempts result found state fresh named => exact inv.stopped found named (mayEnd run.id rfl)
  | stepped run step reserves =>
    refine inv.keep rfl rfl (.put reserves.found ⟨rfl, rfl, rfl⟩) fun other member finished => ?_
    rcases Table.mem_put.mp member with rfl | ⟨stored, _⟩
    · rw [reserves.named, unfinished reserves.found (by rw [reserves.running]; rfl)] at finished
      contradiction
    · exact .inl stored
  | recorded step state claims errorCode found reserved =>
    refine inv.keep rfl rfl (.refl _) fun other member finished => ?_
    rcases Table.mem_put.mp member with rfl | ⟨stored, _⟩
    · refine .inr (Bool.eq_false_iff.mpr fun write => ?_)
      exact inv.unreserved step (Table.get_mem found) finished write reserved
    · exact .inl stored
  | recovered =>
    refine inv.keep rfl rfl (.recoverFence db.runs) fun new member finished => ?_
    obtain ⟨old, stored, rfl⟩ := List.mem_map.mp member
    refine .inl ?_
    unfold Process.Step.interrupt at finished ⊢
    split
    case isFalse => exact stored
    case isTrue interrupted =>
        -- the run of an interrupted step was active
        rw [if_pos interrupted] at finished
        simp only [Bool.and_eq_true, List.contains_iff_mem] at interrupted
        obtain ⟨run, active, named⟩ := List.mem_map.mp interrupted.1
        obtain ⟨stored', active⟩ := List.mem_filter.mp active
        have going : run.state.final = none := by
          cases state : run.state with
          | stopped stop => rw [state] at active; contradiction
          | _ => rfl
        have none_ := unfinished (Table.get_of_mem stored') going
        rw [named] at none_
        rw [show db.results.get old.runId = none from none_] at finished
        contradiction
  | reconciled row item about subject kind fresh =>
    refine inv.reconciled fresh (fun ordinal named acknowledged => ?_) fun unknown =>
      mayDecide row.runId (unknown ▸ rfl)
    obtain ⟨listed, member, same⟩ := List.mem_map.mp about
    have isRun := kind.mpr acknowledged
    subst same
    exact step_subject_kind member (subject.trans named) isRun

theorem DbMove.attempts_grow {mark : Mark} (move : DbMove config db after mark) :
    Table.Grows Attempt.SameRun db.attempts after.attempts := by
  have same := Table.Grows.refl Attempt.SameRun.refl db.attempts
  cases move with
  | attempts attempts kept => exact kept
  | running run attempts found state kept => exact kept
  | stopped run attempts result found state fresh named kept => exact kept
  | reserved run attempt found state fresh => exact .put_new Attempt.SameRun.refl fresh
  | recovered =>
    refine .map (Attempt.loseFor db.activeRuns) (Attempt.loseFor_id db.activeRuns) fun attempt _ => ?_
    unfold Attempt.loseFor
    split <;> rfl
  | _ => exact same

/-- The run of a step has been launched. -/
def Db.Attempted (db : Db) : Prop :=
  ∀ step ∈ db.steps.rows, ∃ attempt ∈ db.attempts.rows, attempt.runId = step.runId

theorem DbMove.attempted {mark : Mark} (move : DbMove config db after mark)
    (attempted : db.Attempted) : after.Attempted := by
  intro step member
  have stays {attempt : Attempt} (stored : db.attempts.get attempt.id = some attempt) :
      ∃ kept ∈ after.attempts.rows, kept.runId = attempt.runId := by
    obtain ⟨kept, found, same⟩ := move.attempts_grow attempt.id attempt stored
    exact ⟨kept, Table.get_mem found, same⟩
  rcases move.steps_from step member with ⟨old, stored, same⟩ | ⟨run, reserves⟩
  · obtain ⟨attempt, known, owned⟩ := attempted old stored
    obtain ⟨kept, member, owner⟩ := stays (Table.get_of_mem known)
    exact ⟨kept, member, owner.trans (owned.trans same.runId.symm)⟩
  · obtain ⟨attempt, found, owned, _⟩ := reserves.attempt
    obtain ⟨kept, member, owner⟩ := stays (Table.get_of_mem (Table.get_mem found))
    exact ⟨kept, member, owner.trans (owned.trans reserves.named.symm)⟩

/-- No run ends while a write of its own is reserved, and a run ends, or has a write
reopened, only where the gate looks. -/
def GateAllowed (p : Process) : RunLabel → Prop
  | .stopAnswered runId (some (receipt, verified)) =>
    receipt.fits p.db runId verified = true → GateInv.MayEnd p.db runId
  | .reconcile _ runId _ _ .unknown _ _ => (p.db.results.get runId).isSome = true →
      ∀ run ∈ p.db.runs.rows, run.id = runId → p.db.newerRuns run < gateLimit
  | _ => True

structure GatedProcess (p : Process) : Prop extends ProcessInv p where
  attempted : p.db.Attempted
  gate : GateInv p.db

theorem GatedProcess.initial {p : Process} (first : coordinator.initial p) : GatedProcess p := by
  have inv := ProcessInv.initial first
  obtain ⟨config, rfl⟩ := first
  exact
    { inv with
      attempted := fun _ member => nomatch member
      gate :=
        { decisions := ⟨List.nodup_nil, fun _ member => nomatch member⟩
          unreserved := fun _ member => nomatch member
          seen := fun _ member => nomatch member } }

theorem GatedProcess.step {p p' : Process} {label : RunLabel} (inv : GatedProcess p) (allowed : GateAllowed p label)
    (moved : coordinator.step p label = some p') : GatedProcess p' := by
  obtain ⟨mark, move, caused⟩ := step_move inv.toProcessInv moved
  refine ⟨inv.toProcessInv.step moved, move.attempted inv.attempted, move.gateInv inv.runs inv.gate ?_ ?_⟩
  · rintro runId rfl
    rcases caused with unlaunched | ⟨receipt, verified, rfl, fits⟩
    · -- a run without an attempt has no step
      have unstepped : ∀ step ∈ p.db.steps.rows, step.runId ≠ runId := by
        intro step stored owned
        obtain ⟨attempt, known, owner⟩ := inv.attempted step stored
        have absent := List.find?_eq_none.mp unlaunched attempt (List.mem_reverse.mpr known)
        exact absent (decide_eq_true (owner.trans owned))
      refine ⟨fun step stored owned => absurd owned (unstepped step stored), fun opened => ?_⟩
      obtain ⟨step, stored, owned, _⟩ := opened
      exact absurd owned (unstepped step stored)
    · exact allowed fits
  · rintro runId rfl finished
    obtain ⟨actorId, verified, subject, uuid, now, rfl⟩ := caused
    exact allowed finished

/-- In a run of allowed steps a profile is gated as long as one of its finished runs has
an open write, and no longer. -/
theorem unknown_write_gates {p p' : Process} {labels : List RunLabel} (first : coordinator.initial p)
    (along : coordinator.Along GateAllowed p labels) (ran : coordinator.exec p labels = some p')
    (profileId : String) :
    (profileGate p'.db profileId).isSome = true ↔ p'.db.OpenWrite profileId := by
  have inv := coordinator.exec_preserves_along GateAllowed GatedProcess
    (fun inv allowed moved => inv.step allowed moved) along (.initial first) ran
  exact inv.gate.gate_iff profileId

/-- The supervisor does not answer, and the run ends with an uncertain login. -/
def unanswered : List RunLabel :=
  loginReserved ++ [.acted "run" (.error "SUPERVISOR_TIMEOUT"), .continue "" 0, .continue "" 0,
    .stopAnswered "run" (some (⟨"run", some "attempt", 1, true, true, "attestation", none⟩, true))]

theorem unknown_write_gates_unanswered :
    ∃ p, coordinator.exec ⟨demoConfig, .empty, ∅, ∅, none, false, []⟩ unanswered = some p ∧
      (profileGate p.db "profile").isSome = true ∧ p.db.OpenWrite "profile" := by
  refine ⟨_, rfl, by rfl, ?_⟩
  have allowed : coordinator.Along GateAllowed ⟨demoConfig, .empty, ∅, ∅, none, false, []⟩ unanswered := by
    iterate 9 refine System.along_cons trivial rfl ?_
    exact ⟨fun _ => ⟨by decide, fun _ => by decide⟩, fun _ _ => trivial⟩
  exact (unknown_write_gates ⟨demoConfig, rfl⟩ allowed rfl "profile").mp (by rfl)

/-- The owner stops the run while its login is reserved, and the process restarts. -/
def stoppedWhileActing : List RunLabel := loginReserved ++ stopped ++ [.crash, .recover]

/-- The login stays reserved in a finished run, and the next start is free. -/
theorem profileGate_misses_reserved :
    ∃ p, coordinator.exec ⟨demoConfig, .empty, ∅, ∅, none, false, []⟩ stoppedWhileActing = some p ∧
      p.db.OpenWrite "profile" ∧ (profileGate p.db "profile").isNone = true := by
  refine ⟨_, rfl, ?_, by rfl⟩
  refine ⟨_, List.Mem.head _, rfl, by rfl, _, List.Mem.head _, rfl, by rfl, ?_⟩
  rintro ⟨row, last, _⟩
  exact List.not_mem_nil last.stored

end ProxyPilot.Coordinator
