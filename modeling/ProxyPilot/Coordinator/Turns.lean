import ProxyPilot.Coordinator.Lifecycle

namespace ProxyPilot.Coordinator

open Data Transition

/-- The runs a turn is still to fence. -/
def waivedBy : Option Op → List String
  | some (.terminate stop) => [stop.runId]
  | _ => []

def Db.Inactive (db : Db) (runId : String) : Prop := ∀ run, db.runs.get runId = some run → run.state.active = false

def Db.Fenced (db : Db) (runId : String) : Prop := ∃ run, db.runs.get runId = some run ∧ run.state.active = false

theorem Db.Fenced.inactive {db : Db} {runId : String} (fenced : db.Fenced runId) : db.Inactive runId := by
  obtain ⟨run, found, inactive⟩ := fenced
  intro other stored
  rw [found] at stored
  cases stored
  exact inactive

/-- A run that has been fenced stays so. -/
theorem DbMove.fenced_stays {config : Config} {db after : Db} {mark : Mark} (move : DbMove config db after mark)
    {runId : String} (fenced : db.Fenced runId) : after.Fenced runId := by
  obtain ⟨run, found, inactive⟩ := fenced
  obtain ⟨run', found', later⟩ := move.runs_grow runId run found
  exact ⟨run', found', later.moves.inactive inactive⟩

namespace Process

variable {p p' : Process} {label : RunLabel}

/-- A step that leaves the database alone. -/
structure Framed (p p' : Process) : Prop where
  db : p'.db = p.db
  booting : p'.booting = p.booting
  terminating : p'.terminating = p.terminating
  collecting : ∀ stop, p'.turn = some (.collect stop) → p.turn = some (.collect stop)

/-- A step that starts and ends no termination. -/
structure Quiet (p p' : Process) : Prop where
  move : DbMove p.config p.db p'.db .quiet
  booting : p'.booting = p.booting
  terminating : p'.terminating = p.terminating
  collecting : ∀ stop, p'.turn = some (.collect stop) → p.turn = some (.collect stop)

/-- Where the move of a step comes from. -/
def Caused (p : Process) (label : RunLabel) : Mark → Prop
  | .quiet | .closes _ => True
  | .finishes runId => p.db.attemptOf runId = none ∨
      ∃ receipt verified, label = .stopAnswered runId (some (receipt, verified)) ∧
        receipt.fits p.db runId verified = true
  | .decides runId decision =>
    ∃ actorId verified subject uuid now, label = .reconcile actorId runId verified subject decision uuid now

/-- What every step does but a crash and a restart. -/
structure Turned (p p' : Process) (label : RunLabel) : Prop where
  booting : p'.booting = p.booting
  terminating : ∀ stop ∈ p'.terminating.rows, stop ∈ p.terminating.rows ∨ p'.db.Fenced stop.runId
  collecting : ∀ stop, p'.turn = some (.collect stop) → p'.db.Fenced stop.runId
  move : ∃ mark, DbMove p.config p.db p'.db mark ∧ Caused p label mark ∧
    ∀ runId ∈ mark.closed ++ waivedBy p.turn, runId ∈ waivedBy p'.turn ∨ p'.db.Inactive runId
  steps : waivedBy p.turn ≠ [] → p'.db.steps = p.db.steps

variable {db : Db} {q : Stop → Prop} {runId : String} {run : AgentRun} {action : BrowserAction}
  {decidedBy : DecidedBy} {now : Int} {task : Task} {uuid : String} {stop : Stop}

theorem Quiet.of_move (move : DbMove p.config p.db db .quiet) (framed : Framed { p with db } p') : Quiet p p' where
  move := framed.db.symm ▸ move
  booting := framed.booting
  terminating := framed.terminating
  collecting := framed.collecting

theorem Framed.quiet (framed : Framed p p') : Quiet p p' :=
  .of_move (.same p.config p.db) framed

theorem Quiet.turned (quiet : Quiet p p') (waived : waivedBy p.turn = [])
    (calm : ∀ stop, p.turn ≠ some (.collect stop)) :
    Turned p p' label where
  booting := quiet.booting
  terminating := fun stop member => .inl (quiet.terminating ▸ member)
  collecting := fun stop turn => absurd (quiet.collecting stop turn) (calm stop)
  move := ⟨.quiet, quiet.move, trivial, fun runId member => by rw [waived] at member; contradiction⟩
  steps := absurd waived

/-- A process between two turns collects nothing. -/
theorem idle_collects : ∀ stop, (none : Option Op) = some (.collect stop) → q stop := by
  intro stop collects
  cases collects

theorem top_collects : ∀ stop, some (Op.top runId) = some (.collect stop) → q stop := by
  intro stop collects
  cases collects

theorem terminate_collects {ending : Stop} :
    ∀ stop, some (Op.terminate ending) = some (.collect stop) → q stop := by
  intro stop collects
  cases collects

theorem Framed.leave (p : Process) (runId : String) : Framed p (p.leave runId) := ⟨rfl, rfl, rfl, idle_collects⟩

theorem Framed.leaveTo (p : Process) (stop : Stop) : Framed p (p.leaveTo stop) :=
  ⟨rfl, rfl, rfl, terminate_collects⟩

theorem Framed.await (p : Process) (task : Task) (stage : Stage) : Framed p (p.await task stage) :=
  ⟨rfl, rfl, rfl, idle_collects⟩

theorem Framed.awaitTakeover (p : Process) (task : Task) : Framed p (p.awaitTakeover task) :=
  ⟨rfl, rfl, rfl, idle_collects⟩

theorem Framed.goTop (p : Process) (runId : String) : Framed p (p.go (.top runId)) := ⟨rfl, rfl, rfl, top_collects⟩

theorem Framed.refl (p : Process) : Framed p p := ⟨rfl, rfl, rfl, fun _ => id⟩

theorem reserve_quiet
    {approvalId : Option String} (named : run.id = task.ref.runId)
    (asked : action = .submitBoundFixture → approvalId ≠ none) :
    Quiet p (p.reserve task run action decidedBy approvalId now) := by
  simp only [reserve]
  split
  · exact (Framed.awaitTakeover p task).quiet
  case isFalse free =>
      split
      case h_1 db ordinal authorized =>
          have move := authorizeAction_ok (named ▸ Bool.not_eq_true _ ▸ free) asked authorized
          exact .of_move move (.await _ task _)
      · split
        · exact (Framed.leave p run.id).quiet
        · exact (Framed.leaveTo p _).quiet

theorem proceed_quiet
    (named : run.id = task.ref.runId) : Quiet p (p.proceed task run action decidedBy uuid now) := by
  unfold proceed
  split
  · split
    case h_1 db requested => exact .of_move (requestApproval_ok requested) (.await _ task _)
    · exact (Framed.leave p run.id).quiet
  case isFalse free =>
      refine reserve_quiet named fun submits => ?_
      exact absurd (submits ▸ run.policy.rules.submit_needs_approval) free

theorem modelChoice_quiet (task : Task) (run : AgentRun) (allowed : List BrowserAction) (uuid : String) :
    Quiet p (p.modelChoice task run allowed uuid) := by
  simp only [modelChoice]
  split
  · exact (Framed.leaveTo p _).quiet
  split
  · exact (Framed.leaveTo p _).quiet
  split
  · exact (Framed.leaveTo p _).quiet
  split
  · exact (Framed.leaveTo p _).quiet
  split
  · exact .of_move (.calls _) (.await _ task _)
  · exact (Framed.leave p run.id).quiet

theorem top_quiet (named : run.id = task.ref.runId) :
    Quiet p (p.top task run uuid now) := by
  unfold top
  split
  · exact (Framed.leave p run.id).quiet
  split
  · exact (Framed.awaitTakeover p task).quiet
  split
  · exact (Framed.leaveTo p _).quiet
  split
  · exact (Framed.leave p run.id).quiet
  split
  · exact (Framed.leaveTo p _).quiet
  · exact modelChoice_quiet task run _ uuid
  · exact proceed_quiet named

theorem launched_quiet (task : Task) (answer : Except String (String × String)) (now : Int) :
    Quiet p (p.launched task answer now) := by
  simp only [launched]
  split
  · exact (Framed.leaveTo p _).quiet
  · split
    case h_1 db marked =>
        have framed : Framed { p with db }
            (({ p with db, tasks := p.tasks.put { task with heartbeat := true } }).go (.top task.ref.runId)) :=
          ⟨rfl, rfl, rfl, fun _ collects => by cases collects⟩
        exact .of_move (markRunning_ok marked) framed
    · exact (Framed.leaveTo p _).quiet

theorem settleCall_eq (p : Process) (callId : String) (change : ModelCall → ModelCall) :
    ∃ calls, p.settleCall callId change = { p with db := { p.db with calls } } := by
  unfold settleCall
  split
  · exact ⟨_, rfl⟩
  · exact ⟨p.db.calls, rfl⟩

theorem modelAnswered_quiet (task : Task) (callId : String) (allowed : List BrowserAction)
    (answer : Except String BrowserAction) : Quiet p (p.modelAnswered task callId allowed answer) := by
  simp only [modelAnswered]
  split
  case h_1 code =>
      obtain ⟨calls, settled⟩ := p.settleCall_eq callId fun call =>
        { call with state := if transport.contains code || code = "CALL_UNCERTAIN" then .uncertain else .refused
                    refusalCode := some code }
      simp only [settled]
      split
      · exact .of_move (.calls calls) (.awaitTakeover _ task)
      split
      · exact .of_move (.calls calls) (.leaveTo _ _)
      · exact .of_move (.calls calls) (.leaveTo _ _)
  case h_2 choice =>
      split
      · exact (Framed.leaveTo p _).quiet
      · obtain ⟨calls, settled⟩ := p.settleCall_eq callId fun call =>
            { call with state := .chosen, choice := some choice }
        rw [settled]
        have framed : Framed { p with db := { p.db with calls } }
            (({ p with db := { p.db with calls } }).go (.proceed task.ref.runId choice (.model callId))) :=
          ⟨rfl, rfl, rfl, fun _ collects => by cases collects⟩
        exact .of_move (.calls calls) framed

theorem poll_quiet {approval : Approval}
    {late : Bool} (named : run.id = task.ref.runId) (found : p.db.approvals.get approval.id = some approval) :
    Quiet p (p.poll task run approval action decidedBy late now) := by
  unfold poll
  split
  · exact reserve_quiet named fun _ => by simp
  split
  · exact (Framed.awaitTakeover p task).quiet
  split
  · exact (Framed.leaveTo p _).quiet
  case isFalse pending =>
      split
      · exact (Framed.leave p run.id).quiet
      split
      · have spent : approval.state ≠ .consumed := by
          rw [Decidable.not_not.mp pending]
          decide
        have expires : DbMove p.config p.db
            { p.db with approvals := p.db.approvals.put { approval with state := .expired } } .quiet :=
          .approvals _ (keeps_put found spent)
        exact .of_move expires (.leaveTo _ _)
      · exact (Framed.refl p).quiet

theorem Framed.uncertainStep (p : Process) (run : AgentRun) : Framed p (p.uncertainStep run) := by
  unfold Process.uncertainStep
  split
  · exact .leave p run.id
  · exact .leaveTo p _

theorem record_quiet {ordinal : Nat} {state : StepState} {claims : Claims} {code : Option String}
    {next : Process → Process} (outcome : state ≠ .reserved) (framed : ∀ q, Framed q (next q)) :
    Quiet p (p.record runId ordinal state claims code next) := by
  unfold record
  split
  case h_1 db finished => exact .of_move (finishStep_ok outcome finished) (framed { p with db })
  · exact (Framed.leave p runId).quiet

theorem acted_quiet (task : Task) (run : AgentRun) (ordinal : Nat) (action : BrowserAction)
    (answer : Except String PageResult) : Quiet p (p.acted task run ordinal action answer) := by
  simp only [acted]
  split
  · split
    · exact record_quiet (by decide) fun q => .uncertainStep q run
    · exact record_quiet (by decide) fun q => .goTop q run.id
  · split
    · exact record_quiet (by decide) fun q => .uncertainStep q run
    · refine record_quiet (by decide) fun q => ?_
      split
      · exact .awaitTakeover q task
      split
      · exact .leave q run.id
      split
      · exact .leaveTo q _
      · exact .goTop q run.id

theorem with_quiet {answer : Fallible Db} (moves : ∀ db, answer = .ok db → DbMove p.config p.db db .quiet) :
    Quiet p (p.with_ answer) := by
  unfold with_
  split
  case h_1 db => exact .of_move (moves db rfl) ⟨rfl, rfl, rfl, fun _ => id⟩
  · exact (Framed.refl p).quiet

theorem heartbeat_quiet (task : Task) (now : Int) : Quiet p (p.heartbeat task now) := by
  unfold heartbeat
  split
  case h_1 db renewed => exact .of_move (renewLease_ok renewed) ⟨rfl, rfl, rfl, fun _ => id⟩
  · split
    · exact (Framed.refl p).quiet
    · exact Framed.quiet ⟨rfl, rfl, rfl, fun _ => id⟩

theorem execute_quiet (runId attemptId workspaceId : String) (now : Int) :
    Quiet p (p.execute runId attemptId workspaceId now) := by
  simp only [execute]
  split
  · exact Framed.quiet ⟨rfl, rfl, rfl, fun _ collects => by cases collects⟩
  case h_2 db attempt reserved =>
      split
      · exact .of_move (reserveAttempt_ok reserved) ⟨rfl, rfl, rfl, fun _ collects => by cases collects⟩
      · exact .of_move (reserveAttempt_ok reserved) ⟨rfl, rfl, rfl, fun _ => id⟩

/-- A takeover is closed when its run is about to be fenced, or needs no fence. -/
theorem Turned.closing (waived : waivedBy p.turn = [])
    (move : DbMove p.config p.db db (.closes runId)) (framed : Framed { p with db } p')
    (calm : ∀ stop, p'.turn ≠ some (.collect stop))
    (fences : runId ∈ waivedBy p'.turn ∨ db.Inactive runId) : Turned p p' label where
  booting := framed.booting
  terminating := fun stop member => .inl (framed.terminating ▸ member)
  collecting := fun stop turn => absurd turn (calm stop)
  move := by
    refine ⟨.closes runId, framed.db.symm ▸ move, trivial, fun id member => ?_⟩
    rw [waived, List.append_nil] at member
    cases List.mem_singleton.mp member
    exact framed.db.symm ▸ fences
  steps := absurd waived

theorem closeTakeover_eq (db : Db) (id reason : String) : closeTakeover db id reason = db ∨
    ∃ takeover, db.takeovers.get id = some takeover ∧ takeover.state ≠ .ended ∧
      closeTakeover db id reason =
        { db with takeovers := db.takeovers.put { takeover with state := .ended, endReason := some reason } } := by
  unfold closeTakeover
  split
  · exact .inl rfl
  case h_2 takeover found =>
      obtain ⟨found, standing⟩ := Option.filter_eq_some_iff.mp found
      exact .inr ⟨takeover, found, of_decide_eq_true standing, rfl⟩

theorem mem_lastTakeover {takeover : Takeover} (last : lastTakeover db runId = some takeover) :
    takeover ∈ db.takeovers.rows ∧ takeover.runId = runId := by
  have member := List.mem_of_mem_head? last
  rw [List.mem_insertionSort] at member
  obtain ⟨stored, owned⟩ := List.mem_filter.mp member
  exact ⟨stored, of_decide_eq_true owned⟩

theorem takeoverOver_turned (calm : p.turn = none) (runId : String) : Turned p (p.takeoverOver runId) label := by
  have waived : waivedBy p.turn = [] := by rw [calm]; rfl
  have still : ∀ stop, p.turn ≠ some (.collect stop) := by simp [calm]
  unfold takeoverOver
  cases last : lastTakeover p.db runId with
  | none => exact (Framed.leaveTo p _).quiet.turned waived still
  | some takeover =>
    obtain ⟨stored, owned⟩ := mem_lastTakeover last
    show Turned p ({ p with db := closeTakeover p.db takeover.id "run_ended" }.leaveTo
        (takenOverStop runId false)) label
    rcases closeTakeover_eq p.db takeover.id "run_ended" with same | ⟨found, stored', _, closed⟩
    · rw [same]
      exact (Framed.leaveTo p _).quiet.turned waived still
    · rw [closed]
      have named : found = takeover := Option.some.inj (stored'.symm.trans (Table.get_of_mem stored))
      subst named
      exact .closing waived (.closed found stored' "run_ended") (.leaveTo _ _) terminate_collects
        (.inl (owned ▸ List.mem_singleton_self _))

theorem endTakeoverOf_turned (calm : p.turn = none) {takeover : Takeover} (stored : takeover ∈ p.db.takeovers.rows)
    (standing : takeover.state ≠ .ended) (reason : String) (needsHuman : Bool) :
    Turned p (p.endTakeoverOf takeover reason needsHuman) label := by
  have waived : waivedBy p.turn = [] := by rw [calm]; rfl
  have found : p.db.takeovers.get takeover.id = some takeover := Table.get_of_mem stored
  have move : DbMove p.config p.db (closeTakeover p.db takeover.id reason) (.closes takeover.runId) := by
    have filtered : (p.db.takeovers.get takeover.id).filter (·.state ≠ .ended) = some takeover :=
      Option.filter_eq_some_iff.mpr ⟨found, decide_eq_true standing⟩
    unfold closeTakeover
    rw [filtered]
    exact .closed takeover found reason
  have runs : (closeTakeover p.db takeover.id reason).runs = p.db.runs := by
    rcases closeTakeover_eq p.db takeover.id reason with same | ⟨_, _, _, closed⟩
    · rw [same]
    · rw [closed]
  simp only [endTakeoverOf]
  split
  case h_1 unknown =>
      refine .closing waived move (.refl _) (by simp [calm]) (.inr fun run known => ?_)
      rw [runs, unknown] at known
      contradiction
  case h_2 run known =>
      split
      · refine .closing waived move ⟨rfl, rfl, rfl, fun _ collects => by cases collects⟩
          (fun _ collects => by cases collects) (.inl ?_)
        rw [← (get_named known).1]
        exact List.mem_singleton_self _
      case isFalse idle =>
          refine .closing waived move (.refl _) (by simp [calm]) (.inr fun other known' => ?_)
          rw [runs, known] at known'
          cases known'
          exact Bool.eq_false_iff.mpr fun active => idle (.inl active)

theorem collect_turned (fenced : p.db.Fenced stop.runId) (waived : ∀ runId ∈ waivedBy p.turn, runId = stop.runId) :
    Turned p (p.collect stop) label := by
  have settles {db : Db} {mark : Mark} (move : DbMove p.config p.db db mark) (caused : Caused p label mark)
      (open_ : mark.closed = []) :
      ∃ mark, DbMove p.config p.db db mark ∧ Caused p label mark ∧
        ∀ runId ∈ mark.closed ++ waivedBy p.turn, runId ∈ ([] : List String) ∨ db.Inactive runId := by
    refine ⟨mark, move, caused, fun runId member => .inr ?_⟩
    rw [open_, List.nil_append] at member
    exact waived runId member ▸ (move.fenced_stays fenced).inactive
  unfold collect
  split
  · exact
      { booting := rfl
        terminating := fun other member => by
          rcases Table.mem_put.mp member with rfl | ⟨stored, _⟩
          · exact .inr fenced
          · exact .inl stored
        collecting := fun _ collects => by cases collects
        move := settles (.same p.config p.db) trivial rfl
        steps := fun _ => rfl }
  · split
    case h_1 db abandoned =>
        obtain ⟨unlaunched, move, steps⟩ : p.db.attemptOf stop.runId = none ∧
            DbMove p.config p.db db _ ∧ db.steps = p.db.steps :=
          abandonUnlaunched_ok abandoned
        exact
          { booting := rfl
            terminating := fun _ member => .inl member
            collecting := fun _ collects => by cases collects
            move := settles move (.inl unlaunched) rfl
            steps := fun _ => steps }
    · exact
        { booting := rfl
          terminating := fun _ member => .inl member
          collecting := fun _ collects => by cases collects
          move := settles (.same p.config p.db) trivial rfl
          steps := fun _ => rfl }

/-- A termination that has nothing to fence. -/
theorem Turned.idle (turn : p.turn = some (.terminate stop)) (inactive : p.db.Inactive stop.runId) :
    Turned p p.yields label where
  booting := rfl
  terminating := fun _ member => .inl member
  collecting := fun _ collects => by cases collects
  move := by
    refine ⟨.quiet, .same p.config p.db, trivial, fun runId member => .inr ?_⟩
    rw [turn] at member
    cases List.mem_singleton.mp member
    exact inactive
  steps := fun _ => rfl

theorem fence_active {reason : StopState} {within : Db → Db}
    (found : db.runs.get runId = some run) (active : run.state.active = true) :
    fence db runId reason within = .ok (within { db with
      runs := db.runs.put { run with
        state := .cancelling, fence := run.fence + 1, fencedFor := some reason } }) := by
  have filtered : (db.runs.get runId).filter (·.state.active) = some run :=
    Option.filter_eq_some_iff.mpr ⟨found, active⟩
  unfold fence
  rw [filtered]
  rfl

theorem terminate_turned (turn : p.turn = some (.terminate stop))
    (terminating : ∀ stop ∈ p.terminating.rows, p.db.Fenced stop.runId) : Turned p (p.terminate stop) label := by
  unfold terminate
  split
  case isTrue already =>
      obtain ⟨other, found⟩ := Option.isSome_iff_exists.mp already
      have named : other.runId = stop.runId := Table.get_key found
      exact .idle turn (named ▸ (terminating other (Table.get_mem found)).inactive)
  · split
    case h_1 unknown =>
        refine .idle turn fun run found => ?_
        rw [unknown] at found
        contradiction
    case h_2 run found =>
        split
        case isTrue active =>
            rw [fence_active found active]
            obtain ⟨move, fenced⟩ : DbMove p.config p.db _ .quiet ∧ _ := fence_ok (fence_active found active)
            exact
              { booting := rfl
                terminating := fun _ member => .inl member
                collecting := fun stop same => by
                  cases same
                  exact fenced
                move := by
                  refine ⟨.quiet, move, trivial, fun runId member => .inr ?_⟩
                  rw [turn] at member
                  cases List.mem_singleton.mp member
                  exact Db.Fenced.inactive fenced
                steps := fun _ => rfl }
        case isFalse inactive =>
            have fenced : p.db.Fenced stop.runId := ⟨run, found, Bool.eq_false_iff.mpr inactive⟩
            split
            · refine collect_turned fenced fun runId member => ?_
              rw [turn] at member
              exact List.mem_singleton.mp member
            · exact .idle turn fenced.inactive

theorem stopAnswered_turned (calm : p.turn = none) (standing : p.terminating.get runId = some stop)
    (receipt : Option (Receipt × Bool)) : Turned p (p.stopAnswered stop receipt) (.stopAnswered runId receipt) := by
  have named : stop.runId = runId := Table.get_key standing
  have settles {db : Db} {mark : Mark} (move : DbMove p.config p.db db mark)
      (caused : Caused p (.stopAnswered runId receipt) mark) (open_ : mark.closed = []) :
      Turned p { p with db, terminating := p.terminating.erase stop.runId } (.stopAnswered runId receipt) :=
    { booting := rfl
      terminating := fun other member => .inl (List.mem_filter.mp member).1
      collecting := fun stop turn => by simp [calm] at turn
      move := ⟨mark, move, caused, fun runId member => by simp [calm, waivedBy, open_] at member⟩
      steps := fun waived => absurd (by rw [calm]; rfl) waived }
  unfold stopAnswered
  split
  · exact settles (.same p.config p.db) trivial rfl
  case h_2 receipt verified =>
      simp only [with_]
      split
      case h_1 db stopped =>
          obtain ⟨fits, move⟩ := finishStop_ok stopped
          exact settles move (.inr ⟨receipt, verified, by rw [named], fits⟩) rfl
      · exact settles (.same p.config p.db) trivial rfl

theorem continueTurn_turned {op : Op} (turn : p.turn = some op)
    (terminating : ∀ stop ∈ p.terminating.rows, p.db.Fenced stop.runId)
    (collecting : ∀ stop, p.turn = some (.collect stop) → p.db.Fenced stop.runId) :
    Turned p (p.continueTurn op uuid now) label := by
  cases op with
  | terminate stop => exact terminate_turned turn terminating
  | collect stop => exact collect_turned (collecting stop turn) (by simp [turn, waivedBy])
  | top runId =>
    have waived : waivedBy p.turn = [] := by rw [turn]; rfl
    unfold continueTurn
    simp only
    split
    case h_1 task run standing found =>
        have named : task.ref.runId = runId := Table.get_key standing
        exact (top_quiet ((get_named found).1.trans named.symm)).turned waived (by simp [turn])
    · exact (Framed.leave p runId).quiet.turned waived (by simp [turn])
  | proceed runId action decidedBy =>
    have waived : waivedBy p.turn = [] := by rw [turn]; rfl
    unfold continueTurn
    simp only
    split
    case h_1 task run standing found =>
        have named : task.ref.runId = runId := Table.get_key standing
        exact (proceed_quiet ((get_named found).1.trans named.symm)).turned waived (by simp [turn])
    · exact (Framed.leave p runId).quiet.turned waived (by simp [turn])

/-- A loop that resumes has its run. -/
theorem resume_some {next : Task → AgentRun → Option Process} (resumed : p.resume runId next = some p') :
    ∃ task run, run.id = task.ref.runId ∧ next task run = some p' := by
  obtain ⟨task, standing, resumed⟩ := Option.bind_eq_some_iff.mp resumed
  obtain ⟨run, found, resumed⟩ := Option.bind_eq_some_iff.mp resumed
  have named : task.ref.runId = runId := Table.get_key standing
  exact ⟨task, run, (get_named found).1.trans named.symm, resumed⟩

theorem handle_turned (calm : p.turn = none) {label : RunLabel}
    (handled : p.handle label = some p') : Turned p p' label := by
  have quiet {q : Process} {label : RunLabel} (move : Quiet p q) : Turned p q label :=
    move.turned (by rw [calm]; rfl) (by simp [calm])
  cases label with
  | configure config =>
    cases handled
    exact quiet (Framed.quiet ⟨rfl, rfl, rfl, fun _ => id⟩)
  | start actorId projectId profileId bindingId uuid now =>
    cases handled
    exact quiet (with_quiet fun _ started => start_ok started)
  | execute runId attemptId workspaceId now =>
    cases handled
    exact quiet (execute_quiet runId attemptId workspaceId now)
  | launched runId answer now =>
    obtain ⟨task, run, _, next⟩ := resume_some handled
    split at next
    · cases next
      exact quiet (launched_quiet task answer now)
    · contradiction
  | modelAnswered runId answer =>
    obtain ⟨task, run, _, next⟩ := resume_some handled
    split at next
    · cases next
      exact quiet (modelAnswered_quiet task _ _ answer)
    · contradiction
  | poll runId late now =>
    obtain ⟨task, run, named, next⟩ := resume_some handled
    split at next
    · obtain ⟨approval, found, rfl⟩ := Option.map_eq_some_iff.mp next
      exact quiet (poll_quiet named (Table.get_of_mem (Table.get_mem found)))
    · contradiction
  | acted runId answer =>
    obtain ⟨task, run, _, next⟩ := resume_some handled
    split at next
    · cases next
      exact quiet (acted_quiet task run _ _ answer)
    · contradiction
  | takeoverOver runId =>
    obtain ⟨task, run, _, next⟩ := resume_some handled
    split at next
    · cases next
      exact takeoverOver_turned calm runId
    · contradiction
  | heartbeat runId now =>
    obtain ⟨task, run, _, next⟩ := resume_some handled
    split at next
    · cases next
      exact quiet (heartbeat_quiet task now)
    · contradiction
  | approve actorId elevated approvalId digest =>
    cases handled
    exact quiet (with_quiet fun _ approved => approve_ok approved)
  | stop actorId runId =>
    cases handled
    unfold stopRun
    split
    · exact quiet (Framed.refl p).quiet
    · split
      · exact quiet (Framed.quiet ⟨rfl, rfl, rfl, fun _ collects => by cases collects⟩)
      · exact quiet (Framed.refl p).quiet
  | stopAnswered runId receipt =>
    obtain ⟨stop, standing, rfl⟩ := Option.map_eq_some_iff.mp handled
    exact stopAnswered_turned calm standing receipt
  | beginTakeover actorId runId uuid now =>
    cases handled
    exact quiet (with_quiet fun _ begun => beginTakeover_ok begun)
  | holdTakeover id =>
    cases handled
    exact quiet (with_quiet fun _ held => holdTakeover_ok held)
  | endTakeover actorId runId reason =>
    cases handled
    unfold endTakeover
    split
    · exact quiet (Framed.refl p).quiet
    split
    · exact quiet (Framed.refl p).quiet
    case h_2 takeover found =>
        split
        · have standing := List.find?_some found
          simp only [Bool.and_eq_true, decide_eq_true_eq] at standing
          exact endTakeoverOf_turned calm (List.mem_of_find?_eq_some found) standing.2 reason false
        · exact quiet (Framed.refl p).quiet
  | dropTakeover id reason needsHuman =>
    cases handled
    unfold dropTakeover
    split
    · exact quiet (Framed.refl p).quiet
    case h_2 takeover found =>
        obtain ⟨found, standing⟩ := Option.filter_eq_some_iff.mp found
        exact endTakeoverOf_turned calm (Table.get_mem found) (of_decide_eq_true standing) reason needsHuman
  | reconcile actorId runId verified subject decision uuid now =>
    cases handled
    unfold with_
    split
    case h_1 db decided =>
        exact
          { booting := rfl
            terminating := fun _ member => .inl member
            collecting := fun stop turn => by simp [calm] at turn
            move := ⟨.decides runId decision, reconcile_ok decided, ⟨actorId, verified, subject, uuid, now, rfl⟩,
              fun runId member => by simp [calm, waivedBy, Mark.closed] at member⟩
            steps := fun waived => absurd (by rw [calm]; rfl) waived }
    · exact quiet (Framed.refl p).quiet
  | recoverNext =>
    simp only [handle] at handled
    split at handled
    · contradiction
    · cases handled
      exact quiet (Framed.quiet ⟨rfl, rfl, rfl, fun _ collects => by cases collects⟩)
  | «continue» => contradiction
  | crash => contradiction
  | recover => contradiction

end Process

end ProxyPilot.Coordinator
