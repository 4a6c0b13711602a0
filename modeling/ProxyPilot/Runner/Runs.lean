import ProxyPilot.Runner.Tasks

namespace ProxyPilot.Runner

open Broker Data Transition

def Event.task : Event → Option Uuid
  | .started id | .continued id _ _ | .cancelRequested id | .executed id _ _ _ | .received id _ _ => some id
  | .restarted => none

/-- The steps `broker.execute` was called for, newest first. -/
def executes (log : List Event) (id : Uuid) : List Nat :=
  log.filterMap fun
    | .executed task step _ _ => if task = id then some step else none
    | _ => none

/-- The runner restarted after it started the task. -/
def StartedBeforeRestart (log : List Event) (id : Uuid) : Prop :=
  ∃ earlier, (.restarted :: earlier) <:+ log ∧ .started id ∈ earlier

/-- What must have happened before a call of `broker.execute`. -/
structure Permitted (row : Task) (step : Nat) (key approvalId : Option Uuid) (earlier : List Event) : Prop where
  order : executes earlier row.id = (List.range step).reverse
  key : ∃ own, row.stepKeys[step]? = some own ∧ key = some own
  succeeded : ∀ i < step, .received row.id i .succeeded ∈ earlier
  approved : ∀ action, row.steps[step]? = some action → action.operation = .itemSetState →
    ∃ approval, approvalId = some approval ∧ .continued row.id step approval ∈ earlier
  uncancelled : .cancelRequested row.id ∉ earlier
  unrestarted : ¬ StartedBeforeRestart earlier row.id

/-- Every step has a succeeded receipt. -/
def Done (t : Task) : Prop := t.receipts.map Receipt.state = List.replicate t.steps.length .succeeded

/-- The task's calls so far, and the receipts of the steps before its current one. -/
structure Progress (log : List Event) (t : Task) (calls : Nat) : Prop where
  executes : executes log t.id = (List.range calls).reverse
  received : ∀ i < t.stepIndex, .received t.id i .succeeded ∈ log
  receipts : t.receipts.map Receipt.state = List.replicate t.stepIndex .succeeded

/-- The fields no step changes. -/
structure Same (t row : Task) : Prop where
  request : t.toRequest = row.toRequest
  stepKeys : t.stepKeys = row.stepKeys

structure Agrees (t row : Task) : Prop where
  state : t.state = row.state
  sending : t.sending = row.sending
  receipts : t.receipts = row.receipts

inductive Idle (log : List Event) (cell : Cell) : Prop where
  | awaiting (state : cell.row.state = .awaitingApproval)
      (action : ∃ step, cell.row.steps[cell.row.stepIndex]? = some step ∧ step.operation = .itemSetState)
      (progress : Progress log cell.row cell.row.stepIndex) (sending : cell.row.sending = false)
      (requested : cell.row.cancelRequested = false)
      (unrestarted : ¬ StartedBeforeRestart log cell.row.id)
      (cancelled : .cancelRequested cell.row.id ∈ log → cell.token = none)
      (copies : ∀ t ∈ cell.copies, t.state = .cancelled ∧ t.sending = cell.row.sending ∧
        t.receipts = cell.row.receipts ∧ cell.token = none)
  | settled (terminal : cell.row.state.terminal = true) (copies : ∀ t ∈ cell.copies, Agrees t cell.row)

/-- What holds of the object a suspended call drives. -/
structure Driven (log : List Event) (cell : Cell) (t : Task) : Prop where
  alone : cell.copies = []
  unrestarted : ¬ StartedBeforeRestart log cell.row.id
  cancelled : .cancelRequested cell.row.id ∈ log → t.cancelRequested = true
  shared : cell.shared ≠ 0 → t.cancelRequested = true

inductive AwaitInv (log : List Event) (row t : Task) : Await → Prop where
  | issuing (progress : Progress log t 0) (start : t.stepIndex = 0) (sending : t.sending = false)
      (state : t.state = if t.cancelRequested then .cancelled else .preparing)
      (stored : row.state = .preparing ∨ (row.state = .cancelled ∧ t.cancelRequested = true)) :
      AwaitInv log row t .issuing
  | executing {approvalId} (progress : Progress log t (t.stepIndex + 1)) (within : t.stepIndex < t.steps.length)
      (sending : t.sending = true) (state : t.state = if t.cancelRequested then .cancelled else .running)
      (stored : row.state = .running ∨ (row.state = .cancelled ∧ row.sending = true ∧ t.cancelRequested = true)) :
      AwaitInv log row t (.executing approvalId)
  | ending (terminal : t.state.terminal = true) (completed : t.state = .completed → Done t) :
      AwaitInv log row t .ending

structure Stored (cell : Cell) : Prop where
  keys : cell.row.stepKeys.length = cell.row.steps.length
  steps : cell.row.steps ≠ []
  completed : cell.row.state = .completed → Done cell.row
  copies : ∀ t ∈ cell.copies, Same t cell.row

structure CellInv (log : List Event) (cell : Cell) : Prop where
  stored : Stored cell
  idle : cell.active = none → Idle log cell ∧ cell.shared = 0
  busy : ∀ active, cell.active = some active →
    Same active.task cell.row ∧ Driven log cell active.task ∧ AwaitInv log cell.row active.task active.await

/-- A stored terminal state stays, but for a cancellation while a call was in flight. -/
def Follows (row after : Task) : Prop :=
  row.state.terminal = true →
    (after.state = row.state ∧ (after.sending = true → row.sending = true)) ∨
      (row.state = .cancelled ∧ row.sending = true ∧ after.state = .uncertain)

/-- What the end of a call is going to store follows what is stored. -/
def Settling (cell : Cell) : Prop := ∀ t, cell.active = some ⟨t, .ending⟩ → Follows cell.row t

variable {e : Event} {approvalId : Option Uuid}

theorem executes_cons_other {id : Uuid} (other : ∀ step key approvalId, e ≠ .executed id step key approvalId)
    (log : List Event) : executes (e :: log) id = executes log id := by
  cases e with
  | executed task step key approvalId =>
    have different : task ≠ id := fun same => other step key approvalId (same ▸ rfl)
    simp [executes, different]
  | _ => rfl

theorem executes_cons (log : List Event) (id : Uuid) (step : Nat) (key approvalId : Option Uuid) :
    executes (.executed id step key approvalId :: log) id = step :: executes log id := by
  simp [executes]

variable {log : List Event} {cell : Cell} {t : Task}

theorem startedBeforeRestart_cons (other : e ≠ .restarted) {id : Uuid} :
    StartedBeforeRestart (e :: log) id ↔ StartedBeforeRestart log id := by
  constructor
  · intro ⟨earlier, within, member⟩
    rcases List.suffix_cons_iff.mp within with same | within
    · exact absurd (List.cons.inj same).1.symm other
    · exact ⟨earlier, within, member⟩
  · intro ⟨earlier, within, member⟩
    exact ⟨earlier, within.trans (List.suffix_cons _ _), member⟩

theorem StartedBeforeRestart.started {id : Uuid} (before : StartedBeforeRestart log id) :
    .started id ∈ log := by
  obtain ⟨earlier, within, member⟩ := before
  exact within.subset (List.mem_cons_of_mem _ member)

/-- The events say nothing of the task. -/
def Silent (id : Uuid) (events : List Event) : Prop := ∀ e ∈ events, e ≠ .restarted ∧ e.task ≠ some id

section Silent

variable {id : Uuid} {events log : List Event}

theorem Silent.executes (silent : Silent id events) : executes (events ++ log) id = executes log id := by
  induction events with
  | nil => rfl
  | cons e rest ih =>
    rw [List.cons_append, executes_cons_other]
    · exact ih fun other member => silent other (List.mem_cons_of_mem _ member)
    · intro step key approvalId same
      exact (silent e List.mem_cons_self).2 (by rw [same]; rfl)

theorem Silent.mem {e : Event} (silent : Silent id events) (own : e.task = some id) (member : e ∈ events ++ log) :
    e ∈ log := by
  rcases List.mem_append.mp member with new | old
  · exact absurd own (silent e new).2
  · exact old

theorem startedBeforeRestart_append (running : ∀ e ∈ events, e ≠ .restarted) :
    StartedBeforeRestart (events ++ log) id ↔ StartedBeforeRestart log id := by
  induction events with
  | nil => rfl
  | cons e rest ih =>
    rw [List.cons_append, startedBeforeRestart_cons (running e List.mem_cons_self)]
    exact ih fun other member => running other (List.mem_cons_of_mem _ member)

theorem Silent.progress {t : Task} {calls : Nat} (silent : Silent t.id events) (progress : Progress log t calls) :
    Progress (events ++ log) t calls :=
  ⟨silent.executes.trans progress.executes,
    fun i before => List.mem_append_right _ (progress.received i before), progress.receipts⟩

end Silent

theorem Same.id {t row : Task} (same : Same t row) : t.id = row.id := congrArg Request.id same.request

/-- Events of other tasks change nothing of this one. -/
theorem CellInv.frame {log events : List Event} (inv : CellInv log cell)
    (silent : Silent cell.row.id events) : CellInv (events ++ log) cell := by
  obtain ⟨stored, idle, busy⟩ := inv
  have restarts : StartedBeforeRestart (events ++ log) cell.row.id ↔ StartedBeforeRestart log cell.row.id :=
    startedBeforeRestart_append fun e member => (silent e member).1
  refine ⟨stored, fun none => ?_, ?_⟩
  · obtain ⟨idle, unshared⟩ := idle none
    refine ⟨?_, unshared⟩
    cases idle with
    | settled terminal agree => exact .settled terminal agree
    | awaiting state action progress sending requested unrestarted cancelled own =>
      exact .awaiting state action (silent.progress progress) sending requested (restarts.not.mpr unrestarted)
        (fun member => cancelled (silent.mem rfl member)) own
  · intro ⟨t, suspended⟩ held
    obtain ⟨same, driven, await⟩ := busy _ held
    refine ⟨same, ⟨driven.alone, restarts.not.mpr driven.unrestarted,
      fun member => driven.cancelled (silent.mem rfl member), driven.shared⟩, ?_⟩
    have silent : Silent t.id events := by rw [show t.id = cell.row.id from same.id]; exact silent
    dsimp only at await ⊢
    cases await with
    | issuing progress start sending state stored =>
      exact .issuing (silent.progress progress) start sending state stored
    | executing progress within sending state stored =>
      exact .executing (silent.progress progress) within sending state stored
    | ending terminal completed => exact .ending terminal completed

/-- The events are the task's own, and its calls were permitted. -/
def LawfulFrom (row : Task) (log : List Event) : List Event → Prop
  | [] => True
  | e :: older => e ≠ .restarted ∧ e.task = some row.id ∧
      (∀ step key approvalId, e = .executed row.id step key approvalId →
        Permitted row step key approvalId (older ++ log)) ∧ LawfulFrom row log older

/-- What a stretch of one task's calls keeps. -/
structure Kept (row : Task) (log : List Event) (outcome : Outcome) : Prop where
  same : Same outcome.cell.row row
  lawful : LawfulFrom row log outcome.events
  inv : CellInv (outcome.events ++ log) outcome.cell

theorem Same.rfl (t : Task) : Same t t := ⟨Eq.refl _, Eq.refl _⟩

theorem concluded_terminal (ends : t.state.terminal = true ∨ t.cancelRequested = true ∨
    (t.state = .running ∧ t.stepIndex = t.steps.length)) : (concluded t).state.terminal = true := by
  unfold concluded
  split
  · rfl
  · split
    · rfl
    case isFalse stays notDone =>
      rcases ends with terminal | requested | all
      · exact terminal
      · simp only [requested, true_and, not_not] at stays
        rw [stays]
        rfl
      · exact absurd all notDone

theorem concluded_completed (uncompleted : t.state ≠ .completed)
    (receipts : t.state = .running → t.stepIndex = t.steps.length → Done t)
    (completed : (concluded t).state = .completed) : Done (concluded t) := by
  unfold concluded at completed ⊢
  split at completed
  · contradiction
  case isFalse stays =>
    rw [if_neg stays]
    split at completed
    case isTrue all =>
      rw [if_pos all]
      exact receipts all.1 all.2
    case isFalse => exact absurd completed uncompleted

theorem concluded_same (t : Task) : Same (concluded t) t ∧ (concluded t).cancelRequested = t.cancelRequested ∧
    (concluded t).sending = t.sending := by
  unfold concluded
  split
  · exact ⟨⟨rfl, rfl⟩, rfl, rfl⟩
  · split <;> exact ⟨⟨rfl, rfl⟩, rfl, rfl⟩

/-- A call that ends suspends in `endTask` with an object in a terminal state. -/
theorem Stored.end_ (stored : Stored cell)
    (same : Same t cell.row) (driven : Driven log cell t) (terminal : t.state.terminal = true)
    (completed : t.state = .completed → Done t) : CellInv log (cell.end_ t) :=
  ⟨⟨stored.keys, stored.steps, stored.completed, stored.copies⟩, fun none => by simp [Cell.end_] at none,
    fun active held => by
      cases held
      exact ⟨same, ⟨driven.alone, driven.unrestarted, driven.cancelled, driven.shared⟩, .ending terminal completed⟩⟩

theorem Stored.finish (stored : Stored cell)
    (same : Same t cell.row) (driven : Driven log cell t)
    (ends : t.state.terminal = true ∨ t.cancelRequested = true ∨
      (t.state = .running ∧ t.stepIndex = t.steps.length))
    (uncompleted : t.state ≠ .completed)
    (receipts : t.state = .running → t.stepIndex = t.steps.length → Done t) : CellInv log (finish cell t) := by
  obtain ⟨⟨request, stepKeys⟩, requested, _⟩ := concluded_same t
  refine stored.end_ ⟨request.trans same.request, stepKeys.trans same.stepKeys⟩
    ⟨driven.alone, driven.unrestarted, ?_, ?_⟩ (concluded_terminal ends)
    (concluded_completed uncompleted receipts)
  · rw [requested]; exact driven.cancelled
  · rw [requested]; exact driven.shared

theorem Driven.cons {log : List Event} {cell : Cell} {t : Task} {e : Event} (driven : Driven log cell t)
    (running : e ≠ .restarted) (uncancelled : e ≠ .cancelRequested cell.row.id) : Driven (e :: log) cell t := by
  refine ⟨driven.alone, (startedBeforeRestart_cons running).not.mpr driven.unrestarted, fun member => ?_,
    driven.shared⟩
  rcases List.mem_cons.mp member with same | member
  · exact absurd same.symm uncancelled
  · exact driven.cancelled member

/-- What `drive` is called with: the object it drives has just been stored or read. -/
structure Drivable (log : List Event) (cell : Cell) (approvalId : Option Uuid) : Prop where
  keys : cell.row.stepKeys.length = cell.row.steps.length
  steps : cell.row.steps ≠ []
  driven : Driven log cell cell.row
  progress : Progress log cell.row cell.row.stepIndex
  sending : cell.row.sending = false
  state : if cell.row.cancelRequested then cell.row.state = .cancelled
    else cell.row.state.terminal = false ∧
      (cell.row.steps.length ≤ cell.row.stepIndex → cell.row.state = .running ∧
        cell.row.stepIndex = cell.row.steps.length)
  approved : ∀ approval, approvalId = some approval →
    .continued cell.row.id cell.row.stepIndex approval ∈ log

theorem Drivable.stored
    (ready : Drivable log cell approvalId) : Stored cell where
  keys := ready.keys
  steps := ready.steps
  completed completed := by
    have state := ready.state
    rw [completed] at state
    split at state
    · contradiction
    · exact absurd state.1 (by decide)
  copies t member := by
    rw [ready.driven.alone] at member
    exact absurd member List.not_mem_nil

theorem drive_kept
    (ready : Drivable log cell approvalId) (closed : Bool) (now : Time) :
    Kept cell.row log (drive cell cell.row approvalId closed now) := by
  have stored := ready.stored
  obtain ⟨keys, steps, driven, progress, sending, state, approved⟩ := ready
  have uncompleted : cell.row.state ≠ .completed := by
    intro completed
    rw [completed] at state
    split at state
    · contradiction
    · exact absurd state.1 (by decide)
  have receipts : cell.row.stepIndex = cell.row.steps.length → Done cell.row := fun all => by
    rw [Done, progress.receipts, all]
  unfold drive
  cases found : cell.row.steps[cell.row.stepIndex]? with
  | none =>
    have past : cell.row.steps.length ≤ cell.row.stepIndex := List.getElem?_eq_none_iff.mp found
    refine ⟨Same.rfl _, trivial, stored.finish (Same.rfl _) driven ?_ uncompleted fun _ => receipts⟩
    cases requested : cell.row.cancelRequested with
    | true => exact Or.inr (Or.inl rfl)
    | false =>
      simp only [requested, Bool.false_eq_true, if_false] at state
      exact Or.inr (Or.inr (state.2 past))
  | some action =>
    dsimp only
    split
    case isTrue requested =>
      exact ⟨Same.rfl _, trivial, stored.finish (Same.rfl _) driven (Or.inr (Or.inl requested)) uncompleted
        fun _ => receipts⟩
    case isFalse going =>
      split
      case isTrue =>
        refine ⟨Same.rfl _, trivial, stored.finish ⟨rfl, rfl⟩
          ⟨driven.alone, driven.unrestarted, driven.cancelled, driven.shared⟩ (Or.inl rfl) ?_ ?_⟩
        · exact TaskState.noConfusion
        · exact fun running => TaskState.noConfusion running
      case isFalse =>
        have uncancelled : .cancelRequested cell.row.id ∉ log := fun member => going (driven.cancelled member)
        have unshared : cell.shared = 0 := by
          by_contra shared
          exact going (driven.shared shared)
        simp only [going, Bool.false_eq_true, if_false] at state
        split
        case isTrue waits =>
          refine ⟨⟨rfl, rfl⟩, trivial, ⟨⟨keys, steps, TaskState.noConfusion, ?_⟩, fun _ => ⟨?_, rfl⟩, ?_⟩⟩
          · simp [Cell.release, driven.alone, unshared]
          · refine .awaiting rfl ⟨action, found, waits.1⟩ ⟨progress.executes, progress.received, progress.receipts⟩
              sending (Bool.eq_false_iff.mpr going) driven.unrestarted (fun member => absurd member uncancelled) ?_
            simp [Cell.release, driven.alone, unshared]
          · intro active held
            contradiction
        case isFalse calls =>
          have within : cell.row.stepIndex < cell.row.steps.length := (List.getElem?_eq_some_iff.mp found).1
          have permitted : Permitted cell.row cell.row.stepIndex cell.row.stepKeys[cell.row.stepIndex]?
              approvalId log := by
            refine ⟨progress.executes, ⟨_, List.getElem?_eq_getElem (keys ▸ within),
              List.getElem?_eq_getElem (keys ▸ within)⟩, progress.received, fun other same writes => ?_,
              uncancelled, driven.unrestarted⟩
            rw [found] at same
            cases same
            obtain ⟨approval, given⟩ := Option.ne_none_iff_exists'.mp fun none => calls ⟨writes, none⟩
            exact ⟨approval, given, approved approval given⟩
          have called : executes (.executed cell.row.id cell.row.stepIndex
              cell.row.stepKeys[cell.row.stepIndex]? approvalId :: log) cell.row.id =
              (List.range (cell.row.stepIndex + 1)).reverse := by
            rw [executes_cons, progress.executes, List.range_succ, List.reverse_append]
            rfl
          refine ⟨⟨rfl, rfl⟩, ⟨Event.noConfusion, rfl, fun _ _ _ same => ?_, trivial⟩,
            ⟨⟨keys, steps, TaskState.noConfusion, ?_⟩, fun none => ?_, fun active held => ?_⟩⟩
          · cases same
            exact permitted
          · simp [driven.alone]
          · contradiction
          · cases held
            obtain ⟨alone, unrestarted, cancelled, shared⟩ := driven.cons
              (e := .executed cell.row.id cell.row.stepIndex cell.row.stepKeys[cell.row.stepIndex]? approvalId)
              Event.noConfusion Event.noConfusion
            refine ⟨⟨rfl, rfl⟩, ⟨alone, unrestarted, cancelled, shared⟩,
              .executing ⟨called, fun i before => List.mem_cons_of_mem _ (progress.received i before),
                progress.receipts⟩ within rfl (by simp [going]) (Or.inl rfl)⟩

end ProxyPilot.Runner
