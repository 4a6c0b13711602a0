import ProxyPilot.Broker.Records
import ProxyPilot.Data.Table
import ProxyPilot.Transition.System

namespace ProxyPilot.Runner

open Broker Data Transition

/-! # The typed worker (`credential-broker/runner.mjs`)

The maps of the runner are keyed by the task: a cell holds one task's record in
the store, its token, the object in `active` (a task is in `busy` exactly then)
with the await its call stands at, and the objects of the `cancelTask` calls
that wait for `endTask`.  Each step below runs up to the next await.
-/

inductive TaskState where
  | preparing
  | running
  | awaitingApproval
  | completed
  | cancelled
  | blocked
  | uncertain
  | interrupted
deriving DecidableEq

def TaskState.terminal : TaskState → Bool
  | .completed | .cancelled | .blocked | .uncertain | .interrupted => true
  | .preparing | .running | .awaitingApproval => false

inductive Code where
  | sessionExpired
  | operationUncertain
  | operationFailed
  | taskCancelled
  | sessionNotIssued
  | workerRestarted

inductive ReceiptState where
  | succeeded
  | failed
  | denied
  | uncertain

structure Receipt where
  id : Uuid
  state : ReceiptState
  operation : Operation

structure Scope where
  operations : List Operation
  resources : List Uuid
  limits : Limits
  expiresAt : Time
  audience : String

structure Request where
  id : Uuid
  userId : Uuid
  projectId : Uuid
  agentId : Uuid
  grantId : Uuid
  connectionId : Uuid
  attempt : Uuid
  fence : Uuid
  scope : Scope
  steps : List Input
  configurationRevision : Nat

structure PendingApproval where
  sessionId : Option Uuid
  connectionId : Uuid
  step : Input

structure Task extends Request where
  state : TaskState
  code : Option Code
  sessionId : Option Uuid
  stepIndex : Nat
  pendingApproval : Option PendingApproval
  receipts : List Receipt
  stepKeys : List Uuid
  sending : Bool
  cancelRequested : Bool
  endConfirmed : Bool

abbrev Bearer := String

/-- The await the call that holds the active object stands at. -/
inductive Await where
  | issuing
  | executing (approvalId : Option Uuid)
  | ending

structure Active where
  task : Task
  await : Await

structure Cell where
  row : Task
  token : Option Bearer
  active : Option Active
  /-- How many `cancelTask` calls wait with the active object. -/
  shared : Nat
  /-- The objects of those that wait with one of their own. -/
  copies : List Task

instance : Keyed Cell Uuid := ⟨fun cell => cell.row.id⟩

structure Starting where
  call : Nat
  request : Request

instance : Keyed Starting Nat := ⟨Starting.call⟩

/-- What an observer of the runner's calls sees, newest first. -/
inductive Event where
  | started (id : Uuid)
  | continued (id : Uuid) (step : Nat) (approvalId : Uuid)
  | cancelRequested (id : Uuid)
  | executed (id : Uuid) (step : Nat) (key : Option Uuid) (approvalId : Option Uuid)
  | received (id : Uuid) (step : Nat) (state : ReceiptState)
  | restarted

structure State where
  tasks : Table Cell
  /-- The `startTask` calls that wait for `checkTask`. -/
  starting : Table Starting
  nextCall : Nat
  nextId : Uuid
  closed : Bool
  log : List Event

inductive RunnerError where
  | invalidRequest
  | scopeExceeded
  | workerUnavailable
  | taskExists
  | taskNotReady
  | taskBusy
  | taskNotContinuable
  | notFound

def validate (r : Request) (now : Time) : Except RunnerError Unit :=
  if r.configurationRevision < 1 then .error .invalidRequest
  else if !(list r.scope.operations && list r.scope.resources && limits r.scope.limits) then .error .invalidRequest
  else if r.scope.audience ≠ "fractionate-broker" ∨ r.scope.expiresAt ≤ now ∨
      now + r.scope.limits.maxSeconds * 1000 < r.scope.expiresAt then .error .invalidRequest
  else if r.steps.isEmpty ∨ r.scope.limits.maxActions < r.steps.length then .error .invalidRequest
  else if r.steps.all (fun s => s.operation ∈ r.scope.operations && s.resourceId ∈ r.scope.resources) then .ok ()
  else .error .scopeExceeded

/-- What a synchronous stretch leaves: the cell and what it did, newest first. -/
structure Outcome where
  cell : Cell
  events : List Event

/-- Ends `drive` and the failed `startTask` up to the call of `endTask`. -/
def Cell.end_ (cell : Cell) (t : Task) : Cell := { cell with token := none, active := some ⟨t, .ending⟩ }

/-- `busy.delete` and `active.delete`; whoever waits with the object keeps it. -/
def Cell.release (cell : Cell) (t : Task) : Cell :=
  { cell with active := none, shared := 0, copies := cell.copies ++ List.replicate cell.shared t }

/-- The object after the loop of `drive`. -/
def concluded (t : Task) : Task :=
  if t.cancelRequested ∧ t.state ≠ .uncertain then { t with state := .cancelled, code := some .taskCancelled }
  else if t.state = .running ∧ t.stepIndex = t.steps.length then { t with state := .completed, code := none }
  else t

def finish (cell : Cell) (t : Task) : Cell := cell.end_ (concluded t)

/-- The loop of `drive` from its condition to its next await. -/
def drive (cell : Cell) (t : Task) (approvalId : Option Uuid) (closed : Bool) (now : Time) : Outcome :=
  match t.steps[t.stepIndex]? with
  | none => ⟨finish cell t, []⟩
  | some step =>
    if t.cancelRequested then ⟨finish cell t, []⟩
    else if closed ∨ t.scope.expiresAt ≤ now then
      ⟨finish cell { t with state := .blocked, code := some .sessionExpired }, []⟩
    else if step.operation = .itemSetState ∧ approvalId = none then
      let t := { t with state := .awaitingApproval
                        pendingApproval := some ⟨t.sessionId, t.connectionId, step⟩ }
      ⟨{ cell with row := t }.release t, []⟩
    else
      let t := { t with state := .running, pendingApproval := none, sending := true }
      ⟨{ cell with row := t, active := some ⟨t, .executing approvalId⟩ },
        [.executed t.id t.stepIndex t.stepKeys[t.stepIndex]? approvalId]⟩

/-- The answer to `broker.execute`; `none` for a state or an id out of contract. -/
inductive ExecuteAnswer where
  | rejected
  | receipt (id : Option Uuid) (state : Option ReceiptState)

def executeAnswered (cell : Cell) (t : Task) (answer : ExecuteAnswer) (closed : Bool) (now : Time) : Outcome :=
  match answer with
  | .rejected =>
    ⟨finish cell { t with state := .uncertain, code := some .operationUncertain, sending := false }, []⟩
  | .receipt (some id) (some state) =>
    let event := Event.received t.id t.stepIndex state
    let operation := (t.steps[t.stepIndex]?.map Input.operation).getD .itemRead
    let t := { t with sending := false, receipts := t.receipts ++ [⟨id, state, operation⟩]
                      stepIndex := t.stepIndex + 1 }
    match state with
    | .succeeded =>
      let driven := drive { cell with row := t } t none closed now
      ⟨driven.cell, driven.events ++ [event]⟩
    | .uncertain =>
      ⟨finish cell { t with state := .uncertain, code := some .operationUncertain }, [event]⟩
    | .failed | .denied =>
      ⟨finish cell { t with state := .blocked, code := some .operationFailed }, [event]⟩
  | .receipt _ _ =>
    ⟨finish cell { t with state := .uncertain, code := some .operationUncertain, sending := false }, []⟩

structure IssuedSession where
  bearer : Bearer
  id : Option Uuid
  userId : Uuid
  projectId : Uuid
  agentId : Uuid
  grantId : Uuid
  connectionId : Uuid
  attempt : Uuid
  fence : Uuid
  taskId : Uuid
  expiresAt : Time
  revoked : Bool

private def isBearer (bearer : Bearer) : Bool :=
  bearer.toList.length = 43 && bearer.toList.all fun c => c.isAlphanum || c == '_' || c == '-'

/-- The session the broker issued is this task's. -/
def IssuedSession.bound (issued : IssuedSession) (t : Task) : Bool :=
  isBearer issued.bearer && issued.userId = t.userId && issued.projectId = t.projectId &&
    issued.agentId = t.agentId && issued.grantId = t.grantId && issued.connectionId = t.connectionId &&
    issued.attempt = t.attempt && issued.fence = t.fence && issued.taskId = t.id &&
    issued.expiresAt = t.scope.expiresAt && !issued.revoked && issued.id.isSome

/-- Whether the answer to `issueSession` gives the task a session. -/
def accepted (answer : Option IssuedSession) (t : Task) : Bool :=
  (answer.filter (·.bound t)).isSome

def issueAnswered (cell : Cell) (t : Task) (answer : Option IssuedSession) (closed : Bool) (now : Time) : Outcome :=
  match answer.filter (·.bound t) with
  | none => ⟨cell.end_ { t with state := .blocked, code := some .sessionNotIssued }, []⟩
  | some issued =>
    let t := { t with sessionId := issued.id }
    drive { cell with row := t, token := some issued.bearer, active := some ⟨t, .issuing⟩ } t none closed now

/-- The answer to the `endTask` of the call that holds the active object. -/
def endAnswered (cell : Cell) (t : Task) (confirmed : Bool) : Cell :=
  let t := { t with endConfirmed := confirmed }
  { cell with row := t }.release t

/-- `drive` with the object `continueTask` read. -/
def continueCell (cell : Cell) (approvalId : Uuid) (closed : Bool) (now : Time) : Outcome :=
  let driven := drive { cell with active := some ⟨cell.row, .issuing⟩ } cell.row (some approvalId) closed now
  ⟨driven.cell, driven.events ++ [.continued cell.row.id cell.row.stepIndex approvalId]⟩

def cancel (t : Task) : Task :=
  if t.state.terminal then { t with cancelRequested := true }
  else { t with cancelRequested := true, state := .cancelled, code := some .taskCancelled
                pendingApproval := none }

def cancelCell (cell : Cell) : Cell :=
  match cell.active with
  | some active =>
    { cell with token := none, active := some { active with task := cancel active.task }
                shared := cell.shared + 1 }
  | none => { cell with token := none, copies := cell.copies ++ [cancel cell.row] }

/-- The answer to the `endTask` of a `cancelTask` that waits with the active object. -/
def cancelSharedAnswered (cell : Cell) (active : Active) (confirmed : Bool) : Cell :=
  let t := { active.task with endConfirmed := confirmed }
  { cell with row := t, active := some { active with task := t }, shared := cell.shared - 1 }

/-- The answer to the `endTask` of a `cancelTask` that waits with its own object. -/
def cancelCopyAnswered (cell : Cell) (index : Nat) (t : Task) (confirmed : Bool) : Cell :=
  { cell with row := { t with endConfirmed := confirmed }, copies := cell.copies.eraseIdx index }

/-- What `createRunner` makes of a stored task. -/
def restartTask (t : Task) : Task :=
  if t.state.terminal then t
  else { t with state := if t.sending then .uncertain else .interrupted
                code := some (if t.sending then .operationUncertain else .workerRestarted)
                pendingApproval := none }

def newTask (r : Request) (firstKey : Uuid) : Task :=
  { r with state := .preparing, code := none, sessionId := none, stepIndex := 0, pendingApproval := none
           receipts := [], stepKeys := List.range' firstKey r.steps.length, sending := false
           cancelRequested := false, endConfirmed := false }

def State.put (s : State) (outcome : Outcome) : State :=
  { s with tasks := s.tasks.put outcome.cell, log := outcome.events ++ s.log }

/-- Up to the call of `checkTask`. -/
def startTask (s : State) (r : Request) (now : Time) : Except RunnerError State :=
  if s.closed then .error .workerUnavailable
  else match validate r now with
    | .error reason => .error reason
    | .ok () =>
      if (s.tasks.get r.id).isSome then .error .taskExists
      else if 10000 ≤ s.tasks.rows.length then .error .workerUnavailable
      else .ok { s with starting := s.starting.put ⟨s.nextCall, r⟩, nextCall := s.nextCall + 1 }

structure Ready where
  ready : Bool
  taskId : Uuid
  userId : Uuid
  projectId : Uuid
  agentId : Uuid
  configurationRevision : Nat
  attempt : Uuid
  fence : Uuid
  expiresAt : Time

def Ready.matches (ready : Ready) (r : Request) (now : Time) : Bool :=
  ready.ready && ready.taskId = r.id && now < ready.expiresAt && ready.expiresAt ≤ now + 60000 &&
    ready.userId = r.userId && ready.projectId = r.projectId && ready.agentId = r.agentId &&
    ready.configurationRevision = r.configurationRevision && ready.attempt = r.attempt && ready.fence = r.fence

/-- From the answer of `checkTask` to the call of `issueSession`. -/
def checkAnswered (s : State) (starting : Starting) (answer : Option Ready) (now : Time) : State :=
  let s := { s with starting := s.starting.erase starting.call }
  let r := starting.request
  match answer.filter (·.matches r now) with
  | none => s
  | some _ =>
    if s.closed ∨ (s.tasks.get r.id).isSome then s
    else
      let t := newTask r s.nextId
      { s.put ⟨{ row := t, token := none, active := some ⟨t, .issuing⟩, shared := 0, copies := [] },
        [.started r.id]⟩
        with nextId := s.nextId + r.steps.length }

def continueTask (s : State) (id approvalId : Uuid) (now : Time) : Except RunnerError State :=
  match s.tasks.get id with
  | none => .error .notFound
  | some cell =>
    if s.closed ∨ cell.row.state ≠ .awaitingApproval ∨ cell.token = none then .error .taskNotContinuable
    else if cell.active.isSome then .error .taskBusy
    else .ok (s.put (continueCell cell approvalId s.closed now))

def cancelTask (s : State) (id : Uuid) : Except RunnerError State :=
  if s.closed then .error .workerUnavailable
  else match s.tasks.get id with
    | none => .error .notFound
    | some cell => .ok (s.put ⟨cancelCell cell, [.cancelRequested id]⟩)

/-- The store is closed too: what still waits fails at its next access. -/
def close (s : State) : Except RunnerError State :=
  if s.tasks.rows.any (·.active.isSome) then .error .taskBusy
  else .ok { s with tasks := s.tasks.map (fun cell => { cell with token := none }) fun _ => rfl, closed := true }

theorem restartTask_id (t : Task) : (restartTask t).id = t.id := by
  unfold restartTask
  split <;> rfl

def restart (s : State) : State :=
  { s with
    tasks := s.tasks.map (fun cell => { row := restartTask cell.row, token := none, active := none
                                        shared := 0, copies := [] }) fun cell => restartTask_id cell.row
    starting := ∅, closed := false, log := .restarted :: s.log }

inductive Label where
  | startTask (r : Request) (now : Time)
  | checkAnswered (call : Nat) (answer : Option Ready) (now : Time)
  | issueAnswered (id : Uuid) (answer : Option IssuedSession) (now : Time)
  | executeAnswered (id : Uuid) (answer : ExecuteAnswer) (now : Time)
  | endAnswered (id : Uuid) (confirmed : Bool)
  | continueTask (id approvalId : Uuid) (now : Time)
  | cancelTask (id : Uuid)
  | cancelSharedAnswered (id : Uuid) (confirmed : Bool)
  | cancelCopyAnswered (id : Uuid) (index : Nat) (confirmed : Bool)
  | close
  | restart

/-- A call that is refused changes nothing; an answer needs a call that waits for it. -/
def step (s : State) : Label → Option State
  | .startTask r now => some ((startTask s r now).toOption.getD s)
  | .checkAnswered call answer now => (s.starting.get call).map (checkAnswered s · answer now)
  | .issueAnswered id answer now =>
    match s.tasks.get id with
    | some cell@{ active := some ⟨t, .issuing⟩, .. } => some (s.put (issueAnswered cell t answer s.closed now))
    | _ => none
  | .executeAnswered id answer now =>
    match s.tasks.get id with
    | some cell@{ active := some ⟨t, .executing _⟩, .. } =>
      some (s.put (executeAnswered cell t answer s.closed now))
    | _ => none
  | .endAnswered id confirmed =>
    match s.tasks.get id with
    | some cell@{ active := some ⟨t, .ending⟩, .. } => some (s.put ⟨endAnswered cell t confirmed, []⟩)
    | _ => none
  | .continueTask id approvalId now => some ((continueTask s id approvalId now).toOption.getD s)
  | .cancelTask id => some ((cancelTask s id).toOption.getD s)
  | .cancelSharedAnswered id confirmed =>
    match s.tasks.get id with
    | some cell@{ active := some active, shared := _ + 1, .. } =>
      some (s.put ⟨cancelSharedAnswered cell active confirmed, []⟩)
    | _ => none
  | .cancelCopyAnswered id index confirmed =>
    match s.tasks.get id with
    | some cell =>
      match cell.copies[index]? with
      | some t =>
        if s.closed then some (s.put ⟨{ cell with copies := cell.copies.eraseIdx index }, []⟩)
        else some (s.put ⟨cancelCopyAnswered cell index t confirmed, []⟩)
      | none => none
    | none => none
  | .close => some ((close s).toOption.getD s)
  | .restart => some (restart s)

def runnerSystem : System State Label where
  initial s := s.tasks = ∅ ∧ s.starting = ∅ ∧ s.closed = false ∧ s.log = []
  step := step

end ProxyPilot.Runner
