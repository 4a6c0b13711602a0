import ProxyPilot.Coordinator.Workers
import ProxyPilot.Coordinator.Records
import ProxyPilot.Transition.System

namespace ProxyPilot.Coordinator

open Data Transition

/-! # The run coordinator (`operational-run-coordinator.js`)

A step is one transaction with the code around it. A turn, the code between two
awaits, runs its transactions one after another with nothing in between but a crash.
-/

/-- `TRANSPORT`. -/
def transport : List String :=
  ["SUPERVISOR_TIMEOUT", "SUPERVISOR_UNREACHABLE", "SUPERVISOR_PROTOCOL", "CHANNEL_CLOSED"]

/-- `NEEDS_HUMAN`. -/
def needsHumanClasses : List ResultClass :=
  [.challengeRequired, .interrupted, .uncertainStep, .modelUncertain, .takenOver, .timeout]

/-- `MODEL_REFUSAL`. -/
def modelRefusal : List (String × StopState × ResultClass) :=
  [("MODEL_CHOICE_INVALID", .blocked, .modelChoiceInvalid), ("BUDGET_EXHAUSTED", .blocked, .budgetExhausted),
    ("PRICE_UNKNOWN", .failed, .priceUnknown), ("USAGE_MISSING", .failed, .usageUnknown),
    ("MODEL_MISMATCH", .failed, .usageUnknown), ("PROVIDER_ERROR", .failed, .providerError),
    ("PROVIDER_KEY_UNBOUND", .failed, .providerError), ("MODEL_NOT_ALLOWED", .blocked, .modelUnavailable),
    ("GUIDE_NOT_SHAREABLE", .blocked, .guideNotShareable), ("GUIDE_HASH_MISMATCH", .blocked, .staleConfiguration),
    ("RUN_POLICY_MISMATCH", .blocked, .staleConfiguration), ("REVISION_MISMATCH", .blocked, .staleConfiguration),
    ("PROMPT_TOO_LARGE", .blocked, .promptTooLarge), ("CALL_UNCERTAIN", .failed, .modelUncertain)]

/-- `ACTION_STOP`. -/
def actionStop : List (String × StopState × ResultClass) :=
  [("ACTION_LIMIT", .blocked, .actionLimit), ("DEADLINE", .failed, .deadline),
    ("LEASE_EXPIRED", .failed, .leaseExpired),
    ("STALE_FENCE", .failed, .attemptLost), ("ATTEMPT_NOT_ACTIVE", .failed, .attemptLost),
    ("WORKER_EXITED", .failed, .attemptLost), ("UNKNOWN_ATTEMPT", .failed, .attemptLost),
    ("STALE_WORKER", .failed, .leaseExpired), ("STALE_CONFIGURATION", .blocked, .staleConfiguration),
    ("INVALID_PROFILE_POLICY", .blocked, .staleConfiguration),
      ("ACTION_NOT_CONFIGURED", .blocked, .actionNotPermitted),
    ("APPROVAL_STALE", .blocked, .approvalStale), ("RUN_POLICY_MISMATCH", .blocked, .staleConfiguration),
    ("CREDENTIAL_BINDING_STALE", .blocked, .bindingChanged),
      ("CREDENTIAL_BINDING_REVOKED", .blocked, .bindingChanged),
    ("CREDENTIAL_REVISION_MISMATCH", .blocked, .bindingChanged), ("BINDING_REVOKED", .blocked, .bindingChanged),
    ("BINDING_REVISION_MISMATCH", .blocked, .bindingChanged), ("BINDING_UNKNOWN", .blocked, .bindingChanged),
    ("BINDING_MISMATCH", .blocked, .bindingChanged), ("CREDENTIAL_NOT_BOUND", .blocked, .bindingChanged),
    ("CREDENTIAL_BROKER_UNAVAILABLE", .failed, .brokerUnavailable),
      ("STEP_ALREADY_RESERVED", .failed, .attemptLost)]

def codeStop (table : List (String × StopState × ResultClass)) (code : String) : Option (StopState × ResultClass) :=
  table.lookup code

def writeResult (db : Db) (run : AgentRun) (state : StopState) (resultClass : ResultClass)
    (receipt : Option Receipt)
    (needsHuman : Bool) : Fallible Db := do
  let steps := db.stepsOf run.id
  let uncertain := steps.countP (·.state = .uncertain)
  let submit := steps.find? fun step => step.action = .submitBoundFixture && step.state = .done
  let results ← insert db.results
    { runId := run.id, finalState := state, resultClass
      verifiedAccount := state = .completed && resultClass = .verifiedAccount
      needsHuman := needsHuman || 0 < uncertain || needsHumanClasses.contains resultClass
      steps := steps.length
      ruleSteps := steps.countP fun step => match step.decidedBy with | .rule _ => true | .model _ => false
      modelSteps := steps.countP fun step => match step.decidedBy with | .rule _ => false | .model _ => true
      modelCalls := db.calls.rows.countP (·.runId = run.id)
      uncertainSteps := uncertain
      bindingId := run.credentialBindingId, bindingRevision := run.credentialBindingRevision
      submitOutcome := submit.bind (·.claims.outcome)
      logout := (receipt.bind Receipt.logout).filter ["done", "failed", "not_run"].contains
      receiptAttestation := receipt.map Receipt.attestation }
  return { db with results }

def Approval.closeFor (runs : List String) (reason : String) (approval : Approval) : Approval :=
  if runs.contains approval.runId && approval.open
    then { approval with state := .stale, staleReason := some reason }
  else approval

theorem Approval.closeFor_id (runs : List String) (reason : String) (approval : Approval) :
    (approval.closeFor runs reason).id = approval.id := by
  unfold closeFor
  split <;> rfl

def closeApprovals (db : Db) (runs : List String) (reason : String) : Db :=
  { db with approvals := db.approvals.map (Approval.closeFor runs reason) (Approval.closeFor_id runs reason) }

def Takeover.endFor (runs : List String) (reason : String) (takeover : Takeover) : Takeover :=
  if runs.contains takeover.runId && takeover.state ≠ .ended
    then { takeover with state := .ended, endReason := some reason }
  else takeover

theorem Takeover.endFor_id (runs : List String) (reason : String) (takeover : Takeover) :
    (takeover.endFor runs reason).id = takeover.id := by
  unfold endFor
  split <;> rfl

def endTakeovers (db : Db) (runs : List String) (reason : String) : Db :=
  { db with takeovers := db.takeovers.map (Takeover.endFor runs reason) (Takeover.endFor_id runs reason) }

def closeTakeover (db : Db) (id reason : String) : Db :=
  match (db.takeovers.get id).filter (·.state ≠ .ended) with
  | none => db
  | some takeover =>
    { db with takeovers := db.takeovers.put { takeover with state := .ended, endReason := some reason } }

/-- The fields of an approval as they stand. -/
def approvalFields (config : Config) (db : Db) (run : AgentRun) (action : BrowserAction) : ApprovalFields :=
  let binding := run.credentialBindingId.bind config.binding
  { runId := run.id
    attemptId := (db.runningAttempt run.id).map Attempt.id
    fence := run.fence
    action
    bindingId := run.credentialBindingId
    bindingRevision := (binding.filter Binding.active).map Binding.revision
    guideHash := (config.latestGuide run.projectId).map GuideVersion.contentHash
    policy := run.policy
    origin := (config.project run.projectId).bind Project.siteOrigin }

structure Ref where
  runId : String
  attemptId : String
  fence : Nat

def requestApproval (config : Config) (db : Db) (ref : Ref) (action : BrowserAction)
    (uuid : String) : Fallible Db := do
  let run ← demand (db.runs.get ref.runId) "INTERNAL"
  let fields := approvalFields config db run action
  require (fields.attemptId = some ref.attemptId && fields.fence = ref.fence) "STALE_WORKER"
  require (fields.guideHash.isSome && fields.origin.isSome) "INTERNAL"
  -- `ops_agent_one_open_approval`
  require (db.approvals.rows.all fun approval => approval.runId ≠ ref.runId || !approval.open) "INTERNAL"
  let approvals ← insert db.approvals
    { id := uuid, runId := ref.runId, attemptId := ref.attemptId, fence := ref.fence, action,
      bindingId := fields.bindingId,
      digest := fields, state := .requested, decidedBy := none, staleReason := none }
  return { db with approvals }

/-- Why an approval that is asked for can no longer be given. -/
def approvalStale (config : Config) (db : Db) (run : AgentRun) (approval : Approval) : Option String :=
  let binding := run.credentialBindingId.bind config.binding
  if run.state ≠ .running then some "run_not_running"
  else if approval.bindingId.isSome && !binding.any Binding.active then some "binding_revoked"
  else if approvalFields config db run approval.action ≠ approval.digest then some "state_changed"
  else none

/-- The transaction of `approve`; a stale approval is closed and then refused. -/
def approve (config : Config) (db : Db) (actorId : String) (elevated : Bool) (approvalId : String)
    (digest : ApprovalFields) :
    Fallible Db := do
  let approval ← demand (db.approvals.get approvalId) "APPROVAL_UNKNOWN"
  let run ← demand (db.runs.get approval.runId) "INTERNAL"
  require (config.runAccess actorId run.projectId && elevated) "RUN_ACCESS_DENIED"
  require (approval.state = .requested) "APPROVAL_NOT_PENDING"
  require (digest = approval.digest) "APPROVAL_DIGEST_MISMATCH"
  match approvalStale config db run approval with
  | some reason =>
    return { db with approvals := db.approvals.put { approval with state := .stale, staleReason := some reason } }
  | none =>
    return { db with approvals := db.approvals.put { approval with state := .approved, decidedBy := some actorId } }

def consumeApproval (config : Config) (db : Db) (approvalId : String) (ref : Ref)
    (action : BrowserAction) : Fallible Db := do
  let approval ← demand (db.approvals.get approvalId) "APPROVAL_STALE"
  require (approval.state = .approved && approval.action = action && approval.runId = ref.runId &&
    approval.attemptId = ref.attemptId && approval.fence = ref.fence) "APPROVAL_STALE"
  let run ← demand (db.runs.get ref.runId) "INTERNAL"
  require (approvalFields config db run action = approval.digest) "APPROVAL_STALE"
  return { db with approvals := db.approvals.put { approval with state := .consumed } }

def consumeIfAsked (config : Config) (db : Db) (approvalId : Option String) (ref : Ref)
    (action : BrowserAction) : Fallible Db :=
  match approvalId with
  | some id => consumeApproval config db id ref action
  | none => .ok db

/-- The step row, inside the reservation of its action. -/
def insertStep (config : Config) (ref : Ref) (action : BrowserAction) (decidedBy : DecidedBy)
    (approvalId : Option String)
    (db : Db) (ordinal : Nat) : Fallible Db := do
  let consumed ← consumeIfAsked config db approvalId ref action
  let steps ← insert consumed.steps
    { runId := ref.runId, ordinal, attemptId := ref.attemptId, fence := ref.fence, action, decidedBy, approvalId,
      state := .reserved, claims := .none, errorCode := none }
  return { consumed with steps }

def finishStep (db : Db) (runId : String) (ordinal : Nat) (state : StepState) (claims : Claims)
    (errorCode : Option String) :
    Fallible Db := do
  let step ← demand ((db.steps.get (runId, ordinal)).filter (·.state = .reserved)) "INTERNAL"
  return { db with steps := db.steps.put { step with state, claims, errorCode } }

def finished (db : Db) (runId : String) : List FinishedStep :=
  (((db.stepsOf runId).filter fun step => step.state = .done || step.state = .failed).insertionSort
    (·.ordinal ≤ ·.ordinal)).map fun step => ⟨step.action, step.state = .done, step.claims⟩

/-- What an `execute` waits for. -/
inductive Stage where
  | launching
  | modelling (callId : String) (allowed : List BrowserAction)
  | approving (approvalId : String) (action : BrowserAction) (decidedBy : DecidedBy)
  | acting (ordinal : Nat) (action : BrowserAction)
  | takenOver

structure Task where
  ref : Ref
  stage : Stage
  heartbeat : Bool
  stale : Option String

/-- The arguments of `terminate`. -/
structure Stop where
  runId : String
  state : StopState
  resultClass : ResultClass
  needsHuman : Bool

/-- The next transaction of the turn that runs. -/
inductive Op where
  | top (runId : String)
  | proceed (runId : String) (action : BrowserAction) (decidedBy : DecidedBy)
  | terminate (stop : Stop)
  | collect (stop : Stop)

instance : Keyed Task String := ⟨fun task => task.ref.runId⟩
instance : Keyed Stop String := ⟨Stop.runId⟩

structure Process where
  config : Config
  db : Db
  tasks : Table Task
  /-- The terminations that await the launcher. -/
  terminating : Table Stop
  turn : Option Op
  /-- Between a crash and the `recover` of the next process. -/
  booting : Bool
  /-- The terminations `recover` has still to start. -/
  recovering : List Stop

namespace Process

def go (p : Process) (op : Op) : Process := { p with turn := some op }

def yields (p : Process) : Process := { p with turn := none }

/-- The loop of the run returns or throws. -/
def leave (p : Process) (runId : String) : Process := { p with tasks := p.tasks.erase runId, turn := none }

/-- The loop of the run returns a termination. -/
def leaveTo (p : Process) (stop : Stop) : Process := (p.leave stop.runId).go (.terminate stop)

def await (p : Process) (task : Task) (stage : Stage) : Process :=
  { p with tasks := p.tasks.put { task with stage }, turn := none }

def awaitTakeover (p : Process) (task : Task) : Process :=
  { p with tasks := p.tasks.put { task with stage := .takenOver, heartbeat := false }, turn := none }

def stopWith (runId : String) (answer : StopState × ResultClass) : Stop := ⟨runId, answer.1, answer.2, false⟩

def takenOverStop (runId : String) (needsHuman : Bool) : Stop := ⟨runId, .blocked, .takenOver, needsHuman⟩

/-- `authorizeAction` of the loop, and what follows when it refuses. -/
def reserve (p : Process) (task : Task) (run : AgentRun) (action : BrowserAction) (decidedBy : DecidedBy)
    (approvalId : Option String) (now : Int) : Process :=
  if p.db.takenOver run.id then p.awaitTakeover task
  else
    let request : ActionRequest :=
      ⟨task.ref.runId, task.ref.attemptId, task.ref.fence, action,
        if action = .submitBoundFixture then run.credentialBindingId else none⟩
    match authorizeAction p.config p.db now request (insertStep p.config task.ref action decidedBy approvalId) with
    | .ok (db, ordinal) => { p with db }.await task (.acting ordinal action)
    | .error code =>
      if run.state ≠ .running then p.leave run.id
      else p.leaveTo (stopWith run.id ((codeStop actionStop code).getD (.blocked, .stepRefused)))

/-- The loop from a decided action on. -/
def proceed (p : Process) (task : Task) (run : AgentRun) (action : BrowserAction)
    (decidedBy : DecidedBy) (uuid : String)
    (now : Int) : Process :=
  if run.policy.rules.approvalRequired.contains action then
    match requestApproval p.config p.db task.ref action uuid with
    | .ok db => { p with db }.await task (.approving uuid action decidedBy)
    | .error _ => p.leave run.id
  else p.reserve task run action decidedBy none now

/-- `modelChoice` up to its `await`. -/
def modelChoice (p : Process) (task : Task) (run : AgentRun) (allowed : List BrowserAction)
    (uuid : String) : Process :=
  let rules := run.policy.rules
  if !rules.model then p.leaveTo (stopWith run.id (.blocked, .modelUnavailable))
  else if !run.policy.modelGuideConsent then p.leaveTo (stopWith run.id (.blocked, .guideNotShareable))
  else if rules.maxModelCalls ≤ p.db.calls.rows.countP (·.runId = run.id) then
    p.leaveTo (stopWith run.id (.blocked, .modelCallLimit))
  else if !(p.config.guideText run.projectId run.guideVersionId).any (·.contentHash = run.guideHash) then
    p.leaveTo (stopWith run.id (.blocked, .staleConfiguration))
  else
    match insert p.db.calls ⟨uuid, run.id, .reserved, none, none⟩ with
    | .ok calls => { p with db := { p.db with calls } }.await task (.modelling uuid allowed)
    | .error _ => p.leave run.id

/-- The loop from its head to its next transaction. -/
def top (p : Process) (task : Task) (run : AgentRun) (uuid : String) (now : Int) : Process :=
  if run.state ≠ .running then p.leave run.id
  else if p.db.takenOver run.id then p.awaitTakeover task
  else
    match task.stale with
    | some code => p.leaveTo (stopWith run.id ((codeStop actionStop code).getD (.blocked, .staleConfiguration)))
    | none =>
      match p.config.profile run.profileId with
      | none => p.leave run.id
      | some profile =>
        match nextStep run.policy.rules (finished p.db run.id) (profile.proposedActions.contains ·.required)
          run.credentialBindingId.isSome with
        | .stop state result => p.leaveTo ⟨run.id, state, result, false⟩
        | .model allowed => p.modelChoice task run allowed uuid
        | .action action rule => p.proceed task run action (.rule rule) uuid now

/-- `terminate` from a call to its next transaction or `await`. -/
def collect (p : Process) (stop : Stop) : Process :=
  match p.db.attemptOf stop.runId with
  | some _ => { p with terminating := p.terminating.put stop, turn := none }
  | none =>
    match abandonUnlaunched p.db stop.runId stop.state fun db run =>
      writeResult db run stop.state stop.resultClass none stop.needsHuman with
    | .ok db => { p with db, turn := none }
    | .error _ => p.yields

def terminate (p : Process) (stop : Stop) : Process :=
  if (p.terminating.get stop.runId).isSome then p.yields
  else
    match p.db.runs.get stop.runId with
    | none => p.yields
    | some run =>
      if run.state.active then
        match fence p.db stop.runId stop.state fun db =>
          endTakeovers (closeApprovals db [stop.runId] "run_stopping") [stop.runId] "run_stopping" with
        | .ok db => { p with db }.go (.collect stop)
        | .error _ => p.yields
      else if run.state = .cancelling then p.collect stop
      else p.yields

/-- One transaction of the turn that runs. -/
def continueTurn (p : Process) (op : Op) (uuid : String) (now : Int) : Process :=
  match op with
  | .terminate stop => p.terminate stop
  | .collect stop => p.collect stop
  | .top runId =>
    match p.tasks.get runId, p.db.runs.get runId with
    | some task, some run => p.top task run uuid now
    | _, _ => p.leave runId
  | .proceed runId action decidedBy =>
    match p.tasks.get runId, p.db.runs.get runId with
    | some task, some run => p.proceed task run action decidedBy uuid now
    | _, _ => p.leave runId

def launched (p : Process) (task : Task) (answer : Except String (String × String)) (now : Int) : Process :=
  let ref := task.ref
  match answer with
  | .error code => p.leaveTo (stopWith ref.runId ((codeStop actionStop code).getD (.failed, .launchFailed)))
  | .ok (vmUuid, bootId) =>
    match markRunning p.config p.db now ref.runId ref.attemptId ref.fence vmUuid bootId with
    | .ok db => ({ p with db, tasks := p.tasks.put { task with heartbeat := true } }).go (.top ref.runId)
    | .error code => p.leaveTo (stopWith ref.runId ((codeStop actionStop code).getD (.failed, .launchFailed)))

def settleCall (p : Process) (callId : String) (change : ModelCall → ModelCall) : Process :=
  match p.db.calls.get callId with
  | some call => { p with db := { p.db with calls := p.db.calls.put (change call) } }
  | none => p

def modelAnswered (p : Process) (task : Task) (callId : String) (allowed : List BrowserAction)
    (answer : Except String BrowserAction) : Process :=
  let runId := task.ref.runId
  match answer with
  | .error code =>
    let uncertain := transport.contains code || code = "CALL_UNCERTAIN"
    let settled := p.settleCall callId fun call =>
      { call with state := if uncertain then .uncertain else .refused, refusalCode := some code }
    if code = "TAKEN_OVER" then settled.awaitTakeover task
    else if uncertain then settled.leaveTo ⟨runId, .failed, .modelUncertain, true⟩
    else settled.leaveTo (stopWith runId ((codeStop modelRefusal code).getD (.failed, .modelRefused)))
  | .ok choice =>
    if !allowed.contains choice then p.leaveTo (stopWith runId (.blocked, .modelChoiceInvalid))
    else (p.settleCall callId fun call => { call with state := .chosen, choice := some choice }).go
      (.proceed runId choice (.model callId))

/-- One look of `checkpoint` at its approval; `late` when its time is over. -/
def poll (p : Process) (task : Task) (run : AgentRun) (approval : Approval) (action : BrowserAction)
    (decidedBy : DecidedBy)
    (late : Bool) (now : Int) : Process :=
  if approval.state = .approved then p.reserve task run action decidedBy (some approval.id) now
  else if p.db.takenOver run.id then p.awaitTakeover task
  else if approval.state ≠ .requested then p.leaveTo (stopWith run.id (.blocked, .approvalStale))
  else if run.state ≠ .running then p.leave run.id
  else if late then
    ({ p with db := { p.db with approvals := p.db.approvals.put { approval with state := .expired } } }).leaveTo
      (stopWith run.id (.blocked, .approvalTimeout))
  else p

/-- The loop after a step is recorded as uncertain. -/
def uncertainStep (p : Process) (run : AgentRun) : Process :=
  if run.state ≠ .running then p.leave run.id else p.leaveTo ⟨run.id, .failed, .uncertainStep, true⟩

/-- A step is recorded and the loop goes on as `next` says; a row that is no longer
reserved makes it throw. -/
def record (p : Process) (runId : String) (ordinal : Nat) (state : StepState) (claims : Claims)
    (code : Option String)
    (next : Process → Process) : Process :=
  match finishStep p.db runId ordinal state claims code with
  | .ok db => next { p with db }
  | .error _ => p.leave runId

def acted (p : Process) (task : Task) (run : AgentRun) (ordinal : Nat) (action : BrowserAction)
    (answer : Except String PageResult) : Process :=
  match answer with
  | .ok result =>
    let claims := reduceClaims action result
    if action = .signOut && claims.signedOut ≠ some true then
      p.record run.id ordinal .uncertain claims (some "SIGN_OUT_UNCONFIRMED") (·.uncertainStep run)
    else p.record run.id ordinal .done claims none (·.go (.top run.id))
  | .error code =>
    if transport.contains code || (action = .signOut && code = "SIGN_OUT_UNCONFIRMED") then
      p.record run.id ordinal .uncertain .none (some code) (·.uncertainStep run)
    else
      p.record run.id ordinal .failed .none (some code) fun p =>
        if code = "TAKEN_OVER" then p.awaitTakeover task
        else if run.state ≠ .running then p.leave run.id
        else
          match codeStop actionStop code with
          | some answer => p.leaveTo (stopWith run.id answer)
          | none => p.go (.top run.id)

/-- The last takeover of a run by its start. -/
def lastTakeover (db : Db) (runId : String) : Option Takeover :=
  ((db.takeovers.rows.filter (·.runId = runId)).insertionSort fun left right => right.startedAt ≤
    left.startedAt).head?

/-- `awaitTakeover` from the end of its wait on. -/
def takeoverOver (p : Process) (runId : String) : Process :=
  let db := match lastTakeover p.db runId with
    | some takeover => closeTakeover p.db takeover.id "run_ended"
    | none => p.db
  { p with db }.leaveTo (takenOverStop runId false)

/-- A refused request changes nothing. -/
def with_ (p : Process) (answer : Fallible Db) : Process :=
  match answer with
  | .ok db => { p with db }
  | .error _ => p

def start (config : Config) (db : Db) (actorId projectId profileId : String)
    (bindingId : Option String) (uuid : String)
    (now : Int) : Fallible Db := do
  require (config.runAccess actorId projectId) "RUN_ACCESS_DENIED"
  let project ← demand (config.project projectId) "STALE_CONFIGURATION"
  let profile ← demand (config.profileOf projectId profileId) "STALE_CONFIGURATION"
  let versionId ← demand profile.guideVersionId "STALE_CONFIGURATION"
  let guide ← demand ((config.guideText projectId versionId).filter fun guide =>
      some guide.contentHash = profile.guideHash)
    "STALE_CONFIGURATION"
  let rules ← demand guide.rules "GUIDE_RULES_INVALID"
  require (profileGate db profileId).isNone "RECONCILIATION_REQUIRED"
  let origin ← demand project.siteOrigin "INVALID_RUN"
  prepare config db now
    { projectId, profileId, profileRevision := profile.revision, siteOrigin := origin,
      siteRevision := project.siteRevision,
      guideVersionId := versionId, guideHash := guide.contentHash,
      policy := ⟨origin, guide.contentHash, rules, profile.modelGuideConsent⟩,
        credentialBindingId := bindingId } uuid

/-- `execute` up to its first `await`. -/
def execute (p : Process) (runId attemptId workspaceId : String) (now : Int) : Process :=
  let refused (p : Process) (code : String) :=
    p.go (.terminate (stopWith runId ((codeStop actionStop code).getD (.failed, .launchFailed))))
  match reserveAttempt p.config p.db now runId attemptId workspaceId with
  | .error code => refused p code
  | .ok (db, attempt) =>
    match launchSpec p.config db now runId attempt.id attempt.fence with
    | .error code => refused { p with db } code
    | .ok () =>
      { p with db, tasks := p.tasks.put ⟨⟨runId, attempt.id, attempt.fence⟩, .launching, false, none⟩ }

def beginTakeover (config : Config) (db : Db) (actorId runId uuid : String) (now : Int) : Fallible Db := do
  let run ← demand (db.runs.get runId) "RUN_UNKNOWN"
  require (config.runAccess actorId run.projectId) "RUN_ACCESS_DENIED"
  require (run.state = .running) "TAKEOVER_NOT_RUNNING"
  let attempt ← demand ((db.runningAttempt runId).filter (·.fence = run.fence)) "TAKEOVER_NOT_RUNNING"
  -- `ops_agent_one_controller`
  require (!db.takenOver runId) "TAKEOVER_HELD"
  let takeovers ← insert db.takeovers
    { id := uuid, runId, attemptId := attempt.id, fence := run.fence, userId := actorId,
      state := .taking, startedAt := now,
      endReason := none }
  return closeApprovals { db with takeovers } [runId] "taken_over"

def holdTakeover (db : Db) (id : String) : Fallible Db := do
  let takeover ← demand ((db.takeovers.get id).filter (·.state = .taking)) "TAKEOVER_UNKNOWN"
  return { db with takeovers := db.takeovers.put { takeover with state := .holding } }

/-- A takeover is closed and its run, if it still goes on, terminated. -/
def endTakeoverOf (p : Process) (takeover : Takeover) (reason : String) (needsHuman : Bool) : Process :=
  let closed := { p with db := closeTakeover p.db takeover.id reason }
  match p.db.runs.get takeover.runId with
  | none => closed
  | some run =>
    if run.state.active ∨ run.state = .cancelling
      then closed.go (.terminate (takenOverStop run.id needsHuman)) else closed

def endTakeover (p : Process) (actorId runId reason : String) : Process :=
  match p.db.runs.get runId with
  | none => p
  | some run =>
    match p.db.takeovers.rows.find? fun takeover => takeover.runId = runId && takeover.state ≠ .ended with
    | none => p
    | some takeover =>
      if p.config.runAccess actorId run.projectId ∧ takeover.userId = actorId
        then p.endTakeoverOf takeover reason false
      else p

/-- `dropTakeover` and `abandonTakeover`. -/
def dropTakeover (p : Process) (id reason : String) (needsHuman : Bool) : Process :=
  match (p.db.takeovers.get id).filter (·.state ≠ .ended) with
  | none => p
  | some takeover => p.endTakeoverOf takeover reason needsHuman

def stopRun (p : Process) (actorId runId : String) : Process :=
  match p.db.runs.get runId with
  | none => p
  | some run =>
    if p.config.runAccess actorId run.projectId ∧ (run.state.active ∨ run.state = .cancelling) then
      p.go (.terminate ⟨runId, .cancelled, .cancelled, false⟩)
    else p

/-- A termination resumes with the receipt of `launcher.stop`, or without one. -/
def stopAnswered (p : Process) (stop : Stop) (receipt : Option (Receipt × Bool)) : Process :=
  let settled := { p with terminating := p.terminating.erase stop.runId }
  match receipt with
  | none => settled
  | some (receipt, verified) =>
    settled.with_ (finishStop p.db stop.runId stop.state receipt verified fun db run =>
      writeResult db run stop.state stop.resultClass (some receipt) stop.needsHuman)

def heartbeat (p : Process) (task : Task) (now : Int) : Process :=
  match renewLease p.config p.db now task.ref.runId task.ref.attemptId task.ref.fence with
  | .ok db => { p with db }
  | .error code =>
    if code = "STALE_WORKER" then p else { p with tasks := p.tasks.put { task with stale := some code } }

/-- `reconcile` of `operational-agent-runs.js`. -/
def reconcile (config : Config) (db : Db) (actorId runId : String) (verified : Bool)
    (subject : Subject) (decision : Verdict)
    (uuid : String) (now : Int) : Fallible Db := do
  let run ← demand (db.runs.get runId) "RUN_UNKNOWN"
  require (config.runAccess actorId run.projectId && verified) "CONTROL_VERIFICATION_REQUIRED"
  let item ← demand ((runSubjects db runId).find? (·.item.subject = subject)) "RECONCILE_SUBJECT_UNKNOWN"
  require ((item.item.kind = .run) == (decision = .acknowledged)) "RECONCILE_DECISION_INVALID"
  require (db.reconciliations.all (·.id ≠ uuid)) "INTERNAL"
  return { db with
    reconciliations := db.reconciliations ++ [⟨uuid, runId, subject, item.item.kind, decision, actorId, now⟩] }

def Step.interrupt (runs : List String) (step : Step) : Step :=
  if runs.contains step.runId && step.state = .reserved then
    { step with state := .uncertain, errorCode := some "COORDINATOR_RESTART" }
  else step

theorem Step.interrupt_key (runs : List String) (step : Step) :
    Keyed.key (Step.interrupt runs step) = Keyed.key step := by
  unfold Step.interrupt
  split <;> rfl

def ModelCall.interrupt (runs : List String) (call : ModelCall) : ModelCall :=
  if runs.contains call.runId && call.state = .reserved then
    { call with state := .uncertain, refusalCode := some "COORDINATOR_RESTART" }
  else call

theorem ModelCall.interrupt_id (runs : List String) (call : ModelCall) :
    (ModelCall.interrupt runs call).callId = call.callId := by
  unfold ModelCall.interrupt
  split <;> rfl

def interruptRuns (db : Db) (fenced : List String) : Db :=
  let interrupted := { db with
    steps := db.steps.map (Step.interrupt fenced) (Step.interrupt_key fenced)
    calls := db.calls.map (ModelCall.interrupt fenced) (ModelCall.interrupt_id fenced) }
  endTakeovers (closeApprovals interrupted fenced "coordinator_restart") fenced "coordinator_restart"

/-- The reason `recover` terminates a run with. -/
def recoveredStop (fenced : List String) (run : AgentRun) : Stop :=
  if fenced.contains run.id then ⟨run.id, .failed, .interrupted, true⟩
  else
    match run.fencedFor.getD .failed with
    | .cancelled => ⟨run.id, .cancelled, .cancelled, true⟩
    | reason => ⟨run.id, reason, .interrupted, true⟩

def recover (p : Process) : Process :=
  let (db, fenced) := recoverWorkers p.db interruptRuns
  { p with db, booting := false,
           recovering := (db.runs.rows.filter (·.state = .cancelling)).map (recoveredStop fenced) }

def crash (p : Process) : Process :=
  { p with tasks := ∅, terminating := ∅, turn := none, booting := true, recovering := [] }

end Process

inductive RunLabel where
  | configure (config : Config)
  | start (actorId projectId profileId : String) (bindingId : Option String) (uuid : String) (now : Int)
  | execute (runId attemptId workspaceId : String) (now : Int)
  | launched (runId : String) (answer : Except String (String × String)) (now : Int)
  | modelAnswered (runId : String) (answer : Except String BrowserAction)
  | poll (runId : String) (late : Bool) (now : Int)
  | acted (runId : String) (answer : Except String PageResult)
  | takeoverOver (runId : String)
  | heartbeat (runId : String) (now : Int)
  | approve (actorId : String) (elevated : Bool) (approvalId : String) (digest : ApprovalFields)
  | stop (actorId runId : String)
  | stopAnswered (runId : String) (receipt : Option (Receipt × Bool))
  | beginTakeover (actorId runId uuid : String) (now : Int)
  | holdTakeover (id : String)
  | endTakeover (actorId runId reason : String)
  | dropTakeover (id reason : String) (needsHuman : Bool)
  | reconcile (actorId runId : String) (verified : Bool) (subject : Subject) (decision : Verdict)
      (uuid : String) (now : Int)
  | continue (uuid : String) (now : Int)
  | recoverNext
  | crash
  | recover

namespace Process

/-- The loop of a run, where it stands at the stage. -/
def resume (p : Process) (runId : String) (next : Task → AgentRun → Option Process) : Option Process :=
  (p.tasks.get runId).bind fun task => (p.db.runs.get runId).bind fun run => next task run

/-- A step of a process that runs no turn. -/
def handle (p : Process) : RunLabel → Option Process
  | .configure config => some { p with config }
  | .start actorId projectId profileId bindingId uuid now =>
    some (p.with_ (start p.config p.db actorId projectId profileId bindingId uuid now))
  | .execute runId attemptId workspaceId now => some (p.execute runId attemptId workspaceId now)
  | .launched runId answer now => p.resume runId fun task _ =>
    match task.stage with
    | .launching => some (p.launched task answer now)
    | _ => none
  | .modelAnswered runId answer => p.resume runId fun task _ =>
    match task.stage with
    | .modelling callId allowed => some (p.modelAnswered task callId allowed answer)
    | _ => none
  | .poll runId late now => p.resume runId fun task run =>
    match task.stage with
    | .approving approvalId action decidedBy =>
      (p.db.approvals.get approvalId).map fun approval => p.poll task run approval action decidedBy late now
    | _ => none
  | .acted runId answer => p.resume runId fun task run =>
    match task.stage with
    | .acting ordinal action => some (p.acted task run ordinal action answer)
    | _ => none
  | .takeoverOver runId => p.resume runId fun task _ =>
    match task.stage with
    | .takenOver => some (p.takeoverOver runId)
    | _ => none
  | .heartbeat runId now =>
    p.resume runId fun task _ => if task.heartbeat then some (p.heartbeat task now) else none
  | .approve actorId elevated approvalId digest =>
    some (p.with_ (approve p.config p.db actorId elevated approvalId digest))
  | .stop actorId runId => some (p.stopRun actorId runId)
  | .stopAnswered runId receipt => (p.terminating.get runId).map fun stop => p.stopAnswered stop receipt
  | .beginTakeover actorId runId uuid now => some (p.with_ (beginTakeover p.config p.db actorId runId uuid now))
  | .holdTakeover id => some (p.with_ (holdTakeover p.db id))
  | .endTakeover actorId runId reason => some (p.endTakeover actorId runId reason)
  | .dropTakeover id reason needsHuman => some (p.dropTakeover id reason needsHuman)
  | .reconcile actorId runId verified subject decision uuid now =>
    some (p.with_ (reconcile p.config p.db actorId runId verified subject decision uuid now))
  | .recoverNext =>
    match p.recovering with
    | [] => none
    | stop :: rest => some (({ p with recovering := rest }).go (.terminate stop))
  | .continue .. | .crash | .recover => none

def step (p : Process) (label : RunLabel) : Option Process :=
  match label with
  | .crash => some p.crash
  | .recover => if p.booting then some p.recover else none
  | .continue uuid now => p.turn.map fun op => p.continueTurn op uuid now
  | label => if p.booting ∨ p.turn.isSome then none else p.handle label

end Process

def coordinator : System Process RunLabel where
  initial := fun p => ∃ config, p = ⟨config, .empty, ∅, ∅, none, false, []⟩
  step := Process.step

end ProxyPilot.Coordinator
