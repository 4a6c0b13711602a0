import Mathlib.Data.List.Basic
import Mathlib.Data.List.Sort
import Mathlib.Data.String.Basic
import ProxyPilot.Data.Checks
import ProxyPilot.Data.Table

namespace ProxyPilot.Coordinator

/-! # Run policy and the coordinator's rows (`operational-run-policy.js`, `operational-recovery.js`)

Hard rules of a guide, typed claims of a page, and the next step of a run.

Times are milliseconds. Projects, profiles, guides and bindings are written by
others and only read here.
-/

inductive BrowserAction where
  | openLanding | openLogin | submitBoundFixture | readWorkspace | readSession | readFiles | signOut
deriving DecidableEq

inductive ActionKind where
  | navigate | click | type | read | download | logout
deriving DecidableEq

/-- `REQUIRED_ACTION`. -/
def BrowserAction.required : BrowserAction → ActionKind
  | .openLanding => .navigate
  | .openLogin => .click
  | .submitBoundFixture => .type
  | .readWorkspace => .navigate
  | .readSession => .read
  | .readFiles => .read
  | .signOut => .logout

inductive SubmitOutcome where
  | signedIn | rejected | rateLimited | challengeRequired | unexpectedOrigin | timeout | unknown
deriving DecidableEq

inductive StopState where
  | cancelled | blocked | failed | completed
deriving DecidableEq

inductive ResultClass where
  | verifiedAccount | credentialRejected | rateLimited | challengeRequired | unexpectedOrigin | timeout
  | unverifiedAccount | submitFailed | actionFailed | stepLimit | actionNotPermitted | noAllowedAction | actionLimit
  | deadline | leaseExpired | attemptLost | staleConfiguration | approvalStale | approvalTimeout | bindingChanged
  | brokerUnavailable | launchFailed | takenOver | cancelled | interrupted | uncertainStep | modelUncertain
  | modelUnavailable | guideNotShareable | modelCallLimit | modelChoiceInvalid | budgetExhausted | priceUnknown
  | usageUnknown | providerError | promptTooLarge | modelRefused | stepRefused
deriving DecidableEq

/-- `OUTCOME_RESULT`. -/
def outcomeResult : SubmitOutcome → StopState × ResultClass
  | .rejected => (.blocked, .credentialRejected)
  | .rateLimited => (.blocked, .rateLimited)
  | .challengeRequired => (.blocked, .challengeRequired)
  | .unexpectedOrigin => (.blocked, .unexpectedOrigin)
  | .timeout => (.failed, .timeout)
  | .unknown | .signedIn => (.blocked, .unverifiedAccount)

inductive StopCondition where
  | verifiedAccount | filesRead
deriving DecidableEq

structure RuleBlock where
  start : List BrowserAction
  finish : List BrowserAction
  modelActions : List BrowserAction
  forbid : List BrowserAction
  approvalRequired : List BrowserAction
  stopWhen : List StopCondition
  maxSteps : Nat
  maxModelCalls : Nat
  model : Bool
deriving DecidableEq

/-- `rulesSchema`. -/
def RuleBlock.accepted (r : RuleBlock) : Bool :=
  r.start.length ≤ 4 && r.start.Nodup && r.finish.length ≤ 2 && r.finish.Nodup && r.modelActions.length ≤ 7 &&
    r.modelActions.Nodup && r.forbid.length ≤ 7 && r.forbid.Nodup && r.approvalRequired.length ≤ 7 &&
    r.approvalRequired.Nodup && 1 ≤ r.stopWhen.length && r.stopWhen.length ≤ 2 &&
      r.stopWhen.Nodup && 1 ≤ r.maxSteps &&
    r.maxSteps ≤ 20 && r.maxModelCalls ≤ 10 && r.approvalRequired.contains .submitBoundFixture &&
    r.stopWhen.contains .verifiedAccount && (r.start ++ r.finish ++ r.modelActions).all (!r.forbid.contains ·) &&
    !r.finish.contains .submitBoundFixture && !r.forbid.contains .readSession && (r.model || r.maxModelCalls = 0)

structure Rules extends RuleBlock where
  accepted : toRuleBlock.accepted = true
deriving DecidableEq

theorem Rules.submit_needs_approval (rules : Rules) :
    rules.approvalRequired.contains .submitBoundFixture = true := by
  have accepted := rules.accepted
  simp only [RuleBlock.accepted, Bool.and_eq_true] at accepted
  exact accepted.1.1.1.1.1.2

/-- The pinned policy; its digest stands for its text. -/
structure Policy where
  origin : String
  guideHash : String
  rules : Rules
  modelGuideConsent : Bool
deriving DecidableEq

/-- What a page reports. -/
structure PageResult where
  authenticated : Option Bool
  asBoundAccount : Option Bool
  samplePresent : Option Bool
  signedOut : Option Bool
  outcome : Option SubmitOutcome
  loginRequests : Option Nat

structure Claims where
  authenticated : Option Bool
  asBoundAccount : Option Bool
  samplePresent : Option Bool
  signedOut : Option Bool
  outcome : Option SubmitOutcome
  loginRequests : Option Nat

def Claims.none : Claims := ⟨.none, .none, .none, .none, .none, .none⟩

def reduceClaims (action : BrowserAction) (result : PageResult) : Claims :=
  { authenticated := result.authenticated
    asBoundAccount := result.asBoundAccount
    samplePresent := result.samplePresent
    signedOut := result.signedOut
    outcome := if action = .submitBoundFixture then some (result.outcome.getD .unknown) else .none
    loginRequests := if action = .submitBoundFixture then result.loginRequests.filter (· ≤ 10) else .none }

/-- A step that is done or failed. -/
structure FinishedStep where
  action : BrowserAction
  done : Bool
  claims : Claims

inductive RuleName where
  | start | finish | verifyAccount | singleChoice

inductive Decision where
  | stop (state : StopState) (result : ResultClass)
  | action (action : BrowserAction) (rule : RuleName)
  | model (allowed : List BrowserAction)

/-- The session reads after the submit. -/
def sessionReads (steps : List FinishedStep) : List FinishedStep :=
  ((steps.dropWhile (·.action ≠ .submitBoundFixture)).drop 1).filter (·.action = .readSession)

/-- The rules where they leave no choice, else the model's. -/
def nextByRules (rules : Rules) (steps : List FinishedStep) (permitted : BrowserAction → Bool) (canSubmit : Bool) :
    Decision :=
  let tried (action : BrowserAction) := steps.any (·.action = action)
  if steps.length ≥ rules.maxSteps then .stop .blocked .stepLimit
  else
    match rules.start.find? (!tried ·) with
    | some start =>
      if !permitted start || (start = .submitBoundFixture && !canSubmit) then .stop .blocked .actionNotPermitted
      else .action start .start
    | none =>
      match rules.modelActions.filter fun action =>
        !rules.forbid.contains action && !tried action && permitted action &&
          (action ≠ .submitBoundFixture || canSubmit) with
      | [] => .stop .blocked .noAllowedAction
      | [action] => .action action .singleChoice
      | allowed => .model allowed

def nextStep (rules : Rules) (steps : List FinishedStep) (permitted : BrowserAction → Bool) (canSubmit : Bool) :
    Decision :=
  let tried (action : BrowserAction) := steps.any (·.action = action)
  let submit := steps.find? (·.action = .submitBoundFixture)
  let named := submit.any (·.claims.asBoundAccount = some true)
  let reads := if submit.isSome then sessionReads steps else []
  let verified := named && reads.any fun step => step.done && step.claims.asBoundAccount = some true
  let filesRead := steps.any fun step =>
      step.action = .readFiles && step.done && step.claims.samplePresent = some true
  if submit.any (!·.done) then .stop .blocked .submitFailed
  else if submit.any (·.claims.outcome ≠ some .signedIn) then
    let (state, result) := outcomeResult (((submit.map (·.claims)).bind (·.outcome)).getD .unknown)
    .stop state result
  else if steps.any fun step => rules.start.contains step.action && !step.done then .stop .blocked .actionFailed
  else if named && reads.isEmpty && !rules.forbid.contains .readSession then .action .readSession .verifyAccount
  else if submit.isSome && !verified then .stop .blocked .unverifiedAccount
  else if rules.stopWhen.all fun condition =>
    (condition = .verifiedAccount && verified) || (condition = .filesRead && filesRead) then
    match (rules.finish.find? fun action => !tried action && permitted action).filter fun _ =>
      steps.length < rules.maxSteps with
    | some finish => .action finish .finish
    | none => .stop .completed .verifiedAccount
  else nextByRules rules steps permitted canSubmit

open Data

abbrev Fallible := Except String

structure Limits where
  cpu : Option Nat
  memoryMib : Option Nat
  temporaryDiskMib : Option Nat
  maxSeconds : Option Nat
  maxActions : Option Nat

structure Project where
  siteOrigin : Option String
  siteRevision : Nat
  archived : Bool
  agentLimitsRevision : Nat
  limits : Option Limits

structure Profile where
  projectId : String
  revision : Nat
  guideVersionId : Option String
  guideHash : Option String
  assignedSiteRevision : Option Nat
  proposedOrigins : List String
  proposedActions : List ActionKind
  modelGuideConsent : Bool
  deleted : Bool

structure GuideVersion where
  id : String
  contentHash : String
  withdrawn : Bool
  /-- `guideRules` of its instructions. -/
  rules : Option Rules

structure Binding where
  projectId : String
  profileId : String
  origin : String
  revision : Nat
  active : Bool

structure Config where
  project : String → Option Project
  profile : String → Option Profile
  /-- The guide versions of a project, oldest first. -/
  guides : String → List GuideVersion
  binding : String → Option Binding
  runAccess : String → String → Bool

def Config.profileOf (config : Config) (projectId profileId : String) : Option Profile :=
  (config.profile profileId).filter fun profile => profile.projectId = projectId && !profile.deleted

/-- The newest version, withdrawn or not. -/
def Config.newestGuide (config : Config) (projectId : String) : Option GuideVersion :=
  (config.guides projectId).getLast?

/-- `latestGuide`: the newest version that is not withdrawn. -/
def Config.latestGuide (config : Config) (projectId : String) : Option GuideVersion :=
  ((config.guides projectId).filter (!·.withdrawn)).getLast?

def Config.guideText (config : Config) (projectId versionId : String) : Option GuideVersion :=
  (config.guides projectId).find? (·.id = versionId)

inductive RunState where
  | prepared | starting | running | cancelling | stopped (state : StopState)
deriving DecidableEq

def RunState.active : RunState → Bool
  | .prepared | .starting | .running => true
  | .cancelling | .stopped _ => false

structure AgentRun where
  id : String
  projectId : String
  profileId : String
  profileRevision : Nat
  siteOrigin : String
  siteRevision : Nat
  guideVersionId : String
  guideHash : String
  policy : Policy
  projectLimitsRevision : Nat
  maxActions : Option Nat
  state : RunState
  fence : Nat
  actionCount : Nat
  startedAt : Int
  deadlineAt : Option Int
  credentialBindingId : Option String
  credentialBindingRevision : Option Nat
  /-- The reason of the last `fenced:` event. -/
  fencedFor : Option StopState

inductive AttemptState where
  | starting | running | stopped | lost
deriving DecidableEq

structure Attempt where
  id : String
  runId : String
  fence : Nat
  state : AttemptState
  leaseExpiresAt : Int
  workspaceId : String
  vmUuid : Option String
  bootId : Option String

inductive DecidedBy where
  | rule (name : RuleName)
  | model (callId : String)

inductive StepState where
  | reserved | done | failed | uncertain
deriving DecidableEq

structure Step where
  runId : String
  ordinal : Nat
  attemptId : String
  fence : Nat
  action : BrowserAction
  decidedBy : DecidedBy
  approvalId : Option String
  state : StepState
  claims : Claims
  errorCode : Option String

inductive CallState where
  | reserved | chosen | refused | uncertain
deriving DecidableEq

structure ModelCall where
  callId : String
  runId : String
  state : CallState
  choice : Option BrowserAction
  refusalCode : Option String

/-- What an approval is for; its digest stands for these fields. -/
structure ApprovalFields where
  runId : String
  attemptId : Option String
  fence : Nat
  action : BrowserAction
  bindingId : Option String
  bindingRevision : Option Nat
  guideHash : Option String
  policy : Policy
  origin : Option String
deriving DecidableEq

inductive ApprovalState where
  | requested | approved | consumed | stale | expired
deriving DecidableEq

structure Approval where
  id : String
  runId : String
  attemptId : String
  fence : Nat
  action : BrowserAction
  bindingId : Option String
  digest : ApprovalFields
  state : ApprovalState
  decidedBy : Option String
  staleReason : Option String

def Approval.open (approval : Approval) : Bool := approval.state = .requested || approval.state = .approved

inductive TakeoverState where
  | taking | holding | ended
deriving DecidableEq

structure Takeover where
  id : String
  runId : String
  attemptId : String
  fence : Nat
  userId : String
  state : TakeoverState
  startedAt : Int
  endReason : Option String

structure RunResult where
  runId : String
  finalState : StopState
  resultClass : ResultClass
  verifiedAccount : Bool
  needsHuman : Bool
  steps : Nat
  ruleSteps : Nat
  modelSteps : Nat
  modelCalls : Nat
  uncertainSteps : Nat
  bindingId : Option String
  bindingRevision : Option Nat
  submitOutcome : Option SubmitOutcome
  logout : Option String
  receiptAttestation : Option String

inductive Subject where
  | step (ordinal : Nat)
  | call (callId : String)
  | run
deriving DecidableEq

inductive SubjectKind where
  | write | read | modelCall | run
deriving DecidableEq

inductive Verdict where
  | happened | didNotHappen | unknown | acknowledged
deriving DecidableEq

structure Reconciliation where
  id : String
  runId : String
  subject : Subject
  kind : SubjectKind
  decision : Verdict
  decidedBy : String
  decidedAt : Int

instance : Keyed AgentRun String := ⟨AgentRun.id⟩
instance : Keyed Attempt String := ⟨Attempt.id⟩
instance : Keyed Step (String × Nat) := ⟨fun step => (step.runId, step.ordinal)⟩
instance : Keyed ModelCall String := ⟨ModelCall.callId⟩
instance : Keyed Approval String := ⟨Approval.id⟩
instance : Keyed Takeover String := ⟨Takeover.id⟩
instance : Keyed RunResult String := ⟨RunResult.runId⟩

structure Db where
  runs : Table AgentRun
  attempts : Table Attempt
  steps : Table Step
  calls : Table ModelCall
  approvals : Table Approval
  takeovers : Table Takeover
  results : Table RunResult
  reconciliations : List Reconciliation

def Db.empty : Db := ⟨∅, ∅, ∅, ∅, ∅, ∅, ∅, []⟩

def Db.stepsOf (db : Db) (runId : String) : List Step := db.steps.rows.filter (·.runId = runId)

/-- The last attempt reserved for the run; a run reserves one. -/
def Db.attemptOf (db : Db) (runId : String) : Option Attempt := db.attempts.rows.reverse.find? (·.runId = runId)

def Db.runningAttempt (db : Db) (runId : String) : Option Attempt :=
  db.attempts.rows.find? fun attempt => attempt.runId = runId && attempt.state = .running

/-- `takenOver`. -/
def Db.takenOver (db : Db) (runId : String) : Bool :=
  db.takeovers.rows.any fun takeover => takeover.runId = runId && takeover.state ≠ .ended

/-- An `INSERT` under a primary key. -/
def insert {α : Type} {κ : Type} [Keyed α κ] [DecidableEq κ] (table : Table α) (row : α) : Fallible (Table α) := do
  require (table.get (Keyed.key row)).isNone "INTERNAL"
  return table.put row

def writeActions : List BrowserAction := [.submitBoundFixture, .signOut]

def acknowledgeClasses : List ResultClass :=
  [.challengeRequired, .interrupted, .takenOver, .uncertainStep, .modelUncertain, .timeout]

inductive Reason where
  | timeout
  | code (text : String)
  | result (resultClass : ResultClass)

structure SubjectItem where
  subject : Subject
  kind : SubjectKind
  reason : Reason

/-- A submit that ended in a timeout may have signed in. -/
def Step.timedOut (step : Step) : Bool :=
  step.action = .submitBoundFixture && step.state = .done && step.claims.outcome = some .timeout

def Step.subjectItem (step : Step) : Option SubjectItem :=
  if step.state ≠ .uncertain && !step.timedOut then none
  else some
    { subject := .step step.ordinal
      kind := if writeActions.contains step.action then .write else .read
      reason := if step.timedOut then .timeout else .code (step.errorCode.getD "uncertain") }

def ModelCall.subjectItem (call : ModelCall) : Option SubjectItem :=
  if call.state = .uncertain
    then some ⟨.call call.callId, .modelCall, .code (call.refusalCode.getD "uncertain")⟩ else none

def uncertainSubjects (steps : List Step) (calls : List ModelCall) (result : Option RunResult) : List SubjectItem :=
  let out := steps.filterMap Step.subjectItem ++ calls.filterMap ModelCall.subjectItem
  match result with
  | some result =>
    if out.isEmpty && result.needsHuman && acknowledgeClasses.contains result.resultClass then
      [⟨.run, .run, .result result.resultClass⟩]
    else out
  | none => out

/-- The entry of `latest` for a subject, after one more decision. -/
def laterDecision (subject : Subject) (previous : Option Reconciliation)
    (decision : Reconciliation) : Option Reconciliation :=
  if decision.subject = subject then
    match previous with
    | some old => if old.decidedAt ≤ decision.decidedAt then some decision else previous
    | none => some decision
  else previous

def latestDecision (decisions : List Reconciliation) (subject : Subject) : Option Reconciliation :=
  decisions.foldl (laterDecision subject) none

structure DecidedItem where
  item : SubjectItem
  decision : Option Reconciliation

def DecidedItem.decided (item : DecidedItem) : Bool := item.decision.any (·.decision ≠ .unknown)

def DecidedItem.gates (item : DecidedItem) : Bool := item.item.kind = .write && !item.decided

def reconciliationState (subjects : List SubjectItem) (decisions : List Reconciliation) : List DecidedItem :=
  subjects.map fun item => ⟨item, latestDecision decisions item.subject⟩

/-- `ORDER BY decided_at,id`. -/
def Reconciliation.before (left right : Reconciliation) : Bool :=
  left.decidedAt < right.decidedAt || (left.decidedAt = right.decidedAt && left.id ≤ right.id)

def Db.decisionsOf (db : Db) (runId : String) : List Reconciliation :=
  (db.reconciliations.filter (·.runId = runId)).insertionSort fun left right => left.before right

def runSubjects (db : Db) (runId : String) : List DecidedItem :=
  let steps := (db.stepsOf runId).insertionSort (·.ordinal ≤ ·.ordinal)
  let calls := db.calls.rows.filter (·.runId = runId)
  reconciliationState (uncertainSubjects steps calls (db.results.get runId)) (db.decisionsOf runId)

/-- `ORDER BY r.started_at DESC, r.id DESC`. -/
def AgentRun.newer (left right : AgentRun) : Bool :=
  right.startedAt < left.startedAt || (left.startedAt = right.startedAt && right.id ≤ left.id)

def gateLimit : Nat := 200

/-- The finished runs of a profile, the newest first. -/
def Db.finishedRuns (db : Db) (profileId : String) : List AgentRun :=
  (db.runs.rows.filter fun run => run.profileId = profileId && (db.results.get run.id).isSome).insertionSort
    fun left right => left.newer right

structure Gate where
  runId : String
  subjects : List Subject

def gating (db : Db) (runId : String) : List DecidedItem := (runSubjects db runId).filter DecidedItem.gates

def profileGate (db : Db) (profileId : String) : Option Gate :=
  (((db.finishedRuns profileId).take gateLimit).find? fun run => !(gating db run.id).isEmpty).map fun run =>
    ⟨run.id, (gating db run.id).map (·.item.subject)⟩

end ProxyPilot.Coordinator
