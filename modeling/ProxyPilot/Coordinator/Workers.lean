import ProxyPilot.Coordinator.Records

namespace ProxyPilot.Coordinator

open Data

/-! # The worker store (`operational-worker-boundary.js`)

Each definition is one transaction; `within` runs inside it.
-/

variable (config : Config) (db : Db) (now : Int)

def leaseMs : Int := 30000

def maxInstant : Int := 8640000000000000

/-- A lease ends with the run's deadline. -/
def AgentRun.leaseUntil (run : AgentRun) (now : Int) : Int :=
  match run.deadlineAt with
  | some deadline => min (now + leaseMs) deadline
  | none => now + leaseMs

def AgentRun.overdue (run : AgentRun) (now : Int) : Bool := run.deadlineAt.any (· ≤ now)

def assertPinnedBinding (run : AgentRun) : Fallible Unit :=
  match run.credentialBindingId with
  | none => .ok ()
  | some id => do
    let binding ← demand ((config.binding id).filter fun binding =>
      binding.projectId = run.projectId && binding.profileId = run.profileId) "CREDENTIAL_BINDING_STALE"
    require binding.active "CREDENTIAL_BINDING_REVOKED"
    require (some binding.revision = run.credentialBindingRevision) "CREDENTIAL_REVISION_MISMATCH"

def assertPinnedConfiguration (run : AgentRun) : Fallible (Profile × Project) := do
  let project ← demand (config.project run.projectId) "STALE_CONFIGURATION"
  let profile ← demand (config.profileOf run.projectId run.profileId) "STALE_CONFIGURATION"
  let guide ← demand (config.newestGuide run.projectId) "STALE_CONFIGURATION"
  require (!project.archived && project.siteOrigin = some run.siteOrigin && project.siteRevision =
    run.siteRevision &&
    project.agentLimitsRevision = run.projectLimitsRevision && profile.revision = run.profileRevision &&
    profile.guideVersionId = some run.guideVersionId && profile.guideHash = some run.guideHash &&
    profile.assignedSiteRevision = some run.siteRevision && !guide.withdrawn && guide.id = run.guideVersionId &&
    guide.contentHash = run.guideHash) "STALE_CONFIGURATION"
  assertPinnedBinding config run
  return (profile, project)

def profilePolicy (profile : Profile) (origin : String) : Fallible (List ActionKind) := do
  require (profile.proposedOrigins.contains origin) "INVALID_PROFILE_POLICY"
  return profile.proposedActions

def projectLimits (project : Project) : Fallible Limits := demand project.limits "INVALID_PROJECT_LIMITS"

/-- `workerInstallResources`, as far as it refuses. -/
def installable (limits : Limits) : Fallible Unit :=
  require (limits.cpu.all (1 ≤ ·) && limits.memoryMib.all (1024 ≤ ·) && limits.temporaryDiskMib.all (64 ≤ ·))
    "PROJECT_LIMIT_BELOW_WORKER_MINIMUM"

/-- The live run and attempt of a reference. -/
def current (runId attemptId : String) (fence : Nat) : Fallible (AgentRun × Attempt × Profile) := do
  let run ← demand (db.runs.get runId) "STALE_WORKER"
  let attempt ← demand ((db.attempts.get attemptId).filter (·.runId = runId)) "STALE_WORKER"
  require (run.fence = fence && attempt.fence = fence && run.state = .running && attempt.state = .running &&
    !run.overdue now && now < attempt.leaseExpiresAt) "STALE_WORKER"
  let (profile, _) ← assertPinnedConfiguration config run
  return (run, attempt, profile)

structure RunInput where
  projectId : String
  profileId : String
  profileRevision : Nat
  siteOrigin : String
  siteRevision : Nat
  guideVersionId : String
  guideHash : String
  policy : Policy
  credentialBindingId : Option String

def preparedBinding (input : RunInput) (actions : List ActionKind) : Fallible (Option Nat) :=
  match input.credentialBindingId with
  | none => .ok none
  | some id => do
    let binding ← demand ((config.binding id).filter fun binding =>
      binding.projectId = input.projectId && binding.profileId = input.profileId && binding.origin =
        input.siteOrigin)
      "CREDENTIAL_BINDING_STALE"
    require binding.active "CREDENTIAL_BINDING_REVOKED"
    require (actions.contains .type) "ACTION_NOT_CONFIGURED"
    return some binding.revision

def prepare (input : RunInput) (uuid : String) : Fallible Db := do
  require (1 ≤ input.profileRevision && 1 ≤ input.siteRevision && input.siteOrigin =
    "https://demo.fractionate.ai") "INVALID_RUN"
  let profile ← demand (config.profileOf input.projectId input.profileId) "STALE_CONFIGURATION"
  let project ← demand (config.project input.projectId) "STALE_CONFIGURATION"
  let guide ← demand (config.newestGuide input.projectId) "STALE_CONFIGURATION"
  require (!project.archived && profile.revision = input.profileRevision &&
    profile.guideVersionId = some input.guideVersionId && profile.guideHash =
      some input.guideHash && !guide.withdrawn &&
    guide.id = input.guideVersionId && guide.contentHash = input.guideHash &&
    profile.assignedSiteRevision = some input.siteRevision && project.siteOrigin = some input.siteOrigin &&
    project.siteRevision = input.siteRevision) "STALE_CONFIGURATION"
  let actions ← profilePolicy profile input.siteOrigin
  let bindingRevision ← preparedBinding config input actions
  let limits ← projectLimits project
  installable limits
  let deadline := limits.maxSeconds.map fun seconds => now + seconds * 1000
  require (deadline.all (· ≤ maxInstant)) "INVALID_PROJECT_LIMITS"
  -- one run of a profile that is not stopped
  require (db.runs.rows.all fun run => run.profileId ≠ input.profileId ||
    (!run.state.active && run.state ≠ .cancelling))
    "RUN_ALREADY_ACTIVE"
  let runs ← insert db.runs
    { id := uuid, projectId := input.projectId, profileId := input.profileId,
      profileRevision := input.profileRevision,
      siteOrigin := input.siteOrigin, siteRevision := input.siteRevision, guideVersionId := input.guideVersionId,
      guideHash := input.guideHash, policy := input.policy, projectLimitsRevision := project.agentLimitsRevision,
      maxActions := limits.maxActions, state := .prepared, fence := 0, actionCount := 0, startedAt := now,
      deadlineAt := deadline, credentialBindingId := input.credentialBindingId,
      credentialBindingRevision := bindingRevision, fencedFor := none }
  return { db with runs }

def reserveAttempt (runId attemptId workspaceId : String) : Fallible (Db × Attempt) := do
  let run ← demand (db.runs.get runId) "RUN_NOT_PREPARED"
  require (run.state = .prepared && !run.overdue now) "RUN_NOT_PREPARED"
  let _ ← assertPinnedConfiguration config run
  let attempt : Attempt :=
    { id := attemptId, runId, fence := run.fence + 1, state := .starting,
      leaseExpiresAt := run.leaseUntil now, workspaceId,
      vmUuid := none, bootId := none }
  -- `UNIQUE(run_id,attempt_no)`: a run has one attempt
  require (db.attemptOf runId).isNone "INTERNAL"
  let attempts ← insert db.attempts attempt
  return ({ db with
    runs := db.runs.put { run with state := .starting, fence := run.fence + 1 },
    attempts }, attempt)

/-- The run and attempt of a reference that is being launched. -/
def launching (runId attemptId : String) (fence : Nat) : Fallible (AgentRun × Attempt × Project) := do
  let run ← demand (db.runs.get runId) "STALE_WORKER"
  let attempt ← demand ((db.attempts.get attemptId).filter (·.runId = runId)) "STALE_WORKER"
  require (run.state = .starting && attempt.state = .starting && run.fence = fence && attempt.fence = fence &&
    !run.overdue now && now < attempt.leaseExpiresAt) "STALE_WORKER"
  let (_, project) ← assertPinnedConfiguration config run
  return (run, attempt, project)

def markRunning (runId attemptId : String) (fence : Nat) (vmUuid bootId : String) : Fallible Db := do
  let (run, attempt, _) ← launching config db now runId attemptId fence
  return { db with
    runs := db.runs.put { run with state := .running }
    attempts := db.attempts.put { attempt with state := .running, vmUuid := some vmUuid, bootId := some bootId } }

def launchSpec (runId attemptId : String) (fence : Nat) : Fallible Unit := do
  let (_, _, project) ← launching config db now runId attemptId fence
  let limits ← projectLimits project
  installable limits

def renewLease (runId attemptId : String) (fence : Nat) : Fallible Db := do
  let (run, attempt, _) ← current config db now runId attemptId fence
  return { db with attempts := db.attempts.put { attempt with leaseExpiresAt := run.leaseUntil now } }

structure ActionRequest where
  runId : String
  attemptId : String
  fence : Nat
  action : BrowserAction
  bindingId : Option String

def authorizeAction (request : ActionRequest) (within : Db → Nat → Fallible Db) : Fallible (Db × Nat) := do
  let (run, _, profile) ← current config db now request.runId request.attemptId request.fence
  require (request.action ≠ .submitBoundFixture || run.credentialBindingId.isSome) "CREDENTIAL_NOT_BOUND"
  require (request.action ≠ .submitBoundFixture || request.bindingId = run.credentialBindingId) "BINDING_MISMATCH"
  let actions ← profilePolicy profile run.siteOrigin
  require (actions.contains request.action.required) "ACTION_NOT_CONFIGURED"
  require (run.maxActions.all (run.actionCount < ·)) "ACTION_LIMIT"
  let counted := { db with runs := db.runs.put { run with actionCount := run.actionCount + 1 } }
  let next ← within counted (run.actionCount + 1)
  return (next, run.actionCount + 1)

def fence (runId : String) (reason : StopState) (within : Db → Db) : Fallible Db := do
  let run ← demand ((db.runs.get runId).filter (·.state.active)) "RUN_NOT_ACTIVE"
  return within { db with
    runs := db.runs.put { run with state := .cancelling, fence := run.fence + 1, fencedFor := some reason } }

structure Receipt where
  runId : String
  attemptId : Option String
  fence : Nat
  descendantsGone : Bool
  workspaceRemoved : Bool
  attestation : String
  logout : Option String

/-- The receipt of a finished teardown; `verified` is what `verifyTeardown` answers for
the receipt and the attempt. -/
def Receipt.fits (receipt : Receipt) (db : Db) (runId : String) (verified : Bool) : Bool :=
  let attempt := db.attemptOf runId
  receipt.runId = runId && receipt.attemptId = attempt.map Attempt.id &&
    receipt.fence = (attempt.map Attempt.fence).getD 0 &&
    receipt.descendantsGone && receipt.workspaceRemoved && verified

def finishStop (runId : String) (reason : StopState) (receipt : Receipt) (verified : Bool)
    (within : Db → AgentRun → Fallible Db) : Fallible Db := do
  let run ← demand ((db.runs.get runId).filter (·.state = .cancelling)) "RUN_NOT_CANCELLING"
  require (receipt.fits db runId verified) "TEARDOWN_UNVERIFIED"
  let stopped := match db.attemptOf runId with
    | some attempt =>
      if attempt.state = .starting ∨ attempt.state = .running
        then db.attempts.put { attempt with state := .stopped }
      else db.attempts
    | none => db.attempts
  let written ← within { db with attempts := stopped } run
  return { written with runs := written.runs.put { run with state := .stopped reason } }

def abandonUnlaunched (runId : String) (reason : StopState) (within : Db → AgentRun → Fallible Db) :
    Fallible Db := do
  let run ← demand ((db.runs.get runId).filter (·.state = .cancelling)) "RUN_NOT_CANCELLING"
  require (db.attemptOf runId).isNone "RUN_HAS_ATTEMPT"
  let written ← within db run
  return { written with runs := written.runs.put { run with state := .stopped reason } }

def AgentRun.recoverFence (run : AgentRun) : AgentRun :=
  if run.state.active then { run with state := .cancelling, fence := run.fence + 1 } else run

/-- The active runs; what a restart fences. -/
def Db.activeRuns (db : Db) : List String := (db.runs.rows.filter (·.state.active)).map AgentRun.id

def Attempt.loseFor (runs : List String) (attempt : Attempt) : Attempt :=
  if runs.contains attempt.runId && (attempt.state = .starting || attempt.state = .running) then
    { attempt with state := .lost }
  else attempt

theorem AgentRun.recoverFence_id (run : AgentRun) : run.recoverFence.id = run.id := by
  unfold recoverFence
  split <;> rfl

theorem Attempt.loseFor_id (runs : List String) (attempt : Attempt) : (attempt.loseFor runs).id = attempt.id := by
  unfold loseFor
  split <;> rfl

def recoverWorkers (within : Db → List String → Db) : Db × List String :=
  let fenced := db.activeRuns
  (within { db with
      runs := db.runs.map AgentRun.recoverFence AgentRun.recoverFence_id
      attempts := db.attempts.map (Attempt.loseFor fenced) (Attempt.loseFor_id fenced) } fenced, fenced)

end ProxyPilot.Coordinator
