import ProxyPilot.Projects.Calendar
import ProxyPilot.Data.Table
import ProxyPilot.Transition.System
import Mathlib.Data.List.Sort

namespace ProxyPilot.Projects

open Data Transition

/-! # Scheduled project runs (`operational-project-tasks.js`)

The tables of `operational-projects-store.js` are read here and written by others;
tasks, schedules and occurrences are written here only.
-/

structure Actor where
  id : String
  mcp : Bool
  human : Bool
  jti : Option String
  enrollmentOnly : Bool
  linkOnly : Bool
  scheduleOccurrenceId : Option String

structure GuideVersion where
  id : String
  contentHash : String

structure Project where
  id : String
  ownerUserId : String
  archived : Bool
  revision : Nat
  agentLimitsRevision : Nat
  currentVersion : Option GuideVersion

structure Configuration where
  id : String
  projectId : String
  revision : Nat
  sha256 : String
  guideRef : Option GuideVersion

structure Consent where
  configurationId : String
  allowed : Bool
  ownerUserId : String
  configurationRevision : Nat
  configurationSha256 : String
  guideId : String
  guideSha256 : String
  consentSha256 : String

instance : Keyed Project String := ⟨Project.id⟩
instance : Keyed Configuration String := ⟨Configuration.id⟩
instance : Keyed Consent String := ⟨Consent.configurationId⟩

structure Store where
  accountRole : String → Option String
  projects : Table Project
  grant : String → String → Option String
  configurations : Table Configuration
  consents : Table Consent
  /-- Projects of runs in an active state. -/
  activeRuns : List String

structure Task where
  projectId : String
  configurationId : Option String
  revision : Nat

instance : Keyed Task String := ⟨Task.projectId⟩

inductive ScheduleState where
  | enabled | paused | deleted
deriving DecidableEq

structure Pins where
  configurationId : String
  configurationRevision : Nat
  configurationSha256 : String
  guideId : String
  guideSha256 : String
  consentSha256 : String
  limitsRevision : Nat
deriving DecidableEq

structure Schedule where
  id : String
  projectId : String
  ownerUserId : String
  revision : Nat
  state : ScheduleState
  timing : Timing
  nextRunAt : Option Int
  pins : Pins

instance : Keyed Schedule String := ⟨Schedule.id⟩

inductive OccurrenceState where
  | starting | started | blocked | missed | overlap | interrupted
deriving DecidableEq

structure Occurrence where
  id : String
  scheduleId : String
  scheduleRevision : Nat
  dueAt : Int
  localKey : String
  state : OccurrenceState
  runId : Option String
  resultCode : Option String

instance : Keyed Occurrence String := ⟨Occurrence.id⟩

def assertRevision (expected actual : Nat) : Answer Unit :=
  failIf (expected ≠ actual) 412 "The record changed; reload before saving"

def Store.eligible (store : Store) (actor : Actor) : Answer Unit := do
  let role ← orFail 401 "Authentication required" (store.accountRole actor.id)
  failIf (actor.enrollmentOnly || actor.linkOnly || !(["user", "admin"].contains role)) 403
    "An active, fully authenticated account is required"

def Store.resolveRole (store : Store) (project : Project) (actorId : String) : Option String :=
  if project.ownerUserId = actorId then some "owner"
  else (store.grant project.id actorId).filter ["viewer", "operator", "editor", "reviewer"].contains

def assertOperation (role : Option String) (allowed : List String) (archived : Bool) : Answer Unit := do
  let role ← orFail 404 "Operational record not found" role
  failIf (!allowed.contains role) 403 "Insufficient operational access"
  failIf archived 409 "Operational record is archived"

def readers : List String := ["owner", "viewer", "operator", "editor", "reviewer"]

def editors : List String := ["owner", "editor"]

/-- `store.get`: reading is open to an archived project. -/
def Store.get (store : Store) (actor : Actor) (pid : String) : Answer (Project × Option String) := do
  store.eligible actor
  let project ← orFail 404 "Operational record not found" (store.projects.get pid)
  assertOperation (store.resolveRole project actor.id) readers false
  return (project, store.resolveRole project actor.id)

def Store.owner (store : Store) (actor : Actor) (pid : String) : Answer Project := do
  failIf (actor.mcp || !actor.human) 403 "A human must accept project setup"
  let (project, role) ← store.get actor pid
  assertOperation role editors project.archived
  failIf (role ≠ some "owner") 403 "Only the project owner can accept settings or schedules"
  return project

def Store.browserConfiguration (store : Store) (actor : Actor) (pid cid : String) : Answer Configuration := do
  let _ ← store.get actor pid
  orFail 404 "Operational record not found" ((store.configurations.get cid).filter (·.projectId = pid))

def task (tasks : Table Task) (pid : String) : Answer Task :=
  orFail 404 "Streamlined project setup not found" (tasks.get pid)

/-- What the owner has accepted. -/
structure Accepted where
  project : Project
  configuration : Configuration
  consent : Consent
  guide : GuideVersion

def Accepted.pins (accepted : Accepted) : Pins where
  configurationId := accepted.configuration.id
  configurationRevision := accepted.configuration.revision
  configurationSha256 := accepted.configuration.sha256
  guideId := accepted.guide.id
  guideSha256 := accepted.guide.contentHash
  consentSha256 := accepted.consent.consentSha256
  limitsRevision := accepted.project.agentLimitsRevision

def Consent.covers (consent : Consent) (project : Project) (configuration : Configuration)
    (guide : GuideVersion) : Bool :=
  consent.allowed && consent.ownerUserId = project.ownerUserId && consent.configurationSha256 =
    configuration.sha256 &&
    consent.configurationRevision = configuration.revision && consent.guideId = guide.id &&
    consent.guideSha256 = guide.contentHash && configuration.guideRef.map GuideVersion.id = some guide.id &&
    configuration.guideRef.map GuideVersion.contentHash = some guide.contentHash

def notAccepted : String := "Accept the current goal and settings before scheduling"

def pins (store : Store) (tasks : Table Task) (actor : Actor) (pid : String) : Answer Accepted := do
  let project ← store.owner actor pid
  let row ← task tasks pid
  let cid ← orFail 409 "Add a domain or website in Websites before scheduling" row.configurationId
  let configuration ← store.browserConfiguration actor pid cid
  let guide ← orFail 409 notAccepted project.currentVersion
  let consent ← orFail 409 notAccepted (store.consents.get configuration.id)
  failIf (!consent.covers project configuration guide) 409 notAccepted
  return { project, configuration, consent, guide }

/-- How far a tick has come. -/
inductive TickStage where
  | scanning
  | claimed (schedule : Schedule) (occurrence : String)
  | starting (occurrence : String)
  | settling (occurrence : String) (code : String)

structure Tick where
  due : List Schedule
  stage : TickStage

/-- A call of `runs.startScheduled`. -/
structure StartCall where
  actorId : String
  projectId : String
  configurationId : String
  projectRevision : Nat
  configurationRevision : Nat
  configurationSha256 : String
  idempotencyKey : String

structure TaskState where
  store : Store
  tasks : Table Task
  schedules : Table Schedule
  occurrences : Table Occurrence
  ticking : Option Tick
  calls : List StartCall

/-- What the deployment and the caller's session have switched on. -/
structure Gates where
  isEnabled : Bool
  verifyControl : Bool
  verifyElevation : Bool

structure ScheduleInput where
  timing : Timing
  taskRevision : Nat
  projectRevision : Nat
  configurationRevision : Nat

/-- `INSERT … ON CONFLICT(id) DO UPDATE`: the project of a stored row stays. -/
def upsertSchedule (schedules : Table Schedule) (row : Schedule) : Table Schedule :=
  match schedules.get row.id with
  | none => schedules.put row
  | some old => schedules.put { row with projectId := old.projectId, revision := old.revision + 1 }

def standing (schedules : Table Schedule) (pid : String) : Option Schedule :=
  schedules.rows.find? fun row => row.projectId = pid ∧ row.state ≠ .deleted

/-- The revision a save expects of the standing schedule. -/
def assertStanding (expected : Option Nat) : Option Schedule → Answer Unit
  | some row => failIf (expected ≠ some row.revision) 412 "The record changed; reload before saving"
  | none => failIf expected.isSome 412 "Schedule changed; refresh to compare"

def saveSchedule (zones : Zones) (state : TaskState) (gates : Gates) (actor : Actor) (pid : String)
    (input : ScheduleInput)
    (expected : Option Nat) (uuid : String) (now : Int) : Answer TaskState := do
  let timing ← scheduleTiming zones input.timing
  failIf (!gates.verifyElevation) 403 "Re-authenticate to accept this setup"
  failIf (!gates.isEnabled) 503 "Browser execution is disabled"
  failIf (!gates.verifyControl) 403 "Verify agent control before authorizing an unattended run"
  let next ← orFail 400 "Choose a future time. That local time may not exist during a daylight-saving change."
    ((zones timing.timezone).bind fun format => nextSchedule format timing now none)
  let accepted ← pins state.store state.tasks actor pid
  let old := standing state.schedules pid
  let row ← task state.tasks pid
  assertRevision input.taskRevision row.revision
  assertRevision input.projectRevision accepted.project.revision
  assertRevision input.configurationRevision accepted.configuration.revision
  assertStanding expected old
  return { state with
    schedules := upsertSchedule state.schedules
      { id := (old.map Schedule.id).getD uuid, projectId := pid, ownerUserId := actor.id,
        revision := 1, state := .enabled,
        timing, nextRunAt := some next, pins := accepted.pins } }

/-- Every write that stops a schedule also raises its revision. -/
def Schedule.stop (row : Schedule) (next : ScheduleState) : Schedule :=
  { row with state := next, revision := row.revision + 1, nextRunAt := none }

def scheduleState (state : TaskState) (actor : Actor) (pid id : String) (expected : Nat) (deletes : Bool) :
    Answer TaskState := do
  let _ ← state.store.owner actor pid
  let row ← orFail 404 "Schedule not found"
    ((state.schedules.get id).filter fun row => row.projectId = pid ∧ row.state ≠ .deleted)
  assertRevision expected row.revision
  return { state with schedules := state.schedules.put (row.stop (if deletes then .deleted else .paused)) }

def Schedule.pausedBy (pid : String) (row : Schedule) : Schedule :=
  if row.projectId = pid ∧ row.state ≠ .deleted then row.stop .paused else row

theorem Schedule.pausedBy_id (pid : String) (row : Schedule) : (row.pausedBy pid).id = row.id := by
  unfold pausedBy
  split <;> rfl

structure EditInput where
  projectRevision : Nat
  configurationRevision : Option Nat

/-- The configuration of a task, if it has one. -/
def Store.taskConfiguration (store : Store) (actor : Actor) (pid : String) :
    Option String → Answer (Option Configuration)
  | none => .ok none
  | some cid => some <$> store.browserConfiguration actor pid cid

/-- `edit`, with what `save` leaves in the store and the configuration it saved. -/
def edit (state : TaskState) (gates : Gates) (actor : Actor) (pid : String) (expected : Nat) (input : EditInput)
    (saved : Store) (configurationId : Option String) : Answer TaskState := do
  failIf (!gates.verifyElevation) 403 "Re-authenticate to accept this setup"
  let project ← state.store.owner actor pid
  let row ← task state.tasks pid
  assertRevision expected row.revision
  assertRevision input.projectRevision project.revision
  let configuration ← state.store.taskConfiguration actor pid row.configurationId
  failIf (configuration.map Configuration.revision ≠ input.configurationRevision) 412
    "Agent settings changed; refresh to compare before saving"
  failIf (state.store.activeRuns.contains pid) 409 "Stop the active run before changing its goal or settings"
  return { state with
    store := saved
    tasks := state.tasks.put { row with configurationId, revision := row.revision + 1 }
    schedules := state.schedules.map (Schedule.pausedBy pid) (Schedule.pausedBy_id pid) }

/-- `create`, with what its store calls leave; a task that exists is answered again. -/
def create (state : TaskState) (pid : String) (saved : Store) (configurationId : Option String) : TaskState :=
  match state.tasks.get pid with
  | some _ => state
  | none =>
    { state with store := saved, tasks := state.tasks.put { projectId := pid, configurationId, revision := 1 } }

def verifyScheduledAuthority (state : TaskState) (enabled : Bool) (actor : Actor) (pid cid : String) : Bool :=
  match actor.scheduleOccurrenceId with
  | none => false
  | some oid =>
    match state.occurrences.get oid with
    | none => false
    | some occurrence =>
      match state.schedules.get occurrence.scheduleId with
      | none => false
      | some row =>
        if !enabled || actor.jti.isSome || row.state ≠ .enabled || row.revision ≠ occurrence.scheduleRevision ||
            row.projectId ≠ pid || row.pins.configurationId ≠ cid || row.ownerUserId ≠ actor.id ||
            !([OccurrenceState.starting, .started].contains occurrence.state) then false
        else
          match pins state.store state.tasks ⟨actor.id, false, true, none, false, false, none⟩ pid with
          | .error _ => false
          | .ok accepted =>
            accepted.project.agentLimitsRevision = row.pins.limitsRevision &&
              accepted.configuration.revision = row.pins.configurationRevision &&
              accepted.configuration.sha256 = row.pins.configurationSha256 && accepted.guide.id =
                row.pins.guideId &&
              accepted.guide.contentHash = row.pins.guideSha256 &&
              accepted.consent.consentSha256 = row.pins.consentSha256

/-- `… WHERE state='enabled' AND next_run_at<=? ORDER BY next_run_at LIMIT 20`. -/
def dueSchedules (schedules : Table Schedule) (now : Int) : List Schedule :=
  ((schedules.rows.filter fun row => row.state = .enabled && row.nextRunAt.any (· ≤ now)).insertionSort
    fun left right => left.nextRunAt.getD 0 ≤ right.nextRunAt.getD 0).take 20

def beginTick (state : TaskState) (enabled : Bool) (now : Int) : TaskState :=
  if state.ticking.isSome || !enabled then state
  else { state with ticking := some ⟨dueSchedules state.schedules now, .scanning⟩ }

/-- `INSERT OR IGNORE`, under the primary key and `UNIQUE(schedule_id,local_key)`. -/
def insertOccurrence (occurrences : Table Occurrence) (row : Occurrence) : Option (Table Occurrence) :=
  if (occurrences.get row.id).isSome ||
      occurrences.rows.any (fun old => old.scheduleId = row.scheduleId && old.localKey = row.localKey) then none
  else some (occurrences.put row)

/-- The occurrence of a due schedule is inserted and its next run set. -/
def insertDue (zones : Zones) (state : TaskState) (current s : Schedule) (rest : List Schedule) (uuid : String)
    (now : Int) : Option TaskState := do
  let dueAt ← s.nextRunAt
  let format ← zones s.timing.timezone
  let key := occurrenceKey format dueAt
  let occurrenceState : OccurrenceState :=
    if dueAt < now - 300000 then .missed else if !state.store.activeRuns.isEmpty then .overlap else .starting
  let inserted := insertOccurrence state.occurrences
    { id := uuid, scheduleId := s.id, scheduleRevision := s.revision, dueAt, localKey := key,
      state := occurrenceState,
      runId := none, resultCode := none }
  let nextRunAt := if s.timing.frequency = .once then none else nextSchedule format s.timing now (some key)
  return { state with
    schedules := state.schedules.put { current with nextRunAt }
    occurrences := inserted.getD state.occurrences
    ticking := some ⟨rest, if inserted.isSome ∧ occurrenceState = .starting then .claimed s uuid else .scanning⟩ }

/-- The transaction a tick opens for the due schedule `s`; it throws when the
schedule's row or timezone is gone. -/
def claimOccurrence (zones : Zones) (state : TaskState) (s : Schedule) (rest : List Schedule)
    (uuid : String) (now : Int) :
    Option TaskState :=
  (state.schedules.get s.id).bind fun current =>
    if current.state ≠ .enabled || current.nextRunAt ≠ s.nextRunAt || current.revision ≠ s.revision then
      some { state with ticking := some ⟨rest, .scanning⟩ }
    else insertDue zones state current s rest uuid now

def scan (zones : Zones) (state : TaskState) (due : List Schedule) (uuid : String) (now : Int) : TaskState :=
  match due with
  | [] => { state with ticking := none }
  | s :: rest => (claimOccurrence zones state s rest uuid now).getD { state with ticking := none }

def updateOccurrence (occurrences : Table Occurrence) (id : String)
    (change : Occurrence → Occurrence) : Table Occurrence :=
  match occurrences.get id with
  | none => occurrences
  | some row => occurrences.put (change row)

/-- `UPDATE … SET state='paused' … WHERE id=? AND revision=?`. -/
def pauseAt (schedules : Table Schedule) (id : String) (revision : Nat) : Table Schedule :=
  match (schedules.get id).filter (·.revision = revision) with
  | none => schedules
  | some row => schedules.put (row.stop .paused)

/-- A tick verifies the authority of the occurrence it claimed and calls
`runs.startScheduled`, up to its `await`. -/
def startOccurrence (state : TaskState) (enabled : Bool) (due : List Schedule) (s : Schedule)
    (id : String) : TaskState :=
  let actor : Actor := ⟨s.ownerUserId, false, true, none, false, false, some id⟩
  if !verifyScheduledAuthority state enabled actor s.projectId s.pins.configurationId then
    { state with
      schedules := pauseAt state.schedules s.id s.revision
      ticking := some ⟨due, .settling id "SCHEDULE_SETUP_CHANGED"⟩ }
  else
    match state.store.get actor s.projectId with
    | .error _ => { state with ticking := some ⟨due, .settling id "SCHEDULE_START_REFUSED"⟩ }
    | .ok (project, _) =>
      { state with
        ticking := some ⟨due, .starting id⟩
        calls := state.calls ++
          [{ actorId := actor.id, projectId := s.projectId, configurationId := s.pins.configurationId,
             projectRevision := project.revision, configurationRevision := s.pins.configurationRevision,
             configurationSha256 := s.pins.configurationSha256, idempotencyKey := id }] }

def Occurrence.block (code : String) (row : Occurrence) : Occurrence :=
  { row with state := .blocked, resultCode := some code }

/-- `runs.startScheduled` answers with a run or throws a code. -/
def settleStart (state : TaskState) (due : List Schedule) (id : String)
    (answer : Except (Option String) String) : TaskState :=
  { state with
    occurrences := updateOccurrence state.occurrences id fun row =>
      match answer with
      | .ok run => { row with state := .started, runId := some run }
      | .error code => row.block (code.getD "SCHEDULE_START_REFUSED")
    ticking := some ⟨due, .scanning⟩ }

def Occurrence.interrupt (row : Occurrence) : Occurrence :=
  if row.state = .starting
    then { row with state := .interrupted, resultCode := some "PROCESS_RECOVERY_NO_REPLAY" } else row

theorem Occurrence.interrupt_id (row : Occurrence) : row.interrupt.id = row.id := by
  unfold interrupt
  split <;> rfl

def recover (state : TaskState) : TaskState :=
  { state with occurrences := state.occurrences.map Occurrence.interrupt Occurrence.interrupt_id }

inductive TaskLabel where
  | store (written : Store)
  | create (pid : String) (saved : Store) (configurationId : Option String)
  | edit (gates : Gates) (actor : Actor) (pid : String) (expected : Nat) (input : EditInput) (saved : Store)
      (configurationId : Option String)
  | saveSchedule (gates : Gates) (actor : Actor) (pid : String) (input : ScheduleInput) (expected : Option Nat)
      (uuid : String) (now : Int)
  | scheduleState (actor : Actor) (pid id : String) (expected : Nat) (deletes : Bool)
  | tick (enabled : Bool) (now : Int)
  | claim (uuid : String) (now : Int)
  | start (enabled : Bool)
  | settle (answer : Except (Option String) String)
  | crash
  | recover

/-- A refused request leaves the state unchanged. -/
def TaskState.after (state : TaskState) : Answer TaskState → TaskState
  | .ok next => next
  | .error _ => state

def taskStep (zones : Zones) (state : TaskState) : TaskLabel → Option TaskState
  | .store written => some { state with store := written }
  | .create pid saved configurationId => some (create state pid saved configurationId)
  | .edit gates actor pid expected input saved configurationId =>
    some (state.after (edit state gates actor pid expected input saved configurationId))
  | .saveSchedule gates actor pid input expected uuid now =>
    -- `randomUUID` is fresh
    if (state.schedules.get uuid).isSome then none
    else some (state.after (saveSchedule zones state gates actor pid input expected uuid now))
  | .scheduleState actor pid id expected deletes =>
    some (state.after (scheduleState state actor pid id expected deletes))
  | .tick enabled now => some (beginTick state enabled now)
  | .claim uuid now =>
    match state.ticking with
    | some ⟨due, .scanning⟩ => some (scan zones state due uuid now)
    | _ => none
  | .start enabled =>
    match state.ticking with
    | some ⟨due, .claimed s id⟩ => some (startOccurrence state enabled due s id)
    | _ => none
  | .settle answer =>
    match state.ticking with
    | some ⟨due, .starting id⟩ => some (settleStart state due id answer)
    | some ⟨due, .settling id code⟩ => some (settleStart state due id (.error (some code)))
    | _ => none
  | .crash => some { state with ticking := none }
  | .recover => some (recover state)

/-- Each transaction of a tick is a step of its own, so a crash or another request
may fall between any two. -/
def projectTasks (zones : Zones) : System TaskState TaskLabel where
  initial := fun state =>
    ∃ store, state = { store, tasks := ∅, schedules := ∅, occurrences := ∅, ticking := none, calls := [] }
  step := taskStep zones

end ProxyPilot.Projects
