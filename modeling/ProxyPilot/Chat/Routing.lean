import ProxyPilot.Chat.Tasks
import ProxyPilot.Effects.Trace

namespace ProxyPilot.Chat

open Data Effects

/-! # Routing a message (`task-sync.js`)

Every call to a dependency is an entry of the log. What it answers, or that it throws, may
differ from call to call.
-/

structure TaskList where
  rows : List Task
  ids : (rows.map Task.id).Nodup
  keys : (rows.filterMap Task.key).Nodup

structure QueueRow where
  id : Nat
  status : String
  /-- `continuationRun(instruction) > 0`. -/
  continuation : Bool

inductive RetryStatus where
  | error
  | refused
  | started

structure RetryResult where
  status : RetryStatus
  error : Option String
  cycle : Option Cycle

structure AskResult where
  failed : Bool
  error : Option String
  taskId : Option Nat

structure InterruptResult where
  ok : Bool
  status : Option Nat
  error : Option String

inductive Dependency where
  | loadDeps
  | listTasks
  | latestCycle
  | getAskJobStatus
  | listBuildQueue
  | getCycle (id : Nat)
  | getTask (id : Nat)
  | getTaskByKey (key : String)
  | recordTaskStep (taskId : Nat) (step : String)
  | scheduleTaskFilesSync
  | insertMessage (kind : String) (body : String)
  | logAudit (action : String)

inductive Event where
  | called (dependency : Dependency)
  /-- `task` is the one the cycle was looked up for. -/
  | retryCycle (task : Annotated) (cycle : Cycle) (message : List Char)
  | startAsk (question : String) (task : Option Annotated)
  | requestCycleInterrupt (cycle : Cycle)
  | cancelQueuedBuild (row : Nat)
  /-- `updateTask` with the status `stopped`. -/
  | markStopped (taskId : Nat)
  | rememberStop (taskId : Nat)

/-- Calls that start something on the person's behalf. -/
def Event.starts : Event → Bool
  | .retryCycle .. | .startAsk .. | .requestCycleInterrupt _ | .markStopped _ => true
  | _ => false

/-- The answers to the n-th call of the message. -/
structure World where
  unicode : Unicode
  nowMs : Int
  /-- `sanitizeTaskText`: redacted, and clipped to a length. -/
  sanitize : Nat → String → String
  listTasks : Nat → Except String TaskList
  latestCycle : Nat → Except String (Option Cycle)
  getAskJobStatus : Nat → Except String (Option AskJob)
  listBuildQueue : Nat → Except String (List QueueRow)
  getCycle : Nat → Nat → Except String (Option Cycle)
  getTask : Nat → Nat → Except String (Option Task)
  getTaskByKey : Nat → String → Except String (Option Task)
  retryCycle : Nat → Except String (Option RetryResult)
  startAsk : Nat → Except String (Option AskResult)
  requestCycleInterrupt : Nat → Except String (Option InterruptResult)
  cancelQueuedBuild : Nat → Except String Bool
  /-- `loadDeps`, and calls that return nothing that is read. -/
  effect : Nat → Except String Unit

abbrev Act := EStateM String (List Event)

def perform (event : Event) (answer : Nat → Except String α) : Act α := fun log =>
  match answer log.length with
  | .ok result => .ok result (log ++ [event])
  | .error message => .error message (log ++ [event])

def call (dependency : Dependency) (answer : Nat → Except String α) : Act α := perform (.called dependency) answer

def attempt (program : Act α) (otherwise : α) : Act α := tryCatch program fun _ => pure otherwise

variable (w : World)

def continuationQueuedFor : Act Bool :=
  attempt ((call .listBuildQueue w.listBuildQueue).map fun rows =>
    rows.any fun row => (row.status == "queued" || row.status == "started") && row.continuation) false

def continuationQueued (pending : Bool) : Act Bool := if pending then continuationQueuedFor w else pure false

def lastCycleFor (liveCycle : Option Cycle) (task : Task) : Act (Option Cycle) :=
  match task.intent, task.lastCycleId with
  | .build, some id =>
    match liveCycle.filter fun cycle => cycle.id == id with
    | some live => pure (some live)
    | none => attempt (call (.getCycle id) (w.getCycle · id)) none
  | _, _ => pure none

def annotateAll (s : Surroundings) : List Task → Act (List Annotated)
  | [] => pure []
  | task :: rest => do
    let lastCycle ← lastCycleFor w s.liveCycle task
    let others ← annotateAll s rest
    pure (annotateTask task lastCycle s :: others)

def newestActiveInvestigation (tasks : List Task) : Option Nat :=
  (tasks.find? fun task => task.intent == .investigation && task.status == .active).map Task.id

def annotatedTasks : Act (List Annotated) := do
  let tasks ← call .listTasks w.listTasks
  if tasks.rows.isEmpty then pure []
  else
    let liveCycle ← call .latestCycle w.latestCycle
    let askJob ← attempt (call .getAskJobStatus w.getAskJobStatus) none
    let queued ← continuationQueued w (tasks.rows.any Task.continuationPending)
    annotateAll w ⟨liveCycle, askJob, queued, newestActiveInvestigation tasks.rows⟩ tasks.rows

/-- Unlike in the list, an error while the last cycle is read goes on. -/
def lastCycleOf (liveCycle : Option Cycle) (task : Task) : Act (Option Cycle) :=
  match task.intent, task.lastCycleId with
  | .build, some id =>
    match liveCycle.filter fun cycle => cycle.id == id with
    | some live => pure (some live)
    | none => call (.getCycle id) (w.getCycle · id)
  | _, _ => pure none

def annotateOne (task : Option Task) : Act (Option Annotated) :=
  match task with
  | none => pure none
  | some task => do
    let liveCycle ← call .latestCycle w.latestCycle
    let askJob ← attempt (call .getAskJobStatus w.getAskJobStatus) none
    let lastCycle ← lastCycleOf w liveCycle task
    let queued ← continuationQueued w task.continuationPending
    pure (some (annotateTask task lastCycle ⟨liveCycle, askJob, queued, none⟩))

def annotateFound (taskId : Nat) : Act (Option Annotated) := do
  let task ← call (.getTask taskId) (w.getTask · taskId)
  annotateOne w task

def slugChar (c : Char) : Bool := c.isDigit || decide ('a' ≤ c ∧ c ≤ 'z')

/-- `TASK_KEY_RE`. -/
def isValidTaskKey (key : List Char) : Bool :=
  match key with
  | 't' :: rest =>
    let digits := rest.takeWhile Char.isDigit
    match rest.dropWhile Char.isDigit with
    | '-' :: slug =>
      decide (1 ≤ digits.length ∧ digits.length ≤ 10 ∧ 1 ≤ slug.length ∧ slug.length ≤ 40) &&
        slug.all (fun c => slugChar c || c == '-') && slug.head?.any slugChar && slug.getLast?.any slugChar
    | _ => false
  | _ => false

def getAnnotatedTaskByKey (key : String) : Act (Option Annotated) :=
  if isValidTaskKey key.toList then do
    let task ← call (.getTaskByKey key) (w.getTaskByKey · key)
    match task with
    | none => pure none
    | some task => do
      let all ← annotatedTasks w
      pure (some ((all.find? fun other => other.id == task.id).getD (annotateTask task none .none)))
  else pure none

def World.oneLine (text : String) (max : Nat) : String := w.sanitize max (String.ofList (oneSpace text.toList))

def orElse (text other : String) : String := if text = "" then other else text

def World.buildInvestigationContinuation (task : Annotated) (guidance : List Char) : String :=
  let excerpt := (task.answerExcerpt.map (w.sanitize 2500)).getD ""
  let now := w.sanitize maxGuidanceChars (String.ofList guidance)
  "\n\n".intercalate
    ((["Continue the earlier investigation: " ++ orElse (w.oneLine task.goal 500) "(no goal recorded)",
    "What was found so far:\n" ++ orElse excerpt "(nothing was recorded before it stopped)",
    if now = "" then "" else "Now: " ++ now,
    "This is a read-only investigation: answer and propose; do not change code."]).filter (· ≠ ""))

def World.routedNote (action : Action) (task : Option Annotated) : String :=
  let goal := orElse (w.oneLine ((task.map fun task => task.goal).getD "") 80) "the task"
  match action with
  | .resumeBuild => "Resuming build: " ++ goal
  | .attach => "Already running: " ++ goal ++ " — showing its progress"
  | .continueInvestigation => "Continuing investigation: " ++ goal
  | .investigate => "Answering without changing anything"
  | .stopBuild => "Stopping the build after its current step: " ++ goal
  | .stopTask => "Stopped: " ++ goal
  | .nothingToStop =>
    if task.any fun task => task.live && task.intent == .investigation then
      "Nothing to stop — the answer to \"" ++ goal ++ "\" is already being written, and it changes nothing."
    else "Nothing is running to stop."
  | .answerRequired => goal ++ " is waiting for your answers before it can continue."
  | .pass => ""

/-- What an action came to; `error` where it was refused. -/
inductive Acted where
  | done (note : Option String) (taskId : Option Nat)
  | error (status : Nat) (text : String)

def resumeCycle (projectId : Nat) (task : Annotated) (cycle : Option Cycle) (guidance : List Char) : Act Acted :=
  match cycle.filter fun cycle => cycle.projectId == projectId with
  | none => pure (.error 409 "This build has no segment to resume.")
  | some cycle => do
    let res ← perform (.retryCycle task cycle (sliceUnits 4000 guidance)) w.retryCycle
    match res with
    | some ⟨.started, _, _⟩ => pure (.done none (some task.id))
    | some ⟨.refused, reason, _⟩ =>
      pure (.done (some ("Not resumed: " ++ reason.getD "the build was refused")) (some task.id))
    | some ⟨.error, reason, _⟩ => pure (.error 409 (reason.getD "The build could not be resumed."))
    | none => pure (.error 409 "The build could not be resumed.")

def cycleToResume (task : Annotated) : Act (Option Cycle) :=
  match task.lastCycleId with
  | some id => call (.getCycle id) (w.getCycle · id)
  | none => pure none

def resumeBuild (projectId : Nat) (task : Annotated) (guidance : List Char) : Act Acted :=
  if task.intent ≠ .build then pure (.error 409 "Only a build can be resumed as a build.")
  else if task.live then pure (.error 409 "This build is already running.")
  else if task.canResume = false then
    pure (.error 409 "This build cannot be resumed from here — answer its open questions or start it again.")
  else do
    let cycle ← cycleToResume w task
    resumeCycle w projectId task cycle guidance

def runInvestigation (question : String) (task : Option Annotated) : Act Acted := do
  let res ← perform (.startAsk question task) w.startAsk
  match res with
  | some ⟨false, _, taskId⟩ => pure (.done none (taskId <|> task.map fun task => task.id))
  | some ⟨true, reason, _⟩ => pure (.error 409 (reason.getD "The question could not start."))
  | none => pure (.error 409 "The question could not start.")

def cancelContinuation (task : Annotated) (row : QueueRow) : Act Acted := do
  let cancelled ← perform (.cancelQueuedBuild row.id) w.cancelQueuedBuild
  if cancelled then do
    perform (.markStopped task.id) w.effect
    call (.recordTaskStep task.id "Queued continuation cancelled by a person") w.effect
    call .scheduleTaskFilesSync w.effect
    pure (.done none (some task.id))
  else pure (.error 409 "The continuation is starting right now — stop it again in a moment.")

def stopWaiting (task : Annotated) : Act Acted :=
  if task.continuationPending then do
    let rows ← call .listBuildQueue w.listBuildQueue
    match rows.find? fun row => row.status == "queued" && row.continuation with
    | some row => cancelContinuation w task row
    | none => pure (.error 409 "The continuation is starting right now — stop it again in a moment.")
  else pure (.error 409 "This build is not running.")

def interruptCycle (task : Annotated) (live : Cycle) : Act Acted := do
  let r ← perform (.requestCycleInterrupt live) w.requestCycleInterrupt
  match r with
  | some ⟨true, _, _⟩ => do
    call (.logAudit "MOCK2_CYCLE_INTERRUPT") w.effect
    perform (.rememberStop task.id) w.effect
    call (.recordTaskStep task.id "Stop requested — the build stops after its current step") w.effect
    pure (.done none (some task.id))
  | some ⟨false, status, reason⟩ => pure (.error (status.getD 409) (reason.getD "The build could not be stopped."))
  | none => pure (.error 409 "The build could not be stopped.")

def stopBuild (task : Annotated) : Act Acted := do
  let live ← call .latestCycle w.latestCycle
  match live.filter fun cycle => cycle.status.live && cycle.requestId == task.requestId with
  | none => stopWaiting w task
  | some live =>
    if live.stage ≠ "build"
      then pure (.error 409 "The build is still being prepared (rules check) — stop it once it has started.")
    else if live.status ≠ .running then pure (.error 409 "The build is still starting — stop it again in a moment.")
    else interruptCycle w task live

def stopIdle (task : Annotated) : Act Unit := do
  perform (.markStopped task.id) w.effect
  call (.recordTaskStep task.id "Stopped by a person") w.effect
  call .scheduleTaskFilesSync w.effect

structure Message where
  projectId : Nat
  message : List Char
  said : Option (List Char)
  lane : Lane
  images : Nat

def Message.words (m : Message) : List Char :=
  let said := trim (m.said.getD [])
  if said.isEmpty then personWords m.message else said

inductive Reply where
  | passed
  | routed (status : Nat) (action : Action) (task : Option Annotated) (note : String)
  | error (status : Nat) (text : String)

/-- `handled: true`. -/
def Reply.handled : Reply → Bool
  | .passed => false
  | _ => true

def freshOf (taskId : Option Nat) : Act (Option Annotated) :=
  match taskId with
  | some id => annotateFound w id
  | none => pure none

def noteAndAudit (text : String) (action : String) : Act Unit := do
  attempt (call (.insertMessage "system" text) w.effect) ()
  attempt (call (.logAudit action) w.effect) ()

def echoWords (m : Message) (echo : Bool) : Act Unit :=
  if echo then attempt (call (.insertMessage "user" (String.ofList m.words)) w.effect) () else pure ()

/-- The person's message is echoed and the note posted; nothing of it can throw. -/
def answer (m : Message) (action : Action) (task : Option Annotated) (status : Nat) (echo : Bool)
    (taskId : Option Nat) (note : Option String) : Act Reply := do
  let fresh ← attempt (freshOf w taskId) none
  let text := note.getD (w.routedNote action (fresh <|> task))
  echoWords w m echo
  noteAndAudit w text "MOCK2_TASK_ROUTED"
  pure (.routed status action (fresh <|> task) text)

structure Admission where
  route : Route
  tasks : List Annotated

/-- Whether the route needs the ordinary lane after all: a screenshot cannot ride a resume. -/
def Message.passes (m : Message) (route : Route) : Bool :=
  route.action == .pass || (route.action == .resumeBuild && m.images != 0)

def World.route (m : Message) (tasks : List Annotated) : Route :=
  resolveTaskRoute (w.unicode.classifyContinuationMessage m.words) m.lane tasks w.nowMs

def World.routed (m : Message) (tasks : List Annotated) : Option Admission :=
  if m.passes (w.route m tasks) then none else some ⟨w.route m tasks, tasks⟩

/-- What is decided before anything starts. -/
def admission (m : Message) : Act (Option Admission) := do
  call .loadDeps w.effect
  let tasks ← annotatedTasks w
  pure (w.routed m tasks)

def finish (m : Message) (action : Action) (task : Option Annotated) (status : Nat) (echo : Bool)
    (acted : Acted) : Act Reply :=
  match acted with
  | .error status text => pure (.error status text)
  | .done note taskId => answer w m action task (if note.isSome then 200 else status) echo taskId note

/-- The task of the route, found again by its key. -/
def Admission.task (a : Admission) : Option Annotated :=
  (a.route.task.bind fun task => task.key).bind fun key => a.tasks.find? fun other => other.key == some key

def withTask (a : Admission) (program : Annotated → Act Reply) : Act Reply :=
  match a.task with
  | some task => program task
  | none => pure .passed

def dispatch (m : Message) (a : Admission) : Act Reply :=
  match a.route.action with
  | .attach | .answerRequired | .nothingToStop =>
    answer w m a.route.action a.task 200 true (a.task.map fun task => task.id) none
  | .stopTask => withTask a fun task => do
    stopIdle w task
    answer w m .stopTask (some task) 200 true (some task.id) none
  | .stopBuild => withTask a fun task => do
    let acted ← stopBuild w task
    finish w m .stopBuild (some task) 200 true acted
  | .resumeBuild => withTask a fun task => do
    let acted ← resumeBuild w m.projectId task (trim a.route.guidance)
    finish w m .resumeBuild (some task) 202 true acted
  | .continueInvestigation => withTask a fun task => do
    let acted ← runInvestigation w (w.buildInvestigationContinuation task (trim a.route.guidance)) (some task)
    finish w m .continueInvestigation (some task) 202 false acted
  | .investigate => do
    let acted ← runInvestigation w (String.ofList m.words) none
    finish w m .investigate none 202 false acted
  | .pass => pure .passed

def recoveryUnavailable : String :=
  "Task recovery is temporarily unavailable. No task was started; retry after it recovers."

def decided (m : Message) (admitted : Option (Option Admission)) : Act Reply :=
  match admitted with
  | none => pure (.error 503 recoveryUnavailable)
  | some none => pure .passed
  | some (some a) =>
    tryCatch (dispatch w m a) fun message =>
      pure (.error 500 ("Could not " ++ a.route.action.text ++ ": " ++ message))

/-- A message of continue, stop or explain only. -/
def Message.recognized (m : Message) : Bool :=
  !m.words.isEmpty && (w.unicode.classifyContinuationMessage m.words).kind != .other

def routeChatMessage (m : Message) : Act Reply :=
  if m.recognized w then do
    let admitted ← attempt (some <$> admission w m) none
    decided w m admitted
  else pure .passed

structure ByKey where
  projectId : Nat
  key : String
  message : List Char

def stopFound (task : Annotated) : Act (Action × Acted) :=
  if task.intent = .investigation ∧ task.live then
    pure (.stopTask, .error 409 "This read-only answer is still being written and cannot be interrupted.")
  else if task.intent = .build ∧ task.live then do
    let acted ← stopBuild w task
    pure (.stopBuild, acted)
  else if task.status.unfinished || task.live then do
    stopIdle w task
    pure (.stopTask, .done none (some task.id))
  else pure (.stopTask, .error 409 ("This task is already " ++ task.status.text ++ "."))

def stopTaskByKey (r : ByKey) : Act Reply := do
  let task ← getAnnotatedTaskByKey w r.key
  match task with
  | none => pure (.error 404 "Task not found")
  | some task => do
    let (action, acted) ← stopFound w task
    match acted with
    | .error status text => pure (.error status text)
    | .done _ _ => do
      let fresh ← freshOf w (some task.id)
      let text := w.routedNote action (fresh <|> some task)
      noteAndAudit w text "MOCK2_TASK_STOP"
      pure (.routed 200 action (fresh <|> some task) text)

def explainTask (task : Annotated) (guidance : List Char) : Act Reply := do
  let acted ← runInvestigation w (String.ofList guidance ++
      "\n\nExisting task context (read only): " ++ w.sanitize 500 task.goal) none
  match acted with
  | .error status text => pure (.error status text)
  | .done _ taskId => do
    let fresh ← freshOf w taskId
    let text := w.routedNote .investigate (fresh <|> some task)
    noteAndAudit w text "MOCK2_TASK_EXPLAIN"
    pure (.routed 202 .investigate fresh text)

def resumeFound (projectId : Nat) (task : Annotated) (guidance : List Char) : Act (Action × Acted) :=
  match task.intent with
  | .build => do
    let acted ← resumeBuild w projectId task guidance
    pure (.resumeBuild, acted)
  | .investigation =>
    if task.live then pure (.continueInvestigation, .error 409 "This investigation is still running.")
    else if task.status = .completed ∧ guidance.isEmpty then
      pure (.continueInvestigation, .error 409 "This investigation is complete — ask a follow-up question instead.")
    else do
      let acted ← runInvestigation w (w.buildInvestigationContinuation task guidance) (some task)
      pure (.continueInvestigation, acted)

def echoGuidance (task : Annotated) (guidance : List Char) : Act Unit :=
  if task.intent = .build ∧ guidance ≠ []
    then attempt (call (.insertMessage "user" (String.ofList guidance)) w.effect) () else pure ()

def resumeTask (r : ByKey) (task : Annotated) (guidance : List Char) : Act Reply := do
  let (action, acted) ← resumeFound w r.projectId task guidance
  match acted with
  | .error status text => pure (.error status text)
  | .done note taskId => do
    let fresh ← freshOf w (some (taskId.getD task.id))
    let text := note.getD (w.routedNote action (fresh <|> some task))
    echoGuidance w task guidance
    noteAndAudit w text "MOCK2_TASK_RESUME"
    pure (.routed (if note.isSome then 200 else 202) action (fresh <|> some task) text)

def resumeTaskByKey (r : ByKey) : Act Reply := do
  call .loadDeps w.effect
  let task ← getAnnotatedTaskByKey w r.key
  match task with
  | none => pure (.error 404 "Task not found")
  | some task =>
    match (w.unicode.classifyContinuationMessage (trim r.message)).kind with
    | .stop => stopTaskByKey w r
    | .explainOnly => explainTask w task (trim r.message)
    | _ => resumeTask w r task (trim r.message)

end ProxyPilot.Chat
