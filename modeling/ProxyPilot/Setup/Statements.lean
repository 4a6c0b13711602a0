import ProxyPilot.Setup.Records
import Mathlib.Data.List.Sort

namespace ProxyPilot.Setup

open Data

/-! # Statements of the setup engine (`setup-engine/store.js`, `logic.js`)

A function that reads a row and writes it in a separate statement is split where
it reads: what it writes takes the row read. Each write also says what it
changed.
-/

/-- The key a worker's writes on a job carry. -/
structure Fence where
  id : String
  owner : String
  epoch : Nat
deriving DecidableEq

/-- The write a fenced function of a worker makes. -/
inductive WorkerCall where
  | heartbeat | checkpoint | recordProgress | finishJob
  | recordGenerated (entry : Json)

/-- The function a change of a job row comes from. -/
inductive Writer where
  | createJob
  | startJob (owner : String)
  | claimNextJob (owner : String)
  | worker (fence : Fence) (call : WorkerCall)
  | requeueJob | recordJobOutcome | cancelQueuedJob | requestCancel
  | annotateTerminalOutcome
  | annotateJobProgress

/-- The function a change of a lock row comes from. -/
inductive LockWriter where
  | acquireLock (jobId : Option String)
  | takeoverLock (jobId : Option String)
  | renewLock | markLockStale | holdStaleLock
  | releaseLock (owner : String) (epoch : Nat)
  | clearStaleLock

/-- A row a statement inserted, updated or deleted; of a job row also the
`progress` fields the statement set or removed. -/
inductive Change where
  | job (writer : Writer) (names : List String) (old : Option JobRow) (new : JobRow)
  | lock (writer : LockWriter) (app : String) (old new : Option LockRow)

abbrev Written := Db × List Change

/-- `UPDATE setup_jobs SET … WHERE id = ? AND …`. -/
def Db.updateJob (db : Db) (writer : Writer) (names : List String) (id : String) (allowed : JobRow → Bool)
    (change : JobRow → JobRow) : Written :=
  match db.jobs.get id with
  | none => (db, [])
  | some row =>
    if allowed row then
      ({ db with jobs := db.jobs.put (change row) }, [.job writer names (some row) (change row)])
    else (db, [])

def DEFAULT_LEASE_MS : Int := 30000

def leaseExpiry (now : Time) (leaseMs : Int) : Time :=
  now + max 1000 (if leaseMs = 0 then DEFAULT_LEASE_MS else leaseMs)

def LockRow.leaseExpired (lock : LockRow) (now : Time) : Bool := lock.leaseExpiresAt ≤ now

inductive Verdict where
  | free | reasserted | held | stale

def lockVerdict (lock : Option LockRow) (owner : String) (now : Time) : Verdict :=
  match lock with
  | none => .free
  | some lock =>
    if lock.owner = owner then .reasserted
    else if lock.leaseExpired now then .stale
    else .held

def LIFECYCLE_JOB_KINDS : List String :=
  ["instance_create", "instance_start", "instance_stop", "instance_restart", "instance_delete",
   "snapshot_create", "snapshot_delete"]

def SETUP_JOB_KINDS : List String := ["guest_setup"]

def APPLICATION_JOB_KINDS : List String :=
  ["application_validate", "application_deploy", "application_verify", "application_rollback"]

/-- The condition only `acknowledgeUncertainJob` resolves. -/
def JobRow.unresolved (job : JobRow) : Bool :=
  (LIFECYCLE_JOB_KINDS.contains job.kind && job.status = .recoveryRequired &&
      job.outcome = some "interrupted_uncertain") ||
    (SETUP_JOB_KINDS.contains job.kind && job.status = .recoveryRequired && job.outcome = some "init_uncertain")

def JobRow.disruptive (job : JobRow) : Bool := (job.checkpoint.value "disruptive").any Json.truthy

def leaseHold (lock : Option LockRow) (recordingJob : Option JobRow) : Bool :=
  match lock with
  | none => false
  | some lock =>
    lock.staleSince.isSome && lock.recoveryJobId.any (· ≠ "") &&
      match recordingJob with
      | none => false
      | some job =>
        lock.recoveryJobId = some job.id &&
          (job.unresolved ||
            (APPLICATION_JOB_KINDS.contains job.kind &&
              [.queued, .running, .recoveryRequired].contains job.status && job.disruptive))

def acquireLock (db : Db) (app owner operation : String) (jobId : Option String) (leaseMs : Int) (now : Time) :
    Written :=
  match lockVerdict (db.locks.get app) owner now, db.locks.get app with
  | .free, _ =>
    let row : LockRow :=
      { app, owner, operation, jobId, epoch := 1, acquiredAt := now, leaseExpiresAt := leaseExpiry now leaseMs,
        staleSince := none, recoveryJobId := none }
    ({ db with locks := db.locks.put row }, [.lock (.acquireLock jobId) app none (some row)])
  | .reasserted, some lock =>
    let row := { lock with operation, jobId, leaseExpiresAt := leaseExpiry now leaseMs, staleSince := none }
    ({ db with locks := db.locks.put row }, [.lock (.acquireLock jobId) app (some lock) (some row)])
  | _, _ => (db, [])

def renewLock (db : Db) (app owner : String) (epoch : Nat) (leaseMs : Int) (now : Time) : Written :=
  match db.locks.get app with
  | none => (db, [])
  | some lock =>
    if lock.owner = owner ∧ lock.epoch = epoch then
      let row := { lock with leaseExpiresAt := leaseExpiry now leaseMs }
      ({ db with locks := db.locks.put row }, [.lock .renewLock app (some lock) (some row)])
    else (db, [])

def releaseLock (db : Db) (app owner : String) (epoch : Nat) : Written :=
  match db.locks.get app with
  | none => (db, [])
  | some lock =>
    if lock.owner = owner ∧ lock.epoch = epoch then
      ({ db with locks := db.locks.erase app }, [.lock (.releaseLock owner epoch) app (some lock) none])
    else (db, [])

def takeoverLock (db : Db) (app taker operation : String) (jobId : Option String) (leaseMs : Int) (now : Time) :
    Written :=
  match db.locks.get app with
  | none => (db, [])
  | some lock =>
    if lock.leaseExpired now then
      let row :=
        { lock with
          owner := taker, operation, jobId, epoch := lock.epoch + 1, acquiredAt := now,
          leaseExpiresAt := leaseExpiry now leaseMs, staleSince := none, recoveryJobId := none }
      ({ db with locks := db.locks.put row }, [.lock (.takeoverLock jobId) app (some lock) (some row)])
    else (db, [])

def markLockStale (db : Db) (app : String) (recoveryJobId : Option String) (now : Time) : Written :=
  match db.locks.get app with
  | none => (db, [])
  | some lock =>
    let row :=
      { lock with
        staleSince := some (lock.staleSince.getD now), recoveryJobId := recoveryJobId.or lock.recoveryJobId }
    ({ db with locks := db.locks.put row }, [.lock .markLockStale app (some lock) (some row)])

/-- `holdStaleLock` after it has read the row; an `INSERT` over a row throws. -/
def holdStaleLock (db : Db) (current : Option LockRow) (app owner operation jobId : String)
    (epoch : Nat) (now : Time) :
    Written :=
  match current with
  | some _ => markLockStale db app (some jobId) now
  | none =>
    match db.locks.get app with
    | some _ => (db, [])
    | none =>
      let row : LockRow :=
        { app, owner, operation, jobId := some jobId, epoch := if epoch = 0 then 1 else epoch, acquiredAt := now,
          leaseExpiresAt := now, staleSince := some now, recoveryJobId := some jobId }
      ({ db with locks := db.locks.put row }, [.lock .holdStaleLock app none (some row)])

def clearStaleLock (db : Db) (app recoveryJobId : String) : Written :=
  match db.locks.get app with
  | none => (db, [])
  | some lock =>
    if lock.staleSince.isSome ∧ lock.recoveryJobId = some recoveryJobId then
      ({ db with locks := db.locks.erase app }, [.lock .clearStaleLock app (some lock) none])
    else (db, [])

/-- `INSERT INTO setup_jobs`; a taken id throws. -/
def createJob (db : Db) (id kind app : String) (status : Status) (now : Time) : Written :=
  match db.jobs.get id with
  | some _ => (db, [])
  | none =>
    let row : JobRow :=
      { id, kind, app, status, phase := none, progress := ∅, checkpoint := ∅, owner := none, epoch := 0,
        leaseExpiresAt := none, outcome := none, createdAt := now, startedAt := none, finishedAt := none,
        updatedAt := now }
    ({ db with jobs := db.jobs.put row }, [.job .createJob [] none row])

def startJob (db : Db) (id owner : String) (leaseMs : Int) (now : Time) : Written :=
  db.updateJob (.startJob owner) [] id (·.status = .queued) fun row =>
    { row with
      status := .running, owner := some owner, epoch := 1, leaseExpiresAt := some (leaseExpiry now leaseMs),
      startedAt := some now, updatedAt := now }

/-- Whether the `not_before` of a queued job lets it be claimed. -/
def JobRow.due (row : JobRow) (now : Time) : Bool :=
  match row.progress.value "not_before" with
  | none => true
  | some (.time t) => t ≤ now
  | some value => !value.truthy

def candidates (db : Db) (kinds : List String) : List JobRow :=
  ((db.jobs.rows.filter fun row => row.status = .queued && kinds.contains row.kind).insertionSort
    (·.createdAt ≤ ·.createdAt)).take 50

/-- The wait is over: the not-before is consumed with the claim. -/
def JobRow.waited (row : JobRow) : Object :=
  if (row.progress.value "not_before").any Json.truthy then row.progress.erase "not_before" else row.progress

def claimNextJob (db : Db) (owner : String) (kinds : List String) (leaseMs : Int) (now : Time) : Written :=
  match (candidates db kinds).find? (·.due now) with
  | none => (db, [])
  | some next =>
    db.updateJob (.claimNextJob owner) ["not_before"] next.id
      (fun row => row.status = .queued && row.epoch = next.epoch) fun row =>
      { row with
        status := .running, owner := some owner, epoch := row.epoch + 1,
        leaseExpiresAt := some (leaseExpiry now leaseMs), startedAt := some (row.startedAt.getD now),
        updatedAt := now, progress := next.waited }

/-- `WHERE owner = ? AND epoch = ? AND status = 'running'`. -/
def Fence.holds (fence : Fence) (row : JobRow) : Bool :=
  row.owner = some fence.owner && row.epoch = fence.epoch && row.status = .running

def heartbeat (db : Db) (fence : Fence) (leaseMs : Int) (now : Time) : Written :=
  db.updateJob (.worker fence .heartbeat) [] fence.id fence.holds fun row =>
    { row with leaseExpiresAt := some (leaseExpiry now leaseMs), updatedAt := now }

section

variable (patterns : Patterns)

/-- `checkpoint` after `getJob` returned `read`. -/
def checkpoint (db : Db) (read : JobRow) (fence : Fence) (phase : String) (cp : Object) (progress : Option Object)
    (now : Time) : Written :=
  let merged := (read.checkpoint.spread (cp.redact patterns)).set "phase" (.text phase)
  let prog :=
    match progress with
    | none => read.progress
    | some progress => (read.progress.spread progress).redact patterns
  db.updateJob (.worker fence .checkpoint) (progress.elim [] fun fields => fields.rows.map Field.name) fence.id
    fence.holds fun row =>
    { row with
      phase := some phase, checkpoint := merged, progress := prog,
      leaseExpiresAt := some (leaseExpiry now DEFAULT_LEASE_MS), updatedAt := now }

/-- What `recordGenerated` keeps of a resource. -/
structure Resource where
  kind : String
  name : String
  location : Option String
  sha256 : Option String
  bytes : Option Int
  createdAt : Option String

def Resource.entry (resource : Resource) (now : Time) : Json :=
  let given (value : Option String) : Option String := value.filter (· ≠ "")
  redact patterns 0 (.record
    ([("kind", .text resource.kind), ("name", .text resource.name),
      ("where", ((given resource.location).map Json.text).getD .null)] ++
    ((given resource.sha256).map fun digest => ("sha256", Json.text digest)).toList ++
    (resource.bytes.map fun bytes => ("bytes", Json.number bytes)).toList ++
    ((given resource.createdAt).map fun created => ("created_at", Json.text created)).toList ++
    [("at", .time now)]))

/-- `Array.isArray(progress.generated) ? progress.generated : []`. -/
def Object.generated (progress : Object) : List Json :=
  match progress.value "generated" with
  | some (.list entries) => entries
  | _ => []

def recordGenerated (db : Db) (read : JobRow) (fence : Fence) (resource : Resource) (now : Time) : Written :=
  let generated := read.progress.generated ++ [resource.entry patterns now]
  db.updateJob (.worker fence (.recordGenerated (resource.entry patterns now))) ["generated"] fence.id fence.holds
    fun row => { row with progress := read.progress.set "generated" (.list generated), updatedAt := now }

def recordProgress (db : Db) (read : JobRow) (fence : Fence) (progress : Object) (now : Time) : Written :=
  db.updateJob (.worker fence .recordProgress) (progress.rows.map Field.name) fence.id fence.holds fun row =>
    { row with progress := read.progress.spread (progress.redact patterns), updatedAt := now }

/-- The last statement of `finishJob`. -/
def finishJob (db : Db) (fence : Fence) (status : TerminalStatus) (outcome : Option String)
    (now : Time) : Written :=
  db.updateJob (.worker fence .finishJob) [] fence.id fence.holds fun row =>
    { row with
      status := status.val, outcome, finishedAt := some now, updatedAt := now, leaseExpiresAt := none }

def requeueJob (db : Db) (read : JobRow) (notBefore : Option Time) (now : Time) : Written :=
  let waits : Object :=
    match notBefore.filter (· ≠ 0) with
    | some t => read.progress.set "not_before" (.time t)
    | none => read.progress.erase "not_before"
  let requeues := ((waits.value "requeues").map Json.count).getD 0 + 1
  db.updateJob .requeueJob ["not_before", "requeues"] read.id (·.status = .running) fun row =>
    { row with
      status := .queued, owner := none, leaseExpiresAt := none,
      progress := waits.set "requeues" (.number requeues), updatedAt := now }

def recordJobOutcome (db : Db) (id : String) (status : TerminalStatus) (outcome : Option String)
    (now : Time) : Written :=
  db.updateJob .recordJobOutcome [] id (·.status = .running) fun row =>
    { row with
      status := status.val, outcome, finishedAt := some now, updatedAt := now, leaseExpiresAt := none }

def annotateTerminalOutcome (db : Db) (id : String) (fromStatus : TerminalStatus) (outcome : Option String)
    (now : Time) : Written :=
  db.updateJob .annotateTerminalOutcome [] id (·.status = fromStatus.val) fun row =>
    { row with outcome, updatedAt := now }

def annotateJobProgress (db : Db) (read : JobRow) (progress : Object) (now : Time) : Written :=
  db.updateJob .annotateJobProgress (progress.rows.map Field.name) read.id (fun _ => true) fun row =>
    { row with progress := read.progress.spread (progress.redact patterns), updatedAt := now }

def cancelQueuedJob (db : Db) (id : String) (outcome : Option String) (now : Time) : Written :=
  db.updateJob .cancelQueuedJob [] id (·.status = .queued) fun row =>
    { row with status := .cancelled, outcome, finishedAt := some now, updatedAt := now }

/-- `requestCancel` of a running job, after it has read the row. -/
def requestCancel (db : Db) (read : JobRow) (actor : String) (now : Time) : Written :=
  let request := Json.record [("by", .text actor), ("at", .time now)]
  db.updateJob .requestCancel ["cancel_requested"] read.id (fun _ => true) fun row =>
    { row with progress := read.progress.set "cancel_requested" request, updatedAt := now }

end

def cancelPending (db : Db) (id : String) : Bool :=
  (db.jobs.get id).any fun row => (row.progress.value "cancel_requested").any Json.truthy

inductive FenceAnswer where
  | passed | fencedError | cancelledError

/-- The answer of `fenceJob`; at a safe point it reads the row again, `later`. -/
def fenceJob (db later : Db) (fence : Fence) (safe : Bool) (leaseMs : Int) (now : Time) : FenceAnswer :=
  if (heartbeat db fence leaseMs now).2.isEmpty then .fencedError
  else if safe && cancelPending later fence.id then .cancelledError
  else .passed

end ProxyPilot.Setup
