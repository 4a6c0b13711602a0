import ProxyPilot.Setup.Statements
import ProxyPilot.Transition.System

namespace ProxyPilot.Setup

open Data Transition

/-- A call issues its first statement at once. A call with more statements then
waits with what it has read, and any other call may come in between. A
`BEGIN IMMEDIATE` block is one statement. -/
inductive Call where
  | createJob (id kind app : String) (status : Status) (now : Time)
  | startJob (id owner : String) (leaseMs : Int) (now : Time)
  | claimNextJob (owner : String) (kinds : List String) (leaseMs : Int) (now : Time)
  | heartbeat (fence : Fence) (leaseMs : Int) (now : Time)
  | checkpoint (fence : Fence) (phase : String) (cp : Object) (progress : Option Object) (now : Time)
  | recordGenerated (fence : Fence) (resource : Resource) (now : Time)
  | recordProgress (fence : Fence) (progress : Object) (now : Time)
  | finishJob (fence : Fence) (status : Status) (outcome : Option String) (progress : Option Object) (now : Time)
  | requeueJob (id : String) (notBefore : Option Time) (now : Time)
  | recordJobOutcome (id : String) (status : Status) (outcome : Option String) (now : Time)
  | annotateTerminalOutcome (id : String) (fromStatus : Status) (outcome : Option String) (now : Time)
  | annotateJobProgress (id : String) (progress : Object) (now : Time)
  | cancelQueuedJob (id : String) (outcome : Option String) (now : Time)
  | requestCancel (id actor : String) (now : Time)
  | acquireLock (app owner operation : String) (jobId : Option String) (leaseMs : Int) (now : Time)
  | renewLock (app owner : String) (epoch : Nat) (leaseMs : Int) (now : Time)
  | releaseLock (app owner : String) (epoch : Nat)
  | takeoverLock (app taker operation : String) (jobId : Option String) (leaseMs : Int) (now : Time)
  | takeOverUnheld (app taker operation : String) (jobId : String) (recoveryOf : Option String) (leaseMs : Int)
      (now : Time)
  | markLockStale (app : String) (recoveryJobId : Option String) (now : Time)
  | holdStaleLock (app owner operation jobId : String) (epoch : Nat) (now : Time)
  | clearStaleLock (app recoveryJobId : String)
  | acknowledgeUncertainJob (id : String) (writerStopped : Bool) (notes : Object) (origin : Option (String × Json))
      (now : Time)

/-- What a call with several statements issues next, with what it has read. -/
inductive Statement where
  | checkpoint (read : JobRow) (fence : Fence) (phase : String) (cp : Object)
      (progress : Option Object) (now : Time)
  | recordGenerated (read : JobRow) (fence : Fence) (resource : Resource) (now : Time)
  | recordProgress (read : JobRow) (fence : Fence) (progress : Object) (now : Time)
      (finish : Option (TerminalStatus × Option String))
  | finishJob (fence : Fence) (status : TerminalStatus) (outcome : Option String) (now : Time)
  | requeueJob (read : JobRow) (notBefore : Option Time) (now : Time)
  | annotateJobProgress (read : JobRow) (progress : Object) (now : Time)
  | cancelQueued (id : String) (now : Time)
  | requestCancel (read : JobRow) (actor : String) (now : Time)
  | leaseHold (stale : LockRow) (app taker operation jobId : String) (recoveryOf : Option String) (leaseMs : Int)
      (now : Time)
  | takeoverLock (app taker operation : String) (jobId : Option String) (leaseMs : Int) (now : Time)
  | holdStaleLock (current : Option LockRow) (app owner operation jobId : String) (epoch : Nat) (now : Time)
  | acknowledge (job : JobRow) (notes : Object) (origin : Option (String × Json)) (now : Time)

structure Turn where
  db : Db
  log : List Change
  next : Option Statement

def Written.ends (written : Written) : Turn := ⟨written.1, written.2, none⟩

def Db.waits (db : Db) (next : Statement) : Turn := ⟨db, [], some next⟩

def Db.unchanged (db : Db) : Turn := ⟨db, [], none⟩

/-- A call that throws or gives up unless a check passes. -/
def Db.given (db : Db) (passed : Option α) (turn : α → Turn) : Turn := passed.elim db.unchanged turn

/-- `getJob`, then the statement that follows from what it returned. -/
def Db.reads (db : Db) (id : String) (next : JobRow → Option Statement) : Turn :=
  ⟨db, [], (db.jobs.get id).bind next⟩

/-- Two statements of one transaction. -/
def Written.andThen (first : Written) (second : Db → Written) : Written :=
  ((second first.1).1, first.2 ++ (second first.1).2)

/-- The exemption of an application's own release from the hold it recorded. -/
def exempt (jobKind jobId : String) (recoveryOf recoveryJobId : Option String) : Bool :=
  APPLICATION_JOB_KINDS.contains jobKind &&
    ((recoveryOf = recoveryJobId && jobKind = "application_rollback") || some jobId = recoveryJobId)

/-- The outcome an acknowledgement waits for and the one it records. -/
def pendingOutcome (kind : String) : String :=
  if SETUP_JOB_KINDS.contains kind then "init_uncertain" else "interrupted_uncertain"

section

variable (patterns : Patterns)

/-- `getJob` and the `UPDATE` in one transaction. -/
def annotate (db : Db) (id : String) (progress : Object) (now : Time) : Written :=
  match db.jobs.get id with
  | none => (db, [])
  | some row => annotateJobProgress patterns db row progress now

/-- The transaction of `acknowledgeUncertainJob`; `notes` are the phases and the
completion it computes for a guest setup, `origin` the setup note on the job that
queued it. -/
def acknowledge (db : Db) (job : JobRow) (notes : Object) (origin : Option (String × Json))
    (now : Time) : Written :=
  let outcome :=
    annotateTerminalOutcome db job.id ⟨.recoveryRequired,
      rfl⟩ (some (pendingOutcome job.kind ++ "_acknowledged")) now
  if outcome.2.isEmpty then (db, [])
  else
    ((outcome.andThen fun db =>
      if SETUP_JOB_KINDS.contains job.kind then annotate patterns db job.id notes now
        else (db, [])).andThen fun db =>
      match origin.filter fun _ => SETUP_JOB_KINDS.contains job.kind with
      | some (id, setup) => annotate patterns db id (Object.set ∅ "setup" setup) now
      | none => (db, [])).andThen fun db => clearStaleLock db job.app job.id

def Db.call (db : Db) : Call → Turn
  | .createJob id kind app status now => (createJob db id kind app status now).ends
  | .startJob id owner leaseMs now => (startJob db id owner leaseMs now).ends
  | .claimNextJob owner kinds leaseMs now => (claimNextJob db owner kinds leaseMs now).ends
  | .heartbeat fence leaseMs now => (heartbeat db fence leaseMs now).ends
  | .checkpoint fence phase cp progress now =>
    db.reads fence.id fun row => some (.checkpoint row fence phase cp progress now)
  | .recordGenerated fence resource now =>
    db.reads fence.id fun row => some (.recordGenerated row fence resource now)
  | .recordProgress fence progress now =>
    db.reads fence.id fun row => some (.recordProgress row fence progress now none)
  | .finishJob fence status outcome progress now =>
    db.given status.asTerminal fun status =>
      match progress.bind fun fields => (db.jobs.get fence.id).map (fields, ·) with
      | some (fields, row) => db.waits (.recordProgress row fence fields now (some (status, outcome)))
      | none => (finishJob db fence status outcome now).ends
  | .requeueJob id notBefore now => db.reads id fun row => some (.requeueJob row notBefore now)
  | .recordJobOutcome id status outcome now =>
    db.given status.asTerminal fun status => (recordJobOutcome db id status outcome now).ends
  | .annotateTerminalOutcome id fromStatus outcome now =>
    db.given fromStatus.asTerminal fun fromStatus => (annotateTerminalOutcome db id fromStatus outcome now).ends
  | .annotateJobProgress id progress now => db.reads id fun row => some (.annotateJobProgress row progress now)
  | .cancelQueuedJob id outcome now => (cancelQueuedJob db id outcome now).ends
  | .requestCancel id actor now =>
    db.reads id fun row =>
      match row.status with
      | .queued => some (.cancelQueued id now)
      | .running => some (.requestCancel row actor now)
      | _ => none
  | .acquireLock app owner operation jobId leaseMs now =>
    (acquireLock db app owner operation jobId leaseMs now).ends
  | .renewLock app owner epoch leaseMs now => (renewLock db app owner epoch leaseMs now).ends
  | .releaseLock app owner epoch => (releaseLock db app owner epoch).ends
  | .takeoverLock app taker operation jobId leaseMs now =>
    (takeoverLock db app taker operation jobId leaseMs now).ends
  | .takeOverUnheld app taker operation jobId recoveryOf leaseMs now =>
    db.waits
      (match db.locks.get app with
      | none => .takeoverLock app taker operation (some jobId) leaseMs now
      | some stale => .leaseHold stale app taker operation jobId recoveryOf leaseMs now)
  | .markLockStale app recoveryJobId now => (markLockStale db app recoveryJobId now).ends
  | .holdStaleLock app owner operation jobId epoch now =>
    db.waits (.holdStaleLock (db.locks.get app) app owner operation jobId epoch now)
  | .clearStaleLock app recoveryJobId => (clearStaleLock db app recoveryJobId).ends
  | .acknowledgeUncertainJob id writerStopped notes origin now =>
    db.reads id fun job =>
      if job.status = .recoveryRequired ∧ job.outcome = some (pendingOutcome job.kind) ∧
          (SETUP_JOB_KINDS.contains job.kind → writerStopped) then
        some (.acknowledge job notes origin now)
      else none

def Db.goes (db : Db) : Statement → Turn
  | .checkpoint read fence phase cp progress now => (checkpoint patterns db read fence phase cp progress now).ends
  | .recordGenerated read fence resource now => (recordGenerated patterns db read fence resource now).ends
  | .recordProgress read fence progress now finish =>
    let written := recordProgress patterns db read fence progress now
    ⟨written.1, written.2, finish.map fun result => .finishJob fence result.1 result.2 now⟩
  | .finishJob fence status outcome now => (finishJob db fence status outcome now).ends
  | .requeueJob read notBefore now => (requeueJob db read notBefore now).ends
  | .annotateJobProgress read progress now => (annotateJobProgress patterns db read progress now).ends
  | .cancelQueued id now => (cancelQueuedJob db id (some "cancelled") now).ends
  | .requestCancel read actor now => (requestCancel db read actor now).ends
  | .leaseHold stale app taker operation jobId recoveryOf leaseMs now =>
    let hold := leaseHold (some stale) (stale.recoveryJobId.bind fun id => db.jobs.get id)
    ⟨db, [],
      if hold && !exempt operation jobId recoveryOf stale.recoveryJobId then none
      else some (.takeoverLock app taker operation (some jobId) leaseMs now)⟩
  | .takeoverLock app taker operation jobId leaseMs now =>
    (takeoverLock db app taker operation jobId leaseMs now).ends
  | .holdStaleLock current app owner operation jobId epoch now =>
    (holdStaleLock db current app owner operation jobId epoch now).ends
  | .acknowledge job notes origin now => (acknowledge patterns db job notes origin now).ends

end

structure Pending where
  token : Nat
  statement : Statement

instance : Keyed Pending Nat := ⟨Pending.token⟩

structure State where
  db : Db
  pending : Table Pending
  next : Nat
  log : List Change

def State.initial : State := ⟨.empty, ∅, 0, []⟩

inductive Label where
  | call (call : Call)
  | goes (token : Nat)

def State.after (state : State) (turn : Turn) : State :=
  match turn.next with
  | none => { state with db := turn.db, log := state.log ++ turn.log }
  | some statement =>
    { db := turn.db, pending := state.pending.put ⟨state.next, statement⟩, next := state.next + 1,
      log := state.log ++ turn.log }

def step (patterns : Patterns) (state : State) : Label → Option State
  | .call call => some (state.after (state.db.call call))
  | .goes token =>
    (state.pending.get token).map fun pending =>
      ({ state with pending := state.pending.erase token } : State).after (state.db.goes patterns pending.statement)

def engine (patterns : Patterns) : System State Label where
  initial := fun state => state = .initial
  step := step patterns

end ProxyPilot.Setup
