import ProxyPilot.Data.Text
import ProxyPilot.Data.Table
import ProxyPilot.Transition.System

namespace ProxyPilot.Mock2

open Data

/-! # Checkout locks (`mock2/lock-logic.js`, `mock2/locks.js`)

Each exported function of `locks.js` is one synchronous database transaction, so it is one
function on the table.  The idle sweep reads all rows first and awaits a
checkpoint between judging a row and releasing it.
-/

/-- The instant a stored timestamp parses to in milliseconds, `none` when it is
unreadable.  `nowIso()` always writes a readable one. -/
abbrev Stamp := Option Int

inductive LeaseKind where
  | taskContinuity
  | mcpWrite
  | projectWrite
  | restore
deriving DecidableEq

inductive OperationState where
  | active
  | uncertain
deriving DecidableEq

/-- One row of `mock2_locks`. -/
structure LockRow where
  projectId : Nat
  holderUserId : Option String
  holderCycleId : Option Nat
  holderOperationId : Option String
  holderOperationState : Option OperationState
  holderOperationKind : Option LeaseKind
  acquiredAt : Stamp
  lastWriteAt : Stamp
  takeoverRequestedBy : Option String
  takeoverRequestedAt : Option Stamp
deriving DecidableEq

instance : Keyed LockRow Nat := ⟨LockRow.projectId⟩

inductive Holder where
  | operation (token : String)
  | cycle (id : Nat)
  | user (id : String)
deriving DecidableEq

/-- Who may ask for a lock: a person or a build cycle. -/
inductive Requester where
  | cycle (id : Nat)
  | user (id : String)

def Requester.holder : Requester → Holder
  | .cycle id => .cycle id
  | .user id => .user id

/-- The effective holder of a row.  An operation takes precedence over its
attached cycle until its remote outcome is acknowledged. -/
def lockHolder (lockRow : Option LockRow) : Option Holder :=
  lockRow.bind fun row =>
    (row.holderOperationId.map Holder.operation).or
      ((row.holderCycleId.map Holder.cycle).or (row.holderUserId.map Holder.user))

def LockRow.reserved (row : LockRow) : Bool := row.holderOperationId.isSome

def msSinceWrite (row : LockRow) (now : Stamp) : Option Int :=
  row.lastWriteAt.bind fun last => now.map (· - last)

/-- `idleMs` is the idle timeout of the settings, in milliseconds. -/
def timeRemainingMs (row : LockRow) (now : Stamp) (idleMs : Int) : Option Int :=
  if row.reserved then none else (msSinceWrite row now).map (max 0 idleMs - ·)

def isLockExpired (row : LockRow) (now : Stamp) (idleMs : Int) : Bool :=
  if row.reserved then false
  else match timeRemainingMs row now idleMs with
    | none => false
    | some remaining => remaining ≤ 0

def shouldAutoRelease (row : LockRow) (now : Stamp) (idleMs : Int) : Bool :=
  (lockHolder (some row)).isSome && isLockExpired row now idleMs

def checkoutOperationReason (row : LockRow) : String :=
  let label := if row.holderOperationKind = some .taskContinuity then "Task-state synchronization"
    else "A project write"
  if row.holderOperationState = some .uncertain then
    s!"{label} has an unconfirmed outcome. Inspect the project and confirm the remote operation has stopped before resolving it; no automatic takeover is allowed."
  else
    s!"{label} is in progress. Wait for it to finish; it cannot be force-released while the remote operation may be running."

inductive ProjectRole where
  | admin
  | editor
  | viewer
deriving DecidableEq

inductive HeldBy where
  | maintenance
  | holder (holder : Holder)

structure AcquireVerdict where
  ok : Bool
  reason : String
  canTakeover : Bool := false
  heldBy : Option HeldBy := none

def mayAcquire (lockRow : Option LockRow) (requester : Option Requester) (role : Option ProjectRole)
    (now : Stamp) (idleMs : Int) : AcquireVerdict :=
  match lockRow.filter LockRow.reserved with
  | some row => { ok := false, reason := checkoutOperationReason row, heldBy := some .maintenance }
  | none =>
    match requester with
    | none => { ok := false, reason := "no requester" }
    | some requester =>
      if requester matches .user _ ∧ role = some .viewer then
        { ok := false, reason := "viewers cannot check out a project" }
      else match lockRow, lockHolder lockRow with
        | some row, some holder =>
          if holder = requester.holder then
            { ok := true, reason := "already held by requester", heldBy := some (.holder holder) }
          else if isLockExpired row now idleMs then
            { ok := true, reason := "previous hold expired", heldBy := some (.holder holder) }
          else
            { ok := false, reason := "held by another writer", canTakeover := true
              heldBy := some (.holder holder) }
        | _, _ => { ok := true, reason := "free" }

theorem lockHolder_reserved {row : LockRow} {token : String}
    (held : row.holderOperationId = some token) :
    lockHolder (some row) = some (.operation token) := by
  simp [lockHolder, held]

/-- A row the sweep may release is not reserved by an operation. -/
theorem not_reserved_of_shouldAutoRelease {row : LockRow} {now : Stamp} {idleMs : Int}
    (idle : shouldAutoRelease row now idleMs = true) : row.holderOperationId = none := by
  simp only [shouldAutoRelease, isLockExpired, LockRow.reserved, Bool.and_eq_true] at idle
  by_contra held
  simp [Option.ne_none_iff_isSome.mp held] at idle

open Transition

abbrev LockTable := Table LockRow

structure AcquireResult where
  ok : Bool
  reason : String
  lock : Option LockRow
  canTakeover : Bool := false
  heldBy : Option HeldBy := none

def operationBusy (row : LockRow) : AcquireResult :=
  { ok := false, reason := checkoutOperationReason row, lock := none, heldBy := some .maintenance }

structure AcquireCall where
  projectId : Nat
  requester : Requester
  role : Option ProjectRole
  force : Bool
  idleMs : Int
  /-- The clock when the verdict is taken. -/
  checkedAt : Int
  /-- The clock when the row is written. -/
  now : Int

def AcquireCall.row (call : AcquireCall) (current : Option LockRow) : LockRow where
  projectId := call.projectId
  holderUserId := match call.requester with
    | .user id => some id
    | .cycle _ => none
  holderCycleId := match call.requester with
    | .user _ => none
    | .cycle id => some id
  holderOperationId := none
  holderOperationState := none
  holderOperationKind := none
  acquiredAt := match current with
    | some row => if lockHolder (some row) = some call.requester.holder then row.acquiredAt else some call.now
    | none => some call.now
  lastWriteAt := some call.now
  takeoverRequestedBy := none
  takeoverRequestedAt := none

def acquireLock (table : LockTable) (call : AcquireCall) : LockTable × AcquireResult :=
  let current := table.get call.projectId
  match current.filter LockRow.reserved with
  | some row => (table, operationBusy row)
  | none =>
    let verdict := mayAcquire current (some call.requester) call.role (some call.checkedAt) call.idleMs
    if !call.force && !verdict.ok then
      (table, { ok := false, reason := verdict.reason, lock := current
                canTakeover := verdict.canTakeover, heldBy := verdict.heldBy })
    else
      let row := call.row current
      (table.put row, { ok := true, reason := if call.force then "forced" else "acquired", lock := some row })

def touchLock (table : LockTable) (projectId : Nat) (holder : Option Requester) (now : Int) :
    LockTable × Bool :=
  match table.get projectId, holder with
  | some row, some holder =>
    if lockHolder (some row) = some holder.holder then
      (table.put { row with lastWriteAt := some now }, true)
    else (table, false)
  | _, _ => (table, false)

structure ReleaseResult where
  released : Bool
  reason : Option String := none
  retainedOperation : Bool := false

/-- With a holder, releases only that holder's lock; without one, any. -/
def releaseLock (table : LockTable) (projectId : Nat) (holder : Option Requester) :
    LockTable × ReleaseResult :=
  match table.get projectId with
  | none => (table, { released := false, reason := some "not held" })
  | some row =>
    if row.reserved then
      match holder, row.holderCycleId with
      | some (.cycle id), some attached =>
        if attached = id then
          let detached := { row with holderCycleId := none, holderOperationState := some .uncertain }
          (table.put detached, { released := true, retainedOperation := true
                                 reason := some (checkoutOperationReason detached) })
        else (table, { released := false, reason := some (checkoutOperationReason row) })
      | _, _ => (table, { released := false, reason := some (checkoutOperationReason row) })
    else match holder with
      | none => (table.erase projectId, { released := true })
      | some holder =>
        if lockHolder (some row) = some holder.holder then (table.erase projectId, { released := true })
        else (table, { released := false, reason := some "held by another writer" })

def maxSafeInteger : Nat := 9007199254740991

/-- The `randomUUID()` shape the token check spells out. -/
def isOperationToken (token : String) : Bool :=
  match token.toList.splitOn '-' with
  | [first, second, third, fourth, fifth] =>
    first.length == 8 && second.length == 4 && third.length == 4 && fourth.length == 4 &&
      fifth.length == 12 && [first, second, third, fourth, fifth].all (·.all Data.lowerHexChar) &&
      third.head? == some '4' && ['8', '9', 'a', 'b'].any (fourth.head? == some ·)
  | _ => false

def validOperation (projectId : Nat) (token : String) : Bool :=
  0 < projectId && projectId ≤ maxSafeInteger && isOperationToken token

inductive LeaseResult where
  | granted (token : String)
  | refused (reason : String)

structure LeaseCall where
  projectId : Nat
  /-- `none` for a kind that is not in the list. -/
  kind : Option LeaseKind
  cycleId : Option Nat
  /-- What `randomUUID()` returns. -/
  token : String
  now : Int

/-- The lease attaches to the cycle that holds the row. -/
def LeaseCall.attached (call : LeaseCall) (current : Option LockRow) : Bool :=
  call.kind = some .taskContinuity && (match call.cycleId with
    | some id => 0 < id && id ≤ maxSafeInteger && lockHolder current = some (.cycle id)
    | none => false)

def acquireCheckoutOperationLease (table : LockTable) (call : LeaseCall) : LockTable × LeaseResult :=
  if call.projectId = 0 ∨ maxSafeInteger < call.projectId ∨ call.kind = none then
    (table, .refused "invalid project or operation")
  else
    let current := table.get call.projectId
    if call.cycleId ≠ none ∧ call.attached current = false then
      (table, .refused "the original cycle no longer owns this project")
    else match current with
      | some row =>
        if call.attached current then
          -- The UPDATE's own WHERE clause; it repeats the holder check.
          if row.holderCycleId = call.cycleId ∧ row.holderUserId = none ∧ row.holderOperationId = none then
            (table.put { row with holderOperationId := some call.token
                                  holderOperationState := some .active
                                  holderOperationKind := call.kind }, .granted call.token)
          else (table, .refused "the original cycle no longer owns this project")
        else if (lockHolder current).isSome then
          (table, .refused (if row.reserved then checkoutOperationReason row else "held by another writer"))
        else (table.put (fresh call), .granted call.token)
      | none => (table.put (fresh call), .granted call.token)
where
  fresh (call : LeaseCall) : LockRow :=
    { projectId := call.projectId, holderUserId := none, holderCycleId := none
      holderOperationId := some call.token, holderOperationState := some .active
      holderOperationKind := call.kind, acquiredAt := some call.now, lastWriteAt := some call.now
      takeoverRequestedBy := none, takeoverRequestedAt := none }

def markTaskContinuityLeaseUncertain (table : LockTable) (projectId : Nat) (token : String) :
    LockTable × Bool :=
  match table.get projectId with
  | some row =>
    if validOperation projectId token ∧ row.holderOperationId = some token then
      (table.put { row with holderOperationState := some .uncertain }, true)
    else (table, false)
  | none => (table, false)

def settleTaskContinuityLease (table : LockTable) (projectId : Nat) (token : String) (now : Int) :
    LockTable × Bool :=
  match table.get projectId with
  | some row =>
    if validOperation projectId token ∧ row.holderOperationId = some token then
      if row.holderCycleId.isSome ∨ row.holderUserId.isSome then
        (table.put { row with holderOperationId := none, holderOperationState := none
                              holderOperationKind := none, lastWriteAt := some now }, true)
      else (table.erase projectId, true)
    else (table, false)
  | none => (table, false)

inductive TakeoverResult where
  | requested (lock : LockRow)
  | refused (reason : String)

def requestTakeover (table : LockTable) (projectId : Nat) (userId : Option String) (now : Int) :
    LockTable × TakeoverResult :=
  match table.get projectId with
  | none => (table, .refused "not held")
  | some row =>
    if row.reserved then (table, .refused (checkoutOperationReason row))
    else if lockHolder (some row) = none then (table, .refused "not held")
    else
      let asked := { row with takeoverRequestedBy := userId, takeoverRequestedAt := some (some now) }
      (table.put asked, .requested asked)

/-- The sweep releases this row of its reading: idle, and not held by a cycle. -/
def sweepable (now : Stamp) (idleMs : Int) (row : LockRow) : Bool :=
  shouldAutoRelease row now idleMs && !(lockHolder (some row) matches some (.cycle _))

/-- A sweep suspended in `await onIdle(lock)`. -/
structure Sweep where
  id : Nat
  now : Stamp
  idleMs : Int
  /-- The row whose checkpoint is awaited, as it was read. -/
  judged : LockRow
  /-- The rest of the rows, as they were read. -/
  later : List LockRow

instance : Keyed Sweep Nat := ⟨Sweep.id⟩

inductive IdleAnswer where
  | handled
  | escalated
  | failed

structure LockState where
  locks : LockTable
  sweeps : Table Sweep
  nextSweep : Nat

def LockState.start : LockState := ⟨∅, ∅, 0⟩

/-- Walk the rows as read up to the next one to release. -/
def nextJudged (now : Stamp) (idleMs : Int) (rows : List LockRow) : Option (LockRow × List LockRow) :=
  match rows with
  | [] => none
  | row :: rest => if sweepable now idleMs row then some (row, rest) else nextJudged now idleMs rest

/-- Go on to the next row to release, or finish. -/
def advanceSweep (state : LockState) (id : Nat) (now : Stamp) (idleMs : Int) (rows : List LockRow) :
    LockState :=
  match nextJudged now idleMs rows with
  | some (judged, later) => { state with sweeps := state.sweeps.put { id, now, idleMs, judged, later } }
  | none => { state with sweeps := state.sweeps.erase id }

/-- Without an `onIdle` the loop never suspends. -/
def releaseIdle (now : Stamp) (idleMs : Int) : LockTable → List LockRow → LockTable
  | table, [] => table
  | table, row :: rest =>
    releaseIdle now idleMs
      (if sweepable now idleMs row then (releaseLock table row.projectId none).1 else table) rest

def beginSweep (state : LockState) (now : Stamp) (idleMs : Int) (checkpoints : Bool) : LockState :=
  if checkpoints then
    advanceSweep { state with nextSweep := state.nextSweep + 1 } state.nextSweep now idleMs state.locks.rows
  else { state with locks := releaseIdle now idleMs state.locks state.locks.rows }

def resumeSweep (state : LockState) (sweep : Sweep) (answer : IdleAnswer) : LockState :=
  let locks := match answer with
    | .handled => (releaseLock state.locks sweep.judged.projectId none).1
    | .escalated | .failed => state.locks
  advanceSweep { state with locks } sweep.id sweep.now sweep.idleMs sweep.later

inductive LockCall where
  | acquire (call : AcquireCall)
  | touch (projectId : Nat) (holder : Option Requester) (now : Int)
  | release (projectId : Nat) (holder : Option Requester)
  | takeover (projectId : Nat) (userId : Option String) (now : Int)
  | lease (call : LeaseCall)
  | markUncertain (projectId : Nat) (token : String)
  | settle (projectId : Nat) (token : String) (now : Int)
  | beginSweep (now : Stamp) (idleMs : Int) (checkpoints : Bool)
  | resumeSweep (id : Nat) (answer : IdleAnswer)

/-- What a call does to the table; the sweep's steps are not among them. -/
def LockCall.table (table : LockTable) : LockCall → LockTable
  | .acquire call => (acquireLock table call).1
  | .touch projectId holder now => (touchLock table projectId holder now).1
  | .release projectId holder => (releaseLock table projectId holder).1
  | .takeover projectId userId now => (requestTakeover table projectId userId now).1
  | .lease call => (acquireCheckoutOperationLease table call).1
  | .markUncertain projectId token => (markTaskContinuityLeaseUncertain table projectId token).1
  | .settle projectId token now => (settleTaskContinuityLease table projectId token now).1
  | .beginSweep .. | .resumeSweep .. => table

def lockStep (state : LockState) : LockCall → Option LockState
  | .beginSweep now idleMs checkpoints => some (beginSweep state now idleMs checkpoints)
  | .resumeSweep id answer => (state.sweeps.get id).map (resumeSweep state · answer)
  | call => some { state with locks := call.table state.locks }

def lockSystem : System LockState LockCall where
  initial := (· = .start)
  step := lockStep

end ProxyPilot.Mock2
