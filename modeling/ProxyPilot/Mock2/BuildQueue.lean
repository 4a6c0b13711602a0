import ProxyPilot.Data.Table
import ProxyPilot.Data.Text
import ProxyPilot.Transition.System
import Mathlib.Data.List.Infix
import Mathlib.Data.List.Sort

namespace ProxyPilot.Mock2

open Data Transition

/-! # The build request queue of one project (`mock2/build-queue.js`)

What a function finds in the tables it does not write (requests, cycles, the
project) is part of the label of its step.
-/

inductive QueueStatus where
  | queued | started | cancelled | failed
deriving DecidableEq

structure QueueRow where
  id : Nat
  instruction : String
  buildMode : String
  label : Option String
  initiatedBy : Option String
  origin : String
  status : QueueStatus
  requestId : Option Nat
  error : Option String
  updatedAt : Int
deriving DecidableEq

instance : Keyed QueueRow Nat := ⟨QueueRow.id⟩

structure CycleView where
  status : String
  verificationState : Option String

/-- What the queue reads of other tables. -/
structure World where
  requestStatus : Nat → Option String
  latestCycle : Nat → Option CycleView
  liveCycle : Nat → Bool
  lifecycle : Option String

def queueMayAdvancePast (cycle : CycleView) : Bool :=
  ["succeeded", "failed", "abandoned", "refused_quota", "interrupted"].contains cycle.status ||
    (cycle.status = "awaiting_user" && [some "pending", some "verified"].contains cycle.verificationState)

def queueRowConcluded (cycle : CycleView) : Bool :=
  !(["queued", "estimating", "running"].contains cycle.status) && queueMayAdvancePast cycle

/-- `/checked out|already running|must be online/i`. -/
def isTransientStartError (error : String) : Bool :=
  ["checked out", "already running", "must be online"].any fun part =>
    part.toList <:+: (error.toList.map Char.toLower)

def ORPHAN_REQUEUED_MARKER : String := "requeued after a stall"

/-- A started row whose build `settleStartedBuilds` finds finished. -/
def QueueRow.finished (world : World) (row : QueueRow) : Bool :=
  row.status = .started && row.requestId.any fun request =>
    (world.requestStatus request).any (fun status => status ≠ "open" && status ≠ "running") ||
      (world.latestCycle request).any queueRowConcluded

def settleStartedBuilds (world : World) (queue : Table QueueRow) : Table QueueRow :=
  queue.filter fun row => !row.finished world

/-- A started row past its grace with no live cycle. -/
def QueueRow.orphaned (world : World) (now graceMs : Int) (row : QueueRow) : Bool :=
  row.status = .started && !(now - row.updatedAt < graceMs) && !row.requestId.any world.liveCycle

def QueueRow.requeue (world : World) (now graceMs : Int) (row : QueueRow) : QueueRow :=
  if row.orphaned world now graceMs then
    if row.error = some ORPHAN_REQUEUED_MARKER then
      { row with
        status := .failed, error := some "could not restart after a stall (orphaned twice)", updatedAt := now }
    else { row with status := .queued, requestId := none, error := some ORPHAN_REQUEUED_MARKER, updatedAt := now }
  else row

theorem QueueRow.requeue_id (world : World) (now graceMs : Int) (row : QueueRow) :
    (row.requeue world now graceMs).id = row.id := by
  unfold requeue
  split
  · split <;> rfl
  · rfl

inductive DrainStage where
  | importing | starting
deriving DecidableEq

/-- A drain that awaits the import of the builder or its `startBuild`. -/
structure Drain where
  token : Nat
  entry : QueueRow
  stage : DrainStage

instance : Keyed Drain Nat := ⟨Drain.token⟩

inductive QueueEvent where
  | handed (entry : QueueRow)
  | started (id : Nat)
  | cancelled (id : Nat)
  | requeued (id : Nat)
deriving DecidableEq

structure QueueState where
  queue : Table QueueRow
  next : Nat
  draining : Bool
  drains : Table Drain
  token : Nat
  log : List QueueEvent

def QueueState.initial : QueueState := ⟨∅, 1, false, ∅, 0, []⟩

def enqueueBuild (state : QueueState) (instruction buildMode : String) (label initiatedBy : Option String)
    (origin : String) (now : Int) : QueueState :=
  let row : QueueRow :=
    { id := state.next, instruction, buildMode, label, initiatedBy, origin, status := .queued, requestId := none,
      error := none, updatedAt := now }
  { state with queue := state.queue.put row, next := state.next + 1 }

def cancelQueuedBuild (state : QueueState) (id : Nat) (now : Int) : QueueState :=
  match state.queue.get id with
  | none => state
  | some row =>
    if row.status = .queued then
      { state with
        queue := state.queue.put { row with status := .cancelled, updatedAt := now },
        log := state.log ++ [.cancelled id] }
    else state

def markQueueRow (queue : Table QueueRow) (id : Nat) (patch : QueueRow → QueueRow) : Table QueueRow :=
  match queue.get id with
  | none => queue
  | some row => queue.put (patch row)

/-- The rows `requeueOrphanedStartedBuilds` requeues, by id. -/
def requeuedIds (world : World) (now graceMs : Int) (queue : Table QueueRow) : List Nat :=
  (queue.rows.filter fun row =>
    row.orphaned world now graceMs && row.error ≠ some ORPHAN_REQUEUED_MARKER).map QueueRow.id

def requeueOrphanedStartedBuilds (state : QueueState) (world : World) (now graceMs : Int) : QueueState :=
  let settled := settleStartedBuilds world state.queue
  { state with
    queue := settled.map (QueueRow.requeue world now graceMs) (QueueRow.requeue_id world now graceMs),
    log := state.log ++ (requeuedIds world now graceMs settled).map QueueEvent.requeued }

/-- `SELECT … WHERE status = 'queued' ORDER BY id LIMIT 1`. -/
def nextQueued (queue : Table QueueRow) : Option QueueRow :=
  ((queue.rows.filter (·.status = .queued)).insertionSort (·.id ≤ ·.id)).head?

/-- `drainBuildQueue` up to its first `await`. -/
def drainBuildQueue (state : QueueState) (world : World) : QueueState :=
  if state.draining then state
  else
    let queue := settleStartedBuilds world state.queue
    if queue.rows.any (·.status = .started) then { state with queue }
    else
      match nextQueued queue with
      | none => { state with queue }
      | some entry =>
        if world.lifecycle = some "active" then
          { state with
            queue, draining := true, drains := state.drains.put ⟨state.token, entry, .importing⟩,
            token := state.token + 1 }
        else { state with queue }

inductive StartAnswer where
  | started (requestId : Option Nat)
  | refused (error : String)
  | thrown

/-- A drain leaves: its `finally` clears the guard. -/
def QueueState.leave (state : QueueState) (token : Nat) : QueueState :=
  { state with drains := state.drains.erase token, draining := false }

/-- `drainBuildQueue` from the answer of `startBuild` on. -/
def answered (state : QueueState) (drain : Drain) (answer : StartAnswer) (world : World) (now : Int) : QueueState :=
  match answer with
  | .started requestId =>
    { state.leave drain.token with
      queue := markQueueRow state.queue drain.entry.id fun row =>
        { row with status := .started, requestId, updatedAt := now },
      log := state.log ++ [.started drain.entry.id] }
  | .thrown => state.leave drain.token
  | .refused error =>
    if isTransientStartError error then state.leave drain.token
    else
      let reason := if error = "" then "build did not start" else error
      let failed := markQueueRow state.queue drain.entry.id fun row =>
        { row with status := .failed, error := some (.ofList (sliceUnits 500 reason.toList)), updatedAt := now }
      -- the recursion runs up to its own await before this drain's `finally`
      let inner := drainBuildQueue { state.leave drain.token with queue := failed } world
      { inner with draining := false }

inductive QueueLabel where
  | enqueue (instruction buildMode : String) (label initiatedBy : Option String) (origin : String) (now : Int)
  | cancel (id : Nat) (now : Int)
  | settle (world : World)
  | requeueOrphaned (world : World) (now graceMs : Int)
  | drain (world : World)
  | imported (token : Nat)
  | importFailed (token : Nat)
  | answered (token : Nat) (answer : StartAnswer) (world : World) (now : Int)
  | crash

/-- The drain of the token, if it stands at the stage. -/
def QueueState.at_ (state : QueueState) (token : Nat) (stage : DrainStage) : Option Drain :=
  (state.drains.get token).filter (·.stage = stage)

def queueStep (state : QueueState) : QueueLabel → Option QueueState
  | .enqueue instruction buildMode label initiatedBy origin now =>
    some (enqueueBuild state instruction buildMode label initiatedBy origin now)
  | .cancel id now => some (cancelQueuedBuild state id now)
  | .settle world => some { state with queue := settleStartedBuilds world state.queue }
  | .requeueOrphaned world now graceMs => some (requeueOrphanedStartedBuilds state world now graceMs)
  | .drain world => some (drainBuildQueue state world)
  | .imported token =>
    (state.at_ token .importing).map fun drain =>
      { state with
        drains := state.drains.put { drain with stage := .starting }, log := state.log ++ [.handed drain.entry] }
  | .importFailed token => (state.at_ token .importing).map fun _ => state.leave token
  | .answered token answer world now =>
    (state.at_ token .starting).map fun drain => answered state drain answer world now
  | .crash => some { state with drains := ∅, draining := false }

def buildQueue : System QueueState QueueLabel where
  initial := fun state => state = .initial
  step := queueStep

end ProxyPilot.Mock2
