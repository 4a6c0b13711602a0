import ProxyPilot.Effects.Trace
import ProxyPilot.Gateway.Policy

namespace ProxyPilot.Gateway

open Data Effects

/-! # One gateway attempt (`AttemptGateway`, not in public mode)

An operation is a program that may throw and keeps what it did. Readings of the clock and
answers of the ledger file are numbered over the whole run.
-/

structure Pinned where
  approvalRef : Pin
  humanContext : String
deriving DecidableEq

structure EffectGrant where
  schema : String
  id : String
  identity : Identity
  requestRef : String
  bindingSha256 : String
  expiresAt : Int
  purposeSha256 : String
  pinned : Option Pinned
deriving DecidableEq

structure DestinationGrant where
  schema : String
  id : String
  identity : Identity
  origin : String
  roles : List String
  purposeSha256 : String
  expiresAt : Int
  persistToAllowlist : Bool
  wildcards : Bool
deriving DecidableEq

structure Record where
  /-- Which review made it. -/
  request : Nat
  requestRef : String
  metadata : Metadata
  parts : Parts
  destination : Destination
  effect : Effect
  bindingSha256 : String
  expiresAt : Int
  approvalId : Option String
deriving DecidableEq

instance : Keyed Record String := ⟨Record.requestRef⟩

structure Ticket where
  token : String
  record : Record
deriving DecidableEq

instance : Keyed Ticket String := ⟨Ticket.token⟩

structure Addition where
  origin : String
  role : String
  item : Destination

instance : Keyed Addition (String × String) := ⟨fun addition => (addition.origin, addition.role)⟩

structure Purpose where
  origin : String
  role : String
  grant : DestinationGrant

instance : Keyed Purpose (String × String) := ⟨fun purpose => (purpose.origin, purpose.role)⟩

inductive Row where
  | attemptRegistered (identity : Identity)
  | approvalConsumed (id bindingSha256 : String)
  | pausedRequestBlocked (code : Code) (origin requestRef : Option String)
  | escalation (code : Code) (origin requestRef : Option String)
  | destinationGranted (id origin : String) (roles : List String) (expiresAt : Int)
  | requestDenied (requestRef bindingSha256 : String)
  | resumed
  | revoked (discarded : List (String × String))
  | requestAdmitted (requestRef bindingSha256 : String) (effect : Effect) (approvalId : Option String)
  | sendStarted (requestRef bindingSha256 : String)
  | responseCompleted (requestRef : String) (status : Nat) (effect : Effect)
  | requestFailed (requestRef bindingSha256 : String) (code : Code) (sent uncertain : Bool)
deriving DecidableEq

/-- A line of the ledger file. -/
inductive Line where
  | whole (row : Row)
  | torn

/-- What a write to the ledger comes to: a short count, or an error that may leave the line. -/
inductive Written where
  | whole
  | short
  | fails (onDisk : Bool)
deriving DecidableEq

structure Ledger where
  rows : List Row
  approvals : List String
  file : List Line

inductive Phase where
  | running
  | paused
  | revoked
deriving DecidableEq

structure AttemptGateway where
  phase : Phase
  reason : Option Code
  startedAt : Int
  requests : Nat
  responseBytes : Nat
  effectsSent : Nat
  effectsUncertain : Nat
  inflight : Nat
  pending : Table Record
  tickets : Table Ticket
  additions : Table Addition
  extraTargets : Table Target
  purposes : Table Purpose
  ledger : Ledger

inductive Halt where
  | pause
  | denial (request : Nat)
  | revocation
deriving DecidableEq

structure Wire where
  method : String
  url : String
  bodySha256 : String
deriving DecidableEq

/-- What an approval id was consumed for. -/
inductive Use where
  | effect (request : Nat) (grant : EffectGrant)
  | destination (grant : DestinationGrant)
deriving DecidableEq

inductive Event where
  | reviewed (record : Record)
  | minted (ticket : Ticket)
  | consumed (id : String) (use : Use)
  | froze
  | halted (halt : Halt)
  | admitted (admission : Nat) (ticket : Ticket) (time : Int)
  | sent (admission : Nat) (ticket : Ticket) (wire : Wire)
deriving DecidableEq

inductive Stage where
  | resolving
  | receiving
  | reading (limit : Nat)
  | failing (code : Code)
  | draining
deriving DecidableEq

/-- A thread inside `forward`. -/
structure Forward where
  admission : Nat
  ticket : Ticket
  parts : Parts
  wire : Wire
  stage : Stage
  sent : Bool

instance : Keyed Forward Nat := ⟨Forward.admission⟩

structure Attempt where
  gateway : AttemptGateway
  forwards : Table Forward
  reads : Nat
  writes : Nat
  reviews : Nat
  mints : Nat
  admissions : Nat
  history : List Event

structure World extends Syntax where
  policy : Policy
  clock : Nat → Int
  writes : Nat → Written
  /-- `secrets.token_hex(32)`. -/
  token : Nat → String
  ticketSeconds : Int
  isRef : String → Bool
  binding : String → Metadata → Option DestinationGrant → String
  isContext : String → Bool
  validateDestination : Destination → Except Code Unit
  validateTarget : Target → Except Code Unit

abbrev Act := EStateM Failure Attempt

def refuse (fails : Bool) (code : Code) : Act Unit := if fails then throw (.denied code) else pure ()

def lift {α : Type} : Except Code α → Act α
  | .ok value => pure value
  | .error code => throw (.denied code)

/-- What came in, or what was raised over it. -/
def external {α : Type} : Except Failure α → Act α
  | .ok value => pure value
  | .error failure => throw failure

def Attempt.write (a : Attempt) (change : AttemptGateway → AttemptGateway) : Attempt :=
  { a with gateway := change a.gateway }

def Attempt.note (a : Attempt) (event : Event) : Attempt := { a with history := a.history ++ [event] }

def update (change : Attempt → Attempt) : Act Unit := modify change

def now (w : World) : Act Int := fun a => .ok (w.clock a.reads) { a with reads := a.reads + 1 }

def Ledger.write (ledger : Ledger) (row : Row) : Written → Ledger
  | .whole => { ledger with rows := ledger.rows ++ [row], file := ledger.file ++ [.whole row] }
  | .short => { ledger with file := ledger.file ++ [.torn] }
  | .fails true => { ledger with file := ledger.file ++ [.whole row] }
  | .fails false => ledger

def append (w : World) (row : Row) : Act Unit := fun a =>
  let written := w.writes a.writes
  let after :=
    { a with writes := a.writes + 1, gateway := { a.gateway with ledger := a.gateway.ledger.write row written } }
  match written with
  | .whole => .ok () after
  | .short => .error (.denied .ledgerWriteFailed) after
  | .fails _ => .error .raised after

def AttemptGateway.approve (gateway : AttemptGateway) (id : String) : AttemptGateway :=
  { gateway with ledger := { gateway.ledger with approvals := gateway.ledger.approvals ++ [id] } }

def consume (w : World) (id bindingSha256 : String) (use : Use) : Act Unit := do
  let a ← get
  refuse (a.gateway.ledger.approvals.contains id) .approvalAlreadyConsumed
  append w (.approvalConsumed id bindingSha256)
  update fun a => (a.write (·.approve id)).note (.consumed id use)

def AttemptGateway.revoked (gateway : AttemptGateway) (reason : Code) : AttemptGateway :=
  { gateway with phase := .revoked, reason := some reason, tickets := ∅ }

def audit (w : World) (row : Row) : Act Unit :=
  tryCatch (append w row) fun _ => do
    update (·.write (·.revoked .ledgerWriteFailed))
    throw (.denied .ledgerWriteFailed)

def checkFresh (w : World) : Act Unit := do
  let time ← now w
  refuse (w.policy.expiresAt ≤ time) .networkPlanExpired

def checkTime (w : World) : Act Unit := do
  let time ← now w
  let a ← get
  if a.gateway.startedAt + w.policy.maxSeconds ≤ time then do
    update (·.write (·.revoked .timeBudgetExhausted))
    throw (.denied .timeBudgetExhausted)
  else pure ()

/-- `_check`. -/
def check (w : World) (allowPaused : Bool) : Act Unit := do
  let a ← get
  refuse (a.gateway.phase = .revoked) .gatewayRevoked
  checkFresh w
  checkTime w
  let a ← get
  refuse (a.gateway.phase ≠ .running ∧ !allowPaused) .gatewayPaused

def AttemptGateway.userPaused (gateway : AttemptGateway) : Bool :=
  gateway.phase = .paused && gateway.reason = some .userPaused

/-- No ticket outlives a freeze, nor the request it was minted for. -/
def AttemptGateway.frozen (gateway : AttemptGateway) (code : Code) : AttemptGateway :=
  { gateway with
    phase := .paused
    reason := some code
    pending := gateway.pending.filter fun record =>
      !(gateway.tickets.rows.any (·.record.requestRef == record.requestRef))
    tickets := ∅ }

/-- `_freeze`. -/
def freeze (w : World) (code : Code) (origin requestRef : Option String) : Act Unit := do
  let a ← get
  if a.gateway.phase = .revoked then pure ()
  else if a.gateway.userPaused && code = .gatewayPaused then audit w (.pausedRequestBlocked code origin requestRef)
  else do
    update fun a => (a.write (·.frozen code)).note .froze
    audit w (.escalation code origin requestRef)

/-- `except Denied` around a block. -/
def freezing {α : Type} (w : World) (requestRef : Option String) (program : Act α) : Act α :=
  tryCatch program fun failure => do
    match failure with
    | .denied code => freeze w code none requestRef
    | .raised => pure ()
    throw failure

def refuseExpired (w : World) (purpose : Option Purpose) : Act Unit :=
  match purpose with
  | none => pure ()
  | some purpose => do
    let time ← now w
    refuse (purpose.grant.expiresAt ≤ time) .destinationGrantExpired

/-- `policy.destination`. -/
def destination (w : World) (parts : Parts) (role : String) : Act Destination := do
  checkFresh w
  let a ← get
  lift (w.policy.destination parts role ((a.gateway.additions.get (parts.origin, role)).map Addition.item))

def Ticket.of (w : World) (a : Attempt) (record : Record) (time : Int) : Ticket :=
  ⟨w.token a.mints, { record with expiresAt := min record.expiresAt (time + w.ticketSeconds) }⟩

def Attempt.mint (a : Attempt) (ticket : Ticket) : Attempt :=
  { (a.write fun gateway => { gateway with tickets := gateway.tickets.put ticket }).note
    (.minted ticket) with mints := a.mints + 1 }

/-- `_ticket`. -/
def mint (w : World) (record : Record) : Act Ticket := do
  let time ← now w
  let a ← get
  update (·.mint (Ticket.of w a record time))
  pure (Ticket.of w a record time)

end ProxyPilot.Gateway
