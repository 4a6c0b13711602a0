import Mathlib.Data.List.Nodup
import ProxyPilot.Data.Checks
import ProxyPilot.Data.Table

namespace ProxyPilot.Broker

/-! # Requests and records (`credential-broker/schema.mjs`, `broker.mjs`)

What the code rejects by its shape alone (a missing key, a string that is no
UUID, an input of the other operation) has no value of these types.

A digest is modelled by what it digests, a bearer token by the number it was
drawn as.
-/

/-- A well-formed UUID.  The ones the program makes come from a counter. -/
abbrev Uuid := Nat

/-- Milliseconds of the clock. -/
abbrev Time := Int

inductive Operation where
  | itemRead
  | itemSetState
deriving DecidableEq

inductive ItemState where
  | opened
  | closed
deriving DecidableEq

inductive Input where
  | read (resourceId : Uuid)
  | setState (resourceId : Uuid) (state : ItemState)
deriving DecidableEq

def Input.operation : Input → Operation
  | .read _ => .itemRead
  | .setState _ _ => .itemSetState

def Input.resourceId : Input → Uuid
  | .read resourceId => resourceId
  | .setState resourceId _ => resourceId

structure Limits where
  maxActions : Nat
  maxSeconds : Nat
deriving DecidableEq

def limits (v : Limits) : Bool :=
  1 ≤ v.maxActions && v.maxActions ≤ 20 && 1 ≤ v.maxSeconds && v.maxSeconds ≤ 300

def list {α : Type} [DecidableEq α] (v : List α) : Bool :=
  !v.isEmpty && v.length ≤ 32 && decide v.Nodup

def subset {α : Type} [DecidableEq α] (a b : List α) : Bool := a.all (· ∈ b)

def narrow (a b : Limits) : Bool := limits a && a.maxActions ≤ b.maxActions && a.maxSeconds ≤ b.maxSeconds

/-- What a record, a session and a request each carry of what may be done. -/
structure Allowed where
  operations : List Operation
  resources : List Uuid
  limits : Limits
deriving DecidableEq

/-- `subset` and `narrow` of a scope to another. -/
def Allowed.within (a b : Allowed) : Bool :=
  subset a.operations b.operations && subset a.resources b.resources && narrow a.limits b.limits

def validateScope (r : Allowed) : Bool := list r.operations && list r.resources && limits r.limits

private def utf16Length (v : String) : Nat := v.toList.foldl (fun n c => n + if c.val < 0x10000 then 1 else 2) 0

/-- Not empty, not too long, no control character. -/
def string (v : String) (max : Nat) : Bool :=
  !v.isEmpty && utf16Length v ≤ max && v.toList.all fun c => 0x1f < c.val && c.val ≠ 0x7f

open Data

inductive BrokerError where
  | notFound | notPermitted | authRequired | freshProofRequired | invalidRequest | scopeExceeded
  | revisionMismatch | idempotencyConflict | limitExceeded | approvalRequired | brokerUnavailable
  | enrollmentReconcileRequired | connectionTestFailed
deriving DecidableEq

inductive Right where
  | view | use | assign | manage
deriving DecidableEq

inductive ManageAction where
  | test | rename | rotate | revoke | permissions
deriving DecidableEq

inductive Status where
  | saved | active | revoked
deriving DecidableEq

inductive EnrollmentState where
  | reserved | committed | reconcileRequired
deriving DecidableEq

structure Permission extends Allowed where
  userId : Uuid
  rights : List Right
  expiresAt : Time
  manageActions : List ManageAction

structure Enrollment where
  id : Uuid
  externalIntentId : Option Uuid
  state : EnrollmentState
  expectedVersion : Nat

structure Connection extends Allowed where
  id : Uuid
  name : String
  projectId : Option Uuid
  ownerId : Uuid
  revision : Nat
  policyRevision : Nat
  credentialVersion : Nat
  status : Status
  credentialId : Uuid
  permissions : List Permission
  enrollment : Enrollment
  /-- `none` until the store is reopened. -/
  policyRevalidationRequired : Option Bool

structure Grant extends Allowed where
  id : Uuid
  userId : Uuid
  projectId : Uuid
  agentId : Uuid
  expiresAt : Time
  connectionId : Uuid
  revision : Nat
  revoked : Bool
  authorizingEvent : Uuid

structure SessionRequest extends Allowed where
  taskId : Uuid
  attempt : Uuid
  fence : Uuid
  expiresAt : Time
  audience : String
deriving DecidableEq

abbrev Token := Nat

structure Session extends SessionRequest where
  id : Uuid
  verifier : Token
  connectionId : Uuid
  grantId : Uuid
  userId : Uuid
  agentId : Uuid
  projectId : Uuid
  connectionRevision : Nat
  credentialVersion : Nat
  policyRevision : Nat
  grantRevision : Nat
  revoked : Bool
  used : Nat

/-- A request of `execute` and `approve` after `normalized`. -/
structure Normalized where
  connectionId : Uuid
  input : Input
  recoveryOf : Option Uuid
deriving DecidableEq

structure OpDigest where
  request : Normalized
  sessionId : Uuid
  userId : Uuid
  agentId : Uuid
  projectId : Uuid
  taskId : Uuid
  attempt : Uuid
  fence : Uuid
  audience : String
  expiresAt : Time
  connectionRevision : Nat
  grantRevision : Nat
  credentialVersion : Nat
deriving DecidableEq

structure Approval where
  id : Uuid
  connectionId : Uuid
  sessionId : Uuid
  digest : OpDigest
  expiresAt : Time
  consumed : Bool

inductive OperationState where
  | reserved | sending | succeeded | failed | uncertain
deriving DecidableEq

inductive Decision where
  | confirmedApplied | confirmedNotApplied | abandon
deriving DecidableEq

structure Reconciled where
  decision : Decision
  actorId : Uuid
  at_ : Time

inductive OperationCode where
  | brokerUnavailable | upstreamRejected | operationUncertain

/-- What the upstream answers; `applied` is there for a write only. -/
structure Result where
  resourceId : Uuid
  state : ItemState
  applied : Option Bool

/-- The session and the idempotency key whose digest is an operation's key. -/
structure OperationKey where
  sessionId : Uuid
  idempotencyKey : String
deriving DecidableEq

structure OperationRecord where
  id : Uuid
  key : OperationKey
  digest : OpDigest
  sessionId : Uuid
  taskId : Uuid
  connectionId : Uuid
  operation : Operation
  state : OperationState
  createdAt : Time
  recoveryOf : Option Uuid
  code : Option OperationCode
  result : Option Result
  completedAt : Option Time
  reconciled : Option Reconciled

inductive EventType where
  | enrollmentReserved | enrolled | enrollmentReconcileRequired | enrollmentReconciled | rotationReserved
  | rotated | tested | assigned | permissionChanged | sessionIssued | approved | revoked | unassigned
  | renamed | operationReconciled | policyRevalidated

structure EventRecord where
  type : EventType
  connectionId : Uuid
  revision : Nat
  actorId : Uuid
  at_ : Time

instance : Keyed Connection Uuid := ⟨Connection.id⟩
instance : Keyed Grant Uuid := ⟨Grant.id⟩
instance : Keyed Session Uuid := ⟨Session.id⟩
instance : Keyed Approval Uuid := ⟨Approval.id⟩
instance : Keyed OperationRecord Uuid := ⟨OperationRecord.id⟩

/-- The tables of `records`; the events are newest first. -/
structure Store where
  connections : Table Connection
  grants : Table Grant
  sessions : Table Session
  approvals : Table Approval
  operations : Table OperationRecord
  events : List EventRecord
  /-- What `id()` and `randomBytes` draw next. -/
  nextId : Uuid

/-- What `rights` answers; without a permission it grants nothing. -/
structure Rights extends Allowed where
  rights : List Right
  manageActions : List ManageAction
  expiresAt : Option Time

def Connection.rights (c : Connection) (u : Uuid) (now : Time) : Rights :=
  if c.ownerId = u then
    { toAllowed := c.toAllowed, rights := [.view, .use, .assign, .manage]
      manageActions := [.test, .rename, .rotate, .revoke, .permissions], expiresAt := none }
  else match c.permissions.find? fun p => p.userId = u && now < p.expiresAt with
    | some p => { toAllowed := p.toAllowed, rights := p.rights, manageActions := p.manageActions
                  expiresAt := some p.expiresAt }
    | none => ⟨⟨[], [], ⟨0, 0⟩⟩, [], [], none⟩

def Connection.revalidates (c : Connection) : Bool := c.policyRevalidationRequired = some true

def access (c : Connection) (u : Uuid) (right : Right) (now : Time) : Except BrokerError Rights := do
  let r := c.rights u now
  require (.view ∈ r.rights) .notFound
  require (right ∈ r.rights) .notPermitted
  return r

def management (c : Connection) (u : Uuid) (action : ManageAction) (now : Time) : Except BrokerError Unit := do
  let r ← access c u .manage now
  require (!c.revalidates || (action = .revoke && c.ownerId = u)) .notPermitted
  require (action ∈ r.manageActions) .notPermitted

def rev (revision expected : Nat) : Except BrokerError Unit := require (revision = expected) .revisionMismatch

def get {α : Type} [Keyed α Uuid] (table : Table α) (key : Uuid) : Except BrokerError α :=
  demand (table.get key) .notFound

theorem get_ok {α : Type} [Keyed α Uuid] {table : Table α} {key : Uuid} {row : α} :
    get table key = .ok row ↔ table.get key = some row := demand_ok

def validateCurrent (store : Store) (s : Session) (now : Time) : Except BrokerError (Connection × Grant) := do
  let stored := store.sessions.get s.id
  require (!s.revoked && !(stored.any (·.revoked)) && now < s.expiresAt &&
    s.audience = "fractionate-broker") .notPermitted
  let c ← get store.connections s.connectionId
  let g ← get store.grants s.grantId
  require (!c.revalidates && c.status = .active && c.revision = s.connectionRevision &&
    c.credentialVersion = s.credentialVersion && !g.revoked && g.revision = s.grantRevision && now < g.expiresAt)
    .notPermitted
  let permission := c.rights s.userId now
  require (.use ∈ permission.rights) .notPermitted
  require (s.toAllowed.within c.toAllowed && s.toAllowed.within g.toAllowed &&
    s.toAllowed.within permission.toAllowed)
    .scopeExceeded
  return (c, g)

/-- The connection is as it was read, and not revoked. -/
def unchanged (store : Store) (c : Connection) : Except BrokerError Connection := do
  let latest ← get store.connections c.id
  require (latest.policyRevalidationRequired = c.policyRevalidationRequired && latest.revision = c.revision &&
    latest.status ≠ .revoked) .notPermitted
  return latest

/-- The check `enroll`, `rotate` and `testConnection` make before their last write. -/
def unrevised (store : Store) (c : Connection) : Except BrokerError Unit := do
  let latest ← get store.connections c.id
  require (latest.revision = c.revision && latest.status ≠ .revoked) .notPermitted

def session (store : Store) (token : Token) : Except BrokerError Session :=
  demand (store.sessions.rows.find? (·.verifier = token)) .authRequired

structure OperationRequest where
  connectionId : Uuid
  input : Input
  approvalId : Option Uuid
  recoveryOf : Option Uuid

def normalized (s : Session) (r : OperationRequest) : Except BrokerError Normalized := do
  require (r.connectionId = s.connectionId) .notFound
  require (r.input.operation ∈ s.operations && r.input.resourceId ∈ s.resources) .scopeExceeded
  return ⟨r.connectionId, r.input, r.recoveryOf⟩

def opDigest (s : Session) (r : Normalized) : OpDigest where
  request := r
  sessionId := s.id
  userId := s.userId
  agentId := s.agentId
  projectId := s.projectId
  taskId := s.taskId
  attempt := s.attempt
  fence := s.fence
  audience := s.audience
  expiresAt := s.expiresAt
  connectionRevision := s.connectionRevision
  grantRevision := s.grantRevision
  credentialVersion := s.credentialVersion

def Store.event (store : Store) (type : EventType) (c : Connection) (actor : Uuid) (now : Time) : Store :=
  { store with events := ⟨type, c.id, c.revision, actor, now⟩ :: store.events }

def Store.putConnection (store : Store) (c : Connection) : Store :=
  { store with connections := store.connections.put c }

def Store.putOperation (store : Store) (o : OperationRecord) : Store :=
  { store with operations := store.operations.put o }

def Session.revoke (s : Session) (given : Bool) : Session := if given then { s with revoked := true } else s

def Approval.consume (a : Approval) (given : Bool) : Approval := if given then { a with consumed := true } else a

theorem Session.revoke_id (s : Session) (given : Bool) : (s.revoke given).id = s.id := by cases given <;> rfl

theorem Approval.consume_id (a : Approval) (given : Bool) : (a.consume given).id = a.id := by cases given <;> rfl

def Store.invalidate (store : Store) (connectionId : Uuid) : Store :=
  { store with
    sessions := store.sessions.map (fun s => s.revoke (s.connectionId = connectionId)) fun s => s.revoke_id _
    approvals := store.approvals.map (fun a => a.consume (a.connectionId = connectionId)) fun a => a.consume_id _ }

def Connection.reopened (c : Connection) : Connection :=
  { c with policyRevalidationRequired := some true
           enrollment := if c.enrollment.state = .reserved then { c.enrollment with state := .reconcileRequired }
                         else c.enrollment }

theorem Connection.reopened_id (c : Connection) : c.reopened.id = c.id := rfl

def OperationRecord.reopened (o : OperationRecord) : OperationRecord :=
  if o.state = .sending then { o with state := .uncertain, code := some .operationUncertain } else o

theorem OperationRecord.reopened_id (o : OperationRecord) : o.reopened.id = o.id := by
  unfold reopened
  split <;> rfl

/-- What `openStore` makes of the tables it finds. -/
def Store.reopen (store : Store) : Store :=
  { store with
    connections := store.connections.map (·.reopened) fun c => c.reopened_id
    sessions := store.sessions.map (·.revoke true) fun s => s.revoke_id true
    approvals := store.approvals.map (·.consume true) fun a => a.consume_id true
    operations := store.operations.map (·.reopened) fun o => o.reopened_id }

end ProxyPilot.Broker
