import ProxyPilot.Broker.Records

namespace ProxyPilot.Broker

open Data

/-! # Operations of the broker, from await to await

A process is a call that waits: for the authority, for its turn behind the lock
of its connection, for the vault or for the upstream, or only for its own
promise (`…Checked`, `…Rechecked`, `…Guarded`: the check has passed and the call
goes on in a later turn).  Each function below is one turn: from what it waited
for to where it waits next.  It throws before it has written anything, or not
at all; a write that ends in an error is an outcome of its own.
-/

structure Principal where
  userId : Uuid
  proofType : String
  disabled : Bool
  freshUntil : Time
  workloadScope : Option (Uuid × SessionRequest)

structure EnrollRequest extends Allowed where
  name : String
  projectId : Option Uuid
  adapterId : String

structure AssignRequest extends Allowed where
  userId : Uuid
  projectId : Uuid
  agentId : Uuid
  expiresAt : Time

inductive Call where
  | enroll (request : EnrollRequest) (credential : String) (externalIntentId : Option Uuid)
  | reconcileEnrollment (connectionId : Uuid) (revision : Nat)
  | rotate (connectionId : Uuid) (revision : Nat) (credential : String)
  | testConnection (connectionId : Uuid) (revision : Nat)
  | assign (connectionId : Uuid) (revision : Nat) (request : AssignRequest)
  | setPermission (connectionId : Uuid) (revision : Nat) (request : Permission)
  | issueSession (grantId : Uuid) (request : SessionRequest)
  | approve (sessionId : Uuid) (request : OperationRequest)
  | revoke (connectionId : Uuid) (revision : Nat)
  | unassign (grantId : Uuid) (revision : Nat)
  | rename (connectionId : Uuid) (revision : Nat) (name : String)
  | reconcileOperation (operationId : Uuid) (decision : Decision)
  | revalidatePolicy (connectionId : Uuid) (revision : Nat)
  | execute (token : Token) (request : OperationRequest) (idempotencyKey : String)

/-- A call of `execute` after `normalized`. -/
structure Execution where
  token : Token
  request : Normalized
  approvalId : Option Uuid
  idempotencyKey : String

/-- What a call does once it has the lock; `u` is the authenticated user. -/
inductive Work where
  | enroll (c : Connection) (credential : String)
  | reconcileEnrollment (u connectionId : Uuid) (revision : Nat)
  | rotate (u connectionId : Uuid) (revision : Nat) (credential : String)
  | testConnection (u connectionId : Uuid) (revision : Nat)
  | assign (u connectionId : Uuid) (revision : Nat) (request : AssignRequest)
  | setPermission (u connectionId : Uuid) (revision : Nat) (request : Permission)
  | issueSession (u : Uuid) (g : Grant) (request : SessionRequest)
  | approve (u : Uuid) (s : Session) (request : OperationRequest)
  | rename (u connectionId : Uuid) (revision : Nat) (name : String)
  | revalidatePolicy (u connectionId : Uuid) (revision : Nat)
  | execute (e : Execution)

/-- An execution after its reservation. -/
structure Job where
  execution : Execution
  operation : OperationRecord
  approval : Option Approval

inductive Proc where
  | authenticating (call : Call)
  | waiting (key : Uuid) (work : Work)
  | enrollWriting (c : Connection) (credential : String)
  | enrollReading (c : Connection) (credential : String) (version : Nat)
  | reconcileReading (u : Uuid) (c : Connection)
  | rotateWriting (u : Uuid) (c : Connection) (credential : String)
  | rotateReading (u : Uuid) (c : Connection) (credential : String) (version : Nat)
  | testReading (u : Uuid) (c : Connection)
  | testSending (u : Uuid) (c : Connection)
  | assignDeciding (u : Uuid) (c : Connection) (request : AssignRequest)
  | issueEligible (u : Uuid) (s : Session)
  | issueChecked (u : Uuid) (s : Session)
  | approveEligible (u : Uuid) (s : Session) (request : OperationRequest)
  | approveChecked (u : Uuid) (s : Session) (c : Connection) (request : OperationRequest)
  | unassignDeciding (u : Uuid) (c : Connection) (g : Grant)
  | revalidating (u : Uuid) (c : Connection)
  | executeEligible (s : Session) (e : Execution)
  | executeChecked (s : Session) (c : Connection) (e : Execution)
  | vaultReading (job : Job)
  | rechecking (s : Session) (job : Job)
  | rechecked (job : Job)
  | upstreamCalled (job : Job)
  | guarding (s : Session) (job : Job)
  | guarded (job : Job)
  | sent (job : Job)

/-- How a turn ends: at the next await, or with the answer to the caller, which for
`execute` is a receipt. -/
inductive Next where
  | await (proc : Proc)
  | done (result : Except BrokerError (Option OperationRecord))

/-- What an observer sees of the turns, newest first. -/
inductive Event where
  | created (connectionId : Uuid) (externalIntentId : Option Uuid)
  | reserved (o : OperationRecord) (approval : Option Approval)
  /-- `upstream.execute` was called for the operation. -/
  | called (o : OperationRecord)
  /-- The check before sending passed for the session. -/
  | passed (sessionId : Uuid)

structure Outcome where
  store : Store
  next : Next
  events : List Event

abbrev Turn := Except BrokerError Outcome

def Store.await (store : Store) (proc : Proc) : Outcome := ⟨store, .await proc, []⟩

def Store.done (store : Store) : Outcome := ⟨store, .done (.ok none), []⟩

def enrollAdmitted (store : Store) (u : Uuid) (request : EnrollRequest) (credential : String)
    (externalIntentId : Option Uuid) : Turn := do
  require (!(externalIntentId.isSome &&
    store.connections.rows.any (·.enrollment.externalIntentId = externalIntentId))) .idempotencyConflict
  require (string request.name 200 && request.adapterId = "synthetic-ledger-v1" &&
    validateScope request.toAllowed &&
    string credential 4096) .invalidRequest
  let cid := store.nextId
  let c : Connection :=
    { toAllowed := request.toAllowed, id := cid, name := request.name, projectId := request.projectId, ownerId := u
      revision := 1, policyRevision := 1, credentialVersion := 0, status := .saved, credentialId := cid + 1
      permissions := [], enrollment :=
        ⟨cid + 2, externalIntentId, .reserved, 1⟩, policyRevalidationRequired := none }
  return { store with nextId := cid + 3 }.await (.waiting cid (.enroll c credential))

def enrollEntered (store : Store) (c : Connection) (credential : String) (now : Time) : Turn :=
  .ok ⟨(store.putConnection c).event .enrollmentReserved c c.ownerId now, .await (.enrollWriting c credential),
    [.created c.id c.enrollment.externalIntentId]⟩

/-- The `catch` of `enroll` and of `rotate`; only the first writes an event. -/
def reconcileRequired (store : Store) (c : Connection) (event : Store → Store) : Turn := do
  let latest ← get store.connections c.id
  let latest := { latest with enrollment := { latest.enrollment with state := .reconcileRequired } }
  return ⟨event (store.putConnection latest), .done (.error .enrollmentReconcileRequired), []⟩

def enrollFailed (store : Store) (c : Connection) (now : Time) : Turn :=
  reconcileRequired store c (·.event .enrollmentReconcileRequired c c.ownerId now)

def enrollWritten (store : Store) (c : Connection) (credential : String) (answer : Option Nat)
    (now : Time) : Turn :=
  match answer with
  | some version => .ok (store.await (.enrollReading c credential version))
  | none => enrollFailed store c now

structure Secret where
  value : String
  intent : Uuid
  version : Nat

def enrollCommit (store : Store) (c : Connection) (credential : String) (version : Nat) (answer : Option Secret)
    (now : Time) : Turn := do
  let read ← demand answer .brokerUnavailable
  require (version = 1 && read.value = credential && read.intent = c.enrollment.id) .brokerUnavailable
  unrevised store c
  let c := { c with credentialVersion := 1, enrollment := { c.enrollment with state := .committed } }
  return ((store.putConnection c).event .enrolled c c.ownerId now).done

def enrollRead (store : Store) (c : Connection) (credential : String) (version : Nat) (answer : Option Secret)
    (now : Time) : Turn :=
  match enrollCommit store c credential version answer now with
  | .ok outcome => .ok outcome
  | .error _ => enrollFailed store c now

def reconcileEnrollmentEntered (store : Store) (u connectionId : Uuid) (revision : Nat) (now : Time) : Turn := do
  let c ← get store.connections connectionId
  management c u .rotate now
  rev c.revision revision
  require (c.enrollment.state = .reconcileRequired) .invalidRequest
  return store.await (.reconcileReading u c)

def reconcileRead (store : Store) (u : Uuid) (c : Connection) (answer : Option Secret) (now : Time) : Turn := do
  let r ← demand answer .brokerUnavailable
  require (r.intent = c.enrollment.id && r.version = c.enrollment.expectedVersion) .enrollmentReconcileRequired
  let _ ← unchanged store c
  let c := { c with credentialVersion := r.version, enrollment := { c.enrollment with state := .committed }
                    revision := c.revision + 1 }
  return ((store.putConnection c).event .enrollmentReconciled c u now).done

/-- The new enrollment has no external intent. -/
def Connection.reserveRotation (c : Connection) (intent : Uuid) : Connection :=
  { c with status := .saved, revision := c.revision + 1
           enrollment := ⟨intent, none, .reserved, c.credentialVersion + 1⟩ }

def rotateEntered (store : Store) (u connectionId : Uuid) (revision : Nat) (credential : String)
    (now : Time) : Turn := do
  let c ← get store.connections connectionId
  management c u .rotate now
  rev c.revision revision
  require (c.status ≠ .revoked && c.enrollment.state = .committed) .notPermitted
  let c := c.reserveRotation store.nextId
  return ((({ store with nextId := store.nextId + 1 }.invalidate c.id).putConnection c).event
    .rotationReserved c u now).await (.rotateWriting u c credential)

def rotateFailed (store : Store) (c : Connection) : Turn := reconcileRequired store c id

def rotateWritten (store : Store) (u : Uuid) (c : Connection) (credential : String) (answer : Option Nat) : Turn :=
  match answer with
  | some version => .ok (store.await (.rotateReading u c credential version))
  | none => rotateFailed store c

def rotateCommit (store : Store) (u : Uuid) (c : Connection) (credential : String) (version : Nat)
    (answer : Option Secret) (now : Time) : Turn := do
  let r ← demand answer .brokerUnavailable
  require (version = c.enrollment.expectedVersion && r.value = credential && r.intent = c.enrollment.id)
    .brokerUnavailable
  unrevised store c
  let c := { c with credentialVersion := version, enrollment := { c.enrollment with state := .committed } }
  return ((store.putConnection c).event .rotated c u now).done

def rotateRead (store : Store) (u : Uuid) (c : Connection) (credential : String) (version : Nat)
    (answer : Option Secret) (now : Time) : Turn :=
  match rotateCommit store u c credential version answer now with
  | .ok outcome => .ok outcome
  | .error _ => rotateFailed store c

def testEntered (store : Store) (u connectionId : Uuid) (revision : Nat) (now : Time) : Turn := do
  let c ← get store.connections connectionId
  management c u .test now
  rev c.revision revision
  require (c.status ≠ .revoked && c.enrollment.state = .committed) .notPermitted
  return store.await (.testReading u c)

def testFailed (store : Store) : Turn := .ok ⟨store, .done (.error .connectionTestFailed), []⟩

def testRead (store : Store) (u : Uuid) (c : Connection) (answer : Option Secret) : Turn :=
  match answer, unchanged store c with
  | some _, .ok _ => .ok (store.await (.testSending u c))
  | _, _ => testFailed store

/-- The upstream's answer; what its `beforeSend` checks is part of it. -/
def testAnswered (store : Store) (u : Uuid) (c : Connection) (answer : Option Result) (now : Time) : Turn :=
  match answer, unrevised store c with
  | some _, .ok _ =>
    let c := { c with status := .active }
    .ok ((store.putConnection c).event .tested c u now).done
  | _, _ => testFailed store

def lasts (expiresAt now : Time) (most : Time) : Bool := now < expiresAt && expiresAt ≤ now + most

def assignEntered (store : Store) (u connectionId : Uuid) (revision : Nat) (request : AssignRequest) (now : Time) :
    Turn := do
  let c ← get store.connections connectionId
  let r ← access c u .assign now
  require (!c.revalidates) .notPermitted
  rev c.revision revision
  require (request.toAllowed.within r.toAllowed && c.projectId.all (· = request.projectId)) .scopeExceeded
  let receiver := c.rights request.userId now
  require (.use ∈ receiver.rights && request.toAllowed.within receiver.toAllowed &&
    r.expiresAt.all (request.expiresAt ≤ ·))
    .scopeExceeded
  require (lasts request.expiresAt now 86400000) .invalidRequest
  return store.await (.assignDeciding u c request)

def assignDecided (store : Store) (u : Uuid) (c : Connection) (request : AssignRequest)
    (allowed : Bool) (now : Time) :
    Turn := do
  require allowed .notPermitted
  let _ ← unchanged store c
  let g : Grant :=
    { toAllowed := request.toAllowed, id := store.nextId, userId := request.userId, projectId := request.projectId
      agentId := request.agentId, expiresAt := request.expiresAt, connectionId := c.id, revision := 1
      revoked := false, authorizingEvent := store.nextId + 1 }
  return ({ store with grants := store.grants.put g, nextId := store.nextId + 2 }.event .assigned c u now).done

def unassignAdmitted (store : Store) (u grantId : Uuid) (revision : Nat) (now : Time) : Turn := do
  let g ← get store.grants grantId
  let c ← get store.connections g.connectionId
  let _ ← access c u .assign now
  rev g.revision revision
  return store.await (.unassignDeciding u c g)

def unassignDecided (store : Store) (u : Uuid) (c : Connection) (g : Grant) (allowed : Bool)
    (now : Time) : Turn := do
  require allowed .notPermitted
  let _ ← unchanged store c
  let latest ← get store.grants g.id
  rev latest.revision g.revision
  let store := { store with
    grants := store.grants.put { g with revoked := true, revision := g.revision + 1 }
    sessions := store.sessions.map (fun s => s.revoke (s.grantId = g.id)) fun s => s.revoke_id _ }
  return (store.event .unassigned c u now).done

def Connection.permit (c : Connection) (request : Permission) : Connection :=
  { c with permissions := c.permissions.filter (·.userId ≠ request.userId) ++ [request]
           revision := c.revision + 1, policyRevision := c.policyRevision + 1 }

def Connection.rename (c : Connection) (name : String) : Connection := { c with name, revision := c.revision + 1 }

def Connection.revoke (c : Connection) : Connection := { c with status := .revoked, revision := c.revision + 1 }

def setPermissionEntered (store : Store) (u connectionId : Uuid) (revision : Nat)
    (request : Permission) (now : Time) :
    Turn := do
  let c ← get store.connections connectionId
  let _ ← access c u .manage now
  require (!c.revalidates && c.ownerId = u) .notPermitted
  rev c.revision revision
  require (.view ∈ request.rights && lasts request.expiresAt now 86400000) .invalidRequest
  require (request.toAllowed.within c.toAllowed) .scopeExceeded
  let c := c.permit request
  return (((store.invalidate c.id).putConnection c).event .permissionChanged c u now).done

def renameEntered (store : Store) (u connectionId : Uuid) (revision : Nat) (name : String) (now : Time) : Turn := do
  let c ← get store.connections connectionId
  management c u .rename now
  rev c.revision revision
  let c := c.rename name
  return (((store.invalidate c.id).putConnection c).event .renamed c u now).done

def revokeAdmitted (store : Store) (u connectionId : Uuid) (revision : Nat) (now : Time) : Turn := do
  let c ← get store.connections connectionId
  management c u .revoke now
  rev c.revision revision
  let c := c.revoke
  return (((store.invalidate c.id).putConnection c).event .revoked c u now).done

def revalidatePolicyEntered (store : Store) (u connectionId : Uuid) (revision : Nat) : Turn := do
  let c ← get store.connections connectionId
  require (c.ownerId = u) .notFound
  rev c.revision revision
  return store.await (.revalidating u c)

def revalidated (store : Store) (u : Uuid) (c : Connection) (allowed : Bool) (now : Time) : Turn := do
  require allowed .notPermitted
  let _ ← unchanged store c
  let c := { c with policyRevalidationRequired := some false, revision := c.revision + 1 }
  return ((store.putConnection c).event .policyRevalidated c u now).done

def issueSessionAdmitted (configured : Bool) (store : Store) (p : Principal) (grantId : Uuid)
    (request : SessionRequest) :
    Turn := do
  require (!configured || p.workloadScope = some (grantId, request)) .notPermitted
  require (validateScope request.toAllowed && request.audience = "fractionate-broker") .invalidRequest
  let g ← get store.grants grantId
  require (g.userId = p.userId) .notFound
  return store.await (.waiting g.connectionId (.issueSession p.userId g request))

def issueSessionEntered (store : Store) (u : Uuid) (g : Grant) (request : SessionRequest) (now : Time) : Turn := do
  let c ← get store.connections g.connectionId
  let _ ← access c u .use now
  require (g.userId = u && !g.revoked) .notPermitted
  require (request.toAllowed.within g.toAllowed &&
    request.toAllowed.within (c.rights u now).toAllowed) .scopeExceeded
  require (now < request.expiresAt && request.expiresAt ≤ min g.expiresAt (now + request.limits.maxSeconds * 1000))
    .invalidRequest
  let s : Session :=
    { toSessionRequest := request, id := store.nextId, verifier := store.nextId + 1, connectionId := c.id
      grantId := g.id, userId := g.userId, agentId := g.agentId, projectId := g.projectId
      connectionRevision := c.revision, credentialVersion := c.credentialVersion, policyRevision := c.policyRevision
      grantRevision := g.revision, revoked := false, used := 0 }
  let store := { store with nextId := store.nextId + 2 }
  let _ ← validateCurrent store s now
  return store.await (.issueEligible u s)

def issueDecided (store : Store) (u : Uuid) (s : Session) (eligible : Bool) (now : Time) : Turn := do
  require eligible .notPermitted
  let _ ← validateCurrent store s now
  return store.await (.issueChecked u s)

/-- The event carries the connection as it was read at first. -/
def issueResumed (store : Store) (u : Uuid) (s : Session) (now : Time) : Turn :=
  .ok { store with sessions := store.sessions.put s
                   events := ⟨.sessionIssued, s.connectionId, s.connectionRevision, u, now⟩ :: store.events }.done

def approveAdmitted (store : Store) (u sessionId : Uuid) (request : OperationRequest) : Turn := do
  let s ← get store.sessions sessionId
  require (s.userId = u) .notFound
  return store.await (.waiting s.connectionId (.approve u s request))

def approveEntered (store : Store) (u : Uuid) (s : Session) (request : OperationRequest) (now : Time) : Turn := do
  let _ ← validateCurrent store s now
  return store.await (.approveEligible u s request)

def approveDecided (store : Store) (u : Uuid) (s : Session) (request : OperationRequest)
    (eligible : Bool) (now : Time) :
    Turn := do
  require eligible .notPermitted
  let (c, _) ← validateCurrent store s now
  return store.await (.approveChecked u s c request)

def approveResumed (store : Store) (u : Uuid) (s : Session) (c : Connection)
    (request : OperationRequest) (now : Time) :
    Turn := do
  require (u = s.userId && .use ∈ (c.rights u now).rights) .notPermitted
  let r ← normalized s request
  require (r.input.operation = .itemSetState) .invalidRequest
  let a : Approval := ⟨store.nextId, c.id, s.id, opDigest s r, min (now + 120000) s.expiresAt, false⟩
  return ({ store with approvals := store.approvals.put a, nextId := store.nextId + 1 }.event
    .approved c u now).done

private def isKey (key : String) : Bool :=
  string key 128 && key.toList.all fun c => c.isAlphanum || c == '_' || c == '-'

def executeBegun (store : Store) (token : Token) (request : OperationRequest) (idempotencyKey : String) :
    Except BrokerError Proc := do
  require (isKey idempotencyKey) .invalidRequest
  let initial ← session store token
  let r ← normalized initial request
  return .waiting initial.connectionId (.execute ⟨token, r, request.approvalId, idempotencyKey⟩)

def executeEntered (store : Store) (e : Execution) (now : Time) : Turn := do
  let s ← session store e.token
  let _ ← validateCurrent store s now
  return store.await (.executeEligible s e)

def executeDecided (store : Store) (s : Session) (e : Execution) (eligible : Bool) (now : Time) : Turn := do
  require eligible .notPermitted
  let (c, _) ← validateCurrent store s now
  return store.await (.executeChecked s c e)

/-- A request that names an operation to recover: its outcome is unknown, and the
owner has confirmed that it was not applied. -/
def recoverable (store : Store) (s : Session) (recoveryOf : Option Uuid) : Except BrokerError Unit :=
  match recoveryOf with
  | none => .ok ()
  | some id => do
    let old ← get store.operations id
    require (old.connectionId = s.connectionId && old.state = .uncertain &&
      old.reconciled.any (·.decision = .confirmedNotApplied)) .notPermitted

def counted (store : Store) (taskId connectionId : Uuid) : List OperationRecord :=
  store.operations.rows.filter fun o => o.taskId = taskId && o.connectionId = connectionId

def recent (store : Store) (connectionId : Uuid) (now : Time) : List OperationRecord :=
  store.operations.rows.filter fun o => o.connectionId = connectionId && now - 60000 < o.createdAt

/-- The approval the operation consumes; a read has none. -/
def approvalFor (store : Store) (s : Session) (e : Execution) (now : Time) : Except BrokerError (Option Approval) :=
  match e.request.input.operation with
  | .itemRead => .ok none
  | .itemSetState => do
    let id ← demand e.approvalId .approvalRequired
    let a ← get store.approvals id
    require (!a.consumed && now < a.expiresAt && a.sessionId = s.id &&
      a.digest = opDigest s e.request) .notPermitted
    return some a

def Execution.operation (e : Execution) (s : Session) (c : Connection) (id : Uuid) (now : Time) :
    OperationRecord where
  id := id
  key := ⟨s.id, e.idempotencyKey⟩
  digest := opDigest s e.request
  sessionId := s.id
  taskId := s.taskId
  connectionId := c.id
  operation := e.request.input.operation
  state := .reserved
  createdAt := now
  recoveryOf := e.request.recoveryOf
  code := none
  result := none
  completedAt := none
  reconciled := none

/-- The transaction of the reservation.  The session is the one read before the
last check. -/
def Store.reserve (store : Store) (s : Session) (o : OperationRecord) (a : Option Approval) : Store :=
  { store with
    approvals := match a with
      | some a => store.approvals.put { a with consumed := true }
      | none => store.approvals
    sessions := store.sessions.put { s with used := s.used + 1 }
    operations := store.operations.put o
    nextId := store.nextId + 1 }

def executeResumed (store : Store) (s : Session) (c : Connection) (e : Execution) (now : Time) : Turn :=
  match store.operations.rows.find? (·.key = ⟨s.id, e.idempotencyKey⟩) with
  | some old =>
    if old.digest ≠ opDigest s e.request then .error .idempotencyConflict
    else .ok ⟨store, .done (.ok (some old)), []⟩
  | none => do
    recoverable store s e.request.recoveryOf
    require ((counted store s.taskId c.id).length < s.limits.maxActions && (recent store c.id now).length < 10)
      .limitExceeded
    let a ← approvalFor store s e now
    let o := e.operation s c store.nextId now
    return ⟨store.reserve s o a, .await (.vaultReading ⟨e, o, a⟩), [.reserved o a]⟩

def Job.live (job : Job) (now : Time) : Bool := job.approval.all (now < ·.expiresAt)

def Job.completed (job : Job) (state : OperationState) (code : Option OperationCode) (result : Option Result)
    (now : Time) : OperationRecord :=
  { job.operation with state := state, code := code, result := result, completedAt := some now }

/-- Writes the operation and answers with its receipt. -/
def Job.settle (job : Job) (store : Store) (state : OperationState) (code : Option OperationCode)
    (result : Option Result) (now : Time) : Turn :=
  let o := job.completed state code result now
  .ok ⟨store.putOperation o, .done (.ok (some o)), []⟩

def Job.unavailable (job : Job) (store : Store) (now : Time) : Turn :=
  job.settle store .failed (some .brokerUnavailable) none now

def vaultRead (store : Store) (job : Job) (answer : Option Secret) (now : Time) : Turn :=
  let checked : Except BrokerError Session := do
    let _ ← demand answer .brokerUnavailable
    let s ← session store job.execution.token
    let _ ← validateCurrent store s now
    return s
  match checked with
  | .ok s => .ok (store.await (.rechecking s job))
  | .error _ => job.unavailable store now

def recheckDecided (store : Store) (s : Session) (job : Job) (eligible : Bool) (now : Time) : Turn :=
  match eligible, validateCurrent store s now with
  | true, .ok _ => .ok (store.await (.rechecked job))
  | _, _ => job.unavailable store now

def recheckResumed (store : Store) (job : Job) (now : Time) : Turn :=
  if job.live now then
    .ok ⟨store.putOperation { job.operation with state := .sending }, .await (.upstreamCalled job),
      [.called job.operation]⟩
  else job.unavailable store now

/-- `beforeSend`: it fails by answering the upstream, which has then not sent. -/
def guardBegun (store : Store) (job : Job) (now : Time) : Turn :=
  let checked : Except BrokerError Session := do
    let s ← session store job.execution.token
    let _ ← validateCurrent store s now
    return s
  match checked with
  | .ok s => .ok (store.await (.guarding s job))
  | .error _ => .ok (store.await (.upstreamCalled job))

def guardDecided (store : Store) (s : Session) (job : Job) (eligible : Bool) (now : Time) : Turn :=
  match eligible, validateCurrent store s now with
  | true, .ok _ => .ok ⟨store, .await (.guarded job), [.passed s.id]⟩
  | _, _ => .ok (store.await (.upstreamCalled job))

def guardResumed (store : Store) (job : Job) (now : Time) : Turn :=
  if job.live now then .ok (store.await (.sent job)) else .ok (store.await (.upstreamCalled job))

/-- The check of the result at the trust boundary. -/
def Result.valid (r : Result) (input : Input) : Bool :=
  match input with
  | .read resourceId => r.resourceId = resourceId && r.applied.isNone
  | .setState resourceId state => r.resourceId = resourceId && r.applied.isSome && r.state = state

def upstreamAnswered (store : Store) (job : Job) (answer : Option Result) (now : Time) : Turn :=
  match answer.filter (·.valid job.execution.request.input) with
  | some result => job.settle store .succeeded none (some result) now
  | none =>
    match job.execution.request.input.operation with
    | .itemRead => job.settle store .failed (some .upstreamRejected) none now
    | .itemSetState => job.settle store .uncertain (some .operationUncertain) none now

def reconcileOperationAdmitted (store : Store) (u operationId : Uuid) (decision : Decision)
    (now : Time) : Turn := do
  let o ← get store.operations operationId
  let c ← get store.connections o.connectionId
  require (c.ownerId = u) .notFound
  require (o.state = .uncertain && o.reconciled.isNone) .invalidRequest
  return ((store.putOperation { o with reconciled := some ⟨decision, u, now⟩ }).event
    .operationReconciled c u now).done

/-- The connection that `enrollmentStatus` answers about. -/
def enrollmentStatus (store : Store) (u externalIntentId : Uuid) : Except BrokerError Connection :=
  demand (store.connections.rows.find? fun c =>
    c.ownerId = u && c.enrollment.externalIntentId = some externalIntentId) .notFound

end ProxyPilot.Broker
