import ProxyPilot.Broker.Operations
import ProxyPilot.Transition.System

namespace ProxyPilot.Broker

open Data Transition

/-- The action a call is authenticated for, and whether it wants a human. -/
def Call.direct : Call → Bool
  | .approve .. | .setPermission .. | .reconcileOperation .. | .revalidatePolicy .. | .enroll
      .. | .rotate .. => true
  | _ => false

def Call.issues : Call → Bool
  | .issueSession .. => true
  | _ => false

/-- The answer of `authority.authenticate`; `none` if it throws. -/
def human (configured : Bool) (call : Call) (answer : Option Principal) (now : Time) :
    Except BrokerError Principal := do
  let p ← demand answer .authRequired
  require (!configured || decide (p.proofType = "workload" ↔ call.issues = true)) .notPermitted
  require (!configured || !call.direct || p.proofType = "human") .notPermitted
  require (!p.disabled) .notPermitted
  require (now < p.freshUntil) .freshProofRequired
  return p

/-- The list of rights and manage actions of `setPermission`, checked before the lock. -/
def Permission.valid (p : Permission) : Bool :=
  !(p.manageActions.contains .permissions) && list p.rights && validateScope p.toAllowed

/-- A call after `human`, up to its next await. -/
def admitted (configured : Bool) (store : Store) (p : Principal) (now : Time) : Call → Turn
  | .enroll request credential externalIntentId => enrollAdmitted store p.userId request credential externalIntentId
  | .reconcileEnrollment connectionId revision =>
    .ok (store.await (.waiting connectionId (.reconcileEnrollment p.userId connectionId revision)))
  | .rotate connectionId revision credential => do
    require (string credential 4096) .invalidRequest
    return store.await (.waiting connectionId (.rotate p.userId connectionId revision credential))
  | .testConnection connectionId revision =>
    .ok (store.await (.waiting connectionId (.testConnection p.userId connectionId revision)))
  | .assign connectionId revision request => do
    require (validateScope request.toAllowed) .invalidRequest
    return store.await (.waiting connectionId (.assign p.userId connectionId revision request))
  | .setPermission connectionId revision request => do
    require request.valid .invalidRequest
    return store.await (.waiting connectionId (.setPermission p.userId connectionId revision request))
  | .issueSession grantId request => issueSessionAdmitted configured store p grantId request
  | .approve sessionId request => approveAdmitted store p.userId sessionId request
  | .revoke connectionId revision => revokeAdmitted store p.userId connectionId revision now
  | .unassign grantId revision => unassignAdmitted store p.userId grantId revision now
  | .rename connectionId revision name => do
    require (string name 200) .invalidRequest
    return store.await (.waiting connectionId (.rename p.userId connectionId revision name))
  | .reconcileOperation operationId decision => reconcileOperationAdmitted store p.userId operationId decision now
  | .revalidatePolicy connectionId revision =>
    .ok (store.await (.waiting connectionId (.revalidatePolicy p.userId connectionId revision)))
  | .execute .. => .error .invalidRequest

def authenticated (configured : Bool) (store : Store) (call : Call) (answer : Option Principal)
    (now : Time) : Turn := do
  let p ← human configured call answer now
  admitted configured store p now call

/-- A call once the lock is its own. -/
def entered (store : Store) (now : Time) : Work → Turn
  | .enroll c credential => enrollEntered store c credential now
  | .reconcileEnrollment u connectionId revision => reconcileEnrollmentEntered store u connectionId revision now
  | .rotate u connectionId revision credential => rotateEntered store u connectionId revision credential now
  | .testConnection u connectionId revision => testEntered store u connectionId revision now
  | .assign u connectionId revision request => assignEntered store u connectionId revision request now
  | .setPermission u connectionId revision request => setPermissionEntered store u connectionId revision request now
  | .issueSession u g request => issueSessionEntered store u g request now
  | .approve u s request => approveEntered store u s request now
  | .rename u connectionId revision name => renameEntered store u connectionId revision name now
  | .revalidatePolicy u connectionId revision => revalidatePolicyEntered store u connectionId revision
  | .execute e => executeEntered store e now

/-- What a process waits for has come; an answer is `none`, or false, where it throws. -/
inductive Reply where
  | authenticated (answer : Option Principal)
  | entered
  | written (answer : Option Nat)
  | read (answer : Option Secret)
  | decided (allowed : Bool)
  | resumed
  /-- The upstream calls `beforeSend`. -/
  | guarded
  | answered (answer : Option Result)

def advance (configured : Bool) (store : Store) (now : Time) : Proc → Reply → Option Turn
  | .authenticating call, .authenticated answer => some (authenticated configured store call answer now)
  | .waiting _ work, .entered => some (entered store now work)
  | .enrollWriting c credential, .written answer => some (enrollWritten store c credential answer now)
  | .enrollReading c credential version, .read answer => some (enrollRead store c credential version answer now)
  | .reconcileReading u c, .read answer => some (reconcileRead store u c answer now)
  | .rotateWriting u c credential, .written answer => some (rotateWritten store u c credential answer)
  | .rotateReading u c credential version, .read answer => some (rotateRead store u c credential version answer now)
  | .testReading u c, .read answer => some (testRead store u c answer)
  | .testSending u c, .answered answer => some (testAnswered store u c answer now)
  | .assignDeciding u c request, .decided allowed => some (assignDecided store u c request allowed now)
  | .issueEligible u s, .decided eligible => some (issueDecided store u s eligible now)
  | .issueChecked u s, .resumed => some (issueResumed store u s now)
  | .approveEligible u s request, .decided eligible => some (approveDecided store u s request eligible now)
  | .approveChecked u s c request, .resumed => some (approveResumed store u s c request now)
  | .unassignDeciding u c g, .decided allowed => some (unassignDecided store u c g allowed now)
  | .revalidating u c, .decided allowed => some (revalidated store u c allowed now)
  | .executeEligible s e, .decided eligible => some (executeDecided store s e eligible now)
  | .executeChecked s c e, .resumed => some (executeResumed store s c e now)
  | .vaultReading job, .read answer => some (vaultRead store job answer now)
  | .rechecking s job, .decided eligible => some (recheckDecided store s job eligible now)
  | .rechecked job, .resumed => some (recheckResumed store job now)
  | .upstreamCalled job, .guarded => some (guardBegun store job now)
  | .guarding s job, .decided eligible => some (guardDecided store s job eligible now)
  | .guarded job, .resumed => some (guardResumed store job now)
  | .upstreamCalled job, .answered answer => some (upstreamAnswered store job answer now)
  | .sent job, .answered answer => some (upstreamAnswered store job answer now)
  | _, _ => none

structure Process where
  id : Nat
  proc : Proc

instance : Keyed Process Nat := ⟨Process.id⟩

structure State where
  store : Store
  procs : Table Process
  /-- Who holds or awaits the lock of which connection, in the order of the calls. -/
  locks : List (Uuid × Nat)
  nextProcess : Nat
  /-- What the clock last showed. -/
  clock : Time
  log : List Event

inductive Label where
  | call (call : Call) (now : Time)
  | reply (id : Nat) (reply : Reply) (now : Time)
  | restart (now : Time)

def Label.now : Label → Time
  | .call _ now | .reply _ _ now | .restart now => now

def State.wait (s : State) (id : Nat) (proc : Proc) : State :=
  { s with
    procs := s.procs.put ⟨id, proc⟩
    locks := match proc with
      | .waiting key _ => s.locks ++ [(key, id)]
      | _ => s.locks }

/-- The process ends and, if it had the lock, gives it up. -/
def State.finish (s : State) (id : Nat) : State :=
  { s with procs := s.procs.erase id, locks := s.locks.filter (·.2 ≠ id) }

def State.apply (s : State) (id : Nat) (turn : Turn) : State :=
  match turn with
  | .error _ => s.finish id
  | .ok outcome =>
    let s := { s with store := outcome.store, log := outcome.events ++ s.log }
    match outcome.next with
    | .await proc => s.wait id proc
    | .done _ => s.finish id

/-- A process that waits for a lock goes on when it is the first that called for it. -/
def State.blocked (s : State) (process : Process) : Bool :=
  match process.proc with
  | .waiting key _ => (s.locks.find? (·.1 = key)).all (·.2 ≠ process.id)
  | _ => false

def begin (s : State) (call : Call) : State :=
  let id := s.nextProcess
  let s := { s with nextProcess := id + 1 }
  match call with
  | .execute token request idempotencyKey =>
    match executeBegun s.store token request idempotencyKey with
    | .ok proc => s.wait id proc
    | .error _ => s
  | _ => s.wait id (.authenticating call)

/-- The turn a label takes: the process and what it comes to. -/
def State.turn (configured : Bool) (s : State) : Label → Option (Process × Turn)
  | .reply id reply now => do
    let process ← s.procs.get id
    if s.blocked process then none
    else (advance configured s.store now process.proc reply).map (process, ·)
  | _ => none

def step (configured : Bool) (s : State) (label : Label) : Option State :=
  let t := { s with clock := label.now }
  match label with
  | .call call _ => some (begin t call)
  | .restart _ => some { t with store := s.store.reopen, procs := ∅, locks := [] }
  | .reply .. => (s.turn configured label).map fun turn => t.apply turn.1.id turn.2

def Store.empty : Store := ⟨∅, ∅, ∅, ∅, ∅, [], 1⟩

/-- A new database; with `configured` false the mode is synthetic. -/
def brokerSystem (configured : Bool) : System State Label where
  initial s := s.store = .empty ∧ s.procs = ∅ ∧ s.locks = [] ∧ s.log = []
  step := step configured

/-- A later record of a connection. -/
structure Connection.Follows (c c' : Connection) : Prop where
  owner : c'.ownerId = c.ownerId
  allowed : c'.toAllowed = c.toAllowed
  revision : c.revision ≤ c'.revision
  revoked : c.status = .revoked → c'.status = .revoked
  intent : c'.revision = c.revision → c'.enrollment.externalIntentId = c.enrollment.externalIntentId

structure Grant.Follows (g g' : Grant) : Prop where
  same : { g with revoked := g'.revoked, revision := g'.revision } = g'
  revoked : g.revoked = true → g'.revoked = true

/-- The two agree on all but what changes of a session. -/
def Session.Same (s s' : Session) : Prop := { s with revoked := s'.revoked, used := s'.used } = s'

structure Approval.Follows (a a' : Approval) : Prop where
  same : { a with consumed := a'.consumed } = a'
  consumed : a.consumed = true → a'.consumed = true

structure OperationRecord.Follows (o o' : OperationRecord) : Prop where
  same : { o with state := o'.state, code := o'.code, result := o'.result, completedAt := o'.completedAt
                  reconciled := o'.reconciled } = o'
  uncertain : o.state = .uncertain → o'.state = .uncertain
  reserved : o'.state = .reserved → o.state = .reserved

theorem Connection.Follows.refl (c : Connection) : c.Follows c :=
  ⟨rfl, rfl, Nat.le_refl _, fun revoked => revoked, fun _ => rfl⟩

theorem Connection.Follows.trans {c c' c'' : Connection} (first : c.Follows c') (second : c'.Follows c'') :
    c.Follows c'' := by
  refine ⟨second.owner.trans first.owner, second.allowed.trans first.allowed,
    Nat.le_trans first.revision second.revision, second.revoked ∘ first.revoked, fun same => ?_⟩
  have later := second.revision
  have earlier := first.revision
  rw [second.intent (by omega), first.intent (by omega)]

theorem Grant.Follows.refl (g : Grant) : g.Follows g := ⟨rfl, fun revoked => revoked⟩

theorem Grant.Follows.trans {g g' g'' : Grant} (first : g.Follows g') (second : g'.Follows g'') :
    g.Follows g'' := by
  refine ⟨?_, second.revoked ∘ first.revoked⟩
  rw [← second.same, ← first.same]

theorem Session.Same.refl (s : Session) : s.Same s := rfl

theorem Session.Same.trans {s s' s'' : Session} (first : s.Same s') (second : s'.Same s'') : s.Same s'' := by
  rw [Session.Same, ← second, ← first]

variable {s s' : Session} {before after : Store} {store : Store} {id : Uuid}

theorem Session.Same.symm (same : s.Same s') : s'.Same s := by
  rw [Session.Same, ← same]

theorem Session.revoke_same (s : Session) (given : Bool) : s.Same (s.revoke given) := by cases given <;> rfl

theorem Approval.Follows.refl (a : Approval) : a.Follows a := ⟨rfl, fun consumed => consumed⟩

theorem Approval.Follows.trans {a a' a'' : Approval} (first : a.Follows a') (second : a'.Follows a'') :
    a.Follows a'' := by
  refine ⟨?_, second.consumed ∘ first.consumed⟩
  rw [← second.same, ← first.same]

theorem Approval.consume_follows (a : Approval) (given : Bool) : a.Follows (a.consume given) := by
  cases given
  · exact .refl a
  · exact ⟨rfl, fun _ => rfl⟩

theorem OperationRecord.Follows.refl (o : OperationRecord) : o.Follows o :=
  ⟨rfl, fun uncertain => uncertain, fun reserved => reserved⟩

theorem OperationRecord.Follows.trans {o o' o'' : OperationRecord} (first : o.Follows o')
    (second : o'.Follows o'') :
    o.Follows o'' := by
  refine ⟨?_, second.uncertain ∘ first.uncertain, first.reserved ∘ second.reserved⟩
  rw [← second.same, ← first.same]

structure Store.Grows (before after : Store) : Prop where
  connections : Table.Grows Connection.Follows before.connections after.connections
  grants : Table.Grows Grant.Follows before.grants after.grants
  sessions : Table.Grows Session.Same before.sessions after.sessions
  approvals : Table.Grows Approval.Follows before.approvals after.approvals
  operations : Table.Grows OperationRecord.Follows before.operations after.operations
  nextId : before.nextId ≤ after.nextId

theorem Store.Grows.refl (store : Store) : store.Grows store :=
  ⟨Table.Grows.refl Connection.Follows.refl _, Table.Grows.refl Grant.Follows.refl _,
    Table.Grows.refl Session.Same.refl _, Table.Grows.refl Approval.Follows.refl _,
    Table.Grows.refl OperationRecord.Follows.refl _, Nat.le_refl _⟩

theorem Store.Grows.trans {first second third : Store} (before : first.Grows second) (after : second.Grows third) :
    first.Grows third :=
  ⟨before.connections.trans Connection.Follows.trans after.connections,
    before.grants.trans Grant.Follows.trans after.grants, before.sessions.trans Session.Same.trans after.sessions,
    before.approvals.trans Approval.Follows.trans after.approvals,
    before.operations.trans OperationRecord.Follows.trans after.operations,
    Nat.le_trans before.nextId after.nextId⟩

/-- The connection is one the store has had. -/
def Copied (store : Store) (c : Connection) : Prop :=
  ∃ latest, store.connections.get c.id = some latest ∧ c.Follows latest

def GrantCopied (store : Store) (g : Grant) : Prop :=
  ∃ latest, store.grants.get g.id = some latest ∧ g.Follows latest

def SessionCopied (store : Store) (s : Session) : Prop :=
  ∃ stored, store.sessions.get s.id = some stored ∧ s.Same stored

/-- The session's connection and grant allow what it allows. -/
structure Backed (store : Store) (s : Session) : Prop where
  connection : ∃ c, store.connections.get s.connectionId = some c ∧ s.connectionRevision ≤ c.revision ∧
    s.operations ⊆ c.operations ∧ s.resources ⊆ c.resources
  grant : ∃ g, store.grants.get s.grantId = some g ∧ s.operations ⊆ g.operations ∧ s.resources ⊆ g.resources

/-- The request is inside the session. -/
def Execution.Inside (e : Execution) (s : Session) : Prop :=
  s.verifier = e.token ∧ e.request.input.operation ∈ s.operations ∧ e.request.input.resourceId ∈ s.resources

structure Job.Fits (store : Store) (job : Job) (state : OperationState) : Prop where
  stored : store.operations.get job.operation.id = some { job.operation with state := state }
  operation : job.operation.operation = job.execution.request.input.operation

/-- What holds of a process while it waits. -/
def Proc.Fits (store : Store) : Proc → Prop
  | .waiting _ (.enroll c _) => store.connections.get c.id = none
  | .waiting _ (.execute e) => ∃ s ∈ store.sessions.rows, e.Inside s
  | .enrollWriting c _ | .enrollReading c _ _ | .reconcileReading _ c | .rotateWriting _ c
      _ | .rotateReading _ c _ _
  | .testReading _ c | .testSending _ c | .revalidating _ c => Copied store c
  | .issueEligible _ s | .issueChecked _ s =>
    store.sessions.get s.id = none ∧ s.verifier = s.id + 1 ∧ Backed store s
  | .unassignDeciding _ _ g => GrantCopied store g
  | .executeEligible s e => SessionCopied store s ∧ e.Inside s
  | .executeChecked s c e => SessionCopied store s ∧ e.Inside s ∧ c.id = s.connectionId
  | .vaultReading job | .rechecking _ job | .rechecked job => job.Fits store .reserved
  | .upstreamCalled job | .guarded job | .sent job => job.Fits store .sending
  | .guarding s job => job.Fits store .sending ∧ SessionCopied store s
  | _ => True

/-- The record that only this process writes. -/
def Proc.owned : Proc → Option Uuid
  | .waiting _ (.enroll c _) => some c.id
  | .issueEligible _ s | .issueChecked _ s => some s.id
  | .vaultReading job | .rechecking _ job | .rechecked job | .upstreamCalled job | .guarding _ job | .guarded job
  | .sent job => some job.operation.id
  | _ => none

/-- What holds of the tables. -/
structure Store.Valid (store : Store) : Prop where
  connections : ∀ c ∈ store.connections.rows, c.id < store.nextId
  grants : ∀ g ∈ store.grants.rows, g.id < store.nextId
  sessions : ∀ s ∈ store.sessions.rows, s.id < store.nextId ∧ s.verifier = s.id + 1
  approvals : ∀ a ∈ store.approvals.rows, a.id < store.nextId
  operations : ∀ o ∈ store.operations.rows, o.id < store.nextId
  backed : ∀ s ∈ store.sessions.rows, Backed store s
  keys : ∀ o ∈ store.operations.rows, ∀ o' ∈ store.operations.rows, o.key = o'.key → o.id = o'.id

theorem Backed.grows {s : Session} (backed : Backed before s) (grows : before.Grows after) :
    Backed after s := by
  obtain ⟨⟨c, found, revision, operations, resources⟩, g, foundGrant, inGrant, inGrant'⟩ := backed
  obtain ⟨c', found', follows⟩ := grows.connections _ c found
  obtain ⟨g', foundGrant', same, _⟩ := grows.grants _ g foundGrant
  refine ⟨⟨c', found', Nat.le_trans revision follows.revision, ?_, ?_⟩, g', foundGrant', ?_, ?_⟩
  · rw [follows.allowed]
    exact operations
  · rw [follows.allowed]
    exact resources
  · rw [← same]
    exact inGrant
  · rw [← same]
    exact inGrant'

theorem Copied.grows {c : Connection} (copied : Copied before c) (grows : before.Grows after) :
    Copied after c := by
  obtain ⟨latest, found, follows⟩ := copied
  obtain ⟨latest', found', follows'⟩ := grows.connections _ latest found
  exact ⟨latest', found', follows.trans follows'⟩

theorem GrantCopied.grows {g : Grant} (copied : GrantCopied before g)
    (grows : before.Grows after) : GrantCopied after g := by
  obtain ⟨latest, found, follows⟩ := copied
  obtain ⟨latest', found', follows'⟩ := grows.grants _ latest found
  exact ⟨latest', found', follows.trans follows'⟩

theorem SessionCopied.grows {s : Session} (copied : SessionCopied before s)
    (grows : before.Grows after) : SessionCopied after s := by
  obtain ⟨stored, found, same⟩ := copied
  obtain ⟨stored', found', same'⟩ := grows.sessions _ stored found
  exact ⟨stored', found', same.trans same'⟩

theorem get_fresh {α : Type} [Keyed α Uuid] {table : Table α} {bound id : Uuid}
    (below : ∀ row ∈ table.rows, Keyed.key row < bound) (later : bound ≤ id) : table.get id = none :=
  Table.get_eq_none_iff.mpr fun row member same =>
    absurd (same ▸ below row member) (Nat.not_lt.mpr later)

theorem copied_of_get {c : Connection} (found : store.connections.get id = some c) :
    Copied store c := by
  have key : c.id = id := Table.get_key found
  exact ⟨c, by rw [key]; exact found, .refl c⟩

theorem sessionCopied_of_get {s : Session} (found : s ∈ store.sessions.rows) : SessionCopied store s :=
  ⟨s, Table.get_of_mem found, .refl s⟩

theorem Store.Valid.fresh_session (valid : store.Valid) (later : store.nextId ≤ id) :
    store.sessions.get id = none := get_fresh (fun s member => (valid.sessions s member).1) later

theorem Store.Valid.fresh_connection (valid : store.Valid) (later : store.nextId ≤ id) :
    store.connections.get id = none := get_fresh valid.connections later

/-- A token belongs to one session. -/
theorem Store.Valid.session_eq (valid : store.Valid) (member : s ∈ store.sessions.rows)
    (member' : s' ∈ store.sessions.rows) (same : s.verifier = s'.verifier) : s = s' := by
  have drawn := (valid.sessions s member).2
  have drawn' := (valid.sessions s' member').2
  rw [drawn, drawn'] at same
  exact Table.key_injective member member' (Nat.succ.inj same)

theorem Execution.Inside.same {e : Execution} (inside : e.Inside s) (same : s.Same s') : e.Inside s' := by
  rw [← same]
  exact inside

end ProxyPilot.Broker
