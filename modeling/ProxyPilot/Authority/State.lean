import ProxyPilot.Authority.Records
import ProxyPilot.Versions.Floors
import ProxyPilot.Transition.System
import Mathlib.Data.List.Sort

namespace ProxyPilot.Authority

open Broker Data Versions Transition

/-! # The authority (`createAuthority`)

`durable` is the copy in memory that every check reads, `file` the state file a
restart reads back.  A call runs to its end in one step: `authenticate` alone
waits, for the identity service, whose answer changes nothing here.
-/

structure TaskKey where
  taskId : Uuid
  attempt : Uuid
  fence : Uuid
deriving DecidableEq

def TaskRecord.epoch (task : TaskRecord) : TaskKey := ⟨task.id, task.attempt, task.fence⟩

/-- What `taskAuthorityDigest` digests. -/
structure TaskAuthority where
  task : TaskRecord
  agent : Option AgentRecord
  project : Option ProjectRecord
  user : Option UserRecord
  policies : List (Option PolicyRecord)
  ceilings : List CeilingRecord
deriving DecidableEq

inductive Value where
  | record (r : Record)
  | payload (p : Payload)
  | taskAuthority (t : TaskAuthority)
deriving DecidableEq

/-- The functions of `node:crypto` and the length of a serialised envelope. -/
structure Primitives (Key Digest : Type) where
  verify : Key → Payload → String → Bool
  digest : Value → Digest
  byteLength : Envelope → Nat

/-- No two of the values have one digest. -/
def Primitives.Distinguishes {Key Digest : Type} (primitives : Primitives Key Digest)
    (values : Value → Prop) : Prop :=
  ∀ a b, values a → values b → primitives.digest a = primitives.digest b → a = b

structure Source (Key : Type) where
  id : String
  key : Key
  kinds : List Kind

instance {Key : Type} : Keyed (Source Key) String := ⟨Source.id⟩

/-- `configured`, with what its construction checks. -/
structure Config (Key : Type) where
  configured : Table (Source Key)
  /-- `owners` has one source for a kind. -/
  disjoint : ∀ source ∈ configured.rows, ∀ other ∈ configured.rows, ∀ kind ∈ source.kinds,
    kind ∈ other.kinds → source.id = other.id
  covered : ∀ kind, ∃ source ∈ configured.rows, kind ∈ source.kinds

structure SourceState (Digest : Type) where
  id : String
  sequence : Int
  floors : Table (Floor RecordKey Digest)

instance {Digest : Type} : Keyed (SourceState Digest) String := ⟨SourceState.id⟩

structure Reservation (Digest : Type) where
  key : TaskKey
  workloadId : Uuid
  reservedAt : Time
  authorityDigest : Digest
deriving DecidableEq

instance {Digest : Type} : Keyed (Reservation Digest) TaskKey := ⟨Reservation.key⟩

structure Durable (Digest : Type) where
  sources : Table (SourceState Digest)
  endedTasks : List TaskKey
  issuedTasks : Table (Reservation Digest)

/-- The state of an authority without a state file. -/
def Durable.empty {Digest : Type} : Durable Digest := ⟨∅, [], ∅⟩

/-- What `active` keeps of a source. -/
structure Lease where
  payload : Payload

instance : Keyed Lease String := ⟨fun lease => lease.payload.sourceId⟩

inductive ProofType where
  | human | delegation | workload

structure WorkloadScope extends Allowed where
  grantId : Uuid
  taskId : Uuid
  attempt : Uuid
  fence : Uuid
  expiresAt : Time
  audience : String

structure WorkloadRequest extends WorkloadScope where
  configurationRevision : Int

structure Principal where
  userId : Uuid
  freshUntil : Time
  proofType : ProofType
  actions : List String
  workloadScope : Option WorkloadScope

/-- A key of `proofs` and its value. -/
structure Proof where
  id : Nat
  principal : Principal

instance : Keyed Proof Nat := ⟨Proof.id⟩

/-- What an observer of the calls sees, newest first. -/
inductive Event (Digest : Type) where
  /-- The state file got the reservation, made with this authority. -/
  | reserved (reservation : Reservation Digest) (authority : TaskAuthority)
  | issued (key : TaskKey) (proof : Nat)
  | authenticated (proof : Nat)
  | ended (key : TaskKey)
deriving DecidableEq

structure State (Digest : Type) where
  durable : Durable Digest
  file : Option (Durable Digest)
  closed : Bool
  boot : String
  active : Table Lease
  proofs : Table Proof
  nextProof : Nat
  /-- The envelopes `ingest` accepted, newest first. -/
  accepted : List Payload
  log : List (Event Digest)

inductive AuthorityError where
  | denied
  | unavailable
  | authRequired
  | invalidRequest
  | alreadyReserved
  /-- What `persist` threw. -/
  | unwritten
deriving DecidableEq

/-- How far `persist` comes: not to the rename, past it, or to its end. -/
inductive Persisted where
  | unwritten
  | unsynced
  | written

section

variable {Key Digest : Type} (config : Config Key) (primitives : Primitives Key Digest)

def SourceState.loads (source : SourceState Digest) : Bool :=
  match config.configured.get source.id with
  | none => false
  | some configured =>
    int source.sequence 1 && source.floors.rows.all fun f => f.key.1 ∈ configured.kinds && int f.revision 1

def Durable.loads (durable : Durable Digest) : Bool :=
  durable.issuedTasks.rows.all (fun reservation => int reservation.reservedAt 1) &&
    durable.sources.rows.all (SourceState.loads config)

/-- What the constructor makes of the state file; `none` if it throws. -/
def load (file : Option (Durable Digest)) : Option (Durable Digest) :=
  match file with
  | none => some .empty
  | some durable => if durable.loads config then some durable else none

/-- The state after `persist`, and the events that the file has when it does. -/
def persist (s : State Digest) (next : Durable Digest) (events : List (Event Digest)) : Persisted → State Digest
  | .unwritten => { s with active := ∅ }
  | .unsynced => { s with file := some next, active := ∅, log := events ++ s.log }
  | .written => { s with file := some next, durable := next, log := events ++ s.log }

def Lease.live (lease : Lease) (now : Time) : Bool := lease.payload.issuedAt ≤ now && now < lease.payload.expiresAt

def ready (s : State Digest) (now : Time) : Bool :=
  !s.closed && config.configured.rows.all fun source => (s.active.get source.id).any (·.live now)

/-- `owners.get(kind)` -/
def Config.owner (kind : Kind) : String :=
  ((config.configured.rows.find? (kind ∈ ·.kinds)).map Source.id).getD ""

def records {Row : Type} (s : State Digest) (kind : Kind) (of : Records → Option (List Row)) : List Row :=
  ((s.active.get (config.owner kind)).bind fun lease => of lease.payload.records).getD []

def getUser (s : State Digest) (id : Uuid) : Option UserRecord :=
  (records config s .users Records.users).find? (·.id = id)

def getProject (s : State Digest) (id : Uuid) : Option ProjectRecord :=
  (records config s .projects Records.projects).find? (·.id = id)

def getAgent (s : State Digest) (id : Uuid) : Option AgentRecord :=
  (records config s .agents Records.agents).find? (·.id = id)

def getTask (s : State Digest) (id : Uuid) : Option TaskRecord :=
  (records config s .tasks Records.tasks).find? (·.id = id)

def getPolicy (s : State Digest) (id : Uuid) : Option PolicyRecord :=
  (records config s .policies Records.policies).find? (·.id = id)

def user (s : State Digest) (id : Uuid) : Option UserRecord := (getUser config s id).filter (!·.disabled)

def member (s : State Digest) (u p : Uuid) : Bool :=
  (user config s u).isSome && (getProject config s p).any fun project => !project.archived && u ∈ project.userIds

def policy (s : State Digest) (id : Uuid) : Option PolicyRecord :=
  (getPolicy config s id).filter (·.status ≠ .revoked)

def ended (s : State Digest) (key : TaskKey) : Bool := key ∈ s.durable.endedTasks

def versioning : Versioning Record RecordKey Digest :=
  ⟨Record.key, Record.revision, fun r => primitives.digest (.record r)⟩

private def isSignature (signature : String) : Bool :=
  signature.toList.length = 86 && signature.toList.all fun c => c.isAlphanum || c == '_' || c == '-'

def Payload.timely (p : Payload) (now : Time) : Bool :=
  int p.sequence 1 && int p.issuedAt 1 && int p.expiresAt 1 && p.issuedAt ≤ now && now < p.expiresAt &&
    p.expiresAt - p.issuedAt ≤ 60000 && p.issuedAt < p.expiresAt

/-- The object has the source's kinds and no other, each a valid list. -/
def Records.valid (r : Records) (kinds : List Kind) : Bool :=
  authorityKinds.all (fun kind => (r.of kind).isSome = decide (kind ∈ kinds)) &&
    kinds.all fun kind => (r.of kind).any fun list => arr list true 1024 && list.all validateRecord

def Durable.accept (d : Durable Digest) (source : SourceState Digest) : Durable Digest :=
  { d with sources := d.sources.put source }

def Durable.reserve (d : Durable Digest) (reservation : Reservation Digest) : Durable Digest :=
  { d with issuedTasks := d.issuedTasks.put reservation }

def Durable.endTask (d : Durable Digest) (key : TaskKey) : Durable Digest :=
  { d with endedTasks := d.endedTasks.insert key }

variable [DecidableEq Digest]

/-- The next durable state of an envelope that `ingest` does not reject. -/
def admits (s : State Digest) (envelope : Envelope) (now : Time) : Except AuthorityError (Durable Digest) :=
  let p := envelope.payload
  if s.closed then .error .unavailable
  else if 1024 * 1024 < primitives.byteLength envelope then .error .denied
  else match config.configured.get p.sourceId with
    | none => .error .denied
    | some source =>
      if p.version ≠ "authority.v1" ∨ p.challenge ≠ s.boot then .error .denied
      else if !(p.timely now) then .error .denied
      else if !(isSignature envelope.signature && primitives.verify source.key p envelope.signature)
        then .error .denied
      else
        let prior := s.durable.sources.get source.id
        if prior.any (p.sequence ≤ ·.sequence) then .error .denied
        else if !(p.records.valid source.kinds) then .error .denied
        else match (versioning primitives).advance ((prior.map SourceState.floors).getD ∅)
          (p.records.list source.kinds) with
          | none => .error .denied
          | some floors => .ok (s.durable.accept ⟨source.id, p.sequence, floors⟩)

structure Receipt (Digest : Type) where
  sourceId : String
  sequence : Int
  digest : Digest
deriving DecidableEq

def ingest (s : State Digest) (envelope : Envelope) (now : Time) (persisted : Persisted) :
    State Digest × Except AuthorityError (Receipt Digest) :=
  let p := envelope.payload
  match admits config primitives s envelope now with
  | .error reason => (s, .error reason)
  | .ok next =>
    let s := persist s next [] persisted
    match persisted with
    | .written => ({ s with active := s.active.put ⟨p⟩, accepted := p :: s.accepted },
        .ok ⟨p.sourceId, p.sequence, primitives.digest (.payload p)⟩)
    | _ => (s, .error .unwritten)

def principal (s : State Digest) (p : Principal) (now : Time) : Except AuthorityError Principal :=
  if !(ready config s now) then .error .unavailable
  else if (user config s p.userId).isNone || p.freshUntil ≤ now then .error .denied
  else .ok p

/-- `authenticate` with an object.  One that is not in `proofs` goes to the
identity service, which takes strings only. -/
def authenticate (s : State Digest) (proof : Nat) (now : Time) : State Digest × Except AuthorityError Principal :=
  if !(ready config s now) then (s, .error .unavailable)
  else match s.proofs.get proof with
    | none => (s, .error .authRequired)
    | some held =>
      let s := { s with proofs := s.proofs.erase proof }
      match principal config s held.principal now with
      | .error reason => (s, .error reason)
      | .ok p => ({ s with log := .authenticated proof :: s.log }, .ok p)

/-- The object whose digest `taskAuthorityDigest` is. -/
def taskAuthority (s : State Digest) (t : TaskRecord) : TaskAuthority where
  task := t
  agent := getAgent config s t.agentId
  project := getProject config s t.projectId
  user := getUser config s t.userId
  policies := t.connectionIds.map (getPolicy config s)
  ceilings := ((records config s .ceilings Records.ceilings).filter fun c =>
    c.userId = t.userId && c.connectionIds.any (· ∈ t.connectionIds)).insertionSort (·.id ≤ ·.id)

def taskAuthorityDigest (s : State Digest) (t : TaskRecord) : Digest :=
  primitives.digest (.taskAuthority (taskAuthority config s t))

def reservation (s : State Digest) (t : TaskRecord) (workloadId : Uuid) (now : Time) : Reservation Digest :=
  ⟨t.epoch, workloadId, now, taskAuthorityDigest config primitives s t⟩

/-- What `eligible` reads of a session of the broker. -/
structure Session extends Allowed where
  taskId : Uuid
  agentId : Uuid
  connectionId : Uuid
  grantId : Uuid
  userId : Uuid
  projectId : Uuid
  attempt : Uuid
  fence : Uuid
  policyRevision : Int
  credentialVersion : Int
  expiresAt : Time
  audience : String

def Session.epoch (session : Session) : TaskKey := ⟨session.taskId, session.attempt, session.fence⟩

/-- The checks of `eligible` that concern the task and the session alone. -/
def Session.within (session : Session) (task : TaskRecord) (now : Time) : Bool :=
  task.status = .running && task.readiness.executionApproved && now < task.expiresAt && now < session.expiresAt &&
    session.audience = "fractionate-broker" && task.userId = session.userId && task.projectId = session.projectId &&
    task.agentId = session.agentId && task.attempt = session.attempt && task.fence = session.fence &&
    session.connectionId ∈ task.connectionIds && session.grantId ∈ task.grantIds &&
    fits session.toAllowed task.toAllowed && session.expiresAt ≤ task.expiresAt

def eligible (s : State Digest) (session : Session) (now : Time) : Bool :=
  if !(ready config s now && scope session.toAllowed) then false
  else match getTask config s session.taskId, getAgent config s session.agentId,
    policy config s session.connectionId with
    | some task, some agent, some pol =>
      !agent.disabled && pol.status = .active && !(ended s task.epoch) && session.within task now &&
        (s.durable.issuedTasks.get task.epoch).any
          (·.authorityDigest = taskAuthorityDigest config primitives s task) &&
        member config s session.userId session.projectId && agent.projectId = session.projectId &&
        agent.userId = session.userId && pol.projectId.all (· = session.projectId) &&
        pol.policyRevision = session.policyRevision && pol.credentialVersion = session.credentialVersion &&
        fits session.toAllowed pol.toAllowed
    | _, _, _ => false

/-- The shape checks of `issueWorkloadProof`. -/
def WorkloadRequest.validate (r : WorkloadRequest) (now : Time) : Bool :=
  int r.configurationRevision 1 && scope r.toAllowed && int r.expiresAt 1 && r.audience = "fractionate-broker" &&
    now < r.expiresAt && r.expiresAt ≤ now + r.limits.maxSeconds * 1000

/-- The task the request may have a proof for. -/
def issuable (s : State Digest) (workloadId : Uuid) (r : WorkloadRequest) : Option TaskRecord :=
  (getTask config s r.taskId).filter fun task =>
    (getAgent config s task.agentId).any (fun a =>
      !a.disabled && a.workloadId = workloadId && a.userId = task.userId && a.projectId = task.projectId) &&
    task.status = .running && task.readiness.executionApproved && task.configurationRevision =
      r.configurationRevision &&
    !(ended s task.epoch) && task.attempt = r.attempt && task.fence = r.fence && r.grantId ∈ task.grantIds &&
    member config s task.userId task.projectId && fits r.toAllowed task.toAllowed && r.expiresAt ≤ task.expiresAt

def freshUntil (s : State Digest) (now : Time) : Time :=
  s.active.rows.foldl (fun least lease => min least lease.payload.expiresAt) (now + 10000)

def issueWorkloadProof (s : State Digest) (workloadId : Uuid) (r : WorkloadRequest) (now : Time)
    (persisted : Persisted) : State Digest × Except AuthorityError Nat :=
  if !(ready config s now) then (s, .error .unavailable)
  else if !(r.validate now) then (s, .error .denied)
  else match issuable config s workloadId r with
    | none => (s, .error .denied)
    | some task =>
      if (s.durable.issuedTasks.get task.epoch).isSome then (s, .error .alreadyReserved)
      else
        let reservation := reservation config primitives s task workloadId now
        let s :=
          persist s (s.durable.reserve reservation) [.reserved reservation (taskAuthority config s task)] persisted
        match persisted with
        | .written =>
          let p := ⟨task.userId, freshUntil s now, .workload, ["issueSession"], some r.toWorkloadScope⟩
          ({ s with proofs := s.proofs.put ⟨s.nextProof, p⟩, nextProof := s.nextProof + 1
                    log := .issued task.epoch s.nextProof :: s.log }, .ok s.nextProof)
        | _ => (s, .error .unwritten)

def endTask (s : State Digest) (workloadId : Uuid) (key : TaskKey) (now : Time) (persisted : Persisted) :
    State Digest × Except AuthorityError TaskKey :=
  if !(ready config s now) then (s, .error .unavailable)
  else match (getTask config s key.taskId).filter fun t =>
      (getAgent config s t.agentId).any (·.workloadId = workloadId) && t.attempt = key.attempt &&
        t.fence = key.fence with
    | none => (s, .error .denied)
    | some t =>
      let s := persist s (s.durable.endTask t.epoch) [] persisted
      match persisted with
      | .written => ({ s with log := .ended t.epoch :: s.log }, .ok t.epoch)
      | _ => (s, .error .unwritten)

def close (s : State Digest) : State Digest := { s with active := ∅, closed := true }

inductive Label where
  | ingest (envelope : Envelope) (now : Time) (persisted : Persisted)
  | issueWorkloadProof (workloadId : Uuid) (request : WorkloadRequest) (now : Time) (persisted : Persisted)
  | authenticate (proof : Nat) (now : Time)
  | identityAnswered (answer : Option Principal) (now : Time)
  | endTask (workloadId : Uuid) (key : TaskKey) (now : Time) (persisted : Persisted)
  | eligible (session : Session) (now : Time)
  | close
  | restart (boot : String)

/-- A restart reads the file and has no lease and no proof; it takes no step if
the constructor throws. -/
def step (s : State Digest) : Label → Option (State Digest)
  | .ingest envelope now persisted => some (ingest config primitives s envelope now persisted).1
  | .issueWorkloadProof workloadId request now persisted =>
    some (issueWorkloadProof config primitives s workloadId request now persisted).1
  | .authenticate proof now => some (authenticate config s proof now).1
  | .identityAnswered _ _ => some s
  | .endTask workloadId key now persisted => some (endTask config s workloadId key now persisted).1
  | .eligible _ _ => some s
  | .close => some (close s)
  | .restart boot =>
    (load config s.file).map fun durable =>
      { s with durable, closed := false, boot, active := ∅, proofs := ∅ }

def authoritySystem : System (State Digest) Label where
  initial s := s.durable = .empty ∧ s.file = none ∧ s.closed = false ∧ s.active = ∅ ∧ s.proofs = ∅ ∧
    s.accepted = [] ∧ s.log = []
  step := step config primitives

end

end ProxyPilot.Authority
