import ProxyPilot.Broker.Records

namespace ProxyPilot.Authority

open Broker

/-! # Authority records (`credential-broker/authority.mjs`)

What `exact` and the `typeof` checks reject (a missing or an extra field, a
value of the wrong type) has no value of these types.
-/

inductive Kind where
  | users
  | projects
  | agents
  | tasks
  | ceilings
  | policies
deriving DecidableEq

def authorityKinds : List Kind := [.users, .projects, .agents, .tasks, .ceilings, .policies]

inductive Action where
  | intent | list | get | activity | assignments | sessions | enroll | test | update | revoke | rotate
  | assign | unassign | approve | setPermission | reconcileOperation | revalidatePolicy
deriving DecidableEq

inductive Right where
  | view | use | assign | manage
deriving DecidableEq

inductive ManageAction where
  | test | rename | rotate | revoke
deriving DecidableEq

inductive TaskStatus where
  | running | ended | cancelled
deriving DecidableEq

inductive PolicyStatus where
  | saved | active | revoked
deriving DecidableEq

structure UserRecord where
  id : Uuid
  revision : Int
  disabled : Bool
deriving DecidableEq

structure ProjectRecord where
  id : Uuid
  revision : Int
  archived : Bool
  userIds : List Uuid
deriving DecidableEq

structure AgentRecord where
  id : Uuid
  revision : Int
  projectId : Uuid
  userId : Uuid
  disabled : Bool
  workloadId : Uuid
deriving DecidableEq

structure Readiness where
  guideRevision : Int
  checksRevision : Int
  environmentRevision : Int
  executionApproved : Bool
deriving DecidableEq

structure TaskRecord extends Allowed where
  id : Uuid
  revision : Int
  projectId : Uuid
  userId : Uuid
  agentId : Uuid
  attempt : Uuid
  fence : Uuid
  status : TaskStatus
  expiresAt : Time
  grantIds : List Uuid
  connectionIds : List Uuid
  configurationRevision : Int
  readiness : Readiness
deriving DecidableEq

structure CeilingRecord extends Allowed where
  id : Uuid
  revision : Int
  userId : Uuid
  projectId : Option Uuid
  actions : List Action
  connectionIds : List Uuid
  adapterIds : List String
  expiresAt : Time
  revoked : Bool
  grantRights : List Right
  manageActions : List ManageAction
deriving DecidableEq

structure PolicyRecord extends Allowed where
  id : Uuid
  revision : Int
  policyRevision : Int
  credentialVersion : Int
  ownerId : Uuid
  projectId : Option Uuid
  adapterId : String
  status : PolicyStatus
deriving DecidableEq

inductive Record where
  | user (r : UserRecord)
  | project (r : ProjectRecord)
  | agent (r : AgentRecord)
  | task (r : TaskRecord)
  | ceiling (r : CeilingRecord)
  | policy (r : PolicyRecord)
deriving DecidableEq

def Record.kind : Record → Kind
  | .user _ => .users
  | .project _ => .projects
  | .agent _ => .agents
  | .task _ => .tasks
  | .ceiling _ => .ceilings
  | .policy _ => .policies

def Record.id : Record → Uuid
  | .user r => r.id
  | .project r => r.id
  | .agent r => r.id
  | .task r => r.id
  | .ceiling r => r.id
  | .policy r => r.id

def Record.revision : Record → Int
  | .user r => r.revision
  | .project r => r.revision
  | .agent r => r.revision
  | .task r => r.revision
  | .ceiling r => r.revision
  | .policy r => r.revision

/-- `kind/id` -/
abbrev RecordKey := Kind × Uuid

def Record.key (r : Record) : RecordKey := (r.kind, r.id)

def int (v : Int) (min : Int) : Bool := min ≤ v && v ≤ 9007199254740991

def str (v : String) : Bool :=
  let chars := v.toList
  !chars.isEmpty && chars.length ≤ 128 && chars.all fun c => c.isAlphanum || c == '-' || c == '_' || c == '.'

def arr {α : Type} [DecidableEq α] (v : List α) (empty : Bool) (max : Nat) : Bool :=
  v.length ≤ max && (empty || !v.isEmpty) && decide v.Nodup

def scope (r : Allowed) : Bool := arr r.operations false 32 && arr r.resources false 32 && limits r.limits

def fits (a b : Allowed) : Bool :=
  a.operations.all (· ∈ b.operations) && a.resources.all (· ∈ b.resources) &&
    a.limits.maxActions ≤ b.limits.maxActions && a.limits.maxSeconds ≤ b.limits.maxSeconds

def validateRecord : Record → Bool
  | .user r => int r.revision 1
  | .project r => int r.revision 1 && arr r.userIds true 1024
  | .agent r => int r.revision 1
  | .task r =>
    int r.revision 1 && arr r.grantIds true 1024 && arr r.connectionIds true 1024 && int r.expiresAt 1 &&
      scope r.toAllowed && int r.configurationRevision 1 && int r.readiness.guideRevision 1 &&
      int r.readiness.checksRevision 1 && int r.readiness.environmentRevision 1
  | .ceiling r =>
    int r.revision 1 && arr r.connectionIds true 1024 && int r.expiresAt 1 && scope r.toAllowed &&
      arr r.actions false 32 && arr r.adapterIds false 32 && r.adapterIds.all str &&
      arr r.grantRights true 4 && arr r.manageActions true 4
  | .policy r =>
    int r.revision 1 && scope r.toAllowed && int r.policyRevision 1 && int r.credentialVersion 0 && str r.adapterId

/-- The object `records` of an envelope: the kinds it has and their lists. -/
structure Records where
  users : Option (List UserRecord)
  projects : Option (List ProjectRecord)
  agents : Option (List AgentRecord)
  tasks : Option (List TaskRecord)
  ceilings : Option (List CeilingRecord)
  policies : Option (List PolicyRecord)
deriving DecidableEq

def Records.of (records : Records) : Kind → Option (List Record)
  | .users => records.users.map (·.map .user)
  | .projects => records.projects.map (·.map .project)
  | .agents => records.agents.map (·.map .agent)
  | .tasks => records.tasks.map (·.map .task)
  | .ceilings => records.ceilings.map (·.map .ceiling)
  | .policies => records.policies.map (·.map .policy)

/-- The records of the given kinds, in the order they are read. -/
def Records.list (records : Records) (kinds : List Kind) : List Record :=
  kinds.flatMap fun kind => (records.of kind).getD []

structure Payload where
  version : String
  sourceId : String
  sequence : Int
  challenge : String
  issuedAt : Time
  expiresAt : Time
  records : Records
deriving DecidableEq

structure Envelope where
  payload : Payload
  signature : String

variable {records : Records} {r : Record}

theorem Records.kind_of_mem {kind : Kind} {list : List Record}
    (found : records.of kind = some list) (member : r ∈ list) : r.kind = kind := by
  cases kind <;>
    · obtain ⟨rows, _, rfl⟩ := Option.map_eq_some_iff.mp found
      obtain ⟨row, _, rfl⟩ := List.mem_map.mp member
      rfl

theorem Records.kind_mem_of_mem_list {kinds : List Kind}
    (member : r ∈ records.list kinds) : r.kind ∈ kinds := by
  obtain ⟨kind, inKinds, member⟩ := List.mem_flatMap.mp member
  cases found : records.of kind with
  | none =>
    rw [found] at member
    contradiction
  | some list =>
    rw [found] at member
    exact Records.kind_of_mem found member ▸ inKinds

end ProxyPilot.Authority
