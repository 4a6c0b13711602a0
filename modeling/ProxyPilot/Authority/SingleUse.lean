import ProxyPilot.Authority.Monotone

namespace ProxyPilot.Authority

open Broker Data Versions Transition

variable {Key Digest : Type}

def Event.issuedKey : Event Digest → Option TaskKey
  | .issued key _ => some key
  | _ => none

def Event.authenticatedProof : Event Digest → Option Nat
  | .authenticated proof => some proof
  | _ => none

/-- The durable state knows every reservation, and every end, that was answered. -/
structure Durable.Knows (primitives : Primitives Key Digest) (log : List (Event Digest))
    (d : Durable Digest) : Prop where
  issued : ∀ key proof, .issued key proof ∈ log → (d.issuedTasks.get key).isSome = true
  ended : ∀ key, .ended key ∈ log → key ∈ d.endedTasks
  pinned : ∀ reservation ∈ d.issuedTasks.rows, ∃ authority, .reserved reservation authority ∈ log ∧
    reservation.authorityDigest = primitives.digest (.taskAuthority authority)

structure Used (primitives : Primitives Key Digest) (s : State Digest) : Prop where
  memory : s.durable.Knows primitives s.log
  file : (s.file.getD .empty).Knows primitives s.log
  issuedOnce : (s.log.filterMap Event.issuedKey).Nodup
  authenticatedOnce : (s.log.filterMap Event.authenticatedProof).Nodup
  proofs : ∀ proof ∈ s.proofs.rows, proof.id < s.nextProof ∧ proof.id ∉ s.log.filterMap Event.authenticatedProof
  spent : ∀ proof ∈ s.log.filterMap Event.authenticatedProof, proof < s.nextProof

variable {primitives : Primitives Key Digest} {log : List (Event Digest)} {d : Durable Digest}

/-- An event that concerns no key adds nothing the durable state must know. -/
theorem Durable.Knows.cons (knows : d.Knows primitives log) {e : Event Digest}
    (issued : ∀ key proof, e = .issued key proof → (d.issuedTasks.get key).isSome = true)
    (ended : ∀ key, e = .ended key → key ∈ d.endedTasks) : d.Knows primitives (e :: log) := by
  refine ⟨fun key proof member => ?_, fun key member => ?_, fun reservation member => ?_⟩
  · rcases List.mem_cons.mp member with same | member
    · exact issued key proof same.symm
    · exact knows.issued key proof member
  · rcases List.mem_cons.mp member with same | member
    · exact ended key same.symm
    · exact knows.ended key member
  · obtain ⟨authority, logged, pinned⟩ := knows.pinned reservation member
    exact ⟨authority, List.mem_cons_of_mem _ logged, pinned⟩

theorem Durable.Knows.congr {d' : Durable Digest} (knows : d.Knows primitives log)
    (issued : d'.issuedTasks = d.issuedTasks) (ended : d'.endedTasks = d.endedTasks) : d'.Knows primitives log := by
  obtain ⟨sources, endedTasks, issuedTasks⟩ := d'
  cases issued
  cases ended
  exact ⟨knows.issued, knows.ended, knows.pinned⟩

variable {reservation : Reservation Digest} {authority : TaskAuthority} {now : Time}

theorem Durable.Knows.reserve (knows : d.Knows primitives log)
    (pinned : reservation.authorityDigest = primitives.digest (.taskAuthority authority)) :
    (d.reserve reservation).Knows primitives (.reserved reservation authority :: log) := by
  refine ⟨fun key proof member => ?_, fun key member => ?_, fun other member => ?_⟩
  · have known := knows.issued key proof (List.mem_of_ne_of_mem (fun same => by cases same) member)
    rw [Durable.reserve, Table.get_put]
    split
    · rfl
    · exact known
  · exact knows.ended key (List.mem_of_ne_of_mem (fun same => by cases same) member)
  · rcases Table.mem_put.mp member with rfl | ⟨old, _⟩
    · exact ⟨authority, List.mem_cons_self, pinned⟩
    · obtain ⟨authority, logged, pinned⟩ := knows.pinned other old
      exact ⟨authority, List.mem_cons_of_mem _ logged, pinned⟩

theorem Durable.Knows.endTask (knows : d.Knows primitives log) (key : TaskKey) :
    (d.endTask key).Knows primitives log :=
  ⟨knows.issued, fun other member => List.mem_insert_of_mem (knows.ended other member), knows.pinned⟩

/-- The state file does not know a reservation that memory lacks. -/
theorem Used.unissued {s : State Digest} (used : Used primitives s) {key : TaskKey}
    (fresh : s.durable.issuedTasks.get key = none) : key ∉ s.log.filterMap Event.issuedKey := by
  intro member
  obtain ⟨e, logged, named⟩ := List.mem_filterMap.mp member
  cases e with
  | issued other proof =>
    cases named
    have known := used.memory.issued key proof logged
    rw [fresh] at known
    contradiction
  | _ => contradiction

variable [DecidableEq Digest] {config : Config Key} {s s' : State Digest}

theorem Effect.used (used : Used primitives s) (effect : Effect config primitives s s') : Used primitives s' := by
  obtain ⟨memory, file, issuedOnce, authenticatedOnce, proofs, spent⟩ := used
  cases effect with
  | refused => exact ⟨memory, file, issuedOnce, authenticatedOnce, proofs, spent⟩
  | unwritten => exact ⟨memory, file, issuedOnce, authenticatedOnce, proofs, spent⟩
  | unaccepted admitted =>
    obtain ⟨_, _, _, _, _, _, _, rfl⟩ := admits_ok admitted
    exact ⟨memory, memory.congr rfl rfl, issuedOnce, authenticatedOnce, proofs, spent⟩
  | accepted admitted =>
    obtain ⟨_, _, _, _, _, _, _, rfl⟩ := admits_ok admitted
    exact ⟨memory.congr rfl rfl, memory.congr rfl rfl, issuedOnce, authenticatedOnce, proofs, spent⟩
  | reserved found fresh =>
    refine ⟨memory.cons ?_ ?_, memory.reserve rfl, issuedOnce, authenticatedOnce, proofs, spent⟩
    · exact fun _ _ same => by cases same
    · exact fun _ same => by cases same
  | @issued task workloadId now found fresh principal =>
    have unissued := Used.unissued ⟨memory, file, issuedOnce, authenticatedOnce, proofs, spent⟩ fresh
    have reserved : (s.durable.reserve (reservation config primitives s task workloadId now)).Knows primitives
        (.reserved _ (taskAuthority config s task) :: s.log) := memory.reserve rfl
    have after := reserved.cons (e := .issued task.epoch s.nextProof)
      (fun key proof same => by
        cases same
        rw [Durable.reserve, Table.get_put]
        simp [Keyed.key, reservation])
      (fun key same => by cases same)
    refine ⟨after, after, List.nodup_cons.mpr ⟨unissued, issuedOnce⟩, authenticatedOnce, fun proof member => ?_,
      fun proof member => Nat.lt_succ_of_lt (spent proof member)⟩
    rcases Table.mem_put.mp member with rfl | ⟨old, _⟩
    · exact ⟨Nat.lt_succ_self _, fun again => absurd (spent _ again) (Nat.lt_irrefl _)⟩
    · exact ⟨Nat.lt_succ_of_lt (proofs proof old).1, (proofs proof old).2⟩
  | unended => exact ⟨memory, memory.endTask _, issuedOnce, authenticatedOnce, proofs, spent⟩
  | @ended key =>
    have after := (memory.endTask key).cons (e := .ended key) (fun _ _ same => by cases same)
      (fun other same => by cases same; exact List.mem_insert_self)
    exact ⟨after, after, issuedOnce, authenticatedOnce, proofs, spent⟩
  | consumed =>
    exact ⟨memory, file, issuedOnce, authenticatedOnce,
      fun proof member => proofs proof (List.mem_of_mem_filter member), spent⟩
  | @authenticated proof held found =>
    have key : held.id = proof := Table.get_key found
    obtain ⟨known, unspent⟩ := proofs held (Table.get_mem found)
    rw [key] at known unspent
    refine ⟨memory.cons ?_ ?_, file.cons ?_ ?_, issuedOnce, List.nodup_cons.mpr ⟨unspent, authenticatedOnce⟩,
      fun other member => ?_, fun other member => ?_⟩
    · exact fun _ _ same => by cases same
    · exact fun _ same => by cases same
    · exact fun _ _ same => by cases same
    · exact fun _ same => by cases same
    · obtain ⟨old, different⟩ := List.mem_filter.mp member
      refine ⟨(proofs other old).1, fun again => ?_⟩
      rcases List.mem_cons.mp again with same | again
      · exact absurd same (of_decide_eq_true different)
      · exact (proofs other old).2 again
    · rcases List.mem_cons.mp member with rfl | member
      · exact known
      · exact spent other member
  | closed => exact ⟨memory, file, issuedOnce, authenticatedOnce, proofs, spent⟩
  | restarted loaded =>
    have same := load_eq loaded
    exact ⟨same ▸ file, file, issuedOnce, authenticatedOnce, (fun proof member => by cases member), spent⟩

theorem reachable_used (reached : (authoritySystem config primitives).Reachable s) : Used primitives s := by
  refine reached.invariant (Used primitives) (fun s initial => ?_) fun used moved => (step_effect moved).used used
  obtain ⟨durable, file, _, _, proofs, _, log⟩ := initial
  have empty : (Durable.empty : Durable Digest).Knows primitives [] :=
    ⟨fun key proof member => absurd member List.not_mem_nil, fun key member => absurd member List.not_mem_nil,
      fun reservation member => absurd member List.not_mem_nil⟩
  refine ⟨by rw [durable, log]; exact empty, by rw [file, log]; exact empty, by rw [log]; exact List.nodup_nil,
    by rw [log]; exact List.nodup_nil, fun proof member => ?_, fun proof member => ?_⟩
  · rw [proofs] at member
    cases member
  · rw [log] at member
    cases member

/-- The reservation a session is eligible by. -/
theorem eligible_ok {session : Session} (eligible : eligible config primitives s session now = true) :
    ∃ task reservation, getTask config s session.taskId = some task ∧ task.epoch = session.epoch ∧
      ended s session.epoch = false ∧ s.durable.issuedTasks.get session.epoch = some reservation ∧
      reservation.authorityDigest = taskAuthorityDigest config primitives s task := by
  unfold Authority.eligible at eligible
  split at eligible
  · contradiction
  · split at eligible
    case h_2 => contradiction
    case h_1 task _ _ found _ _ =>
      simp only [Session.within, Bool.and_eq_true, decide_eq_true_eq, Bool.not_eq_true'] at eligible
      obtain ⟨⟨⟨⟨⟨⟨⟨⟨⟨⟨_, open_⟩, within⟩, reserved⟩, _⟩, _⟩, _⟩, _⟩, _⟩, _⟩, _⟩ := eligible
      obtain ⟨⟨⟨⟨⟨⟨_, attempt⟩, fence⟩, _⟩, _⟩, _⟩, _⟩ := within
      have epoch : task.epoch = session.epoch := by
        rw [TaskRecord.epoch, getTask_id found, attempt, fence, Session.epoch]
      rw [epoch] at open_ reserved
      obtain ⟨reservation, stored, pinned⟩ := (Option.any_eq_true _ _).mp reserved
      exact ⟨task, reservation, found, epoch, open_, stored, by simpa using pinned⟩

omit [DecidableEq Digest] in
theorem issueWorkloadProof_ok {workloadId : Uuid} {r : WorkloadRequest} {persisted : Persisted} {proof : Nat}
    (issued : (issueWorkloadProof config primitives s workloadId r now persisted).2 = .ok proof) :
    ended s ⟨r.taskId, r.attempt, r.fence⟩ = false := by
  unfold issueWorkloadProof at issued
  split at issued
  · contradiction
  · split at issued
    · contradiction
    · cases found : issuable config s workloadId r with
      | none => simp [found] at issued
      | some task =>
        obtain ⟨_, epoch, open_⟩ := issuable_ok found
        exact epoch ▸ open_

/-- A reservation is logged with the authority of the step that makes it. -/
theorem Effect.reserved_now (effect : Effect config primitives s s')
    (logged : .reserved reservation authority ∈ s'.log) :
    .reserved reservation authority ∈ s.log ∨ ∃ task, getTask config s task.id = some task ∧
      task.epoch = reservation.key ∧ authority = taskAuthority config s task := by
  cases effect with
  | reserved found fresh =>
    rcases List.mem_cons.mp logged with same | old
    · cases same
      exact Or.inr ⟨_, found, rfl, rfl⟩
    · exact Or.inl old
  | issued found fresh principal =>
    rcases List.mem_cons.mp (List.mem_of_ne_of_mem (fun same => by cases same) logged) with same | old
    · cases same
      exact Or.inr ⟨_, found, rfl, rfl⟩
    · exact Or.inl old
  | ended => exact Or.inl (List.mem_of_ne_of_mem (fun same => by cases same) logged)
  | authenticated found => exact Or.inl (List.mem_of_ne_of_mem (fun same => by cases same) logged)
  | _ => exact Or.inl logged

/-- What the reservations were made with, and what a check of one digests now. -/
def hashedAuthorities (config : Config Key) (s : State Digest) (value : Value) : Prop :=
  (∃ reservation authority, .reserved reservation authority ∈ s.log ∧
    value = .taskAuthority authority) ∨
  ∃ id task, getTask config s id = some task ∧ value = .taskAuthority (taskAuthority config s task)

theorem one_proof_per_epoch (free : primitives.Distinguishes (hashedAuthorities config s))
    (reached : (authoritySystem config primitives).Reachable s) :
    (s.log.filterMap Event.issuedKey).Nodup ∧ (s.log.filterMap Event.authenticatedProof).Nodup ∧
    (∀ key, .ended key ∈ s.log →
      (∀ session now, session.epoch = key → eligible config primitives s session now = false) ∧
      ∀ workloadId (r : WorkloadRequest) now persisted proof, ⟨r.taskId, r.attempt, r.fence⟩ = key →
        (issueWorkloadProof config primitives s workloadId r now persisted).2 ≠ .ok proof) ∧
    (∀ session now, eligible config primitives s session now = true →
      ∃ task reservation, getTask config s session.taskId = some task ∧ task.epoch = session.epoch ∧
        s.durable.issuedTasks.get session.epoch = some reservation ∧
        .reserved reservation (taskAuthority config s task) ∈ s.log) ∧
    ∀ label s', step config primitives s label = some s' → ∀ reservation authority,
      .reserved reservation authority ∈ s'.log → .reserved reservation authority ∈ s.log ∨
        ∃ task, getTask config s task.id = some task ∧ task.epoch = reservation.key ∧
          authority = taskAuthority config s task := by
  have used := reachable_used reached
  have stopped : ∀ key, .ended key ∈ s.log → ended s key = true := fun key logged => by
    simpa [ended] using used.memory.ended key logged
  refine ⟨used.issuedOnce, used.authenticatedOnce, fun key logged => ⟨fun session now same => ?_,
    fun workloadId r now persisted proof same issued => ?_⟩, fun session now eligible => ?_,
    fun label s' moved reservation authority logged => (step_effect moved).reserved_now logged⟩
  · cases answer : eligible config primitives s session now with
    | false => rfl
    | true =>
      obtain ⟨_, _, _, _, open_, _⟩ := eligible_ok answer
      rw [same, stopped key logged] at open_
      contradiction
  · have open_ := issueWorkloadProof_ok issued
    rw [same, stopped key logged] at open_
    contradiction
  · obtain ⟨task, reservation, found, epoch, _, stored, digest⟩ := eligible_ok eligible
    obtain ⟨authority, logged, pinned⟩ := used.memory.pinned reservation (Table.get_mem stored)
    have same : Value.taskAuthority authority = .taskAuthority (taskAuthority config s task) :=
      free _ _ (Or.inl ⟨reservation, authority, logged, rfl⟩) (Or.inr ⟨_, task, found, rfl⟩)
        (pinned.symm.trans digest)
    exact ⟨task, reservation, found, epoch, stored, Value.taskAuthority.inj same ▸ logged⟩

private def allowed : Allowed := ⟨[.itemRead], [30], ⟨5, 60⟩⟩

private def runningTask : TaskRecord where
  toAllowed := allowed
  id := 4
  revision := 1
  projectId := 2
  userId := 1
  agentId := 3
  attempt := 20
  fence := 21
  status := .running
  expiresAt := 50000
  grantIds := [22]
  connectionIds := [5]
  configurationRevision := 1
  readiness := ⟨1, 1, 1, true⟩

private def everything : Payload where
  version := "authority.v1"
  sourceId := "records"
  sequence := 1
  challenge := "boot"
  issuedAt := 1000
  expiresAt := 60000
  records :=
    { users := some [⟨1, 1, false⟩]
      projects := some [⟨2, 1, false, [1]⟩]
      agents := some [⟨3, 1, 2, 1, false, 23⟩]
      tasks := some [runningTask]
      ceilings := some []
      policies := some [⟨allowed, 5, 1, 1, 1, 1, none, "items", .active⟩] }

private def request : WorkloadRequest := ⟨⟨allowed, 22, 4, 20, 21, 40000, "fractionate-broker"⟩, 1⟩

private def session : Session := ⟨allowed, 4, 3, 5, 22, 1, 2, 20, 21, 1, 1, 40000, "fractionate-broker"⟩

private def permissive : Primitives String Value where
  verify key p signed := key = "key" && p = everything && signed = signature
  digest := id
  byteLength _ := 900

private def issuedRun : List Label :=
  [.ingest ⟨everything, signature⟩ 2000 .written, .issueWorkloadProof 23 request 2000 .written,
    .authenticate 0 2000]

private def endedRun : List Label := issuedRun ++ [.endTask 23 ⟨4, 20, 21⟩ 3000 .written, .restart "again"]

theorem one_proof_per_epoch_issued :
    (∃ s, (authoritySystem soleSource permissive).exec booted issuedRun = some s ∧
      s.log.filterMap Event.issuedKey = [session.epoch] ∧ eligible soleSource permissive s session 2000 = true ∧
      ∃ task reservation, getTask soleSource s session.taskId = some task ∧
        .reserved reservation (taskAuthority soleSource s task) ∈ s.log) ∧
    ∃ s, (authoritySystem soleSource permissive).exec booted endedRun = some s ∧
      ∀ now, eligible soleSource permissive s session now = false := by
  have issued : ((authoritySystem soleSource permissive).exec booted issuedRun).map (fun s =>
      (s.log.filterMap Event.issuedKey, eligible soleSource permissive s session 2000)) =
        some ([session.epoch], true) := by decide
  have endedRan : ((authoritySystem soleSource permissive).exec booted endedRun).map (fun s =>
      decide (.ended session.epoch ∈ s.log)) = some true := by decide
  obtain ⟨s, ran, same⟩ := Option.map_eq_some_iff.mp issued
  obtain ⟨s', ran', logged⟩ := Option.map_eq_some_iff.mp endedRan
  obtain ⟨keys, eligible⟩ := Prod.mk.inj same
  have initial : (authoritySystem soleSource permissive).initial booted := ⟨rfl, rfl, rfl, rfl, rfl, rfl, rfl⟩
  have free : permissive.Distinguishes (hashedAuthorities soleSource s) := fun a b _ _ equal => equal
  have free' : permissive.Distinguishes (hashedAuthorities soleSource s') :=
    fun a b _ _ equal => equal
  refine ⟨⟨s, ran, keys, eligible, ?_⟩, s', ran', fun now => ?_⟩
  · obtain ⟨_, _, _, current, _⟩ := one_proof_per_epoch free ⟨booted, issuedRun, initial, ran⟩
    obtain ⟨task, reservation, found, _, _, reserved⟩ := current session 2000 eligible
    exact ⟨task, reservation, found, reserved⟩
  · obtain ⟨_, _, ended, _, _⟩ := one_proof_per_epoch free' ⟨booted, endedRun, initial, ran'⟩
    exact (ended session.epoch (of_decide_eq_true logged)).1 session now rfl

end ProxyPilot.Authority
