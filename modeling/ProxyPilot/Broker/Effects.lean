import ProxyPilot.Broker.Machine

namespace ProxyPilot.Broker

open Data Transition

/-- The events after which no older session is good any more. -/
def EventType.commits : EventType → Bool
  | .revoked | .permissionChanged | .renamed | .rotationReserved => true
  | _ => false

def Proc.job : Proc → Option Job
  | .vaultReading job | .rechecking _ job | .rechecked job | .upstreamCalled job | .sent job => some job
  | _ => none

def Proc.rotates (connectionId : Uuid) : Proc → Bool
  | .waiting _ (.rotate _ id _ _) => id = connectionId
  | _ => false

/-- The external intent of the connection that the process is about to write. -/
def Proc.enrolls : Proc → Option Uuid
  | .waiting _ (.enroll c _) => c.enrollment.externalIntentId
  | _ => none

/-- What `enroll` checks of its arguments. -/
def enrollable (request : EnrollRequest) (credential : String) : Bool :=
  string request.name 200 && request.adapterId = "synthetic-ledger-v1" && validateScope request.toAllowed &&
    string credential 4096

/-- What a turn writes, tells and comes to, `now` on the clock. -/
inductive Effect (store : Store) (now : Time) : Proc → Outcome → Prop where
  | quiet {proc next} : Effect store now proc ⟨store, next, []⟩
  | drawn {proc next nextId} (later : store.nextId ≤ nextId) :
      Effect store now proc ⟨{ store with nextId }, next, []⟩
  | passed {s job current} (valid : validateCurrent store s now = .ok current) :
      Effect store now (.guarding s job) ⟨store, .await (.guarded job), [.passed s.id]⟩
  | created {key c credential} :
      Effect store now (.waiting key (.enroll c credential))
        ⟨(store.putConnection c).event .enrollmentReserved c c.ownerId now, .await (.enrollWriting c credential),
          [.created c.id c.enrollment.externalIntentId]⟩
  | updated {proc next latest c events} (found : store.connections.get c.id = some latest)
      (follows : latest.Follows c)
      (intent : c.enrollment.externalIntentId = latest.enrollment.externalIntentId)
      (noted : events = store.events ∨ ∃ e, events = e :: store.events ∧ e.type.commits = false) :
      Effect store now proc ⟨{ store.putConnection c with events }, next, []⟩
  | committed {proc next latest c u type nextId} (found : store.connections.get c.id = some latest)
      (follows : latest.Follows c) (raised : c.revision = latest.revision + 1) (commits : type.commits = true)
      (revokes : type = .revoked → c.status = .revoked) (later : store.nextId ≤ nextId)
      (intent : (proc.rotates c.id = true ∧ c.enrollment.externalIntentId = none) ∨
        c.enrollment.externalIntentId = latest.enrollment.externalIntentId) :
      Effect store now proc ⟨(({ store with nextId }.invalidate c.id).putConnection c).event type c u now, next, []⟩
  | granted {proc u c g} (fresh : g.id = store.nextId) :
      Effect store now proc ⟨{ store with grants := store.grants.put g, nextId := store.nextId +
        2 }.event .assigned c u now,
        .done (.ok none), []⟩
  | unassigned {u c g latest} (found : store.grants.get g.id = some latest)
      (follows : latest.Follows { g with revoked := true, revision := g.revision + 1 }) :
      Effect store now (.unassignDeciding u c g)
        ⟨{ store with
            grants := store.grants.put { g with revoked := true, revision := g.revision + 1 }
            sessions := store.sessions.map (fun s => s.revoke (s.grantId = g.id)) fun s => s.revoke_id _
          }.event .unassigned c u now, .done (.ok none), []⟩
  | issued {u s} :
      Effect store now (.issueChecked u s)
        ⟨{ store with sessions := store.sessions.put s
                      events := ⟨.sessionIssued, s.connectionId, s.connectionRevision, u, now⟩ :: store.events },
          .done (.ok none), []⟩
  | approved {proc u c a} (fresh : a.id = store.nextId) :
      Effect store now proc
        ⟨{ store with approvals := store.approvals.put a, nextId := store.nextId + 1 }.event .approved c u now,
          .done (.ok none), []⟩
  | reserved {s c e a o} (built : o = e.operation s c store.nextId now)
      (fresh : ∀ o ∈ store.operations.rows, o.key ≠ ⟨s.id, e.idempotencyKey⟩)
      (recovers : recoverable store s e.request.recoveryOf = .ok ())
      (actions : (counted store s.taskId c.id).length < s.limits.maxActions)
      (rate : (recent store c.id now).length < 10) (approval : approvalFor store s e now = .ok a) :
      Effect store now (.executeChecked s c e) ⟨store.reserve s o a,
        .await (.vaultReading ⟨e, o, a⟩), [.reserved o a]⟩
  | called {job} :
      Effect store now (.rechecked job)
        ⟨store.putOperation { job.operation with state := .sending }, .await (.upstreamCalled job),
          [.called job.operation]⟩
  | settled {proc job state code result} (own : proc.job = some job) (ends : state ≠ .reserved) :
      Effect store now proc ⟨store.putOperation (job.completed state code result now),
        .done (.ok (some (job.completed state code result now))), []⟩
  | reconciled {proc u c o decision} (found : store.operations.get o.id = some o)
      (uncertain : o.state = .uncertain) :
      Effect store now proc
        ⟨(store.putOperation { o with reconciled := some ⟨decision, u, now⟩ }).event .operationReconciled c u now,
          .done (.ok none), []⟩

variable {store : Store} {outcome : Outcome} {now : Time}

theorem unchanged_ok {c latest : Connection} (same : unchanged store c = .ok latest) :
    store.connections.get c.id = some latest ∧ latest.revision = c.revision ∧ latest.status ≠ .revoked := by
  simp only [unchanged, bind_ok, get_ok, require_ok, pure, Except.pure, Except.ok.injEq, Bool.and_eq_true,
    decide_eq_true_eq] at same
  obtain ⟨_, found, _, ⟨⟨_, revision⟩, live⟩, rfl⟩ := same
  exact ⟨found, revision, live⟩

variable {c : Connection} {s : Session} {u : Uuid} {credential : String} {answer : Option Secret}
  {revision : Nat} {allowed : Bool} {request : OperationRequest} {e : Execution} {eligible : Bool}

theorem unrevised_ok (same : unrevised store c = .ok ()) :
    ∃ latest, store.connections.get c.id = some latest ∧ latest.revision = c.revision ∧
      latest.status ≠ .revoked := by
  simp only [unrevised, bind_ok, get_ok, require_ok, Bool.and_eq_true, decide_eq_true_eq] at same
  obtain ⟨latest, found, revision, live⟩ := same
  exact ⟨latest, found, revision, live⟩

variable {current : Connection × Grant} {result : Except BrokerError (Option OperationRecord)}
  {version : Nat} {g : Grant} {token : Token} {key : Uuid} {configured : Bool}

/-- What a current session says of the store. -/
theorem validateCurrent_ok
    (valid : validateCurrent store s now = .ok current) :
    store.connections.get s.connectionId = some current.1 ∧ store.grants.get s.grantId = some current.2 ∧
      current.1.revision = s.connectionRevision ∧ current.2.revoked = false ∧
      s.toAllowed.within current.1.toAllowed = true ∧ s.toAllowed.within current.2.toAllowed = true := by
  simp only [validateCurrent, bind_ok, get_ok, require_ok, pure, Except.pure, Except.ok.injEq, Bool.and_eq_true,
    decide_eq_true_eq, Bool.not_eq_true'] at valid
  obtain ⟨_, _, c, found, g, foundGrant, _, ⟨⟨⟨⟨⟨⟨_, _⟩, revision⟩, _⟩, live⟩, _⟩, _⟩, _, _, _,
      ⟨⟨inside, inGrant⟩, _⟩,
    rfl⟩ := valid
  exact ⟨found, foundGrant, revision, live, inside, inGrant⟩

/-- What is written over a copy that is not out of date follows the latest record. -/
theorem Copied.follows_latest {c latest c' : Connection} (copied : Copied store c)
    (found : store.connections.get c.id = some latest) (revision : latest.revision = c.revision)
    (live : latest.status ≠ .revoked) (owner : c'.ownerId = c.ownerId) (allowed : c'.toAllowed = c.toAllowed)
    (later : c.revision ≤ c'.revision) (intent : c'.enrollment.externalIntentId = c.enrollment.externalIntentId) :
    latest.Follows c' ∧ c'.enrollment.externalIntentId = latest.enrollment.externalIntentId := by
  obtain ⟨stored, found', follows⟩ := copied
  cases found.symm.trans found'
  have same := intent.trans (follows.intent revision).symm
  exact ⟨⟨owner.trans follows.owner.symm, allowed.trans follows.allowed.symm, by omega,
    fun revoked => absurd revoked live, fun _ => same⟩, same⟩

theorem noted_event (store : Store) {type : EventType} (quiet : type.commits = false) (c : Connection) (u : Uuid)
    (now : Time) : (store.event type c u now).events = store.events ∨
      ∃ e, (store.event type c u now).events = e :: store.events ∧ e.type.commits = false :=
  Or.inr ⟨_, rfl, quiet⟩

/-- Where a turn leads: the next wait is well founded, and its record is the
process's own or a new one. -/
structure Outcome.Leads (store : Store) (proc : Proc) (outcome : Outcome) : Prop where
  fits : ∀ next, outcome.next = .await next → next.Fits outcome.store
  owned : ∀ next id, outcome.next = .await next → next.owned = some id →
    proc.owned = some id ∨ (store.nextId ≤ id ∧ id < outcome.store.nextId)
  enrolls : ∀ next x, outcome.next = .await next → next.enrolls = some x → ∃ request credential,
    proc = .authenticating (.enroll request credential (some x)) ∧ enrollable request credential = true ∧
      ∀ c ∈ store.connections.rows, c.enrollment.externalIntentId ≠ some x

structure Turned (store : Store) (now : Time) (proc : Proc) (outcome : Outcome) : Prop where
  effect : Effect store now proc outcome
  leads : outcome.Leads store proc

variable {proc next : Proc}

theorem leads_done (ends : outcome.next = .done result) :
    outcome.Leads store proc := by
  constructor
  · intro next waits
    rw [ends] at waits
    contradiction
  · intro next id waits
    rw [ends] at waits
    contradiction
  · intro next x waits
    rw [ends] at waits
    contradiction

theorem leads_await (waits : outcome.next = .await next) (fits : next.Fits outcome.store)
    (plain : next.enrolls = none)
    (owned : ∀ id, next.owned = some id → proc.owned = some id ∨ (store.nextId ≤ id ∧ id < outcome.store.nextId)) :
    outcome.Leads store proc := by
  constructor
  · intro other waits'
    cases waits.symm.trans waits'
    exact fits
  · intro other id waits' own
    cases waits.symm.trans waits'
    exact owned id own
  · intro other x waits' enrolls
    cases waits.symm.trans waits'
    rw [plain] at enrolls
    contradiction

/-- A turn that only waits for something else. -/
theorem turned_await (fits : next.Fits store) (plain : next.enrolls = none)
    (owned : ∀ id, next.owned = some id → proc.owned = some id) : Turned store now proc (store.await next) :=
  ⟨.quiet, leads_await rfl fits plain fun id own => Or.inl (owned id own)⟩

theorem turned_failed : Turned store now proc ⟨store, .done result, []⟩ :=
  ⟨.quiet, leads_done rfl⟩

theorem enrollAdmitted_turned (valid : store.Valid) {request : EnrollRequest}
    {intent : Option Uuid} (ran : enrollAdmitted store u request credential intent = .ok outcome) :
    Turned store now (.authenticating (.enroll request credential intent)) outcome := by
  simp only [enrollAdmitted, bind_ok, require_ok, pure, Except.pure, Except.ok.injEq] at ran
  obtain ⟨_, unused, _, admits, rfl⟩ := ran
  refine ⟨.drawn (Nat.le_add_right _ 3), fun next waits => ?_, fun next id waits own => ?_,
    fun next x waits enrolls => ?_⟩
  · cases waits
    exact valid.fresh_connection (Nat.le_refl _)
  · cases waits
    cases own
    exact Or.inr ⟨Nat.le_refl _, Nat.lt_add_of_pos_right (by decide)⟩
  · cases waits
    have named : intent = some x := enrolls
    subst named
    exact ⟨request, credential, rfl, admits, fun c member same => by
      simp only [Option.isSome_some, Bool.true_and, Bool.not_eq_true', List.any_eq_false,
        decide_eq_true_eq] at unused
      exact unused c member same⟩

/-- The `catch` of `enroll` and of `rotate`. -/
theorem reconcileRequired_turned {event : Store → Store}
    (ran : reconcileRequired store c event = .ok outcome)
    (writes : ∀ store : Store, event store = { store with events := (event store).events })
    (noted : ∀ store : Store, (event store).events = store.events ∨
      ∃ e, (event store).events = e :: store.events ∧ e.type.commits = false) :
    Turned store now proc outcome := by
  simp only [reconcileRequired, bind_ok, get_ok, pure, Except.pure, Except.ok.injEq] at ran
  obtain ⟨latest, found, rfl⟩ := ran
  have own : store.connections.get latest.id = some latest := by
    rw [show latest.id = c.id from Table.get_key found]
    exact found
  refine ⟨?_, leads_done rfl⟩
  rw [writes]
  exact .updated own ⟨rfl, rfl, Nat.le_refl _, fun revoked => revoked, fun _ => rfl⟩ rfl (noted _)

theorem enrollFailed_turned (ran : enrollFailed store c now = .ok outcome) : Turned store now proc outcome :=
  reconcileRequired_turned ran (fun _ => rfl) fun store => noted_event store rfl c c.ownerId now

theorem rotateFailed_turned (ran : rotateFailed store c = .ok outcome) : Turned store now proc outcome :=
  reconcileRequired_turned ran (fun _ => rfl) fun _ => Or.inl rfl

/-- A write over a copy that has just been checked. -/
theorem turned_update {c latest c' : Connection} {type : EventType} (copied : Copied store c)
    (found : store.connections.get c.id = some latest) (revision : latest.revision = c.revision)
    (live : latest.status ≠ .revoked) (key : c'.id = c.id) (owner : c'.ownerId = c.ownerId)
    (allowed : c'.toAllowed = c.toAllowed) (later : c.revision ≤ c'.revision)
    (intent : c'.enrollment.externalIntentId = c.enrollment.externalIntentId) (quiet : type.commits = false) :
    Turned store now proc ((store.putConnection c').event type c' u now).done := by
  obtain ⟨follows, same⟩ := copied.follows_latest found revision live owner allowed later intent
  exact ⟨.updated (by rw [key]; exact found) follows same (noted_event (store.putConnection c') quiet c' u now),
    leads_done rfl⟩

/-- A write that raises the revision and invalidates what was issued under it. -/
theorem turned_commit {id : Uuid} (c' : Connection) (type : EventType)
    (found : store.connections.get id = some c) (key : c'.id = c.id) (owner : c'.ownerId = c.ownerId)
    (allowed : c'.toAllowed = c.toAllowed) (raised : c'.revision = c.revision + 1)
    (revoked : c.status = .revoked → c'.status = .revoked) (commits : type.commits = true)
    (revokes : type = .revoked → c'.status = .revoked)
    (intent : c'.enrollment.externalIntentId = c.enrollment.externalIntentId) :
    Turned store now proc (((store.invalidate c'.id).putConnection c').event type c' u now).done := by
  have own : store.connections.get c'.id = some c := by
    rw [key, show c.id = id from Table.get_key found]
    exact found
  have follows : c.Follows c' := ⟨owner, allowed, by omega, revoked, fun same => by omega⟩
  exact ⟨.committed own follows raised commits revokes (Nat.le_refl _) (Or.inr intent), leads_done rfl⟩

theorem enrollRead_turned
    (copied : Copied store c) (ran : enrollRead store c credential version answer now = .ok outcome) :
    Turned store now proc outcome := by
  unfold enrollRead at ran
  cases commit : enrollCommit store c credential version answer now with
  | error reason => exact enrollFailed_turned (by simpa [commit] using ran)
  | ok committed =>
    simp only [commit, Except.ok.injEq] at ran
    simp only [enrollCommit, bind_ok, require_ok, pure, Except.pure, Except.ok.injEq] at commit
    obtain ⟨_, _, _, _, _, unrevised, rfl⟩ := commit
    subst ran
    obtain ⟨latest, found, revision, live⟩ := unrevised_ok unrevised
    exact turned_update copied found revision live rfl rfl rfl (Nat.le_refl _) rfl rfl

theorem reconcileRead_turned (copied : Copied store c)
    (ran : reconcileRead store u c answer now = .ok outcome) : Turned store now proc outcome := by
  simp only [reconcileRead, bind_ok, require_ok, pure, Except.pure, Except.ok.injEq] at ran
  obtain ⟨_, _, _, _, latest, same, rfl⟩ := ran
  obtain ⟨found, revision, live⟩ := unchanged_ok same
  exact turned_update copied found revision live rfl rfl rfl (Nat.le_succ _) rfl rfl

theorem rotateEntered_turned {key u connectionId : Uuid}
    (ran : rotateEntered store u connectionId revision credential now = .ok outcome) :
    Turned store now (.waiting key (.rotate u connectionId revision credential)) outcome := by
  simp only [rotateEntered, bind_ok, get_ok, require_ok, pure, Except.pure, Except.ok.injEq, Bool.and_eq_true,
    decide_eq_true_eq] at ran
  obtain ⟨c, found, _, _, _, _, _, ⟨live, _⟩, rfl⟩ := ran
  have key : c.id = connectionId := Table.get_key found
  have own : store.connections.get (c.reserveRotation store.nextId).id = some c := by
    rw [show (c.reserveRotation store.nextId).id = connectionId from key]
    exact found
  have follows : c.Follows (c.reserveRotation store.nextId) :=
    ⟨rfl, rfl, Nat.le_succ _, fun revoked => absurd revoked live, fun same => absurd same (Nat.succ_ne_self _)⟩
  exact ⟨.committed own follows rfl rfl (fun other => by cases other) (Nat.le_succ _)
    (Or.inl ⟨decide_eq_true key.symm, rfl⟩),
    leads_await rfl (copied_of_get (Table.get_put_self _ _)) rfl fun id own => by cases own⟩

theorem rotateRead_turned
    (copied : Copied store c) (ran : rotateRead store u c credential version answer now = .ok outcome) :
    Turned store now proc outcome := by
  unfold rotateRead at ran
  cases commit : rotateCommit store u c credential version answer now with
  | error reason => exact rotateFailed_turned (by simpa [commit] using ran)
  | ok committed =>
    simp only [commit, Except.ok.injEq] at ran
    simp only [rotateCommit, bind_ok, require_ok, pure, Except.pure, Except.ok.injEq] at commit
    obtain ⟨_, _, _, _, _, unrevised, rfl⟩ := commit
    subst ran
    obtain ⟨latest, found, revision, live⟩ := unrevised_ok unrevised
    exact turned_update copied found revision live rfl rfl rfl (Nat.le_refl _) rfl rfl

theorem testAnswered_turned {answer : Option Result} (copied : Copied store c)
    (ran : testAnswered store u c answer now = .ok outcome) : Turned store now proc outcome := by
  unfold testAnswered at ran
  split at ran
  case h_1 unrevised =>
    cases ran
    obtain ⟨latest, found, revision, live⟩ := unrevised_ok unrevised
    exact turned_update copied found revision live rfl rfl rfl (Nat.le_refl _) rfl rfl
  case h_2 =>
    cases ran
    exact turned_failed

theorem revalidated_turned (copied : Copied store c)
    (ran : revalidated store u c allowed now = .ok outcome) : Turned store now proc outcome := by
  simp only [revalidated, bind_ok, require_ok, pure, Except.pure, Except.ok.injEq] at ran
  obtain ⟨_, _, latest, same, rfl⟩ := ran
  obtain ⟨found, revision, live⟩ := unchanged_ok same
  exact turned_update copied found revision live rfl rfl rfl (Nat.le_succ _) rfl rfl

theorem setPermissionEntered_turned {u connectionId : Uuid} {request : Permission}
    (ran : setPermissionEntered store u connectionId revision request now = .ok outcome) :
    Turned store now proc outcome := by
  simp only [setPermissionEntered, bind_ok, get_ok, require_ok, pure, Except.pure, Except.ok.injEq] at ran
  obtain ⟨c, found, _, _, _, _, _, _, _, _, _, _, rfl⟩ := ran
  exact turned_commit (c.permit request) .permissionChanged found rfl rfl rfl rfl (fun revoked => revoked) rfl
    (fun other => by cases other) rfl

theorem renameEntered_turned {u connectionId : Uuid} {name : String}
    (ran : renameEntered store u connectionId revision name now = .ok outcome) : Turned store now proc outcome := by
  simp only [renameEntered, bind_ok, get_ok, pure, Except.pure, Except.ok.injEq] at ran
  obtain ⟨c, found, _, _, _, _, rfl⟩ := ran
  exact turned_commit (c.rename name) .renamed found rfl rfl rfl rfl (fun revoked => revoked) rfl
    (fun other => by cases other) rfl

theorem revokeAdmitted_turned {u connectionId : Uuid}
    (ran : revokeAdmitted store u connectionId revision now = .ok outcome) : Turned store now proc outcome := by
  simp only [revokeAdmitted, bind_ok, get_ok, pure, Except.pure, Except.ok.injEq] at ran
  obtain ⟨c, found, _, _, _, _, rfl⟩ := ran
  exact turned_commit c.revoke .revoked found rfl rfl rfl rfl (fun _ => rfl) rfl (fun _ => rfl) rfl

theorem assignDecided_turned {request : AssignRequest}
    (ran : assignDecided store u c request allowed now = .ok outcome) : Turned store now proc outcome := by
  simp only [assignDecided, bind_ok, require_ok, pure, Except.pure, Except.ok.injEq] at ran
  obtain ⟨_, _, _, _, rfl⟩ := ran
  exact ⟨.granted rfl, leads_done rfl⟩

theorem unassignDecided_turned (copied : GrantCopied store g)
    (ran : unassignDecided store u c g allowed now = .ok outcome) :
    Turned store now (.unassignDeciding u c g) outcome := by
  simp only [unassignDecided, bind_ok, require_ok, get_ok, pure, Except.pure, Except.ok.injEq] at ran
  obtain ⟨_, _, _, _, latest, found, _, _, rfl⟩ := ran
  obtain ⟨stored, found', follows⟩ := copied
  cases found.symm.trans found'
  refine ⟨.unassigned found ⟨?_, fun _ => rfl⟩, leads_done rfl⟩
  rw [← follows.same]

theorem Allowed.subset_of_within {a b : Allowed} (inside : a.within b = true) :
    a.operations ⊆ b.operations ∧ a.resources ⊆ b.resources := by
  simp only [Allowed.within, subset, Bool.and_eq_true, List.all_eq_true, decide_eq_true_eq] at inside
  exact ⟨fun _ member => inside.1.1 _ member, fun _ member => inside.1.2 _ member⟩

theorem backed_of_current
    (valid : validateCurrent store s now = .ok current) : Backed store s := by
  obtain ⟨found, foundGrant, revision, _, inside, inGrant⟩ := validateCurrent_ok valid
  obtain ⟨operations, resources⟩ := Allowed.subset_of_within inside
  obtain ⟨operations', resources'⟩ := Allowed.subset_of_within inGrant
  exact ⟨⟨current.1, found, by omega, operations, resources⟩, current.2, foundGrant, operations', resources'⟩

theorem session_ok (found : session store token = .ok s) :
    s ∈ store.sessions.rows ∧ s.verifier = token := by
  have found := demand_ok.mp found
  exact ⟨List.mem_of_find?_eq_some found, by simpa using List.find?_some found⟩

theorem issueSessionEntered_turned (valid : store.Valid) {request : SessionRequest}
    (ran : issueSessionEntered store u g request now = .ok outcome) : Turned store now proc outcome := by
  simp only [issueSessionEntered, bind_ok, get_ok, require_ok, pure, Except.pure, Except.ok.injEq] at ran
  obtain ⟨c, _, _, _, _, _, _, _, _, _, current, valid', rfl⟩ := ran
  refine ⟨.drawn (Nat.le_add_right _ 2), leads_await rfl ⟨valid.fresh_session (Nat.le_refl _), rfl,
    backed_of_current valid'⟩ rfl fun id own => ?_⟩
  cases own
  exact Or.inr ⟨Nat.le_refl _, Nat.lt_add_of_pos_right (by decide)⟩

theorem approveResumed_turned
    (ran : approveResumed store u s c request now = .ok outcome) : Turned store now proc outcome := by
  simp only [approveResumed, bind_ok, require_ok, pure, Except.pure, Except.ok.injEq] at ran
  obtain ⟨_, _, r, _, _, _, rfl⟩ := ran
  exact ⟨.approved rfl, leads_done rfl⟩

theorem executeBegun_fits {key : String}
    (begun : executeBegun store token request key = .ok proc) : proc.Fits store ∧ proc.owned = none := by
  simp only [executeBegun, normalized, bind_ok, require_ok, pure, Except.pure, Except.ok.injEq, Bool.and_eq_true,
    decide_eq_true_eq] at begun
  obtain ⟨_, _, s, found, _, ⟨_, _, _, inside, rfl⟩, rfl⟩ := begun
  obtain ⟨member, verifier⟩ := session_ok found
  exact ⟨⟨s, member, verifier, inside⟩, rfl⟩

theorem executeEntered_turned (valid : store.Valid)
    (fits : (Proc.waiting key (.execute e)).Fits store) (ran : executeEntered store e now = .ok outcome) :
    Turned store now proc outcome := by
  simp only [executeEntered, bind_ok, pure, Except.pure, Except.ok.injEq] at ran
  obtain ⟨s, found, _, _, rfl⟩ := ran
  obtain ⟨member, verifier⟩ := session_ok found
  obtain ⟨initial, stored, inside⟩ := fits
  cases valid.session_eq stored member (inside.1.trans verifier.symm)
  exact turned_await ⟨sessionCopied_of_get member, inside⟩ rfl fun id own => by cases own

theorem executeDecided_turned
    (fits : (Proc.executeEligible s e).Fits store) (ran : executeDecided store s e eligible now = .ok outcome) :
    Turned store now proc outcome := by
  simp only [executeDecided, bind_ok, require_ok, pure, Except.pure, Except.ok.injEq] at ran
  obtain ⟨_, _, current, valid, rfl⟩ := ran
  exact turned_await ⟨fits.1, fits.2, Table.get_key (validateCurrent_ok valid).1⟩ rfl fun id own => by cases own

theorem executeResumed_turned
    (ran : executeResumed store s c e now = .ok outcome) : Turned store now (.executeChecked s c e) outcome := by
  unfold executeResumed at ran
  split at ran
  case h_1 =>
    split at ran
    · contradiction
    · cases ran
      exact turned_failed
  case h_2 unused =>
    simp only [bind_ok, require_ok, pure, Except.pure, Except.ok.injEq, Bool.and_eq_true, decide_eq_true_eq] at ran
    obtain ⟨_, recovers, _, ⟨actions, rate⟩, a, approval, rfl⟩ := ran
    have fresh : ∀ o ∈ store.operations.rows, o.key ≠ ⟨s.id, e.idempotencyKey⟩ := fun o member same => by
      have other := List.find?_eq_none.mp unused o member
      simp [same] at other
    refine ⟨.reserved rfl fresh recovers actions rate approval,
      leads_await rfl ⟨Table.get_put_self _ _, rfl⟩ rfl fun id own => ?_⟩
    cases own
    exact Or.inr ⟨Nat.le_refl _, Nat.lt_succ_self _⟩

variable {job : Job}

theorem settle_turned {state : OperationState} {code : Option OperationCode} {result : Option Result}
    (own : proc.job = some job) (ends : state ≠ .reserved)
    (ran : job.settle store state code result now = .ok outcome) : Turned store now proc outcome := by
  cases ran
  exact ⟨.settled own ends, leads_done rfl⟩

theorem vaultRead_turned (fits : (Proc.vaultReading job).Fits store)
    (ran : vaultRead store job answer now = .ok outcome) : Turned store now (.vaultReading job) outcome := by
  unfold vaultRead at ran
  dsimp only at ran
  split at ran
  · cases ran
    exact turned_await fits rfl fun id own => own
  · exact settle_turned rfl (by decide) ran

theorem recheckDecided_turned (fits : (Proc.rechecking s job).Fits store)
    (ran : recheckDecided store s job eligible now = .ok outcome) :
    Turned store now (.rechecking s job) outcome := by
  unfold recheckDecided at ran
  split at ran
  · cases ran
    exact turned_await fits rfl fun id own => own
  · exact settle_turned rfl (by decide) ran

theorem recheckResumed_turned (fits : (Proc.rechecked job).Fits store)
    (ran : recheckResumed store job now = .ok outcome) : Turned store now (.rechecked job) outcome := by
  unfold recheckResumed at ran
  split at ran
  · cases ran
    exact ⟨.called, leads_await rfl ⟨Table.get_put_self _ _, fits.operation⟩ rfl fun id own => Or.inl own⟩
  · exact settle_turned rfl (by decide) ran

theorem guardBegun_turned (fits : (Proc.upstreamCalled job).Fits store)
    (ran : guardBegun store job now = .ok outcome) :
    Turned store now (.upstreamCalled job) outcome := by
  unfold guardBegun at ran
  dsimp only at ran
  split at ran
  case h_1 s checked =>
    cases ran
    simp only [bind_ok, pure, Except.pure, Except.ok.injEq] at checked
    obtain ⟨_, found, _, _, rfl⟩ := checked
    exact turned_await ⟨fits, sessionCopied_of_get (session_ok found).1⟩ rfl fun id own => own
  case h_2 =>
    cases ran
    exact turned_await fits rfl fun id own => own

theorem guardDecided_turned (fits : (Proc.guarding s job).Fits store)
    (ran : guardDecided store s job eligible now = .ok outcome) : Turned store now (.guarding s job) outcome := by
  unfold guardDecided at ran
  split at ran
  case h_1 valid =>
    cases ran
    exact ⟨.passed valid, leads_await rfl fits.1 rfl fun id own => Or.inl own⟩
  case h_2 =>
    cases ran
    exact turned_await fits.1 rfl fun id own => own

theorem guardResumed_turned (fits : (Proc.guarded job).Fits store)
    (ran : guardResumed store job now = .ok outcome) :
    Turned store now (.guarded job) outcome := by
  unfold guardResumed at ran
  split at ran
  · cases ran
    exact turned_await fits rfl fun id own => own
  · cases ran
    exact turned_await fits rfl fun id own => own

theorem upstreamAnswered_turned {answer : Option Result} (own : proc.job = some job)
    (ran : upstreamAnswered store job answer now = .ok outcome) : Turned store now proc outcome := by
  unfold upstreamAnswered at ran
  split at ran
  · exact settle_turned own (by decide) ran
  · split at ran
    · exact settle_turned own (by decide) ran
    · exact settle_turned own (by decide) ran

theorem reconcileOperationAdmitted_turned {u operationId : Uuid} {decision : Decision}
    (ran : reconcileOperationAdmitted store u operationId decision now = .ok outcome) :
    Turned store now proc outcome := by
  simp only [reconcileOperationAdmitted, bind_ok, get_ok, require_ok, pure, Except.pure, Except.ok.injEq,
    Bool.and_eq_true, decide_eq_true_eq] at ran
  obtain ⟨o, found, _, _, _, _, _, ⟨uncertain, _⟩, rfl⟩ := ran
  have own : store.operations.get o.id = some o := by
    rw [show o.id = operationId from Table.get_key found]
    exact found
  exact ⟨.reconciled own uncertain, leads_done rfl⟩

theorem admitted_turned (valid : store.Valid) {p : Principal} {call : Call}
    (ran : admitted configured store p now call = .ok outcome) :
    Turned store now (.authenticating call) outcome := by
  cases call with
  | enroll request credential intent => exact enrollAdmitted_turned valid ran
  | revoke connectionId revision => exact revokeAdmitted_turned ran
  | reconcileOperation operationId decision => exact reconcileOperationAdmitted_turned ran
  | execute token request key => contradiction
  | reconcileEnrollment connectionId revision =>
    cases ran
    exact turned_await trivial rfl fun id own => by cases own
  | testConnection connectionId revision =>
    cases ran
    exact turned_await trivial rfl fun id own => by cases own
  | revalidatePolicy connectionId revision =>
    cases ran
    exact turned_await trivial rfl fun id own => by cases own
  | rotate connectionId revision credential =>
    simp only [admitted, bind_ok, pure, Except.pure, Except.ok.injEq] at ran
    obtain ⟨_, _, rfl⟩ := ran
    exact turned_await trivial rfl fun id own => by cases own
  | assign connectionId revision request =>
    simp only [admitted, bind_ok, pure, Except.pure, Except.ok.injEq] at ran
    obtain ⟨_, _, rfl⟩ := ran
    exact turned_await trivial rfl fun id own => by cases own
  | setPermission connectionId revision request =>
    simp only [admitted, bind_ok, pure, Except.pure, Except.ok.injEq] at ran
    obtain ⟨_, _, rfl⟩ := ran
    exact turned_await trivial rfl fun id own => by cases own
  | rename connectionId revision name =>
    simp only [admitted, bind_ok, pure, Except.pure, Except.ok.injEq] at ran
    obtain ⟨_, _, rfl⟩ := ran
    exact turned_await trivial rfl fun id own => by cases own
  | issueSession grantId request =>
    simp only [admitted, issueSessionAdmitted, bind_ok, pure, Except.pure, Except.ok.injEq] at ran
    obtain ⟨_, _, _, _, g, _, _, _, rfl⟩ := ran
    exact turned_await trivial rfl fun id own => by cases own
  | approve sessionId request =>
    simp only [admitted, approveAdmitted, bind_ok, pure, Except.pure, Except.ok.injEq] at ran
    obtain ⟨s, _, _, _, rfl⟩ := ran
    exact turned_await trivial rfl fun id own => by cases own
  | unassign grantId revision =>
    simp only [admitted, unassignAdmitted, bind_ok, get_ok, pure, Except.pure, Except.ok.injEq] at ran
    obtain ⟨g, found, _, _, _, _, _, _, rfl⟩ := ran
    have key : g.id = grantId := Table.get_key found
    exact turned_await ⟨g, by rw [key]; exact found, .refl g⟩ rfl fun id own => by cases own

theorem entered_turned (valid : store.Valid) {work : Work} (fits : (Proc.waiting key work).Fits store)
    (ran : entered store now work = .ok outcome) : Turned store now (.waiting key work) outcome := by
  cases work with
  | enroll c credential =>
    cases ran
    exact ⟨.created, leads_await rfl (copied_of_get (Table.get_put_self _ _)) rfl fun id own => by cases own⟩
  | rotate u connectionId revision credential => exact rotateEntered_turned ran
  | setPermission u connectionId revision request => exact setPermissionEntered_turned ran
  | issueSession u g request => exact issueSessionEntered_turned valid ran
  | rename u connectionId revision name => exact renameEntered_turned ran
  | execute e => exact executeEntered_turned valid fits ran
  | reconcileEnrollment u connectionId revision =>
    simp only [entered, reconcileEnrollmentEntered, bind_ok, get_ok, pure, Except.pure, Except.ok.injEq] at ran
    obtain ⟨c, found, _, _, _, _, _, _, rfl⟩ := ran
    exact turned_await (copied_of_get found) rfl fun id own => by cases own
  | testConnection u connectionId revision =>
    simp only [entered, testEntered, bind_ok, get_ok, pure, Except.pure, Except.ok.injEq] at ran
    obtain ⟨c, found, _, _, _, _, _, _, rfl⟩ := ran
    exact turned_await (copied_of_get found) rfl fun id own => by cases own
  | revalidatePolicy u connectionId revision =>
    simp only [entered, revalidatePolicyEntered, bind_ok, get_ok, pure, Except.pure, Except.ok.injEq] at ran
    obtain ⟨c, found, _, _, _, _, rfl⟩ := ran
    exact turned_await (copied_of_get found) rfl fun id own => by cases own
  | assign u connectionId revision request =>
    simp only [entered, assignEntered, bind_ok, pure, Except.pure, Except.ok.injEq] at ran
    obtain ⟨c, _, _, _, _, _, _, _, _, _, _, _, _, _, rfl⟩ := ran
    exact turned_await trivial rfl fun id own => by cases own
  | approve u s request =>
    simp only [entered, approveEntered, bind_ok, pure, Except.pure, Except.ok.injEq] at ran
    obtain ⟨_, _, rfl⟩ := ran
    exact turned_await trivial rfl fun id own => by cases own

theorem enrollWritten_turned {answer : Option Nat} (copied : Copied store c)
    (ran : enrollWritten store c credential answer now = .ok outcome) : Turned store now proc outcome := by
  cases answer with
  | none => exact enrollFailed_turned ran
  | some version =>
    cases ran
    exact turned_await copied rfl fun id own => by cases own

theorem rotateWritten_turned {answer : Option Nat}
    (copied : Copied store c) (ran : rotateWritten store u c credential answer = .ok outcome) :
    Turned store now proc outcome := by
  cases answer with
  | none => exact rotateFailed_turned ran
  | some version =>
    cases ran
    exact turned_await copied rfl fun id own => by cases own

theorem testRead_turned (copied : Copied store c)
    (ran : testRead store u c answer = .ok outcome) : Turned store now proc outcome := by
  unfold testRead at ran
  split at ran
  · cases ran
    exact turned_await copied rfl fun id own => by cases own
  · cases ran
    exact turned_failed

theorem issueDecided_turned (fits : (Proc.issueEligible u s).Fits store)
    (ran : issueDecided store u s eligible now = .ok outcome) : Turned store now (.issueEligible u s) outcome := by
  simp only [issueDecided, bind_ok, pure, Except.pure, Except.ok.injEq] at ran
  obtain ⟨_, _, _, _, rfl⟩ := ran
  exact turned_await fits rfl fun id own => own

theorem approveDecided_turned
    (ran : approveDecided store u s request eligible now = .ok outcome) : Turned store now proc outcome := by
  simp only [approveDecided, bind_ok, pure, Except.pure, Except.ok.injEq] at ran
  obtain ⟨_, _, current, _, rfl⟩ := ran
  exact turned_await trivial rfl fun id own => by cases own

/-- Every turn of a process that fits is one of the effects, and leads to one that fits. -/
theorem advance_turned (valid : store.Valid) (fits : proc.Fits store) {reply : Reply}
    (ran : advance configured store now proc reply = some (.ok outcome)) : Turned store now proc outcome := by
  unfold advance at ran
  split at ran
  case h_1 =>
    have ran := Option.some.inj ran
    simp only [authenticated, bind_ok] at ran
    obtain ⟨p, _, ran⟩ := ran
    exact admitted_turned valid ran
  case h_2 => exact entered_turned valid fits (Option.some.inj ran)
  case h_3 => exact enrollWritten_turned fits (Option.some.inj ran)
  case h_4 => exact enrollRead_turned fits (Option.some.inj ran)
  case h_5 => exact reconcileRead_turned fits (Option.some.inj ran)
  case h_6 => exact rotateWritten_turned fits (Option.some.inj ran)
  case h_7 => exact rotateRead_turned fits (Option.some.inj ran)
  case h_8 => exact testRead_turned fits (Option.some.inj ran)
  case h_9 => exact testAnswered_turned fits (Option.some.inj ran)
  case h_10 => exact assignDecided_turned (Option.some.inj ran)
  case h_11 => exact issueDecided_turned fits (Option.some.inj ran)
  case h_12 =>
    cases Except.ok.inj (Option.some.inj ran)
    exact ⟨.issued, leads_done rfl⟩
  case h_13 => exact approveDecided_turned (Option.some.inj ran)
  case h_14 => exact approveResumed_turned (Option.some.inj ran)
  case h_15 => exact unassignDecided_turned fits (Option.some.inj ran)
  case h_16 => exact revalidated_turned fits (Option.some.inj ran)
  case h_17 => exact executeDecided_turned fits (Option.some.inj ran)
  case h_18 => exact executeResumed_turned (Option.some.inj ran)
  case h_19 => exact vaultRead_turned fits (Option.some.inj ran)
  case h_20 => exact recheckDecided_turned fits (Option.some.inj ran)
  case h_21 => exact recheckResumed_turned fits (Option.some.inj ran)
  case h_22 => exact guardBegun_turned fits (Option.some.inj ran)
  case h_23 => exact guardDecided_turned fits (Option.some.inj ran)
  case h_24 => exact guardResumed_turned fits (Option.some.inj ran)
  case h_25 => exact upstreamAnswered_turned rfl (Option.some.inj ran)
  case h_26 => exact upstreamAnswered_turned rfl (Option.some.inj ran)
  case h_27 => contradiction

end ProxyPilot.Broker
