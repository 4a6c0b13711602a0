import ProxyPilot.Broker.Effects

namespace ProxyPilot.Broker

open Data Transition

variable {store : Store} {outcome : Outcome} {now : Time} {proc : Proc}

theorem approvalFor_some {s : Session} {e : Execution} {a : Approval}
    (given : approvalFor store s e now = .ok (some a)) :
    store.approvals.get a.id = some a ∧ a.consumed = false ∧ a.sessionId = s.id ∧
      a.digest = opDigest s e.request := by
  unfold approvalFor at given
  split at given
  · cases given
  · simp only [bind_ok, get_ok, require_ok, pure, Except.pure, Except.ok.injEq, Option.some.injEq, Bool.and_eq_true,
      decide_eq_true_eq, Bool.not_eq_true'] at given
    obtain ⟨id, _, found, stored, _, ⟨⟨⟨fresh, _⟩, session⟩, digest⟩, rfl⟩ := given
    have key : found.id = id := Table.get_key stored
    exact ⟨by rw [key]; exact stored, fresh, session, digest⟩

/-- A process that settles an operation holds it reserved or sending. -/
theorem Proc.Fits.job {job : Job} (fits : proc.Fits store) (own : proc.job = some job) :
    proc.owned = some job.operation.id ∧ ∃ state, state ≠ .uncertain ∧ job.Fits store state := by
  cases proc with
  | vaultReading other => cases own; exact ⟨rfl, _, by decide, fits⟩
  | rechecking s other => cases own; exact ⟨rfl, _, by decide, fits⟩
  | rechecked other => cases own; exact ⟨rfl, _, by decide, fits⟩
  | upstreamCalled other => cases own; exact ⟨rfl, _, by decide, fits⟩
  | sent other => cases own; exact ⟨rfl, _, by decide, fits⟩
  | _ => cases own

variable {events : List EventRecord} {c : Connection} {before after : Store}

theorem putConnection_grows
    (follows : ∀ old, store.connections.get c.id = some old → old.Follows c) :
    store.Grows { store.putConnection c with events } :=
  { Store.Grows.refl store with connections := .put Connection.Follows.refl follows }

variable {o : OperationRecord} {owned : Option Uuid} {process : Process}

theorem putOperation_grows
    (follows : ∀ old, store.operations.get o.id = some old → old.Follows o) :
    store.Grows { store.putOperation o with events } :=
  { Store.Grows.refl store with operations := .put OperationRecord.Follows.refl follows }

theorem invalidate_grows (store : Store) (connectionId : Uuid) : store.Grows (store.invalidate connectionId) :=
  { Store.Grows.refl store with
    sessions := .map _ (fun s => s.revoke_id _) fun s _ => s.revoke_same _
    approvals := .map _ (fun a => a.consume_id _) fun a _ => a.consume_follows _ }

theorem Effect.grows (effect : Effect store now proc outcome) (valid : store.Valid) (fits : proc.Fits store) :
    store.Grows outcome.store := by
  cases effect with
  | quiet => exact .refl store
  | passed => exact .refl store
  | drawn later => exact { Store.Grows.refl store with nextId := later }
  | created =>
    exact putConnection_grows fun old found => by
      rw [show store.connections.get _ = none from fits] at found
      contradiction
  | updated found follows =>
    exact putConnection_grows fun old stored => by
      cases found.symm.trans stored
      exact follows
  | @committed _ _ latest c u type nextId found follows _ _ _ later =>
    have drawn : store.Grows { store with nextId } := { Store.Grows.refl store with nextId := later }
    refine (drawn.trans (invalidate_grows _ c.id)).trans (putConnection_grows fun old stored => ?_)
    cases found.symm.trans stored
    exact follows
  | granted fresh =>
    exact { Store.Grows.refl store with
      grants := .put_new Grant.Follows.refl (get_fresh valid.grants (Nat.le_of_eq fresh.symm))
      nextId := Nat.le_add_right _ 2 }
  | unassigned found follows =>
    exact { Store.Grows.refl store with
      grants := .put Grant.Follows.refl fun old stored => by
        cases found.symm.trans stored
        exact follows
      sessions := .map _ (fun s => s.revoke_id _) fun s _ => s.revoke_same _ }
  | issued =>
    exact { Store.Grows.refl store with sessions := .put_new Session.Same.refl fits.1 }
  | approved fresh =>
    exact { Store.Grows.refl store with
      approvals := .put_new Approval.Follows.refl (get_fresh valid.approvals (Nat.le_of_eq fresh.symm))
      nextId := Nat.le_succ _ }
  | @reserved s c e a o built _ _ _ _ approval =>
    obtain ⟨stored, found, same⟩ := fits.1
    refine ⟨.refl Connection.Follows.refl _, .refl Grant.Follows.refl _, .put Session.Same.refl ?_, ?_,
      .put_new OperationRecord.Follows.refl ?_, Nat.le_succ _⟩
    · intro old found'
      cases found.symm.trans found'
      exact same.symm.trans rfl
    · cases a with
      | none => exact .refl Approval.Follows.refl _
      | some a =>
        refine .put Approval.Follows.refl fun old found' => ?_
        cases (approvalFor_some approval).1.symm.trans found'
        exact a.consume_follows true
    · exact get_fresh valid.operations (Nat.le_of_eq (by rw [built]; rfl))
  | called =>
    exact putOperation_grows fun old stored => by
      cases fits.stored.symm.trans stored
      exact ⟨rfl, fun uncertain => by contradiction, fun reserved => by contradiction⟩
  | settled own ends =>
    obtain ⟨_, state, certain, job⟩ := fits.job own
    exact putOperation_grows fun old stored => by
      cases job.stored.symm.trans stored
      exact ⟨rfl, fun uncertain => absurd uncertain certain, fun reserved => absurd reserved ends⟩
  | reconciled found uncertain =>
    exact putOperation_grows fun old stored => by
      cases found.symm.trans stored
      exact ⟨rfl, fun uncertain => uncertain, fun reserved => reserved⟩

theorem Backed.same {s s' : Session} (backed : Backed store s) (same : s.Same s') : Backed store s' := by
  rw [← same]
  exact ⟨backed.connection, backed.grant⟩

/-- Only the connections and the grants back a session. -/
theorem Backed.tables {s : Session} (backed : Backed before s)
    (connections : before.connections = after.connections) (grants : before.grants = after.grants) :
    Backed after s :=
  ⟨connections ▸ backed.connection, grants ▸ backed.grant⟩

theorem Store.Valid.later (valid : store.Valid) {nextId : Uuid} (later : store.nextId ≤ nextId) :
    { store with nextId }.Valid where
  connections c member := Nat.lt_of_lt_of_le (valid.connections c member) later
  grants g member := Nat.lt_of_lt_of_le (valid.grants g member) later
  sessions s member := ⟨Nat.lt_of_lt_of_le (valid.sessions s member).1 later, (valid.sessions s member).2⟩
  approvals a member := Nat.lt_of_lt_of_le (valid.approvals a member) later
  operations o member := Nat.lt_of_lt_of_le (valid.operations o member) later
  backed s member := (valid.backed s member).tables rfl rfl
  keys := valid.keys

theorem Store.Valid.putConnection (valid : store.Valid)
    (drawn : c.id < store.nextId) (follows : ∀ old, store.connections.get c.id = some old → old.Follows c) :
    { store.putConnection c with events }.Valid where
  connections := Table.all_put valid.connections drawn
  grants := valid.grants
  sessions := valid.sessions
  approvals := valid.approvals
  operations := valid.operations
  backed s member := (valid.backed s member).grows (putConnection_grows follows)
  keys := valid.keys

theorem Store.Valid.putOperation (valid : store.Valid) {o old : OperationRecord}
    (found : store.operations.get o.id = some old) (follows : old.Follows o) :
    { store.putOperation o with events }.Valid where
  connections := valid.connections
  grants := valid.grants
  sessions := valid.sessions
  approvals := valid.approvals
  operations := Table.all_put valid.operations (by
    rw [show o.id = old.id from (Table.get_key found).symm]
    exact valid.operations old (Table.get_mem found))
  backed s member := (valid.backed s member).tables rfl rfl
  keys := by
    have key : o.key = old.key := by rw [← follows.same]
    have id : old.id = o.id := Table.get_key found
    refine Table.all_put (fun x stored => Table.all_put (valid.keys x stored) fun same => ?_)
      (Table.all_put (fun y stored same => ?_) fun _ => rfl)
    · exact (valid.keys x stored old (Table.get_mem found) (same.trans key)).trans id
    · exact id.symm.trans (valid.keys old (Table.get_mem found) y stored (key.symm.trans same))

/-- Sessions that only lose what they had stay backed. -/
theorem Store.Valid.revokeSessions (valid : store.Valid) (given : Session → Bool) (events : List EventRecord) :
    { store with
      sessions := store.sessions.map (fun s => s.revoke (given s)) fun s => s.revoke_id _
      events }.Valid where
  connections := valid.connections
  grants := valid.grants
  sessions := Table.all_map _ (fun s => s.revoke_id _) fun s member => by
    rw [← s.revoke_same (given s)]
    exact valid.sessions s member
  approvals := valid.approvals
  operations := valid.operations
  backed := Table.all_map _ (fun s => s.revoke_id _) fun s member =>
    ((valid.backed s member).same (s.revoke_same _)).tables rfl rfl
  keys := valid.keys

theorem Store.Valid.invalidate (valid : store.Valid) (connectionId : Uuid) :
    (store.invalidate connectionId).Valid :=
  have revoked := valid.revokeSessions (fun s => s.connectionId = connectionId) store.events
  { revoked with
    approvals := Table.all_map _ (fun a => a.consume_id _) fun a member => by
      rw [a.consume_id]
      exact valid.approvals a member
    backed := fun s member => (revoked.backed s member).tables rfl rfl }

theorem Store.Valid.putSession (valid : store.Valid) {s : Session}
    (drawn : s.id < store.nextId) (verifier : s.verifier = s.id + 1) (backed : Backed store s) :
    { store with sessions := store.sessions.put s, events }.Valid where
  connections := valid.connections
  grants := valid.grants
  sessions := Table.all_put valid.sessions ⟨drawn, verifier⟩
  approvals := valid.approvals
  operations := valid.operations
  backed := Table.all_put (fun other member => (valid.backed other member).tables rfl rfl) (backed.tables rfl rfl)
  keys := valid.keys

theorem drawn_of_get {table : Table Connection} {bound : Uuid}
    (below : ∀ row ∈ table.rows, row.id < bound) {id : Uuid} (found : table.get id = some c) : id < bound := by
  rw [← show c.id = id from Table.get_key found]
  exact below c (Table.get_mem found)

theorem reserve_valid (valid : store.Valid) {s stored : Session} {a : Option Approval}
    (found : store.sessions.get s.id = some stored) (same : s.Same stored) (id : o.id = store.nextId)
    (fresh : ∀ other ∈ store.operations.rows, other.key ≠ o.key)
    (given : ∀ a', a = some a' → store.approvals.get a'.id = some a') : (store.reserve s o a).Valid := by
  have member := Table.get_mem found
  have key : stored.id = s.id := Table.get_key found
  have backed : Backed store s := (valid.backed stored member).same same.symm
  have drawn : s.id < store.nextId := key ▸ (valid.sessions stored member).1
  have verifier : s.verifier = s.id + 1 := by
    have drawn := (valid.sessions stored member).2
    rw [← same] at drawn
    exact drawn
  have used : { store with
    sessions := store.sessions.put { s with used := s.used + 1 }, events := store.events }.Valid :=
    valid.putSession drawn verifier (backed.same rfl)
  have counted := used.later (Nat.le_succ store.nextId)
  refine { counted with approvals := ?_, operations := ?_, backed := ?_, keys := ?_ }
  · cases a with
    | none => exact counted.approvals
    | some a =>
      exact Table.all_put counted.approvals
        (Nat.lt_succ_of_lt (valid.approvals a (Table.get_mem (given a rfl))))
  · exact Table.all_put counted.operations (id ▸ Nat.lt_succ_self _)
  · exact fun other member => (counted.backed other member).tables rfl rfl
  · exact Table.all_put
      (fun x stored => Table.all_put (valid.keys x stored) fun same => absurd same (fresh x stored))
      (Table.all_put (fun y stored same => absurd same.symm (fresh y stored)) fun _ => rfl)

theorem Effect.valid (effect : Effect store now proc outcome) (valid : store.Valid) (fits : proc.Fits store)
    (drawn : ∀ id, proc.owned = some id → id < store.nextId) : outcome.store.Valid := by
  cases effect with
  | quiet => exact valid
  | passed => exact valid
  | drawn later => exact valid.later later
  | created =>
    exact valid.putConnection (drawn _ rfl) fun old found => by
      rw [show store.connections.get _ = none from fits] at found
      contradiction
  | updated found follows =>
    exact valid.putConnection (drawn_of_get valid.connections found) fun old stored => by
      cases found.symm.trans stored
      exact follows
  | committed found follows _ _ _ later =>
    refine ((valid.later later).invalidate _).putConnection
      (Nat.lt_of_lt_of_le (drawn_of_get valid.connections found) later) fun old stored => ?_
    cases found.symm.trans stored
    exact follows
  | granted fresh =>
    have grown := valid.later (Nat.le_add_right _ 2)
    exact { grown with
      grants := Table.all_put grown.grants (fresh ▸ Nat.lt_add_of_pos_right (by decide))
      backed := fun s member => (grown.backed s member).grows { Store.Grows.refl _ with
        grants := .put_new Grant.Follows.refl (get_fresh valid.grants (Nat.le_of_eq fresh.symm)) } }
  | @unassigned u c g latest found follows =>
    have revoked := valid.revokeSessions (fun s => s.grantId = g.id) store.events
    refine { revoked with
      grants := Table.all_put valid.grants ?_
      backed := fun s member => (revoked.backed s member).grows { Store.Grows.refl _ with
        grants := .put Grant.Follows.refl fun old stored => by
          cases found.symm.trans stored
          exact follows } }
    rw [show g.id = latest.id from (Table.get_key found).symm]
    exact valid.grants latest (Table.get_mem found)
  | issued => exact valid.putSession (drawn _ rfl) fits.2.1 fits.2.2
  | approved fresh =>
    have grown := valid.later (Nat.le_succ _)
    exact { grown with
      approvals := Table.all_put grown.approvals (fresh ▸ Nat.lt_succ_self _)
      backed := fun s member => (grown.backed s member).tables rfl rfl }
  | reserved built fresh _ _ _ approval =>
    obtain ⟨stored, found, same⟩ := fits.1
    subst built
    exact reserve_valid valid found same rfl fresh fun a same => (approvalFor_some (same ▸ approval)).1
  | called => exact valid.putOperation fits.stored ⟨rfl, fun uncertain => by contradiction, fun _ => rfl⟩
  | settled own ends =>
    obtain ⟨_, state, certain, job⟩ := fits.job own
    exact valid.putOperation job.stored
      ⟨rfl, fun uncertain => absurd uncertain certain, fun reserved => absurd reserved ends⟩
  | reconciled found uncertain =>
    exact valid.putOperation found ⟨rfl, fun uncertain => uncertain, fun reserved => reserved⟩

theorem Connection.reopened_follows (c : Connection) : c.Follows c.reopened := by
  refine ⟨rfl, rfl, Nat.le_refl _, fun revoked => revoked, fun _ => ?_⟩
  unfold reopened
  by_cases reserved : c.enrollment.state = .reserved <;> simp [reserved]

theorem OperationRecord.reopened_follows (o : OperationRecord) : o.Follows o.reopened := by
  unfold reopened
  split
  · exact ⟨rfl, fun _ => rfl, fun reserved => by contradiction⟩
  · exact .refl o

theorem Store.reopen_grows (store : Store) : store.Grows store.reopen where
  connections := .map Connection.reopened Connection.reopened_id fun c _ => c.reopened_follows
  grants := .refl Grant.Follows.refl _
  sessions := .map _ (fun s => s.revoke_id true) fun s _ => s.revoke_same true
  approvals := .map _ (fun a => a.consume_id true) fun a _ => a.consume_follows true
  operations := .map _ (fun o => o.reopened_id) fun o _ => o.reopened_follows
  nextId := Nat.le_refl _

theorem Store.Valid.reopen (valid : store.Valid) : store.reopen.Valid where
  connections := Table.all_map Connection.reopened Connection.reopened_id valid.connections
  grants := valid.grants
  sessions := (valid.revokeSessions (fun _ => true) store.events).sessions
  approvals := Table.all_map _ (fun a => a.consume_id true) fun a member => by
    rw [a.consume_id]
    exact valid.approvals a member
  operations := Table.all_map _ (fun o => o.reopened_id) fun o member => by
    rw [o.reopened_id]
    exact valid.operations o member
  backed := Table.all_map _ (fun s => s.revoke_id true) fun s member =>
    ((valid.backed s member).same (s.revoke_same true)).grows store.reopen_grows
  keys := Table.all_map _ (fun o => o.reopened_id) fun o member =>
    Table.all_map _ (fun o => o.reopened_id) fun o' member' same => by
      rw [← o.reopened_follows.same, ← o'.reopened_follows.same] at same ⊢
      exact valid.keys o member o' member' same

/-- Outside the record that the process owns, nothing appears that was absent,
and an operation whose outcome is open stays as it is. -/
structure Spares (owned : Option Uuid) (before after : Store) : Prop where
  grows : before.Grows after
  connections : ∀ id, owned ≠ some id → before.connections.get id = none → after.connections.get id = none
  sessions : ∀ id, owned ≠ some id → before.sessions.get id = none → after.sessions.get id = none
  operations : ∀ id o, owned ≠ some id → before.operations.get id = some o → o.state ≠ .uncertain →
    after.operations.get id = some o

section Spares

variable (effect : Effect store now proc outcome) (fits : proc.Fits store)

include effect

theorem Effect.connections_absent {id : Uuid} (other : proc.owned ≠ some id)
    (absent : store.connections.get id = none) : outcome.store.connections.get id = none := by
  have apart {c latest : Connection} (found : store.connections.get c.id = some latest) :
      id ≠ c.id := fun same => by
    rw [same, found] at absent
    contradiction
  cases effect with
  | created =>
    exact (Table.get_put_other _ fun same => other (congrArg some same.symm)).trans absent
  | updated found => exact (Table.get_put_other _ (apart found)).trans absent
  | committed found => exact (Table.get_put_other _ (apart found)).trans absent
  | _ => exact absent

include fits

theorem Effect.sessions_absent {id : Uuid} (other : proc.owned ≠ some id)
    (absent : store.sessions.get id = none) : outcome.store.sessions.get id = none := by
  have mapped (given : Session → Bool) :
      (store.sessions.map (fun s => s.revoke (given s)) fun s => s.revoke_id _).get id = none := by
    rw [Table.get_map, absent]
    rfl
  cases effect with
  | committed => exact mapped _
  | unassigned => exact mapped _
  | issued => exact (Table.get_put_other _ fun same => other (congrArg some same.symm)).trans absent
  | @reserved s =>
    obtain ⟨stored, found, _⟩ := fits.1
    have apart : id ≠ s.id := fun same => by
      rw [same, found] at absent
      contradiction
    have apart : id ≠ Keyed.key { s with used := s.used + 1 } := apart
    exact (Table.get_put_other _ apart).trans absent
  | _ => exact absent

theorem Effect.operations_open (valid : store.Valid) {id : Uuid} {o : OperationRecord}
    (other : proc.owned ≠ some id) (found : store.operations.get id = some o) (certain : o.state ≠ .uncertain) :
    outcome.store.operations.get id = some o := by
  cases effect with
  | reserved built =>
    refine (Table.get_put_other _ fun same => ?_).trans found
    have absent : store.operations.get id = none :=
      get_fresh valid.operations (Nat.le_of_eq (by rw [same, built]; rfl))
    rw [absent] at found
    contradiction
  | called => exact (Table.get_put_other _ fun same => other (congrArg some same.symm)).trans found
  | settled own =>
    refine (Table.get_put_other _ fun same => other ?_).trans found
    rw [(fits.job own).1, same]
    rfl
  | reconciled stored uncertain =>
    refine (Table.get_put_other _ fun same => certain ?_).trans found
    rw [same] at found
    cases found.symm.trans stored
    exact uncertain
  | _ => exact found

theorem Effect.spares (valid : store.Valid) : Spares proc.owned store outcome.store :=
  ⟨effect.grows valid fits, fun _ other => effect.connections_absent other,
    fun _ other => effect.sessions_absent fits other, fun _ _ other => effect.operations_open fits valid other⟩

end Spares

theorem Job.Fits.spared {job : Job} {state : OperationState}
    (fits : job.Fits before state) (spares : Spares owned before after) (other : owned ≠ some job.operation.id)
    (certain : state ≠ .uncertain) : job.Fits after state :=
  ⟨spares.operations _ _ other fits.stored certain, fits.operation⟩

theorem Proc.Fits.spared (fits : proc.Fits before)
    (spares : Spares owned before after) (other : ∀ id, proc.owned = some id → owned ≠ some id) :
    proc.Fits after := by
  cases proc with
  | waiting key work =>
    cases work with
    | enroll c credential => exact spares.connections _ (other _ rfl) fits
    | execute e =>
      obtain ⟨s, member, inside⟩ := fits
      obtain ⟨s', found, same⟩ := spares.grows.sessions _ s (Table.get_of_mem member)
      exact ⟨s', Table.get_mem found, inside.same same⟩
    | _ => trivial
  | enrollWriting c credential => exact Copied.grows fits spares.grows
  | enrollReading c credential version => exact Copied.grows fits spares.grows
  | reconcileReading u c => exact Copied.grows fits spares.grows
  | rotateWriting u c credential => exact Copied.grows fits spares.grows
  | rotateReading u c credential version => exact Copied.grows fits spares.grows
  | testReading u c => exact Copied.grows fits spares.grows
  | testSending u c => exact Copied.grows fits spares.grows
  | revalidating u c => exact Copied.grows fits spares.grows
  | issueEligible u s => exact ⟨spares.sessions _ (other _ rfl) fits.1, fits.2.1, fits.2.2.grows spares.grows⟩
  | issueChecked u s => exact ⟨spares.sessions _ (other _ rfl) fits.1, fits.2.1, fits.2.2.grows spares.grows⟩
  | unassignDeciding u c g => exact GrantCopied.grows fits spares.grows
  | executeEligible s e => exact ⟨fits.1.grows spares.grows, fits.2⟩
  | executeChecked s c e => exact ⟨fits.1.grows spares.grows, fits.2⟩
  | vaultReading job => exact Job.Fits.spared fits spares (other _ rfl) (by decide)
  | rechecking s job => exact Job.Fits.spared fits spares (other _ rfl) (by decide)
  | rechecked job => exact Job.Fits.spared fits spares (other _ rfl) (by decide)
  | upstreamCalled job => exact Job.Fits.spared fits spares (other _ rfl) (by decide)
  | guarded job => exact Job.Fits.spared fits spares (other _ rfl) (by decide)
  | sent job => exact Job.Fits.spared fits spares (other _ rfl) (by decide)
  | guarding s job => exact ⟨fits.1.spared spares (other _ rfl) (by decide), fits.2.grows spares.grows⟩
  | _ => trivial

structure State.Inv (s : State) : Prop where
  valid : s.store.Valid
  fits : ∀ process ∈ s.procs.rows, process.proc.Fits s.store
  drawn : ∀ process ∈ s.procs.rows, ∀ id, process.proc.owned = some id → id < s.store.nextId
  exclusive : ∀ process ∈ s.procs.rows, ∀ other ∈ s.procs.rows, ∀ id,
    process.proc.owned = some id → other.proc.owned = some id → process.id = other.id
  numbered : ∀ process ∈ s.procs.rows, process.id < s.nextProcess

/-- A turn of a process that a state lists. -/
structure Turns (configured : Bool) (s : State) (label : Label) (process : Process) (outcome : Outcome) : Prop where
  listed : process ∈ s.procs.rows
  reply : ∃ reply, label = .reply process.id reply label.now ∧
    advance configured s.store label.now process.proc reply = some (.ok outcome)
  turned : Turned s.store label.now process.proc outcome

/-- What a step does to the store and the log. -/
inductive Moves (configured : Bool) (s : State) (label : Label) (after : State) : Prop where
  | still (store : after.store = s.store) (log : after.log = s.log)
  | reopened (restarts : label = .restart label.now) (store : after.store = s.store.reopen)
      (log : after.log = s.log)
  | turned (process : Process) (outcome : Outcome) (turns : Turns configured s label process outcome)
      (store : after.store = outcome.store) (log : after.log = outcome.events ++ s.log)

variable {s s' : State} {configured : Bool} {label : Label}

theorem State.finish_procs {id : Nat} (member : process ∈ (s.finish id).procs.rows) :
    process ∈ s.procs.rows ∧ process.id ≠ id := by
  obtain ⟨stored, apart⟩ := List.mem_filter.mp member
  exact ⟨stored, of_decide_eq_true apart⟩

theorem State.apply_procs {id : Nat} {turn : Turn}
    (member : process ∈ (s.apply id turn).procs.rows) :
    (process ∈ s.procs.rows ∧ process.id ≠ id) ∨
      ∃ outcome next, turn = .ok outcome ∧ outcome.next = .await next ∧ process = ⟨id, next⟩ := by
  cases turn with
  | error reason => exact Or.inl (State.finish_procs member)
  | ok outcome =>
    cases waits : outcome.next with
    | done result =>
      rw [State.apply] at member
      simp only [waits] at member
      exact Or.inl (State.finish_procs member)
    | await next =>
      rw [State.apply] at member
      simp only [waits] at member
      cases Table.mem_put.mp member with
      | inl same => exact Or.inr ⟨outcome, next, rfl, waits, same⟩
      | inr old => exact Or.inl old

theorem State.apply_ok (s : State) (id : Nat) (outcome : Outcome) :
    (s.apply id (.ok outcome)).store = outcome.store ∧
    (s.apply id (.ok outcome)).log = outcome.events ++ s.log ∧
      (s.apply id (.ok outcome)).nextProcess = s.nextProcess := by
  rw [State.apply]
  cases outcome.next <;> exact ⟨rfl, rfl, rfl⟩

theorem begin_eq (s : State) (call : Call) : ∃ procs locks,
    begin s call = { s with procs, locks, nextProcess := s.nextProcess + 1 } ∧
      (procs = s.procs ∨ ∃ proc, procs = s.procs.put ⟨s.nextProcess, proc⟩ ∧ proc.owned = none ∧
        proc.Fits s.store) := by
  unfold begin
  dsimp only
  split
  case h_1 token request key =>
    cases begun : executeBegun s.store token request key with
    | error reason => exact ⟨_, _, rfl, Or.inl rfl⟩
    | ok proc =>
      obtain ⟨fits, owned⟩ := executeBegun_fits begun
      exact ⟨_, _, rfl, Or.inr ⟨proc, rfl, owned, fits⟩⟩
  case h_2 => exact ⟨_, _, rfl, Or.inr ⟨_, rfl, rfl, trivial⟩⟩

theorem step_reply {id : Nat} {reply : Reply} {now : Time}
    (moved : step configured s (.reply id reply now) = some s') :
    ∃ process answer, s.procs.get id = some process ∧
      advance configured s.store now process.proc reply = some answer ∧
        s' = { s with clock := now }.apply id answer := by
  simp only [step, State.turn, Option.map_eq_some_iff, Option.bind_eq_bind, Option.bind_eq_some_iff] at moved
  obtain ⟨_, ⟨process, found, going⟩, rfl⟩ := moved
  split at going
  · contradiction
  · obtain ⟨answer, ran, rfl⟩ := Option.map_eq_some_iff.mp going
    have key : process.id = id := Table.get_key found
    exact ⟨process, answer, found, ran, by rw [← key]; rfl⟩

/-- Every step of a state in order is one of the moves. -/
theorem State.Inv.moves (inv : s.Inv) (moved : step configured s label = some s') :
    Moves configured s label s' := by
  cases label with
  | call call now =>
    obtain ⟨procs, locks, same, _⟩ := begin_eq { s with clock := now } call
    cases (Option.some.inj moved).symm.trans same
    exact .still rfl rfl
  | restart now =>
    cases moved
    exact .reopened rfl rfl rfl
  | reply id reply now =>
    obtain ⟨process, answer, found, ran, rfl⟩ := step_reply moved
    cases answer with
    | error reason => exact .still rfl rfl
    | ok outcome =>
      have listed := Table.get_mem found
      have key : process.id = id := Table.get_key found
      have turned := advance_turned inv.valid (inv.fits process listed) ran
      obtain ⟨store, log, _⟩ := State.apply_ok { s with clock := now } id outcome
      exact .turned process outcome ⟨listed, ⟨reply, by rw [key]; rfl, ran⟩, turned⟩ store log

/-- A process list that shrinks keeps what holds of it. -/
theorem State.Inv.fewer (inv : s.Inv) {s' : State} (store : s'.store = s.store)
    (procs : ∀ process ∈ s'.procs.rows, process ∈ s.procs.rows)
    (numbers : s'.nextProcess = s.nextProcess) : s'.Inv where
  valid := store ▸ inv.valid
  fits process member := store ▸ inv.fits process (procs process member)
  drawn process member := store ▸ inv.drawn process (procs process member)
  exclusive process member other member' := inv.exclusive process (procs process member) other (procs other member')
  numbered process member := numbers ▸ inv.numbered process (procs process member)

/-- A new process owns nothing. -/
theorem State.Inv.begun (inv : s.Inv) (call : Call) : (begin s call).Inv := by
  obtain ⟨procs, locks, same, started⟩ := begin_eq s call
  rw [same]
  cases started with
  | inl none =>
    subst none
    exact { inv with numbered := fun process member => Nat.lt_succ_of_lt (inv.numbered process member) }
  | inr new =>
    obtain ⟨proc, rfl, owned, fits⟩ := new
    refine ⟨inv.valid, Table.all_put inv.fits fits, Table.all_put inv.drawn ?_, ?_, ?_⟩
    · intro id own
      rw [owned] at own
      contradiction
    · refine Table.all_put (fun process member => Table.all_put (inv.exclusive process member) ?_) ?_
      · intro id _ own
        rw [owned] at own
        contradiction
      · intro other _ id own
        rw [owned] at own
        contradiction
    · exact Table.all_put (fun process member => Nat.lt_succ_of_lt (inv.numbered process member))
        (Nat.lt_succ_self _)

theorem Store.empty_valid : Store.empty.Valid := by
  constructor <;> intro row member <;> cases member

theorem State.Inv.idle (valid : s.store.Valid) (procs : s.procs = ∅) : s.Inv := by
  have none {process : Process} (member : process ∈ s.procs.rows) : False := by
    rw [procs] at member
    cases member
  exact ⟨valid, fun _ member => (none member).elim, fun _ member => (none member).elim,
    fun _ member => (none member).elim, fun _ member => (none member).elim⟩

theorem State.Inv.step (inv : s.Inv) (moved : step configured s label = some s') : s'.Inv := by
  cases label with
  | call call now =>
    cases moved
    have timed : { s with clock := now }.Inv := inv.fewer rfl (fun _ member => member) rfl
    exact timed.begun call
  | restart now =>
    cases moved
    exact .idle inv.valid.reopen rfl
  | reply id reply now =>
    obtain ⟨process, answer, found, ran, rfl⟩ := step_reply moved
    cases answer with
    | error reason => exact inv.fewer rfl (fun other member => (State.finish_procs member).1) rfl
    | ok outcome =>
      have listed := Table.get_mem found
      have key : process.id = id := Table.get_key found
      have fits := inv.fits process listed
      have drawn := inv.drawn process listed
      have turned := advance_turned inv.valid fits ran
      have spares := turned.effect.spares fits inv.valid
      obtain ⟨store, _, numbers⟩ := State.apply_ok { s with clock := now } id outcome
      -- another process keeps its record to itself
      have apart : ∀ other ∈ s.procs.rows, other.id ≠ id → ∀ own, other.proc.owned = some own →
          process.proc.owned ≠ some own := fun other member different own mine same =>
        different ((inv.exclusive other member process listed own mine same).trans key)
      -- the record of the process's next wait is no other's
      have new : ∀ next own, outcome.next = .await next → next.owned = some own →
          own < outcome.store.nextId ∧ ∀ other ∈ s.procs.rows, other.id ≠ id → other.proc.owned ≠ some own := by
        intro next own waits mine
        cases turned.leads.owned next own waits mine with
        | inl kept =>
          exact ⟨Nat.lt_of_lt_of_le (drawn own kept) spares.grows.nextId,
            fun other member different same => apart other member different own same kept⟩
        | inr drawn' =>
          exact ⟨drawn'.2, fun other member different same =>
            absurd (inv.drawn other member own same) (Nat.not_lt.mpr drawn'.1)⟩
      refine ⟨store ▸ turned.effect.valid inv.valid fits drawn, fun other member => ?_,
        fun other member own mine => ?_,
        fun other member another member' own mine same => ?_, fun other member => ?_⟩
      · rw [store]
        obtain ⟨old, different⟩ | ⟨_, next, ⟨⟩, waits, rfl⟩ := State.apply_procs member
        · exact (inv.fits other old).spared spares (apart other old different)
        · exact turned.leads.fits next waits
      · rw [store]
        obtain ⟨old, _⟩ | ⟨_, next, ⟨⟩, waits, rfl⟩ := State.apply_procs member
        · exact Nat.lt_of_lt_of_le (inv.drawn other old own mine) spares.grows.nextId
        · exact (new next own waits mine).1
      · obtain ⟨old, different⟩ | ⟨_, next, ⟨⟩, waits, rfl⟩ := State.apply_procs member <;>
          obtain ⟨old', different'⟩ | ⟨_, next', ⟨⟩, waits', rfl⟩ := State.apply_procs member'
        · exact inv.exclusive other old another old' own mine same
        · exact absurd mine ((new next' own waits' same).2 other old different)
        · exact absurd same ((new next own waits mine).2 another old' different')
        · rfl
      · rw [numbers]
        obtain ⟨old, _⟩ | ⟨_, next, ⟨⟩, waits, rfl⟩ := State.apply_procs member
        · exact inv.numbered other old
        · exact key ▸ inv.numbered process listed

theorem State.Inv.step_grows (inv : s.Inv) (moved : Broker.step configured s label = some s') :
    s.store.Grows s'.store := by
  cases inv.moves moved with
  | still store => exact store ▸ .refl _
  | reopened _ store => exact store ▸ s.store.reopen_grows
  | turned process outcome turns store =>
    exact store ▸ turns.turned.effect.grows inv.valid (inv.fits process turns.listed)

variable {labels : List Label}

theorem State.Inv.run (inv : s.Inv) (ran : (brokerSystem configured).exec s labels = some s') : s'.Inv :=
  (brokerSystem configured).exec_preserves State.Inv (fun inv moved => inv.step moved) inv ran

theorem State.Inv.run_grows (inv : s.Inv) (ran : (brokerSystem configured).exec s labels = some s') :
    s.store.Grows s'.store :=
  (brokerSystem configured).exec_relates State.Inv (fun s s' => s.store.Grows s'.store)
    (fun s => .refl s.store) Store.Grows.trans
    (fun inv moved => inv.step moved) (fun inv moved => inv.step_grows moved) inv ran

/-- What the turns tell from a state on, if what they need of the state stays
and what they tell stays true of the store. -/
theorem State.Inv.run_tells (holds : State → Prop) (told : Store → Event → Prop)
    (grows : ∀ {before after : Store} {event : Event}, before.Grows after → told before event → told after event)
    (stays : ∀ {s label s'}, s.Inv → holds s → Broker.step configured s label = some s' → holds s')
    (tells : ∀ {s label process outcome}, s.Inv → holds s → Turns configured s label process outcome →
      ∀ event ∈ outcome.events, told outcome.store event)
    (inv : s.Inv) (before : holds s) (ran : (brokerSystem configured).exec s labels = some s') :
    ∃ newer, s'.log = newer ++ s.log ∧ ∀ event ∈ newer, told s'.store event := by
  have ends := (brokerSystem configured).exec_preserves
    (fun t => t.Inv ∧ holds t ∧ ∃ newer, t.log = newer ++ s.log ∧ ∀ event ∈ newer, told t.store event)
    (fun {t label t'} ⟨inv, held, newer, log, all⟩ moved => by
      refine ⟨inv.step moved, stays inv held moved, ?_⟩
      have later := inv.step_grows moved
      cases inv.moves moved with
      | still store log' => exact ⟨newer, log'.trans log, fun event member => grows later (all event member)⟩
      | reopened _ store log' => exact ⟨newer, log'.trans log, fun event member => grows later (all event member)⟩
      | turned process outcome turns store log' =>
        refine ⟨outcome.events ++ newer, by rw [log', log, List.append_assoc], fun event member => ?_⟩
        cases List.mem_append.mp member with
        | inl new => exact store ▸ tells inv held turns event new
        | inr old => exact grows later (all event old))
    ⟨inv, before, [], rfl, fun _ member => by cases member⟩ ran
  exact ends.2.2

theorem State.Inv.initial (initial : (brokerSystem configured).initial s) : s.Inv :=
  .idle (initial.1 ▸ Store.empty_valid) initial.2.1

end ProxyPilot.Broker
