import ProxyPilot.Broker.Revocation

namespace ProxyPilot.Broker

open Data Transition

variable {store : Store} {outcome : Outcome} {now : Time} {proc : Proc} {s s' t : State}
  {configured : Bool} {label : Label}
  {labels : List Label}

def calls (log : List Event) : List OperationRecord :=
  log.filterMap fun
    | .called o => some o
    | _ => none

/-- The approvals that reservations have consumed. -/
def spent (log : List Event) : List Approval :=
  log.filterMap fun
    | .reserved _ a => a
    | _ => none

variable {o : OperationRecord} {a : Approval}

theorem mem_calls {log : List Event} : o ∈ calls log ↔ .called o ∈ log := by
  simp only [calls, List.mem_filterMap]
  constructor
  · intro ⟨event, member, found⟩
    cases event with
    | called o' => cases found; exact member
    | _ => cases found
  · exact fun member => ⟨_, member, rfl⟩

theorem mem_spent {log : List Event} : a ∈ spent log ↔ ∃ o, .reserved o (some a) ∈ log := by
  simp only [spent, List.mem_filterMap]
  constructor
  · intro ⟨event, member, found⟩
    cases event with
    | reserved o a' => cases found; exact ⟨o, member⟩
    | _ => cases found
  · exact fun ⟨o, member⟩ => ⟨_, member, rfl⟩

/-- The approval is good for this operation and no other. -/
structure Approval.Binds (a : Approval) (o : OperationRecord) : Prop where
  unconsumed : a.consumed = false
  session : a.sessionId = o.sessionId
  digest : a.digest = o.digest

/-- What holds of the store when an operation is reserved. -/
structure Admitted (store : Store) (now : Time) (o : OperationRecord) (a : Option Approval) : Prop where
  unused : ∀ other ∈ store.operations.rows, other.key ≠ o.key
  session : ∃ s c g, store.sessions.get o.sessionId = some s ∧ store.connections.get o.connectionId = some c ∧
    store.grants.get s.grantId = some g ∧ s.connectionId = o.connectionId ∧ s.taskId = o.taskId ∧
    (o.operation ∈ s.operations ∧ o.operation ∈ g.operations ∧ o.operation ∈ c.operations) ∧
    (o.digest.request.input.resourceId ∈ s.resources ∧ o.digest.request.input.resourceId ∈ g.resources ∧
      o.digest.request.input.resourceId ∈ c.resources) ∧
    (counted store o.taskId o.connectionId).length < s.limits.maxActions
  rate : (recent store o.connectionId now).length < 10
  approval : o.operation = .itemSetState → ∃ a', a = some a' ∧ store.approvals.get a'.id = some a' ∧ a'.Binds o
  recovery : ∀ id, o.recoveryOf = some id → ∃ old r, store.operations.get id = some old ∧
    old.connectionId = o.connectionId ∧ old.state = .uncertain ∧ old.reconciled = some r ∧
    r.decision = .confirmedNotApplied

theorem recoverable_some {s : Session} {id : Uuid} (recovers : recoverable store s (some id) = .ok ()) :
    ∃ old r, store.operations.get id = some old ∧ old.connectionId = s.connectionId ∧ old.state = .uncertain ∧
      old.reconciled = some r ∧ r.decision = .confirmedNotApplied := by
  simp only [recoverable, bind_ok, get_ok, require_ok, Bool.and_eq_true, decide_eq_true_eq,
    Option.any_eq_true] at recovers
  obtain ⟨old, found, ⟨connection, uncertain⟩, r, reconciled, decision⟩ := recovers
  exact ⟨old, r, found, connection, uncertain, reconciled, decision⟩

theorem approvalFor_required {s : Session} {e : Execution} {a : Option Approval}
    (given : approvalFor store s e now = .ok a) (writes : e.request.input.operation = .itemSetState) :
    ∃ a', a = some a' := by
  unfold approvalFor at given
  rw [writes] at given
  simp only [bind_ok, pure, Except.pure, Except.ok.injEq] at given
  obtain ⟨_, _, a', _, _, _, same⟩ := given
  exact ⟨a', same.symm⟩

theorem Effect.admits (effect : Effect store now proc outcome) (valid : store.Valid) (fits : proc.Fits store)
    {a : Option Approval} (told : .reserved o a ∈ outcome.events) : Admitted store now o a := by
  cases effect with
  | @reserved s c e a o built unused recovers actions rate approval =>
    cases List.mem_singleton.mp told
    obtain ⟨⟨stored, found, same⟩, inside, named⟩ := fits
    obtain ⟨⟨c', foundConnection, _, operations, resources⟩, g, foundGrant, operations', resources'⟩ :=
      (valid.backed stored (Table.get_mem found)).same same.symm
    rw [← same] at found
    subst built
    refine ⟨unused, ⟨_, c', g, found, (congrArg store.connections.get named).trans foundConnection,
      foundGrant, named.symm, rfl,
      ⟨inside.2.1, operations' inside.2.1, operations inside.2.1⟩,
      ⟨inside.2.2, resources' inside.2.2, resources inside.2.2⟩, actions⟩, rate, fun writes =>
        ?_, fun id names => ?_⟩
    · obtain ⟨a', rfl⟩ := approvalFor_required approval writes
      obtain ⟨stored, unconsumed, session, digest⟩ := approvalFor_some approval
      exact ⟨a', rfl, stored, unconsumed, session, digest⟩
    · rw [show e.request.recoveryOf = some id from names] at recovers
      obtain ⟨old, r, found, connection, rest⟩ := recoverable_some recovers
      exact ⟨old, r, found, connection.trans named.symm, rest⟩
  | created => cases List.mem_singleton.mp told
  | passed => cases List.mem_singleton.mp told
  | called => cases List.mem_singleton.mp told
  | _ => cases told

/-- A call comes after the reservation of its operation, which for a write has
consumed its approval. -/
def Founded : List Event → Prop
  | [] => True
  | event :: older =>
    (∀ o, event = .called o → ∃ o₀ a, .reserved o₀ a ∈ older ∧ o₀.Follows { o with state := .reserved } ∧
      (o.operation = .itemSetState → ∃ a', a = some a' ∧ a'.Binds o)) ∧
    Founded older

structure Logged (s : State) : Prop where
  stored : ∀ o ∈ s.store.operations.rows, ∃ o₀ a, .reserved o₀ a ∈ s.log ∧ o₀.Follows o ∧
    (o.operation = .itemSetState → ∃ a', a = some a' ∧ a'.Binds o)
  called : ∀ o, .called o ∈ s.log → ∃ o', s.store.operations.get o.id = some o' ∧
    o'.state ≠ .reserved ∧ o'.key = o.key
  consumed : ∀ o a, .reserved o (some a) ∈ s.log → ∃ a', s.store.approvals.get a.id = some a' ∧ a'.consumed = true
  founded : Founded s.log
  calledOnce : ((calls s.log).map (·.key)).Nodup
  spentOnce : ((spent s.log).map (·.id)).Nodup

theorem Effect.single (effect : Effect store now proc outcome) :
    outcome.events = [] ∨ ∃ event, outcome.events = [event] := by
  cases effect with
  | created => exact Or.inr ⟨_, rfl⟩
  | passed => exact Or.inr ⟨_, rfl⟩
  | reserved => exact Or.inr ⟨_, rfl⟩
  | called => exact Or.inr ⟨_, rfl⟩
  | _ => exact Or.inl rfl

theorem Effect.calls_reserved (effect : Effect store now proc outcome) (fits : proc.Fits store)
    (told : .called o ∈ outcome.events) :
    store.operations.get o.id = some { o with state := .reserved } ∧
      outcome.store.operations.get o.id = some { o with state := .sending } := by
  cases effect with
  | @called job =>
    cases List.mem_singleton.mp told
    exact ⟨fits.stored,
      Table.get_put_self store.operations ({ job.operation with state := .sending } : OperationRecord)⟩
  | created => cases List.mem_singleton.mp told
  | passed => cases List.mem_singleton.mp told
  | reserved => cases List.mem_singleton.mp told
  | _ => cases told

theorem Effect.spends (effect : Effect store now proc outcome)
    (told : .reserved o (some a) ∈ outcome.events) :
    store.approvals.get a.id = some a ∧ a.consumed = false ∧
      outcome.store.approvals.get a.id = some { a with consumed := true } := by
  cases effect with
  | @reserved s c e given o' built _ _ _ _ approval =>
    cases List.mem_singleton.mp told
    obtain ⟨stored, unconsumed, _⟩ := approvalFor_some approval
    exact ⟨stored, unconsumed, Table.get_put_self store.approvals ({ a with consumed := true } : Approval)⟩
  | created => cases List.mem_singleton.mp told
  | passed => cases List.mem_singleton.mp told
  | called => cases List.mem_singleton.mp told
  | _ => cases told

/-- Every operation was there before or has just been reserved. -/
theorem Effect.operations_from (effect : Effect store now proc outcome) (valid : store.Valid)
    (fits : proc.Fits store)
    (member : o ∈ outcome.store.operations.rows) :
    (∃ old ∈ store.operations.rows, old.Follows o) ∨ ∃ a, .reserved o a ∈ outcome.events := by
  have key : Keyed.key o = o.id := rfl
  cases found : store.operations.get o.id with
  | some old =>
    obtain ⟨o', found', follows⟩ := (effect.grows valid fits).operations _ old found
    cases found'.symm.trans (Table.get_of_mem member)
    exact Or.inl ⟨old, Table.get_mem found, follows⟩
  | none =>
    have absent (stored : o ∈ store.operations.rows) : False := by
      rw [← key, Table.get_of_mem stored] at found
      contradiction
    cases effect with
    | reserved =>
      cases Table.mem_put.mp member with
      | inl same =>
        subst same
        exact Or.inr ⟨_, List.mem_singleton_self _⟩
      | inr old => exact (absent old.1).elim
    | called =>
      cases Table.mem_put.mp member with
      | inl same =>
        subst same
        rw [fits.stored] at found
        contradiction
      | inr old => exact (absent old.1).elim
    | @settled _ job _ _ _ own =>
      obtain ⟨_, state, _, held⟩ := fits.job own
      cases Table.mem_put.mp member with
      | inl same =>
        subst same
        have clash : store.operations.get job.operation.id = none := found
        rw [held.stored] at clash
        contradiction
      | inr old => exact (absent old.1).elim
    | reconciled stored =>
      cases Table.mem_put.mp member with
      | inl same =>
        subst same
        exact absurd (stored.symm.trans found) (by simp)
      | inr old => exact (absent old.1).elim
    | _ => exact (absent member).elim

theorem Approval.Binds.follows {o o' : OperationRecord} (binds : a.Binds o) (follows : o.Follows o') :
    a.Binds o' := by
  rw [← follows.same]
  exact ⟨binds.unconsumed, binds.session, binds.digest⟩

theorem calls_append (newer older : List Event) : calls (newer ++ older) = calls newer ++ calls older :=
  List.filterMap_append ..

theorem spent_append (newer older : List Event) : spent (newer ++ older) = spent newer ++ spent older :=
  List.filterMap_append ..

/-- A list of at most one event has at most one of anything. -/
theorem nodup_of_single {α β : Type} {events : List Event} (single : events = [] ∨ ∃ event, events = [event])
    (pick : Event → Option α) (key : α → β) : ((events.filterMap pick).map key).Nodup := by
  obtain rfl | ⟨event, rfl⟩ := single
  · exact List.nodup_nil
  · cases found : pick event with
    | none => simp [found]
    | some a => simp [found]

theorem Logged.turned {process : Process} (inv : s.Inv) (logged : Logged s)
    (turns : Turns configured s label process outcome) (store : s'.store = outcome.store)
    (log : s'.log = outcome.events ++ s.log) : Logged s' := by
  have effect := turns.turned.effect
  have fits := inv.fits process turns.listed
  have grows := effect.grows inv.valid fits
  constructor
  · intro o member
    rw [store] at member
    rw [log]
    cases effect.operations_from inv.valid fits member with
    | inl kept =>
      obtain ⟨old, stored, follows⟩ := kept
      obtain ⟨o₀, a, told, follows', bound⟩ := logged.stored old stored
      refine ⟨o₀, a, List.mem_append_right _ told, follows'.trans follows, fun writes => ?_⟩
      rw [← follows.same] at writes
      obtain ⟨a', same, binds⟩ := bound writes
      exact ⟨a', same, binds.follows follows⟩
    | inr new =>
      obtain ⟨a, told⟩ := new
      refine ⟨o, a, List.mem_append_left _ told, .refl o, fun writes => ?_⟩
      obtain ⟨a', same, _, binds⟩ := (effect.admits inv.valid fits told).approval writes
      exact ⟨a', same, binds⟩
  · intro o told
    rw [store]
    rw [log] at told
    cases List.mem_append.mp told with
    | inl new => exact ⟨_, (effect.calls_reserved fits new).2, fun same => by contradiction, rfl⟩
    | inr old =>
      obtain ⟨o', found, sent, key⟩ := logged.called o old
      obtain ⟨o'', found', follows⟩ := grows.operations _ o' found
      refine ⟨o'', found', fun same => sent (follows.reserved same), ?_⟩
      rw [← follows.same]
      exact key
  · intro o a told
    rw [store]
    rw [log] at told
    cases List.mem_append.mp told with
    | inl new => exact ⟨_, (effect.spends new).2.2, rfl⟩
    | inr old =>
      obtain ⟨a', found, consumed⟩ := logged.consumed o a old
      obtain ⟨a'', found', follows⟩ := grows.approvals _ a' found
      exact ⟨a'', found', follows.consumed consumed⟩
  · rw [log]
    obtain none | ⟨event, one⟩ := effect.single
    · rw [none]
      exact logged.founded
    · rw [one]
      refine ⟨fun o same => ?_, logged.founded⟩
      have told : .called o ∈ outcome.events := by
        rw [one, same]
        exact List.mem_singleton_self _
      obtain ⟨o₀, a, reserved, follows, bound⟩ :=
        logged.stored _ (Table.get_mem (effect.calls_reserved fits told).1)
      refine ⟨o₀, a, reserved, follows, fun writes => ?_⟩
      obtain ⟨a', given, binds⟩ := bound writes
      exact ⟨a', given, binds.unconsumed, binds.session, binds.digest⟩
  · rw [log, calls_append, List.map_append]
    refine List.nodup_append.mpr ⟨nodup_of_single effect.single _ _, logged.calledOnce,
      fun key new key' old same => ?_⟩
    obtain ⟨o, told, rfl⟩ := List.mem_map.mp new
    obtain ⟨o', told', rfl⟩ := List.mem_map.mp old
    -- both records have the key, so they are one, and it cannot be reserved still
    obtain ⟨reserved, _⟩ := effect.calls_reserved fits (mem_calls.mp told)
    obtain ⟨stored, found, sent, key⟩ := logged.called o' (mem_calls.mp told')
    have id := inv.valid.keys _ (Table.get_mem reserved) _ (Table.get_mem found) (same.trans key.symm)
    have stored_id : stored.id = o'.id := Table.get_key found
    rw [← stored_id, ← id] at found
    cases reserved.symm.trans found
    exact sent rfl
  · rw [log, spent_append, List.map_append]
    refine List.nodup_append.mpr ⟨nodup_of_single effect.single _ _, logged.spentOnce,
      fun id new id' old same => ?_⟩
    obtain ⟨a, told, rfl⟩ := List.mem_map.mp new
    obtain ⟨a', told', rfl⟩ := List.mem_map.mp old
    obtain ⟨o, told⟩ := mem_spent.mp told
    obtain ⟨o', told'⟩ := mem_spent.mp told'
    obtain ⟨found, unconsumed, _⟩ := effect.spends told
    obtain ⟨stored, found', consumed⟩ := logged.consumed o' a' told'
    rw [← show a.id = a'.id from same] at found'
    cases found.symm.trans found'
    rw [unconsumed] at consumed
    contradiction

theorem Logged.reopened (logged : Logged s) (store : s'.store = s.store.reopen)
    (log : s'.log = s.log) : Logged s' := by
  have grows := s.store.reopen_grows
  refine ⟨?_, ?_, ?_, log ▸ logged.founded, log ▸ logged.calledOnce, log ▸ logged.spentOnce⟩
  · intro o member
    rw [store] at member
    rw [log]
    obtain ⟨old, stored, rfl⟩ := List.mem_map.mp member
    obtain ⟨o₀, a, told, follows, bound⟩ := logged.stored old stored
    refine ⟨o₀, a, told, follows.trans old.reopened_follows, fun writes => ?_⟩
    rw [← old.reopened_follows.same] at writes
    obtain ⟨a', same, binds⟩ := bound writes
    exact ⟨a', same, binds.follows old.reopened_follows⟩
  · intro o told
    rw [store]
    rw [log] at told
    obtain ⟨o', found, sent, key⟩ := logged.called o told
    obtain ⟨o'', found', follows⟩ := grows.operations _ o' found
    refine ⟨o'', found', fun same => sent (follows.reserved same), ?_⟩
    rw [← follows.same]
    exact key
  · intro o a told
    rw [store]
    rw [log] at told
    obtain ⟨a', found, consumed⟩ := logged.consumed o a told
    obtain ⟨a'', found', follows⟩ := grows.approvals _ a' found
    exact ⟨a'', found', follows.consumed consumed⟩

theorem Logged.step (inv : s.Inv) (logged : Logged s)
    (moved : Broker.step configured s label = some s') : Logged s' := by
  cases inv.moves moved with
  | still store log =>
    exact ⟨store ▸ log ▸ logged.stored, store ▸ log ▸ logged.called, store ▸ log ▸ logged.consumed,
      log ▸ logged.founded, log ▸ logged.calledOnce, log ▸ logged.spentOnce⟩
  | reopened _ store log => exact logged.reopened store log
  | turned process outcome turns store log => exact logged.turned inv turns store log

theorem Logged.run (initial : (brokerSystem configured).initial s)
    (ran : (brokerSystem configured).exec s labels = some s') : Logged s' := by
  have ends := (brokerSystem configured).exec_preserves (fun s => s.Inv ∧ Logged s)
    (fun ⟨inv, logged⟩ moved => ⟨inv.step moved, logged.step inv moved⟩) ⟨.initial initial, ?_⟩ ran
  · exact ends.2
  · obtain ⟨store, _, _, log⟩ := initial
    refine ⟨?_, ?_, ?_, log ▸ trivial, log ▸ List.nodup_nil, log ▸ List.nodup_nil⟩
    · intro o member
      rw [store] at member
      cases member
    · intro o told
      rw [log] at told
      cases told
    · intro o a told
      rw [log] at told
      cases told

end ProxyPilot.Broker
