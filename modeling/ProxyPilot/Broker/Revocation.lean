import ProxyPilot.Broker.Invariants

namespace ProxyPilot.Broker

open Data Transition

variable {store : Store} {outcome : Outcome} {now : Time} {proc : Proc} {s s' t : State}
  {configured : Bool} {label : Label}
  {labels : List Label}

/-- Nothing is left between the last check of the execution and its reservation. -/
def reservable (store : Store) (s : Session) (c : Connection) (e : Execution) (now : Time) : Bool :=
  store.operations.rows.all (·.key ≠ ⟨s.id, e.idempotencyKey⟩) && (recoverable store s e.request.recoveryOf).isOk &&
    (counted store s.taskId c.id).length < s.limits.maxActions && (recent store c.id now).length < 10 &&
    (approvalFor store s e now).isOk

/-- The process that goes on writes back a session that has been revoked since
it was read. -/
def State.restores (s : State) : Label → Bool
  | .reply id _ now =>
    match s.procs.get id with
    | some ⟨_, .executeChecked session c e⟩ =>
      (s.store.sessions.get session.id).any (·.revoked) && !session.revoked && reservable s.store session c e now
    | _ => false
  | _ => false

def Session.Keeps (s s' : Session) : Prop := s.revoked = true → s'.revoked = true

theorem Session.revoke_keeps (s : Session) (given : Bool) : s.Keeps (s.revoke given) := by
  intro revoked
  cases given
  · exact revoked
  · rfl

theorem Effect.keeps_sessions (effect : Effect store now proc outcome) (fits : proc.Fits store)
    (fresh : ∀ s c e, proc = .executeChecked s c e → reservable store s c e now = true →
      (store.sessions.get s.id).any (·.revoked) = true → s.revoked = true) :
    Table.Grows Session.Keeps store.sessions outcome.store.sessions := by
  have same : Table.Grows Session.Keeps store.sessions store.sessions := .refl (fun _ revoked => revoked) _
  cases effect with
  | committed => exact .map _ (fun s => s.revoke_id _) fun s _ => s.revoke_keeps _
  | unassigned => exact .map _ (fun s => s.revoke_id _) fun s _ => s.revoke_keeps _
  | issued => exact .put_new (fun _ revoked => revoked) fits.1
  | @reserved s c e a o built unused recovers actions rate approval =>
    refine .put (fun _ revoked => revoked) fun old found revoked => fresh s c e rfl ?_ ?_
    · have unused : store.operations.rows.all (·.key ≠ ⟨s.id, e.idempotencyKey⟩) = true := by simpa using unused
      simp only [reservable, unused, recovers, approval, Except.isOk, Except.toBool,
        Bool.and_eq_true, decide_eq_true_eq]
      exact ⟨⟨⟨⟨trivial, trivial⟩, actions⟩, rate⟩, trivial⟩
    · rw [show store.sessions.get s.id = some old from found]
      exact revoked
  | _ => exact same

theorem State.Inv.keeps_sessions (inv : s.Inv) (fresh : s.restores label = false)
    (moved : Broker.step configured s label = some s') :
    Table.Grows Session.Keeps s.store.sessions s'.store.sessions := by
  cases inv.moves moved with
  | still store => exact store ▸ .refl (fun _ revoked => revoked) _
  | reopened _ store => exact store ▸ .map _ (fun s => s.revoke_id true) fun s _ => s.revoke_keeps true
  | turned process outcome turns store =>
    rw [store]
    refine turns.turned.effect.keeps_sessions (inv.fits process turns.listed)
      fun session c e checked ready stored => ?_
    obtain ⟨reply, named, _⟩ := turns.reply
    have found : s.procs.get process.id = some ⟨process.id, .executeChecked session c e⟩ := by
      rw [← checked]
      exact Table.get_of_mem turns.listed
    rw [named] at fresh
    simpa [restores, found, ready, stored] using fresh

theorem State.Inv.run_keeps_sessions (inv : s.Inv)
    (along : (brokerSystem configured).Along (fun s label => s.restores label = false) s labels)
    (ran : (brokerSystem configured).exec s labels = some s') :
    Table.Grows Session.Keeps s.store.sessions s'.store.sessions := by
  have ends := (brokerSystem configured).exec_preserves_along (fun s label => s.restores label = false)
    (fun t => t.Inv ∧ Table.Grows Session.Keeps s.store.sessions t.store.sessions)
    (fun ⟨inv, grown⟩ fresh moved => ⟨inv.step moved,
      grown.trans (fun first second revoked => second (first revoked)) (inv.keeps_sessions fresh moved)⟩)
    along ⟨inv, .refl (fun _ revoked => revoked) _⟩ ran
  exact ends.2

variable {e : EventRecord} {id : Uuid} {u : Uuid}

/-- A commit raises the revision of its connection. -/
theorem Effect.commits (effect : Effect store now proc outcome)
    (added : outcome.store.events = e :: store.events) (commits : e.type.commits = true) :
    ∃ latest c, store.connections.get e.connectionId = some latest ∧
      outcome.store.connections.get e.connectionId = some c ∧ e.revision = latest.revision + 1 ∧
      c.revision = e.revision ∧ (e.type = .revoked → c.status = .revoked) := by
  have unadded : store.events ≠ e :: store.events := fun same => List.cons_ne_self _ _ same.symm
  have other {event : EventRecord} {before : List EventRecord} (quiet : event.type.commits = false)
      (same : event :: before = e :: store.events) : False := by
    cases same
    rw [quiet] at commits
    contradiction
  cases effect with
  | quiet => exact absurd added unadded
  | drawn => exact absurd added unadded
  | passed => exact absurd added unadded
  | created => exact (other rfl added).elim
  | updated _ _ _ noted =>
    obtain same | ⟨event, same, quiet⟩ := noted
    · exact absurd (same.symm.trans added) unadded
    · exact (other quiet (same.symm.trans added)).elim
  | @committed _ _ latest c u type nextId found _ raised _ revokes =>
    cases added
    exact ⟨latest, c, found, Table.get_put_self _ c, raised, rfl, revokes⟩
  | granted => exact (other rfl added).elim
  | unassigned => exact (other rfl added).elim
  | issued => exact (other rfl added).elim
  | approved => exact (other rfl added).elim
  | reserved => exact absurd added unadded
  | called => exact absurd added unadded
  | settled => exact absurd added unadded
  | reconciled => exact (other rfl added).elim

theorem State.Inv.commits (inv : s.Inv) (moved : Broker.step configured s label = some s')
    (added : s'.store.events = e :: s.store.events) (commits : e.type.commits = true) :
    ∃ latest c, s.store.connections.get e.connectionId = some latest ∧
      s'.store.connections.get e.connectionId = some c ∧ e.revision = latest.revision + 1 ∧
      c.revision = e.revision ∧ (e.type = .revoked → c.status = .revoked) := by
  have unadded : s.store.events ≠ e :: s.store.events := fun same => List.cons_ne_self _ _ same.symm
  cases inv.moves moved with
  | still store =>
    rw [store] at added
    exact absurd added unadded
  | reopened _ store =>
    rw [store] at added
    exact absurd added unadded
  | turned process outcome turns store =>
    rw [store] at added ⊢
    exact turns.turned.effect.commits added commits

/-- The check before sending is made of a current session. -/
theorem Effect.passes (effect : Effect store now proc outcome) (fits : proc.Fits store) {event : Event}
    (told : event ∈ outcome.events) {sessionId : Uuid} (passed : event = .passed sessionId) :
    ∃ s c g, store.sessions.get sessionId = some s ∧ store.connections.get s.connectionId = some c ∧
      store.grants.get s.grantId = some g ∧ c.revision = s.connectionRevision ∧ g.revoked = false := by
  subst passed
  cases effect with
  | @passed s job current valid =>
    cases List.mem_singleton.mp told
    obtain ⟨found, foundGrant, revision, live, _⟩ := validateCurrent_ok valid
    obtain ⟨stored, session, same⟩ := fits.2
    rw [← same] at session
    exact ⟨_, _, _, session, found, foundGrant, revision, live⟩
  | created => cases List.mem_singleton.mp told
  | reserved => cases List.mem_singleton.mp told
  | called => cases List.mem_singleton.mp told
  | _ => cases told

variable {c : Connection} {g : Grant}

/-- From a state where the connection has the revision on, no session made under
an earlier one passes. -/
theorem State.Inv.run_passes_revised (inv : s.Inv) {revision : Nat}
    (found : s.store.connections.get id = some c) (reached : revision ≤ c.revision)
    (ran : (brokerSystem configured).exec s labels = some s') :
    ∃ newer, s'.log = newer ++ s.log ∧ ∀ event ∈ newer, ∀ sessionId, event = .passed sessionId →
      ∃ session, s'.store.sessions.get sessionId = some session ∧
        (session.connectionId = id → revision ≤ session.connectionRevision) := by
  refine inv.run_tells (fun s => ∃ c, s.store.connections.get id = some c ∧ revision ≤ c.revision)
    (fun store event => ∀ sessionId, event = .passed sessionId →
      ∃ session, store.sessions.get sessionId = some session ∧
      (session.connectionId = id → revision ≤ session.connectionRevision)) ?_ ?_ ?_ ⟨c, found, reached⟩ ran
  · intro before after event grows told sessionId same
    obtain ⟨session, stored, newer⟩ := told sessionId same
    obtain ⟨session', stored', kept⟩ := grows.sessions _ session stored
    rw [← kept] at stored'
    exact ⟨_, stored', newer⟩
  · intro s label s' inv ⟨c, found, reached⟩ moved
    obtain ⟨c', found', follows⟩ := (inv.step_grows moved).connections _ c found
    exact ⟨c', found', Nat.le_trans reached follows.revision⟩
  · intro s label process outcome inv ⟨c, found, reached⟩ turns event told sessionId same
    have fits := inv.fits process turns.listed
    obtain ⟨session, c', g, stored, found', _, revised, _⟩ := turns.turned.effect.passes fits told same
    obtain ⟨session', stored', kept⟩ := (turns.turned.effect.grows inv.valid fits).sessions _ session stored
    rw [← kept] at stored'
    refine ⟨_, stored', fun named => ?_⟩
    rw [← named] at found
    cases found.symm.trans found'
    exact revised ▸ reached

/-- From a state where the grant is revoked on, no session of it passes. -/
theorem State.Inv.run_passes_granted (inv : s.Inv) (found : s.store.grants.get id = some g)
    (revoked : g.revoked = true) (ran : (brokerSystem configured).exec s labels = some s') :
    ∃ newer, s'.log = newer ++ s.log ∧ ∀ event ∈ newer, ∀ sessionId, event = .passed sessionId →
      ∃ session, s'.store.sessions.get sessionId = some session ∧ session.grantId ≠ id := by
  refine inv.run_tells (fun s => ∃ g, s.store.grants.get id = some g ∧ g.revoked = true)
    (fun store event => ∀ sessionId, event = .passed sessionId →
      ∃ session, store.sessions.get sessionId = some session ∧
      session.grantId ≠ id) ?_ ?_ ?_ ⟨g, found, revoked⟩ ran
  · intro before after event grows told sessionId same
    obtain ⟨session, stored, other⟩ := told sessionId same
    obtain ⟨session', stored', kept⟩ := grows.sessions _ session stored
    rw [← kept] at stored'
    exact ⟨_, stored', other⟩
  · intro s label s' inv ⟨g, found, revoked⟩ moved
    obtain ⟨g', found', follows⟩ := (inv.step_grows moved).grants _ g found
    exact ⟨g', found', follows.revoked revoked⟩
  · intro s label process outcome inv ⟨g, found, revoked⟩ turns event told sessionId same
    have fits := inv.fits process turns.listed
    obtain ⟨session, c, g', stored, _, found', _, live⟩ := turns.turned.effect.passes fits told same
    obtain ⟨session', stored', kept⟩ := (turns.turned.effect.grows inv.valid fits).sessions _ session stored
    rw [← kept] at stored'
    refine ⟨_, stored', fun named => ?_⟩
    rw [← named] at found
    cases found.symm.trans found'
    rw [revoked] at live
    contradiction

theorem unassignDecided_revokes {allowed : Bool}
    (ran : unassignDecided store u c g allowed now = .ok outcome) :
    ∃ g', outcome.store.grants.get g.id = some g' ∧ g'.revoked = true := by
  simp only [unassignDecided, bind_ok, pure, Except.pure, Except.ok.injEq] at ran
  obtain ⟨_, _, _, _, _, _, _, _, rfl⟩ := ran
  exact ⟨_, Table.get_put_self store.grants ({ g with revoked := true, revision := g.revision + 1 } : Grant), rfl⟩

theorem turn_unassigns {id : Nat}
    (turned : s.turn configured label = some (⟨id, .unassignDeciding u c g⟩, .ok outcome))
    (moved : step configured s label = some s') : ∃ g', s'.store.grants.get g.id = some g' ∧ g'.revoked = true := by
  cases label with
  | call => contradiction
  | restart => contradiction
  | reply replied reply now =>
    simp only [step, turned, Option.map_some, Option.some.injEq] at moved
    simp only [State.turn, Option.bind_eq_bind, Option.bind_eq_some_iff] at turned
    obtain ⟨process, _, going⟩ := turned
    split at going
    · contradiction
    · obtain ⟨answer, ran, same⟩ := Option.map_eq_some_iff.mp going
      cases same
      obtain ⟨store, _⟩ := State.apply_ok { s with clock := now } id outcome
      rw [← moved]
      cases reply with
      | decided allowed => exact store ▸ unassignDecided_revokes (Option.some.inj ran)
      | _ => contradiction

/-- Revocation is final: of a connection, a grant and an approval in every run,
of a session while no execution writes back a session that was revoked since it
was read.  After `revoke`, `setPermission`, `rename`, `rotate` and `unassign` no
older session passes the check before sending. -/
theorem revocation_final {configured : Bool} {first s s' t : State} {before after : List Label} {label : Label}
    (initial : (brokerSystem configured).initial first)
    (ran : (brokerSystem configured).exec first before = some s)
    (moved : (brokerSystem configured).step s label = some s')
    (later : (brokerSystem configured).exec s' after = some t) :
    ((brokerSystem configured).Along (fun s label => s.restores label = false) s (label :: after) →
      Table.Grows (fun (s s' : Session) => s.revoked = true → s'.revoked = true) s.store.sessions
        t.store.sessions) ∧
    Table.Grows (fun (c c' : Connection) => c.status = .revoked → c'.status = .revoked)
      s.store.connections t.store.connections ∧
    Table.Grows (fun (g g' : Grant) => g.revoked = true → g'.revoked = true) s.store.grants t.store.grants ∧
    Table.Grows (fun (a a' : Approval) => a.consumed = true → a'.consumed = true) s.store.approvals
      t.store.approvals ∧
    (∀ e, s'.store.events = e :: s.store.events → e.type.commits = true →
      (e.type = .revoked → ∃ c, t.store.connections.get e.connectionId = some c ∧ c.status = .revoked) ∧
      ∃ newer, t.log = newer ++ s'.log ∧
        (∀ session ∈ s.store.sessions.rows, session.connectionId = e.connectionId → .passed session.id ∉ newer) ∧
        ∀ session ∈ t.store.sessions.rows, session.connectionId = e.connectionId →
          session.connectionRevision < e.revision → .passed session.id ∉ newer) ∧
    (∀ id u c g outcome, s.turn configured label = some (⟨id, .unassignDeciding u c g⟩, .ok outcome) →
      ∃ newer, t.log = newer ++ s'.log ∧
        ∀ session ∈ t.store.sessions.rows, session.grantId = g.id → .passed session.id ∉ newer) := by
  have inv : s.Inv := (State.Inv.initial initial).run ran
  have inv' : s'.Inv := inv.step moved
  have whole : (brokerSystem configured).exec s (label :: after) = some t := System.exec_cons.mpr ⟨s', moved, later⟩
  have grows := inv.run_grows whole
  have grows' := inv'.run_grows later
  refine ⟨fun along => inv.run_keeps_sessions along whole, ?_, ?_, ?_, fun e added commits => ?_,
    fun id u c g outcome turned => ?_⟩
  · exact fun id c found => (grows.connections id c found).imp fun c' kept => ⟨kept.1, kept.2.revoked⟩
  · exact fun id g found => (grows.grants id g found).imp fun g' kept => ⟨kept.1, kept.2.revoked⟩
  · exact fun id a found => (grows.approvals id a found).imp fun a' kept => ⟨kept.1, kept.2.consumed⟩
  · obtain ⟨latest, c, found, found', raised, revision, revokes⟩ := inv.commits moved added commits
    obtain ⟨newer, log, passed⟩ := inv'.run_passes_revised found' (Nat.le_of_eq revision.symm) later
    have old : ∀ session ∈ t.store.sessions.rows, session.connectionId = e.connectionId →
        session.connectionRevision < e.revision → .passed session.id ∉ newer := by
      intro session member named older told
      obtain ⟨stored, got, newest⟩ := passed _ told session.id rfl
      cases got.symm.trans (Table.get_of_mem member)
      exact absurd (newest named) (Nat.not_le.mpr older)
    refine ⟨fun revoked => ?_, newer, log, fun session member named told => ?_, old⟩
    · obtain ⟨c', stays, follows⟩ := grows'.connections _ c found'
      exact ⟨c', stays, follows.revoked (revokes revoked)⟩
    · -- a session of that connection has at most the revision that was raised
      obtain ⟨stored, got, kept⟩ := grows.sessions _ session (Table.get_of_mem member)
      obtain ⟨⟨c₀, found₀, bound, _⟩, _⟩ := inv.valid.backed session member
      rw [named] at found₀
      cases found₀.symm.trans found
      rw [← kept] at got
      exact old _ (Table.get_mem got) named (by dsimp only; omega) told
  · obtain ⟨g', found, revoked⟩ := turn_unassigns turned moved
    obtain ⟨newer, log, passed⟩ := inv'.run_passes_granted found revoked later
    refine ⟨newer, log, fun session member named told => ?_⟩
    obtain ⟨stored, got, other⟩ := passed _ told session.id rfl
    cases got.symm.trans (Table.get_of_mem member)
    exact other named

/-- A new broker, no call yet. -/
def State.start : State := ⟨.empty, ∅, [], 0, 0, []⟩

def owner : Principal := ⟨1, "human", false, 1000000, none⟩

def ledger : Allowed := ⟨[.itemRead, .itemSetState], [9], ⟨5, 60⟩⟩

/-- Connection 1 is enrolled and tested, grant 4 assigned and session 6 issued
with token 7. -/
def readied : List Label :=
  [.call (.enroll ⟨ledger, "ledger", none, "synthetic-ledger-v1"⟩ "secret" (some 77)) 0,
    .reply 0 (.authenticated owner) 0, .reply 0 .entered 0, .reply 0 (.written (some 1)) 0,
    .reply 0 (.read (some ⟨"secret", 3, 1⟩)) 0,
    .call (.testConnection 1 1) 0, .reply 1 (.authenticated owner) 0, .reply 1 .entered 0,
    .reply 1 (.read (some ⟨"secret", 3, 1⟩)) 0, .reply 1 (.answered (some ⟨9, .opened, none⟩)) 0,
    .call (.assign 1 1 ⟨ledger, 1, 50, 60, 100000⟩) 0, .reply 2 (.authenticated owner) 0, .reply 2 .entered 0,
    .reply 2 (.decided true) 0,
    .call (.issueSession 4 ⟨ledger, 70, 71, 72, 50000, "fractionate-broker"⟩) 0, .reply 3 (.authenticated owner) 0,
    .reply 3 .entered 0, .reply 3 (.decided true) 0, .reply 3 .resumed 0]

/-- An execution of the session is checked and `revoke` is called. -/
def revoking : List Label :=
  [.call (.execute 7 ⟨1, .read 9, none, none⟩ "k1") 0, .reply 4 .entered 0, .reply 4 (.decided true) 0,
    .call (.revoke 1 1) 0]

theorem revocation_final_revoked : ∃ s s' t, (brokerSystem false).exec .start (readied ++ revoking) = some s ∧
    (brokerSystem false).step s (.reply 5 (.authenticated owner) 0) = some s' ∧
    (brokerSystem false).exec s' [.restart 1] = some t ∧
    Table.Grows (fun (s s' : Session) => s.revoked = true → s'.revoked = true) s.store.sessions
      t.store.sessions := by
  have runs : ((brokerSystem false).exec .start
      ((readied ++ revoking) ++ [.reply 5 (.authenticated owner) 0, .restart 1])).isSome = true := by decide
  have fresh : (brokerSystem false).Along (fun s label => s.restores label = false) .start
      ((readied ++ revoking) ++ [.reply 5 (.authenticated owner) 0, .restart 1]) := by decide
  obtain ⟨t, whole⟩ := Option.isSome_iff_exists.mp runs
  obtain ⟨s, ran, rest⟩ := System.exec_append.mp whole
  obtain ⟨s', moved, later⟩ := System.exec_cons.mp rest
  exact ⟨s, s', t, ran, moved, later,
    (revocation_final ⟨rfl, rfl, rfl, rfl⟩ ran moved later).1 ((System.along_append ran).mp fresh).2⟩

/-- The execution goes on after the revocation and writes its copy of the session
back. -/
theorem execute_restores_session : (brokerSystem false).initial .start ∧
    ((brokerSystem false).exec .start (readied ++ revoking ++ [.reply 5 (.authenticated owner) 0])).map
      (fun s => s.store.sessions.rows.map (·.revoked)) = some [true] ∧
    ((brokerSystem false).exec .start (readied ++ revoking ++
      [.reply 5 (.authenticated owner) 0, .reply 4 .resumed 0])).map
      (fun s => s.store.sessions.rows.map (·.revoked)) = some [false] :=
  ⟨⟨rfl, rfl, rfl, rfl⟩, by decide, by decide⟩

end ProxyPilot.Broker
