import ProxyPilot.Broker.AtMostOnce

namespace ProxyPilot.Broker

open Data Transition

variable {store : Store} {outcome : Outcome} {now : Time} {proc : Proc} {s s' t : State}
  {configured : Bool} {label : Label}
  {labels : List Label} {x : Uuid}

def creations (x : Uuid) (log : List Event) : List Uuid :=
  log.filterMap fun
    | .created connectionId intent => if intent = some x then some connectionId else none
    | _ => none

theorem mem_creations {log : List Event} {connectionId : Uuid} :
    connectionId ∈ creations x log ↔ .created connectionId (some x) ∈ log := by
  simp only [creations, List.mem_filterMap]
  constructor
  · intro ⟨event, member, found⟩
    cases event with
    | created id intent =>
      by_cases same : intent = some x
      · simp only [same, if_true, Option.some.injEq] at found
        exact found ▸ same ▸ member
      · simp [same] at found
    | _ => cases found
  · exact fun member => ⟨_, member, by simp⟩

/-- A rotation that the code goes through with. -/
def rotatable (c : Connection) (u : Uuid) (revision : Nat) (now : Time) : Bool :=
  (management c u .rotate now).isOk && c.revision = revision && c.status ≠ .revoked &&
    c.enrollment.state = .committed

/-- A connection of the intent is rotated, or an `enroll` of it passes its check
while another waits to write. -/
def State.disturbs (configured : Bool) (x : Uuid) (s : State) : Label → Bool
  | .reply id (.authenticated answer) now =>
    match s.procs.get id with
    | some ⟨_, .authenticating (.enroll request credential intent)⟩ =>
      intent = some x && (human configured (.enroll request credential intent) answer now).isOk &&
        enrollable request credential && s.procs.rows.any (·.proc.enrolls = some x)
    | _ => false
  | .reply id .entered now =>
    match s.procs.get id with
    | some ⟨_, .waiting _ (.rotate u connectionId revision _)⟩ =>
      (s.store.connections.get connectionId).any fun c =>
        c.enrollment.externalIntentId = some x && rotatable c u revision now
    | _ => false
  | _ => false

theorem rotateEntered_rotatable {u connectionId : Uuid} {revision : Nat} {credential : String}
    (ran : rotateEntered store u connectionId revision credential now = .ok outcome) :
    ∃ c, store.connections.get connectionId = some c ∧ rotatable c u revision now = true := by
  simp only [rotateEntered, rev, bind_ok, get_ok, require_ok, pure, Except.pure, Except.ok.injEq, Bool.and_eq_true,
    decide_eq_true_eq] at ran
  obtain ⟨c, found, _, managed, _, revision, _, ⟨live, committed⟩, _⟩ := ran
  refine ⟨c, found, ?_⟩
  simp only [rotatable, managed, Except.isOk, Except.toBool, Bool.true_and, Bool.and_eq_true, decide_eq_true_eq]
  exact ⟨⟨revision, live⟩, committed⟩

/-- The connections of an intent, before and after a turn. -/
inductive Intends (x : Uuid) (store : Store) (proc : Proc) (outcome : Outcome) : Prop where
  | kept
      (stays : ∀ id c, store.connections.get id = some c → c.enrollment.externalIntentId = some x →
        ∃ c', outcome.store.connections.get id = some c' ∧ c'.enrollment.externalIntentId = some x)
      (old : ∀ c' ∈ outcome.store.connections.rows, c'.enrollment.externalIntentId = some x →
        ∃ c ∈ store.connections.rows, c.id = c'.id ∧ c.enrollment.externalIntentId = some x)
      (quiet : ∀ id, .created id (some x) ∉ outcome.events)
  | created (c : Connection) (enrolls : proc.enrolls = some x)
      (absent : store.connections.get c.id = none) (intent : c.enrollment.externalIntentId = some x)
      (connections : outcome.store.connections = store.connections.put c)
      (told : outcome.events = [.created c.id (some x)])

/-- A record written over one of the same intent. -/
theorem put_intends {table : Table Connection} {c latest : Connection} (found : table.get c.id = some latest)
    (same : latest.enrollment.externalIntentId = some x ↔ c.enrollment.externalIntentId = some x) :
    (∀ id old, table.get id = some old → old.enrollment.externalIntentId = some x →
      ∃ c', (table.put c).get id = some c' ∧ c'.enrollment.externalIntentId = some x) ∧
    (∀ c' ∈ (table.put c).rows, c'.enrollment.externalIntentId = some x →
      ∃ old ∈ table.rows, old.id = c'.id ∧ old.enrollment.externalIntentId = some x) := by
  constructor
  · intro id old stored intends
    by_cases named : id = c.id
    · subst named
      cases found.symm.trans stored
      exact ⟨c, Table.get_put_self table c, same.mp intends⟩
    · exact ⟨old, (Table.get_put_other table (show id ≠ Keyed.key c from named)).trans stored, intends⟩
  · refine Table.all_put (fun other stored intends => ⟨other, stored, rfl, intends⟩) fun intends => ?_
    exact ⟨latest, Table.get_mem found, Table.get_key found, same.mpr intends⟩

theorem Effect.intends (effect : Effect store now proc outcome) (fits : proc.Fits store)
    (unrotated : ∀ id c, proc.rotates id = true → store.connections.get id = some c →
      c.enrollment.externalIntentId ≠ some x) : Intends x store proc outcome := by
  have same (connections : outcome.store.connections = store.connections)
      (quiet : ∀ id, .created id (some x) ∉ outcome.events) : Intends x store proc outcome := by
    refine .kept (fun id c found intends => ⟨c, connections ▸ found, intends⟩) (fun c' member intends => ?_) quiet
    rw [connections] at member
    exact ⟨c', member, rfl, intends⟩
  cases effect with
  | @created key c credential =>
    by_cases intends : c.enrollment.externalIntentId = some x
    · exact .created c intends fits intends rfl (by rw [intends])
    · refine .kept (fun id old found mine => ?_) ?_ fun id told => ?_
      · have apart : id ≠ Keyed.key c := fun same => by
          rw [same] at found
          exact absurd (found.symm.trans fits) (by simp)
        exact ⟨old, (Table.get_put_other _ apart).trans found, mine⟩
      · exact Table.all_put (fun other stored mine => ⟨other, stored, rfl, mine⟩) fun mine => absurd mine intends
      · exact intends (Event.created.inj (List.mem_singleton.mp told)).2.symm
  | updated found _ intent =>
    obtain ⟨stays, old⟩ := put_intends (x := x) found (iff_of_eq (congrArg (· = some x) intent.symm))
    exact .kept stays old fun id told => by cases told
  | @committed _ _ latest c _ _ _ found _ _ _ _ _ intent =>
    have kept : latest.enrollment.externalIntentId = some x ↔ c.enrollment.externalIntentId = some x := by
      obtain ⟨rotates, none⟩ | intent := intent
      · exact ⟨fun mine => absurd mine (unrotated _ latest rotates found), fun mine => by simp [none] at mine⟩
      · rw [intent]
    obtain ⟨stays, old⟩ := put_intends (x := x) found kept
    exact .kept stays old fun id told => by cases told
  | passed => exact same rfl fun id told => by cases List.mem_singleton.mp told
  | reserved => exact same rfl fun id told => by cases List.mem_singleton.mp told
  | called => exact same rfl fun id told => by cases List.mem_singleton.mp told
  | _ => exact same rfl fun id told => by cases told

/-- The intent has one connection at most, and at most one call is about to write
it. -/
structure Sole (x : Uuid) (s : State) : Prop where
  created : ∀ id, .created id (some x) ∈ s.log → ∃ c, s.store.connections.get id = some c ∧
    c.enrollment.externalIntentId = some x
  stored : ∀ c ∈ s.store.connections.rows, c.enrollment.externalIntentId = some x → .created c.id (some x) ∈ s.log
  once : (creations x s.log).length ≤ 1
  first : ∀ process ∈ s.procs.rows, process.proc.enrolls = some x → creations x s.log = []
  alone : ∀ process ∈ s.procs.rows, ∀ other ∈ s.procs.rows, process.proc.enrolls = some x →
    other.proc.enrolls = some x →
    process.id = other.id

theorem Proc.owned_of_enrolls (enrolls : proc.enrolls = some x) : proc.owned ≠ none := by
  intro none
  cases proc with
  | waiting key work =>
    cases work with
    | enroll => cases none
    | _ => cases enrolls
  | _ => cases enrolls

/-- A turn that goes through does not rotate a connection of the intent. -/
theorem unrotated {process : Process} {reply : Reply} (found : s.procs.get process.id = some process)
    (apart : s.disturbs configured x (.reply process.id reply now) = false)
    (ran : advance configured s.store now process.proc reply = some (.ok outcome)) (id : Uuid) (c : Connection)
    (rotates : process.proc.rotates id = true) (stored : s.store.connections.get id = some c) :
    c.enrollment.externalIntentId ≠ some x := by
  obtain ⟨processId, proc⟩ := process
  cases proc with
  | waiting key work =>
    cases work with
    | rotate u connectionId revision credential =>
      have named : connectionId = id := of_decide_eq_true rotates
      subst named
      cases reply with
      | entered =>
        obtain ⟨c', found', ready⟩ := rotateEntered_rotatable (Option.some.inj ran)
        cases stored.symm.trans found'
        simpa [State.disturbs, found, stored, ready] using apart
      | _ => contradiction
    | _ => contradiction
  | _ => contradiction

theorem Sole.fewer (sole : Sole x s) {s' : State} (store : s'.store = s.store) (log : s'.log = s.log)
    (procs : ∀ process ∈ s'.procs.rows, process.proc.enrolls = some x → process ∈ s.procs.rows) : Sole x s' where
  created id told := store ▸ sole.created id (log ▸ told)
  stored c member intends := log ▸ sole.stored c (store ▸ member) intends
  once := log ▸ sole.once
  first process member enrolls := log ▸ sole.first process (procs process member enrolls) enrolls
  alone process member other member' enrolls enrolls' :=
    sole.alone process (procs process member enrolls) other (procs other member' enrolls') enrolls enrolls'

theorem Sole.begun (sole : Sole x s) (call : Call) : Sole x (begin s call) := by
  obtain ⟨procs, locks, same, started⟩ := begin_eq s call
  rw [same]
  refine sole.fewer rfl rfl fun process member enrolls => ?_
  obtain rfl | ⟨proc, rfl, owned, _⟩ := started
  · exact member
  · cases Table.mem_put.mp member with
    | inl new => exact absurd owned (Proc.owned_of_enrolls (new ▸ enrolls))
    | inr old => exact old.1

theorem Sole.reopened (sole : Sole x s) {s' : State} (store : s'.store = s.store.reopen) (log : s'.log = s.log)
    (procs : s'.procs = ∅) : Sole x s' := by
  have intent (c : Connection) : c.reopened.enrollment.externalIntentId = c.enrollment.externalIntentId :=
    c.reopened_follows.intent rfl
  refine ⟨fun id told => ?_, fun c member intends => ?_, log ▸ sole.once, fun process member => ?_,
    fun process member => ?_⟩
  · obtain ⟨c, found, intends⟩ := sole.created id (log ▸ told)
    refine ⟨c.reopened, ?_, (intent c).trans intends⟩
    rw [store, Store.reopen, Table.get_map, found]
    rfl
  · rw [store] at member
    obtain ⟨old, stored, rfl⟩ := List.mem_map.mp member
    exact log ▸ sole.stored old stored ((intent old).symm.trans intends)
  · rw [procs] at member
    cases member
  · rw [procs] at member
    cases member

theorem Sole.replied {id : Nat} {reply : Reply} (inv : s.Inv) (sole : Sole x s)
    (apart : s.disturbs configured x (.reply id reply now) = false)
    (moved : step configured s (.reply id reply now) = some s') : Sole x s' := by
  obtain ⟨process, answer, found, ran, rfl⟩ := step_reply moved
  cases answer with
  | error reason => exact sole.fewer rfl rfl fun other member _ => (State.finish_procs member).1
  | ok outcome =>
    have listed := Table.get_mem found
    have key : process.id = id := Table.get_key found
    subst key
    have fits := inv.fits process listed
    have turned := advance_turned inv.valid fits ran
    have intends := turned.effect.intends fits (unrotated found apart ran)
    obtain ⟨store, log, _⟩ := State.apply_ok { s with clock := now } process.id outcome
    -- a wait that is about to write the intent comes from the call that has just been checked, alone
    have new : ∀ next, outcome.next = .await next → next.enrolls = some x →
        (∃ call, process.proc = .authenticating call) ∧ creations x s.log = [] ∧
          ∀ other ∈ s.procs.rows, other.proc.enrolls ≠ some x := by
      intro next waits enrolls
      obtain ⟨request, credential, authenticating, admits, unused⟩ := turned.leads.enrolls next x waits enrolls
      refine ⟨⟨_, authenticating⟩, List.eq_nil_iff_forall_not_mem.mpr fun connectionId told => ?_,
        fun other member same => ?_⟩
      · obtain ⟨c, stored, mine⟩ := sole.created connectionId (mem_creations.mp told)
        exact unused c (Table.get_mem stored) mine
      · obtain ⟨processId, proc⟩ := process
        subst authenticating
        cases reply with
        | authenticated answer =>
          have passed : (human configured (.enroll request credential (some x)) answer now).isOk = true := by
            obtain ⟨p, admitted, _⟩ := bind_ok.mp (Option.some.inj ran)
            rw [admitted]
            rfl
          have waiting : s.procs.rows.any (·.proc.enrolls = some x) = true :=
            List.any_eq_true.mpr ⟨other, member, decide_eq_true same⟩
          simp [State.disturbs, found, passed, admits, waiting] at apart
        | _ => contradiction
    cases intends with
    | kept stays old quiet =>
      have same : creations x (outcome.events ++ s.log) = creations x s.log := by
        have none : creations x outcome.events = [] :=
          List.eq_nil_iff_forall_not_mem.mpr fun connectionId told => quiet connectionId (mem_creations.mp told)
        rw [creations, List.filterMap_append]
        exact congrArg (· ++ creations x s.log) none
      refine ⟨fun connectionId told => ?_, fun c member mine => ?_, ?_, fun other member enrolls => ?_,
        fun other member another member' enrolls enrolls' => ?_⟩
      · rw [log] at told
        cases List.mem_append.mp told with
        | inl now => exact absurd now (quiet connectionId)
        | inr before =>
          obtain ⟨c, stored, mine⟩ := sole.created connectionId before
          exact store ▸ stays connectionId c stored mine
      · rw [store] at member
        obtain ⟨before, stored, named, mine⟩ := old c member mine
        rw [log, ← named]
        exact List.mem_append_right _ (sole.stored before stored mine)
      · rw [log, same]
        exact sole.once
      · rw [log, same]
        obtain ⟨before, _⟩ | ⟨_, next, ⟨⟩, waits, rfl⟩ := State.apply_procs member
        · exact sole.first other before enrolls
        · exact (new next waits enrolls).2.1
      · obtain ⟨before, _⟩ | ⟨_, next, ⟨⟩, waits, rfl⟩ := State.apply_procs member <;>
          obtain ⟨before', _⟩ | ⟨_, next', ⟨⟩, waits', rfl⟩ := State.apply_procs member'
        · exact sole.alone other before another before' enrolls enrolls'
        · exact absurd enrolls ((new next' waits' enrolls').2.2 other before)
        · exact absurd enrolls' ((new next waits enrolls).2.2 another before')
        · rfl
    | created c enrolls absent intent connections told =>
      have none := sole.first process listed enrolls
      have unwaited : ∀ other ∈ (({ s with clock := now } : State).apply process.id (.ok outcome)).procs.rows,
          other.proc.enrolls ≠ some x := by
        intro other member mine
        obtain ⟨before, different⟩ | ⟨_, next, ⟨⟩, waits, rfl⟩ := State.apply_procs member
        · exact different (sole.alone other before process listed mine enrolls)
        · exact (new next waits mine).2.2 process listed enrolls
      have one : creations x (outcome.events ++ s.log) = [c.id] := by
        rw [told, creations, List.filterMap_append]
        refine (congrArg (_ ++ ·) none).trans ?_
        simp
      refine ⟨fun connectionId said => ?_, fun other member mine => ?_, ?_, fun other member mine =>
        absurd mine (unwaited other member), fun other member _ _ mine => absurd mine (unwaited other member)⟩
      · rw [log, ← mem_creations, one] at said
        cases List.mem_singleton.mp said
        refine ⟨c, ?_, intent⟩
        rw [store, connections]
        exact Table.get_put_self _ c
      · rw [store, connections] at member
        rw [log]
        cases Table.mem_put.mp member with
        | inl same => exact List.mem_append_left _ (by rw [told, same]; exact List.mem_singleton_self _)
        | inr before => exact List.mem_append_right _ (sole.stored other before.1 mine)
      · rw [log, one]
        exact Nat.le_refl 1

theorem Sole.step (inv : s.Inv) (sole : Sole x s) (apart : s.disturbs configured x label = false)
    (moved : Broker.step configured s label = some s') : Sole x s' := by
  cases label with
  | call call now =>
    cases moved
    have timed : Sole x { s with clock := now } := sole.fewer rfl rfl fun _ member _ => member
    exact timed.begun call
  | restart now =>
    cases moved
    exact sole.reopened rfl rfl rfl
  | reply id reply now => exact sole.replied inv apart moved

theorem Sole.run (initial : (brokerSystem configured).initial s)
    (along : (brokerSystem configured).Along (fun s label => s.disturbs configured x label = false) s labels)
    (ran : (brokerSystem configured).exec s labels = some s') : Sole x s' := by
  have ends := (brokerSystem configured).exec_preserves_along (fun s label => s.disturbs configured x label = false)
    (fun s => s.Inv ∧ Sole x s) (fun ⟨inv, sole⟩ apart moved => ⟨inv.step moved, sole.step inv apart moved⟩)
    along ⟨.initial initial, ?_⟩ ran
  · exact ends.2
  · obtain ⟨store, procs, _, log⟩ := initial
    refine ⟨fun id told => ?_, fun c member => ?_, ?_, fun process member => ?_, fun process member => ?_⟩
    · rw [log] at told
      cases told
    · rw [store] at member
      cases member
    · rw [log]
      exact Nat.zero_le 1
    · rw [procs] at member
      cases member
    · rw [procs] at member
      cases member

theorem Sole.connection_eq (sole : Sole x s) {c c' : Connection} (member : c ∈ s.store.connections.rows)
    (member' : c' ∈ s.store.connections.rows) (intends : c.enrollment.externalIntentId = some x)
    (intends' : c'.enrollment.externalIntentId = some x) : c = c' := by
  have told := mem_creations.mpr (sole.stored c member intends)
  have told' := mem_creations.mpr (sole.stored c' member' intends')
  have single := sole.once
  cases log : creations x s.log with
  | nil =>
    rw [log] at told
    cases told
  | cons connectionId rest =>
    rw [log] at told told' single
    have none : rest = [] := List.eq_nil_of_length_eq_zero (by simpa using single)
    subst none
    exact Table.key_injective member member'
      ((List.mem_singleton.mp told).trans (List.mem_singleton.mp told').symm)

/-- While no connection of the intent is rotated and no two calls enroll it at
once, the intent has one connection, which its owner finds and no later `enroll`
replaces. -/
theorem one_connection_per_intent {configured : Bool} {x : Uuid} {first s : State} {labels : List Label}
    (initial : (brokerSystem configured).initial first)
    (along : (brokerSystem configured).Along (fun s label => s.disturbs configured x label = false) first labels)
    (ran : (brokerSystem configured).exec first labels = some s) :
    (creations x s.log).length ≤ 1 ∧ ∀ connectionId, .created connectionId (some x) ∈ s.log →
      (∃ c, s.store.connections.get connectionId = some c ∧ enrollmentStatus s.store c.ownerId x = .ok c) ∧
      (∀ u request credential, enrollAdmitted s.store u request credential (some x) = .error .idempotencyConflict) ∧
      ∀ id request credential answer now s',
        s.procs.get id = some ⟨id, .authenticating (.enroll request credential (some x))⟩ →
        step configured s (.reply id (.authenticated answer) now) = some s' → s'.store = s.store ∧
          s'.log = s.log := by
  have sole := Sole.run initial along ran
  refine ⟨sole.once, fun connectionId told => ?_⟩
  obtain ⟨c, found, intends⟩ := sole.created connectionId told
  have member := Table.get_mem found
  have refused : ∀ u request credential,
      enrollAdmitted s.store u request credential (some x) = .error .idempotencyConflict := by
    intro u request credential
    have used : s.store.connections.rows.any (·.enrollment.externalIntentId = some x) = true :=
      List.any_eq_true.mpr ⟨c, member, decide_eq_true intends⟩
    simp [enrollAdmitted, require, used, bind, Except.bind]
  refine ⟨⟨c, found, ?_⟩, refused, fun id request credential answer now s' waits moved => ?_⟩
  · refine demand_ok.mpr ?_
    cases hit : s.store.connections.rows.find? fun other =>
        other.ownerId = c.ownerId && other.enrollment.externalIntentId = some x with
    | none =>
      have missed := List.find?_eq_none.mp hit c member
      simp [intends] at missed
    | some other =>
      have mine : other.enrollment.externalIntentId = some x := by
        have checked := List.find?_some hit
        simp only [Bool.and_eq_true, decide_eq_true_eq] at checked
        exact checked.2
      rw [sole.connection_eq (List.mem_of_find?_eq_some hit) member mine intends]
  · obtain ⟨process, turn, stored, going, rfl⟩ := step_reply moved
    cases waits.symm.trans stored
    cases turn with
    | error reason => exact ⟨rfl, rfl⟩
    | ok outcome =>
      obtain ⟨p, _, ran⟩ := bind_ok.mp (Option.some.inj going)
      have clash := (refused p.userId request credential).symm.trans ran
      cases clash

theorem one_connection_per_intent_readied : ∃ s, (brokerSystem false).exec .start readied = some s ∧
    (creations 77 s.log).length ≤ 1 := by
  have runs : ((brokerSystem false).exec .start readied).isSome = true := by decide
  obtain ⟨s, ran⟩ := Option.isSome_iff_exists.mp runs
  exact ⟨s, ran, (one_connection_per_intent (x := 77) ⟨rfl, rfl, rfl, rfl⟩ (by decide) ran).1⟩

/-- Connection 1 is rotated. -/
def rotating : List Label :=
  [.call (.rotate 1 1 "renewed") 0, .reply 4 (.authenticated owner) 0, .reply 4 .entered 0]

/-- The intent is enrolled up to the write of the connection. -/
def enrolling (id : Nat) : List Label :=
  [.call (.enroll ⟨ledger, "ledger", none, "synthetic-ledger-v1"⟩ "secret" (some 77)) 0,
    .reply id (.authenticated owner) 0, .reply id .entered 0]

/-- After the rotation the owner's status call finds nothing, and the same intent
creates a second connection; so do two calls that check before either writes. -/
theorem rotate_forgets_intent : (brokerSystem false).initial .start ∧
    ((brokerSystem false).exec .start readied).map (fun s => (enrollmentStatus s.store 1 77).map (·.id)) =
      some (.ok 1) ∧
    ((brokerSystem false).exec .start (readied ++ rotating)).map
      (fun s => (enrollmentStatus s.store 1 77).map (·.id)) = some (.error .notFound) ∧
    ((brokerSystem false).exec .start (readied ++ rotating ++ enrolling 5)).map (fun s => creations 77 s.log) =
      some [9, 1] ∧
    ((brokerSystem false).exec .start
      [.call (.enroll ⟨ledger, "ledger", none, "synthetic-ledger-v1"⟩ "secret" (some 77)) 0,
        .call (.enroll ⟨ledger, "ledger", none, "synthetic-ledger-v1"⟩ "secret" (some 77)) 0,
        .reply 0 (.authenticated owner) 0, .reply 1 (.authenticated owner) 0, .reply 0 .entered 0,
        .reply 1 .entered 0]).map (fun s => creations 77 s.log) = some [4, 1] :=
  ⟨⟨rfl, rfl, rfl, rfl⟩, by decide, by decide, by decide, by decide⟩

end ProxyPilot.Broker
