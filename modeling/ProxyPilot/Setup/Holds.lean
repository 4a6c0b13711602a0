import ProxyPilot.Setup.Grants

namespace ProxyPilot.Setup

open Data Transition

def Unresolved (db : Db) (id : String) : Prop := ∃ row, db.jobs.get id = some row ∧ row.unresolved = true

/-- The app's lock is stale and names `id`, which is `job` or unresolved. -/
def HeldFor (app job id : String) (db : Db) : Prop :=
  ∃ lock, db.locks.get app = some lock ∧ lock.staleSince.isSome = true ∧ lock.recoveryJobId = some id ∧
    (id = job ∨ Unresolved db id)

/-- The change gives the app's lock to somebody. -/
def Change.grants (app : String) : Change → Bool
  | .lock (.acquireLock _) named _ _ => named = app
  | .lock (.takeoverLock _) named _ _ => named = app
  | _ => false

/-- The change leaves the app's lock but for its lease, and the outcome of job `id`. -/
def Change.spares (app id : String) : Change → Prop
  | .job .annotateTerminalOutcome _ (some old) _ => old.id ≠ id
  | .job _ _ _ _ => True
  | .lock .renewLock _ _ _ => True
  | .lock _ named _ _ => named ≠ app

def unresolved (db : Db) (id : String) : Bool := (db.jobs.get id).any JobRow.unresolved

/-- The app's lock is not one the test picks. -/
def spared (state : State) (named app : String) (picks : LockRow → Bool) : Bool :=
  named ≠ app || (state.db.locks.get app).all fun lock => !picks lock

/-- A hold is recorded for `job` or for another unresolved job. -/
def recordsHold (state : State) (job id : String) : Bool := id = job || unresolved state.db id

def keepsHoldNext (app job : String) (state : State) : Statement → Bool
  | .takeoverLock named _ _ _ _ now => spared state named app (·.leaseExpired now)
  | .holdStaleLock _ named _ _ id _ _ => named ≠ app || recordsHold state job id
  | .acknowledge row _ _ _ => spared state app app (·.recoveryJobId = some row.id)
  | _ => true

def keepsHold (app job : String) (state : State) : Label → Bool
  | .call (.acquireLock named owner _ _ _ _) => spared state named app (·.owner = owner)
  | .call (.releaseLock named owner epoch) =>
    spared state named app fun lock => lock.owner = owner && lock.epoch = epoch
  | .call (.takeoverLock named _ _ _ _ now) => spared state named app (·.leaseExpired now)
  | .call (.markLockStale named id _) => named ≠ app || id.all (recordsHold state job)
  | .call (.clearStaleLock named id) => spared state named app (·.recoveryJobId = some id)
  | .call (.annotateTerminalOutcome id _ _ _) => spared state app app (·.recoveryJobId = some id)
  | .goes token => (state.pending.get token).all fun pending => keepsHoldNext app job state pending.statement
  | _ => true

/-- The step does not release, re-assert, take over, clear or re-point the app's
lock, and does not resolve the job it names. -/
def KeepsHold (app job : String) (state : State) (label : Label) : Prop := keepsHold app job state label = true

instance (app job : String) (state : State) (label : Label) : Decidable (KeepsHold app job state label) :=
  inferInstanceAs (Decidable (_ = true))

section

variable {app job id : String} {db after : Db} {change : Change}

theorem JobMove.unresolved_stays {writer : Writer} {old new : JobRow} (moved : JobMove writer (some old) new)
    (kept : writer ≠ .annotateTerminalOutcome) (open_ : old.unresolved = true) : new.unresolved = true := by
  have status : old.status = .recoveryRequired := by
    unfold JobRow.unresolved at open_
    grind
  cases moved with
  | started waiting => rw [status] at waiting; contradiction
  | claimed waiting => rw [status] at waiting; contradiction
  | worked _ holds => exact open_
  | finished _ holds =>
    have running := (Fence.holds_iff.mp holds).2.2
    rw [status] at running
    contradiction
  | requeued running => rw [status] at running; contradiction
  | recorded running => rw [status] at running; contradiction
  | cancelled waiting => rw [status] at waiting; contradiction
  | refined => exact absurd rfl kept
  | requested => exact open_
  | annotated => exact open_

theorem Unresolved.steps (unresolved : Unresolved db id) (spares : change.spares app id)
    (stepped : change.Steps db after) : Unresolved after id := by
  obtain ⟨row, found, open_⟩ := unresolved
  cases stepped with
  | lock => exact ⟨row, found, open_⟩
  | unlock => exact ⟨row, found, open_⟩
  | @job writer _ old new stored moved =>
    by_cases same : id = new.id
    · subst same
      rw [found] at stored
      subst stored
      refine ⟨new, Table.get_put_self _ _, moved.unresolved_stays ?_ open_⟩
      rintro rfl
      exact spares (Table.get_key found)
    · exact ⟨row, (Table.get_put_other _ same).trans found, open_⟩

theorem HeldFor.steps (held : HeldFor app job id db) (spares : change.spares app id)
    (stepped : change.Steps db after) : HeldFor app job id after := by
  obtain ⟨lock, found, stale, names, open_⟩ := held
  have open_ : id = job ∨ Unresolved after id := open_.imp_right fun unresolved => unresolved.steps spares stepped
  cases stepped with
  | job => exact ⟨lock, found, stale, names, open_⟩
  | @lock writer named old new stored about moved =>
    have written : (db.locks.put new).get named = some new := about ▸ Table.get_put_self _ _
    by_cases same : named = app
    · subst same
      cases moved with
      | @renewed row =>
        rw [found] at stored
        cases stored
        exact ⟨_, written, stale, names, open_⟩
      | _ => exact absurd rfl spares
    · refine ⟨lock, ?_, stale, names, open_⟩
      exact (Table.get_put_other _ fun is => same (about.symm.trans is.symm)).trans found
  | @unlock writer named old stored moved =>
    by_cases same : named = app
    · subst same
      cases moved <;> exact absurd rfl spares
    · refine ⟨lock, ?_, stale, names, open_⟩
      dsimp only
      rw [Table.get_erase, if_neg (Ne.symm same)]
      exact found

theorem Change.spares.not_grants (spares : change.spares app id) : change.grants app = false := by
  cases change with
  | job => rfl
  | lock writer named old new => cases writer <;> simp_all [Change.spares, Change.grants]

end

section

variable {app job id : String} {db : Db}

variable {lock : LockRow} {named : Option String} {state : State}

theorem markLockStale_holds (found : db.locks.get app = some lock) {id : String}
    (names : named.or lock.recoveryJobId = some id) (open_ : id = job ∨ Unresolved db id) (now : Time) :
    HeldFor app job id (markLockStale db app named now).1 := by
  unfold markLockStale
  rw [found]
  refine ⟨{ lock with staleSince := some (lock.staleSince.getD now), recoveryJobId := named.or lock.recoveryJobId },
    ?_, rfl, names, open_⟩
  exact (show lock.app = app from Table.get_key found) ▸ Table.get_put_self _ _

theorem HeldFor.mark (held : HeldFor app job id db)
    (records : ∀ id, named = some id → id = job ∨ Unresolved db id) (now : Time) :
    ∃ id, HeldFor app job id (markLockStale db app named now).1 := by
  obtain ⟨lock, found, _, names, open_⟩ := held
  cases named with
  | none => exact ⟨id, markLockStale_holds found (Option.none_or.trans names) open_ now⟩
  | some next => exact ⟨next, markLockStale_holds found rfl (records next rfl) now⟩

theorem clearStaleLock_refused (found : db.locks.get app = some lock) {id : String}
    (other : lock.recoveryJobId ≠ some id) : clearStaleLock db app id = (db, []) := by
  unfold clearStaleLock
  rw [found]
  exact if_neg fun records => other records.2

theorem recordsHold_iff {job id : String} :
    recordsHold state job id = true ↔ id = job ∨ Unresolved state.db id := by
  unfold recordsHold unresolved Unresolved
  cases state.db.jobs.get id <;> simp

theorem spared_of_held {named app : String} {picks : LockRow → Bool}
    (found : state.db.locks.get app = some lock) (spares : spared state named app picks = true)
    (same : named = app) :
    picks lock = false := by
  unfold spared at spares
  simpa [found, same] using spares

/-- What a turn that keeps the hold leaves. -/
def Turn.Keeps (app job : String) (turn : Turn) : Prop :=
  (∃ id, HeldFor app job id turn.db) ∧ ∀ change ∈ turn.log, change.grants app = false

theorem HeldFor.keeps (held : HeldFor app job id db) {turn : Turn} (recorded : Recorded db turn.log turn.db)
    (spares : ∀ change ∈ turn.log, change.spares app id) : turn.Keeps app job := by
  refine ⟨⟨id, ?_⟩, fun change member => (spares change member).not_grants⟩
  exact recorded.keeps (HeldFor app job id) (Change.spares app id)
    (fun held spares stepped => held.steps spares stepped) held spares

end

variable {patterns : Patterns} {label : Label}

theorem Issues.keeps {state : State} {turn : Turn} {app job id : String}
    (issued : Issues patterns state label turn) (keeps : KeepsHold app job state label)
    (held : HeldFor app job id state.db) : turn.Keeps app job := by
  have spare (spares : ∀ change ∈ turn.log, change.spares app id) : turn.Keeps app job :=
    held.keeps issued.recorded spares
  have nothing : ∀ change ∈ ([] : List Change), change.spares app id := by simp
  have ⟨lock, found, stale, names, open_⟩ := held
  cases issued with
  | call call =>
    unfold KeepsHold keepsHold at keeps
    cases call with
    | createJob => exact spare (createJob_all fun _ => trivial)
    | startJob => exact spare (updateJob_all fun _ _ _ => trivial)
    | claimNextJob => exact spare (claimNextJob_all fun _ _ _ _ _ _ => trivial)
    | heartbeat => exact spare (updateJob_all fun _ _ _ => trivial)
    | finishJob fence status outcome progress now =>
      refine spare (Db.given_all fun status => ?_)
      split
      · exact nothing
      · exact updateJob_all fun _ _ _ => trivial
    | recordJobOutcome => exact spare (Db.given_all fun _ => updateJob_all fun _ _ _ => trivial)
    | annotateTerminalOutcome other =>
      refine spare (Db.given_all fun _ => updateJob_all fun row stored _ same => ?_)
      have spares := spared_of_held found keeps rfl
      rw [names, ← same, show row.id = other from Table.get_key stored] at spares
      simp at spares
    | cancelQueuedJob => exact spare (updateJob_all fun _ _ _ => trivial)
    | acquireLock named owner operation jobId leaseMs now =>
      by_cases same : named = app
      · subst same
        have other : owner ≠ lock.owner := fun same => by simpa [same] using spared_of_held found keeps rfl
        refine spare ?_
        rw [show (state.db.call (.acquireLock named owner operation jobId leaseMs now)).log = [] from
          congrArg Prod.snd (acquireLock_refused found other operation jobId leaseMs now)]
        exact nothing
      · exact spare (acquireLock_all fun _ _ => same)
    | renewLock => exact spare (renewLock_all fun _ _ => trivial)
    | releaseLock named owner epoch =>
      by_cases same : named = app
      · subst same
        have gone : PairGone named owner epoch state.db := by
          intro row stored holds
          rw [found] at stored
          cases stored
          simpa [holds] using spared_of_held found keeps rfl
        refine spare ?_
        rw [show (state.db.call (.releaseLock named owner epoch)).log = [] from
          congrArg Prod.snd (releaseLock_gone gone)]
        exact nothing
      · exact spare (releaseLock_all fun _ _ => same)
    | takeoverLock named taker operation jobId leaseMs now =>
      by_cases same : named = app
      · subst same
        refine spare ?_
        rw [show (state.db.call (.takeoverLock named taker operation jobId leaseMs now)).log = [] from
          congrArg Prod.snd (takeoverLock_refused found (spared_of_held found keeps rfl) taker
            operation jobId leaseMs)]
        exact nothing
      · exact spare (takeoverLock_all fun _ _ => same)
    | markLockStale named recoveryJobId now =>
      by_cases same : named = app
      · subst same
        refine ⟨held.mark (fun next is => recordsHold_iff.mp ?_) now, markLockStale_all fun _ _ => rfl⟩
        simpa [is] using keeps
      · exact spare (markLockStale_all fun _ _ => same)
    | clearStaleLock named recoveryJobId =>
      by_cases same : named = app
      · subst same
        have other := spared_of_held found keeps rfl
        refine spare ?_
        rw [show (state.db.call (.clearStaleLock named recoveryJobId)).log = [] from
          congrArg Prod.snd (clearStaleLock_refused found (by simpa using other))]
        exact nothing
      · exact spare (clearStaleLock_all fun _ _ => same)
    | checkpoint | recordGenerated | recordProgress | requeueJob | annotateJobProgress | requestCancel
    | takeOverUnheld | holdStaleLock | acknowledgeUncertainJob => exact spare nothing
  | @goes token pending waits =>
    unfold KeepsHold keepsHold at keeps
    simp only [waits, Option.all_some] at keeps
    cases statement : pending.statement with
    | takeoverLock named taker operation jobId leaseMs now =>
      rw [statement] at keeps spare
      by_cases same : named = app
      · subst same
        refine spare ?_
        rw [show (state.db.goes patterns (.takeoverLock named taker operation jobId leaseMs now)).log = [] from
          congrArg Prod.snd (takeoverLock_refused found (spared_of_held found keeps rfl) taker
            operation jobId leaseMs)]
        exact nothing
      · exact spare (takeoverLock_all fun _ _ => same)
    | holdStaleLock current named owner operation next epoch now =>
      rw [statement] at keeps spare
      by_cases same : named = app
      · subst same
        have records : next = job ∨ Unresolved state.db next :=
          recordsHold_iff.mp (by simpa [keepsHoldNext] using keeps)
        refine ⟨?_, holdStaleLock_all (fun _ _ => rfl) fun _ _ => rfl⟩
        cases current with
        | some _ => exact held.mark (fun other is => Option.some.inj is ▸ records) now
        | none =>
          refine ⟨id, ?_⟩
          unfold Db.goes Written.ends holdStaleLock
          simp only [found]
          exact held
      · exact spare (holdStaleLock_all (fun _ _ => same) fun _ _ => same)
    | leaseHold => rw [statement] at spare; exact spare nothing
    | acknowledge row notes origin now =>
      rw [statement] at keeps spare
      have other : lock.recoveryJobId ≠ some row.id := by simpa using spared_of_held found keeps rfl
      refine spare (acknowledge_all (fun after same => ?_) (fun stored reads _ same => ?_)
        (fun _ _ => annotate_all fun _ _ => trivial) fun _ _ _ _ _ => annotate_all fun _ _ => trivial)
      · by_cases about : row.app = app
        · rw [about, clearStaleLock_refused (same ▸ found) other]
          exact nothing
        · exact clearStaleLock_all fun _ _ => about
      · exact other (names.trans (congrArg some (same.symm.trans (Table.get_key reads))))
    | checkpoint | recordGenerated | recordProgress | finishJob | requeueJob | annotateJobProgress | cancelQueued
    | requestCancel => rw [statement] at spare; exact spare (updateJob_all fun _ _ _ => trivial)

/-- A state a hold stands in, and the changes since the hold. -/
def HoldStands (app job : String) (log : List Change) (state : State) : Prop :=
  (∃ id, HeldFor app job id state.db) ∧
    ∃ changes, state.log = log ++ changes ∧ ∀ change ∈ changes, change.grants app = false

theorem HoldStands.step {app job : String} {log : List Change} {state after : State}
    (stands : HoldStands app job log state) (keeps : KeepsHold app job state label)
    (moved : step patterns state label = some after) : HoldStands app job log after := by
  obtain ⟨⟨id, held⟩, changes, same, quiet⟩ := stands
  obtain ⟨turn, issued, db, logged⟩ := step_issues moved
  obtain ⟨still, quiet'⟩ := issued.keeps keeps held
  refine ⟨db ▸ still, changes ++ turn.log, by rw [logged, same, List.append_assoc], fun change member => ?_⟩
  exact (List.mem_append.mp member).elim (quiet change) (quiet' change)

theorem holdStaleLock_holds {db : Db} {current : Option LockRow} {app : String}
    (asRead : current.isSome = (db.locks.get app).isSome) (owner operation job : String)
    (epoch : Nat) (now : Time) :
    HeldFor app job job (holdStaleLock db current app owner operation job epoch now).1 := by
  unfold holdStaleLock
  cases current with
  | some _ =>
    obtain ⟨lock, found⟩ := Option.isSome_iff_exists.mp asRead.symm
    exact markLockStale_holds found rfl (.inl rfl) now
  | none =>
    have absent : db.locks.get app = none := by simpa using asRead
    rw [absent]
    let row : LockRow :=
      { app, owner, operation, jobId := some job, epoch := if epoch = 0 then 1 else epoch, acquiredAt := now,
        leaseExpiresAt := now, staleSince := some now, recoveryJobId := some job }
    exact ⟨row, db.locks.get_put_self row, rfl, rfl, .inl rfl⟩

/-- From a `holdStaleLock` that finds the lock as it read it, and while no step
gives the lock away, re-points it or resolves the job it names: the app's lock
names an unresolved job as long as the job is unresolved, and nobody acquires it. -/
theorem hold_stands {patterns : Patterns} {state held after : State} {token : Nat} {current : Option LockRow}
    {app owner operation job : String} {epoch : Nat} {now : Time} {labels : List Label}
    (holds : step patterns state (.goes token) = some held)
    (waits : state.pending.get token = some ⟨token, .holdStaleLock current app owner operation job epoch now⟩)
    (asRead : current.isSome = (state.db.locks.get app).isSome)
    (along : (engine patterns).Along (KeepsHold app job) held labels)
    (ran : (engine patterns).exec held labels = some after) :
    (Unresolved after.db job →
      ∃ lock id, after.db.locks.get app = some lock ∧ lock.staleSince.isSome = true ∧ lock.recoveryJobId = some id ∧
        Unresolved after.db id) ∧
    ∃ changes, after.log = held.log ++ changes ∧ ∀ change ∈ changes, change.grants app = false := by
  have start : HoldStands app job held.log held := by
    refine ⟨⟨job, ?_⟩, [], by simp, by simp⟩
    obtain ⟨turn, issued, db, _⟩ := step_issues holds
    cases issued with
    | @goes _ pending found =>
      rw [waits] at found
      cases found
      rw [db]
      exact holdStaleLock_holds asRead owner operation job epoch now
  have stands := (engine patterns).exec_preserves_along (KeepsHold app job) (HoldStands app job held.log)
    (fun stands keeps moved => stands.step keeps moved) along start ran
  obtain ⟨⟨id, lock, found, stale, names, open_⟩, quiet⟩ := stands
  exact ⟨fun unresolved =>
    ⟨lock, id, found, stale, names, open_.elim (fun same => same ▸ unresolved) fun other => other⟩,
    quiet⟩

/-- A restart whose owner `A` is taken for dead: the reconciler records the job and
holds the lock. -/
def restartHeld : List Label :=
  [.call (.createJob "j" "instance_restart" "app" .queued 0), .call (.claimNextJob "A" ["instance_restart"] 1000 0),
    .call (.acquireLock "app" "A" "instance_restart" (some "j") 1000 0),
    .call (.recordJobOutcome "j" .recoveryRequired (some "interrupted_uncertain") 5000),
    .call (.holdStaleLock "app" "A" "instance_restart" "j" 1 5000), .goes 0]

/-- `A` wakes up and releases its lock; `B` acquires it. -/
def releasedByOwner : List Label :=
  restartHeld ++ [.call (.releaseLock "app" "A" 1), .call (.acquireLock "app" "B" "deploy" (some "k") 1000 6000)]

/-- `B` finds no hold on the stale lock, the reconciler records one, `B` takes over. -/
def takenOverAfterCheck : List Label :=
  [.call (.createJob "j" "instance_restart" "app" .queued 0), .call (.claimNextJob "A" ["instance_restart"] 1000 0),
    .call (.acquireLock "app" "A" "instance_restart" (some "j") 1000 0),
    .call (.takeOverUnheld "app" "B" "verify_app" "k" none 1000 5000), .goes 0,
    .call (.recordJobOutcome "j" .recoveryRequired (some "interrupted_uncertain") 5000),
    .call (.holdStaleLock "app" "A" "instance_restart" "j" 1 5000), .goes 2, .goes 1]

/-- The hold of an unresolved job is lost to its dead owner's release, and to a
takeover that was checked before the hold. -/
theorem hold_lost :
    (∃ state, (engine plainText).exec .initial releasedByOwner = some state ∧ unresolved state.db "j" = true ∧
      (state.db.locks.get "app").any (·.staleSince.isSome) = false ∧
      state.log.getLast?.any (Change.grants "app") = true) ∧
    ∃ state, (engine plainText).exec .initial takenOverAfterCheck = some state ∧ unresolved state.db "j" = true ∧
      (state.db.locks.get "app").any (·.staleSince.isSome) = false ∧
      state.log.getLast?.any (Change.grants "app") = true :=
  ⟨⟨_, rfl, rfl, rfl, rfl⟩, _, rfl, rfl, rfl, rfl⟩

/-- Another process is refused, and the owner's renewal leaves the hold. -/
def refusedWhileHeld : List Label :=
  [.call (.acquireLock "app" "B" "deploy" (some "k") 1000 6000), .call (.renewLock "app" "A" 1 1000 6000)]

def beforeHold : State := ((engine plainText).exec .initial (restartHeld.take 5)).getD .initial

def afterHold : State := ((engine plainText).exec .initial restartHeld).getD .initial

theorem hold_stands_refused :
    ∃ after, (engine plainText).exec .initial (restartHeld ++ refusedWhileHeld) = some after ∧
      ∃ lock id, after.db.locks.get "app" = some lock ∧ lock.staleSince.isSome = true ∧
        lock.recoveryJobId = some id ∧
        Unresolved after.db id := by
  have holds : step plainText beforeHold (.goes 0) = some afterHold := rfl
  have along : (engine plainText).Along (KeepsHold "app" "j") afterHold refusedWhileHeld := by decide
  have ran : (engine plainText).exec afterHold refusedWhileHeld = some _ := rfl
  exact ⟨_, rfl, (hold_stands holds rfl rfl along ran).1 ⟨_, rfl, rfl⟩⟩

end ProxyPilot.Setup
