import ProxyPilot.Setup.Machine

namespace ProxyPilot.Setup

open Data Transition

/-- What each function does to a job row. -/
inductive JobMove : Writer → Option JobRow → JobRow → Prop where
  | created {row : JobRow} (unowned : row.owner = none) (zero : row.epoch = 0) (empty : row.progress = ∅) :
      JobMove .createJob none row
  | started {row : JobRow} {owner lease at_ updated} (waiting : row.status = .queued) :
      JobMove (.startJob owner) (some row)
        { row with
          status := .running, owner := some owner, epoch := 1, leaseExpiresAt := lease, startedAt := at_,
          updatedAt := updated }
  | claimed {row : JobRow} {owner lease at_ updated progress} (waiting : row.status = .queued) :
      JobMove (.claimNextJob owner) (some row)
        { row with
          status := .running, owner := some owner, epoch := row.epoch + 1, leaseExpiresAt :=
            lease, startedAt := at_,
          updatedAt := updated, progress }
  | worked {row : JobRow} {fence call phase cp progress lease updated} (named : row.id = fence.id)
      (holds : fence.holds row) :
      JobMove (.worker fence call) (some row)
        { row with phase, checkpoint := cp, progress, leaseExpiresAt := lease, updatedAt := updated }
  | finished {row : JobRow} {fence status outcome at_ updated} (named : row.id = fence.id) (holds : fence.holds row)
      (terminal : status.terminal) :
      JobMove (.worker fence .finishJob) (some row)
        { row with status, outcome, finishedAt := at_, updatedAt := updated, leaseExpiresAt := none }
  | requeued {row : JobRow} {progress updated} (running : row.status = .running) :
      JobMove .requeueJob (some row)
        { row with status := .queued, owner := none, leaseExpiresAt := none, progress, updatedAt := updated }
  | recorded {row : JobRow} {status outcome at_ updated} (running : row.status = .running)
      (terminal : status.terminal) :
      JobMove .recordJobOutcome (some row)
        { row with status, outcome, finishedAt := at_, updatedAt := updated, leaseExpiresAt := none }
  | cancelled {row : JobRow} {outcome at_ updated} (waiting : row.status = .queued) :
      JobMove .cancelQueuedJob (some row)
        { row with status := .cancelled, outcome, finishedAt := at_, updatedAt := updated }
  | refined {row : JobRow} {outcome updated} (terminal : row.status.terminal) :
      JobMove .annotateTerminalOutcome (some row) { row with outcome, updatedAt := updated }
  | requested {row : JobRow} {progress updated} :
      JobMove .requestCancel (some row) { row with progress, updatedAt := updated }
  | annotated {row : JobRow} {progress updated} :
      JobMove .annotateJobProgress (some row) { row with progress, updatedAt := updated }

/-- What each function does to a lock row. -/
inductive LockMove (app : String) : LockWriter → Option LockRow → Option LockRow → Prop where
  | acquired {row : LockRow} {job} (named : row.app = app) (first : row.epoch = 1) (holder : row.jobId = job)
      (live : row.staleSince = none) (free : row.recoveryJobId = none) :
      LockMove app (.acquireLock job) none (some row)
  | reasserted {lock : LockRow} {operation job lease} :
      LockMove app (.acquireLock job) (some lock)
        (some { lock with operation, jobId := job, leaseExpiresAt := lease, staleSince := none })
  | tookOver {lock : LockRow} {taker operation job at_ lease} :
      LockMove app (.takeoverLock job) (some lock)
        (some { lock with
          owner := taker, operation, jobId := job, epoch := lock.epoch + 1, acquiredAt :=
            at_, leaseExpiresAt := lease,
          staleSince := none, recoveryJobId := none })
  | renewed {lock : LockRow} {lease} :
      LockMove app .renewLock (some lock) (some { lock with leaseExpiresAt := lease })
  | marked {lock : LockRow} {since : Time} {job : Option String} :
      LockMove app .markLockStale (some lock)
        (some { lock with staleSince := some since, recoveryJobId := job.or lock.recoveryJobId })
  | held {row : LockRow} (named : row.app = app) (stale : row.staleSince.isSome)
      (recorded : row.recoveryJobId = row.jobId) :
      LockMove app .holdStaleLock none (some row)
  | released {lock : LockRow} :
      LockMove app (.releaseLock lock.owner lock.epoch) (some lock) none
  | cleared {lock : LockRow} (stale : lock.staleSince.isSome) :
      LockMove app .clearStaleLock (some lock) none

inductive Change.Steps : Db → Change → Db → Prop where
  | job {db : Db} {writer names old} {new : JobRow} (found : db.jobs.get new.id = old)
      (moved : JobMove writer old new) :
      Change.Steps db (.job writer names old new) { db with jobs := db.jobs.put new }
  | lock {db : Db} {writer app old} {new : LockRow} (found : db.locks.get app = old) (named : new.app = app)
      (moved : LockMove app writer old (some new)) :
      Change.Steps db (.lock writer app old (some new)) { db with locks := db.locks.put new }
  | unlock {db : Db} {writer app old} (found : db.locks.get app = some old)
      (moved : LockMove app writer (some old) none) :
      Change.Steps db (.lock writer app (some old) none) { db with locks := db.locks.erase app }

inductive Recorded : Db → List Change → Db → Prop where
  | nothing {db : Db} : Recorded db [] db
  | change {db middle after : Db} {change : Change} {rest : List Change} (first : change.Steps db middle)
      (later : Recorded middle rest after) : Recorded db (change :: rest) after

theorem Change.Steps.recorded {db after : Db} {change : Change} (stepped : change.Steps db after) :
    Recorded db [change] after := .change stepped .nothing

variable {first second : List Change} {changes : List Change}

theorem Recorded.append {db middle after : Db} (before : Recorded db first middle)
    (later : Recorded middle second after) : Recorded db (first ++ second) after := by
  induction before with
  | nothing => exact later
  | change stepped _ ih => exact .change stepped (ih later)

theorem Recorded.split {db after : Db} (recorded : Recorded db (first ++ second) after) :
    ∃ middle, Recorded db first middle ∧ Recorded middle second after := by
  induction first generalizing db with
  | nil => exact ⟨db, .nothing, recorded⟩
  | cons change rest ih =>
    cases recorded with
    | change stepped later =>
      obtain ⟨middle, before, remaining⟩ := ih later
      exact ⟨middle, .change stepped before, remaining⟩

variable {db : Db} {change : JobRow → JobRow} {allowed : JobRow → Bool} {names : List String}
  {writer : Writer} {id : String}

theorem Recorded.andThen {first : Written} {second : Db → Written} (before : Recorded db first.2 first.1)
    (later : ∀ middle, Recorded middle (second middle).2 (second middle).1) :
    Recorded db (first.andThen second).2 (first.andThen second).1 := before.append (later first.1)

/-- What every sound change preserves, a list of them preserves. -/
theorem Recorded.preserves (holds : Db → List Change → Prop) (sound : Change → Prop)
    (each : ∀ {db after : Db} {log : List Change} {change : Change}, holds db log → sound change →
      change.Steps db after → holds after (log ++ [change]))
    (log : List Change) {db after : Db} (before : holds db log)
    (all : ∀ change ∈ changes, sound change) (recorded : Recorded db changes after) :
    holds after (log ++ changes) := by
  induction recorded generalizing log with
  | nothing => simpa using before
  | @change db middle after change rest stepped _ ih =>
    obtain ⟨first, others⟩ := List.forall_mem_cons.mp all
    have preserved := ih (log ++ [change]) (each before first stepped) others
    rwa [List.append_assoc] at preserved

/-- The same for the tables alone. -/
theorem Recorded.keeps (holds : Db → Prop) (sound : Change → Prop)
    (each : ∀ {db after : Db} {change : Change}, holds db → sound change → change.Steps db after → holds after)
    {db after : Db} (before : holds db) (all : ∀ change ∈ changes, sound change)
    (recorded : Recorded db changes after) : holds after :=
  Recorded.preserves (fun db _ => holds db) sound each [] before all recorded

theorem updateJob_recorded
    (same : ∀ row, (change row).id = row.id)
    (moves : ∀ row, row.id = id → allowed row = true → JobMove writer (some row) (change row)) :
    Recorded db (db.updateJob writer names id allowed change).2
      (db.updateJob writer names id allowed change).1 := by
  unfold Db.updateJob
  cases found : db.jobs.get id with
  | none => exact .nothing
  | some row =>
    by_cases matched : allowed row = true
    · simp only [if_pos matched]
      have named : row.id = id := Table.get_key found
      refine Change.Steps.recorded (.job ?_ (moves row named matched))
      rw [same row, named, found]
    · simp only [if_neg matched]
      exact .nothing

theorem updateJob_change
    {changed : Change} (member : changed ∈ (db.updateJob writer names id allowed change).2) :
    ∃ row, db.jobs.get id = some row ∧ allowed row = true ∧
      changed = .job writer names (some row) (change row) := by
  unfold Db.updateJob at member
  cases found : db.jobs.get id with
  | none =>
    rw [found] at member
    contradiction
  | some row =>
    rw [found] at member
    cases matched : allowed row with
    | false => simp [matched] at member
    | true => exact ⟨row, rfl, matched, by simpa [matched] using member⟩

/-- What holds of every change an `UPDATE` of a matching row makes. -/
theorem updateJob_all
    {holds : Change → Prop}
    (each : ∀ row, db.jobs.get id = some row → allowed row = true →
    holds (.job writer names (some row) (change row))) :
    ∀ changed ∈ (db.updateJob writer names id allowed change).2, holds changed := by
  intro changed member
  obtain ⟨row, found, matched, rfl⟩ := updateJob_change member
  exact each row found matched

theorem updateJob_locks (db : Db) (writer : Writer) (names : List String) (id : String) (allowed : JobRow → Bool)
    (change : JobRow → JobRow) : (db.updateJob writer names id allowed change).1.locks = db.locks := by
  unfold Db.updateJob
  split
  · rfl
  · split <;> rfl

theorem createJob_recorded (db : Db) (id kind app : String) (status : Status) (now : Time) :
    Recorded db (createJob db id kind app status now).2 (createJob db id kind app status now).1 := by
  unfold createJob
  cases taken : db.jobs.get id with
  | some row => exact .nothing
  | none => exact (Change.Steps.job taken (.created rfl rfl rfl)).recorded

theorem startJob_recorded (db : Db) (id owner : String) (leaseMs : Int) (now : Time) :
    Recorded db (startJob db id owner leaseMs now).2 (startJob db id owner leaseMs now).1 :=
  updateJob_recorded (fun _ => rfl) fun _ _ waiting => .started (of_decide_eq_true waiting)

theorem claimNextJob_recorded (db : Db) (owner : String) (kinds : List String) (leaseMs : Int) (now : Time) :
    Recorded db (claimNextJob db owner kinds leaseMs now).2 (claimNextJob db owner kinds leaseMs now).1 := by
  unfold claimNextJob
  cases (candidates db kinds).find? (·.due now) with
  | none => exact .nothing
  | some next =>
    refine updateJob_recorded (fun _ => rfl) fun row _ matched => .claimed ?_
    exact of_decide_eq_true (Bool.and_eq_true_iff.mp matched).1

theorem heartbeat_recorded (db : Db) (fence : Fence) (leaseMs : Int) (now : Time) :
    Recorded db (heartbeat db fence leaseMs now).2 (heartbeat db fence leaseMs now).1 :=
  updateJob_recorded (fun _ => rfl) fun _ named holds => .worked named holds

theorem finishJob_recorded (db : Db) (fence : Fence) (status : TerminalStatus) (outcome : Option String)
    (now : Time) :
    Recorded db (finishJob db fence status outcome now).2 (finishJob db fence status outcome now).1 :=
  updateJob_recorded (fun _ => rfl) fun _ named holds => .finished named holds status.property

theorem recordJobOutcome_recorded (db : Db) (id : String) (status : TerminalStatus) (outcome : Option String)
    (now : Time) :
    Recorded db (recordJobOutcome db id status outcome now).2 (recordJobOutcome db id status outcome now).1 :=
  updateJob_recorded (fun _ => rfl) fun _ _ running => .recorded (of_decide_eq_true running) status.property

theorem annotateTerminalOutcome_recorded (db : Db) (id : String) (fromStatus : TerminalStatus)
    (outcome : Option String) (now : Time) :
    Recorded db (annotateTerminalOutcome db id fromStatus outcome now).2
      (annotateTerminalOutcome db id fromStatus outcome now).1 :=
  updateJob_recorded (fun _ => rfl) fun _ _ matched => .refined (of_decide_eq_true matched ▸ fromStatus.property)

theorem requeueJob_recorded (db : Db) (read : JobRow) (notBefore : Option Time) (now : Time) :
    Recorded db (requeueJob db read notBefore now).2 (requeueJob db read notBefore now).1 :=
  updateJob_recorded (fun _ => rfl) fun _ _ running => .requeued (of_decide_eq_true running)

theorem cancelQueuedJob_recorded (db : Db) (id : String) (outcome : Option String) (now : Time) :
    Recorded db (cancelQueuedJob db id outcome now).2 (cancelQueuedJob db id outcome now).1 :=
  updateJob_recorded (fun _ => rfl) fun _ _ waiting => .cancelled (of_decide_eq_true waiting)

theorem requestCancel_recorded (db : Db) (read : JobRow) (actor : String) (now : Time) :
    Recorded db (requestCancel db read actor now).2 (requestCancel db read actor now).1 :=
  updateJob_recorded (fun _ => rfl) fun _ _ _ => .requested

section

variable (patterns : Patterns) (db : Db)

theorem checkpoint_recorded (read : JobRow) (fence : Fence) (phase : String) (cp : Object)
    (progress : Option Object)
    (now : Time) :
    Recorded db (checkpoint patterns db read fence phase cp progress now).2
      (checkpoint patterns db read fence phase cp progress now).1 :=
  updateJob_recorded (fun _ => rfl) fun _ named holds => .worked named holds

theorem recordGenerated_recorded (read : JobRow) (fence : Fence) (resource : Resource) (now : Time) :
    Recorded db (recordGenerated patterns db read fence resource now).2
      (recordGenerated patterns db read fence resource now).1 :=
  updateJob_recorded (fun _ => rfl) fun _ named holds => .worked named holds

theorem recordProgress_recorded (read : JobRow) (fence : Fence) (progress : Object) (now : Time) :
    Recorded db (recordProgress patterns db read fence progress now).2
      (recordProgress patterns db read fence progress now).1 :=
  updateJob_recorded (fun _ => rfl) fun _ named holds => .worked named holds

theorem annotateJobProgress_recorded (read : JobRow) (progress : Object) (now : Time) :
    Recorded db (annotateJobProgress patterns db read progress now).2
      (annotateJobProgress patterns db read progress now).1 :=
  updateJob_recorded (fun _ => rfl) fun _ _ _ => .annotated

theorem annotate_recorded (id : String) (progress : Object) (now : Time) :
    Recorded db (annotate patterns db id progress now).2 (annotate patterns db id progress now).1 := by
  unfold annotate
  cases db.jobs.get id with
  | none => exact .nothing
  | some row => exact annotateJobProgress_recorded patterns db row progress now

end

theorem acquireLock_recorded (db : Db) (app owner operation : String) (jobId : Option String) (leaseMs : Int)
    (now : Time) :
    Recorded db (acquireLock db app owner operation jobId leaseMs now).2
      (acquireLock db app owner operation jobId leaseMs now).1 := by
  unfold acquireLock
  cases found : db.locks.get app with
  | none => exact Change.Steps.recorded (.lock found rfl (.acquired rfl rfl rfl rfl rfl))
  | some lock =>
    cases verdict : lockVerdict (some lock) owner now with
    | reasserted =>
      refine Change.Steps.recorded (.lock found ?_ .reasserted)
      exact Table.get_key found
    | free =>
      unfold lockVerdict at verdict
      grind
    | held => exact .nothing
    | stale => exact .nothing

theorem renewLock_recorded (db : Db) (app owner : String) (epoch : Nat) (leaseMs : Int) (now : Time) :
    Recorded db (renewLock db app owner epoch leaseMs now).2 (renewLock db app owner epoch leaseMs now).1 := by
  unfold renewLock
  cases found : db.locks.get app with
  | none => exact .nothing
  | some lock =>
    by_cases holds : lock.owner = owner ∧ lock.epoch = epoch
    · simp only [if_pos holds]
      exact Change.Steps.recorded (.lock found (show lock.app = app from Table.get_key found) .renewed)
    · simp only [if_neg holds]
      exact .nothing

theorem releaseLock_recorded (db : Db) (app owner : String) (epoch : Nat) :
    Recorded db (releaseLock db app owner epoch).2 (releaseLock db app owner epoch).1 := by
  unfold releaseLock
  cases found : db.locks.get app with
  | none => exact .nothing
  | some lock =>
    by_cases holds : lock.owner = owner ∧ lock.epoch = epoch
    · obtain ⟨rfl, rfl⟩ := holds
      simp only [and_self, if_true]
      exact (Change.Steps.unlock found .released).recorded
    · simp only [if_neg holds]
      exact .nothing

theorem takeoverLock_recorded (db : Db) (app taker operation : String) (jobId : Option String) (leaseMs : Int)
    (now : Time) :
    Recorded db (takeoverLock db app taker operation jobId leaseMs now).2
      (takeoverLock db app taker operation jobId leaseMs now).1 := by
  unfold takeoverLock
  cases found : db.locks.get app with
  | none => exact .nothing
  | some lock =>
    by_cases expired : lock.leaseExpired now = true
    · simp only [if_pos expired]
      exact Change.Steps.recorded (.lock found (show lock.app = app from Table.get_key found) .tookOver)
    · simp only [if_neg expired]
      exact .nothing

theorem markLockStale_recorded (db : Db) (app : String) (recoveryJobId : Option String) (now : Time) :
    Recorded db (markLockStale db app recoveryJobId now).2 (markLockStale db app recoveryJobId now).1 := by
  unfold markLockStale
  cases found : db.locks.get app with
  | none => exact .nothing
  | some lock => exact Change.Steps.recorded (.lock found (show lock.app = app from Table.get_key found) .marked)

theorem holdStaleLock_recorded (db : Db) (current : Option LockRow)
    (app owner operation jobId : String) (epoch : Nat)
    (now : Time) :
    Recorded db (holdStaleLock db current app owner operation jobId epoch now).2
      (holdStaleLock db current app owner operation jobId epoch now).1 := by
  unfold holdStaleLock
  cases current with
  | some _ => exact markLockStale_recorded db app (some jobId) now
  | none =>
    cases found : db.locks.get app with
    | some _ => exact .nothing
    | none => exact (Change.Steps.lock found rfl (.held rfl rfl rfl)).recorded

theorem clearStaleLock_recorded (db : Db) (app recoveryJobId : String) :
    Recorded db (clearStaleLock db app recoveryJobId).2 (clearStaleLock db app recoveryJobId).1 := by
  unfold clearStaleLock
  cases found : db.locks.get app with
  | none => exact .nothing
  | some lock =>
    by_cases records : lock.staleSince.isSome ∧ lock.recoveryJobId = some recoveryJobId
    · simp only [if_pos records]
      exact (Change.Steps.unlock found (.cleared records.1)).recorded
    · simp only [if_neg records]
      exact .nothing

theorem acknowledge_recorded (patterns : Patterns) (db : Db) (job : JobRow) (notes : Object)
    (origin : Option (String × Json)) (now : Time) :
    Recorded db (acknowledge patterns db job notes origin now).2
      (acknowledge patterns db job notes origin now).1 := by
  have outcome := annotateTerminalOutcome_recorded db job.id ⟨.recoveryRequired, rfl⟩
    (some (pendingOutcome job.kind ++ "_acknowledged")) now
  unfold acknowledge
  dsimp only
  split
  · exact .nothing
  · refine .andThen (.andThen (.andThen outcome fun db => ?_) fun db => ?_)
      fun db => clearStaleLock_recorded db job.app job.id
    · split
      · exact annotate_recorded patterns db job.id notes now
      · exact .nothing
    · split
      · exact annotate_recorded patterns db _ _ now
      · exact .nothing

theorem Db.given_recorded {passed : Option α} {turn : α → Turn}
    (recorded : ∀ value, Recorded db (turn value).log (turn value).db) :
    Recorded db (db.given passed turn).log (db.given passed turn).db := by
  cases passed with
  | none => exact .nothing
  | some value => exact recorded value

theorem call_recorded (db : Db) (call : Call) : Recorded db (db.call call).log (db.call call).db := by
  cases call with
  | createJob id kind app status now => exact createJob_recorded db id kind app status now
  | startJob id owner leaseMs now => exact startJob_recorded db id owner leaseMs now
  | claimNextJob owner kinds leaseMs now => exact claimNextJob_recorded db owner kinds leaseMs now
  | heartbeat fence leaseMs now => exact heartbeat_recorded db fence leaseMs now
  | checkpoint => exact .nothing
  | recordGenerated => exact .nothing
  | recordProgress => exact .nothing
  | finishJob fence status outcome progress now =>
    refine Db.given_recorded fun status => ?_
    split
    · exact .nothing
    · exact finishJob_recorded db fence status outcome now
  | requeueJob => exact .nothing
  | recordJobOutcome id status outcome now =>
    exact Db.given_recorded fun status => recordJobOutcome_recorded db id status outcome now
  | annotateTerminalOutcome id fromStatus outcome now =>
    exact Db.given_recorded fun fromStatus => annotateTerminalOutcome_recorded db id fromStatus outcome now
  | annotateJobProgress => exact .nothing
  | cancelQueuedJob id outcome now => exact cancelQueuedJob_recorded db id outcome now
  | requestCancel => exact .nothing
  | acquireLock app owner operation jobId leaseMs now =>
    exact acquireLock_recorded db app owner operation jobId leaseMs now
  | renewLock app owner epoch leaseMs now => exact renewLock_recorded db app owner epoch leaseMs now
  | releaseLock app owner epoch => exact releaseLock_recorded db app owner epoch
  | takeoverLock app taker operation jobId leaseMs now =>
    exact takeoverLock_recorded db app taker operation jobId leaseMs now
  | takeOverUnheld => exact .nothing
  | markLockStale app recoveryJobId now => exact markLockStale_recorded db app recoveryJobId now
  | holdStaleLock => exact .nothing
  | clearStaleLock app recoveryJobId => exact clearStaleLock_recorded db app recoveryJobId
  | acknowledgeUncertainJob => exact .nothing

theorem goes_recorded (patterns : Patterns) (db : Db) (statement : Statement) :
    Recorded db (db.goes patterns statement).log (db.goes patterns statement).db := by
  cases statement with
  | checkpoint read fence phase cp progress now =>
    exact checkpoint_recorded patterns db read fence phase cp progress now
  | recordGenerated read fence resource now => exact recordGenerated_recorded patterns db read fence resource now
  | recordProgress read fence progress now finish =>
    exact recordProgress_recorded patterns db read fence progress now
  | finishJob fence status outcome now => exact finishJob_recorded db fence status outcome now
  | requeueJob read notBefore now => exact requeueJob_recorded db read notBefore now
  | annotateJobProgress read progress now => exact annotateJobProgress_recorded patterns db read progress now
  | cancelQueued id now => exact cancelQueuedJob_recorded db id _ now
  | requestCancel read actor now => exact requestCancel_recorded db read actor now
  | leaseHold => exact .nothing
  | takeoverLock app taker operation jobId leaseMs now =>
    exact takeoverLock_recorded db app taker operation jobId leaseMs now
  | holdStaleLock current app owner operation jobId epoch now =>
    exact holdStaleLock_recorded db current app owner operation jobId epoch now
  | acknowledge job notes origin now => exact acknowledge_recorded patterns db job notes origin now

section

variable {db : Db} {holds : Change → Prop} {app : String}

variable {now : Time} {leaseMs : Int} {epoch : Nat}

variable {jobId : Option String} {owner : String}

theorem acquireLock_all {owner operation : String}
    (locks : ∀ old new, holds (.lock (.acquireLock jobId) app old new)) :
    ∀ change ∈ (acquireLock db app owner operation jobId leaseMs now).2, holds change := by
  unfold acquireLock
  split <;> simp [locks]

theorem renewLock_all
    (locks : ∀ old new, holds (.lock .renewLock app old new)) :
    ∀ change ∈ (renewLock db app owner epoch leaseMs now).2, holds change := by
  unfold renewLock
  split
  · simp
  · split <;> simp [locks]

theorem releaseLock_all
    (locks : ∀ old new, holds (.lock (.releaseLock owner epoch) app old new)) :
    ∀ change ∈ (releaseLock db app owner epoch).2, holds change := by
  unfold releaseLock
  split
  · simp
  · split <;> simp [locks]

theorem takeoverLock_all {taker operation : String}
    (locks : ∀ old new, holds (.lock (.takeoverLock jobId) app old new)) :
    ∀ change ∈ (takeoverLock db app taker operation jobId leaseMs now).2, holds change := by
  unfold takeoverLock
  split
  · simp
  · split <;> simp [locks]

theorem markLockStale_all {recoveryJobId : Option String}
    (locks : ∀ old new, holds (.lock .markLockStale app old new)) :
    ∀ change ∈ (markLockStale db app recoveryJobId now).2, holds change := by
  unfold markLockStale
  split <;> simp [locks]

theorem holdStaleLock_all {current : Option LockRow} {owner operation jobId : String}
    (marks : ∀ old new, holds (.lock .markLockStale app old new))
    (inserts : ∀ old new, holds (.lock .holdStaleLock app old new)) :
    ∀ change ∈ (holdStaleLock db current app owner operation jobId epoch now).2, holds change := by
  unfold holdStaleLock
  split
  · exact markLockStale_all marks
  · split <;> simp [inserts]

theorem clearStaleLock_all {recoveryJobId : String} (locks : ∀ old new, holds (.lock .clearStaleLock app old new)) :
    ∀ change ∈ (clearStaleLock db app recoveryJobId).2, holds change := by
  unfold clearStaleLock
  split
  · simp
  · split <;> simp [locks]

end

section

variable {db : Db} {holds : Change → Prop}

variable {now : Time}

theorem createJob_all {id kind app : String} {status : Status}
    (creates : ∀ new, holds (.job .createJob [] none new)) :
    ∀ change ∈ (createJob db id kind app status now).2, holds change := by
  unfold createJob
  split <;> simp [creates]

theorem claimNextJob_all {owner : String} {kinds : List String} {leaseMs : Int}
    (claims : ∀ next ∈ candidates db kinds, ∀ row, db.jobs.get next.id = some row → ∀ lease at_,
      holds (.job (.claimNextJob owner) ["not_before"] (some row)
        { row with
          status := .running, owner := some owner, epoch := row.epoch + 1, leaseExpiresAt :=
            lease, startedAt := at_,
          updatedAt := now, progress := next.waited })) :
    ∀ change ∈ (claimNextJob db owner kinds leaseMs now).2, holds change := by
  unfold claimNextJob
  cases first : (candidates db kinds).find? (·.due now) with
  | none => simp
  | some next => exact updateJob_all fun row found _ => claims next (List.mem_of_find?_eq_some first) row found _ _

theorem Db.given_all {passed : Option α} {turn : α → Turn}
    (all : ∀ value, ∀ change ∈ (turn value).log, holds change) :
    ∀ change ∈ (db.given passed turn).log, holds change := by
  cases passed with
  | none => simp [Db.given, Db.unchanged]
  | some value => exact all value

theorem Written.andThen_all {first : Written} {second : Db → Written} (before : ∀ change ∈ first.2, holds change)
    (later : ∀ change ∈ (second first.1).2, holds change) : ∀ change ∈ (first.andThen second).2, holds change := by
  intro change member
  cases List.mem_append.mp member with
  | inl early => exact before change early
  | inr late => exact later change late

theorem annotate_all {patterns : Patterns} {id : String} {progress : Object}
    (notes : ∀ row, db.jobs.get id = some row →
      holds (.job .annotateJobProgress (progress.rows.map Field.name) (some row)
        { row with progress := row.progress.spread (progress.redact patterns), updatedAt := now })) :
    ∀ change ∈ (annotate patterns db id progress now).2, holds change := by
  unfold annotate
  cases read : db.jobs.get id with
  | none => simp
  | some row =>
    refine updateJob_all fun stored found _ => ?_
    have same : stored = row := by
      rw [show row.id = id from Table.get_key read, read] at found
      exact (Option.some.inj found).symm
    exact same ▸ notes row read

theorem annotate_locks (patterns : Patterns) (db : Db) (id : String) (progress : Object) (now : Time) :
    (annotate patterns db id progress now).1.locks = db.locks := by
  unfold annotate
  cases db.jobs.get id with
  | none => rfl
  | some row => exact updateJob_locks _ _ _ _ _ _

theorem acknowledge_all {patterns : Patterns} {job : JobRow} {notes : Object} {origin : Option (String × Json)}
    (clears : ∀ after : Db, after.locks = db.locks →
    ∀ change ∈ (clearStaleLock after job.app job.id).2, holds change)
    (refines : ∀ row, db.jobs.get job.id = some row → row.status = .recoveryRequired →
      holds (.job .annotateTerminalOutcome [] (some row)
        { row with outcome := some (pendingOutcome job.kind ++ "_acknowledged"), updatedAt := now }))
    (noted : SETUP_JOB_KINDS.contains job.kind = true → ∀ db : Db,
      ∀ change ∈ (annotate patterns db job.id notes now).2, holds change)
    (mirrored : ∀ id setup, origin = some (id, setup) → SETUP_JOB_KINDS.contains job.kind = true → ∀ db : Db,
      ∀ change ∈ (annotate patterns db id (Object.set ∅ "setup" setup) now).2, holds change) :
    ∀ change ∈ (acknowledge patterns db job notes origin now).2, holds change := by
  have outcome : ∀ change ∈ (annotateTerminalOutcome db job.id ⟨.recoveryRequired, rfl⟩
      (some (pendingOutcome job.kind ++ "_acknowledged")) now).2, holds change :=
    updateJob_all fun row found matched => refines row found (of_decide_eq_true matched)
  unfold acknowledge
  dsimp only
  split
  · simp
  · refine Written.andThen_all (Written.andThen_all (Written.andThen_all outcome ?_) ?_) (clears _ ?_)
    · split
      case isTrue setup => exact noted setup _
      case isFalse => simp
    · split
      case h_1 id setup found =>
          obtain ⟨named, kind⟩ := Option.filter_eq_some_iff.mp found
          exact mirrored id setup named kind _
      case h_2 => simp
    · unfold Written.andThen
      dsimp only
      have first : (annotateTerminalOutcome db job.id ⟨.recoveryRequired, rfl⟩
          (some (pendingOutcome job.kind ++ "_acknowledged")) now).1.locks = db.locks := updateJob_locks _ _ _ _ _ _
      split
      case h_1 =>
          rw [annotate_locks]
          split
          · rw [annotate_locks, first]
          · exact first
      case h_2 =>
          split
          · rw [annotate_locks, first]
          · exact first

end

/-- The statement a label makes the engine issue. -/
inductive Issues (patterns : Patterns) (state : State) : Label → Turn → Prop where
  | call (call : Call) : Issues patterns state (.call call) (state.db.call call)
  | goes {token : Nat} {pending : Pending} (waits : state.pending.get token = some pending) :
      Issues patterns state (.goes token) (state.db.goes patterns pending.statement)

variable {patterns : Patterns} {state after : State} {label : Label}

theorem Issues.recorded {turn : Turn} (issued : Issues patterns state label turn) :
    Recorded state.db turn.log turn.db := by
  cases issued with
  | call call => exact call_recorded state.db call
  | goes _ => exact goes_recorded patterns state.db _

theorem step_issues (moved : step patterns state label = some after) :
    ∃ turn, Issues patterns state label turn ∧ after.db = turn.db ∧ after.log = state.log ++ turn.log := by
  have kept (state : State) (turn : Turn) :
      (state.after turn).db = turn.db ∧ (state.after turn).log = state.log ++ turn.log := by
    unfold State.after
    split <;> exact ⟨rfl, rfl⟩
  cases label with
  | call call =>
    obtain rfl := Option.some.inj moved
    exact ⟨_, .call call, kept state _⟩
  | goes token =>
    obtain ⟨pending, waits, rfl⟩ := Option.map_eq_some_iff.mp moved
    exact ⟨_, .goes waits, kept _ _⟩

/-- An invariant of the rows and their history, kept by every sound change. -/
theorem step_preserves (holds : Db → List Change → Prop) (sound : Change → Prop)
    (each : ∀ {db after : Db} {log : List Change} {change : Change}, holds db log → sound change →
      change.Steps db after → holds after (log ++ [change]))
    (all : ∀ {turn}, Issues patterns state label turn → ∀ change ∈ turn.log, sound change)
    (before : holds state.db state.log) (moved : step patterns state label = some after) :
    holds after.db after.log := by
  obtain ⟨turn, issued, db, log⟩ := step_issues moved
  rw [db, log]
  exact issued.recorded.preserves holds sound each state.log before (all issued)

/-- The history of a run writes its tables. -/
theorem exec_recorded {labels : List Label} (ran : (engine patterns).exec .initial labels = some state) :
    Recorded .empty state.log state.db :=
  (engine patterns).exec_preserves (fun state => Recorded .empty state.log state.db)
    (fun {middle label after} before moved => by
      obtain ⟨turn, issued, db, log⟩ := step_issues moved
      rw [db, log]
      exact before.append issued.recorded)
    .nothing ran

end ProxyPilot.Setup
