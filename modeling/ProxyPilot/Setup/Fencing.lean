import ProxyPilot.Setup.Effects
import ProxyPilot.Data.History

namespace ProxyPilot.Setup

open Data Transition

/-- The pair a `startJob` or a `claimNextJob` hands out. -/
def Change.handed : Change → Option Fence
  | .job (.startJob owner) _ _ new => some ⟨new.id, owner, new.epoch⟩
  | .job (.claimNextJob owner) _ _ new => some ⟨new.id, owner, new.epoch⟩
  | _ => none

/-- The pairs handed out for a job, in order. -/
def handedOut (log : List Change) (id : String) : List Fence :=
  (log.filterMap Change.handed).filter (·.id = id)

/-- The fence of a `checkpoint`, `recordGenerated`, `recordProgress` or
`finishJob` that changed the row. -/
def Change.fence : Change → Option Fence
  | .job (.worker _ .heartbeat) _ _ _ => none
  | .job (.worker fence _) _ _ _ => some fence
  | _ => none

/-- A `startJob` takes its job at epoch 0. -/
def Change.Fresh : Change → Prop
  | .job (.startJob _) _ (some old) _ => old.epoch = 0
  | _ => True

def startsFresh (state : State) : Label → Bool
  | .call (.startJob id _ _ _) => (state.db.jobs.get id).all fun row => row.status ≠ .queued || row.epoch = 0
  | _ => true

/-- `startJob` does not take a queued job that was handed out before. -/
def StartsFresh (state : State) (label : Label) : Prop := startsFresh state label = true

instance (state : State) (label : Label) : Decidable (StartsFresh state label) :=
  inferInstanceAs (Decidable (_ = true))

/-- A fenced write comes from the pair handed out last. -/
def FromHolder (before : List Change) (change : Change) : Prop :=
  ∀ fence, change.fence = some fence → (handedOut before fence.id).getLast? = some fence

structure Fenced (db : Db) (log : List Change) : Prop where
  bounded : ∀ id, ∀ fence ∈ handedOut log id, ∃ row, db.jobs.get id = some row ∧ fence.epoch ≤ row.epoch
  increasing : ∀ id, (handedOut log id).Pairwise (·.epoch < ·.epoch)
  held : ∀ id row owner, db.jobs.get id = some row → row.status = .running → row.owner = some owner →
    (handedOut log id).getLast? = some ⟨id, owner, row.epoch⟩
  written : Obeys FromHolder log

theorem handedOut_append (log : List Change) (change : Change) (id : String) :
    handedOut (log ++ [change]) id = handedOut log id ++ (change.handed.toList.filter (·.id = id)) := by
  unfold handedOut
  rw [List.filterMap_append, List.filter_append]
  cases handed : change.handed <;> simp [handed]

theorem handedOut_silent {change : Change} (silent : change.handed = none) (log : List Change) (id : String) :
    handedOut (log ++ [change]) id = handedOut log id := by
  rw [handedOut_append, silent]
  simp

theorem handedOut_id {log : List Change} {id : String} {fence : Fence} (member : fence ∈ handedOut log id) :
    fence.id = id := of_decide_eq_true (List.mem_filter.mp member).2

theorem Fenced.empty : Fenced .empty [] where
  bounded := fun _ _ member => absurd member (by simp [handedOut])
  increasing := fun _ => .nil
  held := fun id row owner found => by
    rw [show Db.empty.jobs = ∅ from rfl, Table.get_empty] at found
    contradiction
  written := .nil

section

variable {db : Db} {log : List Change} {old new : JobRow}

/-- A change that hands nothing out: the epoch stays, and only the holder keeps
running. -/
theorem Fenced.keep (fenced : Fenced db log) {writer : Writer} {names : List String}
    (found : db.jobs.get new.id = some old) (silent : (Change.job writer names (some old) new).handed = none)
    (epoch : new.epoch = old.epoch)
    (holder : new.status = .running → ∀ owner, new.owner = some owner → old.status = .running ∧
    old.owner = some owner)
    (law : FromHolder log (.job writer names (some old) new)) :
    Fenced { db with jobs := db.jobs.put new } (log ++ [.job writer names (some old) new]) where
  bounded := by
    intro id fence member
    rw [handedOut_silent silent] at member
    obtain ⟨row, stored, bound⟩ := fenced.bounded id fence member
    by_cases same : id = new.id
    · subst same
      rw [found] at stored
      cases stored
      exact ⟨new, Table.get_put_self _ _, epoch ▸ bound⟩
    · exact ⟨row, (Table.get_put_other _ same).trans stored, bound⟩
  increasing := fun id => by
    rw [handedOut_silent silent]
    exact fenced.increasing id
  held := by
    intro id row owner stored running owned
    rw [handedOut_silent silent]
    dsimp only at stored
    rw [Table.get_put] at stored
    by_cases same : id = Keyed.key new
    · rw [if_pos same] at stored
      cases stored
      obtain ⟨wasRunning, wasOwned⟩ := holder running owner owned
      rw [epoch, same]
      exact fenced.held new.id old owner found wasRunning wasOwned
    · rw [if_neg same] at stored
      exact fenced.held id row owner stored running owned
  written := fenced.written.snoc law

/-- A change that hands out a later epoch. -/
theorem Fenced.hand (fenced : Fenced db log) {writer : Writer} {names : List String} {owner : String}
    (found : db.jobs.get new.id = some old)
    (handed : (Change.job writer names (some old) new).handed = some ⟨new.id, owner, new.epoch⟩)
    (later : new.epoch = old.epoch + 1) (owned : new.owner = some owner)
    (unfenced : (Change.job writer names (some old) new).fence = none) :
    Fenced { db with jobs := db.jobs.put new } (log ++ [.job writer names (some old) new]) := by
  have self : handedOut (log ++ [.job writer names (some old) new]) new.id =
      handedOut log new.id ++ [⟨new.id, owner, new.epoch⟩] := by
    rw [handedOut_append, handed]
    simp
  have other {id : String} (different : id ≠ new.id) :
      handedOut (log ++ [.job writer names (some old) new]) id = handedOut log id := by
    rw [handedOut_append, handed]
    simp [Ne.symm different]
  have below : ∀ fence ∈ handedOut log new.id, fence.epoch < new.epoch := by
    intro fence member
    obtain ⟨row, stored, bound⟩ := fenced.bounded new.id fence member
    rw [found] at stored
    cases stored
    omega
  refine ⟨?_, ?_, ?_, fenced.written.snoc fun fence wrote => ?_⟩
  · intro id fence member
    by_cases same : id = new.id
    · subst same
      refine ⟨new, Table.get_put_self _ _, ?_⟩
      rw [self] at member
      cases List.mem_append.mp member with
      | inl earlier => exact (below fence earlier).le
      | inr last => rw [List.mem_singleton.mp last]
    · rw [other same] at member
      obtain ⟨row, stored, bound⟩ := fenced.bounded id fence member
      exact ⟨row, (Table.get_put_other _ same).trans stored, bound⟩
  · intro id
    by_cases same : id = new.id
    · subst same
      rw [self]
      refine List.pairwise_append.mpr ⟨fenced.increasing _, List.pairwise_singleton _ _,
        fun fence member last inside => ?_⟩
      rw [List.mem_singleton.mp inside]
      exact below fence member
    · rw [other same]
      exact fenced.increasing id
  · intro id row holder stored running held
    dsimp only at stored
    rw [Table.get_put] at stored
    by_cases same : id = Keyed.key new
    · rw [if_pos same] at stored
      cases stored
      rw [owned] at held
      cases held
      rw [same]
      exact (congrArg List.getLast? self).trans List.getLast?_concat
    · rw [if_neg same] at stored
      rw [other same]
      exact fenced.held id row holder stored running held
  · rw [unfenced] at wrote
    contradiction

end

theorem Fence.holds_iff {fence : Fence} {row : JobRow} :
    fence.holds row = true ↔ row.owner = some fence.owner ∧ row.epoch = fence.epoch ∧ row.status = .running := by
  unfold Fence.holds
  simp [and_assoc]

/-- A row a fence matches is held by the fence. -/
theorem Fenced.latest {db : Db} {log : List Change} (fenced : Fenced db log) {fence : Fence} {row : JobRow}
    (found : db.jobs.get fence.id = some row) (holds : fence.holds row = true) :
    (handedOut log fence.id).getLast? = some fence := by
  obtain ⟨owned, epoch, running⟩ := Fence.holds_iff.mp holds
  have last := fenced.held fence.id row fence.owner found running owned
  rwa [epoch] at last

theorem Fenced.create {db : Db} {log : List Change} (fenced : Fenced db log) {names : List String} {new : JobRow}
    (fresh : db.jobs.get new.id = none) (unowned : new.owner = none) :
    Fenced { db with jobs := db.jobs.put new } (log ++ [.job .createJob names none new]) where
  bounded := by
    intro id fence member
    rw [handedOut_silent rfl] at member
    obtain ⟨row, stored, bound⟩ := fenced.bounded id fence member
    refine ⟨row, (Table.get_put_other _ fun same => ?_).trans stored, bound⟩
    rw [show id = new.id from same, fresh] at stored
    contradiction
  increasing := fun id => by
    rw [handedOut_silent rfl]
    exact fenced.increasing id
  held := by
    intro id row owner stored running owned
    rw [handedOut_silent rfl]
    dsimp only at stored
    rw [Table.get_put] at stored
    by_cases same : id = Keyed.key new
    · rw [if_pos same] at stored
      cases stored
      rw [unowned] at owned
      contradiction
    · rw [if_neg same] at stored
      exact fenced.held id row owner stored running owned
  written := fenced.written.snoc fun _ wrote => by simp [Change.fence] at wrote

theorem Fenced.locks {db : Db} {log : List Change} (fenced : Fenced db log) {writer : LockWriter} {app : String}
    {old new : Option LockRow} (locks : Table LockRow) :
    Fenced { db with locks } (log ++ [.lock writer app old new]) where
  bounded := fun id fence member => fenced.bounded id fence (by rwa [handedOut_silent rfl] at member)
  increasing := fun id => by
    rw [handedOut_silent rfl]
    exact fenced.increasing id
  held := fun id row owner found running owned => by
    rw [handedOut_silent rfl]
    exact fenced.held id row owner found running owned
  written := fenced.written.snoc fun _ wrote => by simp [Change.fence] at wrote

theorem Fenced.steps {db after : Db} {log : List Change} {change : Change} (fenced : Fenced db log)
    (fresh : change.Fresh) (stepped : change.Steps db after) : Fenced after (log ++ [change]) := by
  cases stepped with
  | lock => exact fenced.locks _
  | unlock => exact fenced.locks _
  | job found moved =>
    cases moved with
    | created unowned => exact fenced.create found unowned
    | started waiting =>
      have zero : _ = 0 := fresh
      exact fenced.hand found rfl (by rw [zero]) rfl rfl
    | claimed waiting => exact fenced.hand found rfl rfl rfl rfl
    | @worked row fence call _ _ _ _ _ named holds =>
      have running := (Fence.holds_iff.mp holds).2.2
      have latest := fenced.latest (named ▸ found : _ = some row) holds
      refine fenced.keep found rfl rfl (fun _ owner owned => ⟨running, owned⟩) fun other wrote => ?_
      cases call with
      | heartbeat => contradiction
      | _ => exact Option.some.inj wrote ▸ latest
    | @finished row fence status _ _ _ named holds terminal =>
      have latest := fenced.latest (named ▸ found : _ = some row) holds
      refine fenced.keep found rfl rfl (fun running => ?_) fun other wrote => Option.some.inj wrote ▸ latest
      rw [show status = .running from running] at terminal
      contradiction
    | requeued running => exact fenced.keep found rfl rfl (by simp) fun _ wrote => by simp [Change.fence] at wrote
    | @recorded row status _ _ _ running terminal =>
      refine fenced.keep found rfl rfl (fun running => ?_) fun _ wrote => by simp [Change.fence] at wrote
      rw [show status = .running from running] at terminal
      contradiction
    | cancelled waiting => exact fenced.keep found rfl rfl (by simp) fun _ wrote => by simp [Change.fence] at wrote
    | refined terminal =>
      exact fenced.keep found rfl rfl (fun running _ owned => ⟨running, owned⟩) fun _ wrote => by
        simp [Change.fence] at wrote
    | requested =>
      exact fenced.keep found rfl rfl (fun running _ owned => ⟨running, owned⟩) fun _ wrote => by
        simp [Change.fence] at wrote
    | annotated =>
      exact fenced.keep found rfl rfl (fun running _ owned => ⟨running, owned⟩) fun _ wrote => by
        simp [Change.fence] at wrote

theorem Issues.fresh {patterns : Patterns} {state : State} {label : Label} {turn : Turn}
    (starts : StartsFresh state label) (issued : Issues patterns state label turn) :
    ∀ change ∈ turn.log, change.Fresh := by
  have nothing : ∀ change ∈ ([] : List Change), change.Fresh := by simp
  cases issued with
  | call call =>
    cases call with
    | createJob => exact createJob_all fun _ => trivial
    | startJob id owner leaseMs now =>
      refine updateJob_all fun row found waiting => ?_
      unfold StartsFresh startsFresh at starts
      simpa [found, of_decide_eq_true waiting, Change.Fresh] using starts
    | claimNextJob => exact claimNextJob_all fun _ _ _ _ _ _ => trivial
    | finishJob fence status outcome progress now =>
      refine Db.given_all fun status => ?_
      split
      · exact nothing
      · exact updateJob_all fun _ _ _ => trivial
    | recordJobOutcome => exact Db.given_all fun _ => updateJob_all fun _ _ _ => trivial
    | annotateTerminalOutcome => exact Db.given_all fun _ => updateJob_all fun _ _ _ => trivial
    | heartbeat => exact updateJob_all fun _ _ _ => trivial
    | cancelQueuedJob => exact updateJob_all fun _ _ _ => trivial
    | acquireLock => exact acquireLock_all fun _ _ => trivial
    | renewLock => exact renewLock_all fun _ _ => trivial
    | releaseLock => exact releaseLock_all fun _ _ => trivial
    | takeoverLock => exact takeoverLock_all fun _ _ => trivial
    | markLockStale => exact markLockStale_all fun _ _ => trivial
    | clearStaleLock => exact clearStaleLock_all fun _ _ => trivial
    | checkpoint | recordGenerated | recordProgress | requeueJob | annotateJobProgress | requestCancel
    | takeOverUnheld | holdStaleLock | acknowledgeUncertainJob => exact nothing
  | @goes token pending _ =>
    cases pending.statement with
    | takeoverLock => exact takeoverLock_all fun _ _ => trivial
    | holdStaleLock => exact holdStaleLock_all (fun _ _ => trivial) fun _ _ => trivial
    | leaseHold => exact nothing
    | acknowledge =>
      exact acknowledge_all (fun _ _ => clearStaleLock_all fun _ _ => trivial)
        (fun _ _ _ => trivial) (fun _ _ => annotate_all fun _ _ => trivial)
        fun _ _ _ _ _ => annotate_all fun _ _ => trivial
    | checkpoint | recordGenerated | recordProgress | finishJob | requeueJob | annotateJobProgress | cancelQueued
    | requestCancel => exact updateJob_all fun _ _ _ => trivial

def JobStands (id : String) (status : Status) (db : Db) (_ : List Change) : Prop :=
  ∃ row, db.jobs.get id = some row ∧ row.status = status

theorem JobMove.terminal_stays {writer : Writer} {old new : JobRow} (moved : JobMove writer (some old) new)
    (terminal : old.status.terminal = true) : new.status = old.status := by
  have open_ {status : Status} (stood : old.status = status) (ongoing : status.terminal = false) : False := by
    rw [stood, ongoing] at terminal
    contradiction
  cases moved with
  | started waiting => exact (open_ waiting rfl).elim
  | claimed waiting => exact (open_ waiting rfl).elim
  | worked => rfl
  | finished _ holds => exact (open_ (Fence.holds_iff.mp holds).2.2 rfl).elim
  | requeued running => exact (open_ running rfl).elim
  | recorded running => exact (open_ running rfl).elim
  | cancelled waiting => exact (open_ waiting rfl).elim
  | refined => rfl
  | requested => rfl
  | annotated => rfl

theorem JobStands.steps {id : String} {status : Status} (terminal : status.terminal = true) {db after : Db}
    {log : List Change} {change : Change} (stands : JobStands id status db log) (stepped : change.Steps db after) :
    JobStands id status after (log ++ [change]) := by
  obtain ⟨row, found, stood⟩ := stands
  cases stepped with
  | lock => exact ⟨row, found, stood⟩
  | unlock => exact ⟨row, found, stood⟩
  | @job writer _ old new stored moved =>
    by_cases same : id = new.id
    · subst same
      rw [found] at stored
      subst stored
      exact ⟨new, Table.get_put_self _ _, (moved.terminal_stays (stood ▸ terminal)).trans stood⟩
    · exact ⟨row, (Table.get_put_other _ same).trans found, stood⟩

theorem JobStands.exec {patterns : Patterns} {id : String} {status : Status} (terminal : status.terminal = true)
    {state after : State} {labels : List Label} (stands : JobStands id status state.db state.log)
    (ran : (engine patterns).exec state labels = some after) : JobStands id status after.db after.log :=
  (engine patterns).exec_preserves (fun state => JobStands id status state.db state.log)
    (fun before moved => step_preserves (JobStands id status) (fun _ => True)
      (fun before _ stepped => before.steps terminal stepped)
      (fun _ _ _ => trivial) before moved)
    stands ran

theorem fenced_exec {patterns : Patterns} {labels : List Label} {state : State}
    (along : (engine patterns).Along StartsFresh .initial labels)
    (ran : (engine patterns).exec .initial labels = some state) : Fenced state.db state.log :=
  (engine patterns).exec_preserves_along StartsFresh (fun state => Fenced state.db state.log)
    (fun before starts moved =>
      step_preserves Fenced Change.Fresh (fun fenced fresh stepped => fenced.steps fresh stepped)
      (fun issued => issued.fresh starts) before moved)
    along Fenced.empty ran

theorem Fenced.passes {db : Db} {log : List Change} (fenced : Fenced db log) {later : Db}
    {fence : Fence} {safe : Bool}
    {leaseMs : Int} {now : Time} (passed : fenceJob db later fence safe leaseMs now = .passed) :
    (handedOut log fence.id).getLast? = some fence ∧
      ∃ row, db.jobs.get fence.id = some row ∧ row.status = .running := by
  have changed : (heartbeat db fence leaseMs now).2 ≠ [] := by
    intro missed
    unfold fenceJob at passed
    rw [missed] at passed
    contradiction
  obtain ⟨change, member⟩ := List.exists_mem_of_ne_nil _ changed
  obtain ⟨row, found, holds, _⟩ := updateJob_change member
  exact ⟨fenced.latest found holds, row, found, (Fence.holds_iff.mp holds).2.2⟩

/-- The last of strictly increasing epochs is above every other. -/
theorem Fenced.superseded {db : Db} {log : List Change} (fenced : Fenced db log) {before after : List Change}
    {change : Change} {fence next : Fence} (split : log = before ++ change :: after)
    (earlier : fence ∈ handedOut before next.id) (handed : change.handed = some next) :
    ∀ later ∈ after, later.fence ≠ some fence := by
  intro later member wrote
  obtain ⟨middle, rest, rfl⟩ := List.append_of_mem member
  have same := handedOut_id earlier
  have holder : (handedOut (before ++ change :: middle) next.id).getLast? = some fence := by
    have last := fenced.written (before ++ change :: middle) later rest (by simpa using split) fence wrote
    rwa [same] at last
  have increasing := fenced.increasing next.id
  have parts : ∀ suffix, handedOut (before ++ change :: suffix) next.id =
      handedOut before next.id ++ next :: handedOut suffix next.id := by
    intro suffix
    unfold handedOut
    simp [List.filterMap_append, handed]
  rw [split, parts] at increasing
  rw [parts, List.getLast?_append, List.getLast?_cons] at holder
  have above := (List.pairwise_append.mp increasing).2.2 fence earlier
  have self : fence ∈ next :: handedOut (middle ++ later :: rest) next.id := by
    have inside : fence ∈ next :: handedOut middle next.id := by
      have last :=
        List.getLast?_eq_some_iff.mp (show (next :: handedOut middle next.id).getLast? = some fence from by
        rw [List.getLast?_cons]
        simpa using holder)
      obtain ⟨front, eq⟩ := last
      rw [eq]
      simp
    have grows : handedOut middle next.id ⊆ handedOut (middle ++ later :: rest) next.id := by
      unfold handedOut
      rw [List.filterMap_append, List.filter_append]
      exact List.subset_append_left _ _
    cases List.mem_cons.mp inside with
    | inl same => exact same ▸ List.mem_cons_self
    | inr late => exact List.mem_cons_of_mem _ (grows late)
  exact absurd (above fence self) (lt_irrefl _)

/-- Where `startJob` takes only jobs at epoch 0, the pairs of a job fence each
other; a terminal status stays in every run. -/
theorem fencing_of_fresh_starts {patterns : Patterns} {labels : List Label} {state : State}
    (along : (engine patterns).Along StartsFresh .initial labels)
    (ran : (engine patterns).exec .initial labels = some state) :
    (∀ id, (handedOut state.log id).Pairwise (·.epoch < ·.epoch) ∧ (handedOut state.log id).Nodup) ∧
    (∀ later fence safe leaseMs now, fenceJob state.db later fence safe leaseMs now = .passed →
      (handedOut state.log fence.id).getLast? = some fence ∧
        ∃ row, state.db.jobs.get fence.id = some row ∧ row.status = .running) ∧
    (∀ before change after fence next, state.log = before ++ change :: after →
      fence ∈ handedOut before next.id → change.handed = some next → ∀ later ∈ after, later.fence ≠ some fence) ∧
    ∀ rest final id row, (engine patterns).exec state rest = some final → state.db.jobs.get id = some row →
      row.status.terminal = true → ∃ row', final.db.jobs.get id = some row' ∧ row'.status = row.status := by
  have fenced := fenced_exec along ran
  refine ⟨fun id => ⟨fenced.increasing id, (fenced.increasing id).imp ?_⟩, fun later fence safe leaseMs now => ?_,
    fun before change after fence next => fenced.superseded, ?_⟩
  · intro first second lower same
    rw [same] at lower
    exact lt_irrefl _ lower
  · exact fenced.passes
  · intro rest final id row later found terminal
    exact JobStands.exec terminal ⟨row, found, rfl⟩ later

/-- Nothing of the texts below is a secret. -/
def plainText : Patterns := ⟨id, fun _ => false, fun _ _ => false⟩

/-- A job is claimed, requeued and started again. -/
def requeuedStart : List Label :=
  [.call (.createJob "j" "deploy" "app" .queued 0), .call (.claimNextJob "A" ["deploy"] 1000 1),
    .call (.requeueJob "j" none 2), .goes 0, .call (.startJob "j" "A" 1000 3),
    .call (.recordProgress ⟨"j", "A", 1⟩ ∅ 4), .goes 1]

/-- `startJob` hands out the pair of the claim again, and its worker writes. -/
theorem requeued_start_repeats_pair :
    ∃ state, (engine plainText).exec .initial requeuedStart = some state ∧
      handedOut state.log "j" = [⟨"j", "A", 1⟩, ⟨"j", "A", 1⟩] ∧
      (state.log.getLast?.bind Change.fence) = some ⟨"j", "A", 1⟩ ∧
      ¬ (∀ id, (handedOut state.log id).Pairwise (·.epoch < ·.epoch) ∧ (handedOut state.log id).Nodup) := by
  refine ⟨_, rfl, rfl, rfl, fun all => ?_⟩
  exact absurd (all "j").2 (by decide)

/-- A started job is requeued and claimed. -/
def requeuedClaim : List Label :=
  [.call (.createJob "j" "deploy" "app" .queued 0), .call (.startJob "j" "A" 1000 1),
    .call (.requeueJob "j" none 2),
    .goes 0, .call (.claimNextJob "B" ["deploy"] 1000 3)]

theorem fencing_of_fresh_starts_requeuedClaim :
    ∃ state, (engine plainText).exec .initial requeuedClaim = some state ∧
      handedOut state.log "j" = [⟨"j", "A", 1⟩, ⟨"j", "B", 2⟩] ∧
      ∀ id, (handedOut state.log id).Pairwise (·.epoch < ·.epoch) ∧ (handedOut state.log id).Nodup :=
  have along : (engine plainText).Along StartsFresh .initial requeuedClaim := by decide
  ⟨_, rfl, rfl, (fencing_of_fresh_starts along rfl).1⟩

end ProxyPilot.Setup
