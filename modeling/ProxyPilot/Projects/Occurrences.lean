import ProxyPilot.Projects.Tasks

namespace ProxyPilot.Projects

open Data Transition

/-! # A scheduled run starts once

An occurrence is inserted once for its schedule and wall time, and only the tick
that inserted it may start it.
-/

variable {state after : TaskState} {zones : Zones}

variable {actor : Actor} {store : Store} {tasks : Table Task} {pid : String} {now : Int}
  {id : String}

theorem browserConfiguration_id {pid cid : String} {configuration : Configuration}
    (read : store.browserConfiguration actor pid cid = .ok configuration) : configuration.id = cid := by
  obtain ⟨_, _, read⟩ := bind_ok.mp read
  exact Table.get_key (Option.filter_eq_some_iff.mp (demand_ok.mp read)).1

theorem task_ok {row : Task} (read : task tasks pid = .ok row) :
    tasks.get pid = some row := demand_ok.mp read

variable {accepted : Accepted} {gates : Gates} {expected : Nat} {uuid : String}
  {answer : Answer TaskState}

/-- Pins are taken from the configuration of the task. -/
theorem pins_task
    (pinned : pins store tasks actor pid = .ok accepted) :
    ∃ row, tasks.get pid = some row ∧ row.configurationId = some accepted.configuration.id := by
  obtain ⟨project, _, pinned⟩ := bind_ok.mp pinned
  obtain ⟨row, found, pinned⟩ := bind_ok.mp pinned
  obtain ⟨cid, configured, pinned⟩ := bind_ok.mp pinned
  obtain ⟨configuration, read, pinned⟩ := bind_ok.mp pinned
  obtain ⟨guide, _, pinned⟩ := bind_ok.mp pinned
  obtain ⟨consent, _, pinned⟩ := bind_ok.mp pinned
  obtain ⟨_, _, pinned⟩ := bind_ok.mp pinned
  cases pinned
  exact ⟨row, task_ok found, by rw [demand_ok.mp configured, browserConfiguration_id read]⟩

theorem saveSchedule_ok {pid uuid : String} {input : ScheduleInput} {expected : Option Nat}
    (saved : saveSchedule zones state gates actor pid input expected uuid now = .ok after) :
    ∃ row accepted, pins state.store state.tasks actor pid = .ok accepted ∧ row.projectId = pid ∧
      row.pins = accepted.pins ∧
      row.id = ((standing state.schedules pid).map Schedule.id).getD uuid ∧
      after = { state with schedules := upsertSchedule state.schedules row } := by
  obtain ⟨timing, _, saved⟩ := bind_ok.mp saved
  obtain ⟨_, _, saved⟩ := bind_ok.mp saved
  obtain ⟨_, _, saved⟩ := bind_ok.mp saved
  obtain ⟨_, _, saved⟩ := bind_ok.mp saved
  obtain ⟨next, _, saved⟩ := bind_ok.mp saved
  obtain ⟨accepted, pinned, saved⟩ := bind_ok.mp saved
  obtain ⟨_, _, saved⟩ := bind_ok.mp saved
  obtain ⟨_, _, saved⟩ := bind_ok.mp saved
  obtain ⟨_, _, saved⟩ := bind_ok.mp saved
  obtain ⟨_, _, saved⟩ := bind_ok.mp saved
  obtain ⟨_, _, saved⟩ := bind_ok.mp saved
  exact ⟨_, accepted, pinned, rfl, rfl, rfl, (Except.ok.inj saved).symm⟩

theorem scheduleState_ok {pid id : String} {deletes : Bool}
    (changed : scheduleState state actor pid id expected deletes = .ok after) :
    ∃ row next, state.schedules.get id = some row ∧ next ≠ .enabled ∧
      after = { state with schedules := state.schedules.put (row.stop next) } := by
  obtain ⟨_, _, changed⟩ := bind_ok.mp changed
  obtain ⟨row, found, changed⟩ := bind_ok.mp changed
  obtain ⟨_, _, changed⟩ := bind_ok.mp changed
  refine ⟨row, if deletes then .deleted else .paused, (Option.filter_eq_some_iff.mp (demand_ok.mp found)).1, ?_,
    (Except.ok.inj changed).symm⟩
  cases deletes <;> decide

theorem edit_ok {input : EditInput} {saved : Store}
    {configurationId : Option String}
    (edited : edit state gates actor pid expected input saved configurationId = .ok after) :
    ∃ row, state.tasks.get pid = some row ∧
      after = { state with
        store := saved
        tasks := state.tasks.put { row with configurationId, revision := row.revision + 1 }
        schedules := state.schedules.map (Schedule.pausedBy pid) (Schedule.pausedBy_id pid) } := by
  obtain ⟨_, _, edited⟩ := bind_ok.mp edited
  obtain ⟨project, _, edited⟩ := bind_ok.mp edited
  obtain ⟨row, found, edited⟩ := bind_ok.mp edited
  obtain ⟨_, _, edited⟩ := bind_ok.mp edited
  obtain ⟨_, _, edited⟩ := bind_ok.mp edited
  obtain ⟨_, _, edited⟩ := bind_ok.mp edited
  obtain ⟨_, _, edited⟩ := bind_ok.mp edited
  obtain ⟨_, _, edited⟩ := bind_ok.mp edited
  exact ⟨row, task_ok found, (Except.ok.inj edited).symm⟩

/-- A write that changes more than the next run of a schedule raises its revision. -/
structure Schedule.Later (before after : Schedule) : Prop where
  rises : before.revision ≤ after.revision
  same : after.revision = before.revision → after.pins = before.pins

namespace Schedule.Later

theorem refl (row : Schedule) : Later row row := ⟨Nat.le_refl _, fun _ => rfl⟩

theorem trans {first second third : Schedule} (earlier : Later first second) (later : Later second third) :
    Later first third where
  rises := earlier.rises.trans later.rises
  same := by
    intro still
    have middle : second.revision = first.revision := Nat.le_antisymm (still ▸ later.rises) earlier.rises
    rw [later.same (still.trans middle.symm), earlier.same middle]

theorem raised {before after : Schedule} (higher : after.revision = before.revision + 1) : Later before after where
  rises := by omega
  same := by omega

theorem stop (row : Schedule) (next : ScheduleState) : Later row (row.stop next) := raised rfl

theorem pausedBy (pid : String) (row : Schedule) : Later row (row.pausedBy pid) := by
  unfold Schedule.pausedBy
  split
  · exact stop row .paused
  · exact refl row

end Schedule.Later

/-- `ops_project_occurrence_pins`. -/
structure Occurrence.SamePins (before after : Occurrence) : Prop where
  scheduleId : after.scheduleId = before.scheduleId
  scheduleRevision : after.scheduleRevision = before.scheduleRevision
  localKey : after.localKey = before.localKey

namespace Occurrence.SamePins

theorem refl (row : Occurrence) : SamePins row row := ⟨rfl, rfl, rfl⟩

theorem interrupt (row : Occurrence) : SamePins row row.interrupt := by
  unfold Occurrence.interrupt
  split <;> exact ⟨rfl, rfl, rfl⟩

end Occurrence.SamePins

def Occurrence.pair (row : Occurrence) : String × String := (row.scheduleId, row.localKey)

theorem Occurrence.SamePins.pair {before after : Occurrence} (same : SamePins before after) :
    after.pair = before.pair := by
  simp [Occurrence.pair, same.scheduleId, same.localKey]

/-- An enabled schedule is pinned to the configuration of its task. -/
def Configured (tasks : Table Task) (schedules : Table Schedule) : Prop :=
  ∀ row ∈ schedules.rows, row.state = .enabled →
    ∃ task, tasks.get row.projectId = some task ∧ task.configurationId = some row.pins.configurationId

/-- The rows a tick has read and still uses. -/
def Tick.copies (tick : Tick) : List Schedule :=
  match tick.stage with
  | .claimed s _ => s :: tick.due
  | _ => tick.due

structure Claimed (occurrences : Table Occurrence) (calls : List StartCall) (s : Schedule)
    (id : String) : Prop where
  inserted : ∃ row, occurrences.get id = some row ∧ row.scheduleId = s.id ∧ row.scheduleRevision = s.revision
  uncalled : ∀ call ∈ calls, call.idempotencyKey ≠ id

structure TaskInv (state : TaskState) : Prop where
  configured : Configured state.tasks state.schedules
  copied : ∀ tick, state.ticking = some tick → ∀ s ∈ tick.copies,
    ∃ row, state.schedules.get s.id = some row ∧ s.Later row
  claimed : ∀ due s id, state.ticking = some ⟨due, .claimed s id⟩ → Claimed state.occurrences state.calls s id
  unique : (state.occurrences.rows.map Occurrence.pair).Nodup
  called : ∀ call ∈ state.calls, ∃ row, state.occurrences.get call.idempotencyKey = some row
  once : (state.calls.map StartCall.idempotencyKey).Nodup

theorem Configured.put {schedules : Table Schedule} {row : Schedule} (configured : Configured tasks schedules)
    (new : row.state = .enabled →
      ∃ task, tasks.get row.projectId = some task ∧ task.configurationId = some row.pins.configurationId) :
    Configured tasks (schedules.put row) := Table.all_put configured new

namespace TaskInv

variable {schedules : Table Schedule} {due : List Schedule}

theorem withSchedules (inv : TaskInv state) {tasks : Table Task}
    (grows : Table.Grows Schedule.Later state.schedules schedules) (configured : Configured tasks schedules) :
    TaskInv { state with tasks, schedules } where
  configured := configured
  copied := by
    intro tick standing s member
    obtain ⟨row, found, later⟩ := inv.copied tick standing s member
    obtain ⟨row', found', later'⟩ := grows s.id row found
    exact ⟨row', found', later.trans later'⟩
  claimed := inv.claimed
  unique := inv.unique
  called := inv.called
  once := inv.once

theorem withOccurrences (inv : TaskInv state) {occurrences : Table Occurrence}
    (grows : Table.Grows Occurrence.SamePins state.occurrences occurrences)
    (unique : (occurrences.rows.map Occurrence.pair).Nodup) : TaskInv { state with occurrences } where
  configured := inv.configured
  copied := inv.copied
  claimed := by
    intro due s id standing
    obtain ⟨⟨row, found, named, revision⟩, uncalled⟩ := inv.claimed due s id standing
    obtain ⟨row', found', same⟩ := grows id row found
    exact ⟨⟨row', found', same.scheduleId.trans named, same.scheduleRevision.trans revision⟩, uncalled⟩
  unique := unique
  called := by
    intro call member
    obtain ⟨row, found⟩ := inv.called call member
    obtain ⟨row', found', _⟩ := grows call.idempotencyKey row found
    exact ⟨row', found'⟩
  once := inv.once

theorem withTicking (inv : TaskInv state) {ticking : Option Tick}
    (copied : ∀ tick, ticking = some tick → ∀ s ∈ tick.copies, ∃ row,
    state.schedules.get s.id = some row ∧ s.Later row)
    (claimed : ∀ due s id, ticking = some ⟨due, .claimed s id⟩ →
    Claimed state.occurrences state.calls s id) : TaskInv { state with ticking } where
  configured := inv.configured
  copied := copied
  claimed := claimed
  unique := inv.unique
  called := inv.called
  once := inv.once

theorem idle (inv : TaskInv state) : TaskInv { state with ticking := none } :=
  inv.withTicking (fun _ standing => nomatch standing) fun _ _ _ standing => nomatch standing

/-- A tick goes on with the rest of what it read. -/
theorem goesOn (inv : TaskInv state) {tick : Tick} (standing : state.ticking = some tick)
    {stage : TickStage} (fewer : ∀ s ∈ due, s ∈ tick.due) (unclaimed : ∀ s id, stage ≠ .claimed s id) :
    TaskInv { state with ticking := some ⟨due, stage⟩ } := by
  refine inv.withTicking (fun next same s member => ?_) fun due s id same => ?_
  · cases same
    have read : s ∈ due := by
      unfold Tick.copies at member
      cases stage with
      | claimed s id => exact absurd rfl (unclaimed s id)
      | scanning => exact member
      | starting id => exact member
      | settling id code => exact member
    refine inv.copied tick standing s ?_
    unfold Tick.copies
    split
    · exact List.mem_cons_of_mem _ (fewer s read)
    · exact fewer s read
  · cases same
    exact absurd rfl (unclaimed s id)

theorem updateOccurrence (inv : TaskInv state) (id : String) {change : Occurrence → Occurrence}
    (same : ∀ row, (change row).id = row.id) (pins : ∀ row, Occurrence.SamePins row (change row)) :
    TaskInv { state with occurrences := updateOccurrence state.occurrences id change } := by
  unfold Projects.updateOccurrence
  cases found : state.occurrences.get id with
  | none => exact inv
  | some row =>
    have named : row.id = id := Table.get_key found
    have stored : state.occurrences.get (Keyed.key (change row)) = some row := by
      show state.occurrences.get (change row).id = some row
      rw [same, named, found]
    refine inv.withOccurrences (Table.Grows.put Occurrence.SamePins.refl fun old found' => ?_) ?_
    · rw [stored] at found'
      cases found'
      exact pins row
    · rw [Table.map_put stored (pins row).pair]
      exact inv.unique

theorem recover (inv : TaskInv state) : TaskInv (recover state) := by
  refine inv.withOccurrences (Table.Grows.map _ _ fun row _ => .interrupt row) ?_
  have kept : (state.occurrences.map Occurrence.interrupt Occurrence.interrupt_id).rows.map Occurrence.pair =
      state.occurrences.rows.map Occurrence.pair := by
    show (state.occurrences.rows.map Occurrence.interrupt).map Occurrence.pair = _
    rw [List.map_map]
    exact List.map_congr_left fun row _ => (Occurrence.SamePins.interrupt row).pair
  rw [kept]
  exact inv.unique

theorem pauseAt (inv : TaskInv state) (id : String) (revision : Nat) :
    TaskInv { state with schedules := pauseAt state.schedules id revision } := by
  unfold Projects.pauseAt
  cases found : (state.schedules.get id).filter (·.revision = revision) with
  | none => exact inv
  | some row =>
    have stored := (Option.filter_eq_some_iff.mp found).1
    refine inv.withSchedules (Table.Grows.put Schedule.Later.refl fun old found' => ?_) (inv.configured.put ?_)
    · have named : row.id = id := Table.get_key stored
      rw [show Keyed.key (row.stop .paused) = id from named, stored] at found'
      cases found'
      exact .stop row .paused
    · intro enabled
      contradiction

theorem create (inv : TaskInv state) (pid : String) (saved : Store) (configurationId : Option String) :
    TaskInv (create state pid saved configurationId) := by
  unfold Projects.create
  cases found : state.tasks.get pid with
  | some row => exact inv
  | none =>
    have kept : TaskInv { state with tasks := state.tasks.put ⟨pid, configurationId, 1⟩ } := by
      refine inv.withSchedules (.refl Schedule.Later.refl _) fun row member enabled => ?_
      obtain ⟨task, stored, configured⟩ := inv.configured row member enabled
      refine ⟨task, ?_, configured⟩
      rw [Table.get_put_other _ fun same => ?_, stored]
      rw [show row.projectId = pid from same, found] at stored
      contradiction
    exact { kept with }

theorem edit (inv : TaskInv state) {pid : String} {row : Task}
    (found : state.tasks.get pid = some row) (saved : Store)
    (configurationId : Option String) :
    TaskInv { state with
      store := saved
      tasks := state.tasks.put { row with configurationId, revision := row.revision + 1 }
      schedules := state.schedules.map (Schedule.pausedBy pid) (Schedule.pausedBy_id pid) } := by
  have kept : TaskInv { state with
      tasks := state.tasks.put { row with configurationId, revision := row.revision + 1 }
      schedules := state.schedules.map (Schedule.pausedBy pid) (Schedule.pausedBy_id pid) } := by
    refine inv.withSchedules (Table.Grows.map _ _ fun old _ => .pausedBy pid old) ?_
    refine Table.all_map _ _ fun old member enabled => ?_
    by_cases paused : old.projectId = pid ∧ old.state ≠ .deleted
    · rw [Schedule.pausedBy, if_pos paused] at enabled
      contradiction
    · rw [Schedule.pausedBy, if_neg paused] at enabled ⊢
      obtain ⟨task, stored, configured⟩ := inv.configured old member enabled
      have named : row.projectId = pid := Table.get_key found
      refine ⟨task, ?_, configured⟩
      rw [Table.get_put_other _ fun same => paused ⟨same.trans named, by simp [enabled]⟩, stored]
  exact { kept with }

theorem saveSchedule (inv : TaskInv state) {gates : Gates} {actor : Actor} {pid uuid : String}
    {input : ScheduleInput}
    {expected : Option Nat} {now : Int} (fresh : state.schedules.get uuid = none)
    (saved : saveSchedule zones state gates actor pid input expected uuid now = .ok after) : TaskInv after := by
  obtain ⟨row, accepted, pinned, project, pins, named, rfl⟩ := saveSchedule_ok saved
  obtain ⟨task, found, configured⟩ := pins_task pinned
  have accepts : ∃ task, state.tasks.get pid = some task ∧ task.configurationId = some row.pins.configurationId :=
    ⟨task, found, by rw [configured, pins]; rfl⟩
  unfold upsertSchedule
  cases stands : standing state.schedules pid with
  | none =>
    rw [stands] at named
    have absent : state.schedules.get row.id = none := named ▸ fresh
    rw [absent]
    exact inv.withSchedules (.put_new Schedule.Later.refl absent) (inv.configured.put fun _ => project ▸ accepts)
  | some old =>
    rw [stands] at named
    have member := List.mem_of_find?_eq_some stands
    have owned : old.projectId = pid ∧ old.state ≠ .deleted := by simpa using List.find?_some stands
    have stored : state.schedules.get row.id = some old := by
      rw [show row.id = old.id from named]
      exact Table.get_of_mem member
    rw [stored]
    refine inv.withSchedules (.put Schedule.Later.refl fun other found' => ?_) (inv.configured.put fun _ => ?_)
    · have same : other = old := Option.some.inj (found'.symm.trans stored)
      exact same ▸ .raised rfl
    · rw [owned.1]
      exact accepts

theorem scheduleState (inv : TaskInv state) {actor : Actor} {pid id : String} {expected : Nat} {deletes : Bool}
    (changed : scheduleState state actor pid id expected deletes = .ok after) : TaskInv after := by
  obtain ⟨row, next, found, stopped, rfl⟩ := scheduleState_ok changed
  have stored : state.schedules.get (row.stop next).id = some row := by
    rw [show (row.stop next).id = id from (Table.get_key found : row.id = id), found]
  refine inv.withSchedules (.put Schedule.Later.refl fun old found' => ?_) (inv.configured.put fun enabled => ?_)
  · have same : old = row := Option.some.inj (found'.symm.trans stored)
    exact same ▸ .stop row next
  · exact absurd enabled stopped

theorem mem_dueSchedules {now : Int} {row : Schedule} (due : row ∈ dueSchedules schedules now) :
    row ∈ schedules.rows := by
  have sorted := List.mem_of_mem_take due
  rw [(List.perm_insertionSort _ _).mem_iff] at sorted
  exact List.mem_of_mem_filter sorted

theorem beginTick (inv : TaskInv state) (enabled : Bool) (now : Int) : TaskInv (beginTick state enabled now) := by
  unfold Projects.beginTick
  split
  · exact inv
  · refine inv.withTicking (fun tick same s member => ?_) fun due s id same => ?_
    · cases same
      exact ⟨s, Table.get_of_mem (mem_dueSchedules member), .refl s⟩
    · cases same

/-- The row a tick claims is one that no occurrence of the schedule has used. -/
theorem insertOccurrence_some {occurrences inserted : Table Occurrence} {row : Occurrence}
    (done : insertOccurrence occurrences row = some inserted) :
    occurrences.get row.id = none ∧ row.pair ∉ occurrences.rows.map Occurrence.pair ∧
      inserted = occurrences.put row := by
  unfold insertOccurrence at done
  split at done
  · contradiction
  case isFalse free =>
      simp only [Bool.or_eq_true, not_or, Bool.not_eq_true, Option.isSome_eq_false_iff,
        Option.isNone_iff_eq_none] at free
      refine ⟨free.1, fun used => ?_, (Option.some.inj done).symm⟩
      obtain ⟨old, member, same⟩ := List.mem_map.mp used
      have differs := List.any_eq_false.mp free.2 old member
      simp only [Occurrence.pair, Prod.mk.injEq] at same
      simp [same.1, same.2] at differs

/-- The next run of a schedule moves; nothing else of it does. -/
theorem reschedule (inv : TaskInv state) {current : Schedule} {id : String}
    (stored : state.schedules.get id = some current)
    (nextRunAt : Option Int) :
    TaskInv { state with schedules := state.schedules.put { current with nextRunAt } } := by
  have named : state.schedules.get current.id = some current := by
    rw [show current.id = id from Table.get_key stored, stored]
  refine inv.withSchedules (.put Schedule.Later.refl fun old found => ?_) (inv.configured.put fun enabled => ?_)
  · have same : old = current := Option.some.inj (found.symm.trans named)
    exact same ▸ ⟨Nat.le_refl _, fun _ => rfl⟩
  · exact inv.configured current (Table.get_mem stored) enabled

theorem insertDue (inv : TaskInv state) {current s : Schedule} {rest : List Schedule} {uuid : String} {now : Int}
    (standing : state.ticking = some ⟨s :: rest, .scanning⟩) (stored : state.schedules.get s.id = some current)
    (inserted : insertDue zones state current s rest uuid now = some after) : TaskInv after := by
  obtain ⟨dueAt, _, inserted⟩ := Option.bind_eq_some_iff.mp inserted
  obtain ⟨format, _, inserted⟩ := Option.bind_eq_some_iff.mp inserted
  cases inserted
  generalize (if s.timing.frequency = .once then none
    else nextSchedule format s.timing now (some (occurrenceKey format dueAt)))
    = nextRunAt
  generalize (if dueAt < now - 300000 then OccurrenceState.missed
    else if !state.store.activeRuns.isEmpty then .overlap else .starting) = occurrenceState
  have rescheduled := inv.reschedule stored nextRunAt
  generalize row :
    (⟨uuid, s.id, s.revision, dueAt, occurrenceKey format dueAt, occurrenceState, none, none⟩ : Occurrence) = new
  cases done : insertOccurrence state.occurrences new with
  | none => exact rescheduled.goesOn standing (fun _ member => List.mem_cons_of_mem _ member) fun _ _ => by simp
  | some occurrences =>
    obtain ⟨fresh, unused, rfl⟩ := insertOccurrence_some done
    have rows : (state.occurrences.put new).rows = state.occurrences.rows ++ [new] := Table.rows_put_new fresh
    have grown : TaskInv { state with
        schedules := state.schedules.put { current with nextRunAt }, occurrences :=
          state.occurrences.put new } := by
      refine rescheduled.withOccurrences (.put_new Occurrence.SamePins.refl fresh) ?_
      rw [rows, List.map_append, List.map_singleton, List.nodup_append]
      refine ⟨inv.unique, by simp, fun pair member other single same => unused ?_⟩
      rw [List.mem_singleton] at single
      exact single ▸ same ▸ member
    by_cases starts : occurrenceState = .starting
    · refine grown.withTicking (fun tick same s' member => ?_) fun due s' id same => ?_
      · cases same
        rw [if_pos ⟨rfl, starts⟩] at member
        exact grown.copied _ standing s' member
      · rw [if_pos ⟨rfl, starts⟩] at same
        cases same
        subst row
        exact ⟨⟨_, Table.get_put_self state.occurrences _, rfl, rfl⟩, fun call member used => by
          obtain ⟨old, found⟩ := inv.called call member
          rw [used, show state.occurrences.get uuid = none from fresh] at found
          contradiction⟩
    · refine grown.goesOn standing (fun _ member => List.mem_cons_of_mem _ member) fun _ _ => ?_
      simp [starts]

theorem scan (inv : TaskInv state) (standing : state.ticking = some ⟨due, .scanning⟩) (uuid : String)
    (now : Int) : TaskInv (scan zones state due uuid now) := by
  cases due with
  | nil => exact inv.idle
  | cons s rest =>
    show TaskInv ((claimOccurrence zones state s rest uuid now).getD _)
    cases claimed : claimOccurrence zones state s rest uuid now with
    | none => exact inv.idle
    | some next =>
      obtain ⟨current, stored, claimed⟩ := Option.bind_eq_some_iff.mp claimed
      split at claimed
      · cases claimed
        exact inv.goesOn standing (fun _ member => List.mem_cons_of_mem _ member) fun _ _ => by simp
      · exact inv.insertDue standing stored claimed

end TaskInv

/-- At a call of `runs.startScheduled` the schedule is enabled at the revision of the
occurrence, its pins are what the owner has accepted, and they are what is sent. -/
structure Authorized (state : TaskState) (call : StartCall) (occurrence : Occurrence) (row : Schedule)
    (accepted : Accepted) : Prop where
  claimed : state.occurrences.get call.idempotencyKey = some occurrence
  scheduled : state.schedules.get occurrence.scheduleId = some row
  enabled : row.state = .enabled
  revision : row.revision = occurrence.scheduleRevision
  accepts : pins state.store state.tasks ⟨row.ownerUserId, false, true, none, false, false,
    none⟩ row.projectId = .ok accepted
  pinned : row.pins = accepted.pins
  sent : call =
    { actorId := row.ownerUserId, projectId := row.projectId, configurationId := row.pins.configurationId,
      projectRevision := accepted.project.revision, configurationRevision := row.pins.configurationRevision,
      configurationSha256 := row.pins.configurationSha256, idempotencyKey := occurrence.id }

theorem verifyScheduledAuthority_true {enabled : Bool} {pid cid id : String}
    (verified : verifyScheduledAuthority state enabled actor pid cid = true)
    (about : actor.scheduleOccurrenceId = some id) :
    ∃ occurrence row accepted, state.occurrences.get id = some occurrence ∧
      state.schedules.get occurrence.scheduleId = some row ∧ row.state = .enabled ∧
      row.revision = occurrence.scheduleRevision ∧ row.projectId = pid ∧ row.pins.configurationId = cid ∧
      row.ownerUserId = actor.id ∧ (occurrence.state = .starting ∨ occurrence.state = .started) ∧
      pins state.store state.tasks ⟨actor.id, false, true, none, false, false, none⟩ pid = .ok accepted ∧
      row.pins = { accepted.pins with configurationId := cid } := by
  unfold verifyScheduledAuthority at verified
  rw [about] at verified
  dsimp only at verified
  cases found : state.occurrences.get id with
  | none => rw [found] at verified; contradiction
  | some occurrence =>
    rw [found] at verified
    dsimp only at verified
    cases stored : state.schedules.get occurrence.scheduleId with
    | none => rw [stored] at verified; contradiction
    | some row =>
      rw [stored] at verified
      dsimp only at verified
      split at verified
      · contradiction
      case isFalse stands =>
          cases pinned : pins state.store state.tasks ⟨actor.id, false, true, none, false, false, none⟩ pid with
          | error refusal => rw [pinned] at verified; contradiction
          | ok accepted =>
            rw [pinned] at verified
            simp at stands verified
            obtain ⟨⟨⟨⟨⟨⟨_, running⟩, revision⟩, project⟩, configuration⟩, owner⟩, stage⟩ := stands
            obtain ⟨⟨⟨⟨⟨limits, revised⟩, digest⟩, guide⟩, guideDigest⟩, consent⟩ := verified
            refine ⟨occurrence, row, accepted, rfl, stored, running, revision, project,
              configuration, owner, ?_, rfl, ?_⟩
            · exact or_iff_not_imp_left.mpr stage
            · simp [Accepted.pins, limits, revised, digest, guide, guideDigest, consent, ← configuration]

theorem get_project {read : Project × Option String}
    (found : store.get actor pid = .ok read) : store.projects.get pid = some read.1 := by
  obtain ⟨_, _, found⟩ := bind_ok.mp found
  obtain ⟨project, stored, found⟩ := bind_ok.mp found
  obtain ⟨_, _, found⟩ := bind_ok.mp found
  cases found
  exact demand_ok.mp stored

theorem pins_project
    (pinned : pins store tasks actor pid = .ok accepted) : store.projects.get pid = some accepted.project := by
  obtain ⟨project, owned, pinned⟩ := bind_ok.mp pinned
  obtain ⟨_, _, pinned⟩ := bind_ok.mp pinned
  obtain ⟨_, _, pinned⟩ := bind_ok.mp pinned
  obtain ⟨_, _, pinned⟩ := bind_ok.mp pinned
  obtain ⟨_, _, pinned⟩ := bind_ok.mp pinned
  obtain ⟨_, _, pinned⟩ := bind_ok.mp pinned
  obtain ⟨_, _, pinned⟩ := bind_ok.mp pinned
  cases pinned
  obtain ⟨_, _, owned⟩ := bind_ok.mp owned
  obtain ⟨read, got, owned⟩ := bind_ok.mp owned
  obtain ⟨_, _, owned⟩ := bind_ok.mp owned
  obtain ⟨_, _, owned⟩ := bind_ok.mp owned
  cases owned
  exact get_project got

/-- A tick that claimed an occurrence either calls for it, authorized, or settles it. -/
theorem startOccurrence_calls (inv : TaskInv state) {due : List Schedule} {s : Schedule}
    (standing : state.ticking = some ⟨due, .claimed s id⟩) (enabled : Bool) :
    (∃ schedules code, startOccurrence state enabled due s id =
        { state with schedules, ticking := some ⟨due, .settling id code⟩ } ∧
      (schedules = state.schedules ∨ schedules = pauseAt state.schedules s.id s.revision)) ∨
    ∃ call occurrence row accepted, Authorized state call occurrence row accepted ∧ call.idempotencyKey = id ∧
      occurrence.state ≠ .interrupted ∧
      startOccurrence state enabled due s id =
        { state with ticking := some ⟨due, .starting id⟩, calls := state.calls ++ [call] } := by
  unfold startOccurrence
  dsimp only
  split
  · exact .inl ⟨_, _, rfl, .inr rfl⟩
  case isFalse verified =>
      simp only [Bool.not_eq_true, Bool.not_eq_false'] at verified
      cases got : state.store.get ⟨s.ownerUserId, false, true, none, false, false, some id⟩ s.projectId with
      | error refusal => exact .inl ⟨_, _, rfl, .inl rfl⟩
      | ok read =>
        obtain ⟨occurrence, row, accepted, found, stored, running, revision, project, configuration,
            owner, stage, accepts,
          same⟩ := verifyScheduledAuthority_true verified rfl
        obtain ⟨inserted, found', named, revision'⟩ := (inv.claimed due s id standing).inserted
        have one : inserted = occurrence := Option.some.inj (found'.symm.trans found)
        rw [one] at named revision'
        obtain ⟨row', stored', later⟩ := inv.copied _ standing s List.mem_cons_self
        rw [← named, stored] at stored'
        have row_eq : row = row' := Option.some.inj stored'
        have copied : row.pins = s.pins := row_eq ▸ later.same (row_eq ▸ revision.trans revision')
        obtain ⟨task, taken, configured⟩ := inv.configured row (Table.get_mem stored) running
        obtain ⟨task', taken', configured'⟩ := pins_task accepts
        rw [project, taken'] at taken
        cases taken
        have current : row.pins.configurationId = accepted.configuration.id :=
          Option.some.inj (configured.symm.trans configured')
        have key : occurrence.id = id := Table.get_key found
        have read_eq : read.1 = accepted.project :=
          Option.some.inj ((get_project got).symm.trans (pins_project accepts))
        refine .inr ⟨_, occurrence, row, accepted, ⟨found, stored, running, revision, ?_, ?_, ?_⟩, rfl, ?_, rfl⟩
        · rw [owner, project]
          exact accepts
        · rw [same, ← configuration, current]
          rfl
        · rw [owner, project, copied, key, read_eq]
        · rcases stage with stage | stage <;> rw [stage] <;> decide

namespace TaskInv

theorem startOccurrence (inv : TaskInv state) {due : List Schedule} {s : Schedule} {id : String}
    (standing : state.ticking = some ⟨due, .claimed s id⟩) (enabled : Bool) :
    TaskInv (startOccurrence state enabled due s id) := by
  rcases startOccurrence_calls inv standing enabled
    with ⟨schedules, code, done, same | same⟩ | ⟨call, occurrence, row, accepted,
    authorized, named, _, done⟩
  · rw [done, same]
    exact inv.goesOn standing (fun _ member => member) fun _ _ => by simp
  · rw [done, same]
    exact (inv.pauseAt s.id s.revision).goesOn standing (fun _ member => member) fun _ _ => by simp
  · rw [done]
    have going : TaskInv { state with ticking := some ⟨due, .starting id⟩ } :=
      inv.goesOn standing (fun _ member => member) fun _ _ => by simp
    have new := (inv.claimed due s id standing).uncalled
    exact
      { going with
        claimed := fun due' s' id' same => by cases same
        called := by
          intro other member
          rcases List.mem_append.mp member with earlier | single
          · exact inv.called other earlier
          · rw [List.mem_singleton.mp single]
            exact ⟨occurrence, authorized.claimed⟩
        once := by
          rw [List.map_append, List.map_singleton, List.nodup_append]
          refine ⟨inv.once, by simp, fun key member other single same => ?_⟩
          obtain ⟨earlier, stored, rfl⟩ := List.mem_map.mp member
          rw [List.mem_singleton] at single
          exact new earlier stored (same.trans (single.trans named)) }

theorem settleStart (inv : TaskInv state) {due : List Schedule} {stage : TickStage}
    (standing : state.ticking = some ⟨due, stage⟩) (id : String) (answer : Except (Option String) String) :
    TaskInv (settleStart state due id answer) := by
  refine (inv.updateOccurrence id (fun row => ?_) fun row => ?_).goesOn standing
    (fun _ member => member) fun _ _ => by simp
  · cases answer <;> rfl
  · cases answer <;> exact ⟨rfl, rfl, rfl⟩

theorem initial {state : TaskState} (first : (projectTasks zones).initial state) : TaskInv state := by
  obtain ⟨store, rfl⟩ := first
  exact
    { configured := fun _ member => nomatch member
      copied := fun _ standing => nomatch standing
      claimed := fun _ _ _ standing => nomatch standing
      unique := .nil
      called := fun _ member => nomatch member
      once := .nil }

end TaskInv

def Tick.about (tick : Tick) : Option String :=
  match tick.stage with
  | .scanning => none
  | .claimed _ id | .starting id | .settling id _ => some id

def TaskState.about (state : TaskState) : Option String := state.ticking.bind Tick.about

/-- What a step may do to the occurrences and the calls. -/
inductive TaskMove (state after : TaskState) : Prop where
  | quiet (occurrences : after.occurrences = state.occurrences) (calls : after.calls = state.calls)
      (about : after.about = none ∨ after.about = state.about)
  | inserted (row : Occurrence) (fresh : state.occurrences.get row.id = none)
      (occurrences : after.occurrences = state.occurrences.put row) (calls : after.calls = state.calls)
      (about : after.about = none ∨ after.about = some row.id)
  | called (call : StartCall) (occurrence : Occurrence) (row : Schedule) (accepted : Accepted)
      (authorized : Authorized state call occurrence row accepted) (about : state.about = some call.idempotencyKey)
      (occurrences : after.occurrences = state.occurrences) (calls : after.calls = state.calls ++ [call])
      (still : after.about = state.about)
  | settled (id : String) (about : state.about = some id) (change : Occurrence → Occurrence)
      (same : ∀ row, (change row).id = row.id)
      (occurrences : after.occurrences = updateOccurrence state.occurrences id change)
        (calls : after.calls = state.calls)
      (done : after.about = none)
  | recovered (is : after = recover state)

theorem insertDue_move {current s : Schedule} {rest : List Schedule}
    (inserted : insertDue zones state current s rest uuid now = some after) : TaskMove state after := by
  obtain ⟨dueAt, _, inserted⟩ := Option.bind_eq_some_iff.mp inserted
  obtain ⟨format, _, inserted⟩ := Option.bind_eq_some_iff.mp inserted
  cases inserted
  generalize (if dueAt < now - 300000 then OccurrenceState.missed
    else if !state.store.activeRuns.isEmpty then .overlap else .starting) = occurrenceState
  generalize row :
    (⟨uuid, s.id, s.revision, dueAt, occurrenceKey format dueAt, occurrenceState, none, none⟩ : Occurrence) = new
  cases done : insertOccurrence state.occurrences new with
  | none => exact .quiet rfl rfl (.inl rfl)
  | some occurrences =>
    obtain ⟨fresh, _, rfl⟩ := TaskInv.insertOccurrence_some done
    refine .inserted new fresh rfl rfl ?_
    subst row
    by_cases starts : occurrenceState = .starting
    · right
      simp [TaskState.about, Tick.about, starts]
    · left
      simp [TaskState.about, Tick.about, starts]

theorem scan_move {due : List Schedule} : TaskMove state (scan zones state due uuid now) := by
  have idle : TaskMove state { state with ticking := none } := .quiet rfl rfl (.inl rfl)
  cases due with
  | nil => exact idle
  | cons s rest =>
    show TaskMove state ((claimOccurrence zones state s rest uuid now).getD _)
    cases claimed : claimOccurrence zones state s rest uuid now with
    | none => exact idle
    | some next =>
      obtain ⟨current, _, claimed⟩ := Option.bind_eq_some_iff.mp claimed
      split at claimed
      · cases claimed
        exact .quiet rfl rfl (.inl rfl)
      · exact insertDue_move claimed

/-- A request other than a tick touches neither occurrences nor calls. -/
theorem request_move (kept : ∀ next, answer = .ok next →
    next.occurrences = state.occurrences ∧ next.calls = state.calls ∧ next.ticking = state.ticking) :
    TaskMove state (state.after answer) := by
  cases answer with
  | error refusal => exact .quiet rfl rfl (.inr rfl)
  | ok next =>
    obtain ⟨occurrences, calls, ticking⟩ := kept next rfl
    exact .quiet occurrences calls (.inr (congrArg (Option.bind · Tick.about) ticking))

theorem after_inv (inv : TaskInv state) (kept : ∀ next, answer = .ok next → TaskInv next) :
    TaskInv (state.after answer) := by
  cases answer with
  | error refusal => exact inv
  | ok next => exact kept next rfl

theorem taskStep_preserves {label : TaskLabel} (inv : TaskInv state)
    (moved : taskStep zones state label = some after) :
    TaskInv after ∧ TaskMove state after := by
  cases label with
  | store written =>
    cases moved
    exact ⟨{ inv with }, .quiet rfl rfl (.inr rfl)⟩
  | create pid saved configurationId =>
    cases moved
    refine ⟨inv.create pid saved configurationId, ?_⟩
    unfold create
    split <;> exact .quiet rfl rfl (.inr rfl)
  | edit gates actor pid expected input saved configurationId =>
    cases moved
    refine ⟨after_inv inv fun next edited => ?_, request_move fun next edited => ?_⟩
    · obtain ⟨row, found, rfl⟩ := edit_ok edited
      exact inv.edit found saved configurationId
    · obtain ⟨_, _, rfl⟩ := edit_ok edited
      exact ⟨rfl, rfl, rfl⟩
  | saveSchedule gates actor pid input expected uuid now =>
    unfold taskStep at moved
    dsimp only at moved
    split at moved
    · contradiction
    case isFalse fresh =>
        cases moved
        refine ⟨after_inv inv fun next saved => inv.saveSchedule ?_ saved, request_move fun next saved => ?_⟩
        · simpa using fresh
        · obtain ⟨_, _, _, _, _, _, rfl⟩ := saveSchedule_ok saved
          exact ⟨rfl, rfl, rfl⟩
  | scheduleState actor pid id expected deletes =>
    cases moved
    refine ⟨after_inv inv fun next changed => inv.scheduleState changed, request_move fun next changed => ?_⟩
    obtain ⟨_, _, _, _, rfl⟩ := scheduleState_ok changed
    exact ⟨rfl, rfl, rfl⟩
  | tick enabled now =>
    cases moved
    refine ⟨inv.beginTick enabled now, ?_⟩
    unfold beginTick
    split
    · exact .quiet rfl rfl (.inr rfl)
    · exact .quiet rfl rfl (.inl rfl)
  | claim uuid now =>
    unfold taskStep at moved
    dsimp only at moved
    split at moved
    case h_1 due standing =>
        cases moved
        exact ⟨inv.scan standing uuid now, scan_move⟩
    · contradiction
  | start enabled =>
    unfold taskStep at moved
    dsimp only at moved
    split at moved
    case h_1 due s id standing =>
        cases moved
        have about : state.about = some id := by simp [TaskState.about, standing, Tick.about]
        refine ⟨inv.startOccurrence standing enabled, ?_⟩
        rcases startOccurrence_calls inv standing enabled
          with ⟨_, _, done, _⟩ | ⟨call, occurrence, row, accepted, authorized,
          named, _, done⟩
        · rw [done]
          exact .quiet rfl rfl (.inr about.symm)
        · rw [done]
          exact .called call occurrence row accepted authorized (named ▸ about) rfl rfl about.symm
    · contradiction
  | settle answer =>
    unfold taskStep at moved
    dsimp only at moved
    split at moved
    case h_1 due id standing =>
        cases moved
        have about : state.about = some id := by simp [TaskState.about, standing, Tick.about]
        exact ⟨inv.settleStart standing id answer,
          .settled id about _ (fun row => by cases answer <;> rfl) rfl rfl rfl⟩
    case h_2 due id code standing =>
        cases moved
        have about : state.about = some id := by simp [TaskState.about, standing, Tick.about]
        exact ⟨inv.settleStart standing id (.error (some code)),
          .settled id about (Occurrence.block code) (fun _ => rfl) rfl rfl rfl⟩
    · contradiction
  | crash =>
    cases moved
    exact ⟨inv.idle, .quiet rfl rfl (.inl rfl)⟩
  | recover =>
    cases moved
    exact ⟨inv.recover, .recovered rfl⟩

theorem reachable_inv (reached : (projectTasks zones).Reachable state) : TaskInv state :=
  reached.invariant TaskInv (fun _ first => .initial first) fun inv moved => (taskStep_preserves inv moved).1

/-- The occurrence of the id stands in the state a claim or a recovery gives it, and
no tick is about it. -/
structure Abandoned (id : String) (state : TaskState) : Prop where
  row : ∃ row, state.occurrences.get id = some row ∧ (row.state = .starting ∨ row.state = .interrupted)
  idle : state.about ≠ some id

def callsFor (id : String) (state : TaskState) : List StartCall := state.calls.filter (·.idempotencyKey = id)

theorem Abandoned.move (abandoned : Abandoned id state) (move : TaskMove state after) :
    Abandoned id after ∧ callsFor id after = callsFor id state := by
  obtain ⟨row, found, stage⟩ := abandoned.row
  unfold callsFor
  cases move with
  | quiet occurrences calls about =>
    refine ⟨⟨⟨row, occurrences ▸ found, stage⟩, ?_⟩, by rw [calls]⟩
    rcases about with none | same
    · simp [none]
    · rw [same]
      exact abandoned.idle
  | inserted new fresh occurrences calls about =>
    have other : id ≠ new.id := by
      rintro rfl
      rw [fresh] at found
      contradiction
    refine ⟨⟨⟨row, ?_, stage⟩, ?_⟩, by rw [calls]⟩
    · rw [occurrences, Table.get_put_other _ other, found]
    · rcases about with none | same
      · simp [none]
      · rw [same]
        exact fun same => other (Option.some.inj same).symm
  | called call occurrence row' accepted authorized about occurrences calls still =>
    have other : call.idempotencyKey ≠ id := fun same => abandoned.idle (same ▸ about)
    refine ⟨⟨⟨row, occurrences ▸ found, stage⟩, still ▸ abandoned.idle⟩, ?_⟩
    rw [calls, List.filter_append]
    simp [other]
  | settled settled about change same occurrences calls done =>
    have other : id ≠ settled := fun named => abandoned.idle (named ▸ about)
    refine ⟨⟨⟨row, ?_, stage⟩, by simp [done]⟩, by rw [calls]⟩
    rw [occurrences]
    unfold updateOccurrence
    cases stored : state.occurrences.get settled with
    | none => exact found
    | some old =>
      have named : (change old).id = settled := (same old).trans (Table.get_key stored)
      exact (Table.get_put_other state.occurrences (show id ≠ (change old).id from named ▸ other)).trans found
  | recovered is =>
    rw [is]
    refine ⟨⟨⟨row.interrupt, ?_, ?_⟩, abandoned.idle⟩, rfl⟩
    · show (state.occurrences.map Occurrence.interrupt Occurrence.interrupt_id).get id = some row.interrupt
      rw [Table.get_map, found]
      rfl
    · rcases stage with stage | stage <;> simp [Occurrence.interrupt, stage]

/-- What a crash leaves starting is never called for again. -/
theorem crash_abandons {labels : List TaskLabel} {crashed later : TaskState} {row : Occurrence}
    (reached : (projectTasks zones).Reachable state) (crash : taskStep zones state .crash = some crashed)
    (found : crashed.occurrences.get id = some row) (starting : row.state = .starting)
    (ran : (projectTasks zones).exec crashed labels = some later) :
    Abandoned id later ∧ callsFor id later = callsFor id crashed := by
  have inv := (taskStep_preserves (reachable_inv reached) crash).1
  have idle : crashed.about ≠ some id := by
    cases crash
    simp [TaskState.about]
  have kept := (projectTasks zones).exec_preserves
    (fun state => TaskInv state ∧ Abandoned id state ∧ callsFor id state = callsFor id crashed)
    (fun ⟨inv, abandoned, same⟩ moved => by
      obtain ⟨inv', move⟩ := taskStep_preserves inv moved
      obtain ⟨abandoned', same'⟩ := abandoned.move move
      exact ⟨inv', abandoned', same'.trans same⟩)
    ⟨inv, ⟨⟨row, found, .inl starting⟩, idle⟩, rfl⟩ ran
  exact kept.2

/-- The schedule and wall time of the occurrence a call is for. -/
def TaskState.pairOf (state : TaskState) (call : StartCall) : Option (String × String) :=
  (state.occurrences.get call.idempotencyKey).map Occurrence.pair

theorem TaskInv.pairs_once (inv : TaskInv state) : (state.calls.map state.pairOf).Nodup := by
  refine (List.nodup_map_iff_inj_on (List.Nodup.of_map _ inv.once)).mpr fun call member other member' same => ?_
  obtain ⟨row, found⟩ := inv.called call member
  obtain ⟨row', found'⟩ := inv.called other member'
  unfold TaskState.pairOf at same
  rw [found, found'] at same
  have one : row = row' :=
    List.inj_on_of_nodup_map inv.unique (Table.get_mem found) (Table.get_mem found') (Option.some.inj same)
  have key : call.idempotencyKey = other.idempotencyKey := by
    rw [← (Table.get_key found : row.id = _), ← (Table.get_key found' : row'.id = _), one]
  exact List.inj_on_of_nodup_map inv.once member member' key

/-- A scheduled run is started at most once for its occurrence and for its schedule and
wall time, under authority that stands at that moment, and never after a crash. -/
theorem scheduled_runs_start_once (zones : Zones) {state : TaskState}
    (reached : (projectTasks zones).Reachable state) :
    (state.calls.map StartCall.idempotencyKey).Nodup ∧
    (∀ call ∈ state.calls, ∃ pair, state.pairOf call = some pair) ∧ (state.calls.map state.pairOf).Nodup ∧
    (∀ label after, taskStep zones state label = some after → after.calls = state.calls ∨
      ∃ call occurrence row accepted, after.calls = state.calls ++ [call] ∧
        Authorized state call occurrence row accepted) ∧
    ∀ crashed labels later row, taskStep zones state .crash = some crashed → row ∈ crashed.occurrences.rows →
      row.state = .starting → (projectTasks zones).exec crashed labels = some later →
      callsFor row.id later = callsFor row.id crashed ∧
        ∃ kept, later.occurrences.get row.id = some kept ∧
          (kept.state = .starting ∨ kept.state = .interrupted) := by
  have inv := reachable_inv reached
  refine ⟨inv.once, fun call member => ?_, inv.pairs_once, fun label after moved => ?_, ?_⟩
  · obtain ⟨row, found⟩ := inv.called call member
    exact ⟨row.pair, by rw [TaskState.pairOf, found]; rfl⟩
  · cases (taskStep_preserves inv moved).2 with
    | quiet _ calls _ => exact .inl calls
    | inserted _ _ _ calls _ => exact .inl calls
    | called call occurrence row accepted authorized _ _ calls _ =>
      exact .inr ⟨call, occurrence, row, accepted, calls, authorized⟩
    | settled _ _ _ _ _ calls _ => exact .inl calls
    | recovered is => exact .inl (by rw [is]; rfl)
  · intro crashed labels later row crash member starting ran
    obtain ⟨abandoned, same⟩ := crash_abandons reached crash (Table.get_of_mem member) starting ran
    exact ⟨same, abandoned.row⟩

/-- One project with an accepted configuration. -/
def acceptedStore : Store where
  accountRole := fun id => if id = "owner" then some "user" else none
  projects := Table.empty.put ⟨"project", "owner", false, 1, 1, some ⟨"guide", "g1"⟩⟩
  grant := fun _ _ => none
  configurations := Table.empty.put ⟨"configuration", "project", 1, "c1", some ⟨"guide", "g1"⟩⟩
  consents := Table.empty.put ⟨"configuration", true, "owner", 1, "c1", "guide", "g1", "s1"⟩
  activeRuns := []

def noonZone : Zones := fun timezone => if timezone = "UTC" then some fun _ => ⟨"1970-01-02", "12:00", 5⟩ else none

/-- A schedule is saved, a tick claims its occurrence and starts it, and the process
crashes while it waits. -/
def startedOnce : List TaskLabel :=
  [.create "project" acceptedStore (some "configuration"),
    .saveSchedule ⟨true, true, true⟩ ⟨"owner", false, true, none, false, false, none⟩ "project"
      ⟨⟨.once, some "1970-01-02", "12:00", none, "UTC"⟩, 1, 1, 1⟩ none "schedule" day,
    .tick true (day + minute), .claim "occurrence" (day + minute), .start true, .crash]

theorem scheduled_runs_start_once_startedOnce :
    ∃ state, (projectTasks noonZone).exec ⟨acceptedStore, ∅, ∅, ∅, none, []⟩ startedOnce = some state ∧
      state.calls.map state.pairOf = [some ("schedule", "1970-01-02T12:00")] ∧
      (state.calls.map state.pairOf).Nodup := by
  refine ⟨_, rfl, by rfl, ?_⟩
  have reached : (projectTasks noonZone).Reachable _ := ⟨_, startedOnce, ⟨acceptedStore, rfl⟩, rfl⟩
  exact (scheduled_runs_start_once noonZone reached).2.2.1

end ProxyPilot.Projects
