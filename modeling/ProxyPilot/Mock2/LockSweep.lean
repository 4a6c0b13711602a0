import ProxyPilot.Mock2.LockEffects

namespace ProxyPilot.Mock2

open Data Transition

/-! # What an idle sweep releases

The sweep releases by project, not by holder.  What it deletes is the hold it
judged as long as nobody renewed the lock during the checkpoint.
-/

/-- The call acquires or refreshes the lock of the project. -/
def LockCall.renews (table : LockTable) (projectId : Nat) : LockCall → Bool
  | .acquire call => call.projectId = projectId && (acquireLock table call).2.ok
  | .touch touched holder now => touched = projectId && (touchLock table touched holder now).2
  | _ => false

/-- The stored row, if any, is still the hold that was read, or an operation's own row. -/
def Unrenewed (read : LockRow) (table : LockTable) : Prop :=
  ∀ row, table.get read.projectId = some row →
    (lockHolder (some row) = lockHolder (some read) ∧ row.lastWriteAt = read.lastWriteAt) ∨
      (row.reserved = true ∧ row.holderCycleId = none ∧ row.holderUserId = none)

/-- What the sweep deletes now is the hold it read. -/
def ReleasesJudged (state : LockState) (sweep : Sweep) (answer : IdleAnswer) : Prop :=
  ∀ row ∈ state.locks.rows, (resumeSweep state sweep answer).locks.get row.projectId = none →
    lockHolder (some row) = lockHolder (some sweep.judged) ∧ row.lastWriteAt = sweep.judged.lastWriteAt

variable {row : LockRow} {idleMs : Int} {now : Stamp} {table : LockTable}

theorem sweepable_holder
    (idle : sweepable now idleMs row = true) : ∃ id, lockHolder (some row) = some (.user id) := by
  simp only [sweepable, Bool.and_eq_true] at idle
  obtain ⟨idle, notCycle⟩ := idle
  have unreserved := not_reserved_of_shouldAutoRelease idle
  simp only [shouldAutoRelease, Bool.and_eq_true] at idle
  cases cycle : row.holderCycleId with
  | some id => simp [lockHolder, unreserved, cycle] at notCycle
  | none =>
    cases user : row.holderUserId with
    | some id => exact ⟨id, by simp [lockHolder, unreserved, cycle, user]⟩
    | none => simp [lockHolder, unreserved, cycle, user] at idle

/-- The holder of a row whose operation column is empty and that names a cycle. -/
theorem lockHolder_cycle (unreserved : row.holderOperationId = none)
    (held : row.holderCycleId.isSome = true) : ∃ id, lockHolder (some row) = some (.cycle id) := by
  obtain ⟨id, cycle⟩ := Option.isSome_iff_exists.mp held
  exact ⟨id, by simp [lockHolder, unreserved, cycle]⟩

namespace Unrenewed

variable {read : LockRow} {table after : LockTable} {id : String}

theorem of_member (member : read ∈ table.rows) : Unrenewed read table := by
  intro row found
  have same : row = read := Table.key_injective (Table.get_mem found) member (Table.get_key found)
  exact Or.inl (same ▸ ⟨rfl, rfl⟩)

theorem put (unrenewed : Unrenewed read table) {row : LockRow}
    (kept : row.projectId = read.projectId →
      (lockHolder (some row) = lockHolder (some read) ∧ row.lastWriteAt = read.lastWriteAt) ∨
        (row.reserved = true ∧ row.holderCycleId = none ∧ row.holderUserId = none)) :
    Unrenewed read (table.put row) := by
  intro other found
  rw [table.get_put] at found
  split at found
  case isTrue same => cases found; exact kept same.symm
  case isFalse => exact unrenewed other found

theorem erase (unrenewed : Unrenewed read table) (erased : Nat) :
    Unrenewed read (table.erase erased) := by
  intro row found
  rw [table.get_erase] at found
  split at found
  · contradiction
  · exact unrenewed row found

variable {other : Nat} {call : LockCall}

/-- The two forms of a stored row of the project. -/
theorem stored (unrenewed : Unrenewed read table) {row : LockRow}
    (found : table.get other = some row) (same : row.projectId = read.projectId) :
    (lockHolder (some row) = lockHolder (some read) ∧ row.lastWriteAt = read.lastWriteAt) ∨
      (row.reserved = true ∧ row.holderCycleId = none ∧ row.holderUserId = none) := by
  have key : other = read.projectId := (Table.get_key found).symm.trans same
  exact unrenewed row (key ▸ found)

/-- A reserved row of the project belongs to an operation alone. -/
theorem reserved_alone (unrenewed : Unrenewed read table) (held : lockHolder (some read) = some (.user id))
    {row : LockRow} (found : table.get other = some row)
    (same : row.projectId = read.projectId) (reserved : row.holderOperationId.isSome = true) :
    row.holderCycleId = none ∧ row.holderUserId = none := by
  rcases unrenewed.stored found same with ⟨holder, _⟩ | ⟨_, alone⟩
  · obtain ⟨token, own⟩ := Option.isSome_iff_exists.mp reserved
    simp [lockHolder_reserved own, held] at holder
  · exact alone

theorem effect (unrenewed : Unrenewed read table) (held : lockHolder (some read) = some (.user id))
    (effect : LockEffect table call after)
    (acquires : ∀ acquire, call = .acquire acquire → acquire.projectId ≠ read.projectId)
    (touches : ∀ projectId holder now, call = .touch projectId holder now → projectId ≠ read.projectId) :
    Unrenewed read after := by
  cases effect with
  | unchanged => exact unrenewed
  | acquired call _ => exact unrenewed.put fun same => absurd same (acquires call rfl)
  | touched found _ =>
    refine unrenewed.put fun same => absurd ?_ (touches _ _ _ rfl)
    exact (Table.get_key found).symm.trans same
  | detached found reserved =>
    refine unrenewed.put fun same => Or.inr ⟨reserved, rfl, ?_⟩
    exact (unrenewed.reserved_alone held found same reserved).2
  | released _ _ => exact unrenewed.erase _
  | @attached call row found unreserved cycle _ =>
    refine unrenewed.put fun same => ?_
    exfalso
    obtain ⟨cycleId, holder⟩ := lockHolder_cycle unreserved cycle
    rcases unrenewed.stored found (show row.projectId = _ from same) with ⟨kept, _⟩ | ⟨_, alone, _⟩
    · simp [holder, held] at kept
    · simp [alone] at cycle
  | leased _ => exact unrenewed.put fun _ => Or.inr ⟨rfl, rfl, rfl⟩
  | @marked projectId token row found =>
    refine unrenewed.put fun same => ?_
    have stored := unrenewed.stored found (show row.projectId = _ from same)
    exact stored
  | @settled projectId token now row found own kept =>
    refine unrenewed.put fun same => ?_
    have alone := unrenewed.reserved_alone held found (show row.projectId = _ from same)
      (by rw [own]; rfl)
    simp [alone] at kept
  | dropped _ _ => exact unrenewed.erase _
  | @asked projectId userId now row found =>
    refine unrenewed.put fun same => ?_
    have stored := unrenewed.stored found (show row.projectId = _ from same)
    exact stored

/-- A step that does not renew the project's lock. -/
theorem step {state next : LockState} (unrenewed : Unrenewed read state.locks)
    (held : lockHolder (some read) = some (.user id))
    (quiet : call.renews state.locks read.projectId = false) (moved : lockStep state call = some next) :
    Unrenewed read next.locks := by
  cases call with
  | acquire call =>
    cases moved
    rcases acquireLock_effect state.locks call with ⟨_, same, _⟩ | ⟨_, _, written, ok⟩
    · simpa only [LockCall.table, same] using unrenewed
    · refine unrenewed.effect held (LockCall.effect (.acquire call) _) ?_ (fun _ _ _ => LockCall.noConfusion)
      intro acquire named same
      cases named
      simp [LockCall.renews, same, written, ok] at quiet
  | touch touched holder now =>
    cases moved
    rcases touchLock_effect state.locks touched holder now with same | ⟨_, _, _, written⟩
    · simpa only [LockCall.table, same] using unrenewed
    · refine unrenewed.effect held (LockCall.effect (.touch touched holder now) _)
        (fun _ => LockCall.noConfusion) ?_
      intro _ _ _ named same
      cases named
      simp [LockCall.renews, ← same, written] at quiet
  | _ =>
    refine lockStep_preserves (Unrenewed read) ?_ ?_ unrenewed moved
    · exact fun unrenewed effect => unrenewed.effect held effect
        (fun _ => LockCall.noConfusion) (fun _ _ _ => LockCall.noConfusion)
    · exact fun _ unrenewed effect => unrenewed.effect held effect
        (fun _ => LockCall.noConfusion) (fun _ _ _ => LockCall.noConfusion)

end Unrenewed

theorem nextJudged_spec {rows later : List LockRow} {judged : LockRow}
    (found : nextJudged now idleMs rows = some (judged, later)) :
    sweepable now idleMs judged = true ∧ ∀ row ∈ judged :: later, row ∈ rows := by
  induction rows with
  | nil => simp [nextJudged] at found
  | cons row rest ih =>
    simp only [nextJudged] at found
    split at found
    case isTrue idle => cases found; exact ⟨idle, fun _ member => member⟩
    case isFalse =>
      obtain ⟨idle, within⟩ := ih found
      exact ⟨idle, fun other member => List.mem_cons_of_mem _ (within other member)⟩

/-- The sweep begun in `first` still walks the rows it read there. -/
structure Sweeping (first : LockState) (now : Stamp) (idleMs : Int) (state : LockState) : Prop where
  begun : first.nextSweep < state.nextSweep
  read : ∀ sweep, state.sweeps.get first.nextSweep = some sweep →
    sweep.now = now ∧ sweep.idleMs = idleMs ∧ sweepable now idleMs sweep.judged = true ∧
      ∀ row ∈ sweep.judged :: sweep.later, row ∈ first.locks.rows

namespace Sweeping

variable {first state : LockState} {now : Stamp} {idleMs : Int}

/-- Advancing a sweep keeps the reading of every sweep, its own included. -/
theorem advance (begun : first.nextSweep < state.nextSweep) {id : Nat}
    (others : ∀ sweep, id ≠ first.nextSweep → state.sweeps.get first.nextSweep = some sweep →
      sweep.now = now ∧ sweep.idleMs = idleMs ∧ sweepable now idleMs sweep.judged = true ∧
        ∀ row ∈ sweep.judged :: sweep.later, row ∈ first.locks.rows)
    {clock : Stamp} {idle : Int} {rows : List LockRow}
    (own : id = first.nextSweep → clock = now ∧ idle = idleMs ∧ ∀ row ∈ rows, row ∈ first.locks.rows) :
    Sweeping first now idleMs (advanceSweep state id clock idle rows) := by
  unfold advanceSweep
  cases next : nextJudged clock idle rows with
  | none =>
    refine ⟨begun, fun sweep found => ?_⟩
    rw [Table.get_erase] at found
    split at found
    case isTrue => contradiction
    case isFalse different => exact others sweep (Ne.symm different) found
  | some walked =>
    obtain ⟨judged, later⟩ := walked
    obtain ⟨idleRow, within⟩ := nextJudged_spec next
    refine ⟨begun, fun sweep found => ?_⟩
    rw [Table.get_put] at found
    split at found
    case isTrue same =>
      cases found
      obtain ⟨rfl, rfl, rows⟩ := own same.symm
      exact ⟨rfl, rfl, idleRow, fun row member => rows row (within row member)⟩
    case isFalse different => exact others sweep (Ne.symm different) found

theorem begin (first : LockState) (now : Stamp) (idleMs : Int) :
    Sweeping first now idleMs (beginSweep first now idleMs true) := by
  refine advance (Nat.lt_succ_self _) (fun _ different => absurd rfl different) fun _ => ?_
  exact ⟨rfl, rfl, fun _ member => member⟩

theorem step {next : LockState} {call : LockCall} (sweeping : Sweeping first now idleMs state)
    (moved : lockStep state call = some next) : Sweeping first now idleMs next := by
  obtain ⟨begun, read⟩ := sweeping
  cases call with
  | beginSweep clock idle checkpoints =>
    cases moved
    unfold beginSweep
    split
    · apply advance
      · exact Nat.lt_succ_of_lt begun
      · exact fun sweep _ => read sweep
      · intro same
        omega
    · exact ⟨begun, read⟩
  | resumeSweep id answer =>
    simp only [lockStep, Option.map_eq_some_iff] at moved
    obtain ⟨sweep, found, rfl⟩ := moved
    have key : sweep.id = id := Table.get_key found
    apply advance
    · exact begun
    · exact fun sweep _ => read sweep
    · intro same
      obtain ⟨clock, idle, _, rows⟩ := read sweep (by rw [← same, key]; exact found)
      exact ⟨clock, idle, fun row member => rows row (List.mem_cons_of_mem _ member)⟩
  | _ => cases moved; exact ⟨begun, read⟩

theorem exec {calls : List LockCall} {after : LockState} (sweeping : Sweeping first now idleMs state)
    (ran : lockSystem.exec state calls = some after) : Sweeping first now idleMs after :=
  lockSystem.exec_preserves (Sweeping first now idleMs)
    (fun sweeping moved => sweeping.step moved) sweeping ran

end Sweeping

theorem releaseLock_unreserved {projectId : Nat}
    (found : table.get projectId = some row) (unreserved : row.holderOperationId = none) :
    releaseLock table projectId none = (table.erase projectId, { released := true }) := by
  simp [releaseLock, found, LockRow.reserved, unreserved]

theorem releaseLock_reserved {projectId : Nat}
    (found : table.get projectId = some row) (reserved : row.reserved = true) :
    (releaseLock table projectId none).1 = table := by
  simp [releaseLock, found, reserved]

/-- What is gone after a release without a holder is the unreserved row of its project. -/
theorem releaseLock_erases {released : Nat}
    (member : row ∈ table.rows) (gone : (releaseLock table released none).1.get row.projectId = none) :
    row.projectId = released ∧ row.reserved = false := by
  have stored : table.get row.projectId = some row := Table.get_of_mem member
  cases found : table.get released with
  | none => simp [releaseLock, found, stored] at gone
  | some other =>
    cases reserved : other.reserved with
    | true => simp [releaseLock_reserved found reserved, stored] at gone
    | false =>
      rw [releaseLock_unreserved found (not_reserved_iff.mp reserved), Table.get_erase] at gone
      split at gone
      case isTrue same =>
        rw [← same, stored] at found
        cases found
        exact ⟨same, reserved⟩
      case isFalse => simp [stored] at gone

theorem resumeSweep_erases {state : LockState} {sweep : Sweep} {answer : IdleAnswer}
    (member : row ∈ state.locks.rows)
    (gone : (resumeSweep state sweep answer).locks.get row.projectId = none) :
    row.projectId = sweep.judged.projectId ∧ row.reserved = false := by
  have stored : state.locks.get row.projectId = some row := Table.get_of_mem member
  simp only [resumeSweep, advanceSweep_locks] at gone
  cases answer with
  | handled => exact releaseLock_erases member gone
  | escalated => simp [stored] at gone
  | failed => simp [stored] at gone

/-- A sweep that never suspends deletes rows of its own reading. -/
theorem releaseIdle_erases {rows : List LockRow}
    (member : row ∈ table.rows)
    (gone : (releaseIdle now idleMs table rows).get row.projectId = none) :
    ∃ judged ∈ rows, judged.projectId = row.projectId ∧ sweepable now idleMs judged = true := by
  induction rows generalizing table row with
  | nil =>
    have stored : table.get row.projectId = some row := Table.get_of_mem member
    simp [releaseIdle, stored] at gone
  | cons head rest ih =>
    simp only [releaseIdle] at gone
    split at gone
    case isFalse =>
      obtain ⟨judged, within, found⟩ := ih member gone
      exact ⟨judged, List.mem_cons_of_mem _ within, found⟩
    case isTrue idle =>
      cases stored : (releaseLock table head.projectId none).1.get row.projectId with
      | none => exact ⟨head, List.mem_cons_self, (releaseLock_erases member stored).1.symm, idle⟩
      | some kept =>
        have same : kept.projectId = row.projectId := Table.get_key stored
        rw [← same] at gone ⊢
        obtain ⟨judged, within, found⟩ := ih (Table.get_mem stored) gone
        exact ⟨judged, List.mem_cons_of_mem _ within, found⟩

/-- Whatever a sweep deletes was idle when it was read.  A sweep that runs
through deletes the very row it read; one that awaits checkpoints does so when
nobody renews the project's lock between its reading and its release. -/
theorem sweep_releases_judged (first : LockState) (now : Stamp) (idleMs : Int) :
    (∀ row ∈ first.locks.rows, (beginSweep first now idleMs false).locks.get row.projectId = none →
      sweepable now idleMs row = true) ∧
    ∀ (calls : List LockCall) (state : LockState),
      lockSystem.exec first (.beginSweep now idleMs true :: calls) = some state →
      ∀ sweep, state.sweeps.get first.nextSweep = some sweep →
        sweep.judged ∈ first.locks.rows ∧ shouldAutoRelease sweep.judged now idleMs = true ∧
        (lockSystem.Along (fun state call => call.renews state.locks sweep.judged.projectId = false)
            first (.beginSweep now idleMs true :: calls) →
          ∀ answer, ReleasesJudged state sweep answer) := by
  refine ⟨?_, fun calls state ran sweep found => ?_⟩
  · intro row member gone
    obtain ⟨judged, within, same, idle⟩ := releaseIdle_erases member gone
    rwa [← Table.key_injective within member same]
  · obtain ⟨next, moved, rest⟩ := System.exec_cons.mp ran
    cases moved
    obtain ⟨_, _, idle, rows⟩ := ((Sweeping.begin first now idleMs).exec rest).read sweep found
    have member := rows sweep.judged List.mem_cons_self
    obtain ⟨id, held⟩ := sweepable_holder idle
    refine ⟨member, by simp_all [sweepable], fun along answer row stored gone => ?_⟩
    have unrenewed : Unrenewed sweep.judged state.locks :=
      lockSystem.exec_preserves_along _ (fun state => Unrenewed sweep.judged state.locks)
        (fun unrenewed quiet moved => unrenewed.step held quiet moved) along (Unrenewed.of_member member) ran
    obtain ⟨same, unreserved⟩ := resumeSweep_erases stored gone
    rcases unrenewed row (same ▸ Table.get_of_mem stored) with kept | ⟨reserved, _⟩
    · exact kept
    · rw [unreserved] at reserved
      contradiction

/-- User `u` checks the project out, leaves it idle and is swept; meanwhile another
project's lock is refreshed. -/
theorem sweep_releases_judged_quiet :
    ∃ state sweep, lockSystem.exec .start
        [.acquire ⟨1, .user "u", none, false, 100, 0, 0⟩, .acquire ⟨2, .user "v", none, false, 100, 900, 900⟩,
          .beginSweep (some 1000) 100 true, .touch 2 (some (.user "v")) 1000] = some state ∧
      state.sweeps.get 0 = some sweep ∧ (resumeSweep state sweep .handled).locks.get 1 = none ∧
      shouldAutoRelease sweep.judged (some 1000) 100 = true ∧ ∀ answer, ReleasesJudged state sweep answer := by
  let first := (acquireLock (acquireLock ∅ ⟨1, .user "u", none, false, 100, 0, 0⟩).1
    ⟨2, .user "v", none, false, 100, 900, 900⟩).1
  obtain ⟨_, idle, kept⟩ := (sweep_releases_judged ⟨first, ∅, 0⟩ (some 1000) 100).2
    [.touch 2 (some (.user "v")) 1000] _ rfl _ rfl
  refine ⟨_, _, rfl, rfl, rfl, idle, kept ?_⟩
  refine ⟨rfl, fun _ moved => ?_⟩
  cases moved
  exact ⟨rfl, fun _ _ => trivial⟩

/-- The checkpoint of an idle checkout is awaited; another user takes the expired
lock over, and the sweep deletes the new hold. -/
theorem sweep_releases_renewed_hold :
    ∃ state sweep, lockSystem.exec .start
        [.acquire ⟨1, .user "u", none, false, 100, 0, 0⟩, .beginSweep (some 1000) 100 true,
          .acquire ⟨1, .user "v", none, false, 100, 1000, 1000⟩] = some state ∧
      state.sweeps.get 0 = some sweep ∧ ¬ ReleasesJudged state sweep .handled := by
  refine ⟨_, _, rfl, rfl, fun judged => ?_⟩
  have kept := judged _ (List.mem_singleton.mpr rfl) rfl
  revert kept
  decide

end ProxyPilot.Mock2
