import ProxyPilot.Runner.Answers

namespace ProxyPilot.Runner

open Broker Data Transition

structure Inv (s : State) : Prop where
  cells : ∀ cell ∈ s.tasks.rows, CellInv s.log cell
  known : ∀ e ∈ s.log, ∀ id, e.task = some id → (s.tasks.get id).isSome = true
  lawful : ∀ id step key approvalId earlier, (.executed id step key approvalId :: earlier) <:+ s.log →
    ∃ cell, s.tasks.get id = some cell ∧ Permitted cell.row step key approvalId earlier
  starting : ∀ x ∈ s.starting.rows, x.request.steps ≠ []

theorem LawfulFrom.own {row : Task} {log events : List Event} (lawful : LawfulFrom row log events) :
    ∀ e ∈ events, e ≠ .restarted ∧ e.task = some row.id := by
  induction events with
  | nil => intro e member; cases member
  | cons head older ih =>
    obtain ⟨running, own, _, rest⟩ := lawful
    intro e member
    rcases List.mem_cons.mp member with rfl | member
    · exact ⟨running, own⟩
    · exact ih rest e member

theorem LawfulFrom.permitted {row : Task} {log events earlier : List Event} {id : Uuid} {step : Nat}
    {key approvalId : Option Uuid} (lawful : LawfulFrom row log events)
    (within : (.executed id step key approvalId :: earlier) <:+ events ++ log) :
    (.executed id step key approvalId :: earlier) <:+ log ∨
      (id = row.id ∧ Permitted row step key approvalId earlier) := by
  induction events with
  | nil => exact Or.inl within
  | cons head older ih =>
    obtain ⟨_, own, permitted, rest⟩ := lawful
    rcases List.suffix_cons_iff.mp within with same | within
    · obtain ⟨rfl, rfl⟩ := List.cons.inj same
      have named : id = row.id := Option.some.inj own
      exact Or.inr ⟨named, permitted step key approvalId (by rw [named])⟩
    · exact ih rest within

theorem get_put_cell (s : State) (outcome : Outcome) (id : Uuid) :
    (s.put outcome).tasks.get id = if id = outcome.cell.row.id then some outcome.cell else s.tasks.get id :=
  s.tasks.get_put outcome.cell id

/-- What one task's calls keep, the runner keeps. -/
theorem Inv.put {s : State} {row : Task} {outcome : Outcome} (inv : Inv s) (kept : Kept row s.log outcome)
    (own : ∀ cell, s.tasks.get row.id = some cell → Same row cell.row) : Inv (s.put outcome) := by
  have named : outcome.cell.row.id = row.id := kept.same.id
  refine ⟨fun cell member => ?_, fun e member id about => ?_, fun id step key approvalId earlier within => ?_,
    inv.starting⟩
  · rcases Table.mem_put.mp member with rfl | ⟨old, different⟩
    · exact kept.inv
    · refine (inv.cells cell old).frame fun e member => ?_
      obtain ⟨running, about⟩ := kept.lawful.own e member
      refine ⟨running, fun same => different ?_⟩
      exact (Option.some.inj (same.symm.trans about)).trans named.symm
  · rw [get_put_cell]
    split
    · rfl
    case isFalse other =>
      rcases List.mem_append.mp member with new | old
      · have same := (kept.lawful.own e new).2.symm.trans about
        exact absurd ((Option.some.inj same).symm.trans named.symm) other
      · exact inv.known e old id about
  · rw [get_put_cell]
    rcases kept.lawful.permitted within with old | ⟨same, permitted⟩
    · obtain ⟨cell, found, permitted⟩ := inv.lawful id step key approvalId earlier old
      split
      case isTrue same =>
        have before := own cell (by rw [← named, ← same]; exact found)
        exact ⟨_, rfl, permitted.congr (before.symm.trans kept.same.symm)⟩
      case isFalse => exact ⟨cell, found, permitted⟩
    · rw [if_pos (same.trans named.symm)]
      exact ⟨_, rfl, permitted.congr kept.same.symm⟩

/-- The calls on a stored task. -/
theorem Inv.put_stored {s : State} {cell : Cell} {id : Uuid} {outcome : Outcome} (inv : Inv s)
    (found : s.tasks.get id = some cell) (kept : Kept cell.row s.log outcome) : Inv (s.put outcome) := by
  refine inv.put kept fun other stored => ?_
  have key : cell.row.id = id := Table.get_key found
  rw [key, found] at stored
  cases stored
  exact Same.rfl _

theorem Inv.cell {s : State} {cell : Cell} {id : Uuid} (inv : Inv s) (found : s.tasks.get id = some cell) :
    CellInv s.log cell := inv.cells cell (Table.get_mem found)

theorem continue_drivable {log : List Event} {cell : Cell} (inv : CellInv log cell)
    (state : cell.row.state = .awaitingApproval) (token : cell.token ≠ none) (idle : cell.active = none)
    (approvalId : Uuid) :
    Drivable (.continued cell.row.id cell.row.stepIndex approvalId :: log)
      { cell with active := some ⟨cell.row, .issuing⟩ } (some approvalId) := by
  obtain ⟨waiting, unshared⟩ := inv.idle idle
  cases waiting with
  | settled terminal =>
    rw [state] at terminal
    contradiction
  | awaiting _ action progress sending requested unrestarted cancelled copies =>
    have alone : cell.copies = [] :=
      List.eq_nil_iff_forall_not_mem.mpr fun t member => token (copies t member).2.2.2
    have driven : Driven log { cell with active := some ⟨cell.row, .issuing⟩ } cell.row :=
      ⟨alone, unrestarted, fun member => absurd (cancelled member) token, fun shared => absurd unshared shared⟩
    refine ⟨inv.stored.keys, inv.stored.steps, driven.cons Event.noConfusion Event.noConfusion,
      progress.cons fun _ _ _ => Event.noConfusion, sending, ?_, fun approval given => ?_⟩
    · simp only [requested, Bool.false_eq_true, if_false, state]
      refine ⟨rfl, fun past => ?_⟩
      obtain ⟨step, found, _⟩ := action
      rw [List.getElem?_eq_none past] at found
      contradiction
    · cases given
      exact List.mem_cons_self

theorem continue_kept {log : List Event} {cell : Cell} (inv : CellInv log cell)
    (state : cell.row.state = .awaitingApproval) (token : cell.token ≠ none) (idle : cell.active = none)
    (approvalId : Uuid) (closed : Bool) (now : Time) :
    Kept cell.row log (continueCell cell approvalId closed now) := by
  unfold continueCell
  have event : LawfulFrom cell.row log [.continued cell.row.id cell.row.stepIndex approvalId] :=
    lawfulFrom_single Event.noConfusion rfl fun _ _ _ => Event.noConfusion
  obtain ⟨same, lawful, after⟩ := drive_kept (continue_drivable inv state token idle approvalId) closed now
  refine ⟨same, lawfulFrom_append.mpr ⟨lawful, event⟩, ?_⟩
  rw [List.append_assoc]
  exact after

theorem validate_steps {r : Request} {now : Time} (valid : validate r now = .ok ()) : r.steps ≠ [] := by
  intro empty
  unfold validate at valid
  repeat' split at valid
  all_goals simp_all

theorem newTask_kept {log : List Event} {r : Request} (firstKey : Uuid) (steps : r.steps ≠ [])
    (silent : ∀ e ∈ log, e.task ≠ some r.id) :
    Kept (newTask r firstKey) log
      ⟨{ row := newTask r firstKey, token := none, active := some ⟨newTask r firstKey, .issuing⟩
         shared := 0, copies := [] }, [.started r.id]⟩ := by
  have executes : executes log r.id = [] := by
    refine List.filterMap_eq_nil_iff.mpr fun e member => ?_
    have other := silent e member
    cases e with
    | executed task step key approvalId =>
      have different : task ≠ r.id := fun same => other (congrArg some same)
      simp [different]
    | _ => rfl
  have unstarted : ¬ StartedBeforeRestart (.started r.id :: log) r.id := fun before =>
    silent _ ((startedBeforeRestart_cons Event.noConfusion).mp before).started rfl
  refine ⟨Same.rfl _, lawfulFrom_single Event.noConfusion rfl fun _ _ _ => Event.noConfusion,
    ⟨by simp [newTask], steps, TaskState.noConfusion, fun t member => absurd member List.not_mem_nil⟩,
    fun none => by contradiction, fun active held => ?_⟩
  cases held
  refine ⟨Same.rfl _, ⟨rfl, unstarted, fun member => ?_, fun shared => absurd rfl shared⟩,
    .issuing ⟨?_, ?_, rfl⟩ rfl rfl rfl (Or.inl rfl)⟩
  · rcases List.mem_cons.mp member with same | old
    · contradiction
    · exact absurd rfl (silent _ old)
  · exact (executes_cons_other (fun _ _ _ => Event.noConfusion) log).trans executes
  · intro i before
    exact absurd before (Nat.not_lt_zero i)

theorem restart_inv {log : List Event} {cell : Cell} (inv : CellInv log cell) (events : List Event) :
    CellInv events { row := restartTask cell.row, token := none, active := none, shared := 0, copies := [] } ∧
      Same (restartTask cell.row) cell.row := by
  have same : Same (restartTask cell.row) cell.row := by
    unfold restartTask
    split <;> exact ⟨rfl, rfl⟩
  have terminal : (restartTask cell.row).state.terminal = true := by
    unfold restartTask
    split
    · assumption
    · dsimp only
      split <;> rfl
  have completed : (restartTask cell.row).state = .completed → Done (restartTask cell.row) := by
    unfold restartTask
    split
    · exact inv.stored.completed
    · dsimp only
      split <;> exact TaskState.noConfusion
  refine ⟨⟨⟨?_, ?_, completed, fun t member => absurd member List.not_mem_nil⟩,
    fun _ => ⟨.settled terminal fun t member => absurd member List.not_mem_nil, rfl⟩,
    fun active none => by contradiction⟩, same⟩
  · exact (congrArg List.length same.stepKeys).trans (inv.stored.keys.trans (congrArg List.length same.steps.symm))
  · exact fun empty => inv.stored.steps (same.steps.symm.trans empty)

/-- What a step does to the one task it is about. -/
inductive CellEffect (closed : Bool) (cell : Cell) : Label → Outcome → Prop where
  | issued {answer now t} (held : cell.active = some ⟨t, .issuing⟩) :
      CellEffect closed cell (.issueAnswered cell.row.id answer now) (issueAnswered cell t answer closed now)
  | executed {id answer now t approvalId} (held : cell.active = some ⟨t, .executing approvalId⟩) :
      CellEffect closed cell (.executeAnswered id answer now) (executeAnswered cell t answer closed now)
  | ended {id confirmed t} (held : cell.active = some ⟨t, .ending⟩) :
      CellEffect closed cell (.endAnswered id confirmed) ⟨endAnswered cell t confirmed, []⟩
  | continued {id approvalId now} (state : cell.row.state = .awaitingApproval) (token : cell.token ≠ none)
      (idle : cell.active = none) :
      CellEffect closed cell (.continueTask id approvalId now) (continueCell cell approvalId closed now)
  | cancelled {id} : CellEffect closed cell (.cancelTask id) ⟨cancelCell cell, [.cancelRequested cell.row.id]⟩
  | sharedEnded {id confirmed active} (held : cell.active = some active) (shared : cell.shared ≠ 0) :
      CellEffect closed cell (.cancelSharedAnswered id confirmed) ⟨cancelSharedAnswered cell active confirmed, []⟩
  | copyEnded {id index confirmed t} (held : cell.copies[index]? = some t) :
      CellEffect closed cell (.cancelCopyAnswered id index confirmed)
        ⟨cancelCopyAnswered cell index t confirmed, []⟩
  | copyDropped {id index confirmed} :
      CellEffect closed cell (.cancelCopyAnswered id index confirmed)
        ⟨{ cell with copies := cell.copies.eraseIdx index }, []⟩

inductive Effect (s : State) (label : Label) : State → Prop where
  | refused : Effect s label s
  | starting {r now} (valid : validate r now = .ok ()) :
      Effect s label { s with starting := s.starting.put ⟨s.nextCall, r⟩, nextCall := s.nextCall + 1 }
  | unready {call} : Effect s label { s with starting := s.starting.erase call }
  | created {x : Starting} (waiting : x ∈ s.starting.rows) (fresh : s.tasks.get x.request.id = none) :
      Effect s label
        { ({ s with starting := s.starting.erase x.call } : State).put
            ⟨{ row := newTask x.request s.nextId, token := none
               active := some ⟨newTask x.request s.nextId, .issuing⟩, shared := 0, copies := [] },
              [.started x.request.id]⟩ with nextId := s.nextId + x.request.steps.length }
  | task {id cell outcome} (found : s.tasks.get id = some cell)
      (effect : CellEffect s.closed cell label outcome) : Effect s label (s.put outcome)
  | closed (idle : ∀ cell ∈ s.tasks.rows, cell.active = none) :
      Effect s label { s with tasks := s.tasks.map (fun cell => { cell with token := none }) fun _ => rfl
                              closed := true }
  | restarted : Effect s label (restart s)

theorem startTask_effect (s : State) (r : Request) (now : Time) {label : Label} :
    Effect s label ((startTask s r now).toOption.getD s) := by
  unfold startTask
  split
  · exact .refused
  · cases valid : validate r now with
    | error reason => exact .refused
    | ok _ =>
      dsimp only
      split
      · exact .refused
      · split
        · exact .refused
        · exact .starting valid

theorem checkAnswered_effect {s : State} {call : Nat} {x : Starting} (found : s.starting.get call = some x)
    (answer : Option Ready) (now : Time) {label : Label} : Effect s label (checkAnswered s x answer now) := by
  unfold checkAnswered
  dsimp only
  split
  · exact .unready
  · split
    · exact .unready
    case isFalse free =>
      have fresh : s.tasks.get x.request.id = none := by
        simpa using (not_or.mp free).2
      exact .created (Table.get_mem found) fresh

theorem continueTask_effect (s : State) (id approvalId : Uuid) (now : Time) :
    Effect s (.continueTask id approvalId now) ((continueTask s id approvalId now).toOption.getD s) := by
  unfold continueTask
  cases found : s.tasks.get id with
  | none => exact .refused
  | some cell =>
    dsimp only
    split
    · exact .refused
    case isFalse continuable =>
      split
      · exact .refused
      case isFalse idle =>
        simp only [not_or, not_not] at continuable
        exact .task found (.continued continuable.2.1 continuable.2.2 (by simpa using idle))

theorem step_effect {s s' : State} {label : Label} (moved : step s label = some s') : Effect s label s' := by
  cases label with
  | startTask r now => cases moved; exact startTask_effect s r now
  | checkAnswered call answer now =>
    simp only [step, Option.map_eq_some_iff] at moved
    obtain ⟨x, found, rfl⟩ := moved
    exact checkAnswered_effect found answer now
  | issueAnswered id answer now =>
    simp only [step] at moved
    split at moved
    case h_1 row token t shared copies found =>
      cases moved
      have key : row.id = id := Table.get_key found
      subst key
      exact .task found (.issued rfl)
    case h_2 => contradiction
  | executeAnswered id answer now =>
    simp only [step] at moved
    split at moved
    case h_1 found => cases moved; exact .task found (.executed rfl)
    case h_2 => contradiction
  | endAnswered id confirmed =>
    simp only [step] at moved
    split at moved
    case h_1 found => cases moved; exact .task found (.ended rfl)
    case h_2 => contradiction
  | continueTask id approvalId now => cases moved; exact continueTask_effect s id approvalId now
  | cancelTask id =>
    cases moved
    unfold cancelTask
    split
    · exact .refused
    · cases found : s.tasks.get id with
      | none => exact .refused
      | some cell =>
        have key : cell.row.id = id := Table.get_key found
        have effect : CellEffect s.closed cell (.cancelTask id) ⟨cancelCell cell, [.cancelRequested cell.row.id]⟩ :=
          .cancelled
        rw [key] at effect
        exact .task found effect
  | cancelSharedAnswered id confirmed =>
    simp only [step] at moved
    split at moved
    case h_1 found => cases moved; exact .task found (.sharedEnded rfl (Nat.succ_ne_zero _))
    case h_2 => contradiction
  | cancelCopyAnswered id index confirmed =>
    simp only [step] at moved
    cases found : s.tasks.get id with
    | none => simp [found] at moved
    | some cell =>
      cases held : cell.copies[index]? with
      | none => simp [found, held] at moved
      | some t =>
        simp only [found, held] at moved
        split at moved
        · cases moved; exact .task found .copyDropped
        · cases moved; exact .task found (.copyEnded held)
  | close =>
    cases moved
    unfold close
    split
    · exact .refused
    case isFalse idle => exact .closed (by simpa using idle)
  | restart => cases moved; exact .restarted

theorem copyDropped_kept {log : List Event} {cell : Cell} (inv : CellInv log cell) (index : Nat) :
    Kept cell.row log ⟨{ cell with copies := cell.copies.eraseIdx index }, []⟩ := by
  have old : ∀ t ∈ cell.copies.eraseIdx index, t ∈ cell.copies := fun t member => List.mem_of_mem_eraseIdx member
  refine ⟨Same.rfl _, trivial, ⟨inv.stored.keys, inv.stored.steps, inv.stored.completed,
    fun t member => inv.stored.copies t (old t member)⟩, fun idle => ?_, fun active held => ?_⟩
  · obtain ⟨waiting, unshared⟩ := inv.idle idle
    refine ⟨?_, unshared⟩
    cases waiting with
    | awaiting state action progress sending requested unrestarted cancelled copies =>
      exact .awaiting state action progress sending requested unrestarted cancelled
        fun t member => copies t (old t member)
    | settled terminal agree => exact .settled terminal fun t member => agree t (old t member)
  · obtain ⟨same, driven, await⟩ := inv.busy active held
    have alone : cell.copies.eraseIdx index = [] := by rw [driven.alone]; rfl
    exact ⟨same, ⟨alone, driven.unrestarted, driven.cancelled, driven.shared⟩, await⟩

theorem CellEffect.kept {closed : Bool} {log : List Event} {cell : Cell} {label : Label} {outcome : Outcome}
    (inv : CellInv log cell) (effect : CellEffect closed cell label outcome) : Kept cell.row log outcome := by
  cases effect with
  | issued held => exact issueAnswered_kept inv held _ closed _
  | executed held => exact executeAnswered_kept inv held _ closed _
  | ended held => exact endAnswered_kept inv held _
  | continued state token idle => exact continue_kept inv state token idle _ closed _
  | cancelled => exact cancelCell_kept inv
  | sharedEnded held shared => exact cancelSharedAnswered_kept inv held shared _
  | copyEnded held => exact cancelCopyAnswered_kept inv held _
  | copyDropped => exact copyDropped_kept inv _

/-- All tasks change at once, each keeping what never changes of it. -/
theorem Inv.map {s : State} {change : Cell → Cell} {same : ∀ cell, (change cell).row.id = cell.row.id}
    {log : List Event} (inv : Inv s) (kept : ∀ cell ∈ s.tasks.rows, CellInv log (change cell) ∧
      Same (change cell).row cell.row)
    (events : ∀ e ∈ log, e ∈ s.log ∨ e = .restarted)
    (within : ∀ id step key approvalId earlier, (.executed id step key approvalId :: earlier) <:+ log →
      (.executed id step key approvalId :: earlier) <:+ s.log)
    (starting : Table Starting) (waiting : ∀ x ∈ starting.rows, x.request.steps ≠ []) (nextCall nextId : Nat)
    (closed : Bool) : Inv ⟨s.tasks.map change same, starting, nextCall, nextId, closed, log⟩ := by
  refine ⟨fun cell member => ?_, fun e member id about => ?_, fun id step key approvalId earlier inside => ?_,
    waiting⟩
  · obtain ⟨old, stored, rfl⟩ := List.mem_map.mp member
    exact (kept old stored).1
  · rw [Table.get_map, Option.isSome_map]
    rcases events e member with old | restarted
    · exact inv.known e old id about
    · rw [restarted] at about
      contradiction
  · obtain ⟨cell, found, permitted⟩ := inv.lawful id step key approvalId earlier (within _ _ _ _ _ inside)
    rw [Table.get_map, found]
    exact ⟨_, rfl, permitted.congr (kept cell (Table.get_mem found)).2.symm⟩

theorem Effect.inv {s s' : State} {label : Label} (inv : Inv s) (effect : Effect s label s') : Inv s' := by
  cases effect with
  | refused => exact inv
  | starting valid =>
    refine ⟨inv.cells, inv.known, inv.lawful, fun x member => ?_⟩
    rcases Table.mem_put.mp member with rfl | ⟨old, _⟩
    · exact validate_steps valid
    · exact inv.starting x old
  | unready =>
    exact ⟨inv.cells, inv.known, inv.lawful, fun x member => inv.starting x (List.mem_of_mem_filter member)⟩
  | @created x waiting fresh =>
    have before : Inv { s with starting := s.starting.erase x.call } :=
      ⟨inv.cells, inv.known, inv.lawful, fun y member => inv.starting y (List.mem_of_mem_filter member)⟩
    have silent : ∀ e ∈ s.log, e.task ≠ some x.request.id := fun e member about => by
      have stored := inv.known e member _ about
      rw [fresh] at stored
      contradiction
    have after := before.put (newTask_kept s.nextId (inv.starting x waiting) silent)
      fun cell found => by
        rw [show s.tasks.get x.request.id = some cell from found] at fresh
        contradiction
    exact ⟨after.cells, after.known, after.lawful, after.starting⟩
  | task found effect => exact inv.put_stored found (effect.kept (inv.cell found))
  | closed idle =>
    refine inv.map (fun cell member => ?_) (fun e member => Or.inl member) (fun _ _ _ _ _ inside => inside) _
      inv.starting _ _ _
    have cellInv := inv.cells cell member
    obtain ⟨waiting, unshared⟩ := cellInv.idle (idle cell member)
    refine ⟨⟨⟨cellInv.stored.keys, cellInv.stored.steps, cellInv.stored.completed, cellInv.stored.copies⟩,
      fun _ => ⟨?_, unshared⟩, fun active held => ?_⟩, Same.rfl _⟩
    · cases waiting with
      | awaiting state action progress sending requested unrestarted cancelled copies =>
        refine .awaiting state action progress sending requested unrestarted (fun _ => rfl) fun t member => ?_
        obtain ⟨cancelled, sending, receipts, _⟩ := copies t member
        exact ⟨cancelled, sending, receipts, rfl⟩
      | settled terminal agree => exact .settled terminal agree
    · exact absurd ((idle cell member).symm.trans held) (Option.some_ne_none active).symm
  | restarted =>
    refine inv.map (fun cell member => restart_inv (inv.cells cell member) _) (fun e member => ?_)
      (fun _ _ _ _ _ inside => ?_) _ (fun x member => ?_) _ _ _
    · exact (List.mem_cons.mp member).symm.imp_left id
    · rcases List.suffix_cons_iff.mp inside with same | inside
      · exact absurd (List.cons.inj same).1 Event.noConfusion
      · exact inside
    · cases member

theorem reachable_inv {s : State} (reached : runnerSystem.Reachable s) : Inv s := by
  refine reached.invariant Inv (fun s initial => ?_) fun inv moved => (step_effect moved).inv inv
  obtain ⟨tasks, starting, _, log⟩ := initial
  refine ⟨fun cell member => ?_, fun e member => ?_, fun id step key approvalId earlier within => ?_,
    fun x member => ?_⟩
  · rw [tasks] at member
    cases member
  · rw [log] at member
    cases member
  · rw [log] at within
    exact absurd within (by simp)
  · rw [starting] at member
    cases member

end ProxyPilot.Runner
