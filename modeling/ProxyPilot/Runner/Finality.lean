import ProxyPilot.Runner.Reachable

namespace ProxyPilot.Runner

open Broker Data Transition

/-- An issuance fails for a task that is already stored as cancelled. -/
def failsCancelled (s : State) : Label → Bool
  | .issueAnswered id answer _ =>
    match s.tasks.get id with
    | some { row, active := some ⟨t, .issuing⟩, .. } => !accepted answer t && row.state = .cancelled
    | _ => false
  | _ => false

theorem failsCancelled_issued {s : State} {id : Uuid} {cell : Cell} {t : Task} (found : s.tasks.get id = some cell)
    (held : cell.active = some ⟨t, .issuing⟩) (answer : Option IssuedSession) (now : Time) :
    failsCancelled s (.issueAnswered id answer now) = (!accepted answer t && cell.row.state = .cancelled) := by
  obtain ⟨row, token, active, shared, copies⟩ := cell
  cases held
  simp only [failsCancelled, found]

theorem Follows.rfl (t : Task) : Follows t t := fun _ => Or.inl ⟨Eq.refl _, id⟩

theorem Follows.of_nonterminal {row after : Task} (nonterminal : row.state.terminal = false) : Follows row after :=
  fun terminal => by rw [nonterminal] at terminal; contradiction

theorem Follows.trans {first second third : Task} (before : Follows first second) (after : Follows second third) :
    Follows first third := by
  intro terminal
  rcases before terminal with ⟨same, sending⟩ | ⟨cancelled, sending, uncertain⟩
  · rcases after (by rw [same]; exact terminal) with ⟨same', sending'⟩ | ⟨cancelled, sent, uncertain⟩
    · exact Or.inl ⟨same'.trans same, sending ∘ sending'⟩
    · exact Or.inr ⟨same.symm.trans cancelled, sending sent, uncertain⟩
  · rcases after (by rw [uncertain]; rfl) with ⟨same', _⟩ | ⟨cancelled', _, _⟩
    · exact Or.inr ⟨cancelled, sending, same'.trans uncertain⟩
    · rw [uncertain] at cancelled'
      contradiction

/-- Only the state and the possible send of what is stored matter. -/
theorem Follows.congr {row after other : Task} (follows : Follows row after) (state : other.state = after.state)
    (sending : other.sending = after.sending) : Follows row other := by
  intro terminal
  rw [state, sending]
  exact follows terminal

theorem Settling.of_not_ending {cell : Cell} (other : ∀ t, cell.active ≠ some ⟨t, .ending⟩) : Settling cell :=
  fun t held => absurd held (other t)

theorem settling_end {cell : Cell} {t : Task} (follows : Follows cell.row t) : Settling (cell.end_ t) := by
  intro other held
  cases held
  exact follows

variable {log : List Event} {cell : Cell} {t : Task}

theorem concluded_cancelled (requested : t.cancelRequested = true) (certain : t.state ≠ .uncertain) :
    (concluded t).state = .cancelled ∧ (concluded t).sending = t.sending := by
  rw [concluded, if_pos ⟨requested, certain⟩]
  exact ⟨rfl, rfl⟩

theorem concluded_uncertain (uncertain : t.state = .uncertain) : (concluded t).state = .uncertain := by
  rw [concluded, if_neg (by simp [uncertain]), if_neg (by simp [uncertain])]
  exact uncertain

variable {approvalId : Option Uuid} {label : Label} {s s' : State}

/-- What is stored when `drive` starts is not terminal, or a cancellation. -/
theorem Drivable.cancelled (ready : Drivable log cell approvalId)
    (terminal : cell.row.state.terminal = true) :
    cell.row.cancelRequested = true ∧ cell.row.state = .cancelled := by
  have state := ready.state
  cases requested : cell.row.cancelRequested with
  | true => exact ⟨rfl, by simpa [requested] using state⟩
  | false =>
    simp only [requested, Bool.false_eq_true, if_false] at state
    rw [terminal] at state
    exact absurd state.1 (by decide)

theorem drive_follows (ready : Drivable log cell approvalId) (closed : Bool) (now : Time) :
    let driven := (drive cell cell.row approvalId closed now).cell
    Follows cell.row driven.row ∧ Settling driven := by
  have concludes : ∀ {t : Task}, t.cancelRequested = cell.row.cancelRequested → t.sending = cell.row.sending →
      (cell.row.cancelRequested = true → t.state ≠ .uncertain) → Follows cell.row (concluded t) := by
    intro t requested sending certain terminal
    obtain ⟨cancels, cancelled⟩ := ready.cancelled terminal
    obtain ⟨state, kept⟩ := concluded_cancelled (requested.trans cancels) (certain cancels)
    refine Or.inl ⟨state.trans cancelled.symm, fun sent => ?_⟩
    rw [kept, sending] at sent
    exact sent
  have certain : cell.row.cancelRequested = true → cell.row.state ≠ .uncertain := fun requested uncertain => by
    have state := ready.state
    rw [if_pos requested, uncertain] at state
    contradiction
  unfold drive
  dsimp only
  cases cell.row.steps[cell.row.stepIndex]? with
  | none => exact ⟨Follows.rfl _, settling_end (concludes rfl rfl certain)⟩
  | some action =>
    dsimp only
    split
    case isTrue => exact ⟨Follows.rfl _, settling_end (concludes rfl rfl certain)⟩
    case isFalse going =>
      have open_ : ∀ after, Follows cell.row after := fun after terminal =>
        absurd (ready.cancelled terminal).1 going
      split
      · exact ⟨Follows.rfl _, settling_end (open_ _)⟩
      · split
        · exact ⟨open_ _, Settling.of_not_ending fun t held => by contradiction⟩
        · exact ⟨open_ _, Settling.of_not_ending fun t held => by cases held⟩

theorem issueAnswered_follows (inv : CellInv log cell) (held : cell.active = some ⟨t, .issuing⟩)
    (answer : Option IssuedSession) (closed : Bool) (now : Time) :
    Follows cell.row (issueAnswered cell t answer closed now).cell.row ∧
      ((accepted answer t = false → cell.row.state ≠ .cancelled) →
        Settling (issueAnswered cell t answer closed now).cell) := by
  obtain ⟨_, _, await⟩ := inv.busy _ held
  cases await with
  | issuing progress start sending state stored =>
  unfold issueAnswered accepted
  cases answer.filter (·.bound t) with
  | none =>
    refine ⟨Follows.rfl _, fun live => settling_end (Follows.of_nonterminal ?_)⟩
    rcases stored with preparing | ⟨cancelled, _⟩
    · rw [preparing]; rfl
    · exact absurd cancelled (live rfl)
  | some issued =>
    obtain ⟨follows, settling⟩ := drive_follows (issued_drivable inv held issued) closed now
    refine ⟨Follows.trans ?_ follows, fun _ => settling⟩
    intro terminal
    rcases stored with preparing | ⟨cancelled, requested⟩
    · rw [preparing] at terminal
      contradiction
    · rw [if_pos requested] at state
      exact Or.inl ⟨state.trans cancelled.symm, fun sent => absurd (sending.symm.trans sent) Bool.false_ne_true⟩

theorem executeAnswered_follows (inv : CellInv log cell)
    (held : cell.active = some ⟨t, .executing approvalId⟩) (answer : ExecuteAnswer) (closed : Bool) (now : Time) :
    Follows cell.row (executeAnswered cell t answer closed now).cell.row ∧
      Settling (executeAnswered cell t answer closed now).cell := by
  obtain ⟨_, _, await⟩ := inv.busy _ held
  cases await with
  | executing progress within sending state stored =>
  -- A stored terminal state is the cancellation of the call in flight.
  have cancellation : cell.row.state.terminal = true →
      cell.row.state = .cancelled ∧ cell.row.sending = true ∧ t.cancelRequested = true := by
    intro terminal
    rcases stored with running | cancelled
    · rw [running] at terminal
      contradiction
    · exact cancelled
  have uncertain : ∀ {other : Task}, other.state = .uncertain → Follows cell.row (concluded other) := by
    intro other unsure terminal
    obtain ⟨cancelled, sent, _⟩ := cancellation terminal
    exact Or.inr ⟨cancelled, sent, concluded_uncertain unsure⟩
  have blocked : ∀ {other : Task}, other.state = .blocked → other.cancelRequested = t.cancelRequested →
      other.sending = false → Follows cell.row (concluded other) := by
    intro other failed requested unsent terminal
    obtain ⟨cancelled, _, cancels⟩ := cancellation terminal
    obtain ⟨state, kept⟩ := concluded_cancelled (requested.trans cancels) (by rw [failed]; decide)
    exact Or.inl ⟨state.trans cancelled.symm, fun sent => absurd (unsent.symm.trans (kept.symm.trans sent))
      Bool.false_ne_true⟩
  unfold executeAnswered
  split
  case h_1 => exact ⟨Follows.rfl _, settling_end (uncertain rfl)⟩
  case h_3 => exact ⟨Follows.rfl _, settling_end (uncertain rfl)⟩
  case h_2 receiptId answered =>
    cases answered with
    | uncertain => exact ⟨Follows.rfl _, settling_end (uncertain rfl)⟩
    | failed => exact ⟨Follows.rfl _, settling_end (blocked rfl rfl rfl)⟩
    | denied => exact ⟨Follows.rfl _, settling_end (blocked rfl rfl rfl)⟩
    | succeeded =>
      dsimp only
      generalize (t.steps[t.stepIndex]?.map Input.operation).getD .itemRead = operation
      obtain ⟨follows, settling⟩ := drive_follows (received_drivable inv held receiptId operation) closed now
      refine ⟨Follows.trans ?_ follows, settling⟩
      intro terminal
      obtain ⟨cancelled, _, requested⟩ := cancellation terminal
      rw [if_pos requested] at state
      exact Or.inl ⟨state.trans cancelled.symm, fun sent => absurd sent Bool.false_ne_true⟩

theorem cancelCell_follows (inv : CellInv log cell) (settling : Settling cell) :
    Follows cell.row (cancelCell cell).row ∧ Settling (cancelCell cell) := by
  unfold cancelCell
  cases held : cell.active with
  | none => exact ⟨Follows.rfl _, Settling.of_not_ending fun t ending => by contradiction⟩
  | some active =>
    obtain ⟨t, suspended⟩ := active
    refine ⟨Follows.rfl _, fun other ending => ?_⟩
    cases ending
    obtain ⟨_, _, await⟩ := inv.busy _ held
    cases await with
    | ending terminal _ =>
      obtain ⟨_, _, sending, _, _, state⟩ := cancel_same t
      exact (settling t held).congr (state.trans (if_pos terminal)) sending

theorem cancelSharedAnswered_follows {active : Active} (inv : CellInv log cell) (settling : Settling cell)
    (held : cell.active = some active) (shared : cell.shared ≠ 0) (confirmed : Bool) :
    Follows cell.row (cancelSharedAnswered cell active confirmed).row ∧
      Settling (cancelSharedAnswered cell active confirmed) := by
  obtain ⟨t, suspended⟩ := active
  obtain ⟨_, driven, await⟩ := inv.busy _ held
  have requested : t.cancelRequested = true := driven.shared shared
  constructor
  · intro terminal
    dsimp only at await
    cases await with
    | issuing progress start sending state stored =>
      rcases stored with preparing | ⟨cancelled, _⟩
      · rw [preparing] at terminal
        contradiction
      · rw [if_pos requested] at state
        exact Or.inl ⟨state.trans cancelled.symm, fun sent => absurd (sending.symm.trans sent) Bool.false_ne_true⟩
    | executing progress within sending state stored =>
      rcases stored with running | ⟨cancelled, sent, _⟩
      · rw [running] at terminal
        contradiction
      · rw [if_pos requested] at state
        exact Or.inl ⟨state.trans cancelled.symm, fun _ => sent⟩
    | ending _ _ => exact settling t held terminal
  · intro other ending
    cases ending
    exact Follows.rfl _

theorem cancelCopyAnswered_follows {index : Nat} (inv : CellInv log cell) (held : cell.copies[index]? = some t)
    (confirmed : Bool) : Follows cell.row (cancelCopyAnswered cell index t confirmed).row := by
  have member : t ∈ cell.copies := List.mem_of_getElem? held
  intro terminal
  have agree : Agrees t cell.row := by
    cases (inv.idle (inv.idle_of_copy held)).1 with
    | awaiting state => rw [state] at terminal; contradiction
    | settled _ agree => exact agree t member
  exact Or.inl ⟨agree.state, fun sent => agree.sending.symm.trans sent⟩

/-- A stored terminal state is final under every effect but a failed issuance after a cancellation. -/
theorem CellEffect.follows {closed : Bool} {outcome : Outcome} (inv : CellInv log cell)
    (settling : Settling cell) (effect : CellEffect closed cell label outcome)
    (live : ∀ id answer now t, label = .issueAnswered id answer now → cell.active = some ⟨t, .issuing⟩ →
      accepted answer t = false → cell.row.state ≠ .cancelled) :
    Follows cell.row outcome.cell.row ∧ Settling outcome.cell := by
  cases effect with
  | issued held =>
    obtain ⟨follows, settles⟩ := issueAnswered_follows inv held _ closed _
    exact ⟨follows, settles (live _ _ _ _ rfl held)⟩
  | executed held => exact executeAnswered_follows inv held _ closed _
  | ended held =>
    exact ⟨(settling _ held).congr rfl rfl, Settling.of_not_ending fun t ending => by contradiction⟩
  | continued state token idle => exact drive_follows (continue_drivable inv state token idle _) closed _
  | cancelled => exact cancelCell_follows inv settling
  | sharedEnded held shared => exact cancelSharedAnswered_follows inv settling held shared _
  | copyEnded held =>
    refine ⟨cancelCopyAnswered_follows inv held _, Settling.of_not_ending fun t ending => ?_⟩
    have idle := inv.idle_of_copy held
    rw [show cell.active = some ⟨t, .ending⟩ from ending] at idle
    contradiction
  | copyDropped => exact ⟨Follows.rfl _, settling⟩

/-- Every terminal state stored in the first is still stored in the second, but for
a cancellation that left a call in flight and became uncertain. -/
def Final (s s' : State) : Prop :=
  ∀ id cell, s.tasks.get id = some cell → ∃ after, s'.tasks.get id = some after ∧ Follows cell.row after.row

theorem Final.trans {first second third : State} (before : Final first second) (after : Final second third) :
    Final first third := by
  intro id cell found
  obtain ⟨middle, found, follows⟩ := before id cell found
  obtain ⟨last, found, follows'⟩ := after id middle found
  exact ⟨last, found, follows.trans follows'⟩

theorem Final.of_tasks (same : s'.tasks = s.tasks) : Final s s' :=
  fun _ cell found => ⟨cell, by rw [same]; exact found, Follows.rfl _⟩

theorem Final.map (change : Cell → Cell) (same : ∀ cell, (change cell).row.id = cell.row.id)
    (mapped : s'.tasks = s.tasks.map change same) (follows : ∀ cell, Follows cell.row (change cell).row) :
    Final s s' := by
  intro id cell found
  exact ⟨change cell, by rw [mapped, Table.get_map, found]; rfl, follows cell⟩

theorem restartTask_follows (t : Task) : Follows t (restartTask t) := by
  intro terminal
  rw [restartTask, if_pos terminal]
  exact Or.inl ⟨rfl, id⟩

/-- Outside the one failure, a step keeps terminal states and what is about to be stored. -/
theorem Effect.final (inv : Inv s)
    (settling : ∀ cell ∈ s.tasks.rows, Settling cell) (effect : Effect s label s')
    (live : failsCancelled s label = false) : (∀ cell ∈ s'.tasks.rows, Settling cell) ∧ Final s s' := by
  have put : ∀ {s : State} {outcome : Outcome}, (∀ cell ∈ s.tasks.rows, Settling cell) → Settling outcome.cell →
      ∀ cell ∈ (s.put outcome).tasks.rows, Settling cell := by
    intro s outcome settling settles cell member
    rcases Table.mem_put.mp member with rfl | ⟨old, _⟩
    · exact settles
    · exact settling cell old
  cases effect with
  | refused => exact ⟨settling, Final.of_tasks rfl⟩
  | starting _ => exact ⟨settling, Final.of_tasks rfl⟩
  | unready => exact ⟨settling, Final.of_tasks rfl⟩
  | @created x waiting fresh =>
    refine ⟨put settling (Settling.of_not_ending fun t held => by cases held), fun id cell found => ?_⟩
    refine ⟨cell, (get_put_cell _ _ id).trans ((if_neg fun same => ?_).trans found), Follows.rfl _⟩
    rw [show id = x.request.id from same, fresh] at found
    contradiction
  | @task id cell outcome found effect =>
    obtain ⟨follows, settles⟩ := effect.follows (inv.cell found) (settling cell (Table.get_mem found))
      fun issued answer now t named held refused cancelled => by
        subst named
        cases effect with
        | issued _ =>
          have key : cell.row.id = id := Table.get_key found
          subst key
          exact absurd live (by simp [failsCancelled_issued found held, refused, cancelled])
    refine ⟨put settling settles, fun other before stored => ?_⟩
    have key : outcome.cell.row.id = id := (effect.kept (inv.cell found)).same.id.trans (Table.get_key found)
    rw [get_put_cell]
    split
    case isTrue same =>
      rw [same, key, found] at stored
      cases stored
      exact ⟨_, rfl, follows⟩
    case isFalse => exact ⟨before, stored, Follows.rfl _⟩
  | closed idle =>
    refine ⟨fun cell member => ?_,
      Final.map (fun cell => { cell with token := none }) (fun _ => rfl) rfl fun cell => Follows.rfl _⟩
    obtain ⟨old, stored, rfl⟩ := List.mem_map.mp member
    exact Settling.of_not_ending fun t held =>
      absurd ((idle old stored).symm.trans held) (Option.some_ne_none _).symm
  | restarted =>
    refine ⟨fun cell member => ?_, Final.map _ (fun cell => restartTask_id cell.row) rfl fun cell =>
      restartTask_follows cell.row⟩
    obtain ⟨old, _, rfl⟩ := List.mem_map.mp member
    exact Settling.of_not_ending fun t held => by contradiction

def Settled (s : State) : Prop := Inv s ∧ ∀ cell ∈ s.tasks.rows, Settling cell

theorem Settled.step (settled : Settled s) (live : failsCancelled s label = false)
    (moved : runnerSystem.step s label = some s') : Settled s' ∧ Final s s' := by
  have effect := step_effect moved
  obtain ⟨settling, final⟩ := effect.final settled.1 settled.2 live
  exact ⟨⟨effect.inv settled.1, settling⟩, final⟩

/-- A run without the one failure keeps every terminal state. -/
theorem Settled.exec {labels : List Label} (settled : Settled s)
    (live : runnerSystem.Along (fun s label => failsCancelled s label = false) s labels)
    (ran : runnerSystem.exec s labels = some s') : Settled s' ∧ Final s s' := by
  induction labels generalizing s with
  | nil =>
    cases ran
    exact ⟨settled, Final.of_tasks rfl⟩
  | cons label rest ih =>
    obtain ⟨next, moved, ran⟩ := System.exec_cons.mp ran
    obtain ⟨settled, final⟩ := settled.step live.1 moved
    obtain ⟨settled, final'⟩ := ih settled (live.2 next moved) ran
    exact ⟨settled, final.trans final'⟩

theorem initial_settled {s : State} (initial : runnerSystem.initial s) : Settled s := by
  refine ⟨reachable_inv (.of_initial initial), fun cell member => ?_⟩
  rw [initial.1] at member
  cases member

/-- The calls of a task are its steps in order, once each and permitted; a completed
task is done; and terminal states are final in every run whose failed issuances
find their task not cancelled. -/
theorem runner_runs {first s : State} {labels : List Label} (initial : runnerSystem.initial first)
    (ran : runnerSystem.exec first labels = some s) :
    (∀ id step key approvalId earlier, (.executed id step key approvalId :: earlier) <:+ s.log →
      ∃ cell, s.tasks.get id = some cell ∧ Permitted cell.row step key approvalId earlier) ∧
    (∀ cell ∈ s.tasks.rows, cell.row.state = .completed → Done cell.row) ∧
    ∀ more after, runnerSystem.exec s more = some after →
      runnerSystem.Along (fun s label => failsCancelled s label = false) first (labels ++ more) →
        Final s after := by
  have inv := reachable_inv ⟨first, labels, initial, ran⟩
  refine ⟨inv.lawful, fun cell member => (inv.cells cell member).stored.completed,
    fun more after continued live => ?_⟩
  obtain ⟨before, later⟩ := (System.along_append ran).mp live
  obtain ⟨settled, _⟩ := (initial_settled initial).exec before ran
  exact (settled.exec later continued).2

/-- No task, and no call under way. -/
def empty : State := ⟨∅, ∅, 0, 100, false, []⟩

private def closeItem : Request where
  id := 1
  userId := 2
  projectId := 3
  agentId := 4
  grantId := 5
  connectionId := 6
  attempt := 7
  fence := 8
  scope := ⟨[.itemSetState], [9], ⟨5, 60⟩, 50000, "fractionate-broker"⟩
  steps := [.setState 9 .opened, .setState 9 .closed]
  configurationRevision := 1

private def checked : Ready := ⟨true, 1, 2, 3, 4, 1, 7, 8, 40000⟩

private def issuedSession : IssuedSession :=
  ⟨"aaaaaaaaaaaaaaaaaaaaaaaaaaaaaaaaaaaaaaaaaaa", some 10, 2, 3, 4, 5, 6, 7, 8, 1, 50000, false⟩

private def approvedStep : List Label :=
  [.startTask closeItem 0, .checkAnswered 0 (some checked) 0, .issueAnswered 1 (some issuedSession) 0,
    .continueTask 1 11 10, .executeAnswered 1 (.receipt (some 12) (some .succeeded)) 20, .continueTask 1 13 30]

private def receivedStep : List Label :=
  [.executeAnswered 1 (.receipt (some 14) (some .succeeded)) 40, .endAnswered 1 true, .restart]

private def stored (s : State) (id : Uuid) : Option TaskState := (s.tasks.get id).map (·.row.state)

/-- The states a task is stored in after a run and after the run that continues it. -/
private def storedAfter (labels more : List Label) (id : Uuid) : Option (Option TaskState × Option TaskState) :=
  (runnerSystem.exec empty labels).bind fun s =>
    (runnerSystem.exec s more).map fun after => (stored s id, stored after id)

private theorem storedAfter_eq {labels more : List Label} {id : Uuid} {before then_ : Option TaskState}
    (ran : storedAfter labels more id = some (before, then_)) :
    ∃ s after, runnerSystem.exec empty labels = some s ∧ runnerSystem.exec s more = some after ∧
      stored s id = before ∧ stored after id = then_ := by
  obtain ⟨s, first, ran⟩ := Option.bind_eq_some_iff.mp ran
  obtain ⟨after, second, same⟩ := Option.map_eq_some_iff.mp ran
  cases same
  exact ⟨s, after, first, second, rfl, rfl⟩

private def executedStep : Event → Option Nat
  | .executed _ step _ _ => some step
  | _ => none

/-- Two steps, each with its own approval, and then a restart. -/
theorem runner_runs_closeItem : ∃ s after, runnerSystem.exec empty approvedStep = some s ∧
    runnerSystem.exec s receivedStep = some after ∧ stored after 1 = some .completed ∧
    after.log.filterMap executedStep = [1, 0] ∧ Final s after ∧
    (∀ cell ∈ after.tasks.rows, cell.row.state = .completed → Done cell.row) ∧
    ∀ step key approvalId earlier, (.executed 1 step key approvalId :: earlier) <:+ s.log →
      ∃ cell, s.tasks.get 1 = some cell ∧ Permitted cell.row step key approvalId earlier := by
  have ran : storedAfter approvedStep receivedStep 1 = some (some .running, some .completed) := by decide
  obtain ⟨s, after, first, second, _, completed⟩ := storedAfter_eq ran
  have whole : runnerSystem.exec empty (approvedStep ++ receivedStep) = some after :=
    System.exec_append.mpr ⟨s, first, second⟩
  have called :
      ((runnerSystem.exec empty (approvedStep ++ receivedStep)).map fun s => s.log.filterMap executedStep) =
      some [1, 0] := by decide
  rw [whole] at called
  obtain ⟨lawful, _, final⟩ := runner_runs ⟨rfl, rfl, rfl, rfl⟩ first
  obtain ⟨_, done, _⟩ := runner_runs ⟨rfl, rfl, rfl, rfl⟩ whole
  exact ⟨s, after, first, second, completed, Option.some.inj called,
    final _ after second (by decide), done, lawful 1⟩

private def cancelled : List Label :=
  [.startTask closeItem 0, .checkAnswered 0 (some checked) 0, .cancelTask 1, .cancelSharedAnswered 1 true]

private def refusedSession : List Label := [.issueAnswered 1 none 0, .endAnswered 1 true]

/-- `cancelTask` has stored the cancellation; then `issueSession` fails, and
`startTask` stores the task as blocked. -/
theorem startTask_overwrites_cancelled : runnerSystem.initial empty ∧
    ∃ s after, runnerSystem.exec empty cancelled = some s ∧ runnerSystem.exec s refusedSession = some after ∧
      stored s 1 = some .cancelled ∧ stored after 1 = some .blocked ∧ ¬ Final s after := by
  have ran : storedAfter cancelled refusedSession 1 = some (some .cancelled, some .blocked) := by decide
  obtain ⟨s, after, first, second, before, then_⟩ := storedAfter_eq ran
  refine ⟨⟨rfl, rfl, rfl, rfl⟩, s, after, first, second, before, then_, fun final => ?_⟩
  obtain ⟨cell, found, state⟩ := Option.map_eq_some_iff.mp before
  obtain ⟨cell', found', follows⟩ := final 1 cell found
  obtain ⟨other, found, state'⟩ := Option.map_eq_some_iff.mp then_
  cases found'.symm.trans found
  rcases follows (by rw [state]; rfl) with ⟨same, _⟩ | ⟨_, _, uncertain⟩
  · rw [state, state'] at same
    contradiction
  · rw [state'] at uncertain
    contradiction

end ProxyPilot.Runner
