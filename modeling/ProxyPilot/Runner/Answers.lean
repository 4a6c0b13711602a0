import ProxyPilot.Runner.Runs

namespace ProxyPilot.Runner

open Broker Data Transition

variable {log : List Event} {cell : Cell} {t row : Task}

theorem Same.symm (same : Same t row) : Same row t := ⟨same.request.symm, same.stepKeys.symm⟩

variable {other : Task} {e : Event} {approvalId : Option Uuid} {index : Nat}

theorem Same.trans (first : Same t row) (second : Same row other) : Same t other :=
  ⟨first.request.trans second.request, first.stepKeys.trans second.stepKeys⟩

theorem Same.steps (same : Same t row) : t.steps = row.steps := congrArg Request.steps same.request

theorem Permitted.congr {step : Nat} {key approvalId : Option Uuid} (same : Same t row)
    (permitted : Permitted t step key approvalId log) : Permitted row step key approvalId log := by
  obtain ⟨order, key, succeeded, approved, uncancelled, unrestarted⟩ := permitted
  rw [same.id] at order succeeded approved uncancelled unrestarted
  rw [same.steps] at approved
  rw [same.stepKeys] at key
  exact ⟨order, key, succeeded, approved, uncancelled, unrestarted⟩

theorem LawfulFrom.congr (same : Same t row) {events : List Event} (lawful : LawfulFrom t log events) :
    LawfulFrom row log events := by
  induction events with
  | nil => trivial
  | cons e older ih =>
    obtain ⟨running, own, permitted, rest⟩ := lawful
    refine ⟨running, own.trans (congrArg some same.id), fun step key approvalId called => ?_, ih rest⟩
    exact (permitted step key approvalId (by rw [same.id]; exact called)).congr same

theorem lawfulFrom_append {newer older : List Event} :
    LawfulFrom row log (newer ++ older) ↔ LawfulFrom row (older ++ log) newer ∧ LawfulFrom row log older := by
  induction newer with
  | nil => simp [LawfulFrom]
  | cons e rest ih => simp only [List.cons_append, LawfulFrom, ih, List.append_assoc, and_assoc]

theorem lawfulFrom_single (running : e ≠ .restarted) (own : e.task = some row.id)
    (quiet : ∀ step key approvalId, e ≠ .executed row.id step key approvalId) : LawfulFrom row log [e] :=
  ⟨running, own, fun step key approvalId called => absurd called (quiet step key approvalId), trivial⟩

theorem Progress.cons {calls : Nat} {e : Event} (progress : Progress log t calls)
    (quiet : ∀ step key approvalId, e ≠ .executed t.id step key approvalId) : Progress (e :: log) t calls :=
  ⟨(executes_cons_other quiet log).trans progress.executes,
    fun i before => List.mem_cons_of_mem _ (progress.received i before), progress.receipts⟩

theorem issued_drivable (inv : CellInv log cell) (held : cell.active = some ⟨t, .issuing⟩)
    (issued : IssuedSession) :
    Drivable log { cell with row := { t with sessionId := issued.id }, token := some issued.bearer
                             active := some ⟨{ t with sessionId := issued.id }, .issuing⟩ } none := by
  obtain ⟨same, driven, await⟩ := inv.busy _ held
  dsimp only at same driven await
  cases await with
  | issuing progress start sending state stored =>
  refine ⟨?_, ?_, ⟨driven.alone, ?_, ?_, driven.shared⟩, ⟨?_, progress.received, progress.receipts⟩, sending, ?_,
    fun _ none => ?_⟩
  · exact (congrArg List.length same.stepKeys).trans (inv.stored.keys.trans (congrArg List.length same.steps.symm))
  · exact fun empty => inv.stored.steps (same.steps.symm.trans empty)
  · exact same.id ▸ driven.unrestarted
  · exact same.id ▸ driven.cancelled
  · exact progress.executes.trans (by rw [start])
  · dsimp only
    cases requested : t.cancelRequested with
    | true => simpa [requested] using state
    | false =>
      have preparing : t.state = .preparing := by simpa [requested] using state
      refine ⟨by rw [preparing]; rfl, fun past => ?_⟩
      rw [start, Nat.le_zero, List.length_eq_zero_iff] at past
      exact absurd (same.steps.symm.trans past) inv.stored.steps
  · contradiction

theorem issueAnswered_kept (inv : CellInv log cell) (held : cell.active = some ⟨t, .issuing⟩)
    (answer : Option IssuedSession) (closed : Bool) (now : Time) :
    Kept cell.row log (issueAnswered cell t answer closed now) := by
  obtain ⟨same, driven, _⟩ := inv.busy _ held
  dsimp only at same driven
  unfold issueAnswered
  cases answer.filter (·.bound t) with
  | none =>
    refine ⟨Same.rfl _, trivial, inv.stored.end_ ⟨same.request, same.stepKeys⟩
      ⟨driven.alone, driven.unrestarted, driven.cancelled, driven.shared⟩ rfl TaskState.noConfusion⟩
  | some issued =>
    obtain ⟨kept, lawful, after⟩ := drive_kept (issued_drivable inv held issued) closed now
    have own : Same { t with sessionId := issued.id } cell.row := ⟨same.request, same.stepKeys⟩
    exact ⟨kept.trans own, lawful.congr own, after⟩

/-- The object after a receipt was pushed. -/
theorem received_progress {id step : Uuid} {operation : Operation} {receiptId : Uuid}
    (named : t.id = id) (index : t.stepIndex = step) (own : e = .received id step .succeeded)
    (progress : Progress log t (t.stepIndex + 1)) :
    Progress (e :: log) { t with sending := false, receipts := t.receipts ++ [⟨receiptId, .succeeded, operation⟩]
                                 stepIndex := t.stepIndex + 1 } (t.stepIndex + 1) := by
  subst own named index
  refine ⟨?_, fun i before => ?_, ?_⟩
  · exact (executes_cons_other (fun _ _ _ => Event.noConfusion) log).trans progress.executes
  · rcases Nat.lt_succ_iff_lt_or_eq.mp before with before | rfl
    · exact List.mem_cons_of_mem _ (progress.received i before)
    · exact List.mem_cons_self
  · simp [progress.receipts, List.replicate_succ']

theorem received_drivable (inv : CellInv log cell)
    (held : cell.active = some ⟨t, .executing approvalId⟩) (receiptId : Uuid) (operation : Operation) :
    Drivable (.received t.id t.stepIndex .succeeded :: log)
      { cell with row := { t with sending := false, stepIndex := t.stepIndex + 1
                                  receipts := t.receipts ++ [⟨receiptId, .succeeded, operation⟩] } } none := by
  obtain ⟨same, driven, await⟩ := inv.busy _ held
  dsimp only at same driven await
  cases await with
  | executing progress within sending state stored =>
  have driven : Driven (.received t.id t.stepIndex .succeeded :: log) cell t :=
    driven.cons Event.noConfusion Event.noConfusion
  refine ⟨?_, ?_, ⟨driven.alone, ?_, ?_, driven.shared⟩, received_progress rfl rfl rfl progress, rfl, ?_,
    fun _ none => ?_⟩
  · exact (congrArg List.length same.stepKeys).trans (inv.stored.keys.trans (congrArg List.length same.steps.symm))
  · exact fun empty => inv.stored.steps (same.steps.symm.trans empty)
  · exact same.id ▸ driven.unrestarted
  · exact same.id ▸ driven.cancelled
  · dsimp only
    cases requested : t.cancelRequested with
    | true => simpa [requested] using state
    | false =>
      have running : t.state = .running := by simpa [requested] using state
      exact ⟨by rw [running]; rfl, fun past => ⟨running, Nat.le_antisymm within past⟩⟩
  · contradiction

theorem executeAnswered_kept (inv : CellInv log cell)
    (held : cell.active = some ⟨t, .executing approvalId⟩) (answer : ExecuteAnswer) (closed : Bool) (now : Time) :
    Kept cell.row log (executeAnswered cell t answer closed now) := by
  obtain ⟨same, driven, await⟩ := inv.busy _ held
  dsimp only at same driven await
  cases await with
  | executing progress within sending state stored =>
  have ended : ∀ {log : List Event} {other : Task}, Same other t → other.cancelRequested = t.cancelRequested →
      Driven log cell t → other.state.terminal = true → other.state ≠ .completed → other.state ≠ .running →
      CellInv log (finish cell other) := by
    intro log other kept requested driven terminal uncompleted stopped
    refine inv.stored.finish (kept.trans same) ⟨driven.alone, driven.unrestarted, ?_, ?_⟩ (Or.inl terminal)
      uncompleted fun running => absurd running stopped
    · rw [requested]; exact driven.cancelled
    · rw [requested]; exact driven.shared
  unfold executeAnswered
  split
  case h_1 =>
    exact ⟨Same.rfl _, trivial, ended ⟨rfl, rfl⟩ rfl driven rfl TaskState.noConfusion TaskState.noConfusion⟩
  case h_3 =>
    exact ⟨Same.rfl _, trivial, ended ⟨rfl, rfl⟩ rfl driven rfl TaskState.noConfusion TaskState.noConfusion⟩
  case h_2 receiptId answered =>
    have event : LawfulFrom cell.row log [.received t.id t.stepIndex answered] :=
      lawfulFrom_single Event.noConfusion (congrArg some same.id) fun _ _ _ => Event.noConfusion
    have driven' : Driven (.received t.id t.stepIndex answered :: log) cell t :=
      driven.cons Event.noConfusion Event.noConfusion
    cases answered with
    | uncertain =>
      exact ⟨Same.rfl _, event, ended ⟨rfl, rfl⟩ rfl driven' rfl TaskState.noConfusion TaskState.noConfusion⟩
    | failed =>
      exact ⟨Same.rfl _, event, ended ⟨rfl, rfl⟩ rfl driven' rfl TaskState.noConfusion TaskState.noConfusion⟩
    | denied =>
      exact ⟨Same.rfl _, event, ended ⟨rfl, rfl⟩ rfl driven' rfl TaskState.noConfusion TaskState.noConfusion⟩
    | succeeded =>
      dsimp only
      generalize (t.steps[t.stepIndex]?.map Input.operation).getD .itemRead = operation
      obtain ⟨kept, lawful, after⟩ := drive_kept (received_drivable inv held receiptId operation) closed now
      refine ⟨kept.trans ⟨same.request, same.stepKeys⟩,
        lawfulFrom_append.mpr ⟨lawful.congr (by exact ⟨same.request, same.stepKeys⟩), event⟩, ?_⟩
      rw [List.append_assoc]
      exact after

theorem endAnswered_kept (inv : CellInv log cell) (held : cell.active = some ⟨t, .ending⟩) (confirmed : Bool) :
    Kept cell.row log ⟨endAnswered cell t confirmed, []⟩ := by
  obtain ⟨same, driven, await⟩ := inv.busy _ held
  dsimp only at same driven await
  cases await with
  | ending terminal completed =>
  have copies : ∀ copy ∈ (endAnswered cell t confirmed).copies, copy = { t with endConfirmed := confirmed } := by
    intro copy member
    simp only [endAnswered, Cell.release, driven.alone, List.nil_append] at member
    exact List.eq_of_mem_replicate member
  refine ⟨⟨same.request, same.stepKeys⟩, trivial, ⟨⟨?_, ?_, ?_, ?_⟩, fun _ => ⟨.settled terminal ?_, rfl⟩, ?_⟩⟩
  · exact (congrArg List.length same.stepKeys).trans (inv.stored.keys.trans (congrArg List.length same.steps.symm))
  · exact fun empty => inv.stored.steps (same.steps.symm.trans empty)
  · exact completed
  · intro copy member
    rw [copies copy member]
    exact ⟨rfl, rfl⟩
  · intro copy member
    rw [copies copy member]
    exact ⟨rfl, rfl, rfl⟩
  · intro active none
    contradiction

theorem cancel_same (t : Task) : Same (cancel t) t ∧ (cancel t).cancelRequested = true ∧
    (cancel t).sending = t.sending ∧ (cancel t).receipts = t.receipts ∧ (cancel t).stepIndex = t.stepIndex ∧
    (cancel t).state = if t.state.terminal then t.state else .cancelled := by
  unfold cancel
  split <;> simp_all [Same.mk]

theorem Progress.congr {calls : Nat} (progress : Progress log t calls) (same : Same other t)
    (receipts : other.receipts = t.receipts) (index : other.stepIndex = t.stepIndex) :
    Progress log other calls := by
  refine ⟨same.id ▸ progress.executes, fun i before => ?_, by rw [receipts, index]; exact progress.receipts⟩
  rw [same.id]
  exact progress.received i (index ▸ before)

/-- Cancelling an object keeps what its suspended call relies on. -/
theorem AwaitInv.cancel {suspended : Await} (await : AwaitInv log row t suspended)
    (quiet : ∀ step key approvalId, (.cancelRequested t.id : Event) ≠ .executed t.id step key approvalId) :
    AwaitInv (.cancelRequested t.id :: log) row (cancel t) suspended := by
  obtain ⟨same, requested, kept, receipts, index, state⟩ := cancel_same t
  cases await with
  | issuing progress start sending before stored =>
    refine .issuing ((progress.cons quiet).congr same receipts index) (index.trans start) (kept.trans sending) ?_
      (stored.imp_right fun cancelled => ⟨cancelled.1, requested⟩)
    rw [state, before, requested]
    split <;> simp_all [TaskState.terminal]
  | executing progress within sending before stored =>
    refine .executing (index ▸ (progress.cons quiet).congr same receipts index) ?_ (kept.trans sending) ?_
      (stored.imp_right fun cancelled => ⟨cancelled.1, cancelled.2.1, requested⟩)
    · rw [index, same.steps]; exact within
    · rw [state, before, requested]
      split <;> simp_all [TaskState.terminal]
  | ending terminal completed =>
    rw [if_pos terminal] at state
    refine .ending (by rw [state]; exact terminal) fun done => ?_
    rw [Done, receipts, same.steps]
    exact completed (state ▸ done)

theorem cancelCell_kept (inv : CellInv log cell) :
    Kept cell.row log ⟨cancelCell cell, [.cancelRequested cell.row.id]⟩ := by
  have event : LawfulFrom cell.row log [.cancelRequested cell.row.id] :=
    lawfulFrom_single Event.noConfusion rfl fun _ _ _ => Event.noConfusion
  have restarts : StartedBeforeRestart (.cancelRequested cell.row.id :: log) cell.row.id ↔
      StartedBeforeRestart log cell.row.id := startedBeforeRestart_cons Event.noConfusion
  unfold cancelCell
  cases held : cell.active with
  | some active =>
    obtain ⟨same, driven, await⟩ := inv.busy active held
    obtain ⟨kept, requested, _⟩ := cancel_same active.task
    have cancelled : AwaitInv (.cancelRequested cell.row.id :: log) cell.row (cancel active.task) active.await := by
      rw [← same.id]
      exact await.cancel fun _ _ _ => Event.noConfusion
    refine ⟨Same.rfl _, event, ⟨inv.stored.keys, inv.stored.steps, inv.stored.completed, inv.stored.copies⟩,
      fun none => by contradiction, fun other same' => ?_⟩
    cases same'
    exact ⟨kept.trans same, ⟨driven.alone, restarts.not.mpr driven.unrestarted, fun _ => requested,
      fun _ => requested⟩, cancelled⟩
  | none =>
    obtain ⟨idle, unshared⟩ := inv.idle held
    obtain ⟨kept, requested, sending, receipts, index, state⟩ := cancel_same cell.row
    refine ⟨Same.rfl _, event, ⟨inv.stored.keys, inv.stored.steps, inv.stored.completed, fun t member => ?_⟩,
      fun _ => ⟨?_, unshared⟩, fun active none => ?_⟩
    · rcases List.mem_append.mp member with old | new
      · exact inv.stored.copies t old
      · rw [List.mem_singleton.mp new]
        exact kept
    · cases idle with
      | awaiting stored action progress still fresh unrestarted cancelled copies =>
        refine .awaiting stored action (progress.cons fun _ _ _ => Event.noConfusion) still fresh
          (restarts.not.mpr unrestarted) (fun _ => rfl) fun t member => ?_
        rcases List.mem_append.mp member with old | new
        · obtain ⟨cancelled, sending, receipts, _⟩ := copies t old
          exact ⟨cancelled, sending, receipts, rfl⟩
        · rw [List.mem_singleton.mp new]
          rw [stored] at state
          exact ⟨state, sending, receipts, rfl⟩
      | settled terminal agree =>
        refine .settled terminal fun t member => ?_
        rcases List.mem_append.mp member with old | new
        · exact agree t old
        · rw [List.mem_singleton.mp new]
          rw [if_pos terminal] at state
          exact ⟨state, sending, receipts⟩
    · contradiction

theorem cancelSharedAnswered_kept {active : Active} (inv : CellInv log cell) (held : cell.active = some active)
    (shared : cell.shared ≠ 0) (confirmed : Bool) :
    Kept cell.row log ⟨cancelSharedAnswered cell active confirmed, []⟩ := by
  obtain ⟨t, suspended⟩ := active
  obtain ⟨same, driven, await⟩ := inv.busy _ held
  have requested : t.cancelRequested = true := driven.shared shared
  dsimp only at same driven await
  have saved : AwaitInv log { t with endConfirmed := confirmed } { t with endConfirmed := confirmed } suspended ∧
      (t.state = .completed → Done t) := by
    cases await with
    | issuing progress start sending state stored =>
      have cancelled : t.state = .cancelled := by simpa [requested] using state
      exact ⟨.issuing ⟨progress.executes, progress.received, progress.receipts⟩ start sending state
        (Or.inr ⟨cancelled, requested⟩), fun completed => by simp [completed] at cancelled⟩
    | executing progress within sending state stored =>
      have cancelled : t.state = .cancelled := by simpa [requested] using state
      exact ⟨.executing ⟨progress.executes, progress.received, progress.receipts⟩ within sending state
        (Or.inr ⟨cancelled, sending, requested⟩), fun completed => by simp [completed] at cancelled⟩
    | ending terminal completed => exact ⟨.ending terminal completed, completed⟩
  refine ⟨⟨same.request, same.stepKeys⟩, trivial, ⟨?_, ?_, saved.2, ?_⟩, fun none => by contradiction,
    fun other same' => ?_⟩
  · exact (congrArg List.length same.stepKeys).trans (inv.stored.keys.trans (congrArg List.length same.steps.symm))
  · exact fun empty => inv.stored.steps (same.steps.symm.trans empty)
  · intro copy member
    simp [cancelSharedAnswered, driven.alone] at member
  · cases same'
    refine ⟨Same.rfl _, ⟨driven.alone, ?_, fun _ => requested, fun _ => requested⟩, saved.1⟩
    exact same.id ▸ driven.unrestarted

/-- An object of its own is waited with only while nothing drives the task. -/
theorem CellInv.idle_of_copy (inv : CellInv log cell) (held : cell.copies[index]? = some t) :
    cell.active = none := by
  cases busy : cell.active with
  | none => rfl
  | some active =>
    have alone := (inv.busy active busy).2.1.alone
    simp [alone] at held

theorem cancelCopyAnswered_kept (inv : CellInv log cell) (held : cell.copies[index]? = some t)
    (confirmed : Bool) : Kept cell.row log ⟨cancelCopyAnswered cell index t confirmed, []⟩ := by
  have member : t ∈ cell.copies := List.mem_of_getElem? held
  have same := inv.stored.copies t member
  have idle := inv.idle_of_copy held
  obtain ⟨waiting, unshared⟩ := inv.idle idle
  have agree : t.state.terminal = true ∧ (t.state = .completed → Done t) ∧ ∀ copy ∈ cell.copies, Agrees copy t := by
    cases waiting with
    | awaiting state action progress sending fresh unrestarted cancelled copies =>
      obtain ⟨cancelled, sending, receipts, _⟩ := copies t member
      refine ⟨by rw [cancelled]; rfl, fun completed => by simp [completed] at cancelled, fun copy copied => ?_⟩
      obtain ⟨cancelled', sending', receipts', _⟩ := copies copy copied
      exact ⟨cancelled'.trans cancelled.symm, sending'.trans sending.symm, receipts'.trans receipts.symm⟩
    | settled terminal agree =>
      have own := agree t member
      refine ⟨by rw [own.state]; exact terminal, fun completed => ?_, fun copy copied => ?_⟩
      · rw [Done, own.receipts, same.steps]
        exact inv.stored.completed (own.state ▸ completed)
      · have other := agree copy copied
        exact ⟨other.state.trans own.state.symm, other.sending.trans own.sending.symm,
          other.receipts.trans own.receipts.symm⟩
  obtain ⟨terminal, completed, agree⟩ := agree
  refine ⟨⟨same.request, same.stepKeys⟩, trivial, ⟨?_, ?_, completed, fun copy copied => ?_⟩,
    fun _ => ⟨.settled terminal fun copy copied => ?_, unshared⟩, fun active none => ?_⟩
  · exact (congrArg List.length same.stepKeys).trans (inv.stored.keys.trans (congrArg List.length same.steps.symm))
  · exact fun empty => inv.stored.steps (same.steps.symm.trans empty)
  · have other := inv.stored.copies copy (List.mem_of_mem_eraseIdx copied)
    exact ⟨other.request.trans same.request.symm, other.stepKeys.trans same.stepKeys.symm⟩
  · have other := agree copy (List.mem_of_mem_eraseIdx copied)
    exact ⟨other.state, other.sending, other.receipts⟩
  · rw [show cell.active = some active from none] at idle
    contradiction

end ProxyPilot.Runner
