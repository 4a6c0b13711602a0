import ProxyPilot.Coordinator.Records

namespace ProxyPilot.Coordinator

open Data

/-! # What the start gate reads

The gate in terms of the rows: the latest decision on a subject, the writes nobody has
decided, and the runs the gate looks at.
-/

/-- A row with few rows before it is among the first ones. -/
theorem mem_take_of_few {α : Type} {before : α → α → Bool} {row : α} :
    ∀ {rows : List α} {limit : Nat}, rows.Pairwise (fun left right => before left right = true) → row ∈ rows →
      rows.countP (before · row) < limit → row ∈ rows.take limit
  | head :: tail, 0, _, _, few => absurd few (Nat.not_lt_zero _)
  | head :: tail, limit + 1, sorted, member, few => by
    rw [List.take_succ_cons]
    rcases List.mem_cons.mp member with rfl | later
    · exact List.mem_cons_self
    · have first : before head row = true := List.rel_of_pairwise_cons sorted later
      have counted : (head :: tail).countP (before · row) = tail.countP (before · row) + 1 :=
        List.countP_cons_of_pos first
      exact List.mem_cons_of_mem _
        (mem_take_of_few sorted.of_cons later (Nat.lt_of_succ_lt_succ (counted.symm.trans_lt few)))

variable {left right : Reconciliation} {db : Db} {runId : String} {subject : Subject} {step : Step}
  {profileId : String}

theorem Reconciliation.before_iff : left.before right = true ↔
    left.decidedAt < right.decidedAt ∨ left.decidedAt = right.decidedAt ∧ left.id ≤ right.id := by
  simp [Reconciliation.before]

theorem Reconciliation.before_refl (row : Reconciliation) : row.before row = true :=
  before_iff.mpr (.inr ⟨rfl, le_refl _⟩)

theorem Reconciliation.before_total (left right : Reconciliation) :
    left.before right = true ∨ right.before left = true := by
  rw [before_iff, before_iff]
  rcases lt_trichotomy left.decidedAt right.decidedAt with earlier | same | later
  · exact .inl (.inl earlier)
  · exact (le_total left.id right.id).imp (fun ids => .inr ⟨same, ids⟩) fun ids => .inr ⟨same.symm, ids⟩
  · exact .inr (.inl later)

theorem Reconciliation.before_trans {first second third : Reconciliation} (before : first.before second = true)
    (after : second.before third = true) : first.before third = true := by
  rw [before_iff] at before after ⊢
  rcases before with earlier | ⟨same, ids⟩
  · rcases after with earlier' | ⟨same', _⟩
    · exact .inl (earlier.trans earlier')
    · exact .inl (same' ▸ earlier)
  · rcases after with earlier' | ⟨same', ids'⟩
    · exact .inl (same.symm ▸ earlier')
    · exact .inr ⟨same.trans same', ids.trans ids'⟩

theorem Reconciliation.before_time (before : left.before right = true) :
    left.decidedAt ≤ right.decidedAt := by
  rcases before_iff.mp before with earlier | ⟨same, _⟩
  · exact earlier.le
  · exact same.le

instance : Std.Total fun left right : Reconciliation => left.before right = true := ⟨Reconciliation.before_total⟩

instance : IsTrans Reconciliation fun left right => left.before right = true :=
  ⟨fun _ _ _ => Reconciliation.before_trans⟩

theorem decisionsOf_sorted (db : Db) (runId : String) :
    (db.decisionsOf runId).Pairwise fun left right => left.before right = true :=
  List.pairwise_insertionSort _ _

variable {row : Reconciliation} {item : SubjectItem} {run : AgentRun}

theorem mem_decisionsOf :
    row ∈ db.decisionsOf runId ↔ row ∈ db.reconciliations ∧ row.runId = runId := by
  unfold Db.decisionsOf
  rw [(List.perm_insertionSort _ _).mem_iff, List.mem_filter, decide_eq_true_eq]

/-- In order of time the last decision on the subject replaces all others. -/
theorem latestDecision_sorted : ∀ {decisions : List Reconciliation} {previous : Option Reconciliation},
    decisions.Pairwise (fun left right => left.before right = true) →
    (∀ old ∈ previous, ∀ row ∈ decisions, old.decidedAt ≤ row.decidedAt) →
    decisions.foldl (laterDecision subject) previous =
      ((decisions.filter (·.subject = subject)).getLast?).or previous
  | [], _, _, _ => rfl
  | head :: tail, previous, sorted, late => by
    rw [List.foldl_cons]
    by_cases about : head.subject = subject
    · have later : ∀ old ∈ some head, ∀ row ∈ tail, old.decidedAt ≤ row.decidedAt := by
        intro old same row member
        cases same
        exact Reconciliation.before_time (List.rel_of_pairwise_cons sorted member)
      have rest := (latestDecision_sorted sorted.of_cons later).trans
        (show ((tail.filter (·.subject = subject)).getLast?).or (some head) =
          some (((tail.filter (·.subject = subject)).getLast?).getD head) by
            cases (tail.filter (·.subject = subject)).getLast? <;> rfl)
      have taken : laterDecision subject previous head = some head := by
        unfold laterDecision
        rw [if_pos about]
        cases previous with
        | none => rfl
        | some old => exact if_pos (late old rfl head List.mem_cons_self)
      rw [taken, List.filter_cons_of_pos (by simpa using about), List.getLast?_cons]
      exact rest
    · have kept : laterDecision subject previous head = previous := if_neg about
      rw [kept, List.filter_cons_of_neg (by simpa using about)]
      exact latestDecision_sorted sorted.of_cons fun old same row member =>
        late old same row (List.mem_cons_of_mem _ member)

/-- The decision that was made last. -/
structure Latest (decisions : List Reconciliation) (runId : String) (subject : Subject)
    (row : Reconciliation) : Prop where
  stored : row ∈ decisions
  owned : row.runId = runId
  about : row.subject = subject
  last : ∀ other ∈ decisions, other.runId = runId → other.subject = subject → other.before row = true

theorem latestDecision_latest
    (latest : latestDecision (db.decisionsOf runId) subject = some row) :
    Latest db.reconciliations runId subject row := by
  have sorted := decisionsOf_sorted db runId
  rw [latestDecision, latestDecision_sorted sorted (by simp), Option.or_none] at latest
  have about (other : Reconciliation) : other ∈ (db.decisionsOf runId).filter (·.subject = subject) ↔
      (other ∈ db.reconciliations ∧ other.runId = runId) ∧ other.subject = subject := by
    rw [List.mem_filter, mem_decisionsOf, decide_eq_true_eq]
  obtain ⟨⟨stored, owned⟩, named⟩ := (about row).mp (List.mem_of_getLast? latest)
  refine ⟨stored, owned, named, fun other stored' owned' subject' => ?_⟩
  have member := (about other).mpr ⟨⟨stored', owned'⟩, subject'⟩
  have last :=
    (List.Pairwise.filter (fun other => decide (other.subject = _))
    sorted).rel_getLast_of_rel_getLast_getLast member
    (Reconciliation.before_refl _)
  have row_last := (List.getLast?_eq_some_getLast (List.ne_nil_of_mem member)).symm.trans latest
  exact Option.some.inj row_last ▸ last

theorem latestDecision_none
    (none_ : latestDecision (db.decisionsOf runId) subject = none) :
    ∀ row ∈ db.reconciliations, row.runId = runId → row.subject ≠ subject := by
  rw [latestDecision, latestDecision_sorted (decisionsOf_sorted db runId) (by simp), Option.or_none,
    List.getLast?_eq_none_iff] at none_
  intro row stored owned same
  have member : row ∈ (db.decisionsOf runId).filter (·.subject = subject) :=
    List.mem_filter.mpr ⟨mem_decisionsOf.mpr ⟨stored, owned⟩, decide_eq_true same⟩
  rw [none_] at member
  contradiction

/-- A person has decided the step, as far as anyone knows last. -/
def Db.Confirmed (db : Db) (step : Step) : Prop :=
  ∃ row, Latest db.reconciliations step.runId (.step step.ordinal) row ∧
    (row.decision = .happened ∨ row.decision = .didNotHappen)

/-- A write whose outcome nobody recorded, or a submit that ended in a timeout. -/
def Step.unconfirmed (step : Step) : Bool :=
  (writeActions.contains step.action && step.state ≠ .done && step.state ≠ .failed) || step.timedOut

/-- The run has an unconfirmed write that nobody has decided. -/
def Db.OpenRun (db : Db) (runId : String) : Prop :=
  ∃ step ∈ db.steps.rows, step.runId = runId ∧ step.unconfirmed = true ∧ ¬ db.Confirmed step

/-- A finished run of the profile has one. -/
def Db.OpenWrite (db : Db) (profileId : String) : Prop :=
  ∃ run ∈ db.runs.rows, run.profileId = profileId ∧ (db.results.get run.id).isSome = true ∧ db.OpenRun run.id

theorem Step.timedOut_write (timedOut : step.timedOut = true) : writeActions.contains step.action = true := by
  simp only [Step.timedOut, Bool.and_eq_true, decide_eq_true_eq] at timedOut
  rw [timedOut.1.1]
  rfl

theorem Step.unconfirmed_write (unconfirmed : step.unconfirmed = true) :
    writeActions.contains step.action = true := by
  simp only [Step.unconfirmed, Bool.or_eq_true, Bool.and_eq_true] at unconfirmed
  exact unconfirmed.elim (·.1.1) timedOut_write

/-- What the decisions look like. -/
structure DecisionInv (decisions : List Reconciliation) : Prop where
  ids : (decisions.map Reconciliation.id).Nodup
  steps : ∀ row ∈ decisions, ∀ ordinal, row.subject = .step ordinal → row.decision ≠ .acknowledged

theorem Latest.unique {decisions : List Reconciliation} (inv : DecisionInv decisions)
    (first : Latest decisions runId subject left) (second : Latest decisions runId subject right) :
    left = right := by
  have before := first.last right second.stored second.owned second.about
  have after := second.last left first.stored first.owned first.about
  refine List.inj_on_of_nodup_map inv.ids first.stored second.stored ?_
  rw [Reconciliation.before_iff] at before after
  rcases before with earlier | ⟨same, ids⟩
  · rcases after with later | ⟨same, _⟩
    · exact absurd later earlier.not_gt
    · exact absurd same earlier.ne'
  · rcases after with later | ⟨_, ids'⟩
    · exact absurd same later.ne'
    · exact le_antisymm ids' ids

/-- A decision that settles a step is one of a person about what happened. -/
theorem decided_iff (inv : DecisionInv db.reconciliations) (step : Step) :
    (latestDecision (db.decisionsOf step.runId) (.step step.ordinal)).any (·.decision ≠ .unknown) =
      true ↔ db.Confirmed step := by
  constructor
  · intro decided
    cases latest : latestDecision (db.decisionsOf step.runId) (.step step.ordinal) with
    | none =>
      rw [latest] at decided
      contradiction
    | some row =>
      have last := latestDecision_latest latest
      have kept := inv.steps row last.stored step.ordinal last.about
      refine ⟨row, last, ?_⟩
      cases verdict : row.decision with
      | happened => exact .inl rfl
      | didNotHappen => exact .inr rfl
      | unknown => simp [latest, verdict] at decided
      | acknowledged => exact absurd verdict kept
  · rintro ⟨row, last, known⟩
    cases latest : latestDecision (db.decisionsOf step.runId) (.step step.ordinal) with
    | none => exact absurd last.about (latestDecision_none latest row last.stored last.owned)
    | some other =>
      have same : other = row := (latestDecision_latest latest).unique inv last
      subst same
      rcases known with verdict | verdict <;> simp [verdict]

/-- The subject of a write is one of the steps. -/
theorem mem_uncertainSubjects {steps : List Step} {calls : List ModelCall} {result : Option RunResult}
    (write : item.kind = .write) :
    item ∈ uncertainSubjects steps calls result ↔ ∃ step ∈ steps, step.subjectItem = some item := by
  have listed : item ∈ steps.filterMap Step.subjectItem ++ calls.filterMap ModelCall.subjectItem ↔
      ∃ step ∈ steps, step.subjectItem = some item := by
    rw [List.mem_append, List.mem_filterMap, or_iff_left]
    intro member
    obtain ⟨call, _, same⟩ := List.mem_filterMap.mp member
    unfold ModelCall.subjectItem at same
    split at same
    · cases same
      contradiction
    · contradiction
  unfold uncertainSubjects
  cases result with
  | none => exact listed
  | some result =>
    simp only
    split
    case isTrue alone =>
        simp only [Bool.and_eq_true, List.isEmpty_iff] at alone
        rw [← listed, alone.1.1]
        simp only [List.mem_singleton, List.not_mem_nil, iff_false]
        rintro rfl
        contradiction
    · exact listed

theorem subjectItem_write :
    step.subjectItem = some item ∧ item.kind = .write → item.subject = .step step.ordinal ∧
      writeActions.contains step.action = true ∧ (step.state = .uncertain ∨ step.timedOut = true) := by
  rintro ⟨same, write⟩
  unfold Step.subjectItem at same
  split at same
  · contradiction
  case isFalse uncertain =>
      cases same
      refine ⟨rfl, ?_, ?_⟩
      · by_contra read
        rw [if_neg read] at write
        contradiction
      · simp only [ne_eq, decide_not, Bool.and_eq_true, Bool.not_eq_eq_eq_not, Bool.not_true,
          decide_eq_false_iff_not,
          not_and, Bool.not_eq_false] at uncertain
        exact (Decidable.em (step.state = .uncertain)).imp_right uncertain

theorem subjectItem_some (write : writeActions.contains step.action = true)
    (uncertain : step.state = .uncertain ∨ step.timedOut = true) :
    ∃ item, step.subjectItem = some item ∧ item.kind = .write ∧ item.subject = .step step.ordinal := by
  unfold Step.subjectItem
  rw [if_neg (by rcases uncertain with state | timedOut <;> simp [*])]
  exact ⟨_, rfl, if_pos write, rfl⟩

/-- A run gates its profile by a write that stands as uncertain. -/
theorem gating_iff (inv : DecisionInv db.reconciliations) (runId : String) :
    (gating db runId).isEmpty = false ↔ ∃ step ∈ db.steps.rows, step.runId = runId ∧
      writeActions.contains step.action = true ∧
      (step.state = .uncertain ∨ step.timedOut = true) ∧ ¬ db.Confirmed step := by
  have steps (step : Step) : step ∈ (db.stepsOf runId).insertionSort (·.ordinal ≤ ·.ordinal) ↔
      step ∈ db.steps.rows ∧ step.runId = runId := by
    rw [List.mem_insertionSort, Db.stepsOf, List.mem_filter, decide_eq_true_eq]
  have gates : (gating db runId).isEmpty = false ↔ ∃ item ∈ runSubjects db runId, item.gates = true := by
    rw [gating, List.isEmpty_eq_false_iff_exists_mem]
    simp only [List.mem_filter]
  rw [gates]
  constructor
  · rintro ⟨item, member, gates⟩
    obtain ⟨subject, listed, rfl⟩ := List.mem_map.mp member
    simp only [DecidedItem.gates, Bool.and_eq_true, decide_eq_true_eq, Bool.not_eq_eq_eq_not,
      Bool.not_true] at gates
    obtain ⟨step, stored, same⟩ := (mem_uncertainSubjects gates.1).mp listed
    obtain ⟨stored, owned⟩ := (steps step).mp stored
    obtain ⟨named, write, uncertain⟩ := subjectItem_write ⟨same, gates.1⟩
    refine ⟨step, stored, owned, write, uncertain, fun confirmed => ?_⟩
    have decided := (decided_iff inv step).mpr confirmed
    rw [owned, ← named] at decided
    exact Bool.false_ne_true (gates.2.symm.trans decided)
  · rintro ⟨step, stored, owned, write, uncertain, undecided⟩
    obtain ⟨item, same, kind, named⟩ := subjectItem_some write uncertain
    refine ⟨_,
      List.mem_map_of_mem ((mem_uncertainSubjects kind).mpr ⟨step, (steps step).mpr ⟨stored, owned⟩, same⟩), ?_⟩
    simp only [DecidedItem.gates, Bool.and_eq_true, decide_eq_true_eq, Bool.not_eq_eq_eq_not, Bool.not_true]
    refine ⟨kind, Bool.eq_false_iff.mpr fun decided => undecided ((decided_iff inv step).mp ?_)⟩
    rw [owned, ← named]
    exact decided

theorem AgentRun.newer_total (left right : AgentRun) : left.newer right = true ∨ right.newer left = true := by
  simp only [AgentRun.newer, Bool.or_eq_true, Bool.and_eq_true, decide_eq_true_eq]
  rcases lt_trichotomy left.startedAt right.startedAt with earlier | same | later
  · exact .inr (.inl earlier)
  · exact (le_total right.id left.id).imp (fun ids => .inr ⟨same, ids⟩) fun ids => .inr ⟨same.symm, ids⟩
  · exact .inl (.inl later)

theorem AgentRun.newer_trans {first second third : AgentRun} (before : first.newer second = true)
    (after : second.newer third = true) : first.newer third = true := by
  simp only [AgentRun.newer, Bool.or_eq_true, Bool.and_eq_true, decide_eq_true_eq] at before after ⊢
  rcases before with earlier | ⟨same, ids⟩
  · rcases after with earlier' | ⟨same', _⟩
    · exact .inl (earlier'.trans earlier)
    · exact .inl (same' ▸ earlier)
  · rcases after with earlier' | ⟨same', ids'⟩
    · exact .inl (same ▸ earlier')
    · exact .inr ⟨same.trans same', ids'.trans ids⟩

instance : Std.Total fun left right : AgentRun => left.newer right = true := ⟨AgentRun.newer_total⟩

instance : IsTrans AgentRun fun left right => left.newer right = true := ⟨fun _ _ _ => AgentRun.newer_trans⟩

/-- The other runs of the profile that started later. -/
def Db.newerRuns (db : Db) (run : AgentRun) : Nat :=
  db.runs.rows.countP fun other => other.profileId = run.profileId && other.id ≠ run.id && other.newer run

theorem mem_finishedRuns : run ∈ db.finishedRuns profileId ↔
    run ∈ db.runs.rows ∧ run.profileId = profileId ∧ (db.results.get run.id).isSome = true := by
  unfold Db.finishedRuns
  rw [List.mem_insertionSort, List.mem_filter]
  simp

/-- The gate looks at a finished run with fewer than 200 newer ones. -/
theorem mem_take_finishedRuns (finished : run ∈ db.finishedRuns profileId)
    (few : db.newerRuns run < gateLimit) : run ∈ (db.finishedRuns profileId).take gateLimit := by
  have sorted : (db.finishedRuns profileId).Pairwise fun left right =>
      (left.profileId = right.profileId && left.id ≠ right.id && left.newer right) = true := by
    have newer : (db.finishedRuns profileId).Pairwise fun left right => left.newer right = true :=
      List.pairwise_insertionSort _ _
    have distinct : (db.finishedRuns profileId).Pairwise fun left right => left.id ≠ right.id := by
      refine List.pairwise_map.mp (List.Nodup.perm ?_ ((List.perm_insertionSort _ _).map AgentRun.id).symm)
      exact db.runs.distinct.sublist (List.filter_sublist.map AgentRun.id)
    refine (newer.and distinct).imp_of_mem fun member member' both => ?_
    have same := (mem_finishedRuns.mp member).2.1.trans (mem_finishedRuns.mp member').2.1.symm
    simp [same, both.1, both.2]
  refine mem_take_of_few sorted finished (lt_of_le_of_lt ?_ few)
  unfold Db.finishedRuns Db.newerRuns
  rw [(List.perm_insertionSort _ _).countP_eq]
  exact List.filter_sublist.countP_le

theorem profileGate_iff :
    (profileGate db profileId).isSome = true ↔
      ∃ run ∈ (db.finishedRuns profileId).take gateLimit, (gating db run.id).isEmpty = false := by
  unfold profileGate
  rw [Option.isSome_map, List.find?_isSome]
  simp

end ProxyPilot.Coordinator
