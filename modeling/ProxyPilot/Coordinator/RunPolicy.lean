import Mathlib.Data.List.TakeWhile
import ProxyPilot.Coordinator.Records
import ProxyPilot.Transition.System

namespace ProxyPilot.Coordinator

open Transition

/-! # Runs of the policy

A run asks `nextStep`, performs what it chose and appends the outcome, until a
decision to stop. Permissions, outcomes and the model's choice are the turn's.
-/

theorem Rules.stop_needs_account (rules : Rules) : StopCondition.verifiedAccount ∈ rules.stopWhen := by
  have accepted := rules.accepted
  simp only [RuleBlock.accepted, Bool.and_eq_true, List.contains_iff_mem] at accepted
  exact accepted.1.1.1.1.2

theorem Rules.not_forbidden (rules : Rules) {action : BrowserAction}
    (named : action ∈ rules.start ++ rules.finish ++ rules.modelActions) : action ∉ rules.forbid := by
  have accepted := rules.accepted
  simp only [RuleBlock.accepted, Bool.and_eq_true, List.all_eq_true] at accepted
  simpa using accepted.1.1.1.2 action named

theorem Rules.start_not_forbidden (rules : Rules) {action : BrowserAction} (named : action ∈ rules.start) :
    action ∉ rules.forbid :=
  rules.not_forbidden (by simp [named])

theorem Rules.finish_not_forbidden (rules : Rules) {action : BrowserAction} (named : action ∈ rules.finish) :
    action ∉ rules.forbid :=
  rules.not_forbidden (by simp [named])

theorem Rules.finish_not_submit (rules : Rules) : BrowserAction.submitBoundFixture ∉ rules.finish := by
  have accepted := rules.accepted
  simp only [RuleBlock.accepted, Bool.and_eq_true] at accepted
  simpa using accepted.1.1.2

theorem Rules.session_not_forbidden (rules : Rules) : BrowserAction.readSession ∉ rules.forbid := by
  have accepted := rules.accepted
  simp only [RuleBlock.accepted, Bool.and_eq_true] at accepted
  simpa using accepted.1.2

theorem Rules.offers_once (rules : Rules) : rules.modelActions.Nodup := by
  have accepted := rules.accepted
  simp only [RuleBlock.accepted, Bool.and_eq_true, decide_eq_true_eq] at accepted
  exact accepted.1.1.1.1.1.1.1.1.1.1.1.1.1.1.1.1.2

/-- The sign-in went through and names the bound account. -/
structure FinishedStep.Reports (step : FinishedStep) : Prop where
  submits : step.action = .submitBoundFixture
  done : step.done = true
  signedIn : step.claims.outcome = some .signedIn
  bound : step.claims.asBoundAccount = some true

def Untried (steps : List FinishedStep) (action : BrowserAction) : Prop := ∀ step ∈ steps, step.action ≠ action

/-- The first sign-in, where there is one, reports the bound account. -/
def Reported (steps : List FinishedStep) : Prop :=
  ∀ submit, steps.find? (·.action = .submitBoundFixture) = some submit → submit.Reports

/-- The account is proved by a session read after the sign-in. -/
def Verified (steps : List FinishedStep) : Prop :=
  ∃ earlier submit later read, steps = earlier ++ submit :: later ∧ submit.Reports ∧ read ∈ later ∧
    read.action = .readSession ∧ read.done = true ∧ read.claims.asBoundAccount = some true

/-- A sign-in that reports the bound account waits for its session read. -/
def Awaiting (steps : List FinishedStep) : Prop :=
  (∃ submit, steps.find? (·.action = .submitBoundFixture) = some submit ∧ submit.Reports) ∧ sessionReads steps = []

/-- An action that the rules leave open. -/
structure Open (rules : Rules) (steps : List FinishedStep) (canSubmit : Bool) (action : BrowserAction) : Prop where
  untried : Untried steps action
  unforbidden : action ∉ rules.forbid
  binding : action = .submitBoundFixture → canSubmit = true

/-- What a decision may be. -/
inductive Decided (rules : Rules) (steps : List FinishedStep) (permitted : BrowserAction → Bool)
    (canSubmit : Bool) :
    Decision → Prop
  | refused {state result} (incomplete : state ≠ .completed) :
      Decided rules steps permitted canSubmit (.stop state result)
  | completed (verified : Verified steps) :
      Decided rules steps permitted canSubmit (.stop .completed .verifiedAccount)
  | verify (awaiting : Awaiting steps) :
      Decided rules steps permitted canSubmit (.action .readSession .verifyAccount)
  | rule {action name} (within : steps.length < rules.maxSteps) (reported : Reported steps)
      (isOpen : Open rules steps canSubmit action) (named : name ≠ .verifyAccount) :
      Decided rules steps permitted canSubmit (.action action name)
  | model {allowed} (within : steps.length < rules.maxSteps) (reported : Reported steps)
      (choice : 2 ≤ allowed.length)
      (once : allowed.Nodup) (offered : ∀ action ∈ allowed, action ∈ rules.modelActions)
      (may : ∀ action ∈ allowed, permitted action = true)
        (isOpen : ∀ action ∈ allowed, Open rules steps canSubmit action) :
      Decided rules steps permitted canSubmit (.model allowed)

variable {rules : Rules} {steps : List FinishedStep} {permitted : BrowserAction → Bool} {canSubmit : Bool}

theorem outcomeResult_incomplete (outcome : SubmitOutcome) : (outcomeResult outcome).1 ≠ .completed := by
  cases outcome <;> simp [outcomeResult]

theorem untried_of_any {action : BrowserAction} (untried : (steps.any (·.action = action)) = false) :
    Untried steps action := by
  simpa [Untried] using untried

theorem nextByRules_decided (reported : Reported steps) :
    Decided rules steps permitted canSubmit (nextByRules rules steps permitted canSubmit) := by
  simp only [nextByRules]
  split
  · exact .refused (by simp)
  rename_i room
  have within : steps.length < rules.maxSteps := by omega
  split
  case h_1 start found =>
    have untried := List.find?_some found
    split
    · exact .refused (by simp)
    · rename_i allowed
      refine .rule within reported ⟨untried_of_any (by simpa using untried), ?_, ?_⟩ (by simp)
      · exact rules.start_not_forbidden (List.mem_of_find?_eq_some found)
      · intro submits
        simp only [submits, Bool.or_eq_true, Bool.not_eq_true', Bool.and_eq_true, decide_true,
          true_and, not_or] at allowed
        simpa using allowed.2
  case h_2 =>
    have each : ∀ action ∈ rules.modelActions.filter fun action =>
        !rules.forbid.contains action && !steps.any (·.action = action) && permitted action &&
          (action ≠ .submitBoundFixture || canSubmit), permitted action = true ∧
            Open rules steps canSubmit action := by
      intro action member
      simp only [List.mem_filter, Bool.and_eq_true, Bool.not_eq_true', Bool.or_eq_true, decide_eq_true_eq] at member
      obtain ⟨-, ⟨⟨unforbidden, untried⟩, may⟩, binding⟩ := member
      exact ⟨may, untried_of_any untried,
        by simpa using unforbidden, fun submits => binding.resolve_left (by simp [submits])⟩
    split
    · exact .refused (by simp)
    · rename_i single
      exact .rule within reported (each _ (by rw [single]; exact List.mem_singleton_self _)).2 (by simp)
    · rename_i none several
      refine .model within reported ?_ (rules.offers_once.filter _)
        (fun action member => (List.mem_filter.mp member).1)
        (fun action member => (each action member).1) (fun action member => (each action member).2)
      match h : rules.modelActions.filter _ with
      | [] => exact absurd h none
      | [action] => exact absurd h (several action)
      | _ :: _ :: _ => simp

/-- A session read after the first sign-in is one of a run that is split there. -/
theorem verified_of_reads {submit read : FinishedStep}
    (found : steps.find? (·.action = .submitBoundFixture) = some submit)
    (reports : submit.Reports) (member : read ∈ sessionReads steps) (done : read.done = true)
    (bound : read.claims.asBoundAccount = some true) : Verified steps := by
  obtain ⟨-, earlier, later, rfl, before⟩ := List.find?_eq_some_iff_append.mp found
  have dropped : (earlier ++ submit :: later).dropWhile (·.action ≠ .submitBoundFixture) = submit :: later := by
    rw [List.dropWhile_append_of_pos (by simpa using before)]
    simp [reports.submits]
  simp only [sessionReads, dropped, List.drop_succ_cons, List.drop_zero, List.mem_filter,
    decide_eq_true_eq] at member
  exact ⟨earlier, submit, later, read, rfl, reports, member.1, member.2, done, bound⟩

/-- Before a sign-in nothing is verified, so only the rules decide. -/
theorem nextStep_unsubmitted (found : steps.find? (·.action = .submitBoundFixture) = none) :
    nextStep rules steps permitted canSubmit =
      if steps.any fun step => rules.start.contains step.action && !step.done then .stop .blocked .actionFailed
      else nextByRules rules steps permitted canSubmit := by
  have unmet : (rules.stopWhen.all fun condition => condition = .filesRead && steps.any fun step =>
      step.action = .readFiles && step.done && step.claims.samplePresent = some true) = false :=
    List.all_eq_false.mpr ⟨_, rules.stop_needs_account, by simp⟩
  simp [nextStep, found, unmet]

theorem nextStep_submitted_decided {submit : FinishedStep}
    (found : steps.find? (·.action = .submitBoundFixture) = some submit) :
    Decided rules steps permitted canSubmit (nextStep rules steps permitted canSubmit) := by
  simp only [nextStep, found, Option.any_some, Option.isSome_some, if_true, Option.map_some, Option.bind_some]
  split
  · exact .refused (by simp)
  rename_i done
  split
  · exact .refused (outcomeResult_incomplete _)
  rename_i signedIn
  have reports (bound : submit.claims.asBoundAccount = some true) : submit.Reports :=
    ⟨by simpa using List.find?_some found, by simpa using done, by simpa using signedIn, bound⟩
  split
  · exact .refused (by simp)
  split
  · rename_i awaiting
    simp only [Bool.and_eq_true, decide_eq_true_eq, List.isEmpty_iff] at awaiting
    exact .verify ⟨⟨submit, found, reports awaiting.1.1⟩, awaiting.1.2⟩
  split
  · exact .refused (by simp)
  rename_i proved
  simp only [Bool.true_and, Bool.not_eq_true', Bool.not_eq_false, Bool.and_eq_true,
    decide_eq_true_eq, List.any_eq_true]
    at proved
  obtain ⟨bound, read, member, readDone, readBound⟩ := proved
  have reported : Reported steps := by
    intro first first_found
    cases found.symm.trans first_found
    exact reports bound
  split
  · split
    · rename_i finish chosen
      obtain ⟨chosen, room⟩ := Option.filter_eq_some_iff.mp chosen
      have may := List.find?_some chosen
      have named := List.mem_of_find?_eq_some chosen
      simp only [Bool.and_eq_true, Bool.not_eq_true'] at may
      refine .rule (by simpa using room) reported ⟨untried_of_any may.1,
        rules.finish_not_forbidden named, ?_⟩ (by simp)
      intro submits
      exact absurd (submits ▸ named) rules.finish_not_submit
    · exact .completed (verified_of_reads found (reports bound) member readDone readBound)
  · exact nextByRules_decided reported

theorem nextStep_decided : Decided rules steps permitted canSubmit (nextStep rules steps permitted canSubmit) := by
  cases found : steps.find? (·.action = .submitBoundFixture) with
  | none =>
    rw [nextStep_unsubmitted found]
    split
    · exact .refused (by simp)
    · exact nextByRules_decided fun submit first => absurd (found.symm.trans first) (by simp)
  | some submit => exact nextStep_submitted_decided found

/-- What a turn finds permitted, what the model picks, and how the step comes out. -/
structure Turn where
  permitted : BrowserAction → Bool
  canSubmit : Bool
  choice : BrowserAction
  done : Bool
  claims : Claims

structure PolicyRun where
  steps : List FinishedStep := []
  ended : Option (StopState × ResultClass) := none

def Turn.step (turn : Turn) (action : BrowserAction) : FinishedStep := ⟨action, turn.done, turn.claims⟩

/-- A choice outside the offered list is no turn. -/
def policyRun (rules : Rules) : System PolicyRun Turn where
  initial run := run = {}
  step run turn :=
    if run.ended.isSome then none
    else
      match nextStep rules run.steps turn.permitted turn.canSubmit with
      | .stop state result => some { run with ended := some (state, result) }
      | .action action _ => some { run with steps := run.steps ++ [turn.step action] }
      | .model allowed =>
        if turn.choice ∈ allowed then some { run with steps := run.steps ++ [turn.step turn.choice] } else none

variable {run next : PolicyRun} {turn : Turn} {action : BrowserAction}

/-- A turn ends the run, reads the session for the sign-in, or takes an action left open. -/
theorem policyRun_cases (moved : (policyRun rules).step run turn = some next) : run.ended = none ∧
    ((next.steps = run.steps ∧ ∃ state result, next.ended = some (state, result) ∧
        (state = .completed → Verified run.steps)) ∨
      (next.ended = none ∧ Awaiting run.steps ∧ next.steps = run.steps ++ [turn.step .readSession]) ∨
      (next.ended = none ∧ run.steps.length < rules.maxSteps ∧
        ∃ action, Untried run.steps action ∧ next.steps = run.steps ++ [turn.step action])) := by
  have decided : Decided rules run.steps turn.permitted turn.canSubmit _ := nextStep_decided
  cases ended : run.ended with
  | some result => simp [policyRun, ended] at moved
  | none =>
    refine ⟨rfl, ?_⟩
    cases decision : nextStep rules run.steps turn.permitted turn.canSubmit with
    | stop state result =>
      simp only [policyRun, ended, decision, Option.isSome_none, Bool.false_eq_true, if_false,
        Option.some.injEq] at moved
      subst moved
      refine .inl ⟨rfl, state, result, rfl, fun complete => ?_⟩
      cases decision ▸ decided with
      | refused incomplete => exact absurd complete incomplete
      | completed verified => exact verified
    | action action name =>
      simp only [policyRun, ended, decision, Option.isSome_none, Bool.false_eq_true, if_false,
        Option.some.injEq] at moved
      subst moved
      cases decision ▸ decided with
      | verify awaiting => exact .inr (.inl ⟨rfl, awaiting, rfl⟩)
      | rule within reported isOpen named => exact .inr (.inr ⟨rfl, within, action, isOpen.untried, rfl⟩)
    | model allowed =>
      simp only [policyRun, ended, decision, Option.isSome_none, Bool.false_eq_true, if_false,
        Option.ite_none_right_eq_some, Option.some.injEq] at moved
      obtain ⟨offered, rfl⟩ := moved
      cases decision ▸ decided with
      | model within reported choice once listed may isOpen =>
        exact .inr (.inr ⟨rfl, within, turn.choice, (isOpen _ offered).untried, rfl⟩)

def taken (steps : List FinishedStep) (action : BrowserAction) : Nat := steps.countP (·.action = action)

@[simp] theorem taken_nil : taken [] action = 0 := rfl

@[simp] theorem taken_snoc {step : FinishedStep} :
    taken (steps ++ [step]) action = taken steps action + if step.action = action then 1 else 0 := by
  simp [taken, List.countP_singleton]

theorem taken_untried (untried : Untried steps action) : taken steps action = 0 := by
  simpa [taken, List.countP_eq_zero, Untried] using untried

@[simp] theorem sessionReads_nil : sessionReads [] = [] := rfl

theorem sessionReads_taken : (sessionReads steps).length ≤ taken steps .readSession := by
  have inside : (steps.dropWhile (·.action ≠ .submitBoundFixture)).drop 1 <:+ steps :=
    (List.drop_suffix _ _).trans (List.dropWhile_suffix _)
  simp only [sessionReads, taken, ← List.countP_eq_length_filter]
  exact inside.sublist.countP_le

theorem unsubmitted_iff : steps.dropWhile (·.action ≠ .submitBoundFixture) = [] ↔
    Untried steps .submitBoundFixture := by
  simp [Untried, List.dropWhile_eq_nil_iff]

/-- Without a sign-in there is no read after it; with one, a further session read joins the reads. -/
theorem sessionReads_unsubmitted (unsubmitted : Untried steps .submitBoundFixture) : sessionReads steps = [] := by
  rw [sessionReads, unsubmitted_iff.mpr unsubmitted]
  rfl

theorem sessionReads_submitted (submitted : ¬ Untried steps .submitBoundFixture) (step : FinishedStep) :
    sessionReads (steps ++ [step]) = sessionReads steps ++ [step].filter (·.action = .readSession) := by
  cases left : steps.dropWhile (·.action ≠ .submitBoundFixture) with
  | nil => exact absurd (unsubmitted_iff.mp left) submitted
  | cons first rest =>
    simp only [sessionReads, List.dropWhile_append, left, List.isEmpty_cons, Bool.false_eq_true,
      if_false, List.cons_append,
      List.drop_succ_cons, List.drop_zero, List.filter_append]

theorem sessionReads_kept (step : FinishedStep) :
    (sessionReads steps).length ≤ (sessionReads (steps ++ [step])).length := by
  by_cases unsubmitted : Untried steps .submitBoundFixture
  · simp [sessionReads_unsubmitted unsubmitted]
  · simp [sessionReads_submitted unsubmitted]

theorem sessionReads_other {step : FinishedStep} (other : step.action ≠ .readSession) :
    sessionReads (steps ++ [step]) = sessionReads steps := by
  by_cases unsubmitted : Untried steps .submitBoundFixture
  · rw [sessionReads_unsubmitted unsubmitted, sessionReads, List.dropWhile_append, unsubmitted_iff.mpr unsubmitted]
    by_cases submits : step.action = .submitBoundFixture <;> simp [submits]
  · simp [sessionReads_submitted unsubmitted, other]

/-- The counts of a run's steps. -/
structure Counted (rules : Rules) (steps : List FinishedStep) : Prop where
  once : ∀ action, action ≠ .readSession → taken steps action ≤ 1
  session : taken steps .readSession ≤ 1 + (sessionReads steps).length
  verifying : (sessionReads steps).length ≤ 1
  within : steps.length ≤ rules.maxSteps + (sessionReads steps).length

theorem Counted.untried {step : FinishedStep} (counted : Counted rules steps) (room : steps.length < rules.maxSteps)
    (untried : Untried steps step.action) : Counted rules (steps ++ [step]) := by
  have kept : (sessionReads steps).length ≤ _ := sessionReads_kept step
  have none_yet := taken_untried untried
  refine ⟨fun action other => ?_, ?_, ?_, ?_⟩
  · have before := counted.once action other
    by_cases same : step.action = action
    · subst same; simp [none_yet]
    · simpa [same] using before
  · have before := counted.session
    by_cases reads : step.action = .readSession
    · simp [reads, reads ▸ none_yet]
    · simp only [taken_snoc, reads, if_false]; omega
  · by_cases reads : step.action = .readSession
    · have bound : (sessionReads (steps ++ [step])).length ≤ _ := sessionReads_taken
      simpa [reads, reads ▸ none_yet] using bound
    · rw [sessionReads_other reads]
      exact counted.verifying
  · simp only [List.length_append, List.length_singleton]
    omega

theorem Counted.verify {step : FinishedStep} (counted : Counted rules steps) (awaiting : Awaiting steps)
    (reads : step.action = .readSession) : Counted rules (steps ++ [step]) := by
  obtain ⟨⟨submit, found, reports⟩, unread⟩ := awaiting
  have submitted : ¬ Untried steps .submitBoundFixture := fun untried =>
    untried submit (List.mem_of_find?_eq_some found) reports.submits
  have read : sessionReads (steps ++ [step]) = [step] := by
    simp [sessionReads_submitted submitted, unread, reads]
  have session := counted.session
  have within := counted.within
  rw [unread, List.length_nil] at session within
  refine ⟨fun action other => ?_, ?_, ?_, ?_⟩
  · simpa [reads, other.symm] using counted.once action other
  · simp only [taken_snoc, read, reads, if_true, List.length_singleton]; omega
  · simp [read]
  · simp only [read, List.length_append, List.length_singleton]; omega

/-- No sign-in of the run fell short of the bound account. -/
def AllReported (steps : List FinishedStep) : Prop :=
  ∀ submit ∈ steps, submit.action = .submitBoundFixture → submit.Reports

/-- The sign-in is taken once, so its first report is its only one. -/
theorem Counted.allReported (counted : Counted rules steps) (reported : Reported steps) : AllReported steps := by
  intro submit member submits
  cases found : steps.find? (·.action = .submitBoundFixture) with
  | none => exact absurd submits (by simpa using List.find?_eq_none.mp found submit member)
  | some first =>
    obtain ⟨firstSubmits, earlier, later, rfl, before⟩ := List.find?_eq_some_iff_append.mp found
    have once := counted.once .submitBoundFixture (by simp)
    simp only [taken, List.countP_append, List.countP_cons, firstSubmits, if_true] at once
    have only : later.countP (·.action = .submitBoundFixture) = 0 := by omega
    rcases List.mem_append.mp member with early | late
    · exact absurd submits (by simpa using before submit early)
    · rcases List.mem_cons.mp late with rfl | after
      · exact reported submit found
      · exact absurd submits (by simpa using List.countP_eq_zero.mp only submit after)

/-- What the policy lets a decision be after the steps of a run. -/
def Decision.Kept (rules : Rules) (steps : List FinishedStep) (permitted : BrowserAction → Bool)
    (canSubmit : Bool) :
    Decision → Prop
  | .stop state result => state = .completed ∧ result = .verifiedAccount → Verified steps
  | .action action _ =>
    action ∉ rules.forbid ∧ (action = .submitBoundFixture → canSubmit = true) ∧ AllReported steps ∧
      (rules.maxSteps ≤ steps.length → action = .readSession ∧ Awaiting steps)
  | .model allowed =>
    2 ≤ allowed.length ∧ allowed.Nodup ∧ AllReported steps ∧ steps.length < rules.maxSteps ∧
      ∀ action ∈ allowed, action ∈ rules.modelActions ∧ permitted action = true ∧ Untried steps action ∧
        action ∉ rules.forbid ∧ (action = .submitBoundFixture → canSubmit = true)

theorem Counted.kept {decision : Decision} (counted : Counted rules steps)
    (decided : Decided rules steps permitted canSubmit decision) :
    decision.Kept rules steps permitted canSubmit := by
  cases decided with
  | refused incomplete => exact fun complete => absurd complete.1 incomplete
  | completed verified => exact fun _ => verified
  | verify awaiting =>
    have reported : Reported steps := by
      obtain ⟨⟨submit, found, reports⟩, -⟩ := awaiting
      intro first first_found
      cases found.symm.trans first_found
      exact reports
    exact ⟨rules.session_not_forbidden, by simp, counted.allReported reported, fun _ => ⟨rfl, awaiting⟩⟩
  | rule within reported isOpen named =>
    exact ⟨isOpen.unforbidden, isOpen.binding, counted.allReported reported, fun full => absurd within (by omega)⟩
  | model within reported choice once offered may isOpen =>
    refine ⟨choice, once, counted.allReported reported, within, fun action member => ?_⟩
    have left := isOpen action member
    exact ⟨offered action member, may action member, left.untried, left.unforbidden, left.binding⟩

/-- The turns a run has taken, its stop included. -/
def PolicyRun.turns (run : PolicyRun) : Nat := run.steps.length + if run.ended.isSome then 1 else 0

/-- What holds of every run so far. -/
structure PolicyRun.Sound (rules : Rules) (run : PolicyRun) : Prop where
  counted : Counted rules run.steps
  proved : run.ended = some (.completed, .verifiedAccount) → Verified run.steps

theorem PolicyRun.Sound.step (sound : run.Sound rules) (moved : (policyRun rules).step run turn = some next) :
    next.Sound rules := by
  obtain ⟨-, ⟨steps, state, result, ended, verified⟩ | ⟨live, awaiting, steps⟩ | ⟨live, room,
      action, untried, steps⟩⟩ :=
    policyRun_cases moved
  · refine ⟨steps ▸ sound.counted, fun complete => ?_⟩
    rw [steps]
    exact verified (by simpa using congrArg (Option.map Prod.fst) (ended.symm.trans complete))
  · exact ⟨steps ▸ sound.counted.verify awaiting rfl, fun complete => absurd (live.symm.trans complete) (by simp)⟩
  · exact ⟨steps ▸ sound.counted.untried room untried, fun complete => absurd (live.symm.trans complete) (by simp)⟩

theorem turns_step (moved : (policyRun rules).step run turn = some next) : next.turns = run.turns + 1 := by
  obtain ⟨before, ⟨steps, state, result, ended, -⟩ | ⟨live, -, steps⟩ | ⟨live, -, action, -, steps⟩⟩ :=
    policyRun_cases moved
  · simp [PolicyRun.turns, before, steps, ended]
  · simp [PolicyRun.turns, before, live, steps]
  · simp [PolicyRun.turns, before, live, steps]

theorem turns_exec {after : PolicyRun} {turns : List Turn} (ran : (policyRun rules).exec run turns = some after) :
    after.turns = run.turns + turns.length := by
  induction turns generalizing run with
  | nil => cases ran; simp
  | cons turn rest ih =>
    obtain ⟨next, moved, ran⟩ := System.exec_cons.mp ran
    rw [ih ran, turns_step moved, List.length_cons]
    omega

/-- A live run has a further turn for every model choice within the offered list. -/
theorem policyRun_moves (live : run.ended = none) (within : ∀ allowed,
      nextStep rules run.steps turn.permitted turn.canSubmit = .model allowed → turn.choice ∈ allowed) :
    ∃ next, (policyRun rules).step run turn = some next := by
  cases decision : nextStep rules run.steps turn.permitted turn.canSubmit with
  | stop state result => simp [policyRun, live, decision]
  | action action name => simp [policyRun, live, decision]
  | model allowed => simp [policyRun, live, decision, within allowed decision]

theorem sound_run {turns : List Turn} (ran : (policyRun rules).exec {} turns = some run) : run.Sound rules := by
  refine (policyRun rules).exec_preserves (PolicyRun.Sound rules) PolicyRun.Sound.step ⟨⟨?_, ?_, ?_, ?_⟩, ?_⟩ ran
  all_goals simp

/-- In every run the decisions keep the policy, no action is taken too often, a completed run has verified
its account, and the run stops. -/
theorem run_policy (rules : Rules) (turns : List Turn) (run : PolicyRun)
    (ran : (policyRun rules).exec {} turns = some run) :
    (∀ permitted canSubmit,
      (nextStep rules run.steps permitted canSubmit).Kept rules run.steps permitted canSubmit) ∧
    (∀ action, taken run.steps action ≤ if action = .readSession then 2 else 1) ∧
    (run.ended = some (.completed, .verifiedAccount) → Verified run.steps) ∧
    turns.length ≤ rules.maxSteps + 2 ∧
    (run.ended = none → ∀ turn : Turn,
      (∀ allowed, nextStep rules run.steps turn.permitted turn.canSubmit = .model allowed → turn.choice ∈ allowed) →
      ∃ next, (policyRun rules).step run turn = some next) := by
  have sound := sound_run ran
  have counted := sound.counted
  refine ⟨fun permitted canSubmit => counted.kept nextStep_decided, fun action => ?_, sound.proved, ?_,
    fun live turn within => policyRun_moves live within⟩
  · split
    · rename_i reads
      have session := counted.session
      have verifying := counted.verifying
      rw [reads]
      omega
    · rename_i other
      exact counted.once action other
  · have total : run.turns = turns.length := by simpa [PolicyRun.turns] using turns_exec ran
    have within := counted.within
    have verifying := counted.verifying
    simp only [PolicyRun.turns] at total
    split at total <;> omega

/-- Open the page, sign in, then sign out. -/
def signInRules : Rules where
  start := [.openLanding, .submitBoundFixture]
  finish := [.signOut]
  modelActions := [.readWorkspace, .readFiles]
  forbid := []
  approvalRequired := [.submitBoundFixture]
  stopWhen := [.verifiedAccount]
  maxSteps := 3
  maxModelCalls := 1
  model := true
  accepted := by decide

def signInTurns : List Turn :=
  let turn : Turn := ⟨fun _ => true, true, .readFiles, true, { Claims.none with asBoundAccount := some true }⟩
  [turn, { turn with claims := { turn.claims with outcome := some .signedIn } }, turn, turn]

def signInRun : PolicyRun where
  steps := (signInTurns.take 3).zipWith Turn.step [.openLanding, .submitBoundFixture, .readSession]
  ended := some (.completed, .verifiedAccount)

theorem run_policy_signed_in :
    (policyRun signInRules).exec {} signInTurns = some signInRun ∧ Verified signInRun.steps ∧
      signInTurns.length ≤ 5 :=
  have kept := run_policy signInRules signInTurns signInRun rfl
  ⟨rfl, kept.2.2.1 rfl, kept.2.2.2.1⟩

end ProxyPilot.Coordinator
