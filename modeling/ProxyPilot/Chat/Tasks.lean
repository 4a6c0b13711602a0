import Mathlib.Data.List.Nodup
import ProxyPilot.Data.Text

namespace ProxyPilot.Chat

open Data

/-! # Chat messages and tasks (`task-logic.js`, `task-sync.js`)

Times are milliseconds; one that does not parse is none.
-/

/-- Unicode's tables. -/
structure Unicode where
  /-- `\p{Extended_Pictographic}` and `\p{Emoji_Modifier}`. -/
  pictographic : Char → Bool
  lower : List Char → List Char

def continuePhrases : List String :=
  ["continue", "keep going", "carry on", "go on", "resume", "proceed", "try again", "retry", "again",
    "finish", "finish it", "finish this", "finish up",
    "finish the build", "finish the task", "finish the job", "finish the work",
    "pick it up", "pick it back up", "pick up where you left off", "continue where you left off",
    "do it again", "run it again", "same again"]

def stopPhrases : List String :=
  ["stop", "stop it", "stop that", "stop the build", "stop building", "stop working",
    "cancel", "cancel it", "cancel the build", "abort", "halt", "pause", "pause the build",
    "don't continue", "do not continue", "never mind", "nevermind"]

def explainOnlyLeading : List String :=
  ["only explain", "just explain", "explain only", "only tell me", "just tell me", "only answer", "just answer"]

def explainOnlyAnywhere : List String :=
  (["don't", "dont", "do not"].flatMap fun negation =>
    [negation ++ " change anything", negation ++ " build anything", negation ++ " edit anything",
      negation ++ " make any changes"]) ++
  ["without changing anything", "without making any changes", "no code changes"]

def straightApostrophes (text : List Char) : List Char :=
  text.map fun c => if [0x2018, 0x2019, 0x02bc].contains c.toNat then Char.ofNat 39 else c

def Unicode.edgeEmoji (u : Unicode) (c : Char) : Bool :=
  u.pictographic c || [0xfe0f, 0x200d].contains c.toNat || whiteSpace c

def trailingPunct (c : Char) : Bool := whiteSpace c || ".!?…,;:~)]".toList.contains c

def politeWords : List String := ["please", "okay", "ok"]

def afterPolite (text : List Char) : Option (List Char) := politeWords.findSome? fun word =>
    afterWholeWord word.toList text

/-- `LEADING_POLITE_RE`. -/
def dropLeadingPolite (text : List Char) : List Char :=
  match afterPolite text with
  | some rest => rest.dropWhile fun c => whiteSpace c || ",.!:;-".toList.contains c
  | none => text

def beforePolite (text : List Char) : Option (List Char) :=
  politeWords.findSome? fun word =>
    ((afterWord word.toList.reverse text.reverse).filter fun before => before.head?.any fun c =>
      whiteSpace c || c == ',').map List.reverse

/-- `TRAILING_POLITE_RE`. -/
def dropTrailingPolite (text : List Char) : List Char :=
  match beforePolite text with
  | some before => dropEnd (fun c => whiteSpace c || c == ',') before
  | none => text

def Unicode.pass (u : Unicode) (text : List Char) : List Char :=
  trim (dropTrailingPolite
    (dropLeadingPolite (trim (dropEnd trailingPunct (dropEnd u.edgeEmoji (text.dropWhile u.edgeEmoji))))))

def Unicode.passes (u : Unicode) : Nat → List Char → List Char
  | 0, text => text
  | n + 1, text => if u.pass text = text then text else u.passes n (u.pass text)

def Unicode.normalizeMessage (u : Unicode) (text : List Char) : List Char :=
  u.passes 8 (trim (oneSpace (straightApostrophes text)))

inductive MessageKind where
  | continue'
  | stop
  | explainOnly
  | other
deriving DecidableEq

structure Classified where
  kind : MessageKind
  guidance : List Char

def guidedWords : List String := ["continue", "resume", "try again", "retry", "keep going"]

def finishWords : List String := ["finish it", "finish this", "finish"]

def conjunctions : List String := ["and", "but", "with"]

def separator (c : Char) : Bool := ",:;—–-".toList.contains c

/-- `\s*(.+)$`, trimmed. -/
def guidanceIn (rest : List Char) : Option (List Char) := if rest.isEmpty then none else some (trim rest)

/-- `GUIDED_CONTINUE_SEP_RE`. -/
def guidedBySeparator (core : List Char) : Option (List Char) :=
  (guidedWords ++ finishWords).findSome? fun word =>
    (afterWord word.toList core).bind fun rest =>
      match rest.dropWhile whiteSpace with
      | c :: later => if separator c then guidanceIn later else none
      | [] => none

/-- `GUIDED_CONTINUE_WORD_RE`. -/
def guidedByWord (core : List Char) : Option (List Char) :=
  guidedWords.findSome? fun word =>
    (afterWord word.toList core).bind fun rest =>
      if rest.head?.any whiteSpace then
        conjunctions.findSome? fun conjunction =>
          (afterWord conjunction.toList (rest.dropWhile whiteSpace)).bind fun later =>
            if later.head?.any whiteSpace then guidanceIn (later.drop 1) else none
      else none

def afterConjunction (guidance : List Char) : List Char :=
  match conjunctions.findSome? fun conjunction => afterWholeWord conjunction.toList guidance with
  | some rest => rest.dropWhile fun c => whiteSpace c || separator c
  | none => guidance

def leadsExplanation (text : List Char) : Bool := explainOnlyLeading.any fun phrase =>
    (afterWholeWord phrase.toList text).isSome

def mentionsExplanation (original : List Char) : Bool :=
  containsPhrase (explainOnlyAnywhere.map String.toList) (oneSpace (straightApostrophes original)) false

def maxGuidanceChars : Nat := 500

/-- A continuation with guidance; a newer explanation-only instruction can follow the phrase. -/
def Unicode.guided (u : Unicode) (original guidance : List Char) : Classified :=
  if guidance.isEmpty then ⟨.continue', []⟩
  else if leadsExplanation (u.normalizeMessage (afterConjunction guidance)) then ⟨.explainOnly, original⟩
  else if codeUnits guidance ≤ maxGuidanceChars then ⟨.continue', guidance⟩
  else ⟨.other, []⟩

def Unicode.classifyContinuationMessage (u : Unicode) (text : List Char) : Classified :=
  let original := trim text
  let core := u.normalizeMessage original
  if core.isEmpty then ⟨.other, []⟩
  else if stopPhrases.contains (String.ofList (u.lower core)) then ⟨.stop, []⟩
  else if continuePhrases.contains (String.ofList (u.lower core)) then ⟨.continue', []⟩
  else if leadsExplanation core || mentionsExplanation original then ⟨.explainOnly, original⟩
  else
    match guidedBySeparator core <|> guidedByWord core with
    | some guidance => u.guided original guidance
    | none => ⟨.other, []⟩

def splitAfter (mark : List Char) : List Char → Option (List Char)
  | [] => none
  | c :: rest =>
    if (c :: rest).take mark.length = mark then some ((c :: rest).drop mark.length) else splitAfter mark rest

def afterExact (mark text : List Char) : Option (List Char) :=
  if text.take mark.length = mark then some (text.drop mark.length) else none

/-- `RESEARCH_PREAMBLE_RE`. -/
def cutResearch (text : List Char) : List Char :=
  (((afterExact "RESEARCH & PLAN — ".toList text).bind
    (splitAfter "\nREQUEST TO RESEARCH AND PLAN:\n".toList))).getD text

/-- The blank line that ends a preamble: `[^\n]*\n\s*\n`, as far as it goes. -/
def afterBlank (rest : List Char) : Option (List Char) :=
  let tail := (rest.dropWhile (· ≠ '\n')).drop 1
  let blank := tail.takeWhile whiteSpace
  if blank.contains '\n'
    then some ((blank.reverse.takeWhile (· ≠ '\n')).reverse ++ tail.dropWhile whiteSpace) else none

/-- `PREAMBLE_RE`. -/
def cutPreamble (text : List Char) : List Char :=
  (["PLANNING REQUEST", "DESIGN-SCOPED UPDATE"].findSome? fun heading =>
    (afterExact heading.toList text).bind fun rest =>
      if rest.head?.any whiteSpace
        then (afterExact ['—'] (rest.dropWhile whiteSpace)).bind afterBlank else none).getD text

def personWords (text : List Char) : List Char := trim (cutPreamble (cutResearch text))

inductive Intent where
  | build
  | investigation
deriving DecidableEq

inductive TaskStatus where
  | active
  | interrupted
  | blocked
  | failed
  | completed
  | stopped
deriving DecidableEq

/-- `UNFINISHED_TASK_STATUSES`. -/
def TaskStatus.unfinished : TaskStatus → Bool
  | .active | .interrupted | .blocked | .failed => true
  | .completed | .stopped => false

def TaskStatus.text : TaskStatus → String
  | .active => "active"
  | .interrupted => "interrupted"
  | .blocked => "blocked"
  | .failed => "failed"
  | .completed => "completed"
  | .stopped => "stopped"

inductive CycleStatus where
  | queued
  | estimating
  | running
  | awaitingUser
  | awaitingAdmin
  | refusedQuota
  | interrupted
  | failed
  | abandoned
  | succeeded
  | unknown
deriving DecidableEq

/-- `LIVE_CYCLE_STATUSES`. -/
def CycleStatus.live : CycleStatus → Bool
  | .queued | .estimating | .running => true
  | _ => false

structure Cycle where
  id : Nat
  projectId : Nat
  requestId : Option Nat
  status : CycleStatus
  stage : String
  segment : String
  /-- `verification_state` is `pending` or `verified`. -/
  verification : Option String
  error : String

structure Task where
  id : Nat
  key : Option String
  projectId : Nat
  intent : Intent
  status : TaskStatus
  goal : String
  requestId : Option Nat
  lastCycleId : Option Nat
  continuationPending : Bool
  research : Bool
  answerExcerpt : Option String
  updatedMs : Option Int
deriving DecidableEq

/-- What the cycle table says of a build task: its status, and whether it can be resumed. -/
def buildTaskStatusFromCycle (cycle : Cycle) : Option (TaskStatus × Bool) :=
  match cycle.status with
  | .queued | .estimating | .running => some (.active, false)
  | .awaitingUser =>
    if cycle.verification = some "pending" ∨ cycle.verification = some "verified"
      then some (.completed, false) else some (.blocked, false)
  | .awaitingAdmin => some (.blocked, true)
  | .refusedQuota => some (.blocked, true)
  | .interrupted => some (.interrupted, true)
  | .failed =>
    if String.ofList (trim cycle.error.toList) = "orphaned by restart"
      then some (.interrupted, true) else some (.failed, true)
  | .abandoned => some (.stopped, true)
  | .succeeded => some (.completed, false)
  | .unknown => none

structure AskJob where
  ended : Bool
  taskId : Option Nat
  continued : Bool

structure Annotated extends Task where
  live : Bool
  resumed : Bool
  canResume : Bool
  cycleStatus : Option CycleStatus
deriving DecidableEq

structure Surroundings where
  liveCycle : Option Cycle
  askJob : Option AskJob
  continuationQueued : Bool
  newestActiveInvestigationId : Option Nat

def Surroundings.none : Surroundings := ⟨.none, .none, false, .none⟩

def investigationLive (task : Task) (s : Surroundings) : Bool :=
  match s.askJob with
  | some job =>
    !job.ended && match job.taskId with
      | some id => id == task.id
      | none => task.status == .active && s.newestActiveInvestigationId == some task.id
  | none => false

def cycleLive (task : Task) (liveCycle : Option Cycle) : Bool :=
  liveCycle.any fun cycle => cycle.status.live && cycle.requestId.isSome && cycle.requestId == task.requestId

def annotateTask (task : Task) (lastCycle : Option Cycle) (s : Surroundings) : Annotated :=
  match task.intent with
  | .investigation =>
    let live := investigationLive task s
    { task with
      live := live
      resumed := live && s.askJob.any AskJob.continued
      canResume := !live && task.status != .completed
      cycleStatus := none }
  | .build =>
    let live := cycleLive task s.liveCycle || (task.continuationPending && s.continuationQueued)
    { task with
      live := live
      resumed := cycleLive task s.liveCycle && s.liveCycle.any fun cycle => cycle.segment == "resumed"
      canResume := !live && ((lastCycle.bind buildTaskStatusFromCycle).any Prod.snd)
      cycleStatus := (lastCycle.map Cycle.status) <|> if cycleLive task s.liveCycle
        then s.liveCycle.map Cycle.status else none }

def later (a b : Option Int) : Bool :=
  match a, b with
  | some a, some b => decide (b < a)
  | some _, none => true
  | none, _ => false

/-- Newest first: `updatedAt`, ties by the higher id. -/
def Task.newer (a b : Task) : Bool :=
  later a.updatedMs b.updatedMs || (a.updatedMs == b.updatedMs && decide (b.id < a.id))

def newestOf : List Annotated → Option Annotated
  | [] => none
  | task :: rest =>
    match newestOf rest with
    | some other => if other.toTask.newer task.toTask then some other else some task
    | none => some task

def dayMs : Int := 86400000

def continuationStaleDays : Int := 7

def Task.fresh (task : Task) (nowMs : Int) : Bool :=
  task.updatedMs.any fun ms => decide (nowMs - ms ≤ continuationStaleDays * dayMs)

def continuable (tasks : List Annotated) (task : Annotated) : Bool :=
  task.status.unfinished || (task.status == .stopped && newestOf tasks == some task)

def pickContinuationTask (tasks : List Annotated) (nowMs : Int) : Option Annotated :=
  newestOf ((tasks.filter (continuable tasks)).filter fun task => task.toTask.fresh nowMs)

inductive Lane where
  | build
  | ask

inductive Action where
  | pass
  | investigate
  | stopBuild
  | stopTask
  | nothingToStop
  | attach
  | continueInvestigation
  | answerRequired
  | resumeBuild
deriving DecidableEq

def Action.text : Action → String
  | .pass => "pass"
  | .investigate => "investigate"
  | .stopBuild => "stop build"
  | .stopTask => "stop task"
  | .nothingToStop => "nothing to stop"
  | .attach => "attach"
  | .continueInvestigation => "continue investigation"
  | .answerRequired => "answer required"
  | .resumeBuild => "resume build"

structure Route where
  action : Action
  task : Option Annotated
  guidance : List Char
  reason : String

def passRoute (reason : String) : Route := ⟨.pass, none, [], reason⟩

def stopRoute (tasks : List Annotated) (nowMs : Int) : Route :=
  match newestOf (tasks.filter fun task => task.live && task.intent == .build) with
  | some liveBuild => ⟨.stopBuild, some liveBuild, [], "stop_live_build"⟩
  | none =>
    match newestOf (tasks.filter (·.live)) with
    | some liveInvestigation => ⟨.nothingToStop, some liveInvestigation, [], "investigation_cannot_stop"⟩
    | none =>
      match newestOf (tasks.filter fun task => task.status.unfinished && task.toTask.fresh nowMs) with
      | some unfinished => ⟨.stopTask, some unfinished, [], "stop_unfinished_task"⟩
      | none => ⟨.nothingToStop, none, [], "nothing_running_or_unfinished"⟩

def continueRoute (guidance : List Char) (tasks : List Annotated) (nowMs : Int) : Route :=
  match pickContinuationTask tasks nowMs with
  | none => passRoute "no_task_to_continue"
  | some picked =>
    if picked.live then ⟨.attach, some picked, guidance, "task_already_running"⟩
    else if picked.intent = .investigation
      then ⟨.continueInvestigation, some picked, guidance, "continue_investigation"⟩
    else if picked.status = .blocked ∧ picked.canResume = false
      then ⟨.answerRequired, some picked, guidance, "build_waiting_for_answers"⟩
    else if picked.canResume then ⟨.resumeBuild, some picked, guidance, "resume_build"⟩
    else passRoute "build_not_resumable"

def resolveTaskRoute (said : Classified) (lane : Lane) (tasks : List Annotated) (nowMs : Int) : Route :=
  match said.kind with
  | .other => passRoute "not_a_continuation"
  | .explainOnly =>
    match lane with
    | .build => ⟨.investigate, none, said.guidance, "explain_only_in_build_lane"⟩
    | .ask => passRoute "explain_only_in_ask_lane"
  | .stop => stopRoute tasks nowMs
  | .continue' => continueRoute said.guidance tasks nowMs

variable {tasks : List Annotated} {task : Annotated} {nowMs : Int}

theorem mem_of_newestOf (newest : newestOf tasks = some task) : task ∈ tasks := by
  induction tasks with
  | nil => contradiction
  | cons first rest ih =>
    simp only [newestOf] at newest
    split at newest
    case h_1 other found =>
        split at newest
        · cases newest
          exact List.mem_cons_of_mem _ (ih found)
        · cases newest
          exact List.mem_cons_self
    case h_2 =>
        cases newest
        exact List.mem_cons_self

theorem newer_trans {a b c : Task} (notNewer : a.newer b = false) (notNewer' : b.newer c = false) :
    a.newer c = false := by
  unfold Task.newer later at *
  cases first : a.updatedMs <;> cases second : b.updatedMs <;> cases third : c.updatedMs <;> simp_all <;> omega

theorem newer_asymm {a b : Task} (newer : a.newer b = true) : b.newer a = false := by
  unfold Task.newer later at *
  cases first : a.updatedMs <;> cases second : b.updatedMs <;> simp_all <;> omega

theorem newer_irrefl (a : Task) : a.newer a = false := by
  unfold Task.newer later
  cases a.updatedMs <;> simp

theorem newestOf_newest (newest : newestOf tasks = some task) :
    ∀ other ∈ tasks, other.toTask.newer task.toTask = false := by
  induction tasks generalizing task with
  | nil => contradiction
  | cons first rest ih =>
    simp only [newestOf] at newest
    split at newest
    case h_1 best found =>
        split at newest
        case isTrue newer =>
            cases newest
            intro other member
            rcases List.mem_cons.mp member with rfl | inside
            · exact newer_asymm newer
            · exact ih found other inside
        case isFalse older =>
            cases newest
            intro other member
            rcases List.mem_cons.mp member with rfl | inside
            · exact newer_irrefl _
            · exact newer_trans (ih found other inside) (Bool.not_eq_true _ ▸ older)
    case h_2 none =>
        cases newest
        have empty : rest = [] := by
          cases rest with
          | nil => rfl
          | cons next others =>
            simp only [newestOf] at none
            split at none
            · split at none <;> contradiction
            · contradiction
        intro other member
        rw [empty, List.mem_singleton] at member
        rw [member]
        exact newer_irrefl _

theorem pick_spec (picked : pickContinuationTask tasks nowMs = some task) :
    task ∈ tasks ∧ continuable tasks task = true ∧ task.toTask.fresh nowMs = true := by
  obtain ⟨inside, fresh⟩ := List.mem_filter.mp (mem_of_newestOf picked)
  obtain ⟨member, continuable⟩ := List.mem_filter.mp inside
  exact ⟨member, continuable, fresh⟩

theorem stopRoute_not_resume (tasks : List Annotated) (nowMs : Int) :
    (stopRoute tasks nowMs).action ≠ .resumeBuild := by
  unfold stopRoute
  split
  · simp
  · split
    · simp
    · split <;> simp

/-- A build is only resumed for a continuation, and it is the picked task. -/
theorem resolve_resume {said : Classified} {lane : Lane}
    (resumes : (resolveTaskRoute said lane tasks nowMs).action = .resumeBuild) :
    said.kind = .continue' ∧ ∃ picked, pickContinuationTask tasks nowMs = some picked ∧
      (resolveTaskRoute said lane tasks nowMs).task = some picked := by
  unfold resolveTaskRoute at resumes ⊢
  cases kind : said.kind with
  | other => simp [kind, passRoute] at resumes
  | explainOnly => cases lane <;> simp [kind, passRoute] at resumes
  | stop => exact absurd (by simpa only [kind] using resumes) (stopRoute_not_resume tasks nowMs)
  | continue' =>
    simp only [kind, true_and] at resumes ⊢
    unfold continueRoute at resumes ⊢
    cases found : pickContinuationTask tasks nowMs with
    | none => simp [found, passRoute] at resumes
    | some picked =>
      refine ⟨picked, rfl, ?_⟩
      simp only [found] at resumes ⊢
      split <;> simp_all
      split <;> simp_all
      split <;> simp_all
      split <;> simp_all [passRoute]

/-- A build task that can be resumed is not live, and its last cycle is one that can. -/
theorem annotate_canResume {row : Task} {lastCycle : Option Cycle} {s : Surroundings} (intent : row.intent = .build)
    (canResume : (annotateTask row lastCycle s).canResume = true) :
    (annotateTask row lastCycle s).live = false ∧ ∃ cycle status, lastCycle = some cycle ∧
      buildTaskStatusFromCycle cycle = some (status, true) := by
  simp only [annotateTask, intent, Bool.and_eq_true, Bool.not_eq_true'] at canResume ⊢
  refine ⟨canResume.1, ?_⟩
  obtain ⟨⟨status, resumable⟩, found, same⟩ := (Option.any_eq_true _ _).mp canResume.2
  obtain ⟨cycle, known, there⟩ := Option.bind_eq_some_iff.mp found
  exact ⟨cycle, status, known, there.trans (by rw [show resumable = true from same])⟩

end ProxyPilot.Chat
