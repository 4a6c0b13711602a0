import ProxyPilot.Chat.Routing

namespace ProxyPilot.Chat

open Data Effects

def Quietly (log after : List Event) : Prop := ∃ more, after = log ++ more ∧ ∀ event ∈ more, event.starts = false

/-- At most one thing is started, and only what is allowed. -/
def Steps (allowed : Event → Prop) (log after : List Event) : Prop :=
  ∃ more, after = log ++ more ∧ (more.filter Event.starts).length ≤ 1 ∧
    ∀ event ∈ more, event.starts = true → allowed event

def Quiet (program : Act α) (result : α → Prop) : Prop :=
  ∀ log, Leads program log (fun a after => Quietly log after ∧ result a) fun _ after => Quietly log after

def Once (allowed : Event → Prop) (program : Act α) (result : α → Prop) : Prop :=
  ∀ log, Leads program log (fun a after => Steps allowed log after ∧ result a) fun _ after =>
    Steps allowed log after

variable {α β : Type} {allowed : Event → Prop} {log middle after : List Event}

theorem Quietly.refl (log : List Event) : Quietly log log :=
  ⟨[], by simp, fun _ member => absurd member List.not_mem_nil⟩

theorem Quietly.trans (first : Quietly log middle) (later : Quietly middle after) : Quietly log after := by
  obtain ⟨more, rfl, quiet⟩ := first
  obtain ⟨rest, rfl, quiet'⟩ := later
  refine ⟨more ++ rest, List.append_assoc .., fun event member => ?_⟩
  rcases List.mem_append.mp member with old | new
  · exact quiet event old
  · exact quiet' event new

theorem filter_quiet {more : List Event} (quiet : ∀ event ∈ more, event.starts = false) :
    more.filter Event.starts = [] :=
  List.filter_eq_nil_iff.mpr fun event member starts => by
    rw [quiet event member] at starts
    contradiction

theorem Quietly.steps (quietly : Quietly log after) : Steps allowed log after := by
  obtain ⟨more, same, quiet⟩ := quietly
  refine ⟨more, same, by simp [filter_quiet quiet], fun event member starts => ?_⟩
  rw [quiet event member] at starts
  contradiction

theorem Quietly.before (first : Quietly log middle) (later : Steps allowed middle after) :
    Steps allowed log after := by
  obtain ⟨more, rfl, quiet⟩ := first
  obtain ⟨rest, rfl, once, permitted⟩ := later
  refine ⟨more ++ rest, List.append_assoc ..,
    by rwa [List.filter_append, filter_quiet quiet, List.nil_append], fun event member starts => ?_⟩
  rcases List.mem_append.mp member with old | new
  · rw [quiet event old] at starts
    contradiction
  · exact permitted event new starts

theorem Steps.quietly (first : Steps allowed log middle) (later : Quietly middle after) :
    Steps allowed log after := by
  obtain ⟨more, rfl, once, permitted⟩ := first
  obtain ⟨rest, rfl, quiet⟩ := later
  refine ⟨more ++ rest, List.append_assoc ..,
    by rwa [List.filter_append, filter_quiet quiet, List.append_nil], fun event member starts => ?_⟩
  rcases List.mem_append.mp member with old | new
  · exact permitted event old starts
  · rw [quiet event new] at starts
    contradiction

theorem Steps.mono {allowed' : Event → Prop} (steps : Steps allowed log after)
    (wider : ∀ event, allowed event → allowed' event) :
    Steps allowed' log after := by
  obtain ⟨more, same, once, permitted⟩ := steps
  exact ⟨more, same, once, fun event member starts => wider event (permitted event member starts)⟩

namespace Quiet

variable {result : α → Prop} {result' : β → Prop} {program : Act α}

theorem pure {a : α} (holds : result a) : Quiet (Pure.pure a) result := fun log => leads_pure.mpr ⟨.refl log, holds⟩

theorem bind {next : α → Act β} (first : Quiet program result)
    (later : ∀ a, result a → Quiet (next a) result') : Quiet (program >>= next) result' :=
  fun log => leads_bind.mpr ((first log).mono
    (fun a middle ⟨quiet, holds⟩ => (later a holds middle).mono (fun _ _ ⟨quiet', holds'⟩ =>
      ⟨quiet.trans quiet', holds'⟩) fun _ _ quiet' => quiet.trans quiet')
    fun _ _ quiet => quiet)

theorem mono {weaker : α → Prop} (quiet : Quiet program result)
    (weaken : ∀ a, result a → weaker a) : Quiet program weaker :=
  fun log => (quiet log).mono (fun a _ ⟨quietly, holds⟩ => ⟨quietly, weaken a holds⟩) fun _ _ quietly => quietly

theorem attempt {otherwise : α} (quiet : Quiet program result) (holds : result otherwise) :
    Quiet (Chat.attempt program otherwise) result :=
  fun log =>
    leads_tryCatch.mpr ((quiet log).mono (fun _ _ both => both) fun _ _ quietly => leads_pure.mpr ⟨quietly, holds⟩)

variable {answer : Nat → Except String α} {dependency : Dependency}

theorem call (holds : ∀ n a, answer n = .ok a → result a) :
    Quiet (Chat.call dependency answer) result := by
  intro log
  have quietly : Quietly log (log ++ [.called dependency]) :=
    ⟨[.called dependency], rfl, fun _ member => by rw [List.mem_singleton.mp member]; rfl⟩
  show Leads (perform _ answer) log _ _
  unfold Leads perform
  cases answered : answer log.length with
  | ok a => exact ⟨quietly, holds _ a answered⟩
  | error _ => exact quietly

theorem done : Quiet (Chat.call dependency answer) fun _ => True := call fun _ _ _ => trivial

theorem map {f : α → β} (quiet : Quiet program result) (holds : ∀ a, result a → result' (f a)) :
    Quiet (program.map f) result' := by
  intro log
  have mapped := quiet log
  unfold Leads EStateM.map at *
  cases ended : program log with
  | ok a after =>
    rw [ended] at mapped
    exact ⟨mapped.1, holds a mapped.2⟩
  | error _ after =>
    rw [ended] at mapped
    exact mapped

end Quiet

namespace Once

variable {result : α → Prop} {result' : β → Prop} {program : Act α}

theorem of_quiet (quiet : Quiet program result) : Once allowed program result :=
  fun log => (quiet log).mono (fun _ _ ⟨quietly, holds⟩ => ⟨quietly.steps, holds⟩) fun _ _ quietly => quietly.steps

theorem pure {a : α} (holds : result a) : Once allowed (Pure.pure a) result := of_quiet (.pure holds)

theorem follow {next : α → Act β} (first : Quiet program result)
    (later : ∀ a, result a → Once allowed (next a) result') :
    Once allowed (program >>= next) result' :=
  fun log => leads_bind.mpr ((first log).mono
    (fun a middle ⟨quiet, holds⟩ => (later a holds middle).mono (fun _ _ ⟨steps, holds'⟩ =>
      ⟨quiet.before steps, holds'⟩) fun _ _ steps => quiet.before steps)
    fun _ _ quiet => quiet.steps)

theorem bind {next : α → Act β} (first : Once allowed program result)
    (later : ∀ a, result a → Quiet (next a) result') :
    Once allowed (program >>= next) result' :=
  fun log => leads_bind.mpr ((first log).mono
    (fun a middle ⟨steps, holds⟩ => (later a holds middle).mono (fun _ _ ⟨quiet, holds'⟩ =>
      ⟨steps.quietly quiet, holds'⟩) fun _ _ quiet => steps.quietly quiet)
    fun _ _ steps => steps)

theorem perform {event : Event} {answer : Nat → Except String α} (permitted : event.starts = true → allowed event) :
    Once allowed (Chat.perform event answer) fun _ => True := by
  intro log
  have steps : Steps allowed log (log ++ [event]) :=
    ⟨[event], rfl, List.length_filter_le _ _, fun _ member => by rw [List.mem_singleton.mp member]; exact permitted⟩
  unfold Leads Chat.perform
  cases answer log.length with
  | ok a => exact ⟨steps, trivial⟩
  | error _ => exact steps

theorem widen {allowed' : Event → Prop} (once : Once allowed program result)
    (wider : ∀ event, allowed event → allowed' event) :
    Once allowed' program result :=
  fun log => (once log).mono (fun _ _ ⟨steps, holds⟩ => ⟨steps.mono wider, holds⟩) fun _ _ steps => steps.mono wider

end Once

variable {w : World}

/-- The last cycle of a task, as some read of it gave it. -/
def LastCycle (w : World) (row : Task) (cycle : Cycle) : Prop :=
  (row.lastCycleId = some cycle.id ∧ ∃ n, w.latestCycle n = .ok (some cycle)) ∨
    ∃ id, row.lastCycleId = some id ∧ ∃ n, w.getCycle n id = .ok (some cycle)

def AnnotatedRow (w : World) (row : Task) (task : Annotated) : Prop :=
  ∃ lastCycle s, task = annotateTask row lastCycle s ∧ ∀ cycle, lastCycle = some cycle → LastCycle w row cycle

/-- The tasks of one reading of the list. -/
def AnnotatedList (w : World) (tasks : List Annotated) : Prop :=
  ∃ n list, w.listTasks n = .ok list ∧ List.Forall₂ (AnnotatedRow w) list.rows tasks

theorem continuationQueued_quiet (pending : Bool) : Quiet (continuationQueued w pending) fun _ => True := by
  cases pending
  · exact .pure trivial
  · exact .attempt (.map .done fun _ _ => trivial) trivial

variable {liveCycle : Option Cycle} {rows : List Task} {key : String}

theorem lastCycle_read {row : Task} {id : Nat} (named : row.lastCycleId = some id)
    (live : ∃ n, w.latestCycle n = .ok liveCycle)
    {cycle : Cycle} (found : (liveCycle.filter fun cycle => cycle.id == id) = some cycle) :
    LastCycle w row cycle := by
  obtain ⟨known, same⟩ := Option.filter_eq_some_iff.mp found
  obtain ⟨n, read⟩ := live
  exact .inl ⟨by rw [named, beq_iff_eq.mp same], n, known ▸ read⟩

theorem lastCycleFor_quiet (row : Task) (live : ∃ n, w.latestCycle n = .ok liveCycle) :
    Quiet (lastCycleFor w liveCycle row) fun lastCycle => ∀ cycle, lastCycle = some cycle →
      LastCycle w row cycle := by
  unfold lastCycleFor
  split
  case h_1 id _ named =>
      split
      case h_1 found => exact .pure fun cycle same => Option.some.inj same ▸ lastCycle_read named live found
      case h_2 =>
          refine .attempt (.call fun n answer read cycle same => ?_) fun _ wrong => nomatch wrong
          exact .inr ⟨id, named, n, same ▸ read⟩
  case h_2 => exact .pure fun _ wrong => nomatch wrong

theorem annotateAll_quiet {s : Surroundings} (live : ∃ n, w.latestCycle n = .ok s.liveCycle) (rows : List Task) :
    Quiet (annotateAll w s rows) (List.Forall₂ (AnnotatedRow w) rows) := by
  induction rows with
  | nil => exact .pure .nil
  | cons row rest ih =>
    refine (lastCycleFor_quiet row live).bind fun lastCycle read => ih.bind fun others annotated =>
      .pure (.cons ?_ annotated)
    exact ⟨lastCycle, s, rfl, read⟩

theorem annotatedTasks_quiet : Quiet (annotatedTasks w) (AnnotatedList w) := by
  have listed : Quiet (call .listTasks w.listTasks) fun list => ∃ n, w.listTasks n = .ok list :=
    .call fun n _ read => ⟨n, read⟩
  have lived : Quiet (call .latestCycle w.latestCycle) fun cycle =>
      ∃ n, w.latestCycle n = .ok cycle := .call fun n _ read => ⟨n, read⟩
  refine listed.bind fun list ⟨n, read⟩ => ?_
  split
  case isTrue none => exact .pure ⟨n, list, read, by rw [List.isEmpty_iff.mp none]; exact .nil⟩
  case isFalse =>
      refine lived.bind fun liveCycle live => ?_
      have asked : Quiet (attempt (call .getAskJobStatus w.getAskJobStatus) none) fun _ => True :=
        .attempt .done trivial
      refine asked.bind fun askJob _ => (continuationQueued_quiet _).bind fun queued _ => ?_
      exact (annotateAll_quiet live list.rows).mono fun tasks annotated => ⟨n, list, read, annotated⟩

theorem annotateOne_quiet (task : Option Task) : Quiet (annotateOne w task) fun _ => True := by
  cases task with
  | none => exact .pure trivial
  | some task =>
    have asked : Quiet (attempt (call .getAskJobStatus w.getAskJobStatus) none) fun _ => True :=
      .attempt .done trivial
    have last : ∀ liveCycle, Quiet (lastCycleOf w liveCycle task) fun _ => True := by
      intro liveCycle
      unfold lastCycleOf
      split
      · split
        · exact .pure trivial
        · exact .done
      · exact .pure trivial
    exact Quiet.done.bind fun liveCycle _ => asked.bind fun _ _ => (last liveCycle).bind fun _ _ =>
      (continuationQueued_quiet _).bind fun _ _ => .pure trivial

theorem annotateFound_quiet (taskId : Nat) : Quiet (annotateFound w taskId) fun _ => True :=
  Quiet.done.bind fun _ _ => annotateOne_quiet _

theorem freshOf_quiet (taskId : Option Nat) : Quiet (freshOf w taskId) fun _ => True := by
  cases taskId with
  | none => exact .pure trivial
  | some id => exact annotateFound_quiet id

theorem noteAndAudit_quiet (text action : String) : Quiet (noteAndAudit w text action) fun _ => True :=
  (Quiet.attempt .done trivial).bind fun _ _ => .attempt .done trivial

theorem answer_quiet (m : Message) (action : Action) (task : Option Annotated) (status : Nat)
    (echo : Bool) (taskId : Option Nat) (note : Option String) :
    Quiet (answer w m action task status echo taskId note) fun reply => reply.handled = true := by
  have echoed : Quiet (echoWords w m echo) fun _ => True := by
    cases echo
    · exact .pure trivial
    · exact .attempt .done trivial
  have fresh : Quiet (attempt (freshOf w taskId) none) fun _ => True := .attempt (freshOf_quiet taskId) trivial
  exact fresh.bind fun _ _ => echoed.bind fun _ _ => (noteAndAudit_quiet _ _).bind fun _ _ => .pure rfl

/-- A build that may be resumed, with the cycle it is resumed from. -/
structure Resumable (w : World) (projectId : Nat) (task : Annotated) (cycle : Cycle) : Prop where
  intent : task.intent = .build
  live : task.live = false
  canResume : task.canResume = true
  last : LastCycle w task.toTask cycle
  project : cycle.projectId = projectId

/-- The only retry is one of the task. -/
def Retries (w : World) (projectId : Nat) (task : Annotated) : Event → Prop
  | .retryCycle other cycle _ => other = task ∧ Resumable w projectId task cycle
  | _ => True

def NoRetry : Event → Prop
  | .retryCycle .. => False
  | _ => True

theorem resumeBuild_once (projectId : Nat) (task : Annotated) (guidance : List Char) :
    Once (Retries w projectId task) (resumeBuild w projectId task guidance) fun _ => True := by
  unfold resumeBuild
  split
  case isTrue => exact .pure trivial
  case isFalse intent =>
      split
      case isTrue => exact .pure trivial
      case isFalse still =>
          split
          case isTrue => exact .pure trivial
          case isFalse can =>
              have read : Quiet (cycleToResume w task) fun found => ∀ cycle, found = some cycle →
                  LastCycle w task.toTask cycle := by
                unfold cycleToResume
                split
                case h_1 id named => exact .call fun n answer read cycle same => .inr ⟨id, named, n, same ▸ read⟩
                case h_2 => exact .pure fun _ wrong => nomatch wrong
              refine .follow read fun found last => ?_
              unfold resumeCycle
              split
              case h_1 => exact .pure trivial
              case h_2 cycle there =>
                  obtain ⟨known, project⟩ := Option.filter_eq_some_iff.mp there
                  have resumable : Resumable w projectId task cycle :=
                    ⟨by simpa using intent, by simpa using still, by simpa using can, last cycle known, beq_iff_eq.mp project⟩
                  refine (Once.perform fun _ => ⟨rfl, resumable⟩).bind fun res _ => ?_
                  split <;> exact .pure trivial

theorem runInvestigation_once (question : String) (task : Option Annotated) :
    Once NoRetry (runInvestigation w question task) fun _ => True := by
  refine (Once.perform fun _ => trivial).bind fun res _ => ?_
  split <;> exact .pure trivial

theorem stopIdle_once (task : Annotated) : Once NoRetry (stopIdle w task) fun _ => True :=
  (Once.perform fun _ => trivial).bind fun _ _ => Quiet.done.bind fun _ _ => .done

theorem cancelContinuation_once (task : Annotated) (row : QueueRow) :
    Once NoRetry (cancelContinuation w task row) fun _ => True := by
  have cancelled : Quiet (perform (.cancelQueuedBuild row.id) w.cancelQueuedBuild) fun _ => True := by
    intro log
    have quietly : Quietly log (log ++ [.cancelQueuedBuild row.id]) :=
      ⟨_, rfl, fun _ member => by rw [List.mem_singleton.mp member]; rfl⟩
    unfold Leads perform
    cases w.cancelQueuedBuild log.length with
    | ok _ => exact ⟨quietly, trivial⟩
    | error _ => exact quietly
  refine .follow cancelled fun done _ => ?_
  split
  · exact (Once.perform fun _ => trivial).bind fun _ _ => Quiet.done.bind fun _ _ =>
      Quiet.done.bind fun _ _ => .pure trivial
  · exact .pure trivial

theorem interruptCycle_once (task : Annotated) (live : Cycle) :
    Once NoRetry (interruptCycle w task live) fun _ => True := by
  have remembered : Quiet (perform (.rememberStop task.id) w.effect) fun _ => True := by
    intro log
    have quietly : Quietly log (log ++ [.rememberStop task.id]) :=
      ⟨_, rfl, fun _ member => by rw [List.mem_singleton.mp member]; rfl⟩
    unfold Leads perform
    cases w.effect log.length with
    | ok _ => exact ⟨quietly, trivial⟩
    | error _ => exact quietly
  refine (Once.perform fun _ => trivial).bind fun r _ => ?_
  split
  · exact Quiet.done.bind fun _ _ => remembered.bind fun _ _ => Quiet.done.bind fun _ _ => .pure trivial
  · exact .pure trivial
  · exact .pure trivial

theorem stopBuild_once (task : Annotated) : Once NoRetry (stopBuild w task) fun _ => True := by
  refine .follow Quiet.done fun live _ => ?_
  split
  case h_1 =>
      unfold stopWaiting
      split
      · refine .follow Quiet.done fun rows _ => ?_
        split
        · exact cancelContinuation_once task _
        · exact .pure trivial
      · exact .pure trivial
  case h_2 live _ =>
      split
      · exact .pure trivial
      · split
        · exact .pure trivial
        · exact interruptCycle_once task live

theorem annotate_toTask (row : Task) (lastCycle : Option Cycle) (s : Surroundings) :
    (annotateTask row lastCycle s).toTask = row := by
  unfold annotateTask
  split <;> rfl

variable {tasks : List Annotated} {task : Annotated}

theorem rows_of_annotated (annotated : List.Forall₂ (AnnotatedRow w) rows tasks) :
    tasks.map Annotated.toTask = rows := by
  induction annotated with
  | nil => rfl
  | cons first _ ih =>
    obtain ⟨lastCycle, s, rfl, _⟩ := first
    rw [List.map_cons, annotate_toTask, ih]

theorem eq_of_key (distinct : (rows.filterMap Task.key).Nodup) {a b : Task} (memberA : a ∈ rows)
    (memberB : b ∈ rows)
    (keyA : a.key = some key) (keyB : b.key = some key) : a = b := by
  induction rows with
  | nil => contradiction
  | cons first rest ih =>
    have later : ∀ task ∈ rest, task.key = some key → key ∈ rest.filterMap Task.key :=
      fun task member named => List.mem_filterMap.mpr ⟨task, member, named⟩
    rw [List.filterMap_cons] at distinct
    rcases List.mem_cons.mp memberA with rfl | insideA <;> rcases List.mem_cons.mp memberB with rfl | insideB
    · rfl
    · rw [keyA] at distinct
      exact absurd (later b insideB keyB) (List.nodup_cons.mp distinct).1
    · rw [keyB] at distinct
      exact absurd (later a insideA keyA) (List.nodup_cons.mp distinct).1
    · refine ih ?_ insideA insideB
      cases named : first.key with
      | none => simpa only [named] using distinct
      | some _ =>
        rw [named] at distinct
        exact (List.nodup_cons.mp distinct).2

theorem AnnotatedList.row (annotated : AnnotatedList w tasks) (member : task ∈ tasks) :
    ∃ row, AnnotatedRow w row task := by
  obtain ⟨_, list, _, annotated⟩ := annotated
  generalize list.rows = rows at annotated
  induction annotated with
  | nil => contradiction
  | cons first _ ih =>
    rcases List.mem_cons.mp member with rfl | inside
    · exact ⟨_, first⟩
    · exact ih inside

/-- Two tasks of the list under one key have the same row, and so are one. -/
theorem AnnotatedList.same {a b : Annotated} (annotated : AnnotatedList w tasks) (memberA : a ∈ tasks)
    (memberB : b ∈ tasks) (keyA : a.key = some key) (keyB : b.key = some key) : a = b := by
  obtain ⟨_, list, _, annotated⟩ := annotated
  have rows := rows_of_annotated annotated
  have distinct : (tasks.map Annotated.toTask).Nodup := by
    rw [rows]
    exact list.ids.of_map
  have keys : ((tasks.map Annotated.toTask).filterMap Task.key).Nodup := rows ▸ list.keys
  have same : a.toTask = b.toTask :=
    eq_of_key keys (List.mem_map.mpr ⟨a, memberA, rfl⟩) (List.mem_map.mpr ⟨b, memberB, rfl⟩) keyA keyB
  exact List.inj_on_of_nodup_map distinct memberA memberB same

/-- The task's last cycle, when it was annotated, had a status that can be resumed. -/
def LastResumable (w : World) (task : Annotated) : Prop :=
  ∃ cycle status, LastCycle w task.toTask cycle ∧ buildTaskStatusFromCycle cycle = some (status, true)

theorem AnnotatedRow.lastResumable {row : Task} (annotated : AnnotatedRow w row task)
    (intent : task.intent = .build)
    (canResume : task.canResume = true) : LastResumable w task := by
  obtain ⟨lastCycle, s, rfl, read⟩ := annotated
  have kept := annotate_toTask row lastCycle s
  have build : row.intent = .build := by
    rw [← kept]
    exact intent
  obtain ⟨_, cycle, status, known, resumable⟩ := annotate_canResume build canResume
  exact ⟨cycle, status, by rw [kept]; exact read cycle known, resumable⟩

structure Admitted (w : World) (m : Message) (a : Admission) : Prop where
  annotated : AnnotatedList w a.tasks
  route : a.route = w.route m a.tasks

/-- What the chat resumes: a continuation, and the newest fresh task that is unfinished or the newest of all. -/
structure ChatResume (w : World) (m : Message) (task : Annotated) (cycle : Cycle) : Prop where
  said : (w.unicode.classifyContinuationMessage m.words).kind = .continue'
  resumable : Resumable w m.projectId task cycle
  last : LastResumable w task
  picked : ∃ tasks, AnnotatedList w tasks ∧ task ∈ tasks ∧
    (task.status.unfinished = true ∨ ∀ other ∈ tasks, other.toTask.newer task.toTask = false)
  fresh : ∃ ms, task.updatedMs = some ms ∧ w.nowMs - ms ≤ continuationStaleDays * dayMs

def ChatAllowed (w : World) (m : Message) : Event → Prop
  | .retryCycle task cycle _ => ChatResume w m task cycle
  | _ => True

/-- A reply that passes the message on comes before anything starts. -/
def Answers (allowed : Event → Prop) (program : Act Reply) : Prop :=
  ∀ log, Leads program log (fun reply after => Steps allowed log after ∧
    (reply.handled = true ∨ Quietly log after)) fun _ after => Steps allowed log after

theorem Answers.of_once {program : Act Reply}
    (once : Once allowed program fun reply => reply.handled = true) : Answers allowed program :=
  fun log => (once log).mono (fun _ _ ⟨steps, handled⟩ => ⟨steps, .inl handled⟩) fun _ _ steps => steps

theorem Answers.passed : Answers allowed (pure .passed) :=
  fun log => leads_pure.mpr ⟨(Quietly.refl log).steps, .inr (.refl log)⟩

variable {m : Message} {a : Admission}

theorem withTask_answers {program : Annotated → Act Reply}
    (each : ∀ task, a.task = some task → Answers allowed (program task)) :
    Answers allowed (withTask a program) := by
  unfold withTask
  split
  case h_1 task found => exact each task found
  case h_2 => exact .passed

theorem finish_quiet (action : Action) (task : Option Annotated) (status : Nat) (echo : Bool) (acted : Acted) :
    Quiet (finish w m action task status echo acted) fun reply => reply.handled = true := by
  cases acted with
  | error status text => exact .pure rfl
  | done note taskId => exact answer_quiet _ _ _ _ _ _ _

theorem noRetry_allowed (event : Event) (quiet : NoRetry event) : ChatAllowed w m event := by
  cases event <;> trivial

/-- The task found again under the route's key is the one that was picked. -/
theorem Admitted.picked (admitted : Admitted w m a) (resumes : a.route.action = .resumeBuild)
    (found : a.task = some task) :
    (w.unicode.classifyContinuationMessage m.words).kind = .continue' ∧
      pickContinuationTask a.tasks w.nowMs = some task := by
  have route := admitted.route
  rw [route] at resumes
  obtain ⟨said, picked, pick, chosen⟩ := resolve_resume resumes
  have chosen : a.route.task = some picked := route ▸ chosen
  obtain ⟨key, named, there⟩ := Option.bind_eq_some_iff.mp found
  rw [chosen, Option.bind_some] at named
  have key' : task.key = some key := by simpa using List.find?_some there
  rw [admitted.annotated.same (List.mem_of_find?_eq_some there) (pick_spec pick).1 key' named]
  exact ⟨said, pick⟩

theorem Admitted.resumes (admitted : Admitted w m a) (resumes : a.route.action = .resumeBuild)
    (found : a.task = some task)
    (event : Event) (retries : Retries w m.projectId task event) : ChatAllowed w m event := by
  cases event with
  | retryCycle other cycle text =>
    obtain ⟨rfl, resumable⟩ := retries
    obtain ⟨said, pick⟩ := admitted.picked resumes found
    obtain ⟨member, continuable', fresh⟩ := pick_spec pick
    obtain ⟨row, annotated⟩ := admitted.annotated.row member
    refine ⟨said, resumable, annotated.lastResumable resumable.intent resumable.canResume,
      ⟨a.tasks, admitted.annotated, member, ?_⟩, ?_⟩
    · simp only [continuable, Bool.or_eq_true, Bool.and_eq_true, beq_iff_eq] at continuable'
      exact continuable'.imp_right fun both => newestOf_newest both.2
    · obtain ⟨ms, known, recent⟩ := (Option.any_eq_true _ _).mp fresh
      exact ⟨ms, known, of_decide_eq_true recent⟩
  | _ => trivial

theorem dispatch_answers (admitted : Admitted w m a) : Answers (ChatAllowed w m) (dispatch w m a) := by
  unfold dispatch
  split
  case h_1 | h_2 | h_3 => exact .of_once (.of_quiet (answer_quiet _ _ _ _ _ _ _))
  case h_4 =>
      refine withTask_answers fun task _ => .of_once ?_
      exact ((stopIdle_once task).widen noRetry_allowed).bind fun _ _ => answer_quiet _ _ _ _ _ _ _
  case h_5 =>
      refine withTask_answers fun task _ => .of_once ?_
      exact ((stopBuild_once task).widen noRetry_allowed).bind fun acted _ => finish_quiet _ _ _ _ _
  case h_6 resumes =>
      refine withTask_answers fun task found => .of_once ?_
      exact ((resumeBuild_once m.projectId task _).widen (admitted.resumes resumes found)).bind
        fun acted _ => finish_quiet _ _ _ _ _
  case h_7 =>
      refine withTask_answers fun task _ => .of_once ?_
      exact ((runInvestigation_once _ _).widen noRetry_allowed).bind fun acted _ => finish_quiet _ _ _ _ _
  case h_8 =>
    exact .of_once (((runInvestigation_once _ _).widen noRetry_allowed).bind fun acted _ => finish_quiet _ _ _ _ _)
  case h_9 => exact .passed

theorem routed_admitted (annotated : AnnotatedList w tasks) (routed : w.routed m tasks = some a) :
    Admitted w m a := by
  unfold World.routed at routed
  have fields : ∀ route : Route, some (⟨route, tasks⟩ : Admission) = some a → a.route = route ∧
      a.tasks = tasks := by
    intro route same
    cases same
    exact ⟨rfl, rfl⟩
  split at routed
  · cases routed
  · obtain ⟨route, same⟩ := fields _ routed
    exact ⟨same ▸ annotated, by rw [route, same]⟩

theorem admission_quiet (m : Message) : Quiet (admission w m) fun admitted =>
    ∀ a, admitted = some a → Admitted w m a := by
  refine Quiet.done.bind fun _ _ => annotatedTasks_quiet.bind fun tasks annotated => ?_
  exact Quiet.pure fun a routed => routed_admitted annotated routed

theorem attempt_returns (program : Act α) (otherwise : α) (log : List Event) :
    Leads (attempt program otherwise) log (fun _ _ => True) fun _ _ => False := by
  refine leads_tryCatch.mpr ?_
  unfold Leads
  cases program log with
  | ok _ _ => trivial
  | error _ _ => trivial

theorem routeChatMessage_answers (m : Message) : Leads (routeChatMessage w m) []
    (fun reply log => Steps (ChatAllowed w m) [] log ∧ (reply.handled = true ∨ Quietly [] log))
      fun _ _ => False := by
  unfold routeChatMessage
  split
  case isFalse => exact leads_pure.mpr ⟨(Quietly.refl []).steps, .inr (.refl [])⟩
  case isTrue =>
      have admitted : Quiet (attempt (some <$> admission w m) none) fun admitted =>
          ∀ a, admitted = some (some a) → Admitted w m a :=
        .attempt (.map (admission_quiet m) fun admitted each a same =>
          each a (Option.some.inj same)) fun _ wrong => nomatch wrong
      refine leads_bind.mpr (((admitted []).and (attempt_returns _ _ [])).mono
        (fun found middle ⟨⟨quiet, each⟩, _⟩ => ?_) fun _ _ both => both.2)
      match found with
      | none => exact leads_pure.mpr ⟨quiet.steps, .inl rfl⟩
      | some none => exact leads_pure.mpr ⟨quiet.steps, .inr quiet⟩
      | some (some a) =>
        refine leads_tryCatch.mpr ((dispatch_answers (each a rfl) middle).mono
          (fun reply after ⟨steps, either⟩ => ?_) fun _ after steps => ?_)
        · exact ⟨quiet.before steps, either.imp_right quiet.trans⟩
        · exact leads_pure.mpr ⟨quiet.before steps, .inl rfl⟩

/-- A recognised message that could not be decided is answered, never run as an ordinary one. -/
theorem undecided_handled (m : Message) (recognized : m.recognized w = true) {message : String} {after : List Event}
    (failed : admission w m [] = .error message after) :
    routeChatMessage w m [] = .ok (.error 503 recoveryUnavailable) after := by
  have mapped : (some <$> admission w m : Act (Option (Option Admission))) [] = .error message after := by
    show EStateM.map some (admission w m) [] = _
    unfold EStateM.map
    rw [failed]
  have attempted : attempt (some <$> admission w m) none [] = .ok none after := by
    show EStateM.tryCatch (some <$> admission w m) (fun _ => pure none) [] = _
    unfold EStateM.tryCatch
    rw [mapped]
    rfl
  unfold routeChatMessage
  rw [if_pos recognized]
  show EStateM.bind (attempt (some <$> admission w m) none) (decided w m) [] = _
  unfold EStateM.bind
  rw [attempted]
  rfl

/-- What a task route resumes. -/
structure KeyResume (w : World) (r : ByKey) (task : Annotated) (cycle : Cycle) : Prop where
  notStop : (w.unicode.classifyContinuationMessage (trim r.message)).kind ≠ .stop
  notExplain : (w.unicode.classifyContinuationMessage (trim r.message)).kind ≠ .explainOnly
  resumable : Resumable w r.projectId task cycle
  last : LastResumable w task

def KeyAllowed (w : World) (r : ByKey) : Event → Prop
  | .retryCycle task cycle _ => KeyResume w r task cycle
  | _ => True

variable {r : ByKey}

theorem noRetry_keyAllowed (event : Event) (quiet : NoRetry event) : KeyAllowed w r event := by
  cases event <;> trivial

theorem getAnnotated_quiet (key : String) : Quiet (getAnnotatedTaskByKey w key) fun found =>
    ∀ task, found = some task → ∃ row, AnnotatedRow w row task := by
  unfold getAnnotatedTaskByKey
  split
  case isFalse => exact .pure fun _ wrong => nomatch wrong
  case isTrue =>
      refine Quiet.done.bind fun found _ => ?_
      cases found with
      | none => exact .pure fun _ wrong => nomatch wrong
      | some row =>
        refine annotatedTasks_quiet.bind fun all annotated => .pure fun task same => ?_
        rw [← Option.some.inj same]
        cases there : all.find? fun other => other.id == row.id with
        | none => exact ⟨row, none, .none, rfl, fun _ wrong => nomatch wrong⟩
        | some other => exact annotated.row (List.mem_of_find?_eq_some there)

theorem stopFound_once (task : Annotated) : Once NoRetry (stopFound w task) fun _ => True := by
  unfold stopFound
  split
  · exact .pure trivial
  · split
    · exact (stopBuild_once task).bind fun _ _ => .pure trivial
    · split
      · exact (stopIdle_once task).bind fun _ _ => .pure trivial
      · exact .pure trivial

theorem stopTaskByKey_once (r : ByKey) : Once NoRetry (stopTaskByKey w r) fun _ => True := by
  refine .follow (getAnnotated_quiet r.key) fun found _ => ?_
  cases found with
  | none => exact .pure trivial
  | some task =>
    refine (stopFound_once task).bind fun ⟨action, acted⟩ _ => ?_
    cases acted with
    | error _ _ => exact .pure trivial
    | done _ _ => exact (freshOf_quiet _).bind fun _ _ => (noteAndAudit_quiet _ _).bind fun _ _ => .pure trivial

theorem explainTask_once (task : Annotated) (guidance : List Char) :
    Once NoRetry (explainTask w task guidance) fun _ => True := by
  refine (runInvestigation_once _ _).bind fun acted _ => ?_
  cases acted with
  | error _ _ => exact .pure trivial
  | done _ taskId =>
    exact (freshOf_quiet taskId).bind fun _ _ => (noteAndAudit_quiet _ _).bind fun _ _ => .pure trivial

theorem noRetry_retries {projectId : Nat} (event : Event) (quiet : NoRetry event) :
    Retries w projectId task event := by
  cases event <;> trivial

theorem resumeFound_once (projectId : Nat) (task : Annotated) (guidance : List Char) :
    Once (Retries w projectId task) (resumeFound w projectId task guidance) fun _ => True := by
  unfold resumeFound
  split
  · exact (resumeBuild_once projectId task guidance).bind fun _ _ => .pure trivial
  · split
    · exact .pure trivial
    · split
      · exact .pure trivial
      · exact ((runInvestigation_once _ _).widen noRetry_retries).bind fun _ _ => .pure trivial

theorem resumeTask_once (r : ByKey) (task : Annotated) (guidance : List Char) :
    Once (Retries w r.projectId task) (resumeTask w r task guidance) fun _ => True := by
  have echoed : Quiet (echoGuidance w task guidance) fun _ => True := by
    unfold echoGuidance
    split
    · exact .attempt .done trivial
    · exact .pure trivial
  refine (resumeFound_once r.projectId task guidance).bind fun ⟨action, acted⟩ _ => ?_
  cases acted with
  | error _ _ => exact .pure trivial
  | done _ _ =>
    exact (freshOf_quiet _).bind fun _ _ => echoed.bind fun _ _ =>
      (noteAndAudit_quiet _ _).bind fun _ _ => .pure trivial

theorem resumeTaskByKey_once (r : ByKey) : Once (KeyAllowed w r) (resumeTaskByKey w r) fun _ => True := by
  refine .follow Quiet.done fun _ _ => .follow (getAnnotated_quiet r.key) fun found annotated => ?_
  cases found with
  | none => exact .pure trivial
  | some task =>
    obtain ⟨row, annotated⟩ := annotated task rfl
    cases kind : (w.unicode.classifyContinuationMessage (trim r.message)).kind with
    | stop =>
      exact (stopTaskByKey_once r).widen noRetry_keyAllowed
    | explainOnly =>
      exact (explainTask_once task _).widen noRetry_keyAllowed
    | continue' | other =>
      refine (resumeTask_once r task _).widen fun event retries => ?_
      cases event with
      | retryCycle other cycle text =>
        obtain ⟨rfl, resumable⟩ := retries
        exact ⟨by simp [kind], by simp [kind], resumable, annotated.lastResumable resumable.intent resumable.canResume⟩
      | _ => trivial

structure ChatSafe (w : World) (m : Message) (reply : Reply) (log : List Event) : Prop where
  retries : ∀ task cycle text, .retryCycle task cycle text ∈ log → ChatResume w m task cycle
  once : (log.filter Event.starts).length ≤ 1
  handled : (∃ event ∈ log, event.starts = true) → reply.handled = true
  undecided : m.recognized w = true → (∃ message after, admission w m [] = .error message after) →
    reply.handled = true

structure KeySafe (w : World) (r : ByKey) (log : List Event) : Prop where
  retries : ∀ task cycle text, .retryCycle task cycle text ∈ log → KeyResume w r task cycle
  once : (log.filter Event.starts).length ≤ 1

def logOf : EStateM.Result String (List Event) α → List Event
  | .ok _ log | .error _ log => log

theorem start_steps {log : List Event} (steps : Steps allowed [] log) :
    (log.filter Event.starts).length ≤ 1 ∧ ∀ event ∈ log, event.starts = true → allowed event := by
  obtain ⟨more, rfl, once, permitted⟩ := steps
  exact ⟨once, permitted⟩

theorem quiet_start {log : List Event} (quietly : Quietly [] log) : ¬ ∃ event ∈ log, event.starts = true := by
  obtain ⟨more, rfl, quiet⟩ := quietly
  rintro ⟨event, member, starts⟩
  rw [quiet event member] at starts
  contradiction

/-- Whatever the message, the tasks and the dependencies, the chat always answers. -/
theorem message_never_widens (w : World) :
    (∀ m, ∃ reply log, routeChatMessage w m [] = .ok reply log ∧ ChatSafe w m reply log) ∧
    ∀ r, KeySafe w r (logOf (resumeTaskByKey w r [])) := by
  constructor
  · intro m
    have answers := routeChatMessage_answers (w := w) m
    unfold Leads at answers
    cases ended : routeChatMessage w m [] with
    | error _ _ =>
      rw [ended] at answers
      exact answers.elim
    | ok reply log =>
      rw [ended] at answers
      obtain ⟨once, permitted⟩ := start_steps answers.1
      refine ⟨reply, log, rfl, fun task cycle text member => permitted _ member rfl, once,
        fun starts => ?_, fun recognized ⟨_, _, failed⟩ => ?_⟩
      · exact answers.2.resolve_right fun quietly => quiet_start quietly starts
      · rw [undecided_handled m recognized failed] at ended
        cases ended
        rfl
  · intro r
    have steps : Steps (KeyAllowed w r) [] (logOf (resumeTaskByKey w r [])) := by
      have once := resumeTaskByKey_once (w := w) r []
      unfold Leads at once
      cases ended : resumeTaskByKey w r [] with
      | ok _ _ =>
        rw [ended] at once
        exact once.1
      | error _ _ =>
        rw [ended] at once
        exact once
    obtain ⟨once, permitted⟩ := start_steps steps
    exact ⟨fun task cycle text member => permitted _ member rfl, once⟩

end ProxyPilot.Chat
