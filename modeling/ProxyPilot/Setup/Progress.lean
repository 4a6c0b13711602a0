import ProxyPilot.Setup.Holds

namespace ProxyPilot.Setup

open Data Transition

/-- The change writes the field of the job's progress. -/
def Change.sets (id name : String) : Change → Bool
  | .job _ names _ new => new.id = id && names.contains name
  | .lock _ _ _ _ => false

/-- The change is the write of a `requestCancel` that answers `requested`. -/
def Change.requests (id : String) : Change → Prop
  | .job .requestCancel _ _ new => new.id = id
  | _ => False

/-- The change is the write of a `recordGenerated`. -/
def Change.generates (id : String) (entry : Json) : Change → Prop
  | .job (.worker _ (.recordGenerated recorded)) _ _ new => new.id = id ∧ recorded = entry
  | _ => False

/-- What a write does to the progress of its row. -/
structure Merges (writer : Writer) (names : List String) (old new : JobRow) : Prop where
  others : ∀ name, name ∉ names → new.progress.value name = old.progress.value name
  cancel : "cancel_requested" ∈ names → (new.progress.value "cancel_requested").any Json.truthy = true
  generated : "generated" ∈ names → ∀ entry ∈ old.progress.generated, entry ∈ new.progress.generated
  requests : writer = .requestCancel → "cancel_requested" ∈ names
  records : ∀ fence entry, writer = .worker fence (.recordGenerated entry) → entry ∈ new.progress.generated

def Change.Merged : Change → Prop
  | .job writer names (some old) new => Merges writer names old new
  | .job writer _ none _ => writer = .createJob
  | .lock _ _ _ _ => True

/-- No record of a progress object is lost. -/
structure NothingLost (db : Db) (log : List Change) : Prop where
  requested : ∀ id, ∀ change ∈ log, change.requests id →
    ∃ row, db.jobs.get id = some row ∧ (row.progress.value "cancel_requested").any Json.truthy = true
  generated : ∀ id entry, ∀ change ∈ log, change.generates id entry →
    ∃ row, db.jobs.get id = some row ∧ entry ∈ row.progress.generated
  values : ∀ before writer names old new after name, log = before ++ .job writer names old new :: after →
    name ∈ names → (∀ later ∈ after, later.sets new.id name = false) →
    ∃ row, db.jobs.get new.id = some row ∧ row.progress.value name = new.progress.value name

section

variable {db after : Db} {log : List Change} {change : Change} {writer : Writer}
  {names : List String} {old new : JobRow}

theorem generated_of_value {first second : Object} (same : first.value "generated" = second.value "generated") :
    first.generated = second.generated := by
  unfold Object.generated
  rw [same]

theorem Merges.keeps_cancel (merges : Merges writer names old new)
    (requested : (old.progress.value "cancel_requested").any Json.truthy = true) :
    (new.progress.value "cancel_requested").any Json.truthy = true := by
  by_cases named : "cancel_requested" ∈ names
  · exact merges.cancel named
  · rw [merges.others _ named]
    exact requested

theorem Merges.keeps_generated (merges : Merges writer names old new) {entry : Json}
    (recorded : entry ∈ old.progress.generated) : entry ∈ new.progress.generated := by
  by_cases named : "generated" ∈ names
  · exact merges.generated named entry recorded
  · rw [generated_of_value (merges.others _ named)]
    exact recorded

theorem NothingLost.lock (kept : NothingLost db log) {writer : LockWriter} {app : String} {old new : Option LockRow}
    (locks : Table LockRow) : NothingLost { db with locks } (log ++ [.lock writer app old new]) where
  requested := by
    intro id change member requests
    cases List.mem_append.mp member with
    | inl early => exact kept.requested id change early requests
    | inr last =>
      rw [List.mem_singleton.mp last] at requests
      exact requests.elim
  generated := by
    intro id entry change member generates
    cases List.mem_append.mp member with
    | inl early => exact kept.generated id entry change early generates
    | inr last =>
      rw [List.mem_singleton.mp last] at generates
      exact generates.elim
  values := by
    intro before writer names old new after name split named quiet
    rcases snoc_split split with ⟨_, same, _⟩ | ⟨rest, rfl, inner⟩
    · contradiction
    · exact kept.values before writer names old new rest name inner named
        fun later member => quiet later (List.mem_append_left _ member)

/-- The row a change rewrites still has what the history records of it. -/
theorem put_keeps (id : String) {holds : JobRow → Prop}
    (stored : ∃ row, db.jobs.get id = some row ∧ holds row)
    (rewrites : ∀ row, id = new.id → db.jobs.get new.id = some row → holds row → holds new) :
    ∃ row, (db.jobs.put new).get id = some row ∧ holds row := by
  obtain ⟨row, found, held⟩ := stored
  by_cases same : id = new.id
  · exact ⟨new, same ▸ Table.get_put_self _ _, rewrites row same (same ▸ found) held⟩
  · exact ⟨row, (Table.get_put_other _ same).trans found, held⟩

theorem NothingLost.merge (kept : NothingLost db log) (found : db.jobs.get new.id = some old)
    (merges : Merges writer names old new) :
    NothingLost { db with jobs := db.jobs.put new } (log ++ [.job writer names (some old) new]) where
  requested := by
    intro id change member requests
    cases List.mem_append.mp member with
    | inl early =>
      refine put_keeps id (kept.requested id change early requests) fun row _ stored held => ?_
      rw [found] at stored
      cases stored
      exact merges.keeps_cancel held
    | inr last =>
      rw [List.mem_singleton.mp last] at requests
      cases writer with
      | requestCancel => exact ⟨new, requests ▸ Table.get_put_self _ _, merges.cancel (merges.requests rfl)⟩
      | _ => exact requests.elim
  generated := by
    intro id entry change member generates
    cases List.mem_append.mp member with
    | inl early =>
      refine put_keeps id (kept.generated id entry change early generates) fun row _ stored held => ?_
      rw [found] at stored
      cases stored
      exact merges.keeps_generated held
    | inr last =>
      rw [List.mem_singleton.mp last] at generates
      unfold Change.generates at generates
      split at generates
      case h_1 same =>
          obtain ⟨named, recorded⟩ := generates
          cases same
          exact ⟨new, named ▸ Table.get_put_self _ _, merges.records _ _ (by rw [recorded])⟩
      case h_2 => exact generates.elim
  values := by
    intro before author written earlier later after name split named quiet
    rcases snoc_split split with ⟨_, same, _⟩ | ⟨rest, rfl, inner⟩
    · cases same
      exact ⟨new, Table.get_put_self _ _, rfl⟩
    · have still := kept.values before author written earlier later rest name inner named
        fun change member => quiet change (List.mem_append_left _ member)
      refine put_keeps later.id still fun row about stored held => ?_
      rw [found] at stored
      cases stored
      have untouched := quiet _ (List.mem_append_right _ List.mem_cons_self)
      rw [merges.others name (by simpa [Change.sets, about] using untouched)]
      exact held

theorem NothingLost.create (kept : NothingLost db log) (fresh : db.jobs.get new.id = none) :
    NothingLost { db with jobs := db.jobs.put new } (log ++ [.job .createJob names none new]) where
  requested := by
    intro id change member requests
    cases List.mem_append.mp member with
    | inl early =>
      refine put_keeps id (kept.requested id change early requests) fun row _ stored _ => ?_
      rw [fresh] at stored
      contradiction
    | inr last =>
      rw [List.mem_singleton.mp last] at requests
      exact requests.elim
  generated := by
    intro id entry change member generates
    cases List.mem_append.mp member with
    | inl early =>
      refine put_keeps id (kept.generated id entry change early generates) fun row _ stored _ => ?_
      rw [fresh] at stored
      contradiction
    | inr last =>
      rw [List.mem_singleton.mp last] at generates
      exact generates.elim
  values := by
    intro before author written earlier later after name split named quiet
    rcases snoc_split split with ⟨_, same, _⟩ | ⟨rest, rfl, inner⟩
    · cases same
      exact ⟨new, Table.get_put_self _ _, rfl⟩
    · have still := kept.values before author written earlier later rest name inner named
        fun change member => quiet change (List.mem_append_left _ member)
      refine put_keeps later.id still fun row about stored held => ?_
      rw [fresh] at stored
      contradiction

theorem NothingLost.steps (kept : NothingLost db log) (merged : change.Merged) (stepped : change.Steps db after) :
    NothingLost after (log ++ [change]) := by
  cases stepped with
  | lock => exact kept.lock _
  | unlock => exact kept.lock _
  | @job writer names old new found moved =>
    cases old with
    | some old => exact kept.merge found merged
    | none =>
      cases moved
      exact kept.create found

end

theorem Object.mem_names {fields : Object} {name : String} :
    name ∈ fields.rows.map Field.name ↔ fields.has name = true := by
  unfold Object.has Object.value
  rw [Option.isSome_map]
  constructor
  · intro member
    obtain ⟨field, stored, rfl⟩ := List.mem_map.mp member
    rw [show fields.get field.name = some field from Table.get_of_mem stored]
    rfl
  · intro found
    obtain ⟨field, found⟩ := Option.isSome_iff_exists.mp found
    exact List.mem_map.mpr ⟨field, Table.get_mem found, Table.get_key found⟩

theorem Object.value_redact (patterns : Patterns) (object : Object) (name : String) :
    (object.redact patterns).value name = (object.value name).map (redactEntry patterns 0 name) := by
  unfold Object.value Object.redact
  rw [Table.get_map]
  cases found : object.get name with
  | none => rfl
  | some field =>
    have named : field.name = name := Table.get_key found
    simp [named]

/-- The fields neither `requestCancel` nor `recordGenerated` keeps its record in. -/
def Object.Unclaimed (fields : Object) : Prop :=
  fields.has "cancel_requested" = false ∧ fields.has "generated" = false

theorem Object.Unclaimed.absent {fields : Object} (unclaimed : fields.Unclaimed) :
    "cancel_requested" ∉ fields.rows.map Field.name ∧ "generated" ∉ fields.rows.map Field.name := by
  rw [Object.mem_names, Object.mem_names, unclaimed.1, unclaimed.2]
  exact ⟨Bool.false_ne_true, Bool.false_ne_true⟩

section

variable {writer : Writer} {names : List String} {old new : JobRow}

/-- A write of fields that hold no record of another function. -/
theorem Merges.plain (others : ∀ name, name ∉ names → new.progress.value name = old.progress.value name)
    (cancel : "cancel_requested" ∉ names) (generated : "generated" ∉ names) (author : writer ≠ .requestCancel)
    (worker : ∀ fence entry, writer ≠ .worker fence (.recordGenerated entry)) : Merges writer names old new where
  others := others
  cancel := fun named => absurd named cancel
  generated := fun named => absurd named generated
  requests := fun same => absurd same author
  records := fun fence entry same => absurd same (worker fence entry)

theorem Merges.untouched (same : new.progress = old.progress) (author : writer ≠ .requestCancel)
    (worker : ∀ fence entry, writer ≠ .worker fence (.recordGenerated entry)) : Merges writer [] old new :=
  .plain (fun _ _ => by rw [same]) (by simp) (by simp) author worker

end

/-- The stored progress is the one the call has read. -/
def AsRead (db : Db) (id : String) (read : JobRow) : Prop :=
  ∃ row, db.jobs.get id = some row ∧ row.progress = read.progress

def Statement.MergesInto (patterns : Patterns) (db : Db) : Statement → Prop
  | .checkpoint read fence _ _ progress _ =>
    AsRead db fence.id read ∧
      ∀ fields, progress = some fields → fields.Unclaimed ∧ read.progress.redact patterns = read.progress
  | .recordGenerated read fence _ _ => AsRead db fence.id read
  | .recordProgress read fence progress _ _ => AsRead db fence.id read ∧ progress.Unclaimed
  | .requeueJob read _ _ => AsRead db read.id read
  | .annotateJobProgress read progress _ => AsRead db read.id read ∧ progress.Unclaimed
  | .requestCancel read _ _ => AsRead db read.id read
  | .acknowledge _ notes _ _ => notes.Unclaimed
  | _ => True

/-- A write-back finds the progress the call has read; callers leave the fields of
`requestCancel` and `recordGenerated` alone; `checkpoint` redacts nothing that is
already recorded. -/
def MergesAsRead (patterns : Patterns) (state : State) : Label → Prop
  | .call _ => True
  | .goes token =>
    ∀ pending, state.pending.get token = some pending → pending.statement.MergesInto patterns state.db

theorem AsRead.same {db : Db} {id : String} {read row : JobRow} (asRead : AsRead db id read)
    (found : db.jobs.get id = some row) : row.progress = read.progress := by
  obtain ⟨stored, is, same⟩ := asRead
  rw [found] at is
  cases is
  exact same

section

variable {patterns : Patterns} {db : Db}

variable {now : Time} {read : JobRow}

theorem checkpoint_merged {fence : Fence} {phase : String} {cp : Object} {progress : Option Object}
    (into : (Statement.checkpoint read fence phase cp progress now).MergesInto patterns db) :
    ∀ change ∈ (checkpoint patterns db read fence phase cp progress now).2, change.Merged := by
  obtain ⟨asRead, given⟩ := into
  refine updateJob_all fun row found _ => ?_
  cases progress with
  | none => exact .untouched (asRead.same found).symm (by simp) (by simp)
  | some fields =>
    obtain ⟨unclaimed, settled⟩ := given fields rfl
    refine .plain (fun name absent => ?_) unclaimed.absent.1 unclaimed.absent.2 (by simp) (by simp)
    have outside : fields.has name = false := by
      rw [← Bool.not_eq_true, ← Object.mem_names]
      exact absent
    have kept : (read.progress.redact patterns).value name = read.progress.value name := by rw [settled]
    show ((read.progress.spread fields).redact patterns).value name = row.progress.value name
    rw [Object.value_redact, Object.value_spread_other _ outside, ← Object.value_redact, kept, asRead.same found]

theorem recordGenerated_merged {fence : Fence} {resource : Resource}
    (asRead : AsRead db fence.id read) :
    ∀ change ∈ (recordGenerated patterns db read fence resource now).2, change.Merged := by
  refine updateJob_all fun row found _ => ?_
  have same := asRead.same found
  have list : (read.progress.set "generated"
      (.list (read.progress.generated ++ [resource.entry patterns now]))).generated =
      read.progress.generated ++ [resource.entry patterns now] := by
    simp [Object.generated]
  refine ⟨fun name absent => ?_, by simp, fun _ entry member => ?_, by simp, fun _ entry author => ?_⟩
  · have different : name ≠ "generated" := by simpa using absent
    exact (Object.value_set_other _ _ different).trans (by rw [same])
  · rw [show row.progress.generated = read.progress.generated from congrArg Object.generated same] at member
    show entry ∈ Object.generated _
    rw [list]
    exact List.mem_append_left _ member
  · cases author
    show _ ∈ Object.generated _
    rw [list]
    exact List.mem_append_right _ List.mem_cons_self

theorem spread_merged {writer : Writer} {fields : Object} {id : String} {allowed : JobRow → Bool}
    (asRead : AsRead db id read) (unclaimed : fields.Unclaimed) (author : writer ≠ .requestCancel)
    (worker : ∀ fence entry, writer ≠ .worker fence (.recordGenerated entry)) :
    ∀ change ∈ (db.updateJob writer (fields.rows.map Field.name) id allowed fun row =>
      { row with progress := read.progress.spread (fields.redact patterns), updatedAt := now }).2,
        change.Merged := by
  refine updateJob_all fun row found _ =>
    .plain (fun name absent => ?_) unclaimed.absent.1 unclaimed.absent.2 author worker
  have outside : (fields.redact patterns).has name = false := by
    rw [Object.has_redact, ← Bool.not_eq_true, ← Object.mem_names]
    exact absent
  exact (Object.value_spread_other _ outside).trans (by rw [asRead.same found])

theorem requeueJob_merged {notBefore : Option Time} (asRead : AsRead db read.id read) :
    ∀ change ∈ (requeueJob db read notBefore now).2, change.Merged := by
  refine updateJob_all fun row found _ => .plain (fun name absent => ?_) (by simp) (by simp) (by simp) (by simp)
  obtain ⟨wait, count⟩ : name ≠ "not_before" ∧ name ≠ "requeues" := by simpa using absent
  refine (Object.value_set_other _ _ count).trans ?_
  rw [asRead.same found]
  split
  · exact Object.value_set_other _ _ wait
  · exact Object.value_erase_other _ wait

theorem requestCancel_merged {actor : String} (asRead : AsRead db read.id read) :
    ∀ change ∈ (requestCancel db read actor now).2, change.Merged := by
  refine updateJob_all fun row found _ => ⟨fun name absent => ?_, fun _ => ?_, by simp, fun _ => by simp, by simp⟩
  · have different : name ≠ "cancel_requested" := by simpa using absent
    exact (Object.value_set_other _ _ different).trans (by rw [asRead.same found])
  · simp [Json.truthy]

theorem annotate_merged {id : String} {fields : Object} (unclaimed : fields.Unclaimed) :
    ∀ change ∈ (annotate patterns db id fields now).2, change.Merged := by
  unfold annotate
  cases found : db.jobs.get id with
  | none => simp
  | some row =>
    refine spread_merged ⟨row, ?_, rfl⟩ unclaimed (by simp) (by simp)
    rw [show row.id = id from Table.get_key found, found]

theorem claimNextJob_merged {owner : String} {kinds : List String} {leaseMs : Int} :
    ∀ change ∈ (claimNextJob db owner kinds leaseMs now).2, change.Merged := by
  refine claimNextJob_all fun next candidate row found lease at_ =>
    .plain (fun name absent => ?_) (by simp) (by simp) (by simp) (by simp)
  have stored : next ∈ db.jobs.rows := by
    have sorted := List.mem_of_mem_take candidate
    exact List.mem_of_mem_filter ((List.perm_insertionSort _ _).mem_iff.mp sorted)
  have same : row = next := Option.some.inj (found.symm.trans (Table.get_of_mem stored))
  subst same
  have different : name ≠ "not_before" := by simpa using absent
  show row.waited.value name = row.progress.value name
  unfold JobRow.waited
  split
  · exact Object.value_erase_other _ different
  · rfl

end

theorem Issues.merged {patterns : Patterns} {state : State} {label : Label} {turn : Turn}
    (issued : Issues patterns state label turn) (asRead : MergesAsRead patterns state label) :
    ∀ change ∈ turn.log, change.Merged := by
  have nothing : ∀ change ∈ ([] : List Change), change.Merged := by simp
  cases issued with
  | call call =>
    cases call with
    | createJob => exact createJob_all fun _ => rfl
    | startJob => exact updateJob_all fun _ _ _ => .untouched rfl (by simp) (by simp)
    | claimNextJob => exact claimNextJob_merged
    | heartbeat => exact updateJob_all fun _ _ _ => .untouched rfl (by simp) (by simp)
    | finishJob fence status outcome progress now =>
      refine Db.given_all fun status => ?_
      split
      · exact nothing
      · exact updateJob_all fun _ _ _ => .untouched rfl (by simp) (by simp)
    | recordJobOutcome =>
      exact Db.given_all fun _ => updateJob_all fun _ _ _ => .untouched rfl (by simp) (by simp)
    | annotateTerminalOutcome =>
      exact Db.given_all fun _ => updateJob_all fun _ _ _ => .untouched rfl (by simp) (by simp)
    | cancelQueuedJob => exact updateJob_all fun _ _ _ => .untouched rfl (by simp) (by simp)
    | acquireLock => exact acquireLock_all fun _ _ => trivial
    | renewLock => exact renewLock_all fun _ _ => trivial
    | releaseLock => exact releaseLock_all fun _ _ => trivial
    | takeoverLock => exact takeoverLock_all fun _ _ => trivial
    | markLockStale => exact markLockStale_all fun _ _ => trivial
    | clearStaleLock => exact clearStaleLock_all fun _ _ => trivial
    | checkpoint | recordGenerated | recordProgress | requeueJob | annotateJobProgress | requestCancel
    | takeOverUnheld | holdStaleLock | acknowledgeUncertainJob => exact nothing
  | @goes token pending waits =>
    have into := asRead pending waits
    cases statement : pending.statement with
    | checkpoint => exact checkpoint_merged (statement ▸ into)
    | recordGenerated => exact recordGenerated_merged (by rwa [statement] at into)
    | recordProgress =>
      rw [statement] at into
      exact spread_merged into.1 into.2 (by simp) (by simp)
    | finishJob => exact updateJob_all fun _ _ _ => .untouched rfl (by simp) (by simp)
    | requeueJob => exact requeueJob_merged (by rwa [statement] at into)
    | annotateJobProgress =>
      rw [statement] at into
      exact spread_merged into.1 into.2 (by simp) (by simp)
    | cancelQueued => exact updateJob_all fun _ _ _ => .untouched rfl (by simp) (by simp)
    | requestCancel => exact requestCancel_merged (by rwa [statement] at into)
    | leaseHold => exact nothing
    | takeoverLock => exact takeoverLock_all fun _ _ => trivial
    | holdStaleLock => exact holdStaleLock_all (fun _ _ => trivial) fun _ _ => trivial
    | acknowledge =>
      rw [statement] at into
      refine acknowledge_all (fun _ _ => clearStaleLock_all fun _ _ => trivial)
        (fun _ _ _ => .untouched rfl (by simp) (by simp)) (fun _ _ => annotate_merged into)
        fun _ setup _ _ _ => annotate_merged ⟨?_, ?_⟩
      · exact congrArg Option.isSome (Object.value_set_other ∅ setup (by decide))
      · exact congrArg Option.isSome (Object.value_set_other ∅ setup (by decide))

theorem NothingLost.empty : NothingLost .empty [] where
  requested := fun _ _ member => absurd member (by simp)
  generated := fun _ _ _ member => absurd member (by simp)
  values := fun before _ _ _ _ _ _ split => by simp at split

/-- Where every write-back finds the progress its call has read, a requested cancel
stays requested, recorded resources stay, and an annotated field keeps its value
until the field is written again. -/
theorem progress_kept {patterns : Patterns} {labels : List Label} {state : State}
    (along : (engine patterns).Along (MergesAsRead patterns) .initial labels)
    (ran : (engine patterns).exec .initial labels = some state) :
    (∀ id, ∀ change ∈ state.log, change.requests id →
      cancelPending state.db id = true ∧
        ∀ db fence leaseMs now, fence.id = id → (heartbeat db fence leaseMs now).2 ≠ [] →
          fenceJob db state.db fence true leaseMs now = .cancelledError) ∧
    (∀ id entry, ∀ change ∈ state.log, change.generates id entry →
      ∃ row, state.db.jobs.get id = some row ∧ entry ∈ row.progress.generated) ∧
    ∀ before names old new after name, state.log = before ++ .job .annotateJobProgress names old new :: after →
      name ∈ names → (∀ later ∈ after, later.sets new.id name = false) →
      ∃ row, state.db.jobs.get new.id = some row ∧ row.progress.value name = new.progress.value name := by
  have kept : NothingLost state.db state.log :=
    (engine patterns).exec_preserves_along (MergesAsRead patterns) (fun state => NothingLost state.db state.log)
      (fun before asRead moved => step_preserves NothingLost Change.Merged
        (fun kept merged stepped => kept.steps merged stepped)
        (fun issued => issued.merged asRead) before moved)
      along .empty ran
  refine ⟨fun id change member requests => ?_, kept.generated,
    fun before names old new after name split named quiet =>
    kept.values before _ names old new after name split named quiet⟩
  obtain ⟨row, found, requested⟩ := kept.requested id change member requests
  have pending : cancelPending state.db id = true := by
    unfold cancelPending
    rw [found]
    exact requested
  refine ⟨pending, fun db fence leaseMs now same accepted => ?_⟩
  unfold fenceJob
  rw [if_neg (by simpa using accepted), same, pending]
  rfl

def claimed : List Label :=
  [.call (.createJob "j" "deploy" "app" .queued 0), .call (.claimNextJob "A" ["deploy"] 1000 0)]

def note : Object := Object.set ∅ "routes" (.text "done")

def snapshot : Resource := ⟨"snapshot", "s1", none, none, none, none⟩

/-- A cancel is requested between the two statements of a `recordProgress`. -/
def cancelBetween : List Label :=
  claimed ++ [.call (.recordProgress ⟨"j", "A", 1⟩ ∅ 1), .call (.requestCancel "j" "admin" 2), .goes 1, .goes 0]

/-- A resource is recorded between the two statements of an `annotateJobProgress`. -/
def resourceBetween : List Label :=
  claimed ++ [.call (.annotateJobProgress "j" note 1),
    .call (.recordGenerated ⟨"j", "A", 1⟩ snapshot 2), .goes 1, .goes 0]

/-- A note is left between the two statements of a `checkpoint` without progress. -/
def noteBetween : List Label :=
  claimed ++ [.call (.checkpoint ⟨"j", "A", 1⟩ "start" ∅ none 1),
    .call (.annotateJobProgress "j" note 2), .goes 1, .goes 0]

/-- The cancel, the resource and the note are written and gone at the end. -/
theorem progress_lost :
    (∃ state, (engine plainText).exec .initial cancelBetween = some state ∧
      (∃ change ∈ state.log, change.requests "j") ∧ cancelPending state.db "j" = false ∧
      fenceJob state.db state.db ⟨"j", "A", 1⟩ true 1000 3 = .passed) ∧
    (∃ state, (engine plainText).exec .initial resourceBetween = some state ∧
      (∃ change ∈ state.log, change.generates "j" (snapshot.entry plainText 2)) ∧
      (state.db.jobs.get "j").map (·.progress.generated.length) = some 0) ∧
    ∃ state, (engine plainText).exec .initial noteBetween = some state ∧
      (∃ before names old new, state.log.take 3 = before ++ [.job .annotateJobProgress names old new] ∧
        "routes" ∈ names ∧ new.id = "j") ∧
      (state.log.drop 3).all (!Change.sets "j" "routes" ·) = true ∧
      (state.db.jobs.get "j").map (·.progress.has "routes") = some false := by
  refine ⟨⟨_, rfl, ⟨_, List.mem_cons_of_mem _ (List.mem_cons_of_mem _ List.mem_cons_self), rfl⟩, rfl, rfl⟩,
    ⟨_, rfl, ⟨_, List.mem_cons_of_mem _ (List.mem_cons_of_mem _ List.mem_cons_self), rfl, rfl⟩, rfl⟩,
    _, rfl, ⟨[_, _], _, _, _, rfl, List.mem_cons_self, rfl⟩, rfl, rfl⟩

/-- One statement after the other. -/
def cancelThenResource : List Label :=
  claimed ++ [.call (.requestCancel "j" "admin" 1), .goes 0,
    .call (.recordGenerated ⟨"j", "A", 1⟩ snapshot 2), .goes 1]

theorem progress_kept_cancelThenResource :
    ∃ state, (engine plainText).exec .initial cancelThenResource = some state ∧ cancelPending state.db "j" = true ∧
      ∃ row, state.db.jobs.get "j" = some row ∧ snapshot.entry plainText 2 ∈ row.progress.generated := by
  have along : (engine plainText).Along (MergesAsRead plainText) .initial cancelThenResource := by
    refine System.along_cons trivial rfl (System.along_cons trivial rfl (System.along_cons trivial rfl
      (System.along_cons ?_ rfl (System.along_cons trivial rfl (System.along_cons ?_ rfl trivial)))))
    · intro pending waits
      rw [← Option.some.inj waits]
      exact ⟨_, rfl, rfl⟩
    · intro pending waits
      rw [← Option.some.inj waits]
      exact ⟨_, rfl, rfl⟩
  have kept := progress_kept along rfl
  refine ⟨_, rfl, (kept.1 "j" _ (List.mem_cons_of_mem _ (List.mem_cons_of_mem _ List.mem_cons_self)) rfl).1,
    kept.2.1 "j" _ _ (List.mem_cons_of_mem _ (List.mem_cons_of_mem _ (List.mem_cons_of_mem _ List.mem_cons_self)))
      ⟨rfl, rfl⟩⟩

end ProxyPilot.Setup
