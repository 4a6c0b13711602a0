import ProxyPilot.Lifecycle.Operation

namespace ProxyPilot.Lifecycle

open Data Effects

section Statements

variable (w : World) (kind : Kind) (p : Params) (prior : Option Prior)

/-- Neither a read of the guest nor one of its release. -/
def Mutates (argv : List String) : Prop := argv ≠ instanceListArgv p.container ∧ argv ≠ guestReleaseArgv p.container

def Event.lists : Event → Prop
  | .ran argv _ => argv = instanceListArgv p.container
  | _ => False

/-- The last read of the guest. -/
def Reads (guest : Option Instance) (log : List Event) : Prop :=
  ∃ r, readInstance w r p.container = .ok guest ∧
    Since (fun event => ¬ event.lists p) (.ran (instanceListArgv p.container) (.ok r)) log

/-- The resource may be acted on: of the identity fields that the request or the earlier
attempt names, those that the read carries too are equal. -/
def Confirmed (guest : Option Instance) : Prop :=
  if (lifecycleProfile kind).creates then (identityOf kind p guest).isSome = true → issuedBefore prior = true
  else ∃ actual, identityOf kind p guest = some actual ∧
    (∀ expected, p.expect = some expected → Agrees w.platform.date expected actual) ∧
    ∀ target, priorTarget prior = some target → Agrees w.platform.date target actual

/-- The `issuing` checkpoint is stored, with what was read before it. -/
def Issued (log : List Event) : Prop :=
  ∃ earlier data changes later guest, log = earlier ++ .checkpointed "issuing" data (.ok changes) ::
    later ∧ 0 < changes ∧
    data.issued = true ∧ data.target = identityOf kind p guest ∧ Reads w p guest earlier ∧
      Confirmed w kind p prior guest

def Untouched (log : List Event) : Prop := ∀ argv result, .ran argv result ∈ log → ¬ Mutates p argv

def IsCommand (argv : List String) : Prop :=
  argv = renderArgv kind p ∨ (kind = .snapshotCreate ∧ argv = snapshotCreateArgv p.container (snap p) .legacy)

/-- The command of the kind exited with 0. -/
def Commanded (log : List Event) : Prop := ∃ argv r, IsCommand kind p argv ∧ r.code = 0 ∧ .ran argv (.ok r) ∈ log

/-- The last read was made after the command had exited with 0. -/
def CommandedThenRead (guest : Option Instance) (log : List Event) : Prop :=
  ∃ earlier later, log = earlier ++ later ∧ Commanded kind p earlier ∧ Reads w p guest later

/-- The last read shows what the kind promises, and it is this job's doing or no one's. -/
def Achieved (log : List Event) : Prop :=
  ∃ guest, (stateVerdict kind guest (snap p)).ok = true ∧
    (CommandedThenRead w kind p guest log ∨
      (Reads w p guest log ∧ Untouched p log ∧
        (kind = .instanceStart ∨ kind = .instanceStop ∨
          (issuedBefore prior = true ∧
            ((lifecycleProfile kind).removes || (lifecycleProfile kind).creates) = true))))

/-- A command that changes something is issued under a stored checkpoint only. -/
def Licensed (before : List Event) (event : Event) : Prop :=
  ∀ argv result, event = .ran argv result → Mutates p argv → Issued w kind p prior before

def Truthful (outcome : Outcome) (log : List Event) : Prop :=
  ∀ success, outcome = .ok success → Achieved w kind p prior log

end Statements

variable {w : World} {kind : Kind} {p : Params} {prior : Option Prior} {log : List Event}
  {event : Event} {guest : Option Instance}

theorem Reads.snoc (reads : Reads w p guest log) (quiet : ¬ event.lists p) : Reads w p guest (log ++ [event]) := by
  obtain ⟨r, read, since⟩ := reads
  exact ⟨r, read, since.snoc quiet⟩

variable {r : Result} {identity : Option Identity} {verdict : Verdict}

theorem Reads.now (read : readInstance w r p.container = .ok guest) :
    Reads w p guest (log ++ [.ran (instanceListArgv p.container) (.ok r)]) := ⟨r, read, .now⟩

theorem Issued.snoc (issued : Issued w kind p prior log) : Issued w kind p prior (log ++ [event]) := by
  obtain ⟨earlier, data, changes, later, guest, rfl, stored⟩ := issued
  exact ⟨earlier, data, changes, later ++ [event], guest, by rw [List.append_assoc, List.cons_append], stored⟩

theorem Commanded.snoc (commanded : Commanded kind p log) : Commanded kind p (log ++ [event]) := by
  obtain ⟨argv, r, command, exited, member⟩ := commanded
  exact ⟨argv, r, command, exited, List.mem_append_left _ member⟩

theorem CommandedThenRead.snoc (commanded : CommandedThenRead w kind p guest log) (quiet : ¬ event.lists p) :
    CommandedThenRead w kind p guest (log ++ [event]) := by
  obtain ⟨earlier, later, rfl, command, reads⟩ := commanded
  exact ⟨earlier, later ++ [event], List.append_assoc .., command, reads.snoc quiet⟩

theorem Untouched.snoc (untouched : Untouched p log)
    (quiet : ∀ argv result, event = .ran argv result → ¬ Mutates p argv) :
    Untouched p (log ++ [event]) := by
  intro argv result member
  rcases List.mem_append.mp member with old | new
  · exact untouched argv result old
  · exact quiet argv result (List.mem_singleton.mp new).symm

theorem not_mutates_list {argv : List String} {result result' : Except Stop Result}
    (same : Event.ran (instanceListArgv p.container) result = .ran argv result') : ¬ Mutates p argv := by
  cases same
  exact fun mutates => mutates.1 rfl

/-- What holds from the checkpoint on, whatever is called. -/
structure Licence (w : World) (kind : Kind) (p : Params) (prior : Option Prior)
    (holds : List Event → Prop) : Prop where
  issued : ∀ log, holds log → Issued w kind p prior log
  snoc : ∀ log event, holds log → holds (log ++ [event])

theorem licence_issued : Licence w kind p prior (Issued w kind p prior) where
  issued _ issued := issued
  snoc _ _ issued := issued.snoc

theorem licence_commanded (exited : Prop) :
    Licence w kind p prior fun log => Issued w kind p prior log ∧ (exited → Commanded kind p log) where
  issued _ both := both.1
  snoc _ _ both := ⟨both.1.snoc, fun code => (both.2 code).snoc⟩

section Licences

variable {holds : List Event → Prop} (licence : Licence w kind p prior holds) {α : Type}
include licence

theorem Licence.observe {answer : Nat → α} {event : α → Event} :
    Lawful (Licensed w kind p prior) holds (Effects.observe answer event : Act α) fun _ => holds :=
  .observe (fun log _ now _ _ _ _ => licence.issued log now) fun log _ now _ => licence.snoc log _ now

theorem Licence.insist {answer : Nat → Except Stop α} {event : Except Stop α → Event} :
    Lawful (Licensed w kind p prior) holds (Effects.insist answer event) fun _ => holds :=
  .insist (fun log _ now _ _ _ _ => licence.issued log now) fun log _ now => licence.snoc log _ now

omit licence in
theorem Licence.pure {a : α} : Lawful (Licensed w kind p prior) holds (Pure.pure a : Act α) fun _ =>
    holds := .pure fun _ now => now

theorem Licence.list : Lawful (Licensed w kind p prior) holds (list w p.container) fun _ => holds :=
  .bind licence.insist fun _ => Licence.pure

theorem Licence.command {kind' : Kind} {p' : Params} :
    Lawful (Licensed w kind p prior) holds (command w kind' p') fun _ => holds := by
  unfold Lifecycle.command
  split
  · exact .throw
  · exact licence.insist

theorem Licence.stopFirst {guest : Option Instance} :
    Lawful (Licensed w kind p prior) holds (stopFirst w kind p guest) fun _ => holds := by
  unfold Lifecycle.stopFirst
  split
  · refine .bind licence.command fun s => ?_
    split
    · exact .bind licence.list fun _ => Licence.pure
    · exact Licence.pure
  · exact Licence.pure

theorem Licence.cleanupLaunch {issue : Result} {after : Option Instance} :
    Lawful (Licensed w kind p prior) holds (cleanupLaunch w kind p issue after) fun _ => holds := by
  unfold Lifecycle.cleanupLaunch
  split
  · exact .bind licence.insist fun d => .bind licence.list fun gone => .bind licence.insist fun _ => Licence.pure
  · exact Licence.pure

theorem Licence.quarantine {verdict : Verdict} {reason : String} {identity : Option Identity} :
    Lawful (Licensed w kind p prior) holds (quarantine w p verdict reason identity) fun _ => holds :=
  .bind licence.observe fun _ => Licence.pure

theorem Licence.hostCaught {argv : List String} :
    Lawful (Licensed w kind p prior) holds (hostCaught w argv) fun _ => holds := by
  refine .bind licence.observe fun result => ?_
  cases result <;> exact Licence.pure

theorem Licence.readRetentionInstance {name : String} :
    Lawful (Licensed w kind p prior) holds (readRetentionInstance w name) fun _ => holds := by
  refine .bind licence.hostCaught fun result => ?_
  cases result with
  | error message => exact Licence.pure
  | ok r =>
    dsimp only
    split
    · exact Licence.pure
    · split <;> exact Licence.pure

theorem Licence.readLimits : Lawful (Licensed w kind p prior) holds (readLimits w) fun _ => holds :=
  .bind licence.observe fun _ => Licence.pure

theorem Licence.prune {name : String} {oldest : Snapshot} :
    Lawful (Licensed w kind p prior) holds (prune w name oldest) fun _ => holds := by
  refine .bind licence.hostCaught fun result => ?_
  cases result with
  | error message => exact Licence.pure
  | ok r =>
    dsimp only
    split
    · exact Licence.pure
    · refine .bind licence.readRetentionInstance fun after => ?_
      cases after with
      | error message => exact Licence.pure
      | ok after =>
        dsimp only
        split <;> exact Licence.pure

variable {name created : String}

theorem Licence.retentionRound :
    Lawful (Licensed w kind p prior) holds (retentionRound w name created) fun _ => holds := by
  refine .bind licence.readRetentionInstance fun result => ?_
  cases result with
  | error message => exact Licence.pure
  | ok guest =>
    dsimp only
    split
    · exact Licence.pure
    · refine .bind licence.readLimits fun limits => ?_
      cases limits name with
      | none => exact Licence.pure
      | some keep =>
        dsimp only
        split
        · exact Licence.pure
        · exact Licence.pure
        · split
          · exact Licence.pure
          · exact licence.prune

theorem Licence.retentionRounds (rounds : Nat) :
    Lawful (Licensed w kind p prior) holds (retentionRounds w name created rounds) fun _ => holds := by
  induction rounds with
  | zero => exact Licence.pure
  | succ rounds ih =>
    refine .bind licence.retentionRound fun round => ?_
    cases round with
    | done => exact Licence.pure
    | failed error => exact Licence.pure
    | pruned => exact ih

theorem Licence.enforceSnapshotRetention :
    Lawful (Licensed w kind p prior) holds (enforceSnapshotRetention w name created) fun _ => holds := by
  refine .bind licence.readLimits fun limits => ?_
  cases limits name with
  | none => exact Licence.pure
  | some keep => exact licence.retentionRounds 1000

end Licences

/-- A command of the kind, and what its exit says. -/
theorem host_commanded {argv : List String} (command : IsCommand kind p argv) :
    Lawful (Licensed w kind p prior) (Issued w kind p prior) (host w argv)
      fun r log => Issued w kind p prior log ∧ (r.code = 0 → Commanded kind p log) :=
  .insist (fun _ _ issued _ _ _ _ => issued) fun _ r issued =>
    ⟨issued.snoc, fun exited => ⟨argv, r, command, exited, List.mem_append_right _ List.mem_cons_self⟩⟩

theorem command_commanded : Lawful (Licensed w kind p prior) (Issued w kind p prior) (command w kind p)
    fun r log => Issued w kind p prior log ∧ (r.code = 0 → Commanded kind p log) := by
  unfold command
  cases rendered : lifecycleArgv w.platform kind p with
  | error reason => exact .throw
  | ok argv =>
    refine host_commanded (.inl ?_)
    unfold lifecycleArgv at rendered
    split at rendered <;> cases rendered
    rfl

theorem createSnapshot_commanded (creates : kind = .snapshotCreate) :
    Lawful (Licensed w kind p prior) (Issued w kind p prior) (createSnapshot w p.container (snap p))
      fun r log => Issued w kind p prior log ∧ (r.code = 0 → Commanded kind p log) := by
  subst creates
  refine .bind (host_commanded (.inl rfl)) fun r => ?_
  split
  case isTrue failed =>
    have code : r.code ≠ 0 := by
      simp only [Bool.and_eq_true, decide_eq_true_eq] at failed
      exact failed.1
    refine (Lawful.bind (host_commanded (.inr ⟨rfl, rfl⟩)) fun retry => ?_).mono
      (fun _ both => both.1) fun _ _ both => both
    refine .pure fun log both => ⟨both.1, fun exited => ?_⟩
    split at exited
    · exact absurd exited code
    · exact both.2 exited
  case isFalse => exact .pure fun _ both => both

theorem createSnapshotWithFallback_commanded (creates : kind = .snapshotCreate) :
    Lawful (Licensed w kind p prior) (Issued w kind p prior) (createSnapshotWithFallback w p.container (snap p))
      fun r log => Issued w kind p prior log ∧ (r.code = 0 → Commanded kind p log) := by
  refine .bind (createSnapshot_commanded creates) fun r => ?_
  split
  · exact .pure fun _ both => ⟨both.1, fun exited => absurd exited (show (1 : Int) ≠ 0 by decide)⟩
  · refine .bind (licence_commanded (r.code = 0)).enforceSnapshotRetention fun retention => ?_
    cases retention with
    | none =>
      rename_i exited
      exact .pure fun _ both => ⟨both.1, fun _ => both.2 (Decidable.not_not.mp exited)⟩
    | some error => exact .pure fun _ both => ⟨both.1, fun exited => absurd exited (show (1 : Int) ≠ 0 by decide)⟩

theorem issueCommand_commanded : Lawful (Licensed w kind p prior) (Issued w kind p prior) (issueCommand w kind p)
    fun r log => Issued w kind p prior log ∧ (r.code = 0 → Commanded kind p log) := by
  unfold issueCommand
  split
  case isTrue creates => exact createSnapshotWithFallback_commanded creates
  case isFalse => exact command_commanded

/-- What the read-back establishes, and what no call but another read of the guest ends. -/
def Verified (w : World) (kind : Kind) (p : Params) (prior : Option Prior) (guest : Option Instance)
    (log : List Event) : Prop :=
  Issued w kind p prior log ∧ CommandedThenRead w kind p guest log

theorem observe_verified {α : Type} {answer : Nat → α} {event : α → Event}
    (quiet : ∀ result, ¬ (event result).lists p) :
    Lawful (Licensed w kind p prior) (Verified w kind p prior guest)
      (observe answer event : Act α) fun _ => Verified w kind p prior guest :=
  .observe (fun _ _ now _ _ _ _ => now.1) fun _ _ now _ => ⟨now.1.snoc, now.2.snoc (quiet _)⟩

theorem insist_verified {α : Type} {answer : Nat → Except Stop α} {event : Except Stop α → Event}
    (quiet : ∀ result, ¬ (event result).lists p) :
    Lawful (Licensed w kind p prior) (Verified w kind p prior guest) (insist answer event) fun _ =>
      Verified w kind p prior guest :=
  .insist (fun _ _ now _ _ _ _ => now.1) fun _ _ now => ⟨now.1.snoc, now.2.snoc (quiet _)⟩

theorem verifyRelease_verified :
    Lawful (Licensed w kind p prior) (Verified w kind p prior guest) (verifyRelease w kind p verdict identity)
      fun refused log => refused = none → Verified w kind p prior guest log := by
  unfold verifyRelease
  split
  · refine .through (fun _ => Verified w kind p prior guest) ?_ fun refused => ?_
    · refine .bind (observe_verified fun _ same => ?_) fun result => ?_
      · exact absurd same (by simp [instanceListArgv, guestReleaseArgv, Event.lists])
      · cases result with
        | error stop => exact Licence.pure
        | ok r =>
          dsimp only
          split
          · exact Licence.pure
          · split <;> exact Licence.pure
    · cases refused with
      | none => exact .pure fun _ now _ => now
      | some reason =>
        refine (licence_issued.quarantine.bind fun failure => .pure fun _ _ absent => ?_).mono
          (fun _ now => now.1) fun _ _ both => both
        cases absent
  · exact .pure fun _ now _ => now

theorem finish_truthful (promised : (stateVerdict kind guest (snap p)).ok = true) :
    Lawful (Licensed w kind p prior) (Verified w kind p prior guest)
      (finish w kind p verdict identity guest) (Truthful w kind p prior) := by
  refine .through (fun _ => Verified w kind p prior guest) ?_ fun warnings => ?_
  · unfold addNote
    split
    · refine .bind (insist_verified fun _ same => ?_) fun _ => Licence.pure
      exact absurd same (by simp [instanceListArgv, snapshotNoteArgv, Event.lists])
    · exact Licence.pure
  · refine .through (fun _ => Verified w kind p prior guest) ?_ fun _ => ?_
    · unfold recordGenerated
      split
      · exact insist_verified fun _ same => same
      · exact Licence.pure
    · refine .bind (.bind (observe_verified fun _ same => same) fun _ => Licence.pure) fun _ => ?_
      exact .pure fun _ now _ _ => ⟨guest, promised, .inl now.2⟩

/-- The read-back, with what was done before it. -/
theorem list_verified {exited : Prop} :
    Lawful (Licensed w kind p prior) (fun log => Issued w kind p prior log ∧
      (exited → Commanded kind p log)) (list w p.container)
      fun read log => Issued w kind p prior log ∧ ∀ after, read = .ok after → exited →
        CommandedThenRead w kind p after log := by
  refine .through (fun r log => Issued w kind p prior log ∧
    ∃ earlier, log = earlier ++ [.ran (instanceListArgv p.container) (.ok r)] ∧
      (exited → Commanded kind p earlier)) ?_ fun r => .pure fun log both => ⟨both.1, ?_⟩
  · exact .insist (fun _ _ both _ _ _ _ => both.1) fun log _ both => ⟨both.1.snoc, log, rfl, both.2⟩
  · intro after read zero
    obtain ⟨earlier, rfl, commanded⟩ := both.2
    exact ⟨earlier, _, rfl, commanded zero, (Reads.now read : Reads w p after ([] ++ _))⟩

theorem truthful_error {failure : Failure} : Truthful w kind p prior (.error failure) log :=
  fun _ same => by cases same

theorem verify_truthful {issue : Result} {before : Option Instance} :
    Lawful (Licensed w kind p prior) (fun log => Issued w kind p prior log ∧
      (issue.code = 0 → Commanded kind p log))
      (verify w kind p before issue) (Truthful w kind p prior) := by
  refine .bind list_verified fun read => ?_
  cases read with
  | error error => exact .pure fun _ _ => truthful_error
  | ok after =>
    dsimp only
    split
    case isTrue =>
      exact (licence_issued.cleanupLaunch.bind fun _ => .pure fun _ _ => truthful_error).mono
        (fun _ both => both.1) fun _ _ both => both
    case isFalse exited =>
      have zero : issue.code = 0 := Decidable.not_not.mp exited
      split
      case isTrue => exact .pure fun _ _ => truthful_error
      case isFalse promised =>
        have now : (stateVerdict kind after (snap p)).ok = true := by simpa using promised
        have verified : Lawful (Licensed w kind p prior) (Verified w kind p prior after)
            (verifyRelease w kind p (stateVerdict kind after (snap p)) (identityOf kind p before)) _ :=
          verifyRelease_verified
        refine (verified.bind fun refused => ?_).mono
          (fun _ both => ⟨both.1, both.2 after rfl zero⟩) fun _ _ both => both
        cases refused with
        | some failure => exact .pure fun _ _ => truthful_error
        | none => exact (finish_truthful now).mono (fun _ both => both rfl) fun _ _ both => both

theorem issueAndVerify_truthful :
    Lawful (Licensed w kind p prior) (Issued w kind p prior) (issueAndVerify w kind p guest)
    (Truthful w kind p prior) := by
  refine licence_issued.insist.bind fun _ => licence_issued.stopFirst.bind fun stopped => ?_
  cases stopped with
  | some failure => exact .pure fun _ _ => truthful_error
  | none => exact issueCommand_commanded.bind fun issue => verify_truthful

/-- What holds of an attempt that has read the guest and issued nothing. -/
def Considering (w : World) (p : Params) (guest : Option Instance) (log : List Event) : Prop :=
  Reads w p guest log ∧ Untouched p log

theorem Considering.snoc (considering : Considering w p guest log)
    (quiet : ∀ argv result, event ≠ .ran argv result) :
    Considering w p guest (log ++ [event]) := by
  refine ⟨considering.1.snoc fun lists => ?_, considering.2.snoc fun argv result same =>
    absurd same (quiet argv result)⟩
  cases event with
  | ran argv result => exact absurd rfl (quiet argv result)
  | _ => exact lists

theorem observe_considering {α : Type} {answer : Nat → α} {event : α → Event}
    (quiet : ∀ result argv ran, event result ≠ .ran argv ran) :
    Lawful (Licensed w kind p prior) (Considering w p guest) (observe answer event : Act α) fun _ =>
      Considering w p guest :=
  .observe (fun _ result _ argv ran same => absurd same (quiet result argv ran))
    fun _ result now _ => now.snoc (quiet result)

/-- A required checkpoint: nothing is issued by it, and it is stored when nothing is reported. -/
theorem markRequired_considering {phase : String} {data : Checkpoint} :
    Lawful (Licensed w kind p prior) (Considering w p guest) (markRequired w phase data)
      fun message log => Considering w p guest log ∧
      (message = none → ∃ earlier changes, log = earlier ++
        [.checkpointed phase data (.ok changes)] ∧ 0 < changes ∧ Considering w p guest earlier) := by
  refine .through (fun result log => Considering w p guest log ∧
    ∃ earlier, log = earlier ++ [.checkpointed phase data result] ∧
      Considering w p guest earlier) ?_ fun result => ?_
  · exact .observe (fun _ _ _ _ _ same => by cases same) fun log _ now _ =>
      ⟨now.snoc fun _ _ same => by (cases same), log, rfl, now⟩
  · cases result with
    | error stop => exact .pure fun _ both => ⟨both.1, fun same => by cases same⟩
    | ok changes =>
      dsimp only
      split
      case isTrue changed =>
        exact .pure fun log ⟨now, earlier, same, before⟩ =>
          ⟨now, fun _ => ⟨earlier, changes, same, changed, before⟩⟩
      case isFalse =>
        refine (Lawful.bind (observe_considering fun _ _ _ same => by cases same) fun answer =>
          ?_).mono (fun _ both => both.1) fun _ _ both => both
        split
        · exact .pure fun _ now => ⟨now, fun same => by cases same⟩
        · exact .pure fun _ now => ⟨now, fun same => by cases same⟩
        · exact .throw

theorem markRequired_issued (confirmed : Confirmed w kind p prior guest) :
    Lawful (Licensed w kind p prior) (Considering w p guest) (markRequired w "issuing" (issueData kind p guest))
      fun message log => message = none → Issued w kind p prior log :=
  markRequired_considering.mono (fun _ now => now) fun _ _ both none => by
    obtain ⟨earlier, changes, rfl, changed, before⟩ := both.2 none
    exact ⟨earlier, issueData kind p guest, changes, [], guest, rfl, changed, rfl, rfl, before.1, confirmed⟩

theorem alreadyDone_states (done : alreadyDone kind guest (snap p) (issuedBefore prior) = true) :
    (stateVerdict kind guest (snap p)).ok = true ∧ (kind = .instanceStart ∨ kind = .instanceStop ∨
      (issuedBefore prior = true ∧
        ((lifecycleProfile kind).removes || (lifecycleProfile kind).creates) = true)) := by
  simp only [alreadyDone, Bool.and_eq_true, Bool.or_eq_true, beq_iff_eq] at done
  obtain ⟨promised, (start | stop) | ⟨acts, issued⟩⟩ := done
  · exact ⟨promised, .inl start⟩
  · exact ⟨promised, .inr (.inl stop)⟩
  · exact ⟨promised, .inr (.inr ⟨issued, by simpa using acts⟩)⟩

theorem achieved_of_considering (promised : (stateVerdict kind guest (snap p)).ok = true)
    (held : kind = .instanceStart ∨ kind = .instanceStop ∨
      (issuedBefore prior = true ∧ ((lifecycleProfile kind).removes || (lifecycleProfile kind).creates) = true))
    (now : Considering w p guest log) : Achieved w kind p prior log :=
  ⟨guest, promised, .inr ⟨now.1, now.2, held⟩⟩

theorem finishDone_truthful (done : alreadyDone kind guest (snap p) (issuedBefore prior) = true) :
    Lawful (Licensed w kind p prior) (Considering w p guest) (finishDone w kind p prior guest)
      (Truthful w kind p prior) := by
  obtain ⟨promised, held⟩ := alreadyDone_states done
  refine .bind (.bind (observe_considering fun _ _ _ same => by cases same) fun _ => Licence.pure) fun _ => ?_
  refine .through (fun _ => Considering w p guest) ?_ fun _ => .pure fun _ now _ _ =>
    achieved_of_considering promised held now
  exact .insist (fun _ _ _ _ _ same => by cases same) fun _ _ now => now.snoc fun _ _ same => by cases same

theorem proceed_truthful (confirmed : Confirmed w kind p prior guest) :
    Lawful (Licensed w kind p prior) (Considering w p guest) (proceed w kind p prior guest)
      (Truthful w kind p prior) := by
  refine .bind (markRequired_considering.mono (fun _ now => now) fun _ _ both => both.1) fun message => ?_
  cases message with
  | some message => exact .pure fun _ _ => truthful_error
  | none =>
    dsimp only
    split
    case isTrue done => exact finishDone_truthful done
    case isFalse =>
      refine (markRequired_issued confirmed).bind fun message => ?_
      cases message with
      | some message => exact .pure fun _ _ => truthful_error
      | none => exact issueAndVerify_truthful.mono (fun _ issued => issued rfl) fun _ _ both => both

theorem bindTarget_bound (bound : bindTarget w kind p prior guest = .bound) : Confirmed w kind p prior guest := by
  unfold bindTarget at bound
  dsimp only at bound
  unfold Confirmed
  split at bound
  · cases bound
  · split at bound
    case isTrue creates =>
      rw [if_pos creates]
      intro there
      split at bound
      · cases bound
      · rename_i replaced
        simpa [there] using replaced
    case isFalse creates =>
      rw [if_neg creates]
      split at bound
      · split at bound <;> cases bound
      · rename_i actual read
        split at bound
        · cases bound
        · rename_i expected
          split at bound
          · cases bound
          · rename_i target
            refine ⟨actual, read, identityMatches_ok (by simpa using expected),
              identityMatches_ok (by simpa using target)⟩

theorem stateVerdict_removed (removes : (lifecycleProfile kind).removes = true)
    (there : (lifecycleProfile kind).target = .snapshot → guest.isSome = true)
    (absent : identityOf kind p guest = none) : (stateVerdict kind guest (snap p)).ok = true := by
  cases kind with
  | instanceDelete =>
    cases guest with
    | none => rfl
    | some guest => cases absent
  | snapshotDelete =>
    cases guest with
    | none => exact absurd (there rfl) (by simp)
    | some guest =>
      have gone : guest.snapshot? (snap p) = none :=
        by simpa [identityOf, lifecycleProfile, snapshotIdentity] using absent
      simp [stateVerdict, lifecycleProfile, gone]
  | _ => cases removes

theorem bindTarget_removed (removed : bindTarget w kind p prior guest = .removed) :
    (stateVerdict kind guest (snap p)).ok = true ∧ issuedBefore prior = true ∧
      (lifecycleProfile kind).removes = true := by
  unfold bindTarget at removed
  dsimp only at removed
  split at removed
  case isTrue => cases removed
  case isFalse present =>
    split at removed
    · split at removed <;> cases removed
    · split at removed
      case h_1 absent =>
        split at removed
        case isTrue both =>
          have ⟨removes, issued⟩ : (lifecycleProfile kind).removes = true ∧
              issuedBefore prior = true := by simpa using both
          refine ⟨stateVerdict_removed removes (fun snapshot => ?_) absent, issued, removes⟩
          cases guest with
          | none => exact absurd ⟨snapshot, rfl⟩ present
          | some guest => rfl
        case isFalse => cases removed
      case h_2 =>
        split at removed
        · cases removed
        · split at removed <;> cases removed

theorem finishRemoved_truthful (removed : bindTarget w kind p prior guest = .removed) :
    Lawful (Licensed w kind p prior) (Considering w p guest) (finishRemoved w kind p prior guest)
      (Truthful w kind p prior) := by
  obtain ⟨promised, issued, removes⟩ := bindTarget_removed removed
  refine .bind (.bind (observe_considering fun _ _ _ same => by cases same) fun _ => Licence.pure) fun _ => ?_
  exact .pure fun _ now _ _ =>
    achieved_of_considering promised (.inr (.inr ⟨issued, by rw [removes, Bool.true_or]⟩)) now

/-- The read of the guest, before anything else is done to it. -/
theorem list_considering : Lawful (Licensed w kind p prior) (Untouched p) (list w p.container)
    fun read log => ∀ guest, read = .ok guest → Considering w p guest log := by
  refine .through (fun r log => ∀ guest, readInstance w r p.container = .ok guest → Considering w p guest log) ?_
    fun r => .pure fun _ holds => holds
  refine .insist (fun _ _ _ argv ran same mutates => absurd mutates (not_mutates_list same))
    fun log r untouched guest read => ?_
  exact ⟨Reads.now read, untouched.snoc fun _ _ same => not_mutates_list same⟩

theorem runLifecycleOperation_truthful :
    Lawful (Licensed w kind p prior) (· = []) (runLifecycleOperation w kind p prior) (Truthful w kind p prior) := by
  unfold runLifecycleOperation
  split
  · exact .pure fun _ _ => truthful_error
  · split
    · exact .pure fun _ _ => truthful_error
    · refine .through (fun _ => Untouched p) ?_ fun _ => list_considering.bind fun read => ?_
      · refine .insist (fun _ _ _ _ _ same => by cases same) fun log _ now argv result member => ?_
        rw [now, List.nil_append] at member
        cases List.mem_singleton.mp member
      · cases read with
        | error error => exact .pure fun _ _ => truthful_error
        | ok guest =>
          refine (?_ : Lawful (Licensed w kind p prior) (Considering w p guest) _ _).mono
            (fun _ holds => holds guest rfl) fun _ _ both => both
          dsimp only
          split
          case h_1 => exact .pure fun _ _ => truthful_error
          case h_2 removed => exact finishRemoved_truthful removed
          case h_3 bound => exact proceed_truthful (bindTarget_bound bound)

/-- Every command that changes something is issued under a checkpoint that says so and
names what was read, which was the confirmed resource; success is reported only of a state
that was read and brought about. -/
theorem acts_on_the_confirmed (w : World) (kind : Kind) (p : Params) (prior : Option Prior) :
    Leads (runLifecycleOperation w kind p prior) []
      (fun outcome log => Obeys (Licensed w kind p prior) log ∧ Truthful w kind p prior outcome log)
      fun _ log => Obeys (Licensed w kind p prior) log :=
  runLifecycleOperation_truthful.obeys rfl

/-- A guest whose listing carries no `volatile.uuid`. -/
def unnamedGuest : Instance where
  name := "web"
  status := some "Stopped"
  createdAt := none
  config := some none
  expandedConfig := none
  snapshots := none

def unnamedListing : String := "[\x7b\"name\":\"web\",\"status\":\"Stopped\",\"config\":\x7b\x7d\x7d]"

def unnamedWorld : World where
  platform := {
    date := fun _ => none
    setupRefused := fun _ _ => none
    looksSecret := fun _ => false
    sanitizeReason := fun _ message => message
    parseList := fun text => if text = unnamedListing then some [unnamedGuest] else none
    parseDebian13Release := fun _ => true
    isSnapshotCliShapeError := fun _ => false
    alreadyInUse := fun _ => false
    creationTime := fun _ => none
    namesOrdered := fun _ _ => true }
  hostChannel := true
  fence := fun _ => .ok ()
  checkpoint := fun _ => .ok 1
  host := fun _ _ => .ok { code := 0, stdout := unnamedListing, stderr := "" }
  limits := fun _ => none
  record := fun _ => .ok ()

def confirmedDelete : Params where
  container := "web"
  snapshot := none
  force := none
  managed := none
  fixup := none
  setup := none
  expect := some { uuid := some "0a1b2c3d", createdAt := none, status := some "Running" }
  note := none
  image := none
  profile := none
  network := none
  vm := none
  rootSize := none
  config := none
  command := false

def Event.argv : Event → Option (List String)
  | .ran argv _ => some argv
  | _ => none

theorem unnamed_reads (read : readInstance unnamedWorld r "web" = .ok guest) :
    ∀ actual, instanceIdentity guest = some actual →
    actual.uuid = none ∧ actual.status = some "Stopped" := by
  unfold readInstance at read
  split at read
  · cases read
  · split at read
    · cases read
      exact fun _ absent => by cases absent
    · by_cases same : r.stdout = unnamedListing
      · have listed : unnamedWorld.platform.parseList r.stdout = some [unnamedGuest] := if_pos same
        rw [listed] at read
        cases read
        intro actual same
        cases same
        exact ⟨rfl, rfl⟩
      · have unlisted : unnamedWorld.platform.parseList r.stdout = none := if_neg same
        rw [unlisted] at read
        cases read

/-- The delete is issued although the read carries no uuid to compare with the confirmed
one, and another status. -/
theorem delete_issued_unnamed :
    ∃ outcome log, runLifecycleOperation unnamedWorld .instanceDelete confirmedDelete none [] = .ok outcome log ∧
      (∃ result, .ran ["incus", "delete", "web"] result ∈ log) ∧
      (∃ expected, confirmedDelete.expect = some expected ∧ expected.uuid = some "0a1b2c3d" ∧
        expected.status = some "Running") ∧
      ∀ before guest, Reads unnamedWorld confirmedDelete guest before →
        ∀ actual, instanceIdentity guest = some actual →
        actual.uuid = none ∧ actual.status = some "Stopped" := by
  have ran : (match runLifecycleOperation unnamedWorld .instanceDelete confirmedDelete none [] with
      | .ok _ log => log.filterMap Event.argv
      | .error _ _ => []) =
      [["incus", "list", "web", "--format", "json"], ["incus", "delete", "web"],
        ["incus", "list", "web", "--format", "json"]] := by
    decide +kernel
  cases ended : runLifecycleOperation unnamedWorld .instanceDelete confirmedDelete none [] with
  | error stop log =>
    rw [ended] at ran
    cases ran
  | ok outcome log =>
    rw [ended] at ran
    have ran : log.filterMap Event.argv = _ := ran
    refine ⟨outcome, log, rfl, ?_, ⟨_, rfl, rfl, rfl⟩, fun _ _ ⟨_, read, _⟩ => unnamed_reads read⟩
    have issued : ["incus", "delete", "web"] ∈ log.filterMap Event.argv := by
      rw [ran]
      exact List.mem_cons_of_mem _ List.mem_cons_self
    obtain ⟨event, member, same⟩ := List.mem_filterMap.mp issued
    cases event with
    | ran argv result =>
      cases same
      exact ⟨result, member⟩
    | _ => cases same

end ProxyPilot.Lifecycle
