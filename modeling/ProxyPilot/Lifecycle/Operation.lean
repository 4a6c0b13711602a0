import ProxyPilot.Lifecycle.Plan
import ProxyPilot.Effects.Trace

namespace ProxyPilot.Lifecycle

open Data Effects

/-! # Lifecycle operations (`lifecycle-op.js`)

What the guests are and what others do to them is in the answers of the world: between
any two calls a guest may appear, vanish or become another one of its name.
-/

/-- What a call throws. -/
inductive Stop where
  | fenced
  | cancelled
  | failed (message : String)

def Stop.message : Stop → String
  | .fenced => "FENCED"
  | .cancelled => "CANCELLED"
  | .failed message => message

structure Result where
  code : Int
  stdout : String
  stderr : String

structure Checkpoint where
  resumable : Bool
  disruptive : Bool
  replay : Option Replay
  issued : Bool
  target : Option Identity
  container : String
  wasRunning : Option Bool

/-- The checkpoint an earlier attempt of the job left. -/
structure Prior where
  lifecycle : Bool
  issued : Bool
  target : Option Identity

inductive Event where
  | fenced (safe : Bool) (result : Except Stop Unit)
  | checkpointed (phase : String) (data : Checkpoint) (result : Except Stop Nat)
  | ran (argv : List String) (result : Except Stop Result)
  | readLimits
  | generated (name : String) (where_ : String) (createdAt : Option String) (result : Except Stop Unit)
  | noted (note : String) (result : Except Stop Unit)

/-- The answers to the n-th call of the attempt. -/
structure World where
  platform : Platform
  /-- The executor offers a host command channel. -/
  hostChannel : Bool
  fence : Nat → Except Stop Unit
  /-- The number of rows the checkpoint changed. -/
  checkpoint : Nat → Except Stop Nat
  host : Nat → List String → Except Stop Result
  /-- The retention limits in force, where they can be read. -/
  limits : Nat → Option (String → Option Nat)
  /-- `job.generated` and `job.event`. -/
  record : Nat → Except Stop Unit

abbrev Act := EStateM Stop (List Event)

structure Cleanup where
  removed : Bool
  detail : Option String

structure Failure where
  step : String
  error : String
  refused : Bool
  notFound : Bool
  notIssued : Bool
  issued : Bool
  instanceState : Option String
  identity : Option Identity
  cleanup : Option Cleanup

structure Success where
  step : String
  instanceState : String
  verified : Verdict
  identity : Option Identity
  alreadyInState : Bool
  resumedAfterIssue : Bool
  warnings : List String

abbrev Outcome := Except Failure Success

variable (w : World)

def fail (step error : String) : Failure where
  step := step
  error := w.platform.sanitizeReason 800 error
  refused := false
  notFound := false
  notIssued := false
  issued := false
  instanceState := none
  identity := none
  cleanup := none

/-- The last units of what was printed, as `slice(-n)` takes them. -/
def tailOf (r : Result) (n : Nat) : String :=
  let cs := trim (r.stdout ++ if r.stderr = "" then "" else "\n" ++ r.stderr).toList
  String.ofList (sliceUnits n cs.reverse).reverse

def tailOr (r : Result) (n : Nat) (other : String) : String := (text (some (tailOf r n))).getD other

def clip (n : Nat) (message : String) : String := String.ofList (sliceUnits n message.toList)

def fence (safe : Bool) : Act Unit := insist w.fence (.fenced safe)

def host (argv : List String) : Act Result := insist (w.host · argv) (.ran argv)

/-- A checkpoint that may fail. -/
def mark (phase : String) (data : Checkpoint) : Act Unit := do
  let _ ← observe w.checkpoint (.checkpointed phase data)
  pure ()

def notPersisted (phase why : String) : String :=
  s!"the '{phase}' checkpoint could not be persisted ({why}); refusing to issue a command whose record would not say so"

/-- A checkpoint without which nothing is issued: what went wrong, if it is not stored. -/
def markRequired (phase : String) (data : Checkpoint) : Act (Option String) := do
  match ← observe w.checkpoint (.checkpointed phase data) with
  | .error stop => pure (some (notPersisted phase stop.message))
  | .ok changes =>
    if 0 < changes then pure none
    else match ← observe w.fence (.fenced false) with
      | .ok () => pure (some (notPersisted phase "the checkpoint changed no row"))
      | .error (.failed message) => pure (some message)
      | .error stop => throw stop

def readInstance (r : Result) (name : String) : Except String (Option Instance) :=
  if r.code ≠ 0 then .error s!"incus list failed: {tailOf r 300}"
  else if r.stdout = "" then .ok none
  else match w.platform.parseList r.stdout with
    | none => .error "incus list returned something that is not a JSON list"
    | some guests => .ok (guests.find? fun guest => guest.name == name)

def list (name : String) : Act (Except String (Option Instance)) := do
  let r ← host w (instanceListArgv name)
  pure (readInstance w r name)

def checkSnapshots (seen : List String) : List Snapshot → Except String (List (Snapshot × Int))
  | [] => .ok []
  | snapshot :: rest => do
    require (snapshotName snapshot.name && !seen.contains snapshot.name)
      "the snapshot inventory contains an invalid or duplicate name"
    let time ← demand (snapshot.createdAt.bind w.platform.creationTime)
        "snapshot creation time is missing or invalid"
    let checked ← checkSnapshots (snapshot.name :: seen) rest
    pure ((snapshot, time) :: checked)

def snapshotRetentionPlan (guest : Option Instance) (keep : Nat) : Except String (List Snapshot) := do
  require (decide (1 ≤ keep ∧ keep ≤ 1000)) "snapshot retention must be an integer from 1 to 1000"
  let snapshots ← demand (guest.bind (·.snapshots)) "the instance snapshot inventory is unavailable"
  let checked ← checkSnapshots w [] snapshots
  let sorted := checked.mergeSort fun a b =>
      decide (a.2 < b.2) || (a.2 == b.2 && w.platform.namesOrdered a.1.name b.1.name)
  let excess := sorted.length - keep
  require (excess == 0 || (sorted[excess - 1]?.map (·.2)) != (sorted[excess]?.map (·.2)))
    "snapshot creation times tie at the retention boundary"
  pure ((sorted.take excess).map (·.1))

def hostCaught (argv : List String) : Act (Except String Result) := do
  match ← observe (w.host · argv) (.ran argv) with
  | .ok r => pure (.ok r)
  | .error stop => pure (.error stop.message)

def readRetentionInstance (name : String) : Act (Except String (Option Instance)) := do
  match ← hostCaught w (instanceListArgv name) with
  | .error message => pure (.error message)
  | .ok r =>
    if r.code ≠ 0 then pure (.error "could not read the instance snapshot inventory")
    else match w.platform.parseList r.stdout with
      | none => pure (.error "the instance inventory is not a list")
      | some guests => pure (.ok (guests.find? fun guest => guest.name == name))

def readLimits : Act (String → Option Nat) := do
  let limits ← observe w.limits fun _ => .readLimits
  pure (limits.getD fun _ => none)

inductive Round where
  | done
  | pruned
  | failed (error : String)

/-- The oldest snapshot is deleted and read back as gone. -/
def prune (name : String) (oldest : Snapshot) : Act Round := do
  match ← hostCaught w ["incus", "snapshot", "delete", name, oldest.name] with
  | .error message => pure (.failed message)
  | .ok r =>
    if r.code ≠ 0 then pure (.failed s!"could not prune snapshot {oldest.name}")
    else match ← readRetentionInstance w name with
      | .error message => pure (.failed message)
      | .ok after =>
        if after.any fun guest => guest.snapshots.isSome && (guest.snapshot? oldest.name).isNone then pure .pruned
        else pure (.failed s!"snapshot {oldest.name} was not verified absent")

def retentionRound (name created : String) : Act Round := do
  match ← readRetentionInstance w name with
  | .error message => pure (.failed message)
  | .ok guest =>
    if !guest.any fun guest => (guest.snapshot? created).isSome
      then pure (.failed "the newly created snapshot could not be verified")
    else match (← readLimits w) name with
      | none => pure .done
      | some keep =>
        match snapshotRetentionPlan w guest keep with
        | .error message => pure (.failed message)
        | .ok [] => pure .done
        | .ok (oldest :: _) =>
          if oldest.name = created
            then pure (.failed "the newly created snapshot is outside the newest retained set")
          else prune w name oldest

def retentionRounds (name created : String) : Nat → Act (Option String)
  | 0 => pure (some "snapshot inventory kept changing during retention")
  | rounds + 1 => do
    match ← retentionRound w name created with
    | .done => pure none
    | .failed error => pure (some error)
    | .pruned => retentionRounds name created rounds

/-- What kept the retention from being enforced. -/
def enforceSnapshotRetention (name created : String) : Act (Option String) := do
  match (← readLimits w) name with
  | none => pure none
  | some _ => retentionRounds w name created 1000

/-- The other form, where the client does not know the first one. -/
def createSnapshot (name snapshot : String) : Act Result := do
  let r ← host w (snapshotCreateArgv name snapshot .subcommand)
  if r.code ≠ 0 && w.platform.isSnapshotCliShapeError r.stderr then do
    let retry ← host w (snapshotCreateArgv name snapshot .legacy)
    pure (if retry.code ≠ 0 && w.platform.isSnapshotCliShapeError retry.stderr then r else retry)
  else pure r

/-- `createSnapshotWithFallback`, as the result of one command. -/
def createSnapshotWithFallback (name snapshot : String) : Act Result := do
  let r ← createSnapshot w name snapshot
  if r.code ≠ 0 then
    pure { code := 1, stdout := "", stderr := tailOr r 300 "unknown error" }
  else match ← enforceSnapshotRetention w name snapshot with
    | none => pure { code := 0, stdout := "", stderr := "" }
    | some error =>
      pure { code := 1, stdout := "", stderr := s!"snapshot {snapshot} was created but retention failed: {error}" }

variable (kind : Kind) (p : Params) (prior : Option Prior)

def snap : String := p.snapshot.getD ""

def what : String :=
  match (lifecycleProfile kind).target with
  | .snapshot => s!"snapshot {snap p} of {p.container}"
  | .guest => p.container

def resumed : Option Prior := prior.filter (·.lifecycle)

def issuedBefore : Bool := (resumed prior).any (·.issued)

def priorTarget : Option Identity := (resumed prior).bind (·.target)

def identityOf (guest : Option Instance) : Option Identity :=
  match (lifecycleProfile kind).target with
  | .snapshot => snapshotIdentity guest (snap p)
  | .guest => instanceIdentity guest

/-- What the read of the resource leads to. -/
inductive Bound where
  | refused (failure : Failure)
  /-- An earlier attempt of this job has removed it. -/
  | removed
  | bound

def bindTarget (guest : Option Instance) : Bound :=
  let profile := lifecycleProfile kind
  let identity := identityOf kind p guest
  if profile.target = .snapshot ∧ guest.isNone then
    .refused { fail w "query" s!"{p.container} does not exist; nothing was done"
      with notFound := true, instanceState := some "absent" }
  else if profile.creates then
    if identity.isSome && !issuedBefore prior then
      let status := match (lifecycleProfile kind).target, guest.bind (·.status) with
        | .guest, some status => s!" (status {status})"
        | _, _ => ""
      .refused
        { fail w "query" s!"{what kind p} already exists{status}; a create never replaces — nothing was done" with
        refused := true, instanceState :=
          if profile.target = .guest then guest.bind (·.status) else some "present" }
    else .bound
  else match identity with
    | none =>
      if profile.removes && issuedBefore prior then .removed
      else .refused { fail w "query" s!"{what kind p} does not exist; nothing was done"
        with notFound := true, instanceState := some "absent" }
    | some actual =>
      let state := guest.bind fun guest => text guest.status
      let confirmed := identityMatches w.platform.date p.expect (some actual)
      if !confirmed.ok then
        .refused
          { fail w "target"
          s!"{what kind p} is not the resource this request was confirmed for ({confirmed.why}); refusing — nothing was done. Look at it again and submit a new request" with
          refused := true, instanceState := state, identity := some actual }
      else
        let bound := identityMatches w.platform.date (priorTarget prior) (some actual)
        if !bound.ok then
          .refused
            { fail w "target"
            s!"{what kind p} changed since this job's interrupted attempt bound it ({bound.why}); refusing to continue — nothing further was issued" with
            refused := true, instanceState := state, identity := some actual }
        else .bound

def wasRunning (guest : Option Instance) : Bool := guest.any fun guest => sameWord (guest.status.getD "") "running"

def checkpointOf (issued : Bool) (target : Option Identity) : Checkpoint where
  resumable := true
  disruptive := false
  replay := none
  issued := issued
  target := target
  container := p.container
  wasRunning := none

def issueData (guest : Option Instance) : Checkpoint where
  resumable := (lifecycleProfile kind).replay = .idempotent
  disruptive := (lifecycleProfile kind).replay = .never
  replay := some (lifecycleProfile kind).replay
  issued := true
  target := identityOf kind p guest
  container := p.container
  wasRunning := some (wasRunning guest)

def succeeded (verdict : Verdict) (identity : Option Identity) : Success where
  step := lifecycleOutcomeStep kind
  instanceState := verdict.observed
  verified := verdict
  identity := identity
  alreadyInState := false
  resumedAfterIssue := false
  warnings := []

/-- The command of a plan; a plan that is not valid throws. -/
def command (kind : Kind) (p : Params) : Act Result :=
  match lifecycleArgv w.platform kind p with
  | .error reason => throw (.failed reason)
  | .ok argv => host w argv

def notStopped (guest after : Option Instance) (s : Result) : Failure :=
  let why := tailOr s 300 "timed out"
  let hint := if p.force = some true then "" else " — pass force to stop it hard, or stop it yourself first"
  { fail w "stop" s!"could not stop {p.container} cleanly ({why}); the guest was NOT deleted{hint}" with
    instanceState := after.bind (·.status), identity := identityOf kind p guest }

/-- A running guest is stopped before it is deleted: what keeps the delete from going on. -/
def stopFirst (guest : Option Instance) : Act (Option Failure) :=
  if kind = .instanceDelete ∧ wasRunning guest then do
    let s ← command w .instanceStop (stopPlan p)
    if s.code ≠ 0 then do
      let after := (← list w p.container).toOption.join
      pure (if wasRunning after then some (notStopped w kind p guest after s) else none)
    else pure none
  else pure none

def issueCommand : Act Result :=
  if kind = .snapshotCreate then createSnapshotWithFallback w p.container (snap p) else command w kind p

/-- The half-created guest of a failed launch is removed. -/
def cleanupLaunch (issue : Result) (after : Option Instance) : Act (Option Cleanup) :=
  if kind = .instanceCreate ∧ after.isSome ∧ w.platform.alreadyInUse issue.stderr = false then do
    let d ← host w (cleanupArgv p.container)
    let gone := (← list w p.container).toOption.join
    let cleanup := { removed := gone.isNone, detail := if d.code = 0 then none else some (tailOf d 200) }
    insist w.record (.noted (if cleanup.removed then s!"half-created {p.container} removed"
      else s!"half-created {p.container} could NOT be removed: " ++ cleanup.detail.getD "null"))
    pure (some cleanup)
  else pure none

/-- `verifyNewGuestRelease`: why the new guest is refused. -/
def releaseRefused : Act (Option String) := do
  match ← observe (w.host · (guestReleaseArgv p.container)) (.ran (guestReleaseArgv p.container)) with
  | .error stop => pure (some s!"Could not read {p.container}:/etc/os-release ({clip 200 stop.message})")
  | .ok r =>
    let why := clip 200 (String.ofList (trim ((text (some r.stderr)).getD s!"exit {r.code}").toList))
    if r.code ≠ 0 then pure (some s!"Could not read {p.container}:/etc/os-release ({why})")
    else if w.platform.parseDebian13Release r.stdout then pure none
    else pure (some s!"{p.container}:/etc/os-release does not prove ID=debian and VERSION_ID=13")

/-- A new guest of another system is stopped. -/
def quarantine (verdict : Verdict) (reason : String) (identity : Option Identity) : Act Failure := do
  let argv := ["incus", "stop", p.container, "--force"]
  let stopped ← observe (w.host · argv) (.ran argv)
  let held := stopped.toOption.any fun r => r.code = 0
  let why := match stopped with
    | .ok r => if r.code = 0 then "stopped" else s!"could not be stopped ({tailOf r 200})"
    | .error stop => "could not be stopped (" ++ tailOf ⟨1, "", stop.message⟩ 200 ++ ")"
  pure { fail w "verify_os" s!"{reason}; new guest {why} and creation refused" with
    issued := true, instanceState := some (if held then "Stopped" else verdict.observed), identity := identity }

def verifyRelease (verdict : Verdict) (identity : Option Identity) : Act (Option Failure) :=
  if kind = .instanceCreate then do
    match ← releaseRefused w p with
    | none => pure none
    | some reason => some <$> quarantine w p verdict reason identity
  else pure none

def addNote : Act (List String) :=
  match kind, text p.note with
  | .snapshotCreate, some note => do
    let n ← host w (snapshotNoteArgv p.container (snap p) note)
    pure (if n.code ≠ 0 then [s!"the note could not be recorded on the snapshot ({tailOf n 200})"] else [])
  | _, _ => pure []

def recordGenerated (final : Option Identity) : Act Unit :=
  if (lifecycleProfile kind).creates then
    insist w.record (.generated (if (lifecycleProfile kind).target = .snapshot then snap p
      else p.container) p.container (final.bind (·.createdAt)))
  else pure ()

def finish (verdict : Verdict) (identity : Option Identity) (after : Option Instance) : Act Outcome := do
  let warnings ← addNote w kind p
  let final := identityOf kind p after
  let result := if (lifecycleProfile kind).removes then identity else final
  recordGenerated w kind p final
  mark w "verified" (checkpointOf p true result)
  pure (.ok { succeeded kind verdict result with warnings := warnings })

/-- The resource is read back. A command that failed claims nothing, whatever the read shows. -/
def verify (guest : Option Instance) (issue : Result) : Act Outcome := do
  let identity := identityOf kind p guest
  match ← list w p.container with
  | .error error =>
    pure (.error { fail w (if issue.code = 0 then "verify" else "issue")
      s!"{kind.word} exited {issue.code}; the guest could not be read back afterwards: {error}" with
      issued := true, identity := identity })
  | .ok after =>
    let verdict := stateVerdict kind after (snap p)
    if issue.code ≠ 0 then do
      let cleanup ← cleanupLaunch w kind p issue after
      let timedOut := if issue.code = 124 then " (timed out)" else ""
      let output := tailOr issue 300 "no output"
      pure (.error
        { fail w "issue"
        s!"incus {kind.word} exited {issue.code}{timedOut}: {output}; {what kind p} reads {verdict.observed} afterwards — not claiming {lifecycleOutcomeStep kind}" with
        issued := true, instanceState := some verdict.observed, identity := identity, cleanup := cleanup })
    else if !verdict.ok then
      pure (.error
        { fail w "verify"
        s!"incus {kind.word} exited {issue.code} but {what kind p} reads {verdict.observed}, not {verdict.expected}; not claiming success" with
        issued := true, instanceState := some verdict.observed, identity := identity })
    else match ← verifyRelease w kind p verdict identity with
      | some failure => pure (.error failure)
      | none => finish w kind p verdict identity after

def issueAndVerify (guest : Option Instance) : Act Outcome := do
  fence w false
  match ← stopFirst w kind p guest with
  | some failure => pure (.error failure)
  | none => do
    let issue ← issueCommand w kind p
    verify w kind p guest issue

def notIssued (guest : Option Instance) (message : String) : Failure :=
  { fail w "checkpoint" s!"{message}; nothing was issued" with
    notIssued := true, instanceState := guest.bind (·.status), identity := identityOf kind p guest }

def finishDone (guest : Option Instance) : Act Outcome := do
  let identity := identityOf kind p guest
  let verdict := stateVerdict kind guest (snap p)
  mark w "verified" (checkpointOf p (issuedBefore prior) identity)
  insist w.record (.noted (s!"{what kind p} is already {verdict.observed}" ++
    if issuedBefore prior then " after the interrupted attempt" else "; nothing to issue"))
  pure (.ok { succeeded kind verdict identity with
    alreadyInState := !issuedBefore prior, resumedAfterIssue := issuedBefore prior })

def proceed (guest : Option Instance) : Act Outcome := do
  match ← markRequired w "validated" { issueData kind p guest with
    resumable := true, disruptive := false, issued := issuedBefore prior } with
  | some message => pure (.error (notIssued w kind p guest message))
  | none =>
    if alreadyDone kind guest (snap p) (issuedBefore prior) then finishDone w kind p prior guest
    else match ← markRequired w "issuing" (issueData kind p guest) with
      | some message => pure (.error (notIssued w kind p guest message))
      | none => issueAndVerify w kind p guest

def finishRemoved (guest : Option Instance) : Act Outcome := do
  mark w "verified" (checkpointOf p true (priorTarget prior))
  pure (.ok { succeeded kind (stateVerdict kind guest (snap p)) (priorTarget prior)
    with instanceState := "absent", resumedAfterIssue := true })

def runLifecycleOperation : Act Outcome :=
  match validateLifecycleParams w.platform kind p with
  | .error reason => pure (.error { fail w "validate" reason with error := reason, refused := true })
  | .ok () =>
    if !w.hostChannel then pure (.error { fail w "executor" "" with error := "this executor offers no host command channel; a lifecycle operation needs the host runner" })
    else do
      fence w true
      match ← list w p.container with
      | .error error => pure (.error (fail w "query" error))
      | .ok guest =>
        match bindTarget w kind p prior guest with
        | .refused failure => pure (.error failure)
        | .removed => finishRemoved w kind p prior guest
        | .bound => proceed w kind p prior guest

end ProxyPilot.Lifecycle
