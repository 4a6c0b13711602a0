import ProxyPilot.Data.Text
import ProxyPilot.RestoreDb.Dumps
import ProxyPilot.Effects.Trace

namespace ProxyPilot.RestoreDb

open Data Effects

/-! # Restoring a project database (`restore-db-op.js`) -/

variable {Db : Type}

/-- What ends an attempt: a fence, a cancellation, a crash. -/
inductive Stop where
  | fenced
  | cancelled
  | interrupted
  | failed (message : String)

structure Guest (Db : Type) where
  files : String → Option Bytes
  database : Db
  active : Bool

structure DumpArtifact where
  path : String
  bytes : Nat
  sha256 : String

/-- `recovery.protected`. -/
structure Protected where
  dbDump : DumpArtifact
  envCopy : String
  reused : Bool

/-- An artifact that an earlier attempt recorded. -/
structure Reuse where
  kind : String
  name : String
  where_ : Option String
  sha256 : Option String
  bytes : Option Nat

/-- The guest, what the store has of the chain of attempts, and what has happened. -/
structure State (Db : Type) where
  guest : Guest Db
  /-- The calls of the attempt. -/
  calls : Nat
  /-- The dumps that attempts recorded, with what was in them. -/
  generated : List (Reuse × Bytes)
  /-- What each attempt that reached its boundary had protected, and the guest there. -/
  passed : List (Protected × Guest Db)
  /-- The databases from before the first restore. -/
  earlier : List Db
  restored : Bool
  swapped : Bool

/-- How a script in the guest ends. -/
inductive Fate where
  | ran
  /-- Nothing was done or printed. -/
  | lost
  /-- All was done and nothing printed. -/
  | silent
  | thrown (stop : Stop)
  /-- All was done before the attempt ended. -/
  | cut (stop : Stop)

structure Platform (Db : Type) where
  sha256 : Bytes → String
  digits : ∀ content, sha256 content ≠ ""
  /-- `pg_dump` of the database. -/
  pgDump : Db → Bytes
  decrypt : Decrypt
  sanitizeReason : Nat → String → String

/-- What the n-th call of an attempt meets. -/
structure World (Db : Type) where
  platform : Platform Db
  fence : Nat → Except Stop Unit
  fate : Nat → Fate
  /-- What the application has made of the database by then. -/
  written : Nat → Db → Db
  /-- `pg_dump` exits with 0 and has written a dump. -/
  captures : Nat → Bool
  server : Nat → Bytes
  /-- What `psql` makes of the database, and its exit code. -/
  psql : Nat → Db → Db × Nat
  errors : Nat → Nat
  starts : Nat → Bool
  probe : Nat → String
  /-- `job.event`. -/
  event : Nat → Except Stop Unit
  /-- `job.generated`: whether a row was changed, and what ends the attempt there. -/
  record : Nat → Bool × Option Stop

abbrev Act (Db : Type) := EStateM Stop (State Db)

structure Plan where
  container : String
  dumpsDir : String
  dumpName : String
  envCopyName : Option String
  environmentFile : String
  unit : String
  webPort : Nat
  guard : Option Guard
  guardKey : Option Bytes
  foundation : Bool

structure ProtectedCopies where
  dumpPath : Option String
  dumpSha256 : Option String
  envCopyPath : Option String

structure OriginJob where
  id : String
  app : String
  /-- `protectedCopiesOf`. -/
  copies : Option ProtectedCopies

def bounded (most : Nat) (chars : List Char) : Bool := decide (1 ≤ chars.length) && decide (chars.length ≤ most)

def dumpNameOk (name : String) : Bool :=
  let rest := name.toList.drop 4
  let body := rest.take (rest.length - 4)
  "app-".toList.isPrefixOf name.toList && ".sql".toList.isSuffixOf rest && bounded 80 body && body.all nameChar

def envCopyNameOk (name : String) : Bool :=
  "environment.pre-".toList.isPrefixOf name.toList && bounded 80 (name.toList.drop 16) &&
    (name.toList.drop 16).all labelChar

def jobIdOk (id : String) : Bool := bounded 64 id.toList && id.toList.all labelChar

def absolute (path : String) : Bool :=
  match path.toList with
  | '/' :: rest => rest != [] && rest.all fun c => nameChar c || c == '/'
  | _ => false

def isIdentifier (name : Bytes) : Bool :=
  match name with
  | b :: rest => nameStart b && rest.all nameByte && decide (rest.length ≤ 62)
  | [] => false

def isKeyName (name : Bytes) : Bool :=
  match name with
  | b :: rest => nameStart b && rest.all nameByte
  | [] => false

/-- The last part of a path. -/
def base (path : Option String) : String :=
  String.ofList ((path.getD "").toList.reverse.takeWhile (· ≠ '/')).reverse

inductive Mode where
  | currentConfiguration
  | recoverySet
deriving DecidableEq

structure Binding where
  mode : Mode
  origin : Option String
  expectedSha256 : Option String

def bindRecoverySet (app dumpName : String) (envCopyName : Option String)
    (originJob : Option OriginJob) : Except String Binding :=
  if !dumpNameOk dumpName
    then .error
    "dump name must match (a dump made by dump_project_db, a deploy's pre-deploy copy, or a restore's pre-restore copy)"
  else match envCopyName.filter (· ≠ "") with
    | none => .ok { mode := .currentConfiguration, origin := none, expectedSha256 := none }
    | some envCopy =>
      if !envCopyNameOk envCopy then .error "environment copy name must match"
      else match originJob with
        | none =>
          .error s!"no job of {app} recorded {dumpName} together with {envCopy}: they are not a recovery set of this app (a file name alone binds nothing)"
        | some job =>
          if job.app ≠ app then .error s!"job {job.id} belongs to {job.app}, not {app}"
          else match job.copies with
            | none =>
              .error s!"job {job.id} of {app} did not record {dumpName} and {envCopy} as one recovery set (it recorded no protected copies)"
            | some copies =>
              if base copies.dumpPath ≠ dumpName ∨ base copies.envCopyPath ≠ envCopy then
                .error s!"job {job.id} of {app} did not record {dumpName} and {envCopy} as one recovery set"
              else .ok {
                mode := .recoverySet, origin := some job.id,
                expectedSha256 := copies.dumpSha256.filter (· ≠ "") }

/-- The marker lines that the inspection prints. -/
inductive Marker where
  | dump (bytes : Nat) (sha256 : String)
  | noDump
  | head (text : Bytes)
  | server (text : Bytes)
  | unitActive (active : Bool)
  | copy (text : Bytes)
  | keyCurrent (text : Bytes)
  | envCopy (present : Bool)
  | keyCopy (text : Bytes)

structure Inspection where
  dump : Option (Nat × String)
  head : Bytes
  server : Option Bytes
  unitActive : Bool
  copyBlock : Option Bytes
  keyCurrent : Option Bytes
  envCopy : Option Bool
  keyCopy : Option Bytes

variable (w : World Db) (p : Plan)

def dumpPath : String := p.dumpsDir ++ "/" ++ p.dumpName

def envCopyPath : Option String := (p.envCopyName.filter (· ≠ "")).map ("/etc/" ++ ·)

/-- `base64`, or the word `none` for an empty text. -/
def encoded (text : Bytes) : Bytes := if text = [] then ascii "none" else Base64.encode text

def guardMarkers (files : String → Option Bytes) : List Marker :=
  match p.guard with
  | none => []
  | some guard =>
    (match files (dumpPath p) with
      | some file => [.copy (encoded (extractBlock guard.schema guard.table file))]
      | none => []) ++
    match p.guardKey with
    | none => []
    | some key =>
      .keyCurrent (encoded (((files p.environmentFile).bind (keyOf · key)).getD [])) ::
        match envCopyPath p with
        | none => []
        | some path =>
          match files path with
          | some copy => [.envCopy true, .keyCopy (encoded ((keyOf copy key).getD []))]
          | none => [.envCopy false]

def copyMarkers (files : String → Option Bytes) : List Marker :=
  match envCopyPath p with
  | none => []
  | some path => if p.guard.isSome && p.guardKey.isSome then [] else [.envCopy (files path).isSome]

/-- The inspection script, on the guest it runs in. -/
def inspectScript (n : Nat) (guest : Guest Db) : List Marker :=
  (match guest.files (dumpPath p) with
    | some file => [.dump file.length (w.platform.sha256 file), .head (Base64.encode (file.take 600))]
    | none => [.noDump]) ++
  [.server (w.server n), .unitActive guest.active] ++ guardMarkers p guest.files ++ copyMarkers p guest.files

/-- The script is not built from names that are not plain. -/
def scriptRefused : Bool :=
  !dumpNameOk p.dumpName || !absolute p.dumpsDir || !absolute p.environmentFile ||
    (p.guard.any fun guard => !isIdentifier guard.table || !isIdentifier guard.schema ||
      !isIdentifier guard.secretColumn || !isIdentifier guard.nonceColumn) ||
    p.guardKey.any fun key => !isKeyName key

def decoded (text : Bytes) : Option Bytes := if text = ascii "none" then none else some (Base64.decode text)

def parseInspect (markers : List Marker) : Inspection where
  dump := markers.findSome? fun | .dump bytes sha256 => some (bytes, sha256) | _ => none
  head := (markers.findSome? fun | .head text => some (Base64.decode text) | _ => none).getD []
  server := markers.findSome? fun | .server text => some text | _ => none
  unitActive := (markers.findSome? fun | .unitActive active => some active | _ => none).getD false
  copyBlock := (markers.findSome? fun | .copy text => some (decoded text) | _ => none).join
  keyCurrent := (markers.findSome? fun | .keyCurrent text => some (decoded text) | _ => none).join
  envCopy := markers.findSome? fun | .envCopy present => some present | _ => none
  keyCopy := (markers.findSome? fun | .keyCopy text => some (decoded text) | _ => none).join

/-- `/^--\s*\n-- PostgreSQL database dump\s*\n/`. -/
def plainHeader (head : Bytes) : Bool :=
  match following (ascii "--") head with
  | none => false
  | some rest =>
    (rest.takeWhile isSpace).getLast? == some newline &&
      match following (ascii "-- PostgreSQL database dump") (trimStart rest) with
      | some rest => (rest.takeWhile isSpace).contains newline
      | none => false

def versionByte (b : UInt8) : Bool := isDigit b || b == 46

/-- `/^-- Dumped from database version ([0-9.]+)/m`. -/
def dumpedFrom (head : Bytes) : Option Bytes :=
  (head.splitOn newline).findSome? fun line =>
    ((following (ascii "-- Dumped from database version ") line).map (·.takeWhile versionByte)).filter (· ≠ [])

def major (version : Bytes) : Option Nat :=
  match version.takeWhile isDigit with
  | [] => none
  | digits => some (digits.foldl (fun n b => 10 * n + (b.toNat - 48)) 0)

def dumpHeaderVerdict (head : Bytes) : Except String (Option Bytes) :=
  if (ascii "PGDMP").isPrefixOf head
    then .error
    "a pg_dump custom-format archive (PGDMP); only plain SQL dumps are supported (dump_project_db writes plain SQL)"
  else if !plainHeader head
    then .error "not a pg_dump plain-SQL dump (the \"-- PostgreSQL database dump\" header is missing)"
  else .ok (dumpedFrom head)

def serverCompatible (from_ server : Option Bytes) : Bool :=
  match from_.bind major, server.bind major with
  | some a, some b => a ≤ b
  | _, _ => true

def knownServer (server : Option Bytes) : Option Bytes :=
  server.filter fun text => text != [] && text != ascii "none" && text != ascii "nopsql" && text != ascii "unknown"

/-- Where an attempt refuses, and why. -/
structure Refusal where
  step : String
  error : String

def refuse (holds : Bool) (step error : String) : Except Refusal Unit :=
  if holds then .error { step := step, error := error } else .ok ()

/-- The dump can be read in full and its rows open under the key that will be in force. -/
def establish (guard : Guard) (binding : Binding) (ins : Inspection) : Except Refusal Compatibility :=
  match ins.copyBlock with
  | none => .error {
      step := "inspect",
      error := s!"{p.dumpName} carries no COPY block for the guard's table: only plain COPY-format dumps of this app are supported, so compatibility cannot be established" }
  | some block =>
    let rows := parseCopyRows block guard.secretColumn guard.nonceColumn
    if !rows.found then .error { step := "inspect", error := s!"{p.dumpName}: {rows.reason}" }
    else
      let key := if binding.mode = .recoverySet then ins.keyCopy else ins.keyCurrent
      let v := compatibilityVerdict w.platform.decrypt rows.rows key guard.legacyDefault.toList
      if !v.established then .error {
        step := "compatibility",
        error := s!"compatibility of {p.dumpName} is NOT established: {v.detail}. Restore it together with the environment copy of the same recovery set, or not at all" }
      else .ok v

def notApplicable : Compatibility :=
  { established := true, detail := "not applicable: the app has no protected credential rows",
    classification := none }

def checkInspection (binding : Binding) (ins : Inspection) : Except Refusal Compatibility := do
  match ins.dump with
  | none => .error { step := "inspect", error := s!"no such dump in {p.container}" }
  | some (_, sha256) =>
    refuse (binding.expectedSha256.any (· ≠ sha256)) "bind"
      s!"{p.dumpName} is not the file the job recorded (sha256 differs): the recovery set is broken"
    match dumpHeaderVerdict ins.head with
    | .error reason => .error { step := "inspect", error := s!"{p.dumpName}: {reason}" }
    | .ok from_ => do
      refuse (!serverCompatible from_ (knownServer ins.server)) "inspect" "a dump does not restore into an older major"
      refuse (ins.server == some (ascii "nopsql")) "inspect" "the database client is not available"
      refuse ((envCopyPath p).isSome && ins.envCopy != some true) "bind" "the environment copy is missing"
      match p.guard with
      | none => pure notApplicable
      | some guard => establish w p guard binding ins

def fence : Act Db Unit := fun s =>
  match w.fence s.calls with
  | .ok () => .ok () s
  | .error stop => .error stop s

/-- The application writes while it runs. -/
def State.write (s : State Db) (written : Db → Db) : State Db :=
  if s.guest.active then
    let database := written s.guest.database
    { s with guest := { s.guest with database := database }, earlier := if s.restored then s.earlier
      else database :: s.earlier }
  else s

/-- A script that prints `nothing` where it is lost. -/
def script (effect : Nat → State Db → α × State Db) (nothing : α) : Act Db α := fun s =>
  let now := s.write (w.written s.calls)
  let counted := { now with calls := s.calls + 1 }
  match w.fate s.calls with
  | .ran => .ok (effect s.calls counted).1 (effect s.calls counted).2
  | .lost => .ok nothing counted
  | .silent => .ok nothing (effect s.calls counted).2
  | .thrown stop => .error stop counted
  | .cut stop => .error stop (effect s.calls counted).2

def guest (effect : Nat → State Db → α × State Db) (nothing : α) : Act Db α := do
  fence w
  script w effect nothing

def State.put (s : State Db) (path : String) (content : Bytes) : State Db :=
  { s with guest := { s.guest with files := fun other => if other = path then some content else s.guest.files other } }

def event : Act Db Unit := fun s =>
  match w.event s.calls with
  | .ok () => .ok () { s with calls := s.calls + 1 }
  | .error stop => .error stop { s with calls := s.calls + 1 }

/-- A dump of the chain goes on the record of its job. -/
def recordDump (dump : DumpArtifact) (content : Bytes) : Act Db Unit := fun s =>
  let counted := { s with calls := s.calls + 1 }
  let entry : Reuse := {
    kind := "dump", name := dump.path, where_ := some p.container, sha256 := some dump.sha256,
    bytes := some dump.bytes }
  let after := if (w.record s.calls).1
      then { counted with generated := s.generated ++ [(entry, content)] } else counted
  match (w.record s.calls).2 with
  | none => .ok () after
  | some stop => .error stop after

variable (jobId : String)

def preDumpPath : String := p.dumpsDir ++ "/app-pre-restore-" ++ jobId ++ ".sql"

def preEnvPath : String := p.environmentFile ++ ".pre-restore-" ++ jobId

/-- The dump is under its name only when it is whole. -/
def protectDump (n : Nat) (s : State Db) : Option DumpArtifact × State Db :=
  if w.captures n then
    let content := w.platform.pgDump s.guest.database
    let path := preDumpPath p jobId
    (some { path := path, bytes := content.length, sha256 := w.platform.sha256 content }, s.put path content)
  else (none, s)

def protectEnvironment (_ : Nat) (s : State Db) : Option String × State Db :=
  match s.guest.files p.environmentFile with
  | some content => (some (preEnvPath p jobId), s.put (preEnvPath p jobId) content)
  | none => (none, s)

/-- `artifactMatches` on what `verifyArtifactScript` prints. -/
def verifyArtifact (recorded : Reuse) (_ : Nat) (s : State Db) : Option DumpArtifact × State Db :=
  let found := do
    let content ← s.guest.files recorded.name
    let sha256 := w.platform.sha256 content
    if (recorded.sha256.all (· = sha256)) && recorded.bytes.all (· = content.length) then
      some { path := recorded.name, bytes := content.length, sha256 := sha256 }
    else none
  (found, s)

def stopUnit (_ : Nat) (s : State Db) : Bool × State Db :=
  (true, { s with guest := { s.guest with active := false } })

/-- The exit code that `psql` or the copy before it leaves. -/
def restoreScript (n : Nat) (s : State Db) : Option (Nat × Nat) × State Db :=
  match s.guest.files (dumpPath p) with
  | none => (some (98, 0), s)
  | some _ =>
    let (database, rc) := w.psql n s.guest.database
    (some (rc, w.errors n), { s with guest := { s.guest with database := database }, restored := true })

def swapEnv (path : String) (_ : Nat) (s : State Db) : Bool × State Db :=
  match s.guest.files path with
  | none => (false, s)
  | some content => (true, { s.put p.environmentFile content with swapped := true })

def startUnit (n : Nat) (s : State Db) : Bool × State Db :=
  (w.starts n, { s with guest := { s.guest with active := w.starts n } })

def probe (n : Nat) (s : State Db) : String × State Db := (w.probe n, s)

structure Failure where
  step : String
  error : String
  protected_ : Option Protected
  restartAttempted : Option Bool
  unitStarted : Option Bool

structure Success where
  protected_ : Protected
  envCopy : Option String
  mode : Mode
  origin : Option String
  compatibility : Compatibility
  errors : Nat
  unitActive : String
  port : String
  health : String
  wasActive : Bool

def fail (step error : String) : Failure where
  step := step
  error := w.platform.sanitizeReason 800 error
  protected_ := none
  restartAttempted := none
  unitStarted := none

variable (reuse : List Reuse)

/-- The first dump that an earlier attempt recorded for this guest. -/
def priorDump : Option Reuse := reuse.find? fun g =>
    g.kind == "dump" && g.where_ == some p.container && (g.sha256.filter (· ≠ "")).isSome

/-- The dump of an earlier attempt, where it is still what was recorded. -/
def reuseDump : Act Db (Option DumpArtifact) :=
  match priorDump p reuse with
  | none => pure none
  | some recorded =>
    if !absolute recorded.name then throw (.failed "paths must be absolute")
    else do
      let check ← guest w (verifyArtifact w recorded) none
      event w
      pure check

/-- Both copies are taken: a dump that is reused comes without its environment copy, and
stays the one that counts. -/
def protectCopies (reused : Option DumpArtifact) : Act Db (Option DumpArtifact × Option String) :=
  if !jobIdOk jobId then throw (.failed "job id must be a plain identifier")
  else do
    let dump ← guest w (protectDump w p jobId) none
    let env ← script w (protectEnvironment p jobId) none
    match reused, dump with
    | some dump, _ => pure (some dump, env)
    | none, some dump => do
      let content := fun s : State Db => (s.guest.files dump.path).getD []
      let s ← get
      recordDump w p dump (content s)
      pure (some dump, env)
    | none, none => pure (none, env)

def pass (prot : Protected) : Act Db Unit := modify fun s => { s with passed := s.passed ++ [(prot, s.guest)] }

def bringUp (prot : Protected) (failed : Option (String × String))
    (success : String → String → String → Success) : Act Db (Except Failure Success) := do
  let started ← guest w (startUnit w) false
  match failed with
  | some (step, error) => pure (.error { fail w step error with
      protected_ := some prot, restartAttempted := some true, unitStarted := some started })
  | none =>
    if !started then
      pure (.error
        { fail w "start"
        s!"{p.unit} did not start after the restore; pre-restore dump {prot.dbDump.path}, environment copy {prot.envCopy}" with
        protected_ := some prot, restartAttempted := some true, unitStarted := some false })
    else do
      let port ← guest w (probe w) ""
      let health ← guest w (probe w) ""
      let unitActive ← guest w (probe w) ""
      pure (.ok (success unitActive port health))

def swapEnvironment (binding : Binding) : Act Db (Option Bool) :=
  match binding.mode, envCopyPath p with
  | .recoverySet, some path => some <$> guest w (swapEnv p path) false
  | _, _ => pure none

def restore (binding : Binding) (compatibility : Compatibility) (wasActive : Bool)
    (prot : Protected) : Act Db (Except Failure Success) := do
  pass prot
  let stopped ← guest w stopUnit false
  if !stopped then pure (.error { fail w "stop" s!"could not stop {p.unit}" with protected_ := some prot, restartAttempted := some false })
  else do
    let success := fun (envCopy : Option String) (errors : Nat) (unitActive port health : String) => ({
      protected_ := prot
      envCopy := envCopy
      mode := binding.mode
      origin := binding.origin
      compatibility := compatibility
      errors := errors
      unitActive := unitActive
      port := port
      health := health
      wasActive := wasActive } : Success)
    match ← guest w (restoreScript w p) none with
    | none =>
      bringUp w p prot
        (some ("restore",
        "the dump could not be handed to psql; the database is whatever psql left")) (success none 0)
    | some (rc, errors) =>
      if rc = 98 then bringUp w p prot (some ("restore", "the dump could not be handed to psql; the database is whatever psql left")) (success none errors)
      else match ← swapEnvironment w p binding with
        | some false =>
          bringUp w p prot
            (some ("env",
            "the database was restored but the environment copy could not be put in force")) (success none errors)
        | some true => bringUp w p prot none (success (envCopyPath p) errors)
        | none => bringUp w p prot none (success none errors)

def protectAndRestore (binding : Binding) (compatibility : Compatibility) (wasActive : Bool) :
    Act Db (Except Failure Success) := do
  event w
  let reused ← reuseDump w p reuse
  match ← protectCopies w p jobId reused with
  | (none, _) => pure (.error (fail w "protect" "refusing to restore without a pre-restore dump"))
  | (some _, none) => pure (.error (fail w "protect" s!"refusing to restore without a copy of {p.environmentFile}"))
  | (some dump, some env) => restore w p binding compatibility wasActive {
      dbDump := dump, envCopy := env, reused := reused.isSome }

def runRestoreDbOperation (originJob : Option OriginJob) : Act Db (Except Failure Success) :=
  match bindRecoverySet p.container p.dumpName p.envCopyName originJob with
  | .error reason => pure (.error (fail w "bind" reason))
  | .ok binding =>
    if scriptRefused p then throw (.failed "names must be plain")
    else do
      let markers ← guest w (fun n s => (inspectScript w p n s.guest, s)) []
      match checkInspection w p binding (parseInspect markers) with
      | .error refusal => pure (.error (fail w refusal.step refusal.error))
      | .ok compatibility =>
        protectAndRestore w p jobId reuse binding compatibility (parseInspect markers).unitActive

variable {w : World Db} {s : State Db}

section Rules

variable {α : Type} {effect : Nat → State Db → α × State Db} {nothing : α}
  {returns : α → State Db → Prop} {throws : Stop → State Db → Prop}

theorem leads_script
    (lost : ∀ counted, counted = { s.write (w.written s.calls) with calls := s.calls + 1 } →
    returns nothing counted ∧ ∀ stop, throws stop counted)
    (ran : ∀ counted, counted = { s.write (w.written s.calls) with calls := s.calls + 1 } →
      (w.fate s.calls = .ran → returns (effect s.calls counted).1 (effect s.calls counted).2) ∧
        (w.fate s.calls = .silent → returns nothing (effect s.calls counted).2) ∧
          ∀ stop, throws stop (effect s.calls counted).2) :
    Leads (script w effect nothing) s returns throws := by
  unfold Leads script
  cases fate : w.fate s.calls with
  | ran => exact (ran _ rfl).1 fate
  | lost => exact (lost _ rfl).1
  | silent => exact (ran _ rfl).2.1 fate
  | thrown stop => exact (lost _ rfl).2 stop
  | cut stop => exact (ran _ rfl).2.2 stop

/-- A call of the guest, up to what the script does. -/
theorem leads_guest (before : ∀ stop, throws stop s)
    (lost : ∀ counted, counted = { s.write (w.written s.calls) with calls := s.calls + 1 } →
    returns nothing counted ∧ ∀ stop, throws stop counted)
    (ran : ∀ counted, counted = { s.write (w.written s.calls) with calls := s.calls + 1 } →
      (w.fate s.calls = .ran → returns (effect s.calls counted).1 (effect s.calls counted).2) ∧
        (w.fate s.calls = .silent → returns nothing (effect s.calls counted).2) ∧
          ∀ stop, throws stop (effect s.calls counted).2) :
    Leads (RestoreDb.guest w effect nothing) s returns throws := by
  refine leads_bind.mpr ?_
  unfold Leads fence
  cases w.fence s.calls with
  | error stop => exact before stop
  | ok _ => exact leads_script lost ran

end Rules

@[simp] theorem State.write_files (s : State Db) (written : Db → Db) :
    (s.write written).guest.files = s.guest.files := by
  unfold State.write
  split <;> rfl

@[simp] theorem State.write_passed (s : State Db) (written : Db → Db) : (s.write written).passed = s.passed := by
  unfold State.write
  split <;> rfl

end ProxyPilot.RestoreDb
