import ProxyPilot.Data.Text
import ProxyPilot.Data.Checks

namespace ProxyPilot.Lifecycle

open Data

/-! # Lifecycle plans (`lifecycle-logic.js`)

A plan here has fields of the right type; a field of another type is refused at
validation.
-/

inductive Kind where
  | instanceCreate
  | instanceStart
  | instanceStop
  | instanceRestart
  | instanceDelete
  | snapshotCreate
  | snapshotDelete
deriving DecidableEq

/-- The source's word for the kind. -/
def Kind.word : Kind → String
  | .instanceCreate => "instance_create"
  | .instanceStart => "instance_start"
  | .instanceStop => "instance_stop"
  | .instanceRestart => "instance_restart"
  | .instanceDelete => "instance_delete"
  | .snapshotCreate => "snapshot_create"
  | .snapshotDelete => "snapshot_delete"

inductive Target where
  | guest
  | snapshot
deriving DecidableEq

inductive Replay where
  | idempotent
  | never
deriving DecidableEq

structure Profile where
  target : Target
  expect : String
  replay : Replay
  removes : Bool
  creates : Bool

def lifecycleProfile : Kind → Profile
  | .instanceStart => ⟨.guest, "Running", .idempotent, false, false⟩
  | .instanceStop => ⟨.guest, "Stopped", .idempotent, false, false⟩
  | .instanceRestart => ⟨.guest, "Running", .never, false, false⟩
  | .instanceDelete => ⟨.guest, "absent", .idempotent, true, false⟩
  | .instanceCreate => ⟨.guest, "Running", .never, false, true⟩
  | .snapshotCreate => ⟨.snapshot, "present", .idempotent, false, true⟩
  | .snapshotDelete => ⟨.snapshot, "absent", .idempotent, true, false⟩

structure Snapshot where
  name : String
  createdAt : Option String

structure Instance where
  name : String
  status : Option String
  createdAt : Option String
  /-- `volatile.uuid` of `config`, where the guest has a `config`. -/
  config : Option (Option String)
  expandedConfig : Option (Option String)
  snapshots : Option (List Snapshot)

structure Identity where
  uuid : Option String
  createdAt : Option String
  status : Option String

/-- `text || null`. -/
def text : Option String → Option String := Option.filter (· ≠ "")

def instanceIdentity (guest : Option Instance) : Option Identity :=
  guest.map fun guest => {
    uuid := text ((guest.config <|> guest.expandedConfig).getD none)
    createdAt := text guest.createdAt
    status := text guest.status }

def Instance.snapshot? (guest : Instance) (name : String) : Option Snapshot :=
  (guest.snapshots.getD []).find? fun s => s.name == name

def snapshotIdentity (guest : Option Instance) (name : String) : Option Identity :=
  (guest.bind (·.snapshot? name)).map fun s => { uuid := none, createdAt := text s.createdAt, status := none }

structure Verdict where
  ok : Bool
  observed : String
  expected : String

def sameWord (word other : String) : Bool := word.toList.map Char.toLower == other.toList.map Char.toLower

def stateVerdict (kind : Kind) (guest : Option Instance) (snapshot : String) : Verdict :=
  let profile := lifecycleProfile kind
  match profile.target with
  | .snapshot =>
    let there := guest.any fun guest => (guest.snapshot? snapshot).isSome
    { ok := guest.isSome && (if profile.expect == "present" then there else !there)
      observed := if guest.isNone then "guest absent" else if there then "present" else "absent"
      expected := profile.expect }
  | .guest =>
    if profile.expect == "absent" then
      { ok := guest.isNone
        observed := match guest with
          | some guest => (text guest.status).getD "present"
          | none => "absent"
        expected := "absent" }
    else
      let status := guest.map fun guest => (text guest.status).getD ""
      { ok := status.any fun status => sameWord status profile.expect
        observed := (text status).getD "absent"
        expected := profile.expect }

def alreadyDone (kind : Kind) (guest : Option Instance) (snapshot : String) (issued : Bool) : Bool :=
  (stateVerdict kind guest snapshot).ok &&
    (kind == .instanceStart || kind == .instanceStop ||
      (((lifecycleProfile kind).removes || (lifecycleProfile kind).creates) && issued))

def lifecycleOutcomeStep : Kind → String
  | .instanceStart => "started"
  | .instanceStop => "stopped"
  | .instanceRestart => "restarted"
  | .instanceDelete => "deleted"
  | .instanceCreate => "created"
  | .snapshotCreate => "snapshot_created"
  | .snapshotDelete => "snapshot_deleted"

/-- `Date.parse`, which gives a number that equals no number for a text that is no date. -/
abbrev DateParse := String → Option Int

inductive Match where
  | nothingToCompare
  | gone
  | uuidDiffers (actual expected : String)
  | createdDiffers (actual expected : String)
  | identityMatches

def Match.ok : Match → Bool
  | .nothingToCompare | .identityMatches => true
  | .gone | .uuidDiffers .. | .createdDiffers .. => false

def Match.why : Match → String
  | .nothingToCompare => "no identity to compare"
  | .gone => "the resource is gone"
  | .uuidDiffers actual expected => s!"uuid {actual.take 8}… differs from the confirmed {expected.take 8}…"
  | .createdDiffers actual expected => s!"created {actual}, not {expected} as confirmed"
  | .identityMatches => "identity matches"

/-- `Date.parse(one) === Date.parse(other)`. -/
def sameDate (date : DateParse) (one other : String) : Bool :=
  match date one, date other with
  | some a, some b => a == b
  | _, _ => false

/-- Only what both sides carry is compared. -/
def uuidDiffers (expected actual : Identity) : Option Match :=
  match expected.uuid, actual.uuid with
  | some e, some a => if e = a then none else some (.uuidDiffers a e)
  | _, _ => none

def createdDiffers (date : DateParse) (expected actual : Identity) : Option Match :=
  match expected.createdAt, actual.createdAt with
  | some e, some a => if sameDate date e a then none else some (.createdDiffers a e)
  | _, _ => none

def identityMatches (date : DateParse) (expected actual : Option Identity) : Match :=
  match expected with
  | none => .nothingToCompare
  | some e =>
    if e.uuid.isNone && e.createdAt.isNone then .nothingToCompare
    else match actual with
      | none => .gone
      | some a =>
        match uuidDiffers e a with
        | some mismatch => mismatch
        | none =>
          match createdDiffers date e a with
          | some mismatch => mismatch
          | none => .identityMatches

/-- The identities differ in no field that both carry. -/
def Agrees (date : DateParse) (expected actual : Identity) : Prop :=
  (∀ e a, expected.uuid = some e → actual.uuid = some a → e = a) ∧
  ∀ e a, expected.createdAt = some e → actual.createdAt = some a → sameDate date e a = true

section Matches

variable {date : DateParse} {expected actual : Identity}

theorem uuidDiffers_none (same : uuidDiffers expected actual = none) (e a : String) (named : expected.uuid = some e)
    (read : actual.uuid = some a) : e = a := by
  simp only [uuidDiffers, named, read] at same
  refine Decidable.byContradiction fun different => ?_
  rw [if_neg different] at same
  cases same

theorem uuidDiffers_some {mismatch : Match}
    (differs : uuidDiffers expected actual = some mismatch) : mismatch.ok = false := by
  unfold uuidDiffers at differs
  split at differs
  · split at differs
    · cases differs
    · cases differs
      rfl
  · cases differs

theorem createdDiffers_none (same : createdDiffers date expected actual = none) (e a : String)
    (named : expected.createdAt = some e)
    (read : actual.createdAt = some a) : sameDate date e a = true := by
  simp only [createdDiffers, named, read] at same
  refine Decidable.byContradiction fun different => ?_
  rw [if_neg different] at same
  cases same

theorem createdDiffers_some {mismatch : Match}
    (differs : createdDiffers date expected actual = some mismatch) : mismatch.ok = false := by
  unfold createdDiffers at differs
  split at differs
  · split at differs
    · cases differs
    · cases differs
      rfl
  · cases differs

theorem agrees_of_bare (uuid : expected.uuid = none) (created : expected.createdAt = none) :
    Agrees date expected actual := by
  constructor
  · intro e a named
    rw [uuid] at named
    cases named
  · intro e a named
    rw [created] at named
    cases named

theorem identityMatches_ok {confirmed : Option Identity}
    (ok : (identityMatches date confirmed (some actual)).ok = true) :
    ∀ e, confirmed = some e → Agrees date e actual := by
  rintro e rfl
  by_cases bare : (e.uuid.isNone && e.createdAt.isNone) = true
  · have both : e.uuid = none ∧ e.createdAt = none := by simpa using bare
    exact agrees_of_bare both.1 both.2
  · simp only [identityMatches, if_neg bare] at ok
    cases uuid : uuidDiffers e actual with
    | some mismatch =>
      simp only [uuid, uuidDiffers_some uuid] at ok
      contradiction
    | none =>
      cases created : createdDiffers date e actual with
      | some mismatch =>
        simp only [uuid, created, createdDiffers_some created] at ok
        contradiction
      | none => exact ⟨uuidDiffers_none uuid, createdDiffers_none created⟩

end Matches

/-- One character, and up to `more` others. -/
def shaped (first rest : Char → Bool) (more : Nat) (word : String) : Bool :=
  match word.toList with
  | [] => false
  | c :: others => first c && decide (others.length ≤ more) && others.all rest

def containerName : String → Bool := shaped Char.isAlphanum (fun c => Char.isAlphanum c || c == '-') 62

def snapshotName : String → Bool :=
  shaped Char.isAlphanum (fun c => Char.isAlphanum c || c == '.' || c == '_' || c == '-') 62

def imageAlias : String → Bool :=
  shaped Char.isAlphanum (fun c => Char.isAlphanum c || c == ':' || c == '/' || c == '.' ||
    c == '_' || c == '-') 199

def profileName : String → Bool := snapshotName

def networkName : String → Bool := shaped letterChar (fun c => Char.isAlphanum c || c == '_' || c == '-') 14

def sizeUnits : List (List Char) := ["MB".toList, "MiB".toList, "GB".toList, "GiB".toList]

def size (word : String) : Bool :=
  sizeUnits.any fun unit =>
    unit.isSuffixOf word.toList &&
      match word.toList.take (word.toList.length - unit.length) with
      | [] => false
      | c :: digits => '1' ≤ c && c ≤ '9' && decide (digits.length ≤ 6) && digits.all Char.isDigit

def uuidShape (word : String) : Bool :=
  decide (8 ≤ word.toList.length) && decide (word.toList.length ≤ 64) &&
    word.toList.all fun c => Char.isDigit c || ('a' ≤ c && c ≤ 'f') || ('A' ≤ c && c ≤ 'F') || c == '-'

def statusWord : String → Bool := shaped letterChar letterChar 19

def trueOrFalse (word : String) : Bool := word == "true" || word == "false"

def cpuLimit (word : String) : Bool :=
  match word.toList with
  | [] => false
  | c :: digits => '1' ≤ c && c ≤ '9' && decide (digits.length ≤ 2) && digits.all Char.isDigit

def noteMax : Nat := 500

/-- No control character but tab, newline and carriage return. -/
def noteText (note : String) : Bool :=
  decide (note.toList.length ≤ noteMax) &&
    note.toList.all fun c =>
      !(c.val ≤ 8 || c.val == 11 || c.val == 12 || (14 ≤ c.val && c.val ≤ 31) || c.val == 127)

def launchConfigAllowlist : List (String × (String → Bool)) :=
  [("security.nesting", trueOrFalse), ("security.guestapi", (· == "false")), ("security.privileged", trueOrFalse),
    ("security.syscalls.intercept.mknod", trueOrFalse), ("security.syscalls.intercept.setxattr", trueOrFalse),
    ("security.syscalls.intercept.bpf", trueOrFalse), ("security.syscalls.intercept.bpf.devices", trueOrFalse),
    ("raw.lxc", (· == "lxc.apparmor.profile=unconfined")), ("limits.cpu", cpuLimit), ("limits.memory", size),
    ("boot.autostart", trueOrFalse)]

def newGuestImage : String := "images:debian/13"

/-- The setup plan a create carries. -/
structure SetupPlan where
  /-- It names `expect` or `container`. -/
  binds : Bool
  phases : List String

structure Params where
  container : String
  snapshot : Option String
  force : Option Bool
  managed : Option Bool
  fixup : Option Bool
  setup : Option SetupPlan
  expect : Option Identity
  note : Option String
  image : Option String
  profile : Option String
  network : Option String
  vm : Option Bool
  rootSize : Option String
  config : Option (List (String × String))
  /-- One of `command`, `script`, `argv`, `args` and `options` is there. -/
  command : Bool

/-- What other modules of the source decide about a text or a plan. -/
structure Platform where
  date : DateParse
  /-- `validateSetupParams`: the reason it refuses. -/
  setupRefused : SetupPlan → String → Option String
  /-- `redact` would change the plan. -/
  looksSecret : Params → Bool
  sanitizeReason : Nat → String → String
  /-- `JSON.parse`, for a text that is a JSON list of guests. -/
  parseList : String → Option (List Instance)
  /-- `parseDebian13Release`. -/
  parseDebian13Release : String → Bool
  /-- `isSnapshotCliShapeError`. -/
  isSnapshotCliShapeError : String → Bool
  /-- `/already exists|already in use/i`. -/
  alreadyInUse : String → Bool
  /-- `creationTime`, in nanoseconds. -/
  creationTime : String → Option Int
  /-- `one.localeCompare(other) <= 0`. -/
  namesOrdered : String → String → Bool

variable (platform : Platform)

def forceKinds : List Kind := [.instanceStop, .instanceRestart, .instanceDelete]

def fixupKinds : List Kind := [.instanceStart, .instanceRestart]

def validateSetup (kind : Kind) (p : Params) : Except String Unit :=
  match p.setup with
  | none => .ok ()
  | some setup => do
    require (kind == .instanceCreate) s!"a {kind.word} job carries no setup plan"
    require (!setup.binds)
      "the setup plan of a create binds its identity from the launched guest, not from the request"
    match platform.setupRefused setup p.container with
    | some reason => .error s!"setup: {reason}"
    | none => .ok ()

def validateExpect (p : Params) : Except String Unit :=
  match p.expect with
  | none => .ok ()
  | some expect => do
    require (expect.uuid.all uuidShape) "expect.uuid must be an Incus volatile uuid"
    require (expect.createdAt.all fun at_ => (platform.date at_).isSome) "expect.created_at must be a timestamp"
    require (expect.status.all statusWord) "expect.status must be an Incus status word"

def validateSnapshot (kind : Kind) (p : Params) : Except String Unit :=
  match (lifecycleProfile kind).target with
  | .snapshot => require (snapshotName (p.snapshot.getD "")) "snapshot must be a snapshot name"
  | .guest => require p.snapshot.isNone s!"a {kind.word} job carries no snapshot name"

def validateNote (kind : Kind) (p : Params) : Except String Unit :=
  if kind == .snapshotCreate then require (p.note.all noteText) "note must be text of at most 500 characters"
  else require p.note.isNone s!"a {kind.word} job carries no note"

def validateConfig (entry : String × String) : Except String Unit :=
  match launchConfigAllowlist.lookup entry.1 with
  | none => .error s!"config key '{entry.1}' is not on the launch allowlist"
  | some accepts => require (accepts entry.2) s!"config {entry.1}={entry.2} is not an accepted value"

def validateLaunch (kind : Kind) (p : Params) : Except String Unit :=
  if kind == .instanceCreate then do
    require (imageAlias (p.image.getD "")) "image must be an Incus image alias (e.g. images:debian/13)"
    require (p.image == some newGuestImage) s!"new instances require {newGuestImage}; image overrides are refused"
    require (p.profile.all profileName) "profile must be a profile name"
    require (p.network.all networkName) "network must be a bridge name"
    require (p.rootSize.all size) "rootSize must be a size like 20GiB"
    (p.config.getD []).forM validateConfig
  else do
    require p.image.isNone s!"a {kind.word} job carries no image"
    require p.profile.isNone s!"a {kind.word} job carries no profile"
    require p.network.isNone s!"a {kind.word} job carries no network"
    require p.vm.isNone s!"a {kind.word} job carries no vm"
    require p.rootSize.isNone s!"a {kind.word} job carries no rootSize"
    require p.config.isNone s!"a {kind.word} job carries no config"

def validateLifecycleParams (kind : Kind) (p : Params) : Except String Unit := do
  require (containerName p.container) "container must be an Incus guest name"
  require (!p.command) "a lifecycle job never carries a command, arguments or options"
  require (p.force != some true || forceKinds.contains kind)
    s!"force applies to stop, restart and delete, not {kind.word}"
  require (p.fixup != some true || fixupKinds.contains kind) s!"fixup applies to start and restart, not {kind.word}"
  validateSetup platform kind p
  validateExpect platform p
  validateSnapshot kind p
  validateNote kind p
  validateLaunch kind p
  require (!platform.looksSecret p) "the plan carries a value that looks like a secret; plans carry references only"

inductive SnapshotForm where
  | subcommand
  | legacy

def launchArgv (p : Params) : List String :=
  ["incus", "launch", p.image.getD "", p.container, "--profile", (text p.profile).getD "default"] ++
    (launchConfigAllowlist.flatMap fun (key, _) =>
      match (p.config.getD []).lookup key with
      | some value => ["--config", s!"{key}={value}"]
      | none => []) ++
    (match text p.rootSize with
      | some rootSize => ["--device", s!"root,size={rootSize}"]
      | none => []) ++
    (match text p.network with
      | some network => ["--network", network]
      | none => []) ++
    if p.vm == some true then ["--vm"] else []

def snapshotCreateArgv (name snapshot : String) : SnapshotForm → List String
  | .subcommand => ["incus", "snapshot", "create", name, snapshot]
  | .legacy => ["incus", "snapshot", name, snapshot]

def renderArgv (kind : Kind) (p : Params) : List String :=
  let force := if p.force == some true then ["--force"] else []
  match kind with
  | .instanceStart => ["incus", "start", p.container]
  | .instanceStop => ["incus", "stop", p.container] ++ force
  | .instanceRestart => ["incus", "restart", p.container] ++ force
  | .instanceDelete => ["incus", "delete", p.container]
  | .instanceCreate => launchArgv p
  | .snapshotCreate => snapshotCreateArgv p.container (p.snapshot.getD "") .subcommand
  | .snapshotDelete => ["incus", "snapshot", "delete", p.container, p.snapshot.getD ""]

/-- A plan that is not valid renders no command. -/
def lifecycleArgv (kind : Kind) (p : Params) : Except String (List String) :=
  match validateLifecycleParams platform kind p with
  | .error reason => .error s!"refusing to render a command for an invalid plan: {reason}"
  | .ok () => .ok (renderArgv kind p)

/-- The plan of the stop before a delete. -/
def stopPlan (p : Params) : Params where
  container := p.container
  snapshot := none
  force := some (p.force == some true)
  managed := none
  fixup := none
  setup := none
  expect := none
  note := none
  image := none
  profile := none
  network := none
  vm := none
  rootSize := none
  config := none
  command := false

def instanceListArgv (name : String) : List String := ["incus", "list", name, "--format", "json"]

def snapshotNoteArgv (name snapshot note : String) : List String :=
  ["incus", "config", "set", s!"{name}/snapshots/{snapshot}", s!"user.note={note}"]

def cleanupArgv (name : String) : List String := ["incus", "delete", name, "--force"]

def guestReleaseArgv (name : String) : List String := ["incus", "exec", name, "--", "cat", "/etc/os-release"]

end ProxyPilot.Lifecycle
