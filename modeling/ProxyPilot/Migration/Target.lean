import ProxyPilot.Data.Checks
import ProxyPilot.Data.Paths
import ProxyPilot.Data.Text

namespace ProxyPilot.Migration

open Data

/-! # The target of a migration (`migration/plan.js`)

A field that the code reads through `String` or `Number` is the text or the number it becomes;
`none` is a field that counts as absent.
-/

abbrev Text := List Char

/-- An entry of `app_dirs`, and how an error shows it. -/
structure GivenDir where
  text : Text
  json : String

/-- A number that is not finite is `none`. -/
abbrev GivenNumber := Option Rat

structure TargetInput where
  mode : String
  name : Text
  type : Option String
  sourceKind : Option String
  transport : Option String
  cpu : Option GivenNumber
  memoryGb : Option GivenNumber
  diskGb : Option GivenNumber
  pool : Option Text
  network : Option Text
  appDirs : List GivenDir
  excludes : List Text
  database : Option String
  serviceName : Option Text
  image : Option String
  nested : Bool
  sourceLabel : Option Text
  autoTransfer : Bool
  keepAgent : Bool
  installTools : Bool
  freeze : String

structure App where
  dirs : List Text
  excludes : List Text
  database : String
  serviceName : Option Text
  image : String

structure Spec where
  mode : String
  transport : String
  name : Text
  type : String
  cpu : Int
  memoryGb : Rat
  diskGb : Option Int
  pool : Option Text
  network : Option Text
  nested : Bool
  sourceKind : String
  sourceLabel : Option Text
  app : Option App
  autoTransfer : Bool
  keepAgent : Bool
  installTools : Bool
  freeze : String

abbrev Answer := Except String

/-- `NAME_RE` -/
def nameOk (name : Text) : Bool :=
  name.head?.any Char.isAlphanum && name.getLast?.any Char.isAlphanum && name.all labelChar &&
    decide (name.length ≤ 63)

/-- `POOL_RE` -/
def poolOk (name : Text) : Bool := name.head?.any Char.isAlphanum && name.all nameChar && decide (name.length ≤ 63)

/-- `ABS_PATH_RE` -/
def absPath (path : Text) : Bool := isAbsolute path && path.all fun c => c != '\n' && c.toNat != 0

/-- `/(^|\/)\.\.(\/|$)/` -/
def climbs (path : Text) : Bool := (path.splitOn '/').contains parentDir

def serviceChar (c : Char) : Bool := c.isAlphanum || ['@', '.', '_', '-'].contains c

def MODES : List String := ["whole-machine", "application"]
def TRANSPORTS : List String := ["incus-migrate", "rootfs-tar", "file-sync"]
def GUEST_TYPES : List String := ["container", "virtual-machine"]
def NEW_GUEST_IMAGE : String := "images:debian/13"

def DEFAULT_RSYNC_EXCLUDES : List Text := [
  ".git/", "node_modules/", "vendor/", ".venv/", "venv/", "__pycache__/", "*.pyc",
  ".next/cache/", ".nuxt/", "dist/cache/", ".cache/", ".parcel-cache/",
  "tmp/", "temp/", "*.log", "logs/", "*.sock", "*.pid", "*.swp", ".DS_Store",
  "storage/framework/cache/", "storage/logs/"].map String.toList

def resolveTransport (mode type sourceKind : String) (requested : Option String) : Option String :=
  match requested with
  | some transport => if TRANSPORTS.contains transport then some transport else none
  | none =>
    if mode = "application" then some "file-sync"
    else if type = "container" ∧ ["proxmox-lxc", "lxc"].contains sourceKind then some "rootfs-tar"
    else some "incus-migrate"

def intIn (given : GivenNumber) (lo hi : Int) : Option Int :=
  given.bind fun n => if n.den = 1 ∧ lo ≤ n.num ∧ n.num ≤ hi then some n.num else none

/-- One entry of `app_dirs` as it is stored. -/
def readDir (given : GivenDir) : Answer Text := do
  require (absPath given.text) s!"app_dirs: {given.json} is not an absolute path"
  require (decide (given.text ≠ ['/']) && !climbs given.text)
    s!"app_dirs: {String.ofList given.text} is refused — name the application's own directories, not / or a parent traversal"
  let path := dropEnd (· == '/') given.text
  return if path = [] then ['/'] else path

/-- One pattern more, unless it is there. -/
def addExclude (excludes : List Text) (given : Text) : Answer (List Text) := do
  let pattern := trim given
  require (decide (pattern ≠ []) && decide (codeUnits pattern ≤ 200) && !pattern.contains '\n')
    "excludes: one tar/rsync-style pattern per entry"
  return if excludes.contains pattern then excludes else excludes ++ [pattern]

def readApp (input : TargetInput) : Answer App := do
  let dirs ← input.appDirs.mapM readDir
  let excludes ← input.excludes.foldlM addExclude DEFAULT_RSYNC_EXCLUDES
  let database := input.database.getD "none"
  require (["none", "postgres", "mysql", "sqlite"].contains database)
    "database must be none, postgres, mysql or sqlite"
  require (input.serviceName.all fun name => name.all serviceChar && decide (1 ≤ name.length) &&
    decide (name.length ≤ 128))
    "service_name: the systemd unit that runs the app on the source"
  let image := input.image.getD NEW_GUEST_IMAGE
  require (decide (image = NEW_GUEST_IMAGE))
    s!"new migration guests require {NEW_GUEST_IMAGE}; image overrides are refused"
  return ⟨dirs, excludes, database, input.serviceName, image⟩

/-- The field must be valid, if it is there. -/
def readNumber (given : Option GivenNumber) (default : Int) (lo hi : Int) (error : String) : Answer Int :=
  match given with
  | none => .ok default
  | some given => demand (intIn given lo hi) error

def readMemory (given : Option GivenNumber) : Answer Rat :=
  match given with
  | none => .ok 4
  | some given => demand (given.filter fun n => decide (1 / 4 ≤ n) && decide (n ≤ 1024)) "memory_gb: 0.25–1024"

def readDisk (given : Option GivenNumber) : Answer (Option Int) :=
  match given with
  | none => .ok none
  | some given => some <$> demand (intIn given 1 8192) "disk_gb: a whole number of GB, 1–8192"

def readMode (input : TargetInput) : Answer (Option App) :=
  if input.mode = "application" then some <$> readApp input else .ok none

def validateTarget (input : TargetInput) : Answer Spec := do
  require (MODES.contains input.mode) "mode must be one of whole-machine, application"
  require (nameOk input.name) "name: the guest name, letters/digits/hyphens (ProxyPilot adds the pp- prefix)"
  let type := input.type.getD "container"
  require (GUEST_TYPES.contains type) "type must be container or virtual-machine"
  let sourceKind := input.sourceKind.getD "unknown"
  let transport ← demand (resolveTransport input.mode type sourceKind input.transport)
    "transport must be one of incus-migrate, rootfs-tar, file-sync (or omitted, and it is derived from the mode)"
  require (decide ¬(input.mode = "application" ∧ transport ≠ "file-sync"))
    "application mode always transports with file-sync (tarballs through ProxyPilot into the guest)"
  require (decide ¬(input.mode = "whole-machine" ∧ transport = "file-sync"))
    "whole-machine mode transports with incus-migrate, or rootfs-tar for a Proxmox LXC"
  require (decide ¬(transport = "rootfs-tar" ∧ type ≠ "container"))
    "rootfs-tar imports a container; a VM disk goes through incus-migrate"
  let cpu ← readNumber input.cpu 2 1 128 "cpu: a whole number of vCPUs, 1–128"
  let memoryGb ← readMemory input.memoryGb
  let diskGb ← readDisk input.diskGb
  require (decide ¬(type = "virtual-machine" ∧ diskGb = none))
    "disk_gb is required for a virtual machine — the disk is created before the stream starts"
  require (input.pool.all poolOk) "pool: an Incus storage pool name"
  require (input.network.all poolOk) "network: an Incus network (bridge) name"
  let app ← readMode input
  return {
    mode := input.mode, transport, name := input.name, type, cpu, memoryGb, diskGb, pool :=
      input.pool, network := input.network,
    nested := input.nested, sourceKind, sourceLabel :=
      input.sourceLabel.map (sliceUnits 200), app, autoTransfer := input.autoTransfer,
    keepAgent := input.keepAgent, installTools := input.installTools,
    freeze := if ["stop", "read-only", "none"].contains input.freeze then input.freeze else "stop" }

/-- The names on the way from the root, as `tar` and the kernel read a path. -/
def namesOf (path : Text) : List Text := (path.splitOn '/').filter fun name => decide (name ≠ [] ∧ name ≠ ['.'])

/-- An absolute path to something below the root. -/
def BelowRoot (path : Text) : Prop := isAbsolute path = true ∧ namesOf path ≠ [] ∧ parentDir ∉ namesOf path

instance (path : Text) : Decidable (BelowRoot path) := inferInstanceAs (Decidable (_ ∧ _ ∧ _))

theorem splitOn_concat (separator : Char) (path : Text) :
    (path ++ [separator]).splitOn separator = path.splitOn separator ++ [[]] := by
  induction path with
  | nil => simp [List.splitOn_cons_eq_if_modifyHead]
  | cons c rest ih =>
    rw [List.cons_append, List.splitOn_cons_eq_if_modifyHead, List.splitOn_cons_eq_if_modifyHead, ih]
    split
    · rfl
    · cases pieces : rest.splitOn separator with
      | nil => exact absurd pieces (List.splitOn_ne_nil _ _)
      | cons first more => rfl

theorem namesOf_concat (path : Text) : namesOf (path ++ ['/']) = namesOf path := by
  rw [namesOf, splitOn_concat, List.filter_append]
  simp [namesOf]

theorem dropEnd_concat (drops : Char → Bool) (path : Text) (c : Char) :
    dropEnd drops (path ++ [c]) = if drops c then dropEnd drops path else path ++ [c] := by
  simp only [dropEnd, List.reverse_append, List.reverse_cons, List.reverse_nil, List.nil_append,
    List.singleton_append, List.dropWhile_cons]
  split
  · rfl
  · simp

theorem namesOf_dropEnd (path : Text) : namesOf (dropEnd (· == '/') path) = namesOf path := by
  induction path using List.reverseRecOn with
  | nil => rfl
  | append_singleton rest c ih =>
    rw [dropEnd_concat]
    split
    · next slash =>
        rw [beq_iff_eq] at slash
        rw [ih, slash, namesOf_concat]
    · rfl

theorem isAbsolute_dropEnd {path : Text} (absolute : isAbsolute path = true) (some : dropEnd (· == '/') path ≠ []) :
    isAbsolute (dropEnd (· == '/') path) = true := by
  induction path using List.reverseRecOn with
  | nil => cases absolute
  | append_singleton rest c ih =>
    rw [dropEnd_concat] at some ⊢
    split at some
    · next slash =>
        rw [if_pos slash]
        cases rest with
        | nil => exact absurd rfl some
        | cons first rest => exact ih absolute some
    · next other =>
        rwa [if_neg other]

variable {given : GivenDir} {dir : Text} {input : TargetInput}

/-- What is stored denotes what was given. -/
theorem readDir_ok (read : readDir given = .ok dir) :
    isAbsolute dir = true ∧ namesOf dir = namesOf given.text ∧ parentDir ∉ namesOf given.text := by
  unfold readDir at read
  obtain ⟨absolute, read⟩ := require_bind_ok.mp read
  obtain ⟨plain, read⟩ := require_bind_ok.mp read
  simp only [absPath, climbs, Bool.and_eq_true, Bool.not_eq_true', List.contains_eq_mem,
    decide_eq_false_iff_not] at absolute plain
  have flat : parentDir ∉ namesOf given.text := fun member => plain.2 (List.mem_filter.mp member).1
  cases read
  by_cases none : dropEnd (· == '/') given.text = []
  · have names := namesOf_dropEnd given.text
    rw [none] at names
    rw [if_pos none]
    exact ⟨rfl, names, flat⟩
  · rw [if_neg none]
    exact ⟨isAbsolute_dropEnd absolute.1 none, namesOf_dropEnd given.text, flat⟩

theorem readDir_belowRoot (read : readDir given = .ok dir) : BelowRoot dir ↔ namesOf given.text ≠ [] := by
  obtain ⟨absolute, names, flat⟩ := readDir_ok read
  rw [BelowRoot, names]
  exact ⟨fun below => below.2.1, fun some => ⟨absolute, some, flat⟩⟩

theorem mapM_dirs {given : List GivenDir} {dirs : List Text} (read : given.mapM readDir = .ok dirs) :
    (∀ dir ∈ dirs, BelowRoot dir) ↔ ∀ entry ∈ given, namesOf entry.text ≠ [] := by
  constructor
  · intro below entry member
    obtain ⟨dir, made⟩ := mapM_ok_each read member
    exact (readDir_belowRoot made).mp (below dir ((mem_mapM_ok read).mpr ⟨entry, member, made⟩))
  · intro named dir member
    obtain ⟨entry, inside, made⟩ := (mem_mapM_ok read).mp member
    exact (readDir_belowRoot made).mpr (named entry inside)

theorem readApp_dirs {app : App} (read : readApp input = .ok app) : input.appDirs.mapM readDir = .ok app.dirs := by
  unfold readApp at read
  obtain ⟨dirs, listed, read⟩ := bind_ok.mp read
  obtain ⟨_, _, read⟩ := bind_ok.mp read
  obtain ⟨_, read⟩ := require_bind_ok.mp read
  obtain ⟨_, read⟩ := require_bind_ok.mp read
  obtain ⟨_, read⟩ := require_bind_ok.mp read
  cases read
  exact listed

/-- An accepted target in application mode carries what `readApp` made. -/
theorem validateTarget_app {spec : Spec} (accepted : validateTarget input = .ok spec)
    (mode : input.mode = "application") :
    ∃ app, spec.app = some app ∧ readApp input = .ok app := by
  unfold validateTarget at accepted
  obtain ⟨_, accepted⟩ := require_bind_ok.mp accepted
  obtain ⟨_, accepted⟩ := require_bind_ok.mp accepted
  obtain ⟨_, accepted⟩ := require_bind_ok.mp accepted
  obtain ⟨_, _, accepted⟩ := bind_ok.mp accepted
  obtain ⟨_, accepted⟩ := require_bind_ok.mp accepted
  obtain ⟨_, accepted⟩ := require_bind_ok.mp accepted
  obtain ⟨_, accepted⟩ := require_bind_ok.mp accepted
  obtain ⟨_, _, accepted⟩ := bind_ok.mp accepted
  obtain ⟨_, _, accepted⟩ := bind_ok.mp accepted
  obtain ⟨_, _, accepted⟩ := bind_ok.mp accepted
  obtain ⟨_, accepted⟩ := require_bind_ok.mp accepted
  obtain ⟨_, accepted⟩ := require_bind_ok.mp accepted
  obtain ⟨_, accepted⟩ := require_bind_ok.mp accepted
  obtain ⟨app, read, accepted⟩ := bind_ok.mp accepted
  rw [readMode, if_pos mode] at read
  obtain ⟨made, reads, rfl⟩ := map_ok.mp read
  cases accepted
  exact ⟨made, rfl, reads⟩

/-- In application mode the stored directories lie below the root exactly when each directory
that was named has a name other than `.` in it. -/
theorem app_dirs_below_root (input : TargetInput) (spec : Spec)
    (accepted : validateTarget input = .ok spec) (mode : input.mode = "application") :
    (∀ app, spec.app = some app → ∀ dir ∈ app.dirs, BelowRoot dir) ↔
      ∀ entry ∈ input.appDirs, ∃ name ∈ entry.text.splitOn '/', name ≠ [] ∧ name ≠ ['.'] := by
  obtain ⟨app, stored, read⟩ := validateTarget_app accepted mode
  have named : ∀ text, namesOf text ≠ [] ↔ ∃ name ∈ text.splitOn '/', name ≠ [] ∧ name ≠ ['.'] := by
    intro text
    simp [namesOf, List.filter_eq_nil_iff]
  simp only [stored, Option.some.injEq, forall_eq', mapM_dirs (readApp_dirs read), named]

def shopInput (dirs : List GivenDir) : TargetInput where
  mode := "application"
  name := "shop".toList
  type := none
  sourceKind := none
  transport := none
  cpu := none
  memoryGb := none
  diskGb := none
  pool := none
  network := none
  appDirs := dirs
  excludes := []
  database := none
  serviceName := none
  image := none
  nested := false
  sourceLabel := none
  autoTransfer := false
  keepAgent := false
  installTools := true
  freeze := "stop"

def shopSpec (dirs : List Text) : Spec where
  mode := "application"
  transport := "file-sync"
  name := "shop".toList
  type := "container"
  cpu := 2
  memoryGb := 4
  diskGb := none
  pool := none
  network := none
  nested := false
  sourceKind := "unknown"
  sourceLabel := none
  app := some ⟨dirs, DEFAULT_RSYNC_EXCLUDES, "none", none, NEW_GUEST_IMAGE⟩
  autoTransfer := false
  keepAgent := false
  installTools := true
  freeze := "stop"

theorem app_dirs_below_root_shop : BelowRoot "/srv/shop".toList := by
  have below :=
    (app_dirs_below_root (shopInput [⟨"/srv/shop/".toList, "\"/srv/shop/\""⟩])
    (shopSpec ["/srv/shop".toList]) rfl rfl).mpr (by decide)
  exact below _ rfl _ (List.mem_singleton_self _)

/-- Two slashes pass for a directory of the application and are stored as the root. -/
theorem root_spelled_twice : validateTarget (shopInput [⟨"//".toList, "\"//\""⟩]) =
    .ok (shopSpec [['/']]) ∧ ¬ BelowRoot ['/'] :=
  ⟨rfl, by decide⟩

end ProxyPilot.Migration
