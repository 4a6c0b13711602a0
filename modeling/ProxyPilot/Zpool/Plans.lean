import ProxyPilot.Data.Json
import ProxyPilot.Data.Objects
import ProxyPilot.Zpool.Inventory

namespace ProxyPilot.Zpool

open Data

/-! # Plans that take whole disks (`planner.js`)

A plan is the list of commands that the operator confirms.  Two plans give disks to a
pool: the one that creates it and the one that replaces a disk of it.
-/

def joined (separator : String) (texts : List Text) : Text := separator.toList.intercalate texts

def isDigits (text : Text) : Bool := !text.isEmpty && text.all Char.isDigit

/-- What follows a text that begins with `front`. -/
def following (front : String) (text : Text) : Option Text :=
  if front.toList.isPrefixOf text then some (text.drop front.length) else none

def poolNameChar (c : Char) : Bool := c.isAlphanum || "_.:-".toList.contains c

def reservedPoolName (n : Text) : Bool :=
  (["mirror", "raidz", "raidz1", "raidz2", "raidz3", "draid", "draid1", "draid2", "draid3", "spare",
    "log", "cache", "special",
    "dedup"].map String.toList).contains n || ((following "c" n).any fun rest => rest.length == 1 && isDigits rest)

def validPoolName (s : Option Text) : Option Text :=
  match s with
  | some (c :: rest) =>
    if c.isAlpha && rest.all poolNameChar && rest.length ≤ 254 && !reservedPoolName (c :: rest)
      then some (c :: rest) else none
  | _ => none

def hardReasons (device : Device) : List Text :=
  device.risk ++ (device.os_reason.map fun reason => "OS device (".toList ++ reason ++ ")".toList).toList ++
    (if device.mounted then ["has a mounted filesystem (".toList ++ joined ", " device.mounted_at ++
      ") — unmount it first".toList] else []) ++
    (device.in_pool.map ("is a member of the imported ZFS pool ".toList ++ ·)).toList ++
    (if device.has_holders
      then ["is in use by an md array, LVM volume group or device-mapper target — stop that first".toList] else []) ++
    (if device.disk.read_only then ["is read-only".toList] else [])

def softReasons (device : Device) : List Text :=
  (device.importable_pool.map fun pool =>
    "holds the importable ZFS pool ".toList ++ pool.name ++ " (".toList ++
      pool.state.getD "state unknown".toList ++ ")".toList).toList ++
    (device.signatures.filter fun s => !(s == "zfs_member".toList && device.importable_pool.isSome)).map fun s =>
      "carries a ".toList ++ s ++ " signature".toList

structure Eligibility where
  eligible : Bool
  hard : List Text
  soft : List Text
  needs_wipe : Bool

def deviceEligibility (device : Device) (wipe : Bool) : Eligibility where
  eligible := (hardReasons device).isEmpty && (wipe || (softReasons device).isEmpty)
  hard := hardReasons device
  soft := softReasons device
  needs_wipe := (hardReasons device).isEmpty && !(softReasons device).isEmpty

def noSpaces (text : Text) : Bool := text.all fun c => !whiteSpace c

def resolveByIdDevice (devices : List Device) (p : Text) : Except Text Device :=
  if byIdPrefix.isPrefixOf p && !mentions "..".toList p && noSpaces p then find devices
  else .error ((nonempty p).getD "(empty)".toList ++
    ": devices must be given as /dev/disk/by-id/… paths (list_disks shows them)".toList)
where
  find : List Device → Except Text Device
    | [] => .error (p ++ " is not a known whole disk on this host".toList)
    | d :: rest =>
      if d.by_id.contains p then .ok d
      else if d.partitions.any fun pt => pt.by_id.contains p then
        .error (p ++ " is a partition of ".toList ++ d.path ++ "; pools are built from whole disks".toList)
      else find rest

def layouts : List (Text × Nat) :=
  [("single".toList, 1), ("mirror".toList, 2), ("raidz1".toList, 3), ("raidz2".toList, 4), ("raidz3".toList, 5)]

/-- `LAYOUTS[l]`, by its `min`; what every object inherits has no `min`. -/
def layoutSpec (l : Text) : Option (Option Nat) :=
  match layouts.lookup l with
  | some least => some (some least)
  | none => if objectMembers.contains l then some none else none

inductive EncryptionParam where
  | omitted
  | object (keyformat keylocation : Option Text)
  | other

structure CreateParams where
  name : Option Text
  layout : Option Text
  /-- An entry that is no array is `none`. -/
  vdevs : Option (List (Option (List Text)))
  devices : Option (List Text)
  wipe : Bool
  /-- A value that is no integer is `some none`. -/
  ashift : Option (Option Int)
  compression : Option Text
  atime : Option Text
  xattr : Option Text
  mountpoint : Option Text
  encryption : EncryptionParam
  managed : Bool

def single : Text := "single".toList

def layoutName (params : CreateParams) : Text := (params.layout.bind nonempty).getD single

def listedGroups (params : CreateParams) : Except Text (List (List Text)) :=
  match params.vdevs with
  | some (first :: rest) =>
    demand ((first :: rest).mapM fun g => g.filter fun ids => !ids.isEmpty)
      "vdevs must be an array of non-empty device arrays".toList
  | _ =>
    match params.devices with
    | some (first :: rest) =>
      .ok (if layoutName params = single then (first :: rest).map fun d => [d] else [first :: rest])
    | _ => .error "devices (or vdevs) is required".toList

def number (n : Nat) : Text := (toString n).toList

def widthError (l : Text) (least : Option Nat) (g : List Text) (i : Nat) : Option Text :=
  if l = single ∧ g.length ≠ 1 then
    some ("layout single takes one device per vdev (vdev ".toList ++ number (i + 1) ++
      " has ".toList ++ number g.length ++ ")".toList)
  else match least with
    | some least =>
      if g.length < least then
        some (l ++ " needs at least ".toList ++ number least ++ " devices per vdev (vdev ".toList ++
          number (i + 1) ++ " has ".toList ++
          number g.length ++ ")".toList)
      else none
    | none => none

structure Layout where
  layout : Text
  groups : List (List Text)

def validateLayout (params : CreateParams) : Except Text Layout := do
  let l := layoutName params
  let least ← demand (layoutSpec l) ("layout must be one of ".toList ++ joined ", " (layouts.map Prod.fst))
  let groups ← listedGroups params
  require (decide groups.flatten.Nodup) "a device is listed more than once".toList
  match groups.zipIdx.findSome? fun entry => widthError l least entry.1 entry.2 with
  | some error => .error error
  | none => .ok ⟨l, groups⟩

inductive CreateProp where
  | compression
  | atime
  | xattr
  | acltype
  | dnodesize
  | mountpoint

def CreateProp.key : CreateProp → Text
  | .compression => "compression".toList
  | .atime => "atime".toList
  | .xattr => "xattr".toList
  | .acltype => "acltype".toList
  | .dnodesize => "dnodesize".toList
  | .mountpoint => "mountpoint".toList

def oneOf (words : List String) (v : Text) : Bool := (words.map String.toList).contains v

/-- `DATASET_PROP_RULES`, for the properties a new pool is given. -/
def CreateProp.rule : CreateProp → Text → Bool
  | .compression, v =>
    oneOf ["on", "off", "lz4", "lzjb", "zle", "gzip", "zstd", "zstd-fast"] v ||
      ((following "gzip-" v).any fun level => level.length == 1 && isDigits level && level != "0".toList) ||
      ((following "zstd-fast-" v).any isDigits) || (following "zstd-" v).any isDigits
  | .atime, v => oneOf ["on", "off"] v
  | .xattr, v => oneOf ["on", "off", "sa"] v
  | .acltype, v => oneOf ["off", "noacl", "nfsv4", "posix", "posixacl"] v
  | .dnodesize, v => oneOf ["legacy", "auto", "1k", "2k", "4k", "8k", "16k"] v
  | .mountpoint, v =>
    oneOf ["none", "legacy"] v || (v.head? == some '/' && !v.contains (Char.ofNat 0) && !mentions "..".toList v)

def validProp (entry : CreateProp × Text) : Except Text (Text × Text) := do
  let v := trim entry.2
  require (!v.isEmpty && entry.1.rule v)
    ("property ".toList ++ entry.1.key ++ ": value ".toList ++ Json.quote entry.2 ++ " is not valid".toList)
  return (entry.1.key, v)

def propsIn (params : CreateParams) : List (CreateProp × Text) :=
  [(.compression, params.compression.getD "zstd".toList), (.atime, params.atime.getD "off".toList),
    (.xattr, params.xattr.getD "sa".toList),
    (.acltype, "posixacl".toList), (.dnodesize, "auto".toList)] ++
      (params.mountpoint.map fun m => (.mountpoint, m)).toList

def passphrase : Text := "passphrase".toList

/-- The properties that encryption adds, and what is read from standard input. -/
def encryptionProps : EncryptionParam → Except Text (List (Text × Text) × Option Text)
  | .omitted => .ok ([], none)
  | .other => .error "encryption must be an object (\x7b keyformat, keylocation \x7d) or omitted".toList
  | .object keyformat keylocation => do
    let kf := (keyformat.bind nonempty).getD passphrase
    require (oneOf ["passphrase", "raw", "hex"] kf) "encryption.keyformat must be passphrase, raw or hex".toList
    let props := [("encryption".toList, "on".toList), ("keyformat".toList, kf)]
    match keylocation.bind nonempty with
    | some kl =>
      require (((following "file:///" kl).any fun rest => !rest.isEmpty && noSpaces rest) &&
        !mentions "..".toList kl)
        "encryption.keylocation must be file:///absolute/path (the key file is never read or stored by ProxyPilot)".toList
      return (props ++ [("keylocation".toList, kl)], none)
    | none =>
      require (kf == passphrase) "raw / hex keys need encryption.keylocation = file:///path".toList
      return (props ++ [("keylocation".toList, "prompt".toList)], some passphrase)

inductive StepKind where
  | exec
  | verify

structure Step where
  argv : List Text
  stdin : Option Text := none
  timeout_ms : Nat := 120000
  ignore_failure : Bool := false
  kind : StepKind := .exec

structure VdevMember where
  id : Text
  path : Text
  wipe : Bool

structure PlanLayout where
  layout : Text
  vdevs : List (List VdevMember)

structure Plan where
  op : Text
  subject : Text
  steps : List Step
  layout : Option PlanLayout := none
  managed_datasets : List (Text × Text) := []
  reversal : Text
  touches : List Text

structure Inventory where
  devices : List Device
  pools : List Text
  importable : List ImportablePool
  poolStatus : List PoolStatus

def words (texts : List String) : List Text := texts.map String.toList

/-- A listed disk that the plan takes. -/
structure Member where
  id : Text
  device : Device
  wipe : Bool

def wipeSteps (m : Member) : List Step :=
  if m.wipe then
    (if m.device.signatures.contains "zfs_member".toList then
      [{ argv := words ["zpool", "labelclear", "-f"] ++ [m.id], ignore_failure := true }] else []) ++
      [{ argv := words ["wipefs", "-a"] ++ [m.id] }]
  else []

def problemText (id : Text) (device : Device) (e : Eligibility) : Text :=
  id ++ " (".toList ++ device.path ++ "): ".toList ++ joined "; " (if e.hard.isEmpty then e.soft else e.hard) ++
    (if e.hard.isEmpty && !e.soft.isEmpty then " — pass wipe: true to clear it".toList else [])

/-- One listed link: the problems with it, and the disk unless there is none. -/
def lookAt (devices : List Device) (wipe : Bool) (id : Text) : List Text × Option Member :=
  match resolveByIdDevice devices id with
  | .error error => ([error], none)
  | .ok device =>
    let e := deviceEligibility device wipe
    (if e.eligible then [] else [problemText id device e], some ⟨id, device, e.needs_wipe && wipe⟩)

def createArgv (ashift : Nat) (props : List (Text × Text)) (name layout : Text)
    (groups : List (List Text)) : List Text :=
  words ["zpool", "create", "-o"] ++ ["ashift=".toList ++ number ashift] ++
    (props.flatMap fun prop => ["-O".toList, prop.1 ++ "=".toList ++ prop.2]) ++ [name] ++
    groups.flatMap fun g => (if layout = single then [] else [layout]) ++ g

def managedDatasets : List (Text × Text) :=
  [("incus".toList, "incus".toList), ("backups".toList, "backups".toList), ("exports".toList, "exports".toList)]

def validAshift (ashift : Option (Option Int)) : Option Nat :=
  match ashift with
  | none => some 12
  | some none => none
  | some (some n) => if 9 ≤ n ∧ n ≤ 16 then some n.toNat else none

def resolvedGroups (devices : List Device) (wipe : Bool) (groups : List (List Text)) : List (List Member) :=
  groups.map fun g => g.filterMap fun id => (lookAt devices wipe id).2

def problemsIn (devices : List Device) (wipe : Bool) (groups : List (List Text)) : List Text :=
  groups.flatten.flatMap fun id => (lookAt devices wipe id).1

/-- The plan, once everything has been checked. -/
def createPlan (name layout : Text) (ashift : Nat) (props : List (Text × Text))
    (stdin : Option Text) (managed : Bool)
    (resolved : List (List Member)) : Plan where
  op := "create_zpool".toList
  subject := name
  steps := resolved.flatten.flatMap wipeSteps ++
    [{
      argv := createArgv ashift props name layout (resolved.map fun g => g.map Member.id),
      stdin := stdin, timeout_ms := 600000 }] ++
    (if managed then managedDatasets.map fun ds =>
      { argv := words ["zfs", "create"] ++ [name ++ "/".toList ++ ds.2] } else []) ++
    [{ argv := words ["zpool", "status", "-P"] ++ [name], kind := .verify }]
  layout := some ⟨layout, resolved.map fun g => g.map fun m => ⟨m.id, m.device.path, m.wipe⟩⟩
  managed_datasets := if managed then managedDatasets.map fun ds => (ds.1, name ++ "/".toList ++ ds.2) else []
  reversal := "zpool destroy ".toList ++ name
  touches := resolved.flatten.map fun m => m.device.path

def planCreateZpool (inv : Inventory) (params : CreateParams) : Except Text Plan := do
  let name ← demand (validPoolName params.name)
    "name: 1–255 chars, letter first, [A-Za-z0-9_.:-], not a reserved vdev word".toList
  require (!inv.pools.contains name) ("pool ".toList ++ name ++ " already exists".toList)
  require (!inv.importable.any fun p => p.name == name)
    ("an exported pool named ".toList ++ name ++ " is importable — import_pool it or pick another name".toList)
  let lay ← validateLayout params
  let problems := problemsIn inv.devices params.wipe lay.groups
  require problems.isEmpty ("refused: ".toList ++ joined " | " problems)
  let ashift ← demand (validAshift params.ashift)
      "ashift must be an integer 9–16 (12 = 4 KiB sectors, the default)".toList
  let props ← (propsIn params).mapM validProp
  let encryption ← encryptionProps params.encryption
  return createPlan name lay.layout ashift (props ++ encryption.1) encryption.2 params.managed
    (resolvedGroups inv.devices params.wipe lay.groups)

structure ReplaceParams where
  pool : Option Text
  old_device : Option Text
  new_device : Option Text
  wipe : Bool

def findLeaf (pool : PoolStatus) (ref : Option Text) : Option Leaf :=
  let r := ref.getD []
  pool.leaves.find? fun d =>
    d.name == r || d.path == some r ||
      ((d.path.bind nonempty).any fun path => endsWith ('/' :: r) path) || endsWith ('/' :: d.name) r

def replacePlan (poolName oldName new_device : Text) (device : Device) (wipe : Bool) : Plan where
  op := "replace_disk".toList
  subject := poolName
  steps := wipeSteps ⟨new_device, device, wipe⟩ ++
    [{ argv := words ["zpool", "replace"] ++ [poolName, oldName, new_device], timeout_ms := 600000 },
      { argv := words ["zpool", "status", "-P"] ++ [poolName], kind := .verify }]
  reversal := "zpool detach ".toList ++ poolName ++ " ".toList ++ new_device ++ " (while resilvering)".toList
  touches := [device.path]

def orNone (param : Option Text) : Text := (param.bind nonempty).getD "(none)".toList

def planReplaceDisk (inv : Inventory) (params : ReplaceParams) : Except Text Plan := do
  let poolName := validPoolName params.pool
  let pool ← demand (inv.poolStatus.find? fun p => some p.name == poolName)
    ("pool ".toList ++ orNone params.pool ++ " is not imported".toList)
  let old ← demand (findLeaf pool params.old_device)
    ("old_device ".toList ++ orNone params.old_device ++ " is not a member of ".toList ++ pool.name ++
      " (zpool_status lists members by path or guid)".toList)
  let new_device := params.new_device.getD []
  let device ← resolveByIdDevice inv.devices new_device
  let e := deviceEligibility device params.wipe
  require e.eligible
    ("refused: ".toList ++ new_device ++ ": ".toList ++ joined "; " (if e.hard.isEmpty then e.soft else e.hard) ++
      (if e.hard.isEmpty then " — pass wipe: true to clear it".toList else []))
  return replacePlan pool.name old.name new_device device (e.needs_wipe && params.wipe)

/-- Whether the link is one of the device itself. -/
def carries (link : Text) (d : Device) : Bool := d.by_id.contains link

variable {devices : List Device} {d : Device} {p : Text} {device : Device} {wipe : Bool}
  {inv : Inventory} {plan : Plan}

theorem find_ok (found : resolveByIdDevice.find p devices = .ok d) :
    devices.find? (carries p) = some d := by
  induction devices with
  | nil => cases found
  | cons first rest ih =>
    unfold resolveByIdDevice.find at found
    split at found
    · next own =>
        cases found
        exact List.find?_cons_of_pos own
    · next misses =>
        split at found
        · cases found
        · have passed : (first :: rest).find? (carries p) = rest.find? (carries p) := List.find?_cons_of_neg misses
          rw [passed]
          exact ih found

theorem resolveByIdDevice_ok (resolved : resolveByIdDevice devices p = .ok d) :
    byIdPrefix.isPrefixOf p = true ∧ devices.find? (carries p) = some d := by
  unfold resolveByIdDevice at resolved
  split at resolved
  · next wellFormed =>
      simp only [Bool.and_eq_true] at wellFormed
      exact ⟨wellFormed.1.1, find_ok resolved⟩
  · cases resolved

theorem hardReasons_nil (clear : hardReasons device = []) :
    device.risk = [] ∧ device.os_reason = none ∧ device.mounted = false ∧ device.in_pool = none ∧
      device.has_holders = false ∧
      device.disk.read_only = false := by
  simp only [hardReasons, List.append_eq_nil_iff, Option.toList_eq_nil_iff, Option.map_eq_none_iff,
    ite_eq_right_iff, List.cons_ne_nil,
    imp_false, Bool.not_eq_true, and_assoc] at clear
  exact clear

theorem hard_of_eligible (eligible : (deviceEligibility device wipe).eligible = true) :
    hardReasons device = [] := by
  simp only [deviceEligibility, Bool.and_eq_true, List.isEmpty_iff] at eligible
  exact eligible.1

/-- A listed link without a problem belongs to a disk that may be taken. -/
theorem lookAt_free {id : Text} (clear : (lookAt devices wipe id).1 = []) :
    ∃ device, resolveByIdDevice devices id = .ok device ∧ (deviceEligibility device wipe).eligible = true ∧
      (lookAt devices wipe id).2 = some ⟨id, device, (deviceEligibility device wipe).needs_wipe && wipe⟩ := by
  unfold lookAt at clear ⊢
  cases found : resolveByIdDevice devices id with
  | error error => simp [found] at clear
  | ok device =>
    refine ⟨device, rfl, ?_, rfl⟩
    cases eligible : (deviceEligibility device wipe).eligible with
    | true => rfl
    | false => simp [found, eligible] at clear

theorem planCreateZpool_ok {params : CreateParams} (planned : planCreateZpool inv params = .ok plan) :
    ∃ name lay ashift props encryption, validPoolName params.name = some name ∧ validateLayout params = .ok lay ∧
      problemsIn inv.devices params.wipe lay.groups = [] ∧ (propsIn params).mapM validProp = .ok props ∧
      encryptionProps params.encryption = .ok encryption ∧
      plan = createPlan name lay.layout ashift (props ++ encryption.1) encryption.2 params.managed
        (resolvedGroups inv.devices params.wipe lay.groups) := by
  unfold planCreateZpool at planned
  obtain ⟨name, named, planned⟩ := bind_ok.mp planned
  obtain ⟨_, planned⟩ := require_bind_ok.mp planned
  obtain ⟨_, planned⟩ := require_bind_ok.mp planned
  obtain ⟨lay, laid, planned⟩ := bind_ok.mp planned
  obtain ⟨clear, planned⟩ := require_bind_ok.mp planned
  obtain ⟨ashift, _, planned⟩ := bind_ok.mp planned
  obtain ⟨props, valid, planned⟩ := bind_ok.mp planned
  obtain ⟨encryption, encrypted, planned⟩ := bind_ok.mp planned
  cases planned
  exact ⟨name, lay, ashift, props, encryption, demand_ok.mp named, laid, List.isEmpty_iff.mp clear,
    valid, encrypted, rfl⟩

theorem planReplaceDisk_ok {params : ReplaceParams} (planned : planReplaceDisk inv params = .ok plan) :
    ∃ pool old device, resolveByIdDevice inv.devices (params.new_device.getD []) = .ok device ∧
      (deviceEligibility device params.wipe).eligible = true ∧
      plan = replacePlan pool old (params.new_device.getD []) device
        ((deviceEligibility device params.wipe).needs_wipe && params.wipe) := by
  unfold planReplaceDisk at planned
  obtain ⟨pool, _, planned⟩ := bind_ok.mp planned
  obtain ⟨old, _, planned⟩ := bind_ok.mp planned
  obtain ⟨device, resolved, planned⟩ := bind_ok.mp planned
  obtain ⟨eligible, planned⟩ := require_bind_ok.mp planned
  cases planned
  exact ⟨pool.name, old.name, device, resolved, eligible, rfl⟩

end ProxyPilot.Zpool
