import ProxyPilot.Zpool.Commands

namespace ProxyPilot.Zpool

open Data

/-- The inventory of the host, as the service assembles it. -/
def hostInventory (includeLoop : Bool) (forest : List BlockNode) (facts : Facts)
    (pools : List Text) : Inventory where
  devices := buildDeviceInventory facts (parseLsblk includeLoop forest)
  pools := pools
  importable := facts.importable
  poolStatus := facts.pools

def hostDisks (includeLoop : Bool) (forest : List BlockNode) (facts : Facts) : List LinkedDisk :=
  (parseLsblk includeLoop forest).map (linkDisk facts.byId)

/-- The paths and links of a disk and of its partitions. -/
def calledBy (facts : Facts) (root : BlockNode) : List Text :=
  (root :: root.children.filter isPart).flatMap fun node => pathOf node.columns :: facts.byId (pathOf node.columns)

/-- Nothing on the host uses the disk. -/
structure Unused (includeLoop : Bool) (forest : List BlockNode) (facts : Facts) (root : BlockNode) : Prop where
  unmounted : ∀ node ∈ walkNode root, mountpointsOf node = []
  unheld : ∀ child ∈ root.children, isPart child = true ∧ child.children = []
  writable : bool root.columns.ro = false
  safe : facts.risks (shown (nameOf root.columns)) = []
  data : ∀ m ∈ facts.mounts, ∀ d ∈ disksBehind (hostDisks includeLoop forest facts) facts.pools m,
    d.disk.name ≠ nameOf root.columns
  unowned : ∀ pool ∈ facts.pools, ∀ leaf ∈ pool.leaves, ∀ p ∈ calledBy facts root,
    leaf.device ≠ p ∧ leaf.device ≠ dropFront byIdPrefix p

theorem pathsOf_linkDisk (facts : Facts) (root : BlockNode) {p : Text} (member : p ∈ calledBy facts root) :
    p ∈ pathsOf (linkDisk facts.byId (diskOf root)) := by
  simpa [pathsOf, linkDisk, diskOf, partitionOf, calledBy, List.flatMap_map] using member

variable {root : BlockNode} {forest : List BlockNode} {includeLoop : Bool} {device : Device}
  {inv : Inventory} {plan : Plan} {link : Text}

theorem unmounted_of_free (free : isMounted (diskOf root) = false) (bare : (diskOf root).bare = true) :
    ∀ node ∈ walkNode root, mountpointsOf node = [] := by
  intro node member
  simp only [isMounted, diskOf, Bool.or_eq_false_iff, Bool.not_eq_false', List.isEmpty_iff,
    List.any_map, List.any_eq_false,
    List.mem_filter] at free
  rcases walk_of_bare bare member with rfl | ⟨child, childMember, part, rfl⟩
  · exact free.1.1
  · have partition := free.1.2 child ⟨childMember, part⟩
    simp only [Function.comp_apply, partitionOf, Bool.or_eq_true, Bool.not_eq_true', not_or,
      Bool.not_eq_false] at partition
    simpa using partition.1

theorem unused_of_eligible {facts : Facts}
    (built : device =
    inventoryDevice facts (resolveOsDisks facts.mounts (hostDisks includeLoop forest facts) facts.pools)
      (linkDisk facts.byId (diskOf root)))
    (clear : hardReasons device = []) : Unused includeLoop forest facts root := by
  obtain ⟨safe, notOs, free, outside, unheld, writable⟩ := hardReasons_nil clear
  subst built
  have bare := bare_of_no_holders unheld
  refine ⟨unmounted_of_free free bare, fun child member => children_of_bare bare member, writable, safe, ?_, ?_⟩
  · intro m member d behind same
    have marked := resolveOsDisks_marks member behind
    rw [same] at marked
    rw [show List.lookup (shown (nameOf root.columns)) _ = none from notOs] at marked
    cases marked
  · intro pool poolMember leaf leafMember p called
    have none := List.findSome?_eq_none_iff.mp outside p (pathsOf_linkDisk facts root called)
    exact owningPool_none none poolMember leafMember

/-- A device of the inventory is a whole disk of the forest. -/
theorem mem_inventory {facts : Facts}
    (member : device ∈ buildDeviceInventory facts (parseLsblk includeLoop forest)) :
    ∃ root ∈ forest, isWholeDisk includeLoop root = true ∧
      device = inventoryDevice facts (resolveOsDisks facts.mounts (hostDisks includeLoop forest facts) facts.pools)
        (linkDisk facts.byId (diskOf root)) := by
  simp only [buildDeviceInventory, parseLsblk, List.mem_map, List.mem_filter] at member
  obtain ⟨_, ⟨_, ⟨root, ⟨rootMember, whole⟩, rfl⟩, rfl⟩, rfl⟩ := member
  exact ⟨root, rootMember, whole, rfl⟩

/-- The links that a plan takes are eligible disks of the inventory. -/
theorem create_eligible {params : CreateParams} (planned : planCreateZpool inv params = .ok plan)
    (member : link ∈ plan.taken) :
    ∃ device, resolveByIdDevice inv.devices link = .ok device ∧ hardReasons device = [] := by
  obtain ⟨name, lay, ashift, props, encryption, named, laid, clear, valid, encrypted, rfl⟩ :=
    planCreateZpool_ok planned
  have members : ∀ m ∈ (resolvedGroups inv.devices params.wipe lay.groups).flatten, link = m.id →
      ∃ device, resolveByIdDevice inv.devices link = .ok device ∧ hardReasons device = [] := by
    intro m listed same
    rw [same]
    exact ⟨m.device, mem_resolvedGroups clear listed⟩
  rcases taken_createPlan member with ⟨m, listed, same⟩ | given
  · exact members m listed same
  · rw [create_arguments named laid clear valid encrypted, ← resolvedGroups_ids clear, ← List.map_flatten] at given
    obtain ⟨m, listed, same⟩ := List.mem_map.mp given
    exact members m listed same.symm

theorem replace_eligible {params : ReplaceParams} (planned : planReplaceDisk inv params = .ok plan)
    (member : link ∈ plan.taken) :
    ∃ device, resolveByIdDevice inv.devices link = .ok device ∧ hardReasons device = [] := by
  obtain ⟨pool, old, device, resolved, eligible, rfl⟩ := planReplaceDisk_ok planned
  rw [taken_replacePlan member]
  exact ⟨device, resolved, hard_of_eligible eligible⟩

/-- A plan that gives disks to a pool. -/
def Planned (inv : Inventory) (plan : Plan) : Prop :=
  (∃ params, planCreateZpool inv params = .ok plan) ∨ ∃ params, planReplaceDisk inv params = .ok plan

/-- Every device that a plan wipes or gives to a pool resolves to a disk that nothing uses. -/
theorem plans_take_unused_disks (includeLoop : Bool) (forest : List BlockNode) (facts : Facts)
    (pools : List Text) (plan : Plan)
    (planned : Planned (hostInventory includeLoop forest facts pools) plan) :
    ∀ link ∈ plan.taken, ∃ root ∈ forest, isWholeDisk includeLoop root = true ∧
      (∃ device, resolveByIdDevice (hostInventory includeLoop forest facts pools).devices link = .ok device ∧
        device.disk = diskOf root) ∧
      Unused includeLoop forest facts root := by
  intro link member
  have resolved : ∃ device,
      resolveByIdDevice (hostInventory includeLoop forest facts pools).devices link = .ok device ∧
      hardReasons device = [] := by
    rcases planned with ⟨params, planned⟩ | ⟨params, planned⟩
    · exact create_eligible planned member
    · exact replace_eligible planned member
  obtain ⟨device, resolved, clear⟩ := resolved
  obtain ⟨root, rootMember, whole, built⟩ :=
    mem_inventory (List.mem_of_find?_eq_some (resolveByIdDevice_ok resolved).2)
  refine ⟨root, rootMember, whole, ⟨device, resolved, ?_⟩, unused_of_eligible built clear⟩
  rw [built]
  rfl

private def blank : Columns where
  name := .null
  kname := .null
  path := .null
  type := .null
  wwn := .null
  ro := .boolean false
  fstype := .null
  pttype := .null
  mountpoint := .null
  mountpoints := some []

private def sda : BlockNode :=
  .node { blank with kname := .text "sda".toList, type := .text "disk".toList, fstype := .text "ext4".toList } []

/-- The system disk: the root volume is two levels below its partition. -/
private def sdb : BlockNode :=
  .node { blank with kname := .text "sdb".toList, type := .text "disk".toList }
    [.node { blank with kname := .text "sdb1".toList, type := .text "part".toList }
      [.node { blank with kname := .text "dm-0".toList, type := .text "crypt".toList }
        [.node { blank with
          kname := .text "dm-1".toList, type := .text "lvm".toList,
          mountpoints := some [.text "/".toList] } []]]]

private def links : Text → List Text := fun p =>
  if p = "/dev/sda".toList then ["/dev/disk/by-id/ata-A".toList] else if p = "/dev/sdb".toList
    then ["/dev/disk/by-id/ata-B".toList] else []

private def facts : Facts where
  byId := links
  mounts := [⟨"/".toList, "/dev/mapper/dm-1".toList, some "ext4".toList⟩]
  importable := []
  pools := []
  risks := fun _ => []

private def onDisk (link : Text) : CreateParams where
  name := some "tank".toList
  layout := none
  vdevs := none
  devices := some [link]
  wipe := true
  ashift := none
  compression := none
  atime := none
  xattr := none
  mountpoint := none
  encryption := .omitted
  managed := true

theorem plans_take_unused_disks_spare : ∃ plan,
    planCreateZpool (hostInventory false [sdb, sda] facts []) (onDisk "/dev/disk/by-id/ata-A".toList) = .ok plan ∧
      plan.taken = ["/dev/disk/by-id/ata-A".toList, "/dev/disk/by-id/ata-A".toList] ∧
      (planCreateZpool (hostInventory false [sdb, sda] facts [])
        (onDisk "/dev/disk/by-id/ata-B".toList)).toOption = none ∧
      ∀ link ∈ plan.taken, ∃ root ∈ [sdb, sda], isWholeDisk false root = true ∧
        (∃ device, resolveByIdDevice (hostInventory false [sdb, sda] facts []).devices link =
          .ok device ∧ device.disk = diskOf root) ∧
        Unused false [sdb, sda] facts root := by
  have evaluated :
      ((planCreateZpool (hostInventory false [sdb, sda] facts [])
        (onDisk "/dev/disk/by-id/ata-A".toList)).toOption.map Plan.taken =
        some ["/dev/disk/by-id/ata-A".toList, "/dev/disk/by-id/ata-A".toList]) ∧
      (planCreateZpool (hostInventory false [sdb, sda] facts []) (onDisk "/dev/disk/by-id/ata-B".toList)).toOption = none := by
    decide +kernel
  cases planned :
    planCreateZpool (hostInventory false [sdb, sda] facts []) (onDisk "/dev/disk/by-id/ata-A".toList) with
  | error error =>
    rw [planned] at evaluated
    cases evaluated.1
  | ok plan =>
    rw [planned] at evaluated
    exact ⟨plan, rfl, Option.some.inj evaluated.1, evaluated.2,
      plans_take_unused_disks false [sdb, sda] facts [] plan (Or.inl ⟨_, planned⟩)⟩

end ProxyPilot.Zpool
