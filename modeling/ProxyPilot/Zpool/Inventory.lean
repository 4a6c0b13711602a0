import ProxyPilot.Data.Text

namespace ProxyPilot.Zpool

open Data

/-! # The block devices of the host (`parse.js`)

`lsblk -J` prints a forest: a disk, its partitions, and below them whatever was built on
top of them.  The parser keeps the disks, their partitions and one level of holders.

The disks of the host joined with what else is known about them: their `/dev/disk/by-id`
links, the mounts of the operating system, the leaves of the imported pools and the pools
that could be imported.
-/

abbrev Text := List Char

/-- A value of the JSON: numbers are read through the text they print as. -/
inductive Cell where
  | null
  | boolean (value : Bool)
  | text (value : Text)
deriving DecidableEq

def Cell.string : Cell → Option Text
  | .null => none
  | .boolean true => some "true".toList
  | .boolean false => some "false".toList
  | .text value => some value

def bool : Cell → Bool
  | .null => false
  | .boolean value => value
  | .text value => ["1".toList, "true".toList, "yes".toList, "on".toList].contains ((trim value).map Char.toLower)

def nonempty (text : Text) : Option Text := if text = [] then none else some text

def str (cell : Cell) : Option Text := cell.string.bind fun value => nonempty (trim value)

/-- The columns of a node that the inventory reads. -/
structure Columns where
  name : Cell
  kname : Cell
  path : Cell
  type : Cell
  wwn : Cell
  ro : Cell
  fstype : Cell
  pttype : Cell
  mountpoint : Cell
  /-- Absent before util-linux knew the column. -/
  mountpoints : Option (List Cell)

inductive BlockNode where
  | node (columns : Columns) (children : List BlockNode)

namespace BlockNode

def columns : BlockNode → Columns
  | .node columns _ => columns

def children : BlockNode → List BlockNode
  | .node _ children => children

end BlockNode

mutual

/-- A node and everything below it. -/
def walkNode : BlockNode → List Columns
  | .node columns children => columns :: walkNodes children

def walkNodes : List BlockNode → List Columns
  | [] => []
  | child :: rest => walkNode child ++ walkNodes rest

end

theorem walkNode_eq (root : BlockNode) : walkNode root = root.columns :: walkNodes root.children := by
  cases root
  rfl

variable {below : Columns} {root : BlockNode} {os : List (Text × Text)} {reason name : Text}

theorem mem_walkNodes {nodes : List BlockNode} :
    below ∈ walkNodes nodes ↔ ∃ node ∈ nodes, below ∈ walkNode node := by
  induction nodes with
  | nil => simp [walkNodes]
  | cons node rest ih => simp [walkNodes, ih]

/-- A JSON value that counts as true, as a string. -/
def truthy : Cell → Option Text
  | .null => none
  | .boolean false => none
  | .boolean true => some "true".toList
  | .text value => nonempty value

def mountpointsOf (columns : Columns) : List Text :=
  let out := (columns.mountpoints.getD []).filterMap truthy
  match truthy columns.mountpoint with
  | some mountpoint => if out.contains mountpoint then out else out ++ [mountpoint]
  | none => out

def nameOf (columns : Columns) : Option Text := str columns.kname <|> str columns.name

/-- A name as a template string shows it. -/
def shown (name : Option Text) : Text := name.getD "null".toList

def pathOf (columns : Columns) : Text := (str columns.path).getD ("/dev/".toList ++ shown (nameOf columns))

structure Holder where
  name : Option Text
  type : Option Text
  fstype : Option Text
  mountpoints : List Text

structure Partition where
  name : Option Text
  path : Text
  fstype : Option Text
  mountpoints : List Text
  holders : List Holder

structure Disk where
  name : Option Text
  path : Text
  wwn : Option Text
  read_only : Bool
  fstype : Option Text
  pttype : Option Text
  mountpoints : List Text
  partitions : List Partition
  holders : List Holder
  /-- Every other kernel name at or below the disk. -/
  contains : List Text

def holderOf (node : BlockNode) : Holder where
  name := nameOf node.columns
  type := str node.columns.type
  fstype := str node.columns.fstype
  mountpoints := mountpointsOf node.columns

def isPart (node : BlockNode) : Bool := node.columns.type == .text "part".toList

def partitionOf (node : BlockNode) : Partition where
  name := nameOf node.columns
  path := pathOf node.columns
  fstype := str node.columns.fstype
  mountpoints := mountpointsOf node.columns
  holders := node.children.map holderOf

def addName (own : Option Text) (names : List Text) (name : Option Text) : List Text :=
  match name with
  | some k => if own = some k ∨ names.contains k then names else names ++ [k]
  | none => names

def containedNames (root : BlockNode) : List Text :=
  (walkNode root).foldl (fun names columns =>
    [str columns.kname, str columns.name].foldl (addName (nameOf root.columns)) names) []

def diskOf (root : BlockNode) : Disk where
  name := nameOf root.columns
  path := pathOf root.columns
  wwn := str root.columns.wwn
  read_only := bool root.columns.ro
  fstype := str root.columns.fstype
  pttype := str root.columns.pttype
  mountpoints := mountpointsOf root.columns
  partitions := (root.children.filter isPart).map partitionOf
  holders := (root.children.filter fun child => !isPart child).map holderOf
  contains := containedNames root

def isWholeDisk (includeLoop : Bool) (root : BlockNode) : Bool :=
  root.columns.type == .text "disk".toList || (includeLoop && root.columns.type == .text "loop".toList)

def parseLsblk (includeLoop : Bool) (forest : List BlockNode) : List Disk :=
  (forest.filter (isWholeDisk includeLoop)).map diskOf

/-- Nothing was built on top of the disk or of a partition of it. -/
def Disk.bare (disk : Disk) : Bool := disk.holders.isEmpty && disk.partitions.all fun part => part.holders.isEmpty

/-- Below a bare disk there are partitions and nothing else. -/
theorem children_of_bare (bare : (diskOf root).bare = true) {child : BlockNode} (member : child ∈ root.children) :
    isPart child = true ∧ child.children = [] := by
  simp only [Disk.bare, diskOf, Bool.and_eq_true, List.isEmpty_iff, List.map_eq_nil_iff,
    List.filter_eq_nil_iff, List.all_map, List.all_eq_true,
    List.mem_filter] at bare
  have part : isPart child = true := by simpa using bare.1 child member
  have childless := bare.2 child ⟨member, part⟩
  exact ⟨part, by simpa [partitionOf] using childless⟩

theorem walk_of_bare (bare : (diskOf root).bare = true) (member : below ∈ walkNode root) :
    below = root.columns ∨ ∃ child ∈ root.children, isPart child = true ∧ below = child.columns := by
  rw [walkNode_eq] at member
  rcases List.mem_cons.mp member with own | deeper
  · exact Or.inl own
  · obtain ⟨child, childMember, member⟩ := mem_walkNodes.mp deeper
    obtain ⟨part, childless⟩ := children_of_bare bare childMember
    rw [walkNode_eq, childless] at member
    exact Or.inr ⟨child, childMember, part, by simpa [walkNodes] using member⟩

def dropFront (front text : Text) : Text := if front.isPrefixOf text then text.drop front.length else text

def endsWith (tail text : Text) : Bool := tail.isSuffixOf text

def byIdPrefix : Text := "/dev/disk/by-id/".toList

structure Leaf where
  name : Text
  path : Option Text
deriving DecidableEq

/-- `dev.path || dev.name` -/
def Leaf.device (leaf : Leaf) : Text := (leaf.path.bind nonempty).getD leaf.name

structure Vdev where
  name : Text
  type : Text
  devices : List Leaf

/-- An imported pool: ZFS gives every pool a name. -/
structure PoolStatus where
  name : Text
  vdevs : List Vdev
  named : name ≠ []

def PoolStatus.leaves (pool : PoolStatus) : List Leaf := pool.vdevs.flatMap Vdev.devices

structure Mount where
  target : Text
  source : Text
  fstype : Option Text

structure ImportablePool where
  name : Text
  id : Option Text
  state : Option Text
  devices : List Text

/-- What the host layer read beside `lsblk`. -/
structure Facts where
  byId : Text → List Text
  mounts : List Mount
  importable : List ImportablePool
  pools : List PoolStatus
  /-- The hard reasons of `deviceRisks`, by disk name. -/
  risks : Text → List Text

structure LinkedPartition where
  part : Partition
  by_id : List Text

structure LinkedDisk where
  disk : Disk
  by_id : List Text
  partitions : List LinkedPartition

def linkDisk (byId : Text → List Text) (disk : Disk) : LinkedDisk where
  disk := disk
  by_id := byId disk.path
  partitions := disk.partitions.map fun part => ⟨part, byId part.path⟩

def byKname (devices : List LinkedDisk) : List (Option Text × LinkedDisk) :=
  devices.foldl (fun table d =>
    d.disk.contains.foldl (fun table k => if (table.lookup (some k)).isSome then table else (some k, d) :: table)
      ((d.disk.name, d) :: table)) []

def diskForPath (devices : List LinkedDisk) (p : Text) : Option LinkedDisk :=
  let base := dropFront "mapper/".toList (dropFront "/dev/".toList p)
  (byKname devices).lookup (some base) <|>
    devices.find? fun d =>
      d.disk.holders.any (fun h => h.name == some base) || d.partitions.any fun p =>
        p.part.holders.any fun h => h.name == some base

def linksTo (leafName link : Text) : Bool := endsWith ('/' :: leafName) link || link == leafName

/-- A trailing `-part` with its number taken off. -/
def dropPart (text : Text) : Text :=
  let digits := text.reverse.takeWhile Char.isDigit
  let front := text.reverse.drop digits.length
  if digits ≠ [] ∧ "-part".toList.reverse.isPrefixOf front then (front.drop 5).reverse else text

def baseName (text : Text) : Text := (text.reverse.takeWhile (· ≠ '/')).reverse

def diskByIdLeaf (devices : List LinkedDisk) (leafName : Text) : Option LinkedDisk :=
  let base := dropPart (baseName leafName)
  (devices.find? fun d => d.by_id.any (linksTo leafName) || d.partitions.any fun p =>
    p.by_id.any (linksTo leafName)) <|>
    -- last resort: the leaf is a by-id name whose base matches a kernel name
    devices.find? fun d => d.disk.name == some base || (d.disk.wwn.map ("wwn-".toList ++ ·)) == some base

def poolOfSource (source : Text) : Text := source.takeWhile (· ≠ '/')

def fromPool (pools : List PoolStatus) (m : Mount) : Bool :=
  m.fstype == some "zfs".toList || (m.source.head? != some '/' && m.source.contains '/') ||
    (m.source.head? != some '/' && pools.any fun p => p.name == poolOfSource m.source)

/-- The disks that back one mount. -/
def disksBehind (devices : List LinkedDisk) (pools : List PoolStatus) (m : Mount) : List LinkedDisk :=
  if fromPool pools m then
    match pools.find? fun p => p.name == poolOfSource m.source with
    | some pool => pool.leaves.filterMap fun dev => diskForPath devices dev.device <|> diskByIdLeaf devices dev.name
    | none => []
  else if "/dev/".toList.isPrefixOf m.source then (diskForPath devices m.source).toList
  else []

def reasonFor (pools : List PoolStatus) (m : Mount) : Text :=
  if fromPool pools m then "backs ".toList ++ m.target ++ " (zfs pool ".toList ++
    poolOfSource m.source ++ ")".toList
  else "backs ".toList ++ m.target

def mark (reason : Text) (os : List (Text × Text)) (d : LinkedDisk) : List (Text × Text) :=
  if (os.lookup (shown d.disk.name)).isSome then os else os ++ [(shown d.disk.name, reason)]

def resolveOsDisks (mounts : List Mount) (devices : List LinkedDisk) (pools : List PoolStatus) :
    List (Text × Text) :=
  mounts.foldl (fun os m => (disksBehind devices pools m).foldl (mark (reasonFor pools m)) os) []

structure Device extends LinkedDisk where
  os_reason : Option Text
  signatures : List Text
  mounted : Bool
  mounted_at : List Text
  in_pool : Option Text
  importable_pool : Option ImportablePool
  has_holders : Bool
  risk : List Text

def Device.path (d : Device) : Text := d.disk.path

def signaturesOf (disk : Disk) : List Text :=
  (disk.fstype.toList ++ (disk.pttype.map (· ++ "-partition-table".toList)).toList ++
    disk.partitions.filterMap Partition.fstype).eraseDups

def isMounted (disk : Disk) : Bool :=
  !disk.mountpoints.isEmpty || (disk.partitions.any fun p => !p.mountpoints.isEmpty ||
    p.holders.any fun h => !h.mountpoints.isEmpty) ||
    disk.holders.any fun h => !h.mountpoints.isEmpty

def mountedAt (disk : Disk) : List Text :=
  disk.mountpoints ++ (disk.partitions.flatMap fun p => p.mountpoints ++ p.holders.flatMap Holder.mountpoints) ++
    disk.holders.flatMap Holder.mountpoints

/-- Everything the disk and its partitions are called by. -/
def pathsOf (d : LinkedDisk) : List Text :=
  [d.disk.path] ++ d.by_id ++ d.partitions.flatMap fun p => [p.part.path] ++ p.by_id

/-- Which imported pool owns which leaf: the pool that sets a leaf last. -/
def memberOf (pools : List PoolStatus) : List (Text × Text) :=
  (pools.flatMap fun p => p.leaves.map fun dev => (dev.device, p.name)).reverse

def importableOf (importable : List ImportablePool) : List (Text × ImportablePool) :=
  (importable.flatMap fun p => p.devices.map fun dev => (dev, p)).reverse

def owningPool (pools : List PoolStatus) (p : Text) : Option Text :=
  ((memberOf pools).lookup p).bind nonempty <|> ((memberOf pools).lookup (dropFront byIdPrefix p)).bind nonempty

def importableAt (importable : List ImportablePool) (p : Text) : Option ImportablePool :=
  (importableOf importable).lookup p <|> (importableOf importable).lookup (dropFront byIdPrefix p) <|>
    (importableOf importable).lookup (dropFront "/dev/".toList p)

def hasHolders (disk : Disk) : Bool := !disk.holders.isEmpty || disk.partitions.any fun p => !p.holders.isEmpty

def inventoryDevice (facts : Facts) (osMap : List (Text × Text)) (d : LinkedDisk) : Device where
  toLinkedDisk := d
  os_reason := osMap.lookup (shown d.disk.name)
  signatures := signaturesOf d.disk
  mounted := isMounted d.disk
  mounted_at := mountedAt d.disk
  in_pool := (pathsOf d).findSome? (owningPool facts.pools)
  importable_pool := (pathsOf d).findSome? (importableAt facts.importable)
  has_holders := hasHolders d.disk
  risk := facts.risks (shown d.disk.name)

/-- The devices, with the risks that the service attaches to them. -/
def buildDeviceInventory (facts : Facts) (lsblk : List Disk) : List Device :=
  let devices := lsblk.map (linkDisk facts.byId)
  devices.map (inventoryDevice facts (resolveOsDisks facts.mounts devices facts.pools))

theorem bare_of_no_holders {disk : Disk} (none : hasHolders disk = false) : disk.bare = true := by
  simp only [hasHolders, Bool.or_eq_false_iff, Bool.not_eq_false', List.any_eq_false, Bool.not_eq_true'] at none
  simpa [Disk.bare, none.1] using none.2

variable {pools : List PoolStatus}

variable {pool : PoolStatus} {leaf : Leaf} {d : LinkedDisk}

theorem mem_memberOf (poolMember : pool ∈ pools) (leafMember : leaf ∈ pool.leaves) :
    ∃ name, (memberOf pools).lookup leaf.device = some name ∧ name ≠ [] := by
  have listed : (leaf.device, pool.name) ∈ memberOf pools := by
    simp only [memberOf, List.mem_reverse, List.mem_flatMap, List.mem_map]
    exact ⟨pool, poolMember, leaf, leafMember, rfl⟩
  cases found : (memberOf pools).lookup leaf.device with
  | none => exact absurd (by simpa using List.lookup_eq_none_iff.mp found _ listed) (fun same : False => same)
  | some name =>
    obtain ⟨before, after, same, _⟩ := List.lookup_eq_some_iff.mp found
    have entry : (leaf.device, name) ∈ memberOf pools := by
      rw [same]
      simp
    simp only [memberOf, List.mem_reverse, List.mem_flatMap, List.mem_map] at entry
    obtain ⟨owner, _, _, _, pair⟩ := entry
    obtain ⟨_, rfl⟩ := Prod.mk.inj pair
    exact ⟨owner.name, rfl, owner.named⟩

/-- A path with no owning pool is the text of no leaf, as it stands or as a bare link name. -/
theorem owningPool_none {p : Text} (free : owningPool pools p = none) (poolMember : pool ∈ pools)
    (leafMember : leaf ∈ pool.leaves) : leaf.device ≠ p ∧ leaf.device ≠ dropFront byIdPrefix p := by
  obtain ⟨name, found, named⟩ := mem_memberOf poolMember leafMember
  simp only [owningPool, Option.orElse_eq_orElse, Option.orElse_eq_or, Option.or_eq_none_iff,
    Option.bind_eq_none_iff] at free
  constructor
  · rintro rfl
    have := free.1 name found
    simp [nonempty, named] at this
  · intro same
    rw [same] at found
    have := free.2 name found
    simp [nonempty, named] at this

theorem lookup_mark (known : (os.lookup name).isSome) :
    ((mark reason os d).lookup name).isSome := by
  unfold mark
  split
  · exact known
  · rw [List.lookup_append]
    simpa using Or.inl known

theorem lookup_marked (reason : Text) (os : List (Text × Text)) (d : LinkedDisk) :
    ((mark reason os d).lookup (shown d.disk.name)).isSome := by
  unfold mark
  split
  · assumption
  · rw [List.lookup_append]
    simp

theorem lookup_marks {disks : List LinkedDisk}
    (known : (os.lookup name).isSome ∨ ∃ d ∈ disks, shown d.disk.name = name) :
    ((disks.foldl (mark reason) os).lookup name).isSome := by
  induction disks generalizing os with
  | nil => simpa using known
  | cons d rest ih =>
    apply ih
    rcases known with known | ⟨other, member, rfl⟩
    · exact Or.inl (lookup_mark known)
    · rcases List.mem_cons.mp member with rfl | later
      · exact Or.inl (lookup_marked reason os other)
      · exact Or.inr ⟨other, later, rfl⟩

/-- Every disk behind a mount is named by the result. -/
theorem resolveOsDisks_marks {mounts : List Mount} {devices : List LinkedDisk} {m : Mount} (member : m ∈ mounts)
    (behind : d ∈ disksBehind devices pools m) :
    ((resolveOsDisks mounts devices pools).lookup (shown d.disk.name)).isSome := by
  have folded : ∀ (ms : List Mount) (os : List (Text × Text)), ((os.lookup (shown d.disk.name)).isSome ∨ m ∈ ms) →
      ((ms.foldl (fun os m => (disksBehind devices pools m).foldl (mark (reasonFor pools m)) os)
        os).lookup (shown d.disk.name)).isSome := by
    intro ms
    induction ms with
    | nil => simp
    | cons first rest ih =>
      intro os known
      apply ih
      rcases known with known | member
      · exact Or.inl (lookup_marks (Or.inl known))
      · rcases List.mem_cons.mp member with rfl | later
        · exact Or.inl (lookup_marks (Or.inr ⟨d, behind, rfl⟩))
        · exact Or.inr later
  exact folded mounts [] (Or.inr member)

end ProxyPilot.Zpool
