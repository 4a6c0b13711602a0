import ProxyPilot.Zpool.InUse

namespace ProxyPilot.Zpool

open Data

/-! # The disks behind the running system (`resolveOsDisks`)

A mirror, a stripe or a multipath device hangs in the tree of each of its members, so one
name can be found below several whole disks.  The index of the source holds one disk for
each name.
-/

/-- What a mount rests on: the path it was mounted from, or a leaf of its pool. -/
inductive Backing where
  | source (path : Text)
  | member (leaf : Leaf)
deriving DecidableEq

def backings (pools : List PoolStatus) (m : Mount) : List Backing :=
  if fromPool pools m then
    match pools.find? fun p => p.name == poolOfSource m.source with
    | some pool => pool.leaves.map .member
    | none => []
  else if "/dev/".toList.isPrefixOf m.source then [.source m.source]
  else []

/-- What `lsblk` calls the device at a path. -/
def kernelName (p : Text) : Text := dropFront "mapper/".toList (dropFront "/dev/".toList p)

def doubleHyphens (text : Text) : Text := text.flatMap fun c => if c = '-' then ['-', '-'] else [c]

/-- The mapper name of the logical volume at `/dev/<vg>/<lv>`. -/
def volumeName (p : Text) : Text :=
  let group := (dropFront "/dev/".toList p).takeWhile (· ≠ '/')
  let volume := (dropFront "/dev/".toList p).drop (group.length + 1)
  doubleHyphens group ++ '-' :: doubleHyphens volume

def namesOf (columns : Columns) : List Text := (str columns.kname).toList ++ (str columns.name).toList

/-- The text is a path, a name or a link of the block device. -/
def Denotes (byId : Text → List Text) (text : Text) (columns : Columns) : Prop :=
  pathOf columns = text ∨ kernelName text ∈ namesOf columns ∨ volumeName text ∈ namesOf columns ∨
    ∃ link ∈ byId (pathOf columns), linksTo text link = true

def Backing.On (byId : Text → List Text) (columns : Columns) : Backing → Prop
  | .source path => Denotes byId path columns
  | .member leaf => Denotes byId leaf.device columns ∨ Denotes byId leaf.name columns

/-- A block device that the backing means lies in the tree of the disk. -/
def Backing.Within (byId : Text → List Text) (root : BlockNode) (backing : Backing) : Prop :=
  ∃ below ∈ walkNode root, backing.On byId below

def called (k : Text) (root : BlockNode) : Bool := nameOf root.columns == some k

/-- A block device of this name is in the tree of the disk. -/
def holds (k : Text) (root : BlockNode) : Bool := (walkNode root).any fun below => (namesOf below).contains k

/-- A link of the disk itself or of one of its partitions. -/
def linked (byId : Text → List Text) (leafName : Text) (root : BlockNode) : Bool :=
  (root :: root.children.filter isPart).any fun node => (byId (pathOf node.columns)).any (linksTo leafName)

/-- The backing is a kernel name in the tree of the disk, or, for a leaf whose device has no
kernel name in any tree, a link of the disk or of one of its partitions. -/
def Backing.Plain (byId : Text → List Text) (disks : List BlockNode) (root : BlockNode) : Backing → Prop
  | .source path => holds (kernelName path) root
  | .member leaf => holds (kernelName leaf.device) root ∨
      (∀ other ∈ disks, holds (kernelName leaf.device) other = false) ∧ linked byId leaf.name root

/-- Each device behind a mount lies below one whole disk only, and is named plainly there. -/
def Sole (includeLoop : Bool) (forest : List BlockNode) (facts : Facts) : Prop :=
  let disks := forest.filter (isWholeDisk includeLoop)
  ∀ m ∈ facts.mounts, ∀ backing ∈ backings facts.pools m, ∀ root ∈ disks, backing.Within facts.byId root →
    backing.Plain facts.byId disks root ∧ ∀ other ∈ disks, backing.Within facts.byId other →
      shown (nameOf other.columns) = shown (nameOf root.columns)

section Decisions

variable (byId : Text → List Text) (disks : List BlockNode) (root : BlockNode)

instance (text : Text) (columns : Columns) : Decidable (Denotes byId text columns) :=
  inferInstanceAs (Decidable (_ ∨ _ ∨ _ ∨ _))

instance (columns : Columns) : DecidablePred (Backing.On byId columns)
  | .source _ => inferInstanceAs (Decidable (Denotes ..))
  | .member _ => inferInstanceAs (Decidable (_ ∨ _))

instance (backing : Backing) : Decidable (backing.Within byId root) :=
  inferInstanceAs (Decidable (∃ below ∈ walkNode root, _))

instance : DecidablePred (Backing.Plain byId disks root)
  | .source _ => inferInstanceAs (Decidable (_ = true))
  | .member _ => inferInstanceAs (Decidable (_ ∨ _ ∧ _))

instance (includeLoop : Bool) (forest : List BlockNode) (facts : Facts) :
    Decidable (Sole includeLoop forest facts) :=
  inferInstanceAs (Decidable (∀ m ∈ facts.mounts, _))

end Decisions

variable {k : Text} {root : BlockNode} {disks : List BlockNode} {byId : Text → List Text}

variable {columns : Columns} {d : LinkedDisk} {os : List (Text × Text)} {reason name : Text}

end ProxyPilot.Zpool
