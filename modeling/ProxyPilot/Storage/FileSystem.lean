import ProxyPilot.Data.Table

namespace ProxyPilot.Storage

open Data

/-! # A tree of files

Paths are absolute and resolved, with the innermost name first.  `secure` says
that the entry belongs to the process's user and has no group or other bits.
-/

abbrev Path := List String

inductive Node (γ : Type u) where
  | directory (secure : Bool)
  | file (secure : Bool) (content : γ)
  /-- A symbolic link or a special file; no operation below follows it. -/
  | other
deriving DecidableEq

structure Entry (γ : Type u) where
  path : Path
  node : Node γ

instance {γ : Type u} : Keyed (Entry γ) Path := ⟨Entry.path⟩

def nodeAt {γ : Type u} (entries : Table (Entry γ)) (path : Path) : Option (Node γ) :=
  (entries.get path).map Entry.node

/-- Every entry but the root lies in a directory. -/
structure FileSystem (γ : Type u) where
  entries : Table (Entry γ)
  rooted : ∀ name parent, (nodeAt entries (name :: parent)).isSome →
    ∃ secure, nodeAt entries parent = some (.directory secure)

inductive Errno where
  | eexist
  | enoent
  | enotdir
  | eisdir
  | enotempty

variable {γ : Type u}

theorem nodeAt_put (entries : Table (Entry γ)) (entry : Entry γ) (path : Path) :
    nodeAt (entries.put entry) path = if path = entry.path then some entry.node else nodeAt entries path := by
  rw [nodeAt, Table.get_put]
  change Option.map Entry.node (if path = entry.path then some entry else entries.get path) = _
  split <;> rfl

theorem nodeAt_erase (entries : Table (Entry γ)) (erased path : Path) :
    nodeAt (entries.erase erased) path = if path = erased then none else nodeAt entries path := by
  rw [nodeAt, Table.get_erase]
  split <;> rfl

namespace FileSystem

def node (fs : FileSystem γ) (path : Path) : Option (Node γ) := nodeAt fs.entries path

def isDirectory (fs : FileSystem γ) (path : Path) : Bool :=
  fs.node path matches some (.directory _)

variable {fs : FileSystem γ} {path : Path} {parent : Path} {name : String}

theorem isDirectory_iff :
    fs.isDirectory path = true ↔ ∃ secure, fs.node path = some (.directory secure) := by
  unfold isDirectory
  cases found : fs.node path with
  | none => simp
  | some node => cases node <;> simp

/-- The root directory alone. -/
def root : FileSystem γ where
  entries := ⟨[⟨[], .directory false⟩], by simp⟩
  rooted name parent present := by simp [nodeAt, Table.get, Keyed.key] at present

/-- Nothing lies in what is not a directory. -/
theorem node_child_eq_none (notDirectory : fs.isDirectory parent = false)
    (name : String) : fs.node (name :: parent) = none := by
  cases found : fs.node (name :: parent) with
  | none => rfl
  | some node =>
    have present : (nodeAt fs.entries (name :: parent)).isSome = true := by
      rw [show nodeAt fs.entries (name :: parent) = some node from found]
      rfl
    have directory : fs.isDirectory parent = true := isDirectory_iff.mpr (fs.rooted name parent present)
    rw [notDirectory] at directory
    contradiction

/-- Writes a node into a directory, vacant nothing or vacant a leaf. -/
def place (fs : FileSystem γ) (name : String) (parent : Path) (node : Node γ)
    (inside : fs.isDirectory parent = true) (leaf : fs.isDirectory (name :: parent) = false) :
    FileSystem γ where
  entries := fs.entries.put ⟨name :: parent, node⟩
  rooted inner outer present := by
    rw [nodeAt_put] at present ⊢
    split
    case isTrue same =>
      -- An entry below the written one would lie in a leaf.
      subst outer
      have absent := fs.node_child_eq_none leaf inner
      rw [if_neg (by simp)] at present
      rw [show nodeAt fs.entries _ = none from absent] at present
      contradiction
    case isFalse different =>
      split at present
      case isTrue same =>
        cases same
        exact isDirectory_iff.mp inside
      case isFalse => exact fs.rooted inner outer present

/-- Takes an entry out that has nothing below it. -/
def drop (fs : FileSystem γ) (path : Path) (leaf : ∀ name, fs.node (name :: path) = none) :
    FileSystem γ where
  entries := fs.entries.erase path
  rooted inner outer present := by
    rw [nodeAt_erase] at present ⊢
    split at present
    · contradiction
    · split
      case isTrue same =>
        subst outer
        rw [show nodeAt fs.entries _ = none from leaf inner] at present
        contradiction
      case isFalse => exact fs.rooted inner outer present

theorem node_place (fs : FileSystem γ) {node : Node γ}
    (inside : fs.isDirectory parent = true) (leaf : fs.isDirectory (name :: parent) = false) (path : Path) :
    (fs.place name parent node inside leaf).node path =
      if path = name :: parent then some node else fs.node path :=
  nodeAt_put _ _ _

theorem node_drop (fs : FileSystem γ) {dropped : Path} (leaf : ∀ name, fs.node (name :: dropped) = none)
    (path : Path) : (fs.drop dropped leaf).node path = if path = dropped then none else fs.node path :=
  nodeAt_erase _ _ _

/-- Writes a node where nothing is. -/
def add (fs : FileSystem γ) (path : Path) (node : Node γ) : Except Errno (FileSystem γ) :=
  match path with
  | [] => .error .eexist
  | name :: parent =>
    if absent : fs.node (name :: parent) = none then
      if inside : fs.isDirectory parent = true then
        .ok (fs.place name parent node inside (by simp [isDirectory, absent]))
      else .error .enoent
    else .error .eexist

def mkdir (fs : FileSystem γ) (path : Path) : Except Errno (FileSystem γ) := fs.add path (.directory true)

/-- `O_CREAT | O_EXCL`, with the content it is given before it is closed. -/
def create (fs : FileSystem γ) (path : Path) (content : γ) : Except Errno (FileSystem γ) :=
  fs.add path (.file true content)

def unlink (fs : FileSystem γ) (path : Path) : Except Errno (FileSystem γ) :=
  match present : fs.node path with
  | none => .error .enoent
  | some (.directory _) => .error .eisdir
  | some (.file _ _) | some .other =>
    .ok (fs.drop path (fs.node_child_eq_none (by simp [isDirectory, present])))

/-- Whether something lies in the directory. -/
def occupied (fs : FileSystem γ) (path : Path) : Bool := fs.entries.rows.any (·.path.tail? = some path)

theorem node_child_of_unoccupied (empty : fs.occupied path = false)
    (name : String) : fs.node (name :: path) = none := by
  cases found : fs.entries.get (name :: path) with
  | none => simp [node, nodeAt, found]
  | some entry =>
    have key : entry.path = name :: path := Table.get_key found
    have none := List.any_eq_false.mp empty entry (Table.get_mem found)
    simp [key] at none

/-- What a recursive removal does to one entry. -/
def remove (fs : FileSystem γ) (path : Path) : Except Errno (FileSystem γ) :=
  if fs.isDirectory path then
    if empty : fs.occupied path = false then .ok (fs.drop path (node_child_of_unoccupied empty))
    else .error .enotempty
  else fs.unlink path

/-- Everything at and below a path, with what was made last first. -/
def below (fs : FileSystem γ) (root : Path) : List Path :=
  (fs.entries.rows.map Entry.path).reverse.filter (root.isSuffixOf ·)

/-- Renames a file, vacant nothing or vacant another file. -/
def rename (fs : FileSystem γ) (source target : Path) : Except Errno (FileSystem γ) :=
  if source = target then .ok fs
  else match present : fs.node source with
    | none => .error .enoent
    | some (.directory _) => .error .eisdir
    | some (.file secure content) => move (.file secure content) (by simp [isDirectory, present])
    | some .other => move .other (by simp [isDirectory, present])
where
  move (moved : Node γ) (leaf : fs.isDirectory source = false) : Except Errno (FileSystem γ) :=
    let rest := fs.drop source (fs.node_child_eq_none leaf)
    match target with
    | [] => .error .eisdir
    | name :: parent =>
      if inside : rest.isDirectory parent = true then
        if vacant : rest.isDirectory (name :: parent) = false then .ok (rest.place name parent moved inside vacant)
        else .error .eisdir
      else .error .enoent

theorem add_ok {fs after : FileSystem γ} {node : Node γ} (added : fs.add path node = .ok after) :
    fs.node path = none ∧ ∀ other, after.node other = if other = path then some node else fs.node other := by
  cases path with
  | nil => contradiction
  | cons name parent =>
    simp only [add] at added
    split at added
    case isFalse => contradiction
    case isTrue absent =>
      split at added
      case isFalse => contradiction
      case isTrue inside =>
        cases added
        exact ⟨absent, fs.node_place inside _⟩

theorem add_succeeds (node : Node γ)
    (inside : fs.isDirectory parent = true) (absent : fs.node (name :: parent) = none) :
    ∃ after, fs.add (name :: parent) node = .ok after := by
  simp only [add, absent, inside, dite_true]
  exact ⟨_, rfl⟩

theorem unlink_ok {fs after : FileSystem γ} (unlinked : fs.unlink path = .ok after)
    (other : Path) : after.node other = if other = path then none else fs.node other := by
  unfold unlink at unlinked
  split at unlinked
  · contradiction
  · contradiction
  · cases unlinked; exact fs.node_drop _ other
  · cases unlinked; exact fs.node_drop _ other

variable {secure : Bool} {content : γ}

theorem unlink_succeeds
    (present : fs.node path = some (.file secure content)) : ∃ after, fs.unlink path = .ok after := by
  unfold unlink
  split
  case h_3 => exact ⟨_, rfl⟩
  case h_4 => exact ⟨_, rfl⟩
  all_goals simp_all

theorem remove_ok {fs after : FileSystem γ} (removed : fs.remove path = .ok after)
    (other : Path) : after.node other = if other = path then none else fs.node other := by
  unfold remove at removed
  split at removed
  · split at removed
    · cases removed; exact fs.node_drop _ other
    · contradiction
  · exact unlink_ok removed other

theorem rename_ok {fs after : FileSystem γ} {source target : Path} (different : source ≠ target)
    (renamed : fs.rename source target = .ok after) (other : Path) :
    after.node other = if other = target then fs.node source
      else if other = source then none else fs.node other := by
  have moved : ∀ (node : Node γ) leaf, fs.node source = some node →
      rename.move fs source target node leaf = .ok after →
      after.node other = if other = target then fs.node source
        else if other = source then none else fs.node other := by
    intro node leaf present moved
    cases target with
    | nil => contradiction
    | cons name parent =>
      simp only [rename.move] at moved
      split at moved
      case isFalse => contradiction
      case isTrue inside =>
        split at moved
        case isFalse => contradiction
        case isTrue vacant =>
          cases moved
          rw [node_place, node_drop, present]
  unfold rename at renamed
  rw [if_neg different] at renamed
  split at renamed
  · contradiction
  · contradiction
  case h_3 secure content present => exact moved _ _ present renamed
  case h_4 present => exact moved _ _ present renamed

theorem isDirectory_congr {fs after : FileSystem γ} (same : after.node path = fs.node path) :
    after.isDirectory path = fs.isDirectory path := by
  simp only [isDirectory, same]

theorem rename_succeeds {source parent : Path}
    (present : fs.node source = some (.file secure content))
    (inside : fs.isDirectory parent = true) (vacant : fs.isDirectory (name :: parent) = false) :
    ∃ after, fs.rename source (name :: parent) = .ok after := by
  have leaf : fs.isDirectory source = false := by simp [isDirectory, present]
  have apart : parent ≠ source := by
    intro same
    rw [same, leaf] at inside
    contradiction
  unfold rename
  split
  · exact ⟨fs, rfl⟩
  · split
    case h_1 absent => simp [present] at absent
    case h_2 directory => simp [present] at directory
    case h_4 other => simp [present] at other
    case h_3 =>
      have rest := fs.node_drop (fs.node_child_eq_none leaf)
      have kept : (fs.drop source (fs.node_child_eq_none leaf)).isDirectory parent = true := by
        rw [isDirectory_congr ((rest parent).trans (if_neg apart))]
        exact inside
      have free : (fs.drop source (fs.node_child_eq_none leaf)).isDirectory (name :: parent) = false := by
        by_cases same : name :: parent = source
        · simp [isDirectory, rest, same]
        · rw [isDirectory_congr ((rest _).trans (if_neg same))]
          exact vacant
      simp only [rename.move, kept, free, dite_true]
      exact ⟨_, rfl⟩

/-- Only entries below the root are among those a recursive removal visits. -/
theorem suffix_of_mem_below {root path : Path} (member : path ∈ fs.below root) :
    root <:+ path := by
  have within := (List.mem_filter.mp member).2
  exact List.isSuffixOf_iff_suffix.mp within

end FileSystem

end ProxyPilot.Storage
