import Mathlib.Data.List.Induction
import Mathlib.Data.List.Infix

namespace ProxyPilot.Data

/-! # Trees of files and directories

A tree says what is at each path, a list of names with the outermost first.  Whatever
exists lies in a directory.  The operations are those of a POSIX file system without links.
-/

abbrev FilePath := List (List Char)

inductive FileNode (γ : Type u) where
  | file (content : γ)
  | directory
deriving DecidableEq

structure FileTree (γ : Type u) where
  node : FilePath → Option (FileNode γ)
  rooted : ∀ path name, (node (path ++ [name])).isSome → node path = some .directory

inductive Errno where
  | enoent
  | enotdir
  | eisdir
  | eexist
  | einval

namespace FileTree

variable {γ : Type u} {tree next : FileTree γ} {path other : FilePath}

/-- What has something below it is a directory. -/
theorem directory_of_below (tree : FileTree γ) {path below : FilePath} (deeper : below ≠ [])
    (present : (tree.node (path ++ below)).isSome) :
    tree.node path = some .directory := by
  induction below using List.reverseRecOn with
  | nil => exact absurd rfl deeper
  | append_singleton front name ih =>
    rw [← List.append_assoc] at present
    have parent := tree.rooted (path ++ front) name present
    by_cases last : front = []
    · simpa [last] using parent
    · exact ih last (by rw [parent]; rfl)

/-- The root directory alone. -/
def root : FileTree γ where
  node path := if path = [] then some .directory else none
  rooted path name present := by simp at present

def isFile (tree : FileTree γ) (path : FilePath) : Bool := tree.node path matches some (.file _)

def isDirectory (tree : FileTree γ) (path : FilePath) : Bool := tree.node path matches some .directory

theorem isFile_iff : tree.isFile path = true ↔ ∃ content, tree.node path = some (.file content) := by
  unfold isFile
  cases tree.node path with
  | none => simp
  | some node => cases node <;> simp

theorem isDirectory_iff : tree.isDirectory path = true ↔ tree.node path = some .directory := by
  unfold isDirectory
  cases tree.node path with
  | none => simp
  | some node => cases node <;> simp

/-- `rm -rf` -/
def remove (tree : FileTree γ) (removed : FilePath) : FileTree γ where
  node path := if removed <+: path then none else tree.node path
  rooted path name present := by
    split at present
    · cases present
    · next outside =>
        rw [if_neg fun inside => outside (inside.trans (List.prefix_append path [name]))]
        exact tree.rooted path name present

theorem node_remove (removed : FilePath) (outside : ¬ removed <+: path) :
    (tree.remove removed).node path = tree.node path := if_neg outside

def moved (tree : FileTree γ) (source target : FilePath) (path : FilePath) : Option (FileNode γ) :=
  if target <+: path then tree.node (source ++ path.drop target.length)
  else if source <+: path then none
  else tree.node path

/-- `rename` to a path where nothing is. -/
def rename (tree : FileTree γ) (source target : FilePath) : Except Errno (FileTree γ) :=
  if (tree.node source).isNone then .error .enoent
  else if (tree.node target).isSome then .error .eexist
  else if inside : source <+: target then .error .einval
  else if parent : tree.isDirectory target.dropLast then
    .ok {
      node := moved tree source target
      rooted := by
        intro path name present
        unfold moved at present ⊢
        by_cases below : target <+: path
        · have deeper : target <+: path ++ [name] := below.trans (List.prefix_append _ _)
          rw [if_pos deeper, List.drop_append_of_le_length below.length_le, ← List.append_assoc] at present
          rw [if_pos below]
          exact tree.rooted _ name present
        · rw [if_neg below]
          by_cases own : target <+: path ++ [name]
          · -- `path` is the directory that the target lies in
            have same : target = path ++ [name] := by
              rcases List.prefix_concat_iff.mp own with same | shorter
              · exact same
              · exact absurd shorter below
            subst same
            rw [List.dropLast_concat] at parent
            rw [if_neg fun up => inside (up.trans (List.prefix_append _ _)), isDirectory_iff.mp parent]
          · rw [if_neg own] at present
            split at present
            · cases present
            · next outside =>
                rw [if_neg fun up => outside (up.trans (List.prefix_append _ _))]
                exact tree.rooted path name present }
  else .error .enotdir

variable {source target : FilePath} {made : FilePath}

theorem rename_ok (renamed : tree.rename source target = .ok next) (path : FilePath) :
    next.node path = moved tree source target path := by
  unfold rename at renamed
  split at renamed
  · cases renamed
  · split at renamed
    · cases renamed
    · split at renamed
      · cases renamed
      · split at renamed
        · cases renamed
          rfl
        · cases renamed

theorem rename_moves (renamed : tree.rename source target = .ok next) (below : FilePath) :
    next.node (target ++ below) = tree.node (source ++ below) := by
  rw [rename_ok renamed, moved, if_pos (List.prefix_append _ _), List.drop_left]

theorem rename_frame (renamed : tree.rename source target = .ok next) (notTarget : ¬ target <+: path)
    (notSource : ¬ source <+: path) : next.node path = tree.node path := by
  rw [rename_ok renamed, moved, if_neg notTarget, if_neg notSource]

/-- `mkdir -p` -/
def mkdirp (tree : FileTree γ) (made : FilePath) : Except Errno (FileTree γ) :=
  if made.inits.any tree.isFile then .error .enotdir
  else .ok {
    node := fun path => if path <+: made then some .directory else tree.node path
    rooted := by
      intro path name present
      by_cases inside : path <+: made
      · rw [if_pos inside]
      · rw [if_neg inside]
        rw [if_neg fun up => inside ((List.prefix_append _ _).trans up)] at present
        exact tree.rooted path name present }

theorem mkdirp_ok (ran : tree.mkdirp made = .ok next) :
    (∀ path, path <+: made → tree.isFile path = false) ∧
      ∀ path, next.node path = if path <+: made then some .directory else tree.node path := by
  unfold mkdirp at ran
  split at ran
  · cases ran
  · next free =>
      cases ran
      refine ⟨fun path inside => ?_, fun path => rfl⟩
      simp only [List.any_eq_true, not_exists, not_and, Bool.not_eq_true] at free
      exact free path ((List.mem_inits path made).mpr inside)

theorem mkdirp_frame (ran : tree.mkdirp made = .ok next) (outside : ¬ path <+: made) :
    next.node path = tree.node path := by
  rw [(mkdirp_ok ran).2, if_neg outside]

theorem mkdirp_directory (ran : tree.mkdirp made = .ok next) (inside : path <+: made) :
    next.node path = some .directory := by
  rw [(mkdirp_ok ran).2, if_pos inside]

/-- Writes a file, or replaces one. -/
def writeFile (tree : FileTree γ) (written : FilePath) (content : γ) : Except Errno (FileTree γ) :=
  if vacant : tree.isDirectory written then .error .eisdir
  else if parent : written ≠ [] ∧ tree.isDirectory written.dropLast then
    .ok {
      node := fun path => if path = written then some (.file content) else tree.node path
      rooted := by
        intro path name present
        by_cases own : path ++ [name] = written
        · subst own
          rw [List.dropLast_concat] at parent
          rw [if_neg (by simp), isDirectory_iff.mp parent.2]
        · rw [if_neg own] at present
          have directory := tree.rooted path name present
          have other : path ≠ written := by
            rintro rfl
            exact vacant (isDirectory_iff.mpr directory)
          rw [if_neg other, directory] }
  else .error .enoent

variable {written : FilePath} {content : γ}

theorem writeFile_ok (ran : tree.writeFile written content = .ok next) :
    tree.node written ≠ some .directory ∧ ∀ path, next.node path = if path = written
      then some (.file content) else tree.node path := by
  unfold writeFile at ran
  split at ran
  · cases ran
  · next vacant =>
      split at ran
      · cases ran
        exact ⟨fun directory => vacant (isDirectory_iff.mpr directory), fun path => rfl⟩
      · cases ran

theorem writeFile_frame (ran : tree.writeFile written content = .ok next) (elsewhere : path ≠ written) :
    next.node path = tree.node path := by
  rw [(writeFile_ok ran).2, if_neg elsewhere]

end FileTree

end ProxyPilot.Data
