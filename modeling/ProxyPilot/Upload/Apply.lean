import Mathlib.Data.List.Dedup
import Mathlib.Data.List.Sort
import ProxyPilot.Data.Checks
import ProxyPilot.Data.FileTree
import ProxyPilot.Data.Text

namespace ProxyPilot.Upload

open Data

/-! # The entries of an uploaded archive (`zip-extract.js`)

The central directory is taken as the list of its records.  The paths of the entries are
kept as their segments.
-/

abbrev Text := List Char

inductive ZipCode where
  | badZip
  | pathViolation
  | tooLarge
  | unsupported
deriving DecidableEq

structure ZipError where
  code : ZipCode
  message : Text
deriving DecidableEq

def refuse (code : ZipCode) (message : String) (named : Text) : ZipError := ⟨code, message.toList ++ named⟩

structure ZipLimits where
  maxExtractedBytes : Nat
  maxEntries : Nat

structure Record where
  versionMadeBy : Nat
  gpFlags : Nat
  method : Nat
  compressedSize : Nat
  uncompressedSize : Nat
  externalAttrs : Nat
  localHeaderOffset : Nat
  rawName : Text

structure Entry where
  path : FilePath
  isDirectory : Bool
  mode : Nat
  method : Nat
  compressedSize : Nat
  uncompressedSize : Nat
  localHeaderOffset : Nat
deriving DecidableEq

/-- `/^[a-zA-Z]:/` -/
def hasDrive : Text → Bool
  | letter :: ':' :: _ => letter.isAlpha
  | _ => false

def isUnsafeSegment (seg : Text) : Bool := seg.isEmpty || seg == ['.'] || seg == ['.', '.']

/-- The segments of the name, without the slashes at its end. -/
def validateEntryName (rawName : Text) : Except ZipError FilePath := do
  require (!rawName.isEmpty) (refuse .pathViolation "Zip entry has an empty name" [])
  require (codeUnits rawName ≤ 1024) (refuse .pathViolation "Zip entry name is too long" [])
  require (!rawName.any controlChar) (refuse .pathViolation "Zip entry name contains control characters" [])
  require (!rawName.contains '\\') (refuse .pathViolation "Zip entry uses backslash separators: " rawName)
  require (rawName.head? != some '/') (refuse .pathViolation "Zip entry has an absolute path: " rawName)
  require (!hasDrive rawName) (refuse .pathViolation "Zip entry has a drive-prefixed path: " rawName)
  let segments := (dropEnd (· == '/') rawName).splitOn '/'
  require (segments.length ≤ 64) (refuse .pathViolation "Zip entry is nested too deep: " rawName)
  require (!segments.any isUnsafeSegment) (refuse .pathViolation "Zip entry has an unsafe path segment: " rawName)
  return segments

def noValue : Nat := 0xffffffff

def fileType (mode : Nat) : Nat := mode &&& 0xf000

def readEntry (record : Record) : Except ZipError Entry := do
  require (record.gpFlags % 2 == 0) (refuse .unsupported "Zip entry is encrypted: " record.rawName)
  require (record.method == 0 || record.method == 8)
    ⟨.unsupported, "Zip entry uses an unsupported compression method (".toList ++
      (toString record.method).toList ++ "): ".toList ++ record.rawName⟩
  require (record.compressedSize != noValue && record.uncompressedSize != noValue &&
    record.localHeaderOffset != noValue)
    (refuse .unsupported "Zip64 entries are not supported" [])
  let path ← validateEntryName record.rawName
  -- the high attribute bytes mean something on a Unix host only
  let mode := if record.versionMadeBy / 256 = 3 then record.externalAttrs / 65536 else 0
  require (fileType mode != 0xa000)
    (refuse .pathViolation "Zip contains a symlink entry (not allowed): " record.rawName)
  return {
    path := path
    isDirectory := record.rawName.getLast? == some '/' || fileType mode == 0x4000
    mode := mode
    method := record.method
    compressedSize := record.compressedSize
    uncompressedSize := record.uncompressedSize
    localHeaderOffset := record.localHeaderOffset }

def joined (path : FilePath) : Text := ['/'].intercalate path

/-- The first path that an earlier one equals. -/
def repeated : List FilePath → List FilePath → Option FilePath
  | _, [] => none
  | seen, path :: rest => if seen.contains path then some path else repeated (path :: seen) rest

def parseZip (limits : ZipLimits) (records : List Record) : Except ZipError (List Entry) := do
  require (records.length ≤ limits.maxEntries)
    ⟨.tooLarge, "Zip contains ".toList ++ (toString records.length).toList ++
      " entries (limit ".toList ++ (toString limits.maxEntries).toList ++
      ")".toList⟩
  let entries ← records.mapM readEntry
  let files := entries.filter fun e => !e.isDirectory
  let totalUncompressedBytes := (files.map Entry.uncompressedSize).sum
  require (totalUncompressedBytes ≤ limits.maxExtractedBytes)
    ⟨.tooLarge, "Zip would extract to ".toList ++
      (toString ((totalUncompressedBytes + 1048575) / 1048576)).toList ++ " MB (limit ".toList ++
      (toString (limits.maxExtractedBytes / 1048576)).toList ++ " MB)".toList⟩
  require (!files.isEmpty) (refuse .badZip "Zip contains no files" [])
  match repeated [] (files.map Entry.path) with
  | some path => .error (refuse .badZip "Zip contains duplicate entry: " (joined path))
  | none => .ok entries

def detectWrapperDir (entries : List Entry) : Option Text :=
  let topLevel := (entries.filterMap fun e => e.path.head?).eraseDups
  match topLevel with
  | [only] => if entries.any fun e => !e.isDirectory && e.path.length == 1 then none else some only
  | _ => none

def Entry.below (e : Entry) (wrapper : FilePath) : Entry := { e with path := e.path.drop wrapper.length }

/-- The wrapper is a path like those of the entries. -/
def stripWrapper (wrapper : FilePath) : List Entry → Except ZipError (List Entry)
  | [] => .ok []
  | e :: rest =>
    -- the wrapper directory itself
    if e.path = wrapper then stripWrapper wrapper rest
    else if wrapper <+: e.path then do
      let others ← stripWrapper wrapper rest
      return e.below wrapper :: others
    else .error (refuse .badZip "Entry outside wrapper folder: " (joined e.path))

def effectiveEntries (entries : List Entry) (doStrip : Bool) : Except ZipError (List Entry) :=
  match doStrip, detectWrapperDir entries with
  | true, some wrapper => stripWrapper [wrapper] entries
  | _, _ => .ok entries

theorem validateEntryName_ne_nil {rawName : Text} {path : FilePath}
    (valid : validateEntryName rawName = .ok path) : path ≠ [] := by
  unfold validateEntryName at valid
  obtain ⟨_, valid⟩ := require_bind_ok.mp valid
  obtain ⟨_, valid⟩ := require_bind_ok.mp valid
  obtain ⟨_, valid⟩ := require_bind_ok.mp valid
  obtain ⟨_, valid⟩ := require_bind_ok.mp valid
  obtain ⟨_, valid⟩ := require_bind_ok.mp valid
  obtain ⟨_, valid⟩ := require_bind_ok.mp valid
  obtain ⟨_, valid⟩ := require_bind_ok.mp valid
  obtain ⟨_, valid⟩ := require_bind_ok.mp valid
  cases valid
  exact List.splitOn_ne_nil _ _

variable {e : Entry} {entries stripped : List Entry} {wrapper : FilePath}

theorem readEntry_path {record : Record} (read : readEntry record = .ok e) : e.path ≠ [] := by
  unfold readEntry at read
  obtain ⟨_, read⟩ := require_bind_ok.mp read
  obtain ⟨_, read⟩ := require_bind_ok.mp read
  obtain ⟨_, read⟩ := require_bind_ok.mp read
  obtain ⟨path, valid, read⟩ := bind_ok.mp read
  obtain ⟨_, read⟩ := require_bind_ok.mp read
  cases read
  exact validateEntryName_ne_nil valid

theorem parseZip_paths {limits : ZipLimits} {records : List Record} {entries : List Entry}
    (parsed : parseZip limits records = .ok entries)
    (member : e ∈ entries) : e.path ≠ [] := by
  unfold parseZip at parsed
  obtain ⟨_, parsed⟩ := require_bind_ok.mp parsed
  obtain ⟨read, all, parsed⟩ := bind_ok.mp parsed
  obtain ⟨_, parsed⟩ := require_bind_ok.mp parsed
  obtain ⟨_, parsed⟩ := require_bind_ok.mp parsed
  split at parsed
  · cases parsed
  · cases parsed
    obtain ⟨record, _, gives⟩ := (mem_mapM_ok all).mp member
    exact readEntry_path gives

theorem stripWrapper_ok (ran : stripWrapper wrapper entries = .ok stripped) :
    stripped = (entries.filter (·.path ≠ wrapper)).map (·.below wrapper) ∧
      ∀ e ∈ entries, e.path ≠ wrapper → wrapper <+: e.path := by
  induction entries generalizing stripped with
  | nil =>
    cases ran
    simp
  | cons first rest ih =>
    unfold stripWrapper at ran
    split at ran
    · next own =>
        obtain ⟨same, inside⟩ := ih ran
        exact ⟨by simp [same, own], List.forall_mem_cons.mpr ⟨fun other => absurd own other, inside⟩⟩
    · next other =>
        split at ran
        · next within =>
            obtain ⟨others, ranOthers, done⟩ := bind_ok.mp ran
            obtain ⟨same, inside⟩ := ih ranOthers
            cases done
            exact ⟨by simp [same, other], List.forall_mem_cons.mpr ⟨fun _ => within, inside⟩⟩
        · cases ran

theorem stripWrapper_paths (ran : stripWrapper wrapper entries = .ok stripped)
    (member : e ∈ stripped) : e.path ≠ [] := by
  obtain ⟨rfl, inside⟩ := stripWrapper_ok ran
  obtain ⟨original, kept, rfl⟩ := List.mem_map.mp member
  obtain ⟨originalMember, other⟩ := List.mem_filter.mp kept
  have different : original.path ≠ wrapper := by simpa using other
  obtain ⟨below, same⟩ := inside original originalMember different
  rintro empty
  simp only [Entry.below, ← same, List.drop_left] at empty
  exact different (by rw [← same, empty, List.append_nil])

theorem effectiveEntries_paths {entries chosen : List Entry} {doStrip : Bool} (paths : ∀ e ∈ entries, e.path ≠ [])
    (effective : effectiveEntries entries doStrip = .ok chosen) : ∀ e ∈ chosen, e.path ≠ [] := by
  unfold effectiveEntries at effective
  split at effective
  · exact fun e member => stripWrapper_paths effective member
  · cases effective
    exact paths

abbrev Bytes := List UInt8

abbrev Tree := FileTree Bytes

inductive Failure where
  | zip (error : ZipError)
  | host (errno : Errno)

def host (ran : Except Errno α) : Except Failure α :=
  match ran with
  | .ok a => .ok a
  | .error errno => .error (.host errno)

@[simp] theorem host_ok {ran : Except Errno α} {a : α} : host ran = .ok a ↔ ran = .ok a := by
  cases ran <;> simp [host]

/-- `existsKind`: what is at a path of the target. -/
inductive Kind where
  | file
  | dir
deriving DecidableEq

def fsExistsKind (tree : Tree) (path : FilePath) : Option Kind :=
  match tree.node path with
  | some (.file _) => some .file
  | some .directory => some .dir
  | none => none

/-- The UTF-16 code units of a character. -/
def units (c : Char) : List Nat :=
  if c.toNat < 0x10000 then [c.toNat]
    else [0xd800 + (c.toNat - 0x10000) / 0x400, 0xdc00 + (c.toNat - 0x10000) % 0x400]

def precedes : List Nat → List Nat → Bool
  | [], _ => true
  | _ :: _, [] => false
  | a :: as, b :: bs => decide (a < b) || (a == b && precedes as bs)

/-- The order of `sort()` on the joined paths. -/
def sortsBefore (left right : FilePath) : Prop :=
  precedes ((joined left).flatMap units) ((joined right).flatMap units) = true

instance : DecidableRel sortsBefore := fun left right =>
  inferInstanceAs (Decidable (precedes ((joined left).flatMap units) ((joined right).flatMap units) = true))

/-- Every directory that extracting the entry needs. -/
def neededDirs (e : Entry) : List FilePath :=
  (List.range (if e.isDirectory then e.path.length else e.path.length - 1)).map fun i => e.path.take (i + 1)

def findConflicts (entries : List Entry) (existsKind : FilePath → Option Kind) : List FilePath :=
  let filesInTheWay := ((entries.filter fun e => !e.isDirectory).map Entry.path).filter fun path =>
      (existsKind path).isSome
  let impliedDirs := (entries.flatMap neededDirs).filter fun d => existsKind d == some .file
  (filesInTheWay ++ impliedDirs).dedup.insertionSort sortsBefore

/-- The bytes of an entry, as the archive holds them: `extractEntryData`. -/
abbrev EntryData := Entry → Except ZipError Bytes

structure Staging where
  tree : Tree
  written : Nat

def extractEntry (data : EntryData) (limits : ZipLimits) (s : Staging) (e : Entry) : Except Failure Staging :=
  if e.isDirectory then do
    let tree ← host (s.tree.mkdirp e.path)
    return { s with tree }
  else
    match data e with
    | .error error => .error (.zip error)
    | .ok bytes => do
      let written := s.written + bytes.length
      require (written ≤ limits.maxExtractedBytes)
        (.zip (refuse .tooLarge "Zip exceeds the extracted-size limit" []))
      let made ← host (s.tree.mkdirp e.path.dropLast)
      let tree ← host (made.writeFile e.path bytes)
      return { tree, written }

/-- Into a staging directory that is new. -/
def extractToStaging (data : EntryData) (limits : ZipLimits) (entries : List Entry) : Except Failure Staging :=
  entries.foldlM (extractEntry data limits) ⟨FileTree.root, 0⟩

/-- `<p>.old` -/
def oldPath : FilePath → FilePath
  | [] => [".old".toList]
  | [name] => [name ++ ".old".toList]
  | name :: rest => name :: oldPath rest

/-- The live object becomes `<p>.old`, in place of a stale one. -/
def setAside (tree : Tree) (relPath : FilePath) : Except Failure Tree :=
  if relPath = []
    then .error (.zip (refuse .pathViolation "Refusing conflict rename outside target: " (joined relPath)))
  else if (tree.node relPath).isNone then .ok tree
  else host ((tree.remove (oldPath relPath)).rename relPath (oldPath relPath))

/-- Staging and target between two entries. -/
structure Commit where
  staged : Tree
  target : Tree

def placeEntry (c : Commit) (e : Entry) : Except Failure Commit :=
  if e.isDirectory then do
    let target ← host (c.target.mkdirp e.path)
    return { c with target }
  else if e.path = [] then .error (.zip (refuse .pathViolation "Refusing to move outside target: " (joined e.path)))
  else do
    let made ← host (c.target.mkdirp e.path.dropLast)
    match c.staged.node e.path with
    | some (.file bytes) =>
      let target ← host (made.writeFile e.path bytes)
      return { staged := c.staged.remove e.path, target }
    -- extraction leaves a file at every file entry
    | some .directory => .error (.host .eisdir)
    | none => .error (.host .enoent)

def applyStagingToTarget (staged target : Tree) (entries : List Entry) (conflicts : List FilePath) :
    Except Failure Tree := do
  let aside ← conflicts.foldlM setAside target
  let c ← entries.foldlM placeEntry ⟨staged, aside⟩
  return c.target

/-- Detection, extraction and commit, one after the other. -/
def upload (data : EntryData) (limits : ZipLimits) (entries : List Entry) (target : Tree) :
    Except Failure Tree := do
  let conflicts := findConflicts entries (fsExistsKind target)
  let s ← extractToStaging data limits entries
  applyStagingToTarget s.tree target entries conflicts

end ProxyPilot.Upload
