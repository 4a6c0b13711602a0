import ProxyPilot.Data.Fields
import ProxyPilot.Data.Utf8
import ProxyPilot.Upload.Apply

namespace ProxyPilot.Upload.Buffer

open Data

/-! # Reading an archive from its bytes (`zip-extract.js`)

The parser goes where the offsets in the file send it.  A read past the end of the buffer
throws a `RangeError`, which no caller expects.
-/

inductive Thrown where
  | zip (error : ZipError)
  | range (offset : Nat)
deriving DecidableEq

structure Limits where
  maxZipBytes : Nat
  maxExtractedBytes : Nat
  maxEntries : Nat

def zip (ran : Except ZipError α) : Except Thrown α :=
  match ran with
  | .ok a => .ok a
  | .error error => .error (.zip error)

/-- A little-endian number. -/
def littleEndian (bytes : Bytes) : Nat := bytes.foldr (fun b n => b.toNat + 256 * n) 0

def readUInt (width : Nat) (buf : Bytes) (offset : Nat) : Except Thrown Nat :=
  if offset + width ≤ buf.length then .ok (littleEndian ((buf.drop offset).take width)) else .error (.range offset)

def readUInt16LE : Bytes → Nat → Except Thrown Nat := readUInt 2

def readUInt32LE : Bytes → Nat → Except Thrown Nat := readUInt 4

def EOCD_SIG : Nat := 0x06054b50
def CDIR_SIG : Nat := 0x02014b50
def LOCAL_SIG : Nat := 0x04034b50

def badZip (message : String) : Thrown := .zip (refuse .badZip message [])

def megabytes (bytes : Nat) : Text := (toString (bytes / 1048576)).toList

/-- The end-of-central-directory record, searched backwards from `i`. -/
def findEocd (buf : Bytes) (scanFloor : Nat) : Nat → Except Thrown (Option Nat)
  | 0 =>
    if 0 < scanFloor then .ok none
    else do
      let signature ← readUInt32LE buf 0
      return if signature = EOCD_SIG then some 0 else none
  | i + 1 =>
    if i + 1 < scanFloor then .ok none
    else do
      let signature ← readUInt32LE buf (i + 1)
      if signature = EOCD_SIG then .ok (some (i + 1)) else findEocd buf scanFloor i

/-- A header of the central directory, and where the next one is. -/
def readRecord (buf : Bytes) (off : Nat) : Except Thrown (Record × Nat) := do
  let versionMadeBy ← readUInt16LE buf (off + 4)
  let gpFlags ← readUInt16LE buf (off + 8)
  let method ← readUInt16LE buf (off + 10)
  let compressedSize ← readUInt32LE buf (off + 20)
  let uncompressedSize ← readUInt32LE buf (off + 24)
  let nameLen ← readUInt16LE buf (off + 28)
  let extraLen ← readUInt16LE buf (off + 30)
  let commentLen ← readUInt16LE buf (off + 32)
  let externalAttrs ← readUInt32LE buf (off + 38)
  let localHeaderOffset ← readUInt32LE buf (off + 42)
  let rawName := Utf8.decode (subarray buf (off + 46) (off + 46 + nameLen))
  return (⟨versionMadeBy, gpFlags, method, compressedSize, uncompressedSize, externalAttrs,
    localHeaderOffset, rawName⟩,
    off + (46 + nameLen + extraLen + commentLen))

def readEntries (buf : Bytes) : Nat → Nat → Except Thrown (List Entry)
  | 0, _ => .ok []
  | n + 1, off => do
    require (off + 46 ≤ buf.length) (badZip "Corrupt zip: bad central directory entry")
    let signature ← readUInt32LE buf off
    require (signature == CDIR_SIG) (badZip "Corrupt zip: bad central directory entry")
    let (record, next) ← readRecord buf off
    let e ← zip (readEntry record)
    let rest ← readEntries buf n next
    return e :: rest

def files (entries : List Entry) : List Entry := entries.filter fun e => !e.isDirectory

def declaredBytes (entries : List Entry) : Nat := ((files entries).map Entry.uncompressedSize).sum

/-- What is checked once every header is read. -/
def checkEntries (limits : Limits) (entries : List Entry) : Except ZipError Unit := do
  require (declaredBytes entries ≤ limits.maxExtractedBytes)
    ⟨.tooLarge, "Zip would extract to ".toList ++ megabytes (declaredBytes entries + 1048575) ++
      " MB (limit ".toList ++
      megabytes limits.maxExtractedBytes ++ " MB)".toList⟩
  require (!(files entries).isEmpty) (refuse .badZip "Zip contains no files" [])
  match repeated [] ((files entries).map Entry.path) with
  | some path => .error (refuse .badZip "Zip contains duplicate entry: " (joined path))
  | none => .ok ()

/-- The entries of the archive and the declared size of its files. -/
def parseZip (limits : Limits) (buf : Bytes) : Except Thrown (List Entry × Nat) := do
  require (22 ≤ buf.length) (badZip "File is too small to be a zip archive")
  require (buf.length ≤ limits.maxZipBytes)
    (.zip ⟨.tooLarge, "Zip exceeds the ".toList ++ megabytes limits.maxZipBytes ++ " MB upload limit".toList⟩)
  let found ← findEocd buf (buf.length - 22 - 65535) (buf.length - 22)
  let eocd ← demand found (badZip "Not a zip archive (missing end-of-central-directory record)")
  let totalEntries ← readUInt16LE buf (eocd + 10)
  let cdSize ← readUInt32LE buf (eocd + 12)
  let cdOffset ← readUInt32LE buf (eocd + 16)
  require (totalEntries != 0xffff && cdOffset != noValue && cdSize != noValue)
    (.zip (refuse .unsupported "Zip64 archives are not supported — re-zip with a smaller archive" []))
  require (totalEntries ≤ limits.maxEntries)
    (.zip ⟨.tooLarge, "Zip contains ".toList ++ (toString totalEntries).toList ++ " entries (limit ".toList ++
      (toString limits.maxEntries).toList ++ ")".toList⟩)
  require (cdOffset + cdSize ≤ buf.length) (badZip "Corrupt zip: central directory overruns the file")
  let entries ← readEntries buf totalEntries cdOffset
  zip (checkEntries limits entries)
  return (entries, declaredBytes entries)

inductive InflateFailure where
  /-- More than `maxOutputLength` bytes. -/
  | outputLength
  | corrupt

/-- `zlib.inflateRawSync(raw, { maxOutputLength })` -/
abbrev Inflate := Bytes → Nat → Except InflateFailure Bytes

def unpack (inflate : Inflate) (limits : Limits) (raw : Bytes) (e : Entry) : Except Thrown Bytes :=
  if e.method = 0 then .ok raw
  else
    match inflate raw (min limits.maxExtractedBytes e.uncompressedSize) with
    | .ok data => .ok data
    | .error .outputLength =>
      .error (.zip (refuse .tooLarge "Zip entry inflates past its declared size: " (joined e.path)))
    | .error .corrupt => .error (.zip (refuse .badZip "Corrupt zip entry (inflate failed): " (joined e.path)))

def extractEntryData (inflate : Inflate) (limits : Limits) (buf : Bytes) (e : Entry) : Except Thrown Bytes := do
  let off := e.localHeaderOffset
  require (off + 30 ≤ buf.length) (.zip (refuse .badZip "Corrupt zip: bad local header for " (joined e.path)))
  let signature ← readUInt32LE buf off
  require (signature == LOCAL_SIG) (.zip (refuse .badZip "Corrupt zip: bad local header for " (joined e.path)))
  -- the local lengths can differ from those of the central directory
  let nameLen ← readUInt16LE buf (off + 26)
  let extraLen ← readUInt16LE buf (off + 28)
  let dataStart := off + 30 + nameLen + extraLen
  let dataEnd := dataStart + e.compressedSize
  require (dataEnd ≤ buf.length)
    (.zip (refuse .badZip "Corrupt zip: entry data overruns the file: " (joined e.path)))
  let data ← unpack inflate limits (subarray buf dataStart dataEnd) e
  require (data.length == e.uncompressedSize)
    (.zip ⟨.badZip, "Zip entry size mismatch (declared ".toList ++
      (toString e.uncompressedSize).toList ++ ", got ".toList ++
      (toString data.length).toList ++ "): ".toList ++ joined e.path⟩)
  return data

inductive Stopped where
  | thrown (error : Thrown)
  | host (errno : Errno)

/-- The file system so far, the bytes counted, and every `writeFile` that was begun. -/
structure Staged where
  tree : Tree
  written : Nat
  writes : List (FilePath × Bytes)

/-- `resolve(root, path)` -/
def resolve (root path : FilePath) : FilePath :=
  path.foldl (fun base seg => if seg = [] ∨ seg = ['.'] then base else if seg = ['.', '.']
    then base.dropLast else base ++ [seg])
    (if path.head? = some [] ∧ path.length ≠ 1 then [] else root)

/-- `dest === root || dest.startsWith(root + '/')` -/
def inside (root dest : FilePath) : Bool := dest == root || (!root.isEmpty && root.isPrefixOf dest)

def stop (error : Thrown) (s : Staged) : Except Stopped Unit × Staged := (.error (.thrown error), s)

def stageFile (limits : Limits) (dest : FilePath) (data : Bytes) (s : Staged) : Except Stopped Unit × Staged :=
  let counted := { s with written := s.written + data.length }
  if limits.maxExtractedBytes < counted.written
    then stop (.zip (refuse .tooLarge "Zip exceeds the extracted-size limit" [])) counted
  else
    match counted.tree.mkdirp dest.dropLast with
    | .error errno => (.error (.host errno), counted)
    | .ok made =>
      let begun := { counted with tree := made, writes := counted.writes ++ [(dest, data)] }
      match made.writeFile dest data with
      | .error errno => (.error (.host errno), begun)
      | .ok tree => (.ok (), { begun with tree })

def stageEntry (inflate : Inflate) (limits : Limits) (buf : Bytes) (root : FilePath) (e : Entry) (s : Staged) :
    Except Stopped Unit × Staged :=
  let dest := resolve root e.path
  if !inside root dest
    then stop (.zip (refuse .pathViolation "Refusing to extract outside target: " (joined e.path))) s
  else if e.isDirectory then
    match s.tree.mkdirp dest with
    | .error errno => (.error (.host errno), s)
    | .ok tree => (.ok (), { s with tree })
  else
    match extractEntryData inflate limits buf e with
    | .error error => stop error s
    | .ok data => stageFile limits dest data s

def stageEntries (inflate : Inflate) (limits : Limits) (buf : Bytes) (root : FilePath) :
    List Entry → Staged → Except Stopped Nat × Staged
  | [], s => (.ok s.written, s)
  | e :: rest, s =>
    match stageEntry inflate limits buf root e s with
    | (.error stopped, next) => (.error stopped, next)
    | (.ok (), next) => stageEntries inflate limits buf root rest next

/-- What was reached, also where extraction stopped with an error. -/
def extractToStaging (inflate : Inflate) (limits : Limits) (buf : Bytes) (entries : List Entry)
    (root : FilePath) (tree : Tree) :
    Except Stopped Nat × Staged :=
  match tree.mkdirp root with
  | .error errno => (.error (.host errno), ⟨tree, 0, []⟩)
  | .ok made => stageEntries inflate limits buf root entries ⟨made, 0, []⟩

end ProxyPilot.Upload.Buffer
