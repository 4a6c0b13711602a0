import Mathlib.Data.List.Sort
import ProxyPilot.Data.Base64
import ProxyPilot.Data.Checks
import ProxyPilot.Data.Json
import ProxyPilot.Data.Text
import ProxyPilot.Data.Utf8

namespace ProxyPilot.Backup

open Data

/-! # Backup files (`backup-pack.js`, `backup-kdf.js`, `backup-unpack.js`) -/

abbrev Text := List Char

abbrev Bytes := List UInt8

abbrev Entry := Text × Bytes

def zeros (n : Nat) : Bytes := List.replicate n 0

/-- The number of a property name that is an array index. -/
def arrayIndex (name : Text) : Option Nat :=
  let n := Nat.ofDigitChars 10 name 0
  if name = Nat.toDigits 10 n ∧ n < 4294967295 then some n else none

/-- `Object.entries`: array indices in ascending order, then the other names as they were added. -/
def ownEntries (o : List (Text × α)) : List (Text × α) :=
  (o.filter fun e => (arrayIndex e.1).isSome).insertionSort (fun a b => (arrayIndex a.1).getD 0 ≤
    (arrayIndex b.1).getD 0) ++
    o.filter fun e => !(arrayIndex e.1).isSome

/-- `o[name] = value` -/
def assign (o : List (Text × α)) (name : Text) (value : α) : List (Text × α) :=
  if o.any fun e => e.1 == name then o.map fun e => if e.1 = name then (name, value) else e
    else o ++ [(name, value)]

/-- `{ ...o, ...more }` -/
def spread (o more : List (Text × α)) : List (Text × α) := more.foldl (fun o e => assign o e.1 e.2) o

def padStart (width : Nat) (c : Char) (t : Text) : Text := List.replicate (width - t.length) c ++ t

def octal (n width : Nat) : Except String Bytes :=
  let s := Nat.toDigits 8 n
  if width - 1 < s.length then .error ("octal value " ++ toString n ++ " too large for width " ++ toString width)
  else .ok (Utf8.encode (padStart (width - 1) '0' s) ++ [0])

def asciiPad (t : Text) (width : Nat) : Bytes :=
  let bytes := (Utf8.encode t).take width
  bytes ++ zeros (width - bytes.length)

/-- The last slash that leaves both halves within their fields. -/
def splitAt? (fullName : Text) : Option Nat :=
  (List.range fullName.length).reverse.find? fun i =>
    fullName[i]? == some '/' && decide (Utf8.byteLength (fullName.drop (i + 1)) ≤ 100) &&
      decide (Utf8.byteLength (fullName.take i) ≤ 155)

/-- The directory and the name of an entry. -/
def splitTarPath (fullName : Text) : Except String (Text × Text) :=
  if Utf8.byteLength fullName ≤ 100 then .ok ([], fullName)
  else if 100 + 1 + 155 < Utf8.byteLength fullName then
    .error ("tar entry path too long for ustar (>256 bytes): " ++ String.ofList fullName)
  else
    match splitAt? fullName with
    | some i => .ok (fullName.take i, fullName.drop (i + 1))
    | none =>
      .error ("tar entry path cannot be split into prefix+name within ustar limits: " ++ String.ofList fullName)

/-- The fields of a header in their places. -/
def headerBlock (name mode uid gid size mtime check : Bytes) (typeflag : UInt8) (dir : Bytes) : Bytes :=
  name ++ (mode ++
    (uid ++ (gid ++ (size ++ (mtime ++ (check ++ ([typeflag] ++ (zeros 100 ++ (Utf8.encode "ustar".toList ++ [0] ++
    (Utf8.encode "00".toList ++ (zeros 80 ++ (dir ++ zeros 12))))))))))))

def byteSum (bytes : Bytes) : Nat := (bytes.map UInt8.toNat).sum

def makeTarHeader (fullName : Text) (size mtime : Nat) : Except String Bytes := do
  let (dir, name) ← splitTarPath fullName
  let mode ← octal 0o644 8
  let uid ← octal 0 8
  let gid ← octal 0 8
  let size ← octal size 12
  let mtime ← octal (mtime / 1000) 12
  let block := fun check =>
    headerBlock (asciiPad name 100) mode uid gid size mtime check 0x30 (if dir = [] then zeros 155
      else asciiPad dir 155)
  -- the sum is taken with the checksum field filled with spaces
  let sum := byteSum (block (List.replicate 8 0x20))
  return block (Utf8.encode (padStart 6 '0' (Nat.toDigits 8 sum)) ++ [0, 0x20])

/-- What fills the last block of a body. -/
def padding (size : Nat) : Nat := (512 - size % 512) % 512

def tarEntry (mtime : Nat) (entry : Entry) : Except String Bytes := do
  let header ← makeTarHeader entry.1 entry.2.length mtime
  return header ++ (entry.2 ++ zeros (padding entry.2.length))

def tarPack (entries : List Entry) (mtime : Nat) : Except String Bytes := do
  let chunks ← (ownEntries entries).mapM (tarEntry mtime)
  return chunks.flatten ++ (zeros 512 ++ zeros 512)

def slice (start stop : Nat) (bytes : Bytes) : Bytes := (bytes.take stop).drop start

/-- `toString('utf-8')` without the NULs at the end. -/
def fieldText (bytes : Bytes) : Text := dropEnd (fun c => c.toNat == 0) (Utf8.decode bytes)

/-- `toString('ascii')` -/
def asciiText (bytes : Bytes) : Text := bytes.map fun b => Char.ofNat (b.toNat % 128)

/-- `parseInt` of the octal digits of a field, where there are any. -/
def fieldNumber (bytes : Bytes) : Option Nat :=
  let digits := (asciiText bytes).filter octalChar
  if digits = [] then none else some (Nat.ofDigitChars 8 digits 0)

/-- `out[name] = body`: `__proto__` names no property of its own. -/
def record (out : List Entry) (name : Text) (body : Bytes) : List Entry :=
  if name = "__proto__".toList then out else assign out name body

def readTarFrom : Nat → Bytes → List Entry → List Entry
  | 0, _, out => out
  | fuel + 1, unread, out =>
    let header := unread.take 512
    if unread.length < 512 ∨ header.all (· == 0) then out
    else
      let name := fieldText (slice 0 100 header)
      let dir := fieldText (slice 345 500 header)
      let fullName := if dir = [] then name else dir ++ '/' :: name
      let size := fieldNumber (slice 124 136 header)
      let typeflag := header.getD 156 0
      let body := (unread.drop 512).take (size.getD 0)
      let out := if typeflag = 0x30 ∨ typeflag = 0 then record out fullName body else out
      match size with
      -- the next offset is not a number
      | none => out
      | some size => readTarFrom fuel (unread.drop (512 + (size + padding size))) out

/-- The entries of an archive. -/
def readTar (tarBuf : Bytes) : List Entry := readTarFrom tarBuf.length tarBuf []

/-- `node:zlib`, `node:crypto` and `argon2`. -/
structure Platform where
  gzip : Bytes → Bytes
  gunzip : Bytes → Except String Bytes
  /-- The passphrase, the salt and `keyLen`, `N`, `r`, `p`. -/
  scrypt : Text → Bytes → Option Json → Option Json → Option Json → Option Json → Except String Bytes
  /-- The passphrase, the salt and `memoryCost`, `timeCost`, `parallelism`, `keyLen`. -/
  argon2id : Text → Bytes → Option Json → Option Json → Option Json → Option Json → Except String Bytes
  /-- AES-256-GCM with a key and an IV: the ciphertext and the tag. -/
  encrypt : Bytes → Bytes → Bytes → Bytes × Bytes
  /-- The key, the IV, the ciphertext and the tag. -/
  decrypt : Bytes → Bytes → Bytes → Bytes → Option Bytes
  sha256 : Bytes → Text

inductive Kdf where
  | scrypt
  | argon2id

def Kdf.name : Kdf → Text
  | scrypt => "scrypt".toList
  | argon2id => "argon2id".toList

def scryptParams : Json :=
  .object [("N".toList, .number 32768), ("r".toList, .number 8), ("p".toList, .number 1),
    ("keyLen".toList, .number 32)]

def argon2idParams : Json :=
  .object [("memoryCost".toList, .number 65536), ("timeCost".toList, .number 3),
    ("parallelism".toList, .number 4), ("keyLen".toList, .number 32)]

/-- `kdf_params` of `defaultKdfSpec`. -/
def Kdf.params : Kdf → Json
  | scrypt => scryptParams
  | argon2id => argon2idParams

/-- A field of `{ ...defaults, ...given }`. -/
def param (defaults given : Json) (name : String) : Option Json :=
  (given.field name.toList).or (defaults.field name.toList)

def isText (text : String) : Option Json → Bool
  | some (.text t) => t == text.toList
  | _ => false

def deriveKey (platform : Platform) (kdf : Option Json) (kdf_params : Json) (passphrase : Text)
    (salt : Bytes) : Except String Bytes := do
  require (!passphrase.isEmpty) "deriveKey: passphrase is required"
  require (!salt.isEmpty) "deriveKey: salt must be a non-empty Buffer"
  if isText "scrypt" kdf then
    let params := param scryptParams kdf_params
    platform.scrypt passphrase salt (params "keyLen") (params "N") (params "r") (params "p")
  else if isText "argon2id" kdf then
    let params := param argon2idParams kdf_params
    platform.argon2id passphrase salt (params "memoryCost") (params "timeCost")
      (params "parallelism") (params "keyLen")
  else .error ("deriveKey: unsupported KDF " ++
    String.ofList ((kdf.map (Json.stringify 0)).getD "undefined".toList))

/-- What a backup relies on: the reader undoes what the writer did with the same key. -/
structure Platform.Exact (platform : Platform) : Prop where
  gunzip_gzip : ∀ bytes, platform.gunzip (platform.gzip bytes) = .ok bytes
  derives : ∀ (kdf : Kdf) (passphrase : Text) (salt : Bytes), passphrase ≠ [] → salt ≠ [] →
    ∃ key, deriveKey platform (some (.text kdf.name)) kdf.params passphrase salt = .ok key
  decrypt_encrypt : ∀ key iv bytes, platform.decrypt key iv (platform.encrypt key iv bytes).1
    (platform.encrypt key iv bytes).2 = some bytes
  tag_length : ∀ key iv bytes, (platform.encrypt key iv bytes).2.length = 16

def Entry.file (platform : Platform) (entry : Entry) : Json :=
  .object [("path".toList, .text entry.1), ("size".toList, .number entry.2.length),
    ("sha256".toList, .text (platform.sha256 entry.2))]

def buildManifest (platform : Platform) (createdAt : Text) (entries : List Entry) : Json :=
  .object [("version".toList, .number 1), ("created_at".toList, .text createdAt),
    ("files".toList, .array ((ownEntries entries).map (Entry.file platform))),
    ("total_size_bytes".toList, .number ((ownEntries entries).map fun e => e.2.length).sum)]

def headerNames : List Text :=
  ["magic", "version", "kdf", "kdf_params", "salt_b64", "iv_b64", "cipher", "tag_position",
    "tag_bytes", "body_compression", "body_format",
    "plaintext_size_bytes", "archive_size_bytes", "created_at"].map String.toList

/-- The fields that a caller adds to the header: none of the header's own. -/
structure HeaderMeta where
  fields : List (Text × Json)
  distinct : (fields.map Prod.fst).Nodup
  added : ∀ name ∈ fields.map Prod.fst, name ∉ headerNames ∧ arrayIndex name = none

theorem assign_names {α : Type} {o : List (Text × α)} {name : Text} {value : α} :
    (assign o name value).map Prod.fst = if name ∈ o.map Prod.fst then o.map Prod.fst
      else o.map Prod.fst ++ [name] := by
  unfold assign
  have present : (o.any fun e => e.1 == name) = true ↔ name ∈ o.map Prod.fst := by
    simp [List.any_eq_true]
  by_cases known : name ∈ o.map Prod.fst
  · rw [if_pos (present.mpr known), if_pos known, List.map_map]
    refine List.map_congr_left fun e _ => ?_
    simp only [Function.comp_apply]
    split
    · next same => exact same.symm
    · rfl
  · rw [if_neg (fun found => known (present.mp found)), if_neg known, List.map_append]
    rfl

theorem spread_names {α : Type} {more : List (Text × α)} : ∀ {o : List (Text × α)}, (o.map Prod.fst).Nodup →
    ((spread o more).map Prod.fst).Nodup ∧ ∀ name ∈ (spread o more).map Prod.fst,
      name ∈ o.map Prod.fst ∨ name ∈ more.map Prod.fst := by
  induction more with
  | nil =>
    intro o distinct
    exact ⟨distinct, fun name member => Or.inl member⟩
  | cons e more ih =>
    intro o distinct
    have next : ((assign o e.1 e.2).map Prod.fst).Nodup := by
      rw [assign_names]
      split
      · exact distinct
      · next fresh =>
          rw [List.nodup_append]
          refine ⟨distinct, List.nodup_cons.mpr ⟨List.not_mem_nil, List.nodup_nil⟩,
            fun a member b single same => fresh ?_⟩
          rw [List.mem_singleton.mp single] at same
          exact same ▸ member
    obtain ⟨kept, from_either⟩ := ih next
    refine ⟨kept, fun name member => ?_⟩
    rcases from_either name member with old | new
    · rw [assign_names] at old
      split at old
      · exact Or.inl old
      · rcases List.mem_append.mp old with before | last
        · exact Or.inl before
        · rw [List.mem_singleton.mp last]
          exact Or.inr List.mem_cons_self
    · exact Or.inr (List.mem_cons_of_mem _ new)

def HeaderMeta.single (name : Text) (value : Json)
    (isAdded : name ∉ headerNames ∧ arrayIndex name = none) : HeaderMeta where
  fields := [(name, value)]
  distinct := List.nodup_cons.mpr ⟨List.not_mem_nil, List.nodup_nil⟩
  added := by
    intro other member
    rw [List.mem_singleton.mp member]
    exact isAdded

def HeaderMeta.spread (first more : HeaderMeta) : HeaderMeta where
  fields := Backup.spread first.fields more.fields
  distinct := (spread_names first.distinct).1
  added := by
    intro name member
    rcases (spread_names first.distinct).2 name member with old | new
    · exact first.added name old
    · exact more.added name new

/-- What the machine draws and reads for one backup. -/
structure Draw where
  salt : Bytes
  iv : Bytes
  /-- The clock in milliseconds when the archive is written. -/
  clock : Nat
  manifestTime : Text
  headerTime : Text
  saltLength : salt.length = 16
  ivLength : iv.length = 12

def base64Text (bytes : Bytes) : Text := Utf8.decode (Base64.encode bytes)

/-- The header's own fields. -/
def headerFields (draw : Draw) (kdf : Kdf) (plaintextSize archiveSize : Nat) : List (Text × Json) :=
  [("magic".toList, .text "PPBACKUP".toList), ("version".toList, .number 2),
    ("kdf".toList, .text kdf.name), ("kdf_params".toList, kdf.params),
    ("salt_b64".toList, .text (base64Text draw.salt)),
      ("iv_b64".toList, .text (base64Text draw.iv)), ("cipher".toList, .text "aes-256-gcm".toList),
    ("tag_position".toList, .text "trailing".toList), ("tag_bytes".toList, .number 16),
      ("body_compression".toList, .text "gzip".toList),
    ("body_format".toList, .text "tar".toList), ("plaintext_size_bytes".toList, .number plaintextSize),
    ("archive_size_bytes".toList, .number archiveSize), ("created_at".toList, .text draw.headerTime)]

def writeUInt32BE (n : Nat) : Except String Bytes :=
  if n < 4294967296 then .ok [.ofNat (n / 16777216), .ofNat (n / 65536 % 256),
    .ofNat (n / 256 % 256), .ofNat (n % 256)]
  else .error "The value of \"value\" is out of range."

def manifestName : Text := "manifest.json".toList

/-- The manifest's bytes. -/
def manifestBytes (platform : Platform) (draw : Draw) (entries : List Entry) : Bytes :=
  Utf8.encode (Json.stringify 2 (buildManifest platform draw.manifestTime entries))

/-- What goes into the archive: the manifest in front of the entries. -/
def archived (platform : Platform) (draw : Draw) (entries : List Entry) : List Entry :=
  spread [(manifestName, manifestBytes platform draw entries)] entries

def pack (platform : Platform) (draw : Draw) (kdf : Kdf) (entries : List Entry) (passphrase : Text)
    (more : HeaderMeta) : Except String Bytes := do
  require (!passphrase.isEmpty) "pack: passphrase is required"
  let tarBytes ← tarPack (archived platform draw entries) draw.clock
  let compressed := platform.gzip tarBytes
  let key ← deriveKey platform (some (.text kdf.name)) kdf.params passphrase draw.salt
  let (ct, tag) := platform.encrypt key draw.iv compressed
  let header := spread (headerFields draw kdf compressed.length tarBytes.length) more.fields
  let headerBytes := Utf8.encode (Json.stringify 0 (.object header))
  let lenPrefix ← writeUInt32BE headerBytes.length
  return lenPrefix ++ (headerBytes ++ (ct ++ tag))

/-- Why a collector left something out. -/
structure Note where
  stage : Text
  name : Option Text
  error : Text

def Note.toJson (note : Note) : Json :=
  .object (("stage".toList, .text note.stage) ::
    ((note.name.map fun n => ("name".toList, .text n)).toList ++ [("error".toList, .text note.error)]))

/-- What is listed and exported of one kind: Docker volumes, or Incus instances. -/
structure Collector where
  listStage : Text
  itemStage : Text
  folder : Text
  listed : Except Text (List Text)
  /-- The allow list, where the backup has one. -/
  wanted : Option (List Text)
  exported : Text → Except Text Bytes

def Collector.collectOne (collector : Collector) (found : List Entry × List Note) (name : Text) :
    List Entry × List Note :=
  match collector.exported name with
  | .ok bytes => (assign found.1 (collector.folder ++ '/' :: (name ++ ".tar.gz".toList)) bytes, found.2)
  | .error reason => (found.1, found.2 ++ [⟨collector.itemStage, some name, reason⟩])

def Collector.collect (collector : Collector) (found : List Entry × List Note) : List Entry × List Note :=
  match collector.listed with
  | .error reason => (found.1, found.2 ++ [⟨collector.listStage, none, reason⟩])
  | .ok names =>
    (names.filter fun name => collector.wanted.all fun wanted => wanted.contains name).foldl
      collector.collectOne found

def tierName : Text := "tier".toList

def notesName : Text := "collector_notes".toList

/-- `{ tier, ...meta }` -/
def tierMeta (tier : Text) (more : HeaderMeta) : HeaderMeta :=
  (HeaderMeta.single tierName (.text tier) (by decide)).spread more

/-- `{ tier: 'full', ...meta, collector_notes: notes }` -/
def fullMeta (more : HeaderMeta) (notes : List Note) : HeaderMeta :=
  (tierMeta "full".toList more).spread (HeaderMeta.single notesName (.array (notes.map Note.toJson)) (by decide))

/-- The whole host with its volumes and instances, and the notes on what is missing. -/
def packFullTier (platform : Platform) (draw : Draw) (kdf : Kdf) (baseEntries : List Entry)
    (volumes instances : Collector) (passphrase : Text)
    (more : HeaderMeta) : Except String (Bytes × List Note) := do
  let (entries, notes) := instances.collect (volumes.collect (baseEntries, []))
  let buffer ← pack platform draw kdf entries passphrase (fullMeta more notes)
  return (buffer, notes)

def readUInt32BE : Bytes → Nat
  | a :: b :: c :: d :: _ => a.toNat * 16777216 + b.toNat * 65536 + c.toNat * 256 + d.toNat
  | _ => 0

/-- A value within a message. -/
def shown : Option Json → String
  | some (.text t) => String.ofList t
  | some value => String.ofList (Json.stringify 0 value)
  | none => "undefined"

structure Parsed where
  header : Json
  ciphertextStart : Nat
  ciphertextEnd : Nat

def parseHeader (buf : Bytes) : Except String Parsed := do
  require (decide (4 + 1 + 16 ≤ buf.length)) "parseHeader: buffer too small to be a .ppbackup"
  let headerLen := readUInt32BE buf
  require (decide (0 < headerLen ∧ headerLen ≤ 64 * 1024))
    ("parseHeader: implausible header length " ++ toString headerLen)
  require (decide (4 + headerLen + 16 ≤ buf.length)) "parseHeader: truncated buffer (header overruns body)"
  let header ← demand (Json.parse (Utf8.decode (slice 4 (4 + headerLen) buf)))
      "parseHeader: header is not valid JSON"
  require (isText "PPBACKUP" (header.field "magic".toList)) 
    ("parseHeader: bad magic " ++ ((header.field "magic".toList).map fun m =>
      String.ofList (Json.stringify 0 m)).getD "undefined" ++ "; not a .ppbackup")
  return { header, ciphertextStart := 4 + headerLen, ciphertextEnd := buf.length - 16 }

/-- `Buffer.from(text, 'base64')` -/
def base64Bytes : Option Json → Except String Bytes
  | some (.text t) => .ok (Base64.decode (Utf8.encode t))
  | _ => .error "The first argument must be of type string"

/-- The bytes of the inner archive. -/
def decrypt (platform : Platform) (buf : Bytes) (passphrase : Text) : Except String Bytes := do
  require (!passphrase.isEmpty) "decrypt: passphrase is required"
  let parsed ← parseHeader buf
  let header := parsed.header
  require (isText "aes-256-gcm" (header.field "cipher".toList)) ("decrypt: unsupported cipher " ++
    shown (header.field "cipher".toList))
  require (isText "gzip" (header.field "body_compression".toList)) 
    ("decrypt: unsupported body compression " ++ shown (header.field "body_compression".toList))
  require (isText "trailing" (header.field "tag_position".toList)) 
    ("decrypt: unsupported tag_position " ++ shown (header.field "tag_position".toList))
  let salt ← base64Bytes (header.field "salt_b64".toList)
  let iv ← base64Bytes (header.field "iv_b64".toList)
  let key ← deriveKey platform (header.field "kdf".toList)
      ((header.field "kdf_params".toList).getD (.object [])) passphrase salt
  let ct := slice parsed.ciphertextStart parsed.ciphertextEnd buf
  let tag := buf.drop parsed.ciphertextEnd
  let compressed ← demand (platform.decrypt key iv ct tag)
      "decrypt: AES-GCM auth failed (wrong passphrase, or backup is corrupt)"
  platform.gunzip compressed

structure Declared where
  path : Text
  size : Option Json
  sha256 : Option Json

structure Verification where
  ok : Bool
  fileCount : Nat
  mismatches : List Text
  missing : List Text
  extra : List Text

/-- A declared file; one without a text for a path is none. -/
def declaredFile (file : Json) : Option Declared :=
  match file.field "path".toList with
  | some (.text path) => some ⟨path, file.field "size".toList, file.field "sha256".toList⟩
  | _ => none

/-- `declared.set(f.path, …)` for every file: of two with one path the later one counts. -/
def declare (declared : List (Text × Declared)) (file : Declared) : List (Text × Declared) :=
  assign declared file.path file

def isNumber (n : Nat) : Option Json → Bool
  | some (.number m) => m == n
  | _ => false

def isTextOf (t : Text) : Option Json → Bool
  | some (.text s) => s == t
  | _ => false

def matchesFile (platform : Platform) (file : Declared) (present : Bytes) : Bool :=
  isNumber present.length file.size && isTextOf (platform.sha256 present) file.sha256

def manifestFiles (manifest : Json) : List Json :=
  match manifest.field "files".toList with
  | some (.array files) => files
  | _ => []

/-- The errors are texts, the verdict on a readable manifest is a `Verification`. -/
def verifyManifest (platform : Platform) (entries : List Entry) : Except String Verification := do
  let manifestBuf ← demand (entries.lookup manifestName) "manifest.json missing from archive"
  let manifest ← demand (Json.parse (Utf8.decode manifestBuf)) "manifest.json not valid JSON"
  let declared := ((manifestFiles manifest).filterMap declaredFile).foldl declare []
  let missing := declared.filter fun d => (entries.lookup d.1).isNone
  let mismatches := declared.filter fun d => (entries.lookup d.1).any fun present =>
      !matchesFile platform d.2 present
  let extra := entries.filter fun e => e.1 != manifestName && !declared.any fun d => d.1 == e.1
  return {
    ok := mismatches.isEmpty && missing.isEmpty && extra.isEmpty
    fileCount := declared.length
    mismatches := mismatches.map Prod.fst
    missing := missing.map Prod.fst
    extra := extra.map Prod.fst }

end ProxyPilot.Backup
