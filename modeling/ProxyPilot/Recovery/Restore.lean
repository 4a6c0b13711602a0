import Mathlib.Data.List.Nodup
import Mathlib.Data.List.Pairwise
import ProxyPilot.Data.Text
import ProxyPilot.Storage.FileSystem
import ProxyPilot.Transition.Interrupted

namespace ProxyPilot.Recovery

/-! # Encrypted archives and restores (`credential-broker/recovery.mjs`)

A step of a restore is one change of the file system with the checks the code makes
just before it.  Syncing a directory changes nothing here; that it may throw is
one of the interruptions.
-/

abbrev Bytes := List UInt8

inductive RecoveryError where
  | unsafeDirectory
  | unsafeFile
  | invalidPins
  | invalidKey
  | restoreIncomplete
  | stateBusy
  | leaseChanged
  | invalidLease
  | pinMismatch
  | archiveAuthenticationFailed
  | destinationExists
  /-- A file-system call failed. -/
  | system
deriving DecidableEq

def maxFile : Nat := 32 * 1024 * 1024
def maxTotal : Nat := 64 * 1024 * 1024

def maintenanceLock : String := ".maintenance.lock"
def restoreIncompleteMarker : String := ".restore-incomplete"

/-- What an archive of one service may and must contain. -/
structure Profile where
  format : String
  contract : String
  required : List String
  allowed : List String
  nonempty : required ≠ []
  unlocked : maintenanceLock ∉ allowed
  unmarked : restoreIncompleteMarker ∉ allowed

def broker : Profile where
  format := "fractionate-broker-encrypted-state"
  contract := "broker.v1"
  required := ["broker.db", "intake.json", "authority.json", "allocator.json"]
  allowed := ["broker.db", "intake.json", "authority.json", "allocator.json",
    "broker.db-wal", "broker.db-shm", "identity.json"]
  nonempty := by decide
  unlocked := by decide
  unmarked := by decide

def worker : Profile where
  format := "fractionate-worker-encrypted-state"
  contract := "runner.v1"
  required := ["worker.db"]
  allowed := ["worker.db", "worker.db-wal", "worker.db-shm"]
  nonempty := by decide
  unlocked := by decide
  unmarked := by decide

structure Pins where
  build : String
  configDigest : String
deriving DecidableEq

def pins (value : Pins) : Except RecoveryError Pins :=
  let build := value.build.toList
  let digest := value.configDigest.toList
  if 1 ≤ build.length ∧ build.length ≤ 128 ∧
      build.all (fun c => c.isAlphanum || c == '.' || c == '_' || c == '-') = true ∧
      digest.length = 64 ∧ digest.all Data.lowerHexChar = true then .ok value
  else .error .invalidPins

/-- The file's bytes, once it was read as a private file. -/
def key (bytes : Bytes) : Except RecoveryError Bytes :=
  if bytes.length = 32 then .ok bytes else .error .invalidKey

def sextet (c : Char) : Option Nat :=
  let code := c.toNat
  if 'A'.toNat ≤ code ∧ code ≤ 'Z'.toNat then some (code - 'A'.toNat)
  else if 'a'.toNat ≤ code ∧ code ≤ 'z'.toNat then some (code - 'a'.toNat + 26)
  else if '0'.toNat ≤ code ∧ code ≤ '9'.toNat then some (code - '0'.toNat + 52)
  else if c = '+' then some 62
  else if c = '/' then some 63
  else none

/-- Groups of four characters, the last one padded; unused trailing bits are dropped. -/
def decodeGroups : List Char → Option Bytes
  | [] => some []
  | a :: b :: c :: d :: rest => do
    let a ← sextet a
    let b ← sextet b
    let first := UInt8.ofNat (a * 4 + b / 16)
    if c = '=' ∧ d = '=' ∧ rest = [] then return [first]
    let c ← sextet c
    let second := UInt8.ofNat (b % 16 * 16 + c / 4)
    if d = '=' ∧ rest = [] then return [first, second]
    let d ← sextet d
    let rest ← decodeGroups rest
    return first :: second :: UInt8.ofNat (c % 4 * 64 + d) :: rest
  | _ => none

def decode64 (text : String) (max : Nat) : Option Bytes :=
  (decodeGroups text.toList).filter (·.length ≤ max)

structure Manifest where
  version : Nat
  contractVersion : String
  build : String
  configDigest : String
  /-- The instant the text parses to, if any. -/
  createdAt : Option Int
  quarantineRequired : Bool

structure ArchivedFile where
  name : String
  size : Nat
  sha256 : String
  data : String

structure Payload where
  manifest : Manifest
  files : List ArchivedFile

structure Header where
  format : String
  version : Nat
  algorithm : String
deriving DecidableEq

structure Envelope where
  header : Header
  nonce : String
  tag : String
  ciphertext : String

/-- The primitives of `node:crypto`. -/
structure Crypto where
  sha256 : Bytes → String
  /-- The base64 text of at most `3/2 * maxTotal` bytes, AES-256-GCM with the header as
  additional data, then the JSON of the clear text. -/
  decipher : (secret nonce tag : Bytes) → Header → String → Option Payload

structure RestoredFile where
  name : String
  bytes : Bytes

section

variable (crypto : Crypto) (profile : Profile)

def readFiles : List ArchivedFile → List String → Nat → Option (List RestoredFile)
  | [], _, _ => some []
  | file :: rest, seen, total =>
    if file.name ∉ profile.allowed ∨ file.name ∈ seen then none
    else match decode64 file.data maxFile with
      | none => none
      | some bytes =>
        if maxTotal < total + bytes.length ∨ bytes.length ≠ file.size ∨ crypto.sha256 bytes ≠ file.sha256 then none
        else (readFiles rest (file.name :: seen) (total + bytes.length)).map (⟨file.name, bytes⟩ :: ·)

def openEnvelope (secret : Bytes) (envelope : Envelope) : Option Payload :=
  if envelope.header ≠ ⟨profile.format, 1, "aes-256-gcm"⟩ then none
  else match decode64 envelope.nonce 12, decode64 envelope.tag 16 with
    | some nonce, some tag =>
      if nonce.length ≠ 12 ∨ tag.length ≠ 16 then none
      else crypto.decipher secret nonce tag envelope.header envelope.ciphertext
    | _, _ => none

def pinned (manifest : Manifest) (expected : Pins) : Bool :=
  manifest.version = 1 && manifest.contractVersion = profile.contract && manifest.quarantineRequired &&
    manifest.build = expected.build && manifest.configDigest = expected.configDigest &&
    manifest.createdAt.isSome

/-- Everything but a pin mismatch is reported as a failed authentication. -/
def decrypt (secret : Bytes) (envelope : Option Envelope) (expected : Pins) :
    Except RecoveryError (List RestoredFile) :=
  match envelope.bind (openEnvelope crypto profile secret) with
  | none => .error .archiveAuthenticationFailed
  | some payload =>
    if pinned profile payload.manifest expected then
      if payload.files.length < profile.required.length ∨ profile.allowed.length < payload.files.length then
        .error .archiveAuthenticationFailed
      else match readFiles crypto profile payload.files [] 0 with
        | none => .error .archiveAuthenticationFailed
        | some files =>
          if ∀ name ∈ profile.required, name ∈ files.map RestoredFile.name then .ok files
          else .error .archiveAuthenticationFailed
    else .error .pinMismatch

/-- The files of an archive that was accepted. -/
structure Accepted (files : List RestoredFile) : Prop where
  allowed : ∀ file ∈ files, file.name ∈ profile.allowed
  distinct : (files.map RestoredFile.name).Nodup
  complete : ∀ name ∈ profile.required, name ∈ files.map RestoredFile.name

variable {crypto profile}

variable {files : List RestoredFile}

theorem readFiles_names {archived : List ArchivedFile} {seen : List String} {total : Nat}
    (read : readFiles crypto profile archived seen total = some files) :
    (∀ file ∈ files, file.name ∈ profile.allowed ∧ file.name ∉ seen) ∧
      (files.map RestoredFile.name).Nodup := by
  induction archived generalizing seen total files with
  | nil => cases read; simp
  | cons file rest ih =>
    simp only [readFiles] at read
    split at read
    case isTrue => contradiction
    case isFalse known =>
      obtain ⟨allowed, fresh⟩ := not_or.mp known
      split at read
      case h_1 => contradiction
      case h_2 bytes _ =>
        split at read
        case isTrue => contradiction
        case isFalse =>
          obtain ⟨tail, readRest, rfl⟩ := Option.map_eq_some_iff.mp read
          obtain ⟨names, distinct⟩ := ih readRest
          constructor
          · intro other member
            rcases List.mem_cons.mp member with rfl | member
            · exact ⟨not_not.mp allowed, fresh⟩
            · obtain ⟨allowed, unseen⟩ := names other member
              exact ⟨allowed, fun old => unseen (List.mem_cons_of_mem _ old)⟩
          · refine List.nodup_cons.mpr ⟨fun repeated => ?_, distinct⟩
            obtain ⟨other, member, same⟩ := List.mem_map.mp repeated
            exact (names other member).2 (by rw [same]; exact List.mem_cons_self)

theorem decrypt_accepted {secret : Bytes} {envelope : Option Envelope} {expected : Pins}
    (decrypted : decrypt crypto profile secret envelope expected = .ok files) :
    Accepted profile files := by
  unfold decrypt at decrypted
  split at decrypted
  · contradiction
  · split at decrypted
    · split at decrypted
      · contradiction
      · split at decrypted
        · contradiction
        case h_2 restored read =>
          split at decrypted
          case isFalse => contradiction
          case isTrue complete =>
            cases decrypted
            obtain ⟨names, distinct⟩ := readFiles_names read
            exact ⟨fun file member => (names file member).1, distinct, complete⟩
    · contradiction

theorem Accepted.nonempty (accepted : Accepted profile files) : files ≠ [] := by
  intro empty
  subst empty
  obtain ⟨name, member⟩ := List.exists_mem_of_ne_nil _ profile.nonempty
  exact absurd (accepted.complete name member) List.not_mem_nil

end

open Storage Transition

/-- What a file holds.  A lease is the JSON of its two fields. -/
inductive Content where
  | bytes (bytes : Bytes)
  | lease (pid : Nat) (nonce : String)
deriving DecidableEq

abbrev Files := FileSystem Content

def maxSafeInteger : Nat := 9007199254740991

def lift : Except Errno Files → Except RecoveryError Files
  | .ok after => .ok after
  | .error _ => .error .system

def privateDirectory (fs : Files) (path : Path) : Except RecoveryError Unit :=
  if fs.node path = some (.directory true) then .ok () else .error .unsafeDirectory

def readPrivate (fs : Files) (path : Path) : Except RecoveryError Content :=
  match privateDirectory fs path.tail with
  | .error reason => .error reason
  | .ok () =>
    match fs.node path with
    | some (.file true content) => .ok content
    | _ => .error .unsafeFile

def acquireStateLease (fs : Files) (stateRoot : Path) (pid : Nat) (nonce : String) :
    Except RecoveryError Files :=
  match privateDirectory fs stateRoot with
  | .error reason => .error reason
  | .ok () =>
    if (fs.node (restoreIncompleteMarker :: stateRoot)).isSome then .error .restoreIncomplete
    else match fs.create (maintenanceLock :: stateRoot) (.lease pid nonce) with
      | .ok after => .ok after
      | .error _ => .error .stateBusy

/-- The `close` of the lease that was acquired with this nonce. -/
def closeLease (fs : Files) (stateRoot : Path) (nonce : String) : Except RecoveryError Files :=
  match readPrivate fs (maintenanceLock :: stateRoot) with
  | .error reason => .error reason
  | .ok (.bytes _) => .error .leaseChanged
  | .ok (.lease _ saved) =>
    if saved ≠ nonce then .error .leaseChanged
    else lift (fs.unlink (maintenanceLock :: stateRoot))

/-- `alive` says of which processes signal 0 does not answer `ESRCH`. -/
def recoverStoppedLease (alive : Nat → Bool) (fs : Files) (stateRoot : Path) : Except RecoveryError Files :=
  match privateDirectory fs stateRoot with
  | .error reason => .error reason
  | .ok () =>
    match readPrivate fs (maintenanceLock :: stateRoot) with
    | .error reason => .error reason
    | .ok (.bytes _) => .error .invalidLease
    | .ok (.lease pid _) =>
      if maxSafeInteger < pid ∨ pid < 1 then .error .invalidLease
      else if alive pid then .error .stateBusy
      else if (fs.node (restoreIncompleteMarker :: stateRoot)).isSome then .error .restoreIncomplete
      else lift (fs.unlink (maintenanceLock :: stateRoot))

structure RestoreCall where
  /-- The destination's directory and its name in it. -/
  parent : Path
  name : String
  files : List RestoredFile
  /-- What `randomUUID()` returns for the staging directory and for the lease. -/
  stagingId : String
  nonce : String
  pid : Nat

namespace RestoreCall

def destination (call : RestoreCall) : Path := call.name :: call.parent

def staging (call : RestoreCall) : Path := ("." ++ call.name ++ ".restore-" ++ call.stagingId) :: call.parent

end RestoreCall

structure RestoreOptions where
  parent : Path
  name : String
  /-- What the key file and the archive hold, the archive as parsed. -/
  keyBytes : Bytes
  envelope : Option Envelope
  expectedPins : Pins
  stagingId : String
  nonce : String
  pid : Nat

def RestoreOptions.call (options : RestoreOptions) (files : List RestoredFile) : RestoreCall :=
  { parent := options.parent, name := options.name, files, stagingId := options.stagingId
    nonce := options.nonce, pid := options.pid }

/-- Up to and with the creation of the staging directory; what fails here cleans nothing up. -/
def openRestore (crypto : Crypto) (profile : Profile) (fs : Files) (options : RestoreOptions) :
    Except RecoveryError (RestoreCall × Files) := do
  let expected ← pins options.expectedPins
  privateDirectory fs options.parent
  if (fs.node (options.name :: options.parent)).isSome then .error .destinationExists
  else
    let secret ← key options.keyBytes
    let files ← decrypt crypto profile secret options.envelope expected
    let call := options.call files
    let opened ← lift (fs.mkdir call.staging)
    return (call, opened)

inductive RestoreStep where
  | stage (file : RestoredFile)
  | makeDestination
  | lease
  | mark
  | publish (file : RestoredFile)
  | unmark
  | release

def RestoreStep.apply (call : RestoreCall) (fs : Files) : RestoreStep → Except RecoveryError Files
  | .stage file => lift (fs.create (file.name :: call.staging) (.bytes file.bytes))
  | .makeDestination => lift (fs.mkdir call.destination)
  | .lease => acquireStateLease fs call.destination call.pid call.nonce
  | .mark => lift (fs.create (restoreIncompleteMarker :: call.destination)
      (.bytes "quarantined restore publication".toUTF8.toList))
  | .publish file => lift (fs.rename (file.name :: call.staging) (file.name :: call.destination))
  | .unmark => lift (fs.unlink (restoreIncompleteMarker :: call.destination))
  | .release => closeLease fs call.destination call.nonce

/-- What follows the marker. -/
def RestoreCall.publication (call : RestoreCall) : List RestoreStep :=
  call.files.map .publish ++ [.unmark, .release]

def RestoreCall.steps (call : RestoreCall) : List RestoreStep :=
  call.files.map .stage ++ .makeDestination :: .lease :: .mark :: call.publication

/-- The restore is cut after `count` of its steps, by a crash or by an exception.
An exception, and the end of a restore, go on to remove the staging directory;
that too may be cut. -/
def interrupted (opened : Files) (call : RestoreCall) (count removals : Nat) : Files :=
  let stopped := attempt (RestoreStep.apply call) opened (call.steps.take count)
  attempt FileSystem.remove stopped ((stopped.below call.staging).take removals)

end ProxyPilot.Recovery
