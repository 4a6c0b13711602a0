import ProxyPilot.Data.Checks
import ProxyPilot.Data.Table

namespace ProxyPilot.Artifacts

open Data

/-! # Private browser artifacts (`operational-browser-artifacts-store.js`)

Times are milliseconds. A digest stands for the value it is the digest of.
-/

def day : Nat := 86400000

def maxBytes : Nat := 16777216

inductive Mime where
  | pdf
  | plain
  | csv
  | png
  | jpeg
deriving DecidableEq

inductive Kind where
  | uploadAsset
  | download
  | screenshot
  | screenshotDerivative
  | clipboard
  | inputDraft
  | observation
deriving DecidableEq

/-- What an attempt is asked to authorize. -/
inductive Intent where
  | asset
  | artifactCapture
  | artifactTransform
  | clipboardImport
  | clipboardWorker
  | clipboardExport
  | inputDraft
  | observation
  | artifactRead
  | artifactReview
  | artifactInput
  | artifactInputApproval
  | artifactModel
deriving DecidableEq

/-- What a review is about. -/
inductive Purpose where
  | assetUse
  | humanDownload
  | modelInput
  | browserInput
deriving DecidableEq

inductive ReadPurpose where
  | review
  | download
  | upload
  | model
  | clipboard
  | clipboardWorker
  | input
deriving DecidableEq

inductive ArtifactState where
  | reserved
  | staged
  | approved
  | rejected
  | cancelled
  | expired
deriving DecidableEq

def ArtifactState.final : ArtifactState → Bool
  | .cancelled | .rejected | .expired => true
  | _ => false

inductive Outcome where
  | deleted
  | missing
deriving DecidableEq

inductive FileState where
  | allocated
  | sealed
  | removed (outcome : Outcome)
deriving DecidableEq

structure Scope where
  projectId : String
  runId : String
  attemptId : String
  fence : Nat
deriving DecidableEq

/-- A file as it is announced (`bytesSchema`). -/
structure Bytes where
  idempotencyKey : String
  byteCount : Nat
  mime : Mime
  sha256 : String
  nonempty : 1 ≤ byteCount
  bounded : byteCount ≤ maxBytes

/-- An id and the digest of what it names. -/
structure Pin where
  id : String
  sha256 : String
deriving DecidableEq

/-- What `payload_hash` is the digest of. -/
structure Payload where
  projectId : String
  scope : Option Scope
  kind : Kind
  writeIntent : Intent
  parentId : Option String
  idempotencyKey : String
  sha256 : String
  mime : Mime
  byteCount : Nat
deriving DecidableEq

structure Busy where
  token : String
  busyUntil : Nat

structure Artifact where
  id : String
  projectId : String
  actorId : String
  scope : Option Scope
  kind : Kind
  writeIntent : Intent
  parentId : Option String
  idempotencyKey : String
  payload : Payload
  sha256 : String
  byteCount : Nat
  mime : Mime
  reservationUntil : Nat
  expiresAt : Nat
  state : ArtifactState
  chargedBytes : Nat
  fileState : FileState
  busy : Option Busy

instance : Keyed Artifact String := ⟨Artifact.id⟩

structure Review where
  artifactId : String
  sha256 : String
  purpose : Purpose
  approve : Bool

instance : Keyed Review (String × Purpose) := ⟨fun review => (review.artifactId, review.purpose)⟩

structure ReadLease where
  id : String
  artifactId : String
  actorId : String
  purpose : ReadPurpose
  expiresAt : Nat

instance : Keyed ReadLease String := ⟨ReadLease.id⟩

structure Deletion where
  artifactId : String
  completedAt : Nat
  outcome : Outcome

instance : Keyed Deletion String := ⟨Deletion.artifactId⟩

structure Draft where
  artifactId : String
  target : Pin
  snapshot : Pin
  purpose : String
deriving DecidableEq

instance : Keyed Draft String := ⟨Draft.artifactId⟩

structure DraftApproval where
  artifactId : String
  approvalRef : Pin

instance : Keyed DraftApproval String := ⟨DraftApproval.artifactId⟩

structure ObservationSource where
  artifactId : String
  snapshot : Pin
  origin : Option String
  url : Option String
deriving DecidableEq

instance : Keyed ObservationSource String := ⟨ObservationSource.artifactId⟩

structure State where
  now : Nat
  artifacts : Table Artifact
  reviews : Table Review
  leases : Table ReadLease
  deletions : Table Deletion
  drafts : Table Draft
  draftApprovals : Table DraftApproval
  sources : Table ObservationSource

inductive BrowserAction where
  | copy
  | paste
  | type
  | download
  | screenshot

/-- What the store reads of an attempt's pinned configuration. -/
structure Configuration where
  maxArtifactBytes : Nat
  maxSeconds : Nat
  retentionDays : Nat
  clipboardMaxBytes : Nat
  downloadMaxBytes : Nat
  downloadMimeTypes : List Mime
  permits : BrowserAction → Bool
  navigationOrigins : List String

/-- A finite quota. -/
def Quota : Type := { bytes : Nat // maxBytes ≤ bytes ∧ bytes ≤ 2147483648 }

structure World where
  installationBytes : Quota
  accountBytes : Quota
  projectBytes : Quota
  assetRetentionDays : { days : Nat // 1 ≤ days ∧ days ≤ 30 }
  /-- Whether an origin is checked by the caller's own function. -/
  originChecked : Bool
  configuration : Scope → Configuration
  /-- A configuration is pinned to the attempt, whatever its fence. -/
  pinned : ∀ scope fence, configuration { scope with fence := fence } = configuration scope

structure Refusal where
  status : Nat
  message : String

inductive Access where
  | read
  | edit
  | run
  | review

/-- What a current attempt says of itself, besides its configuration. -/
structure AttemptProof where
  manualAuth : Bool
  modelConsent : Bool

/-- What the functions the store is given answer within one call; an access answers whether the
caller owns the project. -/
structure Answers where
  access : Access → Except Refusal Bool
  attempt : Intent → Except Refusal AttemptProof
  verifyInputApproval : Bool
  verifyObservationOrigin : Bool

end ProxyPilot.Artifacts
