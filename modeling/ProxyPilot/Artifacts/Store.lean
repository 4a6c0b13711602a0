import ProxyPilot.Artifacts.Records
import ProxyPilot.Data.Tally

namespace ProxyPilot.Artifacts

open Data

/-! # The store's methods

A method runs inside one transaction: it answers with the state it leaves, or
refuses and leaves the state it found.
-/

variable (w : World) (answers : Answers) (s : State)

def notFound : Refusal := ⟨404, "Private browser artifact not found"⟩

def row (project id : String) : Except Refusal Artifact :=
  demand ((s.artifacts.get id).filter (·.projectId == project)) notFound

def Intent.access : Intent → Access
  | .artifactRead => .read
  | .artifactTransform => .review
  | _ => .run

/-- An observation is captured like any other file. -/
def Intent.asked : Intent → Intent
  | .observation => .artifactCapture
  | intent => intent

def authorize (intent : Intent) : Except Refusal AttemptProof := do
  let _ ← answers.access intent.asked.access
  answers.attempt intent.asked

/-- `scoped`. -/
def scopedArtifact (scope : Scope) (id : String) (intent : Intent) : Except Refusal (Artifact × AttemptProof) := do
  let proof ← authorize answers intent
  let a ← row s scope.projectId id
  require (a.scope == some scope) notFound
  pure (a, proof)

def asset (project id : String) (action : Access) : Except Refusal (Artifact × Bool) := do
  let owner ← answers.access action
  let a ← row s project id
  require (a.kind == .uploadAsset) notFound
  pure (a, owner)

def live (a : Artifact) : Except Refusal Unit :=
  require (decide (s.now < a.expiresAt) && !a.state.final) ⟨410, "Private browser artifact unavailable"⟩

def Artifact.isSealed (a : Artifact) : Bool :=
  a.fileState == .sealed && (a.state == .staged || a.state == .approved)

def sealed (a : Artifact) : Except Refusal Unit := do
  live s a
  require a.isSealed ⟨409, "Private browser artifact not sealed"⟩

def approved (a : Artifact) (purpose : Purpose) : Bool :=
  (s.reviews.get (a.id, purpose)).any fun review => review.sha256 == a.sha256 && review.approve

structure Request where
  bytes : Bytes
  kind : Kind
  parentId : Option String

def payloadOf (project : String) (scope : Option Scope) (v : Request) (writeIntent : Intent) : Payload :=
  ⟨project, scope, v.kind, writeIntent, v.parentId, v.bytes.idempotencyKey, v.bytes.sha256,
    v.bytes.mime, v.bytes.byteCount⟩

def Artifact.reservedAt (a : Artifact) (now : Nat) : Bool :=
  a.state == .reserved && decide (now < a.reservationUntil)

def Artifact.busyAt (a : Artifact) (now : Nat) : Bool := a.busy.any fun busy => decide (now < busy.busyUntil)

/-- A file under way, for the concurrency limits. -/
def Artifact.active (now : Nat) (a : Artifact) : Bool := a.reservedAt now || a.busyAt now

def activeWhere (chosen : Artifact → Bool) : Nat := s.artifacts.count fun a => chosen a && a.active s.now

def usedWhere (chosen : Artifact → Bool) : Nat := s.artifacts.total fun a => if chosen a then a.chargedBytes else 0

def Scope.sameAttempt (scope other : Scope) : Bool :=
  scope.projectId == other.projectId && scope.runId == other.runId && scope.attemptId == other.attemptId

/-- Everything an attempt ever reserved, whatever its fence. -/
def attemptBytes (scope : Scope) : Nat :=
  s.artifacts.total fun a => if a.scope.any scope.sameAttempt then a.byteCount else 0

def currentParent (project : String) (scope : Option Scope) (id : String) : Except Refusal Artifact := do
  let parent ← row s project id
  sealed s parent
  require (parent.kind == .screenshot && parent.scope == scope) ⟨409, "Current screenshot original required"⟩
  pure parent

def parentOf (project : String) (scope : Option Scope) : Option String → Except Refusal (Option Artifact)
  | none => pure none
  | some id => some <$> currentParent s project scope id

def capacity : Refusal := ⟨413, "Browser artifact capacity exhausted"⟩

def retention (scope : Option Scope) (kind : Kind) (parent : Option Artifact) : Nat :=
  let base := match scope with
    | none => w.assetRetentionDays.val * day
    | some scope =>
      let c := w.configuration scope
      if kind = .clipboard ∨ kind = .inputDraft then min (c.maxSeconds * 1000) day else c.retentionDays * day
  match parent with
  | none => base
  | some parent => min base (parent.expiresAt - s.now)

def newArtifact (actor project : String) (scope : Option Scope) (v : Request) (writeIntent : Intent)
    (parent : Option Artifact)
    (id : String) : Artifact where
  id := id
  projectId := project
  actorId := actor
  scope := scope
  kind := v.kind
  writeIntent := writeIntent
  parentId := v.parentId
  idempotencyKey := v.bytes.idempotencyKey
  payload := payloadOf project scope v writeIntent
  sha256 := v.bytes.sha256
  byteCount := v.bytes.byteCount
  mime := v.bytes.mime
  reservationUntil := s.now + 600000
  expiresAt := s.now + retention w s scope v.kind parent
  state := .reserved
  chargedBytes := v.bytes.byteCount
  fileState := .allocated
  busy := none

/-- The allowance of an attempt counts what it gave up or lost as well. -/
def withinBudget (scope : Option Scope) (bytes : Nat) : Bool :=
  scope.all fun scope => decide (attemptBytes s scope + bytes ≤ (w.configuration scope).maxArtifactBytes)

def reserveNew (actor project : String) (scope : Option Scope) (v : Request) (writeIntent : Intent) (id : String) :
    Except Refusal (Artifact × State) := do
  let parent ← parentOf s project scope v.parentId
  require (decide (activeWhere s (·.actorId == actor) < 2) && decide (activeWhere s (·.projectId == project) < 4) &&
    decide (activeWhere s (fun _ => true) < 8)) ⟨429, "Browser artifact concurrency limit"⟩
  require (decide (usedWhere s (fun _ => true) + v.bytes.byteCount ≤ w.installationBytes.val)) capacity
  require (decide (usedWhere s (·.actorId == actor) + v.bytes.byteCount ≤ w.accountBytes.val)) capacity
  require (decide (usedWhere s (·.projectId == project) + v.bytes.byteCount ≤ w.projectBytes.val)) capacity
  require (withinBudget w s scope v.bytes.byteCount) ⟨413, "Browser attempt artifact budget exhausted"⟩
  require (s.artifacts.get id).isNone ⟨500, "UNIQUE constraint failed: ops_browser_artifacts.id"⟩
  let a := newArtifact w s actor project scope v writeIntent parent id
  pure (a, { s with artifacts := s.artifacts.put a })

def prior (actor project key : String) : Option Artifact :=
  s.artifacts.rows.find? fun a => a.projectId == project && a.actorId == actor && a.idempotencyKey == key

def reserve (actor project : String) (scope : Option Scope) (v : Request) (writeIntent : Intent) (id : String) :
    Except Refusal (Artifact × State) :=
  match prior s actor project v.bytes.idempotencyKey with
  | some prior => do
    require (prior.payload == payloadOf project scope v writeIntent) ⟨409,
      "Browser artifact idempotency key already used"⟩
    live s prior
    pure (prior, s)
  | none => reserveNew w s actor project scope v writeIntent id

def clipboardAllowed (c : Configuration) (intent : Intent) (mime : Mime) (byteCount : Nat) : Bool :=
  mime == .plain && decide (byteCount ≤ c.clipboardMaxBytes) &&
    c.permits (if intent = .clipboardImport then .paste else .copy)

/-- What a file of the kind must be. -/
def kindAllowed (c : Configuration) (proof : AttemptProof) (kind : Kind) (intent : Intent)
    (mime : Mime) (byteCount : Nat) :
    Except Refusal Unit :=
  match kind with
  | .clipboard =>
    require (clipboardAllowed c intent mime byteCount) ⟨403, "Attempt clipboard permission or size refused"⟩
  | .download =>
    require (c.permits .download && c.downloadMimeTypes.contains mime && decide (byteCount ≤ c.downloadMaxBytes))
      ⟨403, "Attempt download permission or type refused"⟩
  | .screenshot | .screenshotDerivative =>
    require (c.permits .screenshot && mime == .png && decide (byteCount ≤ 8388608))
      ⟨403, "Attempt screenshot permission or size refused"⟩
  | .inputDraft =>
    require (mime == .plain && decide (byteCount ≤ 12000) && proof.modelConsent &&
      (c.permits .type || c.permits .paste))
      ⟨403, "Current consented input draft permission required"⟩
  | .observation => require (mime == .plain && decide (byteCount ≤ 4000) && proof.modelConsent)
      ⟨403, "Current bounded page disclosure consent required"⟩
  | .uploadAsset => pure ()

def transformAllowed (scope : Scope) (kind : Kind) (parentId : Option String) : Except Refusal Unit := do
  let id ← demand (parentId.filter fun _ => kind == .screenshotDerivative) ⟨403,
      "A private screenshot derivative is required"⟩
  let (a, _) ← scopedArtifact answers s scope id .artifactRead
  sealed s a
  require (a.kind == .screenshot) ⟨403, "Current retained screenshot original required"⟩

def stagePolicy (scope : Scope) (kind : Kind) (mime : Mime) (byteCount : Nat)
    (parentId : Option String) (intent : Intent) :
    Except Refusal AttemptProof := do
  let proof ← authorize answers intent
  require (!proof.manualAuth || intent == .clipboardImport) ⟨409,
    "Private artifacts are disabled during manual authentication"⟩
  kindAllowed (w.configuration scope) proof kind intent mime byteCount
  if intent = .artifactTransform then transformAllowed answers s scope kind parentId else pure ()
  pure proof

def Request.staged (v : Request) : Bool :=
  (v.kind == .download || v.kind == .screenshot || v.kind == .screenshotDerivative || v.kind == .clipboard) &&
    ((v.kind == .screenshotDerivative) == v.parentId.isSome)

def invalidRequest : Refusal := ⟨400, "Invalid request"⟩

/-- A reservation of an attempt, under the policy of its intent. -/
def reserveScoped (actor : String) (scope : Scope) (v : Request) (intent writeIntent : Intent) (id : String) :
    Except Refusal (Artifact × State) := do
  let _ ← stagePolicy w answers s scope v.kind v.bytes.mime v.bytes.byteCount v.parentId intent
  reserve w s actor scope.projectId (some scope) v writeIntent id

def reserveAsset (actor project : String) (bytes : Bytes) (id : String) : Except Refusal (Artifact × State) := do
  let _ ← answers.access .edit
  reserve w s actor project none ⟨bytes, .uploadAsset, none⟩ .asset id

def Request.intent (v : Request) : Intent := if v.kind = .clipboard then .clipboardWorker else .artifactCapture

def reserveAttempt (actor : String) (scope : Scope) (v : Request) (id : String) :
    Except Refusal (Artifact × State) := do
  require v.staged invalidRequest
  reserveScoped w answers s actor scope v v.intent v.intent id

def reserveScreenshotDerivative (actor : String) (scope : Scope) (v : Request) (id : String) :
    Except Refusal (Artifact × State) := do
  require v.staged invalidRequest
  reserveScoped w answers s actor scope v .artifactTransform .artifactTransform id

def reserveClipboardImport (actor : String) (scope : Scope) (bytes : Bytes) (id : String) :
    Except Refusal (Artifact × State) :=
  reserveScoped w answers s actor scope ⟨bytes, .clipboard, none⟩ .clipboardImport .clipboardImport id

def bindDraft (s : State) (draft : Draft) : Except Refusal State :=
  match s.drafts.get draft.artifactId with
  | some previous => do
    require (previous == draft) ⟨409, "Input draft binding changed"⟩
    pure s
  | none => pure { s with drafts := s.drafts.put draft }

def reserveInputDraft (actor : String) (scope : Scope) (bytes : Bytes) (target snapshot : Pin)
    (purpose id : String) :
    Except Refusal (Artifact × State) := do
  let (a, s) ← reserveScoped w answers s actor scope ⟨bytes, .inputDraft, none⟩ .inputDraft .inputDraft id
  let s ← bindDraft s ⟨a.id, target, snapshot, purpose⟩
  pure (a, s)

def originAllowed (scope : Scope) (origin : String) : Bool :=
  if w.originChecked then answers.verifyObservationOrigin
    else (w.configuration scope).navigationOrigins.contains origin

def bindSource (s : State) (source : ObservationSource) : Except Refusal State :=
  match s.sources.get source.artifactId with
  | some previous => do
    require (previous == source) ⟨409, "Observation provenance changed"⟩
    pure s
  | none => pure { s with sources := s.sources.put source }

def reserveObservation (actor : String) (scope : Scope) (bytes : Bytes) (snapshot : Pin)
    (origin url : Option String) (id : String) :
    Except Refusal (Artifact × State) := do
  require (origin.isSome == url.isSome) invalidRequest
  let _ ← stagePolicy w answers s scope .observation bytes.mime bytes.byteCount none .observation
  require (origin.all (originAllowed w answers scope)) ⟨403,
    "Current selected or approved observation origin required"⟩
  let (a, s) ← reserve w s actor scope.projectId (some scope) ⟨bytes, .observation, none⟩ .observation id
  let s ← bindSource s ⟨a.id, snapshot, origin, url⟩
  pure (a, s)

/-- What the service keeps of a claimed artifact. -/
structure WriteLease where
  id : String
  projectId : String
  scope : Option Scope
  writeIntent : Intent
  token : String

/-- `UPDATE … WHERE id=?`. -/
def Artifact.changeIf (id : String) (change : Artifact → Artifact) (a : Artifact) : Artifact :=
  if a.id = id then { change a with id := a.id } else a

theorem Artifact.changeIf_id (id : String) (change : Artifact → Artifact) (a : Artifact) :
    (a.changeIf id change).id = a.id := by
  unfold changeIf
  split <;> rfl

def State.update (id : String) (change : Artifact → Artifact) : State :=
  { s with artifacts := s.artifacts.map (Artifact.changeIf id change) (Artifact.changeIf_id id change) }

/-- The artifact of a method that has an attempt's and a project's form. -/
def named (project : String) (scope : Option Scope) (id : String) (intent : Intent) : Except Refusal Artifact :=
  match scope with
  | some scope => Prod.fst <$> scopedArtifact answers s scope id intent
  | none => Prod.fst <$> asset answers s project id .edit

def claimable (actor project id : String) (scope : Option Scope) : Except Refusal Artifact := do
  let stored ← row s project id
  let a ← named answers s project scope id stored.writeIntent
  require (a.actorId == actor) ⟨403, "Only the staging account can write these bytes"⟩
  live s a
  pure a

/-- The lease, unless the bytes are there already. -/
def claim (actor project id : String) (scope : Option Scope) (token : String) :
    Except Refusal (Option WriteLease × State) := do
  let a ← claimable answers s actor project id scope
  if a.state = .reserved then do
    require (decide (s.now < a.reservationUntil)) ⟨410, "Browser artifact reservation expired"⟩
    require (!a.busyAt s.now) ⟨409, "Browser artifact staging busy"⟩
    pure (some ⟨id, a.projectId, scope, a.writeIntent, token⟩,
      s.update id fun a => { a with busy := some ⟨token, s.now + 60000⟩ })
  else do
    sealed s a
    pure (none, s)

def checkWrite (actor : String) (l : WriteLease) : Except Refusal Artifact := do
  let a ← named answers s l.projectId l.scope l.id l.writeIntent
  live s a
  require (a.actorId == actor && a.reservedAt s.now && a.busyAt s.now &&
    (a.busy.any fun busy => busy.token == l.token))
    ⟨409, "Browser artifact staging lease lost"⟩
  match l.scope with
  | some scope => do
    let _ ← stagePolicy w answers s scope a.kind a.mime a.byteCount a.parentId a.writeIntent
    pure a
  | none => pure a

/-- Digest, size and media type of the bytes that were written. -/
structure Written where
  sha256 : String
  byteCount : Nat
  mime : Mime
deriving DecidableEq

/-- `seal`. -/
def sealBytes (actor : String) (l : WriteLease) (proof : Written) : Except Refusal State := do
  let a ← checkWrite w answers s actor l
  require (proof == ⟨a.sha256, a.byteCount, a.mime⟩) ⟨400, "Browser artifact digest, size or media type mismatch"⟩
  pure (s.update a.id fun a => { a with state := .staged, fileState := .sealed, busy := none })

def Artifact.released (token : String) (a : Artifact) : Artifact :=
  if a.busy.any fun busy => busy.token == token then { a with busy := none } else a

def releaseWrite (l : WriteLease) : State := s.update l.id (Artifact.released l.token)

def record (review : Review) : State := { s with reviews := s.reviews.put review }

def unreviewed (id : String) (purpose : Purpose) : Bool := (s.reviews.get (id, purpose)).isNone

def decided : Refusal := ⟨409, "Artifact release decision already recorded"⟩

def reviewAsset (project id : String) (approve : Bool) : Except Refusal State := do
  let (a, _) ← asset answers s project id .review
  sealed s a
  require (unreviewed s id .assetUse) ⟨409, "Browser asset review already recorded"⟩
  pure ((record s ⟨id, a.sha256, .assetUse, approve⟩).update id fun a =>
    { a with state := if approve then .approved else .rejected })

def reviewRelease (scope : Scope) (id : String) (purpose : Purpose) (approve : Bool) : Except Refusal State := do
  require (purpose == .humanDownload || purpose == .modelInput) invalidRequest
  let (a, proof) ← scopedArtifact answers s scope id (if purpose = .humanDownload then .artifactRead
      else .artifactReview)
  let _ ← answers.access .review
  sealed s a
  require (a.kind == .download || a.kind == .screenshotDerivative) ⟨403,
    "A reviewed screenshot derivative or download is required"⟩
  require (!proof.manualAuth) ⟨409, "Artifact release disabled during manual authentication"⟩
  require (purpose != .modelInput || proof.modelConsent) ⟨403, "Current model disclosure consent required"⟩
  require (unreviewed s id purpose) decided
  pure (record s ⟨id, a.sha256, purpose, approve⟩)

def reviewAssetModel (project id : String) (approve : Bool) : Except Refusal State := do
  let (a, owner) ← asset answers s project id .review
  sealed s a
  require (owner && approved s a .assetUse) ⟨403,
    "Project owner must approve this exact private source for model disclosure"⟩
  require (unreviewed s id .modelInput) decided
  pure (record s ⟨id, a.sha256, .modelInput, approve⟩)

def ReadPurpose.intent : ReadPurpose → Intent
  | .clipboard => .clipboardExport
  | .clipboardWorker => .clipboardWorker
  | .input => .artifactInput
  | .model => .artifactModel
  | _ => .artifactRead

def clipboardReadable (w : World) (scope : Scope) (a : Artifact) (proof : AttemptProof)
    (purpose : ReadPurpose) : Bool :=
  a.kind == .clipboard &&
    (purpose != .clipboardWorker || (!proof.manualAuth && (w.configuration scope).permits .paste))

def modelReadable (a : Artifact) (proof : AttemptProof) : Bool :=
  a.kind != .clipboard && a.kind != .screenshot &&
    (if a.kind = .observation then (s.sources.get a.id).isSome else approved s a .modelInput) &&
      !proof.manualAuth && proof.modelConsent

def purposeAllowed (scope : Scope) (a : Artifact) (proof : AttemptProof) (purpose : ReadPurpose) :
    Except Refusal Unit :=
  match purpose with
  | .review => pure ()
  | .clipboard | .clipboardWorker =>
    require (clipboardReadable w scope a proof purpose) ⟨403, "Attempt clipboard unavailable"⟩
  | .download => require ((a.kind == .download || a.kind == .screenshotDerivative) && approved s a .humanDownload)
      ⟨403, "Human review required before private file release"⟩
  | .model => require (modelReadable s a proof) ⟨403, "Explicit model disclosure approval required"⟩
  | .upload => .error ⟨400, "Use a pinned project asset for browser upload"⟩
  | .input => require (a.kind == .inputDraft && approved s a .browserInput && !proof.manualAuth)
      ⟨403, "Exact input draft approval required"⟩

def readAuthorized (scope : Scope) (id : String) (purpose : ReadPurpose) : Except Refusal Artifact := do
  let (a, proof) ← scopedArtifact answers s scope id purpose.intent
  sealed s a
  purposeAllowed w s scope a proof purpose
  pure a

def assetPurposeAllowed (a : Artifact) (purpose : ReadPurpose) : Except Refusal Unit :=
  match purpose with
  | .upload =>
    require (approved s a .assetUse && a.state == .approved) ⟨403, "Reviewed project upload asset required"⟩
  | .model =>
    require (approved s a .assetUse && approved s a .modelInput) ⟨403,
      "Explicit model disclosure approval required"⟩
  | _ => pure ()

def assetReadAuthorized (project id : String) (purpose : ReadPurpose) : Except Refusal Artifact := do
  let (a, _) ← asset answers s project id .read
  sealed s a
  assetPurposeAllowed s a purpose
  pure a

/-- What the reader keeps of a lease. -/
structure Reading where
  id : String
  artifactId : String
  purpose : ReadPurpose
  actorId : String
  projectId : String
  scope : Option Scope
  sha256 : String
  byteCount : Nat

def lease (actor : String) (a : Artifact) (purpose : ReadPurpose) (id : String) :
    Except Refusal (Reading × State) := do
  require (s.leases.get id).isNone ⟨500, "UNIQUE constraint failed: ops_browser_artifact_read_leases.id"⟩
  pure (⟨id, a.id, purpose, actor, a.projectId, a.scope, a.sha256, a.byteCount⟩,
    { s with leases := s.leases.put ⟨id, a.id, actor, purpose, s.now + 60000⟩ })

def invalidPurpose : Refusal := ⟨400, "Invalid browser artifact read purpose"⟩

def openRead (actor : String) (scope : Scope) (id : String) (purpose : ReadPurpose)
    (leaseId : String) : Except Refusal (Reading × State) := do
  require (purpose != .upload) invalidPurpose
  let a ← readAuthorized w answers s scope id purpose
  lease s actor a purpose leaseId

def openAssetRead (actor project id : String) (purpose : ReadPurpose) (leaseId : String) :
    Except Refusal (Reading × State) := do
  require (purpose == .review || purpose == .download || purpose == .upload || purpose == .model) invalidPurpose
  let a ← assetReadAuthorized answers s project id purpose
  lease s actor a purpose leaseId

def reauthorized (l : Reading) : Except Refusal Artifact :=
  match l.scope with
  | some scope => readAuthorized w answers s scope l.artifactId l.purpose
  | none => assetReadAuthorized answers s l.projectId l.artifactId l.purpose

def checkRead (actor : String) (l : Reading) : Except Refusal Artifact := do
  let a ← reauthorized w answers s l
  require ((s.leases.get l.id).any fun current => current.artifactId == a.id && current.actorId ==
    actor && current.purpose == l.purpose &&
    decide (s.now < current.expiresAt) && l.actorId == actor && a.sha256 == l.sha256 && a.byteCount == l.byteCount)
    ⟨409, "Private browser artifact read lease lost"⟩
  pure a

def closeRead (l : Reading) : State :=
  { s with leases := s.leases.filter fun lease => !(lease.id == l.id && lease.artifactId == l.artifactId) }

structure InputApproval where
  artifact : Pin
  mime : Mime
  byteCount : Nat
  target : Pin
  snapshot : Pin
  purpose : String
  approvalRef : Pin

def approveInputDraft (scope : Scope) (v : InputApproval) : Except Refusal State := do
  let (a, proof) ← scopedArtifact answers s scope v.artifact.id .artifactInputApproval
  sealed s a
  require (a.kind == .inputDraft && a.sha256 == v.artifact.sha256 && a.mime == v.mime &&
    a.byteCount == v.byteCount &&
    s.drafts.get a.id == some ⟨a.id, v.target, v.snapshot, v.purpose⟩ && !proof.manualAuth &&
      answers.verifyInputApproval)
    ⟨403, "Verified exact input draft approval required"⟩
  match s.draftApprovals.get a.id with
  | some previous => do
    require (previous.approvalRef == v.approvalRef) ⟨409, "Input draft approval already bound"⟩
    pure s
  | none => do
    require (unreviewed s a.id .browserInput) ⟨500,
      "UNIQUE constraint failed: ops_browser_artifact_reviews.artifact_id, purpose"⟩
    pure (record { s with draftApprovals := s.draftApprovals.put ⟨a.id, v.approvalRef⟩ } ⟨a.id,
      a.sha256, .browserInput, true⟩)

def Artifact.cancelled (a : Artifact) : Artifact := if a.state.final then a else { a with state := .cancelled }

def State.dropLeases (id : String) : State := { s with leases := s.leases.filter (·.artifactId != id) }

def cancel (project id : String) (scope : Option Scope) : Except Refusal State := do
  let _ ← named answers s project scope id .artifactCapture
  pure ((s.update id Artifact.cancelled).dropLeases id)

def ofAttempt (scope : Scope) (clipboardOnly : Bool) (a : Artifact) : Bool :=
  a.scope == some scope && (!clipboardOnly || a.kind == .clipboard || a.kind == .inputDraft)

def cancelAttempt (scope : Scope) (clipboardOnly : Bool) : State :=
  ((s.artifacts.rows.filter (ofAttempt scope clipboardOnly)).map Artifact.id).foldl
    (fun s id => (s.update id Artifact.cancelled).dropLeases id) s

/-- `cleanupRequired`. -/
def Artifact.lapsed (now : Nat) (a : Artifact) : Bool :=
  a.state.final || decide (a.expiresAt ≤ now) || (a.state == .reserved && decide (a.reservationUntil ≤ now))

def FileState.gone : FileState → Bool
  | .removed _ => true
  | _ => false

def leased (id : String) : Bool :=
  s.leases.rows.any fun lease => lease.artifactId == id && decide (s.now < lease.expiresAt)

def cleanupCandidate (a : Artifact) : Bool :=
  !a.fileState.gone && !a.busyAt s.now && !leased s a.id && a.lapsed s.now

def Artifact.removed (outcome : Outcome) (a : Artifact) : Artifact :=
  { a with fileState := .removed outcome, chargedBytes := 0, busy := none }

/-- `removed` is what the caller's `remove` returns; `none` is an error or anything else. -/
def maintenanceApply (id : String) (removed : Option Outcome) : Except Refusal State :=
  match s.deletions.get id, (s.artifacts.get id).filter (cleanupCandidate s) with
  | none, some _ => do
    let outcome ← demand removed ⟨500, "Invalid browser artifact cleanup result"⟩
    pure { s.update id (Artifact.removed outcome) with
      deletions := s.deletions.put ⟨id, s.now, outcome⟩ }
  | _, _ => pure s

end ProxyPilot.Artifacts
