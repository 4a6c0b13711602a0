import ProxyPilot.Data.Table

namespace ProxyPilot.Gateway

open Data

/-! # The policy of a selected attempt (`selected_browser_policy.py`)

URL and address syntax, the protected names and the query parser are parameters. A
time is a reading of the clock in its own unit.
-/

inductive Code where
  | userPaused | gatewayPaused | gatewayRevoked
  | timeBudgetExhausted | networkPlanExpired | ledgerWriteFailed
  | requestRefInvalid | requestRefReused | requestMetadataInvalid | requestIdentityMismatch
  | requestActionInvalid | requestUrlNoncanonical
  | urlInvalid | urlPathInvalid | protectedDestination | protectedAddress | addressInvalid
  | offListDestination | destinationRoleDenied | destinationInvalid | destinationGrantInvalid | destinationGrantExpired
  | externalChangeApprovalRequired | unclassifiedRequestApprovalRequired
  | requestApprovalStale | effectGrantInvalid | approvalAlreadyConsumed | requestDenialStale
  | escalationUnresolved | connectInvalid
  | requestTicketRequired | requestTicketStale | requestTicketExpired | requestWireMismatch
  | requestTransportUnsupported | requestBudgetExhausted
  | networkTargetUnverified | dnsAddressChanged | networkRouteChanged | networkRouteUnverified | connectionTargetChanged
  | responseTransportUnsupported | responseBudgetExhausted | responseHeaderInvalid | redirectInvalid | upstreamFailed
deriving DecidableEq

/-- `Denied` carries a code; any other exception is only an exception. -/
inductive Failure where
  | denied (code : Code)
  | raised

structure Identity where
  projectId : String
  runId : String
  attemptId : String
  fence : Nat
  policySha256 : String
deriving DecidableEq

structure Parts where
  origin : String
  host : String
  port : Nat
  path : String
  query : String
  target : String
  url : String
deriving DecidableEq

inductive SessionHeaders where
  | omit
  | thisOriginSession
deriving DecidableEq

structure Destination where
  id : String
  origin : String
  roles : List String
  sessionHeaders : SessionHeaders
deriving DecidableEq

instance : Keyed Destination String := ⟨Destination.origin⟩

structure Target where
  origin : String
  scope : String
  addresses : List String
  port : Nat
  routeSha256 : String
deriving DecidableEq

instance : Keyed Target String := ⟨Target.origin⟩

inductive Effect where
  | read
  | externalChange
  | unclassified
deriving DecidableEq

structure Rule where
  destinationId : String
  pathPrefix : String
  methods : List String
  queryKeys : List String
  resourceTypes : List String
  effect : Effect
  maxRequestBytes : Nat

structure Pin where
  id : String
  sha256 : String
deriving DecidableEq

structure Action where
  ordinal : Nat
  candidateRef : Pin
  snapshotRef : Pin
  approvalRef : Option Pin
deriving DecidableEq

structure Metadata where
  url : String
  method : String
  bodySha256 : String
  bodyBytes : Nat
  resourceType : String
  role : String
  runId : String
  attemptId : String
  fence : Nat
  policySha256 : String
  currentAction : Option Action
deriving DecidableEq

/-- What the modules under the policy make of text. -/
structure Syntax where
  urlParts : String → Except Code Parts
  addressScope : String → Except Code String
  /-- `parse_qsl`, keys only. -/
  queryKeys : String → List String
  hasPrefix : String → String → Bool
  isHex : String → Bool
  isUuid : String → Bool
  /-- SHA-256 of bytes and of text. -/
  digestBytes : List UInt8 → String
  digestText : String → String

structure Policy where
  identity : Identity
  networkPlanSha256 : String
  expiresAt : Int
  maxRequests : Nat
  maxSeconds : Int
  maxResponseBytes : Nat
  origins : Table Destination
  targets : Table Target
  rules : List Rule
  protectedAddresses : List String
  protectedUrl : Parts → Except Code Unit

def methods : List String := ["GET", "HEAD", "OPTIONS", "POST", "PUT", "PATCH", "DELETE"]

def resourceTypes : List String :=
  ["document", "stylesheet", "script", "image", "font", "media", "xhr", "fetch", "other"]

def maxBodyBytes : Nat := 67108864

namespace Policy

/-- The base entry for a role its origin lists, else the temporary one. -/
def destination (policy : Policy) (parts : Parts) (role : String) (temporary : Option Destination) :
    Except Code Destination := do
  policy.protectedUrl parts
  match policy.origins.get parts.origin, temporary with
  | none, none => .error .offListDestination
  | some base, none => if base.roles.contains role then .ok base else .error .destinationRoleDenied
  | none, some added => if added.roles.contains role then .ok added else .error .destinationRoleDenied
  | some base, some added =>
    if base.roles.contains role then .ok base
    else if added.roles.contains role then .ok added
    else .error .destinationRoleDenied

/-- All overlaps count. -/
def classify (policy : Policy) (s : Syntax) (parts : Parts) (destination : Destination)
    (method resourceType : String)
    (bodyBytes : Nat) : Effect :=
  let keys := s.queryKeys parts.query
  let found := policy.rules.filter fun rule =>
    rule.destinationId = destination.id ∧ s.hasPrefix rule.pathPrefix parts.path ∧ method ∈ rule.methods ∧
      resourceType ∈ rule.resourceTypes ∧ (∀ key ∈ keys, key ∈ rule.queryKeys) ∧ bodyBytes ≤ rule.maxRequestBytes
  if found.isEmpty || found.any (·.effect = .unclassified) then .unclassified
  else if found.any (·.effect = .externalChange) then .externalChange
  else .read

def screenAnswer (policy : Policy) (s : Syntax) (target : Target) (value : String) : Except Code Unit := do
  let scope ← s.addressScope value
  if scope ≠ target.scope ∨ value ∈ policy.protectedAddresses ∨ value ∉ target.addresses
    then .error .dnsAddressChanged else .ok ()

def screenAnswers (policy : Policy) (s : Syntax) (target : Target) (answers : List String) :
    Except Code (List String) :=
  if answers.isEmpty then .error .networkTargetUnverified
  else do
    answers.forM (policy.screenAnswer s target)
    .ok answers.eraseDups

end Policy

def Pin.wellFormed (s : Syntax) (pin : Pin) : Bool := s.isUuid pin.id && s.isHex pin.sha256

def Action.wellFormed (s : Syntax) (action : Action) : Bool :=
  decide (1 ≤ action.ordinal ∧ action.ordinal ≤ 2147483647) && action.candidateRef.wellFormed s &&
    action.snapshotRef.wellFormed s && action.approvalRef.all (·.wellFormed s)

/-- Method, type, role and body go together. -/
def Metadata.consistent (s : Syntax) (value : Metadata) : Bool :=
  methods.contains value.method && resourceTypes.contains value.resourceType &&
    ["navigation", "resource", "authentication"].contains value.role &&
    !(value.role == "navigation" && value.resourceType != "document") &&
    !(value.role == "authentication" && !(["document", "xhr", "fetch"].contains value.resourceType)) &&
    !(value.resourceType == "document" && value.role == "resource") &&
    s.isHex value.bodySha256 && decide (value.bodyBytes ≤ maxBodyBytes) &&
    !(value.bodyBytes == 0 && value.bodySha256 != s.digestBytes []) &&
    !(["GET", "HEAD"].contains value.method && value.bodyBytes != 0)

def Metadata.names (value : Metadata) (identity : Identity) : Bool :=
  value.runId = identity.runId && value.attemptId = identity.attemptId && value.fence = identity.fence &&
    value.policySha256 = identity.policySha256

def validateRequestMetadata (s : Syntax) (policy : Policy) (value : Metadata) : Except Code Parts :=
  if !value.names policy.identity then .error .requestIdentityMismatch
  else if !value.consistent s then .error .requestMetadataInvalid
  else if !value.currentAction.all (·.wellFormed s) then .error .requestActionInvalid
  else do
    let parts ← s.urlParts value.url
    if value.url ≠ parts.url then .error .requestUrlNoncanonical else .ok parts

end ProxyPilot.Gateway
