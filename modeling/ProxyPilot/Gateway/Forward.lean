import Mathlib.Algebra.Group.Int.Defs
import ProxyPilot.Gateway.Attempt
import ProxyPilot.Transition.System

namespace ProxyPilot.Gateway

open Data Effects

def checkConnect (w : World) (authority : Except Code Parts) : Act Parts :=
  freezing w none do
    let parts ← lift authority
    check w false
    lift (w.policy.protectedUrl parts)
    let a ← get
    refuse ((w.policy.origins.get parts.origin).isNone &&
      !(a.gateway.additions.rows.any (·.origin == parts.origin))) .offListDestination
    pure parts

inductive Decision where
  | approvalRequired (requestRef bindingSha256 : String)
  | allow (ticket : Ticket)

def Attempt.review (a : Attempt) (record : Record) : Attempt :=
  { (a.write fun gateway => { gateway with pending := gateway.pending.put record }).note
    (.reviewed record) with reviews := a.reviews + 1 }

def Effect.escalates : Effect → Code
  | .externalChange => .externalChangeApprovalRequired
  | _ => .unclassifiedRequestApprovalRequired

def decision (w : World) (record : Record) : Act Decision :=
  if record.effect = .read then do
    let ticket ← mint w record
    pure (.allow ticket)
  else do
    freeze w record.effect.escalates (some record.parts.origin) (some record.requestRef)
    pure (.approvalRequired record.requestRef record.bindingSha256)

def Record.of (w : World) (a : Attempt) (requestRef : String) (metadata : Metadata) (parts : Parts)
    (dest : Destination)
    (temporary : Option DestinationGrant) : Record where
  request := a.reviews
  requestRef := requestRef
  metadata := metadata
  parts := parts
  destination := dest
  effect := w.policy.classify w.toSyntax parts dest metadata.method metadata.resourceType metadata.bodyBytes
  bindingSha256 := w.binding requestRef metadata temporary
  expiresAt := min (a.gateway.startedAt + w.policy.maxSeconds) w.policy.expiresAt
  approvalId := none

def reviewRequest (w : World) (requestRef : String) (metadata : Except Failure Metadata) : Act Decision := do
  refuse (!w.isRef requestRef) .requestRefInvalid
  check w true
  let a ← get
  refuse a.gateway.userPaused .gatewayPaused
  refuse (a.gateway.pending.get requestRef).isSome .requestRefReused
  freezing w (some requestRef) do
    let metadata ← external metadata
    let parts ← lift (validateRequestMetadata w.toSyntax w.policy metadata)
    let dest ← destination w parts metadata.role
    let a ← get
    let temporary := a.gateway.purposes.get (parts.origin, metadata.role)
    refuseExpired w temporary
    check w false
    let a ← get
    let record := Record.of w a requestRef metadata parts dest (temporary.map Purpose.grant)
    update (·.review record)
    decision w record

/-- What a grant of an effect must say. -/
def EffectGrant.fits (w : World) (grant : EffectGrant) (record : Record) (time : Int) : Bool :=
  grant.schema == "proxypilot.selected-browser.effect-grant.v1" && w.isUuid grant.id &&
    grant.identity == w.policy.identity &&
    grant.requestRef == record.requestRef && grant.bindingSha256 == record.bindingSha256 &&
    (1 ≤ grant.expiresAt && grant.expiresAt < 2 ^ 53 && time < grant.expiresAt && grant.expiresAt ≤ time + 30) &&
    w.isHex grant.purposeSha256

def EffectGrant.pins (w : World) (grant : EffectGrant) (record : Record) : Bool :=
  match grant.pinned with
  | none => record.metadata.role != "authentication"
  | some pinned =>
    pinned.approvalRef.id == grant.id && pinned.approvalRef.sha256 == record.bindingSha256 &&
      w.isContext pinned.humanContext && w.digestText pinned.humanContext == grant.purposeSha256

def Record.approved (record : Record) (grant : EffectGrant) : Record :=
  { record with approvalId := some grant.id, expiresAt := min record.expiresAt grant.expiresAt }

def AttemptGateway.resumed (gateway : AttemptGateway) : AttemptGateway :=
  { gateway with phase := .running, reason := none }

def Attempt.approve (a : Attempt) (record : Record) : Attempt :=
  a.write fun gateway => { gateway with pending := gateway.pending.put record }.resumed

/-- Only an approval consumed before leaves the attempt as it is. -/
def consumeGrant (w : World) (grant : EffectGrant) (record : Record) : Act Unit :=
  tryCatch (consume w grant.id record.bindingSha256 (.effect record.request grant)) fun failure =>
    match failure with
    | .denied .approvalAlreadyConsumed => throw failure
    | .denied _ => do
      update (·.write (·.revoked .ledgerWriteFailed))
      throw failure
    | .raised => do
      -- the tickets stay in the table of a gateway that admits nothing any more
      update (·.write fun gateway => { gateway with phase := .revoked, reason := some .ledgerWriteFailed })
      throw (.denied .ledgerWriteFailed)

def pendingChange (w : World) (requestRef : String) : Act Record := do
  let a ← get
  match a.gateway.pending.get requestRef with
  | none => throw (.denied .requestApprovalStale)
  | some record => do
    refuse (record.approvalId.isSome || record.effect = .read) .requestApprovalStale
    let time ← now w
    refuse (record.expiresAt ≤ time) .requestApprovalStale
    pure record

def approveRequest (w : World) (requestRef : String) (grant : Except Failure EffectGrant) : Act Ticket := do
  check w true
  let record ← pendingChange w requestRef
  let grant ← external grant
  let time ← now w
  refuse (!grant.fits w record time) .effectGrantInvalid
  refuse (!grant.pins w record) .effectGrantInvalid
  consumeGrant w grant record
  update (·.approve (record.approved grant))
  mint w (record.approved grant)

def DestinationGrant.fits (w : World) (gateway : AttemptGateway) (grant : DestinationGrant)
    (item : Destination) (target : Target)
    (time : Int) : Bool :=
  grant.schema == "proxypilot.selected-browser.destination-grant.v1" && w.isUuid grant.id &&
    grant.identity == w.policy.identity &&
    grant.origin == item.origin && grant.roles == item.roles && target.origin == item.origin &&
    !grant.persistToAllowlist && !grant.wildcards && w.isHex grant.purposeSha256 &&
    (1 ≤ grant.expiresAt && grant.expiresAt ≤ w.policy.expiresAt && time < grant.expiresAt) &&
    item.roles.length == 1 &&
    item.roles.all (fun role => (gateway.additions.get (item.origin, role)).isNone &&
      !((w.policy.origins.get item.origin).any (·.roles.contains role))) &&
    (w.policy.targets.get item.origin).all (· == target) &&
      (gateway.extraTargets.get item.origin).all (· == target) &&
    w.policy.origins.rows.all (·.id != item.id) && gateway.additions.rows.all (·.item.id != item.id)

def AttemptGateway.admitDestination (gateway : AttemptGateway) (grant : DestinationGrant)
    (item : Destination) (target : Target) : AttemptGateway :=
  { gateway with
    additions := gateway.additions.put ⟨item.origin, item.roles.headD "", item⟩
    extraTargets := gateway.extraTargets.put target
    purposes := gateway.purposes.put ⟨item.origin, item.roles.headD "", grant⟩ }.resumed

def consumeDestination (w : World) (grant : DestinationGrant) : Act Unit :=
  tryCatch (consume w grant.id grant.origin (.destination grant)) fun failure =>
    match failure with
    | .denied .approvalAlreadyConsumed => throw failure
    | .denied code => do
      update (·.write (·.revoked .ledgerWriteFailed))
      throw (.denied code)
    | .raised => do
      update (·.write (·.revoked .ledgerWriteFailed))
      throw (.denied .ledgerWriteFailed)

def grantDestination (w : World) (grant : Except Failure DestinationGrant) (item : Destination)
    (target : Target) : Act Unit := do
  check w true
  lift (w.validateDestination item)
  lift (w.validateTarget target)
  let grant ← external grant
  let time ← now w
  let a ← get
  refuse (!grant.fits w a.gateway item target time) .destinationGrantInvalid
  consumeDestination w grant
  audit w (.destinationGranted grant.id item.origin item.roles grant.expiresAt)
  update (·.write (·.admitDestination grant item target))

/-- The expired tickets and the requests they were for. -/
def AttemptGateway.expire (gateway : AttemptGateway) (time : Int) : AttemptGateway :=
  { gateway with
    pending := gateway.pending.filter fun record =>
      !(gateway.tickets.rows.any fun ticket => ticket.record.expiresAt ≤ time &&
        ticket.record.requestRef == record.requestRef)
    tickets := gateway.tickets.filter fun ticket => !(ticket.record.expiresAt ≤ time) }

def status (w : World) : Act Unit := do
  let time ← now w
  let a ← get
  if a.gateway.tickets.rows.any (·.record.expiresAt ≤ time) then do
    update (·.write (·.expire time))
    freeze w .requestTicketExpired none none
  else pure ()

def pause (w : World) (halt : Halt) : Act Unit := do
  check w true
  freeze w .userPaused none none
  update fun a => (a.write fun gateway => { gateway with pending := ∅ }).note (.halted halt)
  status w

def denyRequest (w : World) (requestRef : String) : Act Unit := do
  check w true
  let a ← get
  match a.gateway.pending.get requestRef with
  | none => throw (.denied .requestDenialStale)
  | some record => do
    refuse (record.approvalId.isSome || record.effect = .read) .requestDenialStale
    audit w (.requestDenied requestRef record.bindingSha256)
    pause w (.denial record.request)
    status w

def resume (w : World) : Act Unit := do
  check w true
  let a ← get
  refuse (a.gateway.reason ≠ some .userPaused) .escalationUnresolved
  audit w .resumed
  update (·.write (·.resumed))
  status w

def revoke (w : World) : Act Unit := do
  update fun a => (a.write (·.revoked .gatewayRevoked)).note (.halted .revocation)
  let a ← get
  audit w (.revoked (a.gateway.pending.rows.map fun record => (record.requestRef, record.bindingSha256)))
  update (·.write fun gateway => { gateway with pending := ∅ })
  status w

open Transition

/-! # Forwarding, and the attempt as a machine

`forward` holds the lock in several blocks; each is a label of the thread it belongs to.
-/

structure Headers where
  ticket : Option String
  /-- An `upgrade`, `transfer-encoding`, `expect` or `proxy-authorization`. -/
  unsupported : Bool

structure Request where
  method : String
  url : String
  headers : Headers
  body : List UInt8

/-- Freeze, then refuse. -/
def refuseFrozen (w : World) (fails : Bool) (code : Code) : Act Unit :=
  if fails then do
    freeze w code none none
    throw (.denied code)
  else pure ()

def Request.matches (w : World) (request : Request) (parts : Parts) (metadata : Metadata) : Bool :=
  request.method == metadata.method && parts.url == metadata.url && request.body.length == metadata.bodyBytes &&
    w.digestBytes request.body == metadata.bodySha256

def presented (w : World) (headers : Headers) : Act String :=
  match headers.ticket with
  | none => do
    freeze w .requestTicketRequired none none
    throw (.denied .requestTicketRequired)
  | some token => do
    refuseFrozen w (!w.isHex token) .requestTicketRequired
    pure token

/-- `self.tickets.pop(token, None)`, and what an absent or expired one leads to. -/
def popTicket (w : World) (token : String) : Act (Ticket × Int) := do
  let a ← get
  update (·.write fun gateway => { gateway with tickets := gateway.tickets.erase token })
  match a.gateway.tickets.get token with
  | none => do
    freeze w .requestTicketStale none none
    throw (.denied .requestTicketStale)
  | some ticket => do
    let time ← now w
    refuseFrozen w (ticket.record.expiresAt ≤ time) .requestTicketStale
    pure (ticket, time)

def refuseExpiredFrozen (w : World) (purpose : Option Purpose) : Act Unit :=
  match purpose with
  | none => pure ()
  | some purpose => do
    let time ← now w
    refuseFrozen w (purpose.grant.expiresAt ≤ time) .destinationGrantExpired

def AttemptGateway.admitTicket (gateway : AttemptGateway) (ticket : Ticket) : AttemptGateway :=
  { gateway with requests := gateway.requests + 1, pending := gateway.pending.erase ticket.record.requestRef }

def admitRequest (w : World) (request : Request) : Act (Ticket × Int × Parts) := do
  check w false
  let token ← presented w request.headers
  let (ticket, time) ← popTicket w token
  let parts ← lift (w.urlParts request.url)
  refuseFrozen w (!request.matches w parts ticket.record.metadata) .requestWireMismatch
  let _ ← destination w parts ticket.record.metadata.role
  let a ← get
  refuseExpiredFrozen w (a.gateway.purposes.get (parts.origin, ticket.record.metadata.role))
  refuseFrozen w request.headers.unsupported .requestTransportUnsupported
  let a ← get
  refuseFrozen w (w.policy.maxRequests ≤ a.gateway.requests) .requestBudgetExhausted
  update (·.write (·.admitTicket ticket))
  audit w (.requestAdmitted ticket.record.requestRef ticket.record.bindingSha256
    ticket.record.effect ticket.record.approvalId)
  pure (ticket, time, parts)

def Attempt.enter (a : Attempt) (ticket : Ticket) (time : Int) (parts : Parts) (wire : Wire) : Attempt :=
  { (a.write fun gateway => { gateway with inflight := gateway.inflight + 1 }).note
    (.admitted a.admissions ticket time) with
    admissions := a.admissions + 1
    forwards := a.forwards.put ⟨a.admissions, ticket, parts, wire, .resolving, false⟩ }

/-- The first block of `forward`. -/
def forward (w : World) (request : Request) : Act Unit := do
  let (ticket, time, parts) ← admitRequest w request
  update (·.enter ticket time parts ⟨request.method, parts.url, w.digestBytes request.body⟩)

/-- What the thread meets outside the lock and while it connects. -/
structure Answers where
  addresses : Except Failure (List String)
  route : Except Failure String
  connect : Except Failure Unit
  request : Except Failure Unit

def Failure.code : Failure → Code
  | .denied code => code
  | .raised => .upstreamFailed

def Attempt.setStage (a : Attempt) (f : Forward) (stage : Stage) : Attempt :=
  { a with forwards := a.forwards.put { f with stage := stage } }

/-- The request is on the wire from here on. -/
def Attempt.send (a : Attempt) (f : Forward) : Attempt :=
  { (a.write fun gateway =>
      { gateway with effectsSent := if f.ticket.record.effect = .read then gateway.effectsSent
        else gateway.effectsSent + 1 }).note
        (.sent f.admission f.ticket f.wire) with
    forwards := a.forwards.put { f with sent := true, stage := .receiving } }

def upstreamTarget (w : World) (parts : Parts) : Act Target := do
  let a ← get
  match (a.gateway.extraTargets.get parts.origin).or (w.policy.targets.get parts.origin) with
  | some target => pure target
  | none => throw .raised

def prepare (w : World) (f : Forward) (answers : Answers) : Act Unit := do
  let addresses ← external answers.addresses
  check w false
  let target ← upstreamTarget w f.parts
  checkFresh w
  let _ ← lift (w.policy.screenAnswers w.toSyntax target addresses)
  let route ← external answers.route
  refuse (route ≠ target.routeSha256) .networkRouteChanged
  external answers.connect
  check w false
  audit w (.sendStarted f.ticket.record.requestRef f.ticket.record.bindingSha256)

/-- The block that connects and sends. -/
def transmit (w : World) (f : Forward) (answers : Answers) : Act Unit := do
  tryCatch (prepare w f answers) fun failure => do
    update (·.setStage f (.failing failure.code))
    throw failure
  update (·.send f)
  tryCatch (external answers.request) fun failure =>
    update (·.setStage { f with sent := true } (.failing failure.code))

def failingForward (f : Forward) (program : Act Unit) : Act Unit :=
  tryCatch program fun failure => update (·.setStage f (.failing failure.code))

def followRedirect (w : World) (f : Forward) (location : Except Failure Parts) : Act Unit :=
  failingForward f do
    let parts ← external location
    let _ ← destination w parts f.ticket.record.metadata.role
    let a ← get
    refuseExpired w (a.gateway.purposes.get (parts.origin, f.ticket.record.metadata.role))

def nextChunk (w : World) (f : Forward) : Act Unit :=
  failingForward f do
    check w true
    let a ← get
    refuse (w.policy.maxResponseBytes < a.gateway.responseBytes) .responseBudgetExhausted
    update (·.setStage f (.reading (min 65536 (w.policy.maxResponseBytes - a.gateway.responseBytes + 1))))

def chunk (w : World) (f : Forward) (bytes : Nat) : Act Unit :=
  failingForward f do
    update (·.write fun gateway => { gateway with responseBytes := gateway.responseBytes + bytes })
    let a ← get
    refuse (w.policy.maxResponseBytes < a.gateway.responseBytes) .responseBudgetExhausted
    update (·.setStage f .receiving)

def complete (w : World) (f : Forward) (status : Nat) : Act Unit :=
  failingForward f do
    audit w (.responseCompleted f.ticket.record.requestRef status f.ticket.record.effect)
    update (·.setStage f .draining)

/-- The handler of `forward`. -/
def settle (w : World) (f : Forward) (code : Code) : Act Unit := do
  let uncertain := f.sent && f.ticket.record.effect ≠ .read
  update fun a => (a.write fun gateway =>
    { gateway with effectsUncertain := if uncertain then gateway.effectsUncertain + 1
      else gateway.effectsUncertain }).setStage f .draining
  freeze w code (some f.parts.origin) (some f.ticket.record.requestRef)
  audit w (.requestFailed f.ticket.record.requestRef f.ticket.record.bindingSha256 code f.sent uncertain)

def Attempt.drain (a : Attempt) (f : Forward) : Attempt :=
  { (a.write fun gateway => { gateway with inflight := gateway.inflight - 1 })
    with forwards := a.forwards.erase f.admission }

inductive Label where
  | connect (authority : Except Code Parts)
  | review (requestRef : String) (metadata : Except Failure Metadata)
  | approve (requestRef : String) (grant : Except Failure EffectGrant)
  | grant (grant : Except Failure DestinationGrant) (item : Destination) (target : Target)
  | deny (requestRef : String)
  | pause
  | resume
  | revoke
  | status
  | forward (request : Request)
  | transmit (admission : Nat) (answers : Answers)
  | redirect (admission : Nat) (location : Except Failure Parts)
  | nextChunk (admission : Nat)
  | chunk (admission bytes : Nat)
  | fails (admission : Nat) (failure : Failure)
  | complete (admission status : Nat)
  | settle (admission : Nat)
  | drain (admission : Nat)

/-- One block of a thread, where the thread is at that block. -/
def threaded (admission : Nat) (program : Forward → Act Unit) : Act Unit := do
  let a ← get
  match a.forwards.get admission with
  | none => pure ()
  | some f => program f

def perform (w : World) : Label → Act Unit
  | .connect authority => do let _ ← checkConnect w authority
  | .review requestRef metadata => do let _ ← reviewRequest w requestRef metadata
  | .approve requestRef grant => do let _ ← approveRequest w requestRef grant
  | .grant grant item target => grantDestination w grant item target
  | .deny requestRef => denyRequest w requestRef
  | .pause => pause w .pause
  | .resume => resume w
  | .revoke => revoke w
  | .status => status w
  | .forward request => forward w request
  | .transmit admission answers => threaded admission fun f => match f.stage with
      | .resolving => transmit w f answers
      | _ => pure ()
  | .redirect admission location => threaded admission fun f => match f.stage with
      | .receiving => followRedirect w f location
      | _ => pure ()
  | .nextChunk admission => threaded admission fun f => match f.stage with
      | .receiving => nextChunk w f
      | _ => pure ()
  | .chunk admission bytes => threaded admission fun f => match f.stage with
      | .reading limit => if bytes ≤ limit then chunk w f bytes else pure ()
      | _ => pure ()
  | .fails admission failure => threaded admission fun f => match f.stage with
      | .receiving | .reading _ => update (·.setStage f (.failing failure.code))
      | _ => pure ()
  | .complete admission status => threaded admission fun f => match f.stage with
      | .receiving => complete w f status
      | _ => pure ()
  | .settle admission => threaded admission fun f => match f.stage with
      | .failing code => settle w f code
      | _ => pure ()
  | .drain admission => threaded admission fun f => match f.stage with
      | .draining => update (·.drain f)
      | _ => pure ()

/-- What is left, whether the program returned or threw. -/
def left {α : Type} (program : Act α) (a : Attempt) : Attempt :=
  match program a with
  | .ok _ after => after
  | .error _ after => after

def Ledger.registered (identity : Identity) : Ledger :=
  ⟨[.attemptRegistered identity], [], [.whole (.attemptRegistered identity)]⟩

/-- `AttemptGateway(policy, ledger, …)`, registered. -/
def AttemptGateway.start (w : World) : AttemptGateway where
  phase := .running
  reason := none
  startedAt := w.clock 0
  requests := 0
  responseBytes := 0
  effectsSent := 0
  effectsUncertain := 0
  inflight := 0
  pending := ∅
  tickets := ∅
  additions := ∅
  extraTargets := ∅
  purposes := ∅
  ledger := .registered w.policy.identity

def Attempt.start (w : World) : Attempt := ⟨.start w, ∅, 1, 1, 0, 0, 0, []⟩

def machine (w : World) : System Attempt Label where
  initial := (· = .start w)
  step a label := some (left (perform w label) a)

end ProxyPilot.Gateway
