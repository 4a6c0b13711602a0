import ProxyPilot.Sso.Records
import ProxyPilot.Transition.System

namespace ProxyPilot.Sso

open Data Transition

/-! # Sign-in, account checks and revocation

The code between two awaits of a request is one step of the request. What a provider
answers is part of the label; `none` is an answer that is thrown.
-/

/-- `assertCurrent`. -/
def State.current (s : State) (fingerprint : Fingerprint) : Bool :=
  (s.config.any fun config => config.fingerprint == fingerprint &&
    s.connection == some config.fingerprint.bound.issuer)

/-- The configuration, where it is current. -/
def State.usable (s : State) : Option Config := s.config.filter fun config => s.current config.fingerprint

def State.centralOf (s : State) (sessionId : String) : Option Central :=
  (s.contexts.get sessionId).bind Context.central

def Session.revoke (session : Session) : Session := { session with revoked := true, sudoUntil := none }

def Session.revokeIf (chosen : String → Bool) (session : Session) : Session :=
  if chosen session.id then session.revoke else session

theorem Session.revokeIf_key (chosen : String → Bool) (session : Session) :
    Keyed.key (session.revokeIf chosen) = Keyed.key session := by
  unfold Session.revokeIf
  split <;> rfl

/-- Revoke the sessions of a test. -/
def State.revokeWhere (s : State) (chosen : String → Bool) : State :=
  { s with sessions := s.sessions.map (Session.revokeIf chosen) (Session.revokeIf_key chosen) }

def State.isCentral (s : State) (sessionId : String) : Bool := (s.centralOf sessionId).isSome

def State.belongs (s : State) (issuer subject sessionId : String) : Bool :=
  (s.centralOf sessionId).any fun central => central.issuer == issuer && central.subject == subject

def State.existing (s : State) (issuer subject : String) : List String :=
  (s.contexts.rows.map Context.sessionId).filter (s.belongs issuer subject)

def State.note (s : State) (event : Event) : State := { s with history := s.history ++ [event] }

/-- `checkSessionContext`. -/
def checkSessionContext (s : State) (sessionId : String) (origin : Option String) : Bool :=
  match s.contexts.get sessionId with
  | none => !(s.config.any fun config => origin == some config.fingerprint.bound.recoveryOrigin)
  | some context =>
    (origin.all fun asked => context.origin == asked) &&
      match context.method with
      | .oidc central => decide (s.now < central.checkedUntil)
      | _ => true

structure Limits where
  sessionTtl : Nat
  sessionIdle : Nat
  sudoGrant : Nat

/-- What `validateSession` writes: an idle session is revoked, another one slides. -/
def validateSession (limits : Limits) (s : State) (sessionId : String) (origin : Option String) : Bool × State :=
  match s.sessions.get sessionId with
  | none => (false, s)
  | some session =>
    if session.revoked || !checkSessionContext s sessionId origin || (s.users.get session.userId).isNone ||
        session.expiresAt ≤ s.now then (false, s)
    else if limits.sessionIdle < s.now - session.lastUsedAt then (false, s.revokeWhere (· == sessionId))
    else (true, { s with sessions := s.sessions.put { session with lastUsedAt := s.now } })

/-- `requireLocalProof`. -/
def requireLocalProof (s : State) (sessionId origin : String) : Bool :=
  (s.contexts.get sessionId).any fun context =>
    (context.method == .localAccount || context.method == .linkOnly) && context.origin == origin &&
      context.localProofAt.any fun time => decide (s.now - time ≤ proofMs)

/-- The transaction of `saveConfig`; the other checks of the input are `valid`. -/
def saveConfig (s : State) (expectedRevision : Nat) (bound : Bound) (valid : Bool) : State :=
  let revision := (s.config.map fun config => config.fingerprint.revision).getD 0
  if revision ≠ expectedRevision ∨ s.config.any Config.active = true ∨
    s.connection ≠ some bound.issuer ∨ valid = false then s
  else
    { s.revokeWhere s.isCentral with
      config := some ⟨⟨expectedRevision + 1, bound⟩, false⟩
      flows := ∅ }

def disableSso (s : State) : State :=
  { s.revokeWhere s.isCentral with
    config := s.config.map fun config => { config with active := false }
    flows := ∅ }

/-- The transaction of `activate`. -/
def activate (s : State) (fingerprint : Fingerprint) : State :=
  if s.current fingerprint then
    { s.revokeWhere fun id => !(s.isCentral id) &&
        !((s.contexts.get id).any fun context => context.method == .localAccount &&
          context.origin == fingerprint.bound.recoveryOrigin) with
      config := s.config.map fun config => { config with active := true } }
  else s

def startRefresh (s : State) (sessionId : String) : State :=
  match s.centralOf sessionId, s.sessions.get sessionId with
  | some central, some session =>
    if s.now < central.checkedUntil ∨ session.revoked = true ∨ session.expiresAt ≤ s.now ∨
      (s.refreshes.get sessionId).isSome = true ∨
        s.current central.fingerprint = false then s
    else { s with refreshes := s.refreshes.put ⟨sessionId, central, s.now, .verifying⟩ }
  | _, _ => s

def State.endRefresh (s : State) (sessionId : String) : State := { s with refreshes := s.refreshes.erase sessionId }

/-- `verifySettings` ends with its own `assertCurrent`. -/
def refreshVerified (s : State) (refresh : Refresh) (valid : Bool) : State :=
  if valid && s.current refresh.central.fingerprint then
    { s with refreshes := s.refreshes.put { refresh with stage := .checking s.now } }
  else s.endRefresh refresh.sessionId

def Method.extend (limit : Nat) : Method → Method
  | .oidc central => .oidc { central with checkedUntil := limit }
  | other => other

def Context.extend (sessionId : String) (limit : Nat) (context : Context) : Context :=
  { context with method := if context.sessionId = sessionId then context.method.extend limit else context.method }

def State.extend (s : State) (sessionId : String) (limit : Nat) : State :=
  { s with contexts := s.contexts.map (Context.extend sessionId limit) fun _ => rfl }

def refreshAnswered (s : State) (refresh : Refresh) (started : Nat) (enabled : Option Bool) : State :=
  let central := refresh.central
  let done := s.endRefresh refresh.sessionId
  match enabled with
  | none => done
  | some enabled =>
    let noted :=
      done.note (.answered started central.issuer central.subject enabled
      (s.existing central.issuer central.subject))
    if s.current central.fingerprint = false then noted
    else if enabled then noted.extend refresh.sessionId (refresh.began + revocationMs)
    else noted.revokeWhere (s.belongs central.issuer central.subject)

structure Caller where
  sessionId : String
  userId : String

/-- Only the sign-in route has no session of its own. -/
def Action.caller (action : Action) (caller : Option Caller) : Option Caller :=
  if action = .login then none else caller

def startBegin (s : State) (action : Action) (confirmed : Bool) (origin browser : String)
    (asking : Option Caller) : State :=
  match s.usable with
  | none => s
  | some config =>
    let bound := config.fingerprint.bound
    let caller := action.caller asking
    let subject :=
      (caller.bind fun caller => s.links.rows.find? fun link => link.issuer == bound.issuer &&
      link.userId == caller.userId).map
      Link.subject
    let proved := caller.any fun caller => requireLocalProof s caller.sessionId bound.publicOrigin
    if origin ≠ bound.publicOrigin ∨ (action = .login ∧ config.active = false) ∨
        (action = .link ∧ (confirmed = false ∨ proved = false)) ∨
          ((action = .sudo ∨ action = .testLogin) ∧ subject = none) then s
    else
      { s with
        begins :=
          s.begins.put ⟨s.threads, config.fingerprint, action, browser, caller.map Caller.sessionId,
          caller.map Caller.userId,
          subject, .verifying⟩
        threads := s.threads + 1 }

def State.endBegin (s : State) (thread : Nat) : State := { s with begins := s.begins.erase thread }

/-- `random()` never repeats a state. -/
def State.freshState (s : State) (state : String) : Bool :=
  !(s.history.any fun event => match event with
    | .began flow => flow.state == state
    | _ => false) && !(s.begins.rows.any fun started => match started.stage with
    | .building other _ => other == state
    | .verifying => false)

def beginVerified (s : State) (started : Begin) (valid : Bool) (state : String) : State :=
  if valid && s.current started.fingerprint then
    { s with begins := s.begins.put { started with stage := .building state s.now } }
  else s.endBegin started.thread

def Begin.flow (started : Begin) (state : String) (startedAt : Nat) : Flow :=
  ⟨state, started.browser, started.fingerprint, startedAt + proofMs, startedAt, started.action,
    started.sessionId, started.userId,
    started.subject⟩

def beginBuilt (s : State) (started : Begin) (state : String) (startedAt : Nat) (built : Bool) : State :=
  let done := s.endBegin started.thread
  if built && s.current started.fingerprint then
    let flow := started.flow state startedAt
    { done with flows := (s.flows.filter fun flow => startedAt ≤ flow.expiresAt).put flow }.note (.began flow)
  else done

/-- The row is taken before anything is compared. -/
def startCallback (s : State) (origin browser state : String) : State :=
  match s.usable with
  | none => s
  | some config =>
    if origin ≠ config.fingerprint.bound.publicOrigin then s
    else
      match s.flows.get state with
      | none => s
      | some flow =>
        let accepted := decide (s.now < flow.expiresAt) && flow.fingerprint == config.fingerprint &&
            flow.browserHash == browser
        let spent :=
          { s with flows := s.flows.erase state }.note (.spent flow browser s.now config.fingerprint accepted)
        if accepted then
          { spent with callbacks := s.callbacks.put ⟨s.threads, config.fingerprint, flow,
            .exchanging⟩, threads := s.threads + 1 }
        else spent

def State.endCallback (s : State) (thread : Nat) : State := { s with callbacks := s.callbacks.erase thread }

def State.advance (s : State) (callback : Callback) (stage : CallbackStage) : State :=
  { s with callbacks := s.callbacks.put { callback with stage := stage } }

def exchanged (s : State) (callback : Callback) (subject : Option String) : State :=
  match subject with
  | none => s.endCallback callback.thread
  | some subject => s.advance callback (.verifying subject)

def verified (s : State) (callback : Callback) (subject : String) (valid : Bool) : State :=
  if valid && s.current callback.fingerprint then s.advance callback (.checking subject s.now)
    else s.endCallback callback.thread

def linkAccount (s : State) (callback : Callback) (subject : String) : State :=
  let bound := callback.fingerprint.bound
  match callback.flow.sessionId, callback.flow.userId.bind s.users.get with
  | some sessionId, some user =>
    if requireLocalProof s sessionId bound.publicOrigin = false ∨ user.authSource = .ldap ∨ user.role = .pending ∨
        (∃ link ∈ s.links.rows, link.issuer = bound.issuer ∧ (link.subject = subject ∨ link.userId = user.id) ∧
          (link.subject ≠ subject ∨ link.userId ≠ user.id)) ∨
        (s.links.get (bound.issuer, subject)).isSome = true then s
    else { s with links := s.links.put ⟨bound.issuer, subject, user.id⟩ }
  | _, _ => s

def grantSudo (limits : Limits) (s : State) (sessionId : Option String) : State :=
  match sessionId.bind s.sessions.get with
  | none => s
  | some session =>
    if session.revoked then s
      else { s with sessions := s.sessions.put { session with sudoUntil := some (s.now + limits.sudoGrant) } }

/-- `generateToken`, and the context of the new session. -/
def openSession (limits : Limits) (s : State) (callback : Callback) (subject : String)
    (started : Nat) (user : User) (id : String) : State :=
  let bound := callback.fingerprint.bound
  { s with
    sessions := s.sessions.put ⟨id, user.id, s.now + limits.sessionTtl, s.now, false, none⟩
    contexts := s.contexts.put ⟨id, user.id, bound.publicOrigin,
      .oidc ⟨bound.issuer, subject, callback.fingerprint, started + revocationMs⟩, none⟩ }

/-- From the last await to the end of the request. -/
def finishCallback (limits : Limits) (s : State) (callback : Callback) (subject : String)
    (started : Nat) (id : String) : State :=
  let bound := callback.fingerprint.bound
  if callback.flow.action = .link then linkAccount s callback subject
  else
    match s.links.get (bound.issuer, subject) with
    | none => s
    | some link =>
      match s.users.get link.userId with
      | none => s
      | some user =>
        if (callback.flow.userId.any fun userId => link.userId ≠ userId ∨
          callback.flow.subject ≠ some subject) = true ∨ user.role = .pending then s
        else if callback.flow.action = .sudo then grantSudo limits s callback.flow.sessionId
        else if callback.flow.action = .login ∧ s.config.any Config.active = false then s
        else openSession limits s callback subject started user id

/-- A disabled account ends this callback and nothing else; a flow with a session awaits the check of it. -/
def answered (limits : Limits) (s : State) (callback : Callback) (subject : String) (started : Nat)
    (enabled : Option Bool) (id : String) :
    State :=
  let issuer := callback.fingerprint.bound.issuer
  match enabled with
  | none => s.endCallback callback.thread
  | some enabled =>
    let noted := s.note (.answered started issuer subject enabled (s.existing issuer subject))
    if enabled && s.current callback.fingerprint then
      match callback.flow.sessionId with
      | none => finishCallback limits (noted.endCallback callback.thread) callback subject started id
      | some sessionId => (startRefresh noted sessionId).advance callback (.refreshing subject started)
    else noted.endCallback callback.thread

/-- The initiating session must still be valid, and its user the one who began. -/
def resumed (limits : Limits) (s : State) (callback : Callback) (sessionId subject : String)
    (started : Nat) (id : String) : State :=
  let outcome :=
    validateSession limits (s.endCallback callback.thread) sessionId (some callback.fingerprint.bound.publicOrigin)
  if outcome.1 && (s.sessions.get sessionId).map Session.userId == callback.flow.userId then
    finishCallback limits outcome.2 callback subject started id
  else outcome.2

inductive Label where
  | tick (ms : Nat)
  | connection (issuer : Option String)
  | user (user : User)
  | signIn (id userId origin : String) (linkOnly ldap : Bool)
  | prove (sessionId : String)
  | revoke (sessionId : String)
  | request (sessionId : String) (origin : Option String)
  | saveConfig (expectedRevision : Nat) (bound : Bound) (valid : Bool)
  | activate (fingerprint : Fingerprint)
  | disable
  | begin (action : Action) (confirmed : Bool) (origin browser : String) (caller : Option Caller)
  | beginVerified (thread : Nat) (valid : Bool) (state : String)
  | beginBuilt (thread : Nat) (built : Bool)
  | callback (origin browser state : String)
  | exchanged (thread : Nat) (subject : Option String)
  | verified (thread : Nat) (valid : Bool)
  | answered (thread : Nat) (enabled : Option Bool) (id : String)
  | resumed (thread : Nat) (id : String)
  | refresh (sessionId : String)
  | refreshVerified (sessionId : String) (valid : Bool)
  | refreshAnswered (sessionId : String) (enabled : Option Bool)

/-- A session that did not come through the provider. -/
def signIn (limits : Limits) (s : State) (id userId origin : String) (method : Method) : State :=
  { s with
    sessions := s.sessions.put ⟨id, userId, s.now + limits.sessionTtl, s.now, false, none⟩
    contexts := s.contexts.put ⟨id, userId, origin, method, some s.now⟩ }

def prove (s : State) (sessionId : String) : State :=
  match s.contexts.get sessionId with
  | none => s
  | some context =>
    if context.central.isSome then s
      else { s with contexts := s.contexts.put { context with localProofAt := some s.now } }

/-- An id of a session is used once. -/
def State.freshSession (s : State) (id : String) : Bool := (s.sessions.get id).isNone && (s.contexts.get id).isNone

def localMethod (linkOnly ldap : Bool) : Method :=
  if linkOnly then .linkOnly else if ldap then .ldap else .localAccount

def step (limits : Limits) (s : State) : Label → Option State
  | .tick ms => some { s with now := s.now + ms }
  | .connection issuer => some { s with connection := issuer }
  | .user user => some { s with users := s.users.put user }
  | .signIn id userId origin linkOnly ldap =>
    if s.freshSession id then some (signIn limits s id userId origin (localMethod linkOnly ldap)) else none
  | .prove sessionId => some (prove s sessionId)
  | .revoke sessionId => some (s.revokeWhere (· == sessionId))
  | .request sessionId origin => some (validateSession limits s sessionId origin).2
  | .saveConfig expectedRevision bound valid => some (saveConfig s expectedRevision bound valid)
  | .activate fingerprint => some (activate s fingerprint)
  | .disable => some (disableSso s)
  | .begin action confirmed origin browser caller => some (startBegin s action confirmed origin browser caller)
  | .beginVerified thread valid state => do
    let started ← s.begins.get thread
    match started.stage with
    | .verifying => if s.freshState state then some (beginVerified s started valid state) else none
    | .building .. => none
  | .beginBuilt thread built => do
    let started ← s.begins.get thread
    match started.stage with
    | .verifying => none
    | .building state startedAt => some (beginBuilt s started state startedAt built)
  | .callback origin browser state => some (startCallback s origin browser state)
  | .exchanged thread subject => do
    let callback ← s.callbacks.get thread
    match callback.stage with
    | .exchanging => some (exchanged s callback subject)
    | _ => none
  | .verified thread valid => do
    let callback ← s.callbacks.get thread
    match callback.stage with
    | .verifying subject => some (verified s callback subject valid)
    | _ => none
  | .answered thread enabled id => do
    let callback ← s.callbacks.get thread
    match callback.stage with
    | .checking subject started =>
      if s.freshSession id then some (answered limits s callback subject started enabled id) else none
    | _ => none
  | .resumed thread id => do
    let callback ← s.callbacks.get thread
    match callback.stage, callback.flow.sessionId with
    | .refreshing subject started, some sessionId =>
      -- the awaited refresh of the initiating session is over
      if s.freshSession id && (s.refreshes.get sessionId).isNone then
        some (resumed limits s callback sessionId subject started id)
      else none
    | _, _ => none
  | .refresh sessionId => some (startRefresh s sessionId)
  | .refreshVerified sessionId valid => do
    let refresh ← s.refreshes.get sessionId
    match refresh.stage with
    | .verifying => some (refreshVerified s refresh valid)
    | .checking _ => none
  | .refreshAnswered sessionId enabled => do
    let refresh ← s.refreshes.get sessionId
    match refresh.stage with
    | .verifying => none
    | .checking started => some (refreshAnswered s refresh started enabled)

def State.start : State := ⟨0, none, none, ∅, ∅, ∅, ∅, ∅, ∅, ∅, ∅, 0, []⟩

def machine (limits : Limits) : System State Label where
  initial := (· = .start)
  step := step limits

end ProxyPilot.Sso
