import ProxyPilot.Effects.Trace

namespace ProxyPilot.Routes

open Effects

/-! # Moving a service's upstream (`route-render.js`)

Every call to a dependency or to the fence is an entry of the log. What a call does, and
how it fails, is part of the pattern.
-/

structure Service where
  targetIp : Option String

structure Route where
  serviceId : String
  domain : String

structure Host where
  services : String → Option Service
  routes : List Route
  /-- The site file of a domain. -/
  files : String → Option String

inductive Failure where
  | lease (message : String)
  | other (message : String)

/-- `isLeaseLost`. -/
def Failure.isLeaseLost : Failure → Bool
  | .lease _ => true
  | .other _ => false

def Failure.message : Failure → String
  | .lease message | .other message => message

/-- A call that fails may have had its effect. -/
inductive Call where
  | done
  | fails (effect : Bool) (failure : Failure)

inductive Op where
  | setUpstream (ip : Option String)
  | regenerate (domain : String) (upstream : Option String)
  | adapt
  | reload
  | revert
  | writeConfig (domain : String)
  | removeConfig (domain : String)
  | restoreReload

inductive Event where
  | guard (thrown : Bool)
  | ran (op : Op) (call : Call)

/-- How the dependencies behave during one call. -/
structure Pattern where
  /-- The fence throws at its n-th call. -/
  fence : Nat → Bool
  lost : String
  regenerate : String → Call
  adapt : Call
  reload : Call
  writeConfig : String → Call
  removeConfig : String → Call
  restoreReload : Call
  revert : Call

structure World extends Pattern where
  /-- What `regenerate` writes for a domain of an address. -/
  render : Option String → String → Option String
  readable : String → Bool

structure Progress where
  host : Host
  log : List Event

abbrev Act := EStateM Failure Progress

def Event.isGuard : Event → Bool
  | .guard _ => true
  | .ran .. => false

/-- `guard`. -/
def guard (w : World) : Act Unit := fun progress =>
  let thrown := w.fence (progress.log.countP Event.isGuard)
  let after := { progress with log := progress.log ++ [.guard thrown] }
  if thrown then .error (.lease w.lost) after else .ok () after

/-- A call to a dependency. -/
def perform (op : Op) (call : Call) (effect : Host → Host) : Act Unit := fun progress =>
  let log := progress.log ++ [.ran op call]
  match call with
  | .done => .ok () ⟨effect progress.host, log⟩
  | .fails true failure => .error failure ⟨effect progress.host, log⟩
  | .fails false failure => .error failure ⟨progress.host, log⟩

def Host.setFile (host : Host) (domain : String) (text : Option String) : Host :=
  { host with files := fun other => if other = domain then text else host.files other }

def Host.setService (host : Host) (serviceId : String) (targetIp : Option String) : Host :=
  { host with services := fun other => if other = serviceId then some ⟨targetIp⟩ else host.services other }

def Host.upstream (host : Host) (serviceId : String) : Option String :=
  (host.services serviceId).bind Service.targetIp

def domainsForService (host : Host) (serviceId : String) : List String :=
  (((host.routes.filter (·.serviceId = serviceId)).map Route.domain).eraseDups).filter (· ≠ "")

structure Backup where
  domain : String
  existed : Bool
  content : Option String

/-- A file that cannot be read is kept as one that was not there. -/
def snapshotDomain (w : World) (host : Host) (domain : String) : Backup :=
  match host.files domain with
  | some text => if w.readable domain then ⟨domain, true, some text⟩ else ⟨domain, false, none⟩
  | none => ⟨domain, false, none⟩

def snapshotDomainConfigs (w : World) (host : Host) (domains : List String) : List Backup :=
  domains.map (snapshotDomain w host)

def regenerate (w : World) (serviceId domain : String) : Act Unit := do
  let progress ← get
  let upstream := progress.host.upstream serviceId
  perform (.regenerate domain upstream) (w.regenerate domain) (·.setFile domain (w.render upstream domain))

def restoreFile (w : World) (backup : Backup) : Act Unit :=
  match backup.existed, backup.content with
  | true, some text =>
    perform (.writeConfig backup.domain) (w.writeConfig backup.domain) (·.setFile backup.domain (some text))
  | _, _ => perform (.removeConfig backup.domain) (w.removeConfig backup.domain) (·.setFile backup.domain none)

def restore (w : World) (backups : List Backup) : Act Unit := do
  each backups fun backup => do
    guard w
    tryCatch (restoreFile w backup) fun _ => pure ()
  guard w
  tryCatch (perform .restoreReload w.restoreReload id) fun _ => pure ()

def failWith (w : World) (backups : List Backup) (failure : Failure) (message : String) : Act Unit :=
  if failure.isLeaseLost then throw failure
  else do
    tryCatch (restore w backups) fun inner => if inner.isLeaseLost then throw inner else pure ()
    throw (.other message)

def renderDomains (w : World) (serviceId : String) (domains : List String) : Act Unit :=
  let targets := (domains.filter (· ≠ "")).eraseDups
  if targets.isEmpty then pure ()
  else do
    guard w
    let progress ← get
    let backups := snapshotDomainConfigs w progress.host targets
    tryCatch (each targets fun domain => do
        guard w
        regenerate w serviceId domain)
      fun failure => failWith w backups failure ("Failed to render Caddy config: " ++ failure.message)
    tryCatch (do
        guard w
        perform .adapt w.adapt id)
      fun failure => failWith w backups failure ("Generated Caddy config failed validation: " ++ failure.message)
    tryCatch (do
        guard w
        perform .reload w.reload id)
      fun failure => failWith w backups failure ("Caddy reload failed: " ++ failure.message)

structure Applied where
  changed : Bool
  oldIp : Option String
  newIp : Option String
  domains : List String

/-- The row put back, unless it is another's to write. -/
def revertUpstream (w : World) (serviceId : String) (oldIp : Option String) (failure : Failure) : Act Unit :=
  if failure.isLeaseLost then pure ()
  else
    tryCatch (do
        guard w
        perform .revert w.revert (·.setService serviceId oldIp))
      fun inner => if inner.isLeaseLost then throw inner else pure ()

def applyServiceUpstream (w : World) (serviceId : String) (ip : Option String) : Act Applied := do
  let progress ← get
  match progress.host.services serviceId with
  | none => throw (.other ("Service " ++ serviceId ++ " not found"))
  | some service =>
    if ip = none ∨ ip = some "" ∨ service.targetIp = ip then
      pure ⟨false, service.targetIp, ip <|> service.targetIp, []⟩
    else do
      let domains := domainsForService progress.host serviceId
      guard w
      perform (.setUpstream ip) .done (·.setService serviceId ip)
      tryCatch (renderDomains w serviceId domains) fun failure => do
        revertUpstream w serviceId service.targetIp failure
        throw failure
      pure ⟨true, service.targetIp, ip, domains⟩

end ProxyPilot.Routes
