import ProxyPilot.Data.Objects
import ProxyPilot.Data.Table
import ProxyPilot.Firewall.Ruleset

namespace ProxyPilot.Firewall

open Data

/-! # The calls that change the state

The operator's toggles, the discovery scan, the egress entries and panic-close.
A call that throws writes nothing.
-/

/-- `SERVICE_TAG_RE` -/
def isServiceTag (service : String) : Bool :=
  decide (1 ≤ service.toList.length ∧ service.toList.length ≤ 64) && service.toList.all nameChar

def applyServiceTag (rule : Rule) : Option String → Except String Rule
  | none => .ok rule
  | some "" => .ok { rule with service := none }
  | some service =>
    if isServiceTag service then .ok { rule with service := some service }
      else .error s!"invalid service tag \"{service}\""

inductive Action where
  | enable
  | disable
  | setPort
  | setScope
  | addManual
  | addServiceL4
deriving DecidableEq

def panicGuard (state : State) (action : Action) : Except String Unit :=
  require (!(state.panic_close && (action == .enable || action == .setScope || action == .addManual)))
    "firewall is in panic-close. Run `proxypilot firewall panic-open` first."

/-- Change the first rule with the id. -/
def updateFirst (id : String) (fn : Rule → Except String Rule) : List Rule → Except String (List Rule)
  | [] => .error s!"no rule with id {id}"
  | rule :: rest =>
    if rule.id = id then (fn rule).map (· :: rest) else (updateFirst id fn rest).map (rule :: ·)

def mutate (state : State) (id : String) (action : Action) (fn : Rule → Except String Rule) :
    Except String State := do
  panicGuard state action
  if state.base.any (·.id == id) then
    let base ← updateFirst id fn state.base
    .ok { state with base := base }
  else
    let discovered ← updateFirst id fn state.discovered
    .ok { state with discovered := discovered }

/-- `sourceCidrs && sourceCidrs.length > 0` -/
def nonemptyCidrs : Option (List String) → Option (List String)
  | some (first :: rest) => some (first :: rest)
  | _ => none

def enable (id : String) (scope : Option Scope) (sourceCidrs : Option (List String))
    (service : Option String) (state : State) :
    Except String State :=
  mutate state id .enable fun rule => do
    require (scope.all (·.valid)) "invalid scope"
    applyServiceTag
      { rule with
        enabled := true, scope := scope.getD rule.scope,
        source_cidrs := (nonemptyCidrs sourceCidrs).or rule.source_cidrs }
      service

def disable (id : String) (state : State) : Except String State :=
  mutate state id .disable fun rule => .ok { rule with enabled := false }

/-- A port, with the end of its range. -/
def validPorts (port : Nat) (portEnd : Option Nat) : Bool :=
  decide (1 ≤ port ∧ port ≤ 65535) && portEnd.all fun last => decide (port ≤ last ∧ last ≤ 65535)

def setPort (id : String) (port : Nat) (portEnd : Option Nat) (state : State) : Except String State := do
  require (validPorts port portEnd) "invalid port"
  mutate state id .setPort fun rule => .ok { rule with port_start := port, port_end := portEnd }

def setScope (id : String) (scope : Scope) (sourceCidrs : Option (List String))
    (service : Option String) (state : State) :
    Except String State := do
  require scope.valid "invalid scope"
  mutate state id .setScope fun rule =>
    applyServiceTag
      { rule with
        scope := scope
        source_cidrs := match sourceCidrs with
          | none => rule.source_cidrs
          | some [] => none
          | some cidrs => some cidrs }
      service

structure NewRule where
  port : Nat
  portEnd : Option Nat
  proto : Proto
  scope : Option Scope
  reason : String
  sourceCidrs : Option (List String)
  service : Option String

/-- `localeCompare(a, b) <= 0`. -/
abbrev Collation := String → String → Bool

def sortById (collation : Collation) (rules : List Rule) : List Rule :=
  rules.mergeSort fun left right => collation left.id right.id

def portRange (port : Nat) (portEnd : Option Nat) : String :=
  match portEnd.filter fun last => last != 0 && last != port with
  | some last => s!"{port}-{last}"
  | none => s!"{port}"

def Proto.text : Proto → String
  | .tcp => "tcp"
  | .udp => "udp"

/-- Add an enabled rule to the discovered ones. -/
def addRule (collation : Collation) (action : Action) (id : String) (source : Source)
    (scope : Scope) (new : NewRule) (now : Nat)
    (state : State) : Except String State := do
  require scope.valid "invalid scope"
  require (validPorts new.port new.portEnd) "invalid port"
  require (new.reason != "") "--reason is required"
  panicGuard state action
  require (!state.rules.any (·.id == id)) s!"a rule with id {id} already exists"
  let rule ← applyServiceTag
    { id := id, source := source, process := none, port_start := new.port, port_end := new.portEnd,
      proto := new.proto,
      scope := scope, source_cidrs := nonemptyCidrs new.sourceCidrs, enabled := true, reason := some new.reason,
      service := none, last_seen := now }
    new.service
  .ok { state with discovered := sortById collation (state.discovered ++ [rule]) }

def addManual (collation : Collation) (new : NewRule) (now : Nat) (state : State) : Except String State :=
  addRule collation .addManual s!"manual-host-operator-{portRange new.port new.portEnd}-{new.proto.text}" .manual
    (new.scope.getD (.unknown "undefined")) new now state

def addServiceL4 (collation : Collation) (id : String) (new : NewRule) (now : Nat) (state : State) :
    Except String State := do
  require ("service-l4-".toList.isPrefixOf id.toList) "addServiceL4: id must start with 'service-l4-'"
  addRule collation .addServiceL4 id .serviceL4 (new.scope.getD .«public») new now state

/-- Remove the first discovered rule with the id, where it comes from the given source. -/
def removeFrom (source : Source) (id : String) (state : State) : Except String State := do
  let rule ← demand (state.discovered.find? (·.id == id)) s!"no rule with id {id}"
  require (rule.source == source) s!"refusing to remove rule {id}; use disable instead"
  .ok { state with discovered := state.discovered.eraseP (·.id == id) }

def removeServiceL4 : String → State → Except String State := removeFrom .serviceL4

def removeManual : String → State → Except String State := removeFrom .manual

/-- The keys a lookup in `NAMED_SERVICES` finds: its own and those of every object. -/
def namedServices : List String := "pgbouncer" :: objectMemberNames

def EgressEntry.allowing (entry : EgressEntry) (service : String)
    (reason containerIp : Option String) : EgressEntry where
  container := entry.container
  container_ip := (containerIp.filter (· != "")).or entry.container_ip
  allow := if entry.allow.contains service then entry.allow else entry.allow ++ [service]
  reason := (reason.filter (· != "")).or entry.reason

/-- Change the first entry of the container. -/
def updateEntry (container : String) (change : EgressEntry → Option EgressEntry) :
    List EgressEntry → List EgressEntry
  | [] => []
  | entry :: rest =>
    if entry.container = container then (change entry).toList ++ rest
      else entry :: updateEntry container change rest

def allowEgress (container service : String) (reason containerIp : Option String) (state : State) :
    Except String State := do
  require (namedServices.contains service) s!"unknown service '{service}'"
  let entries := if state.container_egress.any (·.container == container) then state.container_egress
    else state.container_egress ++ [⟨container, none, [], reason⟩]
  .ok { state with container_egress := updateEntry container (fun entry => some (entry.allowing service reason containerIp)) entries }

def denyEgress (container service : String) (state : State) : Except String State :=
  .ok { state with
    container_egress := updateEntry container
      (fun entry =>
        let kept := entry.allow.filter (· != service)
        if kept = [] then none else some { entry with allow := kept })
      state.container_egress }

instance : Keyed Rule String := ⟨Rule.id⟩

/-- A listener a scan found. -/
structure Listener where
  source : Source
  container : Option String
  process : Option String
  port_start : Nat
  port_end : Option Nat
  proto : Proto

def Source.text : Source → String
  | .base => "base"
  | .host => "host"
  | .lxc => "lxc"
  | .docker => "docker"
  | .caddyL4 => "caddy-l4"
  | .manual => "manual"
  | .serviceL4 => "service-l4"

def ruleId (rec : Listener) : String :=
  "-".intercalate
    [rec.source.text, rec.container.getD "host", rec.process.getD "unknown",
      portRange rec.port_start rec.port_end, rec.proto.text]

/-- Seven days. -/
def RETENTION_MS : Nat := 7 * 24 * 60 * 60 * 1000

/-- A listener seen again: its time, and its process where that was not known. -/
def Rule.seen (rule : Rule) (rec : Listener) (now : Nat) : Rule :=
  { rule with
    last_seen := now
    process := if rule.process.all (· == "") then (rec.process.filter (· != "")).or rule.process else rule.process }

def Listener.rule (rec : Listener) (now : Nat) : Rule where
  id := ruleId rec
  source := rec.source
  process := rec.process
  port_start := rec.port_start
  port_end := rec.port_end
  proto := rec.proto
  scope := .«public»
  source_cidrs := none
  enabled := false
  reason := none
  service := none
  last_seen := now

def discoverOne (now : Nat) (existing : Table Rule) (rec : Listener) : Table Rule :=
  match existing.get (ruleId rec) with
  | some current => existing.put (current.seen rec now)
  | none => existing.put (rec.rule now)

/-- Not seen for the retention window by a scan of its source. -/
def Rule.stale (rule : Rule) (scanned : List Source) (now : Nat) : Bool :=
  scanned.contains rule.source && rule.source != .manual && decide (rule.last_seen + RETENTION_MS < now)

def reconcileDiscovery (collation : Collation) (discoveredSet : List Listener) (now : Nat)
    (state : State) : State :=
  let existing := state.discovered.foldl Table.put ∅
  let found := discoveredSet.foldl (discoverOne now) existing
  let kept := found.rows.filter fun rule => !rule.stale (discoveredSet.map (·.source)) now
  { state with discovered := sortById collation kept }

def Rule.panicKeeps (rule : Rule) : Bool := rule.id == "base-ssh" || (rule.id == "base-wireguard" && rule.enabled)

def panicClose (state : State) : State :=
  { state with
    panic_close := true
    base := state.base.map fun rule => { rule with enabled := rule.panicKeeps }
    discovered := state.discovered.map fun rule => { rule with enabled := false } }

def panicOpen (state : State) : State := { state with panic_close := false }

end ProxyPilot.Firewall
