import ProxyPilot.Mock2.NetworkLogic
import ProxyPilot.Vpn.Records

namespace ProxyPilot.Firewall

/-! # From the state file to the ruleset

`firewall.json` is the durable form: the base allowlist, the rules discovery and
the operator added, the egress entries of the containers and the panic flag.

`render` turns the enabled rules into the accept rules of `base_input` and
`discovered_input`.  The chains of the other hooks never see an input packet;
what they are rendered from is kept, since a bad value there throws.

`resolveVpnSources` writes the peers' addresses into the `vpn-only` rules,
`lockoutCheck` looks at the rules so rewritten, and `reconcile` loads the ruleset.
-/

inductive Proto where
  | tcp
  | udp
deriving DecidableEq

inductive Scope where
  | «public»
  | lanOnly
  | vpnOnly
  | localhostOnly
  | unknown (text : String)
deriving DecidableEq

/-- `VALID_SCOPES` -/
def Scope.valid : Scope → Bool
  | .unknown _ => false
  | _ => true

inductive Source where
  | base
  | host
  | lxc
  | docker
  | caddyL4
  | manual
  | serviceL4
deriving DecidableEq

structure Rule where
  id : String
  source : Source
  process : Option String
  port_start : Nat
  port_end : Option Nat
  proto : Proto
  scope : Scope
  source_cidrs : Option (List String)
  enabled : Bool
  reason : Option String
  service : Option String
  last_seen : Nat
deriving DecidableEq

structure EgressEntry where
  container : String
  container_ip : Option String
  allow : List String
  reason : Option String

/-- `state.network`: overrides for a bridge that is not the default one. -/
structure Network where
  bridge_iface : Option String
  bridge_cidr : Option String
  bridge_gw : Option String

structure ProtectedUpstream where
  bridge : String
  mac : String
  ipv4 : String
  ipv6 : Option String
  port : Nat
  container : String
  route_id : String

structure State where
  base : List Rule
  discovered : List Rule
  container_egress : List EgressEntry
  protected_upstreams : List ProtectedUpstream
  network : Network
  vpn_masquerade_iface : Option String
  panic_close : Bool

def State.rules (state : State) : List Rule := state.base ++ state.discovered

private def baseRule (id : String) (port : Nat) (proto : Proto) (enabled : Bool) (reason : String)
    (ts : Nat) : Rule where
  id := id
  source := .base
  process := none
  port_start := port
  port_end := none
  proto := proto
  scope := .«public»
  source_cidrs := none
  enabled := enabled
  reason := some reason
  service := none
  last_seen := ts

def DEFAULT_BASE (ts : Nat) : List Rule :=
  [baseRule "base-ssh" 22 .tcp true "ssh" ts,
   baseRule "base-caddy-http" 80 .tcp true "caddy-http" ts,
   baseRule "base-caddy-https" 443 .tcp true "caddy-https" ts,
   baseRule "base-caddy-http3" 443 .udp false "caddy-http3" ts,
   baseRule "base-wireguard" 51820 .udp false "wireguard" ts]

def defaultState (ts : Nat) : State where
  base := DEFAULT_BASE ts
  discovered := []
  container_egress := []
  protected_upstreams := []
  network := ⟨none, none, none⟩
  vpn_masquerade_iface := none
  panic_close := false

/-- `rule.service`, unless it is empty. -/
def Rule.serviceTag (rule : Rule) : Option String := rule.service.filter (· != "")

/-- The enabled `vpn-only` rules without a service tag. -/
def State.untaggedVpnOnly (state : State) : List Rule :=
  state.rules.filter fun rule => rule.enabled && rule.scope == .vpnOnly && rule.serviceTag.isNone

open Mock2 (Ipv4 Cidr CtState Verdict)
open Rules

inductive Address where
  | v4 (ip : Ipv4)
  | v6 (bits : Fin (2 ^ 128))
deriving DecidableEq

inductive Transport where
  | tcp
  | udp
  | icmpEcho
  | other
deriving DecidableEq

def Proto.transport : Proto → Transport
  | .tcp => .tcp
  | .udp => .udp

structure Packet where
  iif : String
  saddr : Address
  daddr : Address
  transport : Transport
  dport : Nat
  ct : CtState
  /-- The limit on echo requests is not used up. -/
  withinRate : Bool

def readOctet (digits : List Char) : Option (Fin 256) :=
  let value := Nat.ofDigitChars 10 digits 0
  if bound : value < 256 then
    if digits.all Char.isDigit ∧ Nat.toDigits 10 value = digits then some ⟨value, bound⟩ else none
  else none

def readIpv4 (text : List Char) : Option Ipv4 :=
  match (text.splitOn '.').map readOctet with
  | [some o1, some o2, some o3, some o4] => some ⟨o1, o2, o3, o4⟩
  | _ => none

def readCidrChars (text : List Char) : Option Cidr :=
  match text.splitOn '/' with
  | [address] => (readIpv4 address).map (⟨·, 32⟩)
  | [address, len] =>
    match readIpv4 address, readOctet len with
    | some base, some len => if len.val ≤ 32 then some ⟨base, len.val⟩ else none
    | _, _ => none
  | _ => none

/-- An address or a subnet, in its usual spelling. -/
def readCidr (text : String) : Option Cidr := readCidrChars text.toList

def isIPv4 (text : String) : Bool := (readIpv4 text.toList).isSome

/-- `ip saddr { … } <proto> dport <first>[-<last>] accept comment "…"` -/
structure AllowRule where
  sources : Option (List String)
  proto : Proto
  first : Nat
  last : Option Nat
  comment : String

def RFC1918 : List String := ["10.0.0.0/8", "172.16.0.0/12", "192.168.0.0/16"]
def VPN_CIDR : String := "10.100.0.0/24"
def LOCALHOST_V4 : String := "127.0.0.0/8"

/-- `rule.source_cidrs`, when it is there and not empty. -/
def Rule.explicitSources (rule : Rule) : Option (List String) :=
  match rule.source_cidrs with
  | some (first :: rest) => some (first :: rest)
  | _ => none

def sourcesFor (rule : Rule) : Except String (Option (List String)) :=
  match rule.explicitSources with
  | some cidrs => .ok (some cidrs)
  | none =>
    match rule.scope with
    | .«public» => .ok none
    | .lanOnly => .ok (some RFC1918)
    | .vpnOnly => .ok (some [VPN_CIDR])
    | .localhostOnly => .ok (some [LOCALHOST_V4])
    | .unknown text => .error s!"unknown scope: {text}"

/-- The end of a port range, when the rule has one. -/
def portMatch (rule : Rule) : Option Nat := rule.port_end.filter fun last => last != 0 && last != rule.port_start

def comment (rule : Rule) : String :=
  let unquoted (text : String) := String.ofList (text.toList.filter (· != '"'))
  unquoted rule.id ++ ": " ++ unquoted (rule.reason.getD "")

def renderAllowRule (rule : Rule) : Except String AllowRule :=
  (sourcesFor rule).map fun sources => ⟨sources, rule.proto, rule.port_start, portMatch rule, comment rule⟩

def DEFAULT_BRIDGE_IFACE : String := "pp-br0"
def DEFAULT_BRIDGE_CIDR : String := "10.0.100.0/24"
def DEFAULT_BRIDGE_GW : String := "10.0.100.1"

/-- `IFACE_RE` -/
def isIface (text : String) : Bool :=
  decide (1 ≤ text.toList.length ∧ text.toList.length ≤ 15) && text.toList.all Data.nameChar

/-- One to three digits. -/
def shortNumber (digits : List Char) : Bool :=
  decide (1 ≤ digits.length ∧ digits.length ≤ 3) && digits.all Char.isDigit

def dotted (text : List Char) : Bool := (text.splitOn '.').length == 4 && (text.splitOn '.').all shortNumber

/-- `IPV4_RE` -/
def isDottedQuad (text : String) : Bool := dotted text.toList

/-- `CIDR_RE` -/
def isDottedCidr (text : String) : Bool :=
  match text.toList.splitOn '/' with
  | [address, len] =>
    dotted address && (List.range 33).any fun bits => Nat.toDigits 10 bits == len
  | _ => false

structure Bridge where
  iface : String
  cidr : String
  gw : String

def bridgeFromState (state : State) : Except String Bridge :=
  let iface := state.network.bridge_iface.getD DEFAULT_BRIDGE_IFACE
  let cidr := state.network.bridge_cidr.getD DEFAULT_BRIDGE_CIDR
  let gw := state.network.bridge_gw.getD DEFAULT_BRIDGE_GW
  if !isIface iface then .error s!"invalid network.bridge_iface: {iface}"
  else if !isDottedCidr cidr then .error s!"invalid network.bridge_cidr: {cidr}"
  else if !isDottedQuad gw then .error s!"invalid network.bridge_gw: {gw}"
  else .ok ⟨iface, cidr, gw⟩

/-- `MAC_RE` -/
def isMac (text : String) : Bool :=
  let parts := text.toList.splitOn ':'
  parts.length == 6 && parts.all fun part => part.length == 2 && part.all Data.hexChar

def containerName (text : String) : Bool :=
  match text.toList with
  | [] => false
  | first :: rest => first.isAlphanum && decide (rest.length ≤ 62) && rest.all fun c => c.isAlphanum || c == '-'

def routeId (text : String) : Bool :=
  decide (1 ≤ text.toList.length ∧ text.toList.length ≤ 100) && text.toList.all fun c => c.isAlphanum || c == '-'

/-- The check on one entry of `protected_upstreams`; `isIPv6` is the runtime's. -/
def ProtectedUpstream.valid (isIPv6 : String → Bool) (entry : ProtectedUpstream) : Bool :=
  isIface entry.bridge && isMac entry.mac && isIPv4 entry.ipv4 && entry.ipv6.all isIPv6 &&
    decide (1024 ≤ entry.port ∧ entry.port ≤ 65535) && containerName entry.container && routeId entry.route_id

def protectedUpstreams (isIPv6 : String → Bool) (state : State) : Except String (List ProtectedUpstream) :=
  if state.protected_upstreams.length > 20 then .error "invalid protected_upstreams"
  else if state.protected_upstreams.all (·.valid isIPv6) then .ok state.protected_upstreams
  else .error "invalid protected upstream entry"

def renderNatPostrouting (state : State) : Except String (Option String) :=
  match state.vpn_masquerade_iface.filter (· != "") with
  | none => .ok none
  | some iface => if isIface iface then .ok (some iface) else .error s!"invalid vpn_masquerade_iface: {iface}"

structure Ruleset where
  bridge : Bridge
  base_input : List AllowRule
  discovered_input : List AllowRule
  container_egress : List EgressEntry
  masquerade : Option String
  protected_upstreams : List ProtectedUpstream

def render (isIPv6 : String → Bool) (state : State) : Except String Ruleset := do
  let bridge ← bridgeFromState state
  let base ← (state.base.filter (·.enabled)).mapM renderAllowRule
  let discovered ← (state.discovered.filter (·.enabled)).mapM renderAllowRule
  let masquerade ← renderNatPostrouting state
  let upstreams ← protectedUpstreams isIPv6 state
  .ok ⟨bridge, base, discovered, state.container_egress, masquerade, upstreams⟩

/-- The host's programs. -/
structure Tools where
  isIPv6 : String → Bool
  /-- How `nft` reads a set element that is neither an address nor a subnet. -/
  element : String → Option (Ipv4 → Bool)
  /-- `nft -f` takes the file, its set elements aside. -/
  loads : Ruleset → Bool

def Tools.readElement (tools : Tools) (text : String) : Option (Ipv4 → Bool) :=
  match readCidr text with
  | some cidr => some cidr.contains
  | none => tools.element text

/-- The set element holds the address. -/
def Tools.elementHolds (tools : Tools) (text : String) (ip : Ipv4) : Bool :=
  match tools.readElement text with
  | some holds => holds ip
  | none => false

/-- `ip saddr { … }`, which no IPv6 packet matches. -/
def AllowRule.fromSource (tools : Tools) (rule : AllowRule) (saddr : Address) : Bool :=
  match rule.sources, saddr with
  | none, _ => true
  | some elements, .v4 ip => elements.any (tools.elementHolds · ip)
  | some _, .v6 _ => false

def AllowRule.toPort (rule : AllowRule) (dport : Nat) : Bool :=
  match rule.last with
  | none => dport == rule.first
  | some last => decide (rule.first ≤ dport ∧ dport ≤ last)

def AllowRule.accepts (tools : Tools) (rule : AllowRule) (transport : Transport) (dport : Nat)
    (saddr : Address) : Bool :=
  transport == rule.proto.transport && rule.toPort dport && rule.fromSource tools saddr

def AllowRule.decides (tools : Tools) (rule : AllowRule) (packet : Packet) : Option Verdict :=
  if rule.accepts tools packet.transport packet.dport packet.saddr then some .accept else none

/-- A rule of `input_hook` before the jumps. -/
structure HookRule where
  holds : Packet → Bool
  verdict : Verdict

def HookRule.decides (rule : HookRule) (packet : Packet) : Option Verdict :=
  if rule.holds packet then some rule.verdict else none

/-- `iifname "<start>*"` -/
def Packet.onInterfaces (packet : Packet) (start : String) : Bool := start.toList.isPrefixOf packet.iif.toList

def inVpn : Address → Bool
  | .v4 ip => Cidr.contains ⟨⟨10, 100, 0, 0⟩, 24⟩ ip
  | .v6 _ => false

def preJumps (bridge : Bridge) : List HookRule :=
  [⟨fun packet => packet.iif == "lo", .accept⟩,
   ⟨fun packet => packet.iif == bridge.iface, .accept⟩,
   ⟨fun packet => packet.onInterfaces "m2br", .accept⟩,
   ⟨fun packet => inVpn packet.saddr && packet.daddr == .v4 ⟨10, 100, 0, 1⟩ &&
      (packet.transport == .tcp || packet.transport == .udp) && packet.dport == 53, .accept⟩,
   ⟨fun packet => packet.onInterfaces "br-" && packet.transport == .tcp && packet.dport == 18086, .accept⟩,
   ⟨fun packet => packet.ct == .established || packet.ct == .related, .accept⟩,
   ⟨fun packet => packet.ct == .invalid, .drop⟩,
   ⟨fun packet => packet.transport == .icmpEcho && packet.withinRate, .accept⟩]

/-- `input_hook`, with its jumps and its policy. -/
def Ruleset.verdict (tools : Tools) (ruleset : Ruleset) (packet : Packet) : Verdict :=
  ((firstMatch HookRule.decides (preJumps ruleset.bridge) packet).or
    (firstMatch (AllowRule.decides tools) (ruleset.base_input ++ ruleset.discovered_input) packet)).getD .drop

/-- `nft -f` succeeds: every set element can be read, and the rest of the file is fine. -/
def Tools.apply (tools : Tools) (ruleset : Ruleset) : Bool :=
  (ruleset.base_input ++ ruleset.discovered_input).all (fun rule =>
    (rule.sources.getD []).all fun text => (tools.readElement text).isSome) && tools.loads ruleset

open Vpn (Peer Ip)

def NO_ALLOWED_PEERS_SENTINEL : String := "255.255.255.255/32"

/-- `10.100.0.<suffix>/32` -/
def peerCidr (ip : Ip) : String := String.ofList ip.text ++ "/32"

/-- The peer may reach a `vpn-only` rule with this tag. -/
def peerAllowed (service : Option String) (peer : Peer) : Bool :=
  match peer.scope with
  | .full | .admin => true
  | .services => service.any fun tag => (peer.scope_services.getD []).contains tag

/-- The addresses a `vpn-only` rule is open to: full and admin peers first, no address twice,
sorted by the last octet. -/
def allowedIps (peers : List Peer) (service : Option String) : List Ip :=
  let enabled := peers.filter (·.status == .enabled)
  let fullAdmin := enabled.filter (·.scope != .services)
  let tagged := (enabled.filter (·.scope == .services)).filter (peerAllowed service)
  ((fullAdmin ++ tagged).map (·.allowed_ip)).dedup.mergeSort fun left right => left.suffix ≤ right.suffix

def resolveRule (peers : List Peer) (rule : Rule) : Rule :=
  if !rule.enabled || rule.scope != .vpnOnly || rule.explicitSources.isSome then rule
  else
    match allowedIps peers rule.serviceTag with
    | [] => { rule with source_cidrs := some [NO_ALLOWED_PEERS_SENTINEL] }
    | first :: rest => { rule with source_cidrs := some ((first :: rest).map peerCidr) }

def resolveVpnSources (peers : List Peer) (state : State) : State :=
  { state with base := state.base.map (resolveRule peers), discovered := state.discovered.map (resolveRule peers) }

/-- An enabled TCP rule that covers port 22, as the check reads its range. -/
def Rule.isSsh (rule : Rule) : Bool :=
  rule.enabled && rule.proto == .tcp && decide (rule.port_start ≤ 22 ∧ 22 ≤ rule.port_end.getD rule.port_start)

/-- `reachable` -/
def Rule.plausiblyReachable (rule : Rule) : Bool :=
  rule.explicitSources.isSome || rule.scope == .«public» || rule.scope == .lanOnly || rule.scope == .vpnOnly

def lockoutCheck (state : State) : Except String Unit :=
  let sshRules := state.rules.filter Rule.isSsh
  if sshRules = [] then .error "no enabled TCP rule covers port 22"
  else if sshRules.any Rule.plausiblyReachable then .ok ()
  else .error "every SSH rule is localhost-only — this would lock out remote access"

structure Options where
  dryRun : Bool
  forceLockoutOk : Bool

structure Outcome where
  ok : Bool
  applied : Bool
  ruleset : Ruleset
  ruleCount : Nat
  rejection : Option String
  /-- What the kernel was given, also where the verification after it failed. -/
  installed : Option Ruleset

/-- What `nft` answers after the ruleset is loaded. -/
structure Verification where
  table : Bool
  ingress : Bool

def reconcile (tools : Tools) (verification : Verification) (peers : List Peer) (options : Options)
    (stored : State) :
    Except String Outcome := do
  let state := resolveVpnSources peers stored
  let ruleset ← render tools.isIPv6 state
  let ruleCount := state.rules.countP (·.enabled)
  match lockoutCheck state, options.forceLockoutOk with
  | .error reason, false => .ok ⟨false, false, ruleset, ruleCount, some reason, none⟩
  | _, _ =>
    if options.dryRun then .ok ⟨true, false, ruleset, ruleCount, none, none⟩
    else if !tools.apply ruleset then .ok ⟨false, false, ruleset, ruleCount, some "nft apply failed", none⟩
    else if !verification.table then .ok ⟨false, false, ruleset, ruleCount, some "verify failed", some ruleset⟩
    else if !verification.ingress then
      .ok ⟨false, false, ruleset, ruleCount,
        some "protected upstream bridge table verification failed", some ruleset⟩
    else .ok ⟨true, true, ruleset, ruleCount, none, some ruleset⟩

end ProxyPilot.Firewall
