import Mathlib.Algebra.GroupWithZero.Nat
import Mathlib.Tactic.DeriveFintype
import ProxyPilot.Data.Text
import ProxyPilot.Rules.FirstMatch

namespace ProxyPilot.Mock2

/-! # The project fence (`mock2/network-logic.js`, `mock2/egress-logic.js`)

Addresses, subnets and packets, and the rule forms `renderMock2Nft` emits.  A
rule is kept as its list of conditions and its statement, so that the same
object can be printed as a ruleset line and evaluated on a packet.
-/

-- Every octet below rests on this one fact.
instance octets : NeZero 256 := ⟨by decide⟩

/-- An IPv4 address in dotted-quad form. -/
structure Ipv4 where
  o1 : Fin 256
  o2 : Fin 256
  o3 : Fin 256
  o4 : Fin 256
deriving DecidableEq

namespace Ipv4

def toNat (ip : Ipv4) : Nat :=
  ip.o1.val * 16777216 + ip.o2.val * 65536 + ip.o3.val * 256 + ip.o4.val

def render (ip : Ipv4) : String := s!"{ip.o1.val}.{ip.o2.val}.{ip.o3.val}.{ip.o4.val}"

end Ipv4

structure Cidr where
  base : Ipv4
  len : Nat
deriving DecidableEq

namespace Cidr

def contains (cidr : Cidr) (ip : Ipv4) : Bool :=
  ip.toNat / 2 ^ (32 - cidr.len) == cidr.base.toNat / 2 ^ (32 - cidr.len)

def render (cidr : Cidr) : String := s!"{cidr.base.render}/{cidr.len}"

end Cidr

inductive Proto where
  | tcp
  | udp
  | other
deriving DecidableEq

def Proto.render : Proto → String
  | .tcp => "tcp"
  | .udp => "udp"
  | .other => "ip"

/-- Connection-tracking state of a packet. -/
inductive CtState where
  | new
  | established
  | related
  | invalid
deriving DecidableEq

def CtState.render : CtState → String
  | .new => "new"
  | .established => "established"
  | .related => "related"
  | .invalid => "invalid"

structure Packet where
  saddr : Ipv4
  daddr : Ipv4
  proto : Proto
  dport : Nat
  ct : CtState
deriving DecidableEq

inductive Verdict where
  | accept
  | drop
  | reject
deriving DecidableEq

inductive Condition where
  | saddr (cidr : Cidr)
  | daddr (ip : Ipv4)
  | daddrIn (ranges : List Cidr)
  | dport (proto : Proto) (port : Nat)
  | ctState (states : List CtState)
deriving DecidableEq

def Condition.holds (packet : Packet) : Condition → Bool
  | .saddr cidr => cidr.contains packet.saddr
  | .daddr ip => packet.daddr == ip
  | .daddrIn ranges => ranges.any (·.contains packet.daddr)
  | .dport proto port => packet.proto == proto && packet.dport == port
  | .ctState states => states.contains packet.ct

def Condition.render : Condition → String
  | .saddr cidr => s!"ip saddr {cidr.render}"
  | .daddr ip => s!"ip daddr {ip.render}"
  | .daddrIn ranges => "ip daddr \x7b " ++ ", ".intercalate (ranges.map Cidr.render) ++ " \x7d"
  | .dport proto port => s!"{proto.render} dport {port}"
  | .ctState states => "ct state " ++ ",".intercalate (states.map CtState.render)

inductive Statement where
  | accept
  | drop
  | reject
  | log (stamp : String)
deriving DecidableEq

/-- The verdict a statement ends evaluation with.  Logging does not end it. -/
def Statement.verdict : Statement → Option Verdict
  | .accept => some .accept
  | .drop => some .drop
  | .reject => some .reject
  | .log _ => none

def Statement.render : Statement → String
  | .accept => "accept"
  | .drop => "drop"
  | .reject => "reject with icmpx type admin-prohibited"
  | .log stamp => s!"log prefix \"{stamp}\""

structure NftRule where
  conditions : List Condition
  statement : Statement
  comment : Option String := none
deriving DecidableEq

namespace NftRule

def render (rule : NftRule) : String :=
  "    " ++ " ".intercalate (rule.conditions.map Condition.render ++ [rule.statement.render] ++
    (rule.comment.map fun text => s!"comment \"{text}\"").toList)

def decides (rule : NftRule) (packet : Packet) : Option Verdict :=
  if rule.conditions.all (·.holds packet) then rule.statement.verdict else none

end NftRule

def egressLogPrefixGrant : String := "mock2-egress-grant"

/-- The kernel-log stamp of one project's connections. -/
def logStamp (label : String) (projectId : Nat) : String := s!"{label} p{projectId}: "

/-- An approved grant as `attachApprovedEgress` wires it onto a project. -/
structure EgressGrant where
  host : String
  ip : Option String
  port : Nat
  protocol : String
deriving DecidableEq

private def trim (text : String) : String := String.ofList (Data.trim text.toList)

private def toLowerCase (text : String) : String := String.ofList (text.toList.map Char.toLower)

def protocols : List (String × Proto) :=
  [("tcp", .tcp), ("udp", .udp), ("tls", .tcp), ("ldaps", .tcp), ("https", .tcp), ("ldap", .tcp),
    ("http", .tcp)]

private def protocolNamed (name : String) : Option Proto :=
  match protocols.find? (·.1 == name) with
  | some entry => some entry.2
  | none => if name = "" then some .tcp else none

def normalizeProtocol (protocol : String) : Option Proto :=
  protocolNamed (toLowerCase (trim (if protocol = "" then "tcp" else protocol)))

private theorem protocolNamed_transport {name : String} {proto : Proto}
    (named : protocolNamed name = some proto) : proto ≠ .other := by
  unfold protocolNamed at named
  cases found : protocols.find? (·.1 == name) with
  | some entry =>
    have transports : ∀ entry ∈ protocols, entry.2 ≠ .other := by decide
    simp only [found, Option.some.injEq] at named
    exact named ▸ transports entry (List.mem_of_find?_eq_some found)
  | none =>
    simp only [found, Option.ite_none_right_eq_some, Option.some.injEq] at named
    exact named.2 ▸ Proto.noConfusion

private def parseOctet (digits : List Char) : Option (Fin 256) :=
  if 1 ≤ digits.length ∧ digits.length ≤ 3 ∧ digits.all Char.isDigit then
    let value := digits.foldl (fun total digit => total * 10 + (digit.toNat - '0'.toNat)) 0
    if bound : value < 256 then some ⟨value, bound⟩ else none
  else none

/-- The address a text names, for exactly the texts `isIpv4` accepts. -/
def parseIpv4 (host : String) : Option Ipv4 :=
  match ((trim host).toList.splitOn '.').map parseOctet with
  | [some o1, some o2, some o3, some o4] => some ⟨o1, o2, o3, o4⟩
  | _ => none

def isIpv4 (host : String) : Bool := (parseIpv4 host).isSome

def isEgressPort (port : Nat) : Bool := 1 ≤ port && port ≤ 65535

/-- What a grant opens: destination address, transport protocol and port. -/
structure GrantTarget where
  ip : Ipv4
  proto : Proto
  port : Nat
deriving DecidableEq

/-- A grant without a usable address, protocol or port opens nothing. -/
def EgressGrant.target (grant : EgressGrant) : Option GrantTarget :=
  let ip := match grant.ip with
    | some text => if text = "" then (if isIpv4 grant.host then grant.host else "") else text
    | none => if isIpv4 grant.host then grant.host else ""
  (parseIpv4 ip).bind fun ip =>
    (normalizeProtocol grant.protocol).bind fun proto =>
      if isEgressPort grant.port then some ⟨ip, proto, grant.port⟩ else none

theorem EgressGrant.target_transport {grant : EgressGrant} {target : GrantTarget}
    (opened : grant.target = some target) : target.proto ≠ .other := by
  simp only [EgressGrant.target, Option.bind_eq_some_iff, Option.ite_none_right_eq_some,
    Option.some.injEq] at opened
  obtain ⟨ip, _, proto, normalized, _, same⟩ := opened
  rw [← same]
  exact protocolNamed_transport normalized

def grantConditions (cidr : Cidr) (target : GrantTarget) : List Condition :=
  [.saddr cidr, .daddr target.ip, .dport target.proto target.port]

def grantRules (cidr : Cidr) (projectId : Nat) (target : GrantTarget) : List NftRule :=
  [{ conditions := grantConditions cidr target ++ [.ctState [.new]]
     statement := .log (logStamp egressLogPrefixGrant projectId)
     comment := some s!"mock2 p{projectId} egress-grant-log" },
   { conditions := grantConditions cidr target
     statement := .accept
     comment := some s!"mock2 p{projectId} egress-grant" }]

def renderEgressGrantRules (cidr : Cidr) (projectId : Nat) (grants : List EgressGrant) :
    List NftRule :=
  (grants.filterMap EgressGrant.target).flatMap (grantRules cidr projectId)

/-- The packet goes to an address, protocol and port the target names. -/
def GrantTarget.covers (target : GrantTarget) (packet : Packet) : Bool :=
  packet.daddr == target.ip && packet.proto == target.proto && packet.dport == target.port

/-- Some grant of the list covers the packet's destination. -/
def grantsCover (grants : List EgressGrant) (packet : Packet) : Bool :=
  (grants.filterMap EgressGrant.target).any (·.covers packet)

theorem grantRules_decide (cidr : Cidr) (projectId : Nat) (target : GrantTarget) (packet : Packet) :
    Rules.firstMatch NftRule.decides (grantRules cidr projectId target) packet =
      if cidr.contains packet.saddr && target.covers packet then some .accept else none := by
  cases source : cidr.contains packet.saddr <;>
    simp [grantRules, grantConditions, NftRule.decides, Condition.holds, Statement.verdict,
      GrantTarget.covers, source, and_assoc]

private theorem targetRules_decide (cidr : Cidr) (projectId : Nat) (targets : List GrantTarget)
    (packet : Packet) :
    Rules.firstMatch NftRule.decides (targets.flatMap (grantRules cidr projectId)) packet =
      if cidr.contains packet.saddr && targets.any (·.covers packet) then some .accept else none := by
  induction targets with
  | nil => simp
  | cons target rest ih =>
    rw [List.flatMap_cons, Rules.firstMatch_append, grantRules_decide, ih, List.any_cons]
    cases cidr.contains packet.saddr <;> cases target.covers packet <;> simp

/-- The grant rules accept exactly the packets of the subnet that some grant covers. -/
theorem renderEgressGrantRules_decide (cidr : Cidr) (projectId : Nat) (grants : List EgressGrant)
    (packet : Packet) :
    Rules.firstMatch NftRule.decides (renderEgressGrantRules cidr projectId grants) packet =
      if cidr.contains packet.saddr && grantsCover grants packet then some .accept else none :=
  targetRules_decide cidr projectId _ packet

example : (EgressGrant.target ⟨"ldap.example.org", some "10.0.0.5", 636, "LDAPS"⟩) =
    some ⟨⟨10, 0, 0, 5⟩, .tcp, 636⟩ := by decide

def privateDestRanges : List Cidr :=
  [⟨⟨10, 0, 0, 0⟩, 8⟩, ⟨⟨172, 16, 0, 0⟩, 12⟩, ⟨⟨192, 168, 0, 0⟩, 16⟩, ⟨⟨169, 254, 0, 0⟩, 16⟩]

def egressLogPrefixOk : String := "mock2-egress-ok"

def egressLogPrefixDeny : String := "mock2-egress-deny"

/-- The /24 of a project, a function of its id that wraps after 14336 ids. -/
def bridgeCidrForProject (id : Nat) : Cidr where
  base := ⟨10, ⟨200 + (id - 1) / 256 % 56, by omega⟩, ⟨(id - 1) % 256, by omega⟩, 0⟩
  len := 24

def gatewayForCidr (cidr : Cidr) : Ipv4 := { cidr.base with o4 := 1 }

inductive Lifecycle where
  | provisioning
  | active
  | stopped
  | archived
  | failedProvisioning
deriving DecidableEq

/-- The columns of `mock2_projects` the fence reads, with the attached grants. -/
structure Project where
  id : Nat
  lifecycle : Lifecycle
  bridgeCidr : Option Cidr
  containerIp : Option Ipv4
  webPort : Option Nat
  egress : List EgressGrant
deriving DecidableEq

def isFencedProject (project : Project) : Bool :=
  project.lifecycle == .active || (project.lifecycle == .archived && project.containerIp.isSome)

structure FenceEntry where
  id : Nat
  cidr : Cidr
  gateway : Ipv4
  containerIp : Ipv4
  webPort : Nat
  egress : List EgressGrant
deriving DecidableEq

def Project.cidr (project : Project) : Option Cidr :=
  project.bridgeCidr.or (if project.id = 0 then none else some (bridgeCidrForProject project.id))

def fenceEntry (project : Project) : Option FenceEntry :=
  if isFencedProject project then
    match project.cidr, project.containerIp, project.webPort with
    | some cidr, some containerIp, some webPort =>
      if webPort = 0 then none
      else some { id := project.id, cidr, gateway := gatewayForCidr cidr, containerIp, webPort
                  egress := project.egress }
    | _, _, _ => none
  else none

def buildFenceEntries (projects : List Project) : List FenceEntry := projects.filterMap fenceEntry

def FenceEntry.tag (entry : FenceEntry) (what : String) : Option String :=
  some s!"mock2 p{entry.id} {what}"

/-- Inbound to the container: only the declared web port. -/
def FenceEntry.inboundRules (entry : FenceEntry) : List NftRule :=
  [{ conditions := [.daddr entry.containerIp, .dport .tcp entry.webPort]
     statement := .accept, comment := entry.tag "web" },
   { conditions := [.daddr entry.containerIp]
     statement := .drop, comment := entry.tag "deny-inbound" }]

/-- Egress: block and log lateral movement, then log and allow the rest. -/
def FenceEntry.egressRules (entry : FenceEntry) : List NftRule :=
  [{ conditions := [.saddr entry.cidr, .daddrIn privateDestRanges, .ctState [.new]]
     statement := .log (logStamp egressLogPrefixDeny entry.id)
     comment := entry.tag "deny-private-log" },
   { conditions := [.saddr entry.cidr, .daddrIn privateDestRanges]
     statement := .reject, comment := entry.tag "deny-private" },
   { conditions := [.saddr entry.cidr, .ctState [.new]]
     statement := .log (logStamp egressLogPrefixOk entry.id), comment := entry.tag "egress-log" },
   { conditions := [.saddr entry.cidr]
     statement := .accept, comment := entry.tag "egress" }]

/-- The forward-chain rules of one project, in the order they are pushed. -/
def FenceEntry.forwardRules (entry : FenceEntry) : List NftRule :=
  entry.inboundRules ++ renderEgressGrantRules entry.cidr entry.id entry.egress ++ entry.egressRules

/-- The input-chain rules of one project. -/
def FenceEntry.inputRules (entry : FenceEntry) : List NftRule :=
  [{ conditions := [.saddr entry.cidr, .daddr entry.gateway, .dport .udp 53]
     statement := .accept, comment := entry.tag "dns" },
   { conditions := [.saddr entry.cidr, .daddr entry.gateway, .dport .tcp 53]
     statement := .accept, comment := entry.tag "dns" },
   { conditions := [.saddr entry.cidr, .daddr entry.gateway, .dport .udp 67]
     statement := .accept, comment := entry.tag "dhcp" },
   { conditions := [.saddr entry.cidr]
     statement := .drop, comment := entry.tag "deny-host" }]

def forwardChain (entries : List FenceEntry) : List NftRule :=
  [{ conditions := [.ctState [.established, .related]], statement := .accept },
   { conditions := [.ctState [.invalid]], statement := .drop }] ++
  entries.flatMap FenceEntry.forwardRules

def inputChain (entries : List FenceEntry) : List NftRule :=
  { conditions := [.ctState [.established, .related]], statement := .accept } ::
  entries.flatMap FenceEntry.inputRules

private def chainText (hook : String) (rules : List NftRule) (idle : Bool) : String :=
  s!"  chain {hook} \x7b\n    type filter hook {hook} priority -10; policy accept;\n" ++
  "\n".intercalate (rules.map NftRule.render ++
    if idle then ["    # (no active project bridges)"] else []) ++ "\n  \x7d\n"

/-- The ruleset text handed to `nft -f -`. -/
def renderMock2Nft (entries : List FenceEntry) : String :=
  "# Generated by ProxyPilot Mock2 (Phase M4, ADR-010). Do not edit by hand.\n" ++
  "# A dedicated table so the CLI firewall's `flush table inet proxypilot` can\n" ++
  "# never clobber it, and so a disabled host has no Mock2 nftables state at all.\n" ++
  "add table inet mock2\nflush table inet mock2\n\ntable inet mock2 \x7b\n" ++
  chainText "forward" (forwardChain entries) entries.isEmpty ++ "\n" ++
  chainText "input" (inputChain entries) entries.isEmpty ++ "\x7d\n"

/-- The verdict of the emitted forward chain, whose policy is accept. -/
def forwardVerdict (entries : List FenceEntry) (packet : Packet) : Verdict :=
  Rules.evaluate NftRule.decides .accept (forwardChain entries) packet

end ProxyPilot.Mock2
