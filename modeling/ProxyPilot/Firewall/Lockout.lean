import ProxyPilot.Data.Checks
import ProxyPilot.Firewall.Ruleset

namespace ProxyPilot.Firewall

open Data
open Mock2 (Ipv4 Cidr Verdict)
open Vpn (Peer Ip)
open Rules

/-! # What the lockout guard guards

The guard passes on an enabled TCP rule over port 22 with any source list at all.
Whether the loaded ruleset lets a remote SSH connection in is a matter of what the
sources of the rendered rules hold.
-/

def Address.loopback : Address → Bool
  | .v4 ip => Cidr.contains ⟨⟨127, 0, 0, 0⟩, 8⟩ ip
  | .v6 bits => bits == 1

/-- The address the sentinel stands for. -/
def Address.sentinel : Address := .v4 ⟨255, 255, 255, 255⟩

def Address.Outside (saddr : Address) : Prop := saddr.loopback = false ∧ saddr ≠ .sentinel

structure Packet.RemoteSsh (packet : Packet) (bridge : Bridge) : Prop where
  transport : packet.transport = .tcp
  dport : packet.dport = 22
  new : packet.ct = .new
  notLoopback : packet.iif ≠ "lo"
  notBridge : packet.iif ≠ bridge.iface
  notProject : packet.onInterfaces "m2br" = false

/-- Some remote client can open an SSH connection. -/
def Ruleset.OpensSsh (tools : Tools) (ruleset : Ruleset) : Prop :=
  ∃ packet : Packet, packet.RemoteSsh ruleset.bridge ∧ packet.saddr.Outside ∧ ruleset.verdict tools packet = .accept

variable {packet : Packet} {isIPv6 : String → Bool}

theorem preJumps_silent {bridge : Bridge} (remote : packet.RemoteSsh bridge) :
    firstMatch HookRule.decides (preJumps bridge) packet = none := by
  obtain ⟨transport, dport, new, notLoopback, notBridge, notProject⟩ := remote
  simp [preJumps, HookRule.decides, transport, dport, new, notLoopback, notBridge, notProject]

theorem firstMatch_accept (tools : Tools) (rules : List AllowRule) (packet : Packet) :
    firstMatch (AllowRule.decides tools) rules packet =
      if ∃ rule ∈ rules, rule.accepts tools packet.transport packet.dport packet.saddr = true
        then some .accept else none := by
  induction rules with
  | nil => simp
  | cons rule rest ih =>
    rw [firstMatch_cons, ih]
    by_cases accepted : rule.accepts tools packet.transport packet.dport packet.saddr = true
    · simp [AllowRule.decides, accepted]
    · simp [AllowRule.decides, accepted]

variable {tools : Tools} {ruleset : Ruleset} {peers : List Peer} {rule : Rule} {allow : AllowRule}
  {state : State} {stored : State}

/-- A remote SSH packet is accepted by a rule of the two chains or by none. -/
theorem verdict_remoteSsh (remote : packet.RemoteSsh ruleset.bridge) :
    ruleset.verdict tools packet = .accept ↔
      ∃ rule ∈ ruleset.base_input ++ ruleset.discovered_input, rule.accepts tools .tcp 22 packet.saddr = true := by
  rw [Ruleset.verdict, preJumps_silent remote, Option.none_or, firstMatch_accept, remote.transport, remote.dport]
  split
  case isTrue accepted => simpa using accepted
  case isFalse refused => simpa using refused

/-- A remote client at any address, on an interface that is none of the host's own. -/
def remoteClient (bridge : Bridge) (saddr : Address) : Packet where
  iif := if bridge.iface = "eth0" then "eth1" else "eth0"
  saddr := saddr
  daddr := .v4 ⟨192, 0, 2, 1⟩
  transport := .tcp
  dport := 22
  ct := .new
  withinRate := true

theorem remoteClient_remote (bridge : Bridge) (saddr : Address) : (remoteClient bridge saddr).RemoteSsh bridge := by
  by_cases named : bridge.iface = "eth0"
  · constructor
    case notProject =>
      simp only [remoteClient, named, Packet.onInterfaces]
      simp only [if_true, String.reduceToList]
      rfl
    all_goals simp [remoteClient, named]
  · constructor
    case notProject =>
      simp only [remoteClient, named, Packet.onInterfaces]
      simp only [if_false, String.reduceToList]
      rfl
    case notBridge => simpa [remoteClient, named] using Ne.symm named
    all_goals simp [remoteClient, named]

theorem opensSsh_iff :
    ruleset.OpensSsh tools ↔
      ∃ rule ∈ ruleset.base_input ++ ruleset.discovered_input, ∃ saddr : Address, saddr.Outside ∧
        rule.accepts tools .tcp 22 saddr = true := by
  constructor
  · rintro ⟨packet, remote, outside, accepted⟩
    obtain ⟨rule, member, accepts⟩ := (verdict_remoteSsh remote).mp accepted
    exact ⟨rule, member, packet.saddr, outside, accepts⟩
  · rintro ⟨rule, member, saddr, outside, accepts⟩
    have remote := remoteClient_remote ruleset.bridge saddr
    exact ⟨_, remote, outside, (verdict_remoteSsh remote).mpr ⟨rule, member, accepts⟩⟩

/-- The rendered rule matches port 22. -/
def Rule.coversSsh (rule : Rule) : Bool :=
  rule.enabled && rule.proto == .tcp &&
    match portMatch rule with
    | none => 22 == rule.port_start
    | some last => decide (rule.port_start ≤ 22 ∧ 22 ≤ last)

/-- The rule's sources hold an address from outside: a public or lan-only rule, a vpn-only rule
with an allowed peer, or explicit sources that are not only loopback and sentinel addresses. -/
def Rule.OpenOutside (tools : Tools) (peers : List Peer) (rule : Rule) : Prop :=
  match rule.explicitSources with
  | some cidrs => ∃ text ∈ cidrs, ∃ ip, tools.elementHolds text ip = true ∧ (Address.v4 ip).Outside
  | none =>
    match rule.scope with
    | .«public» | .lanOnly => True
    | .vpnOnly => ∃ peer ∈ peers, peer.status = .enabled ∧ peerAllowed rule.serviceTag peer = true
    | _ => False

theorem readCidr_constants :
    readCidr "10.0.0.0/8" = some ⟨⟨10, 0, 0, 0⟩, 8⟩ ∧ readCidr LOCALHOST_V4 = some ⟨⟨127, 0, 0, 0⟩, 8⟩ ∧
      readCidr NO_ALLOWED_PEERS_SENTINEL = some ⟨⟨255, 255, 255, 255⟩, 32⟩ := by decide +kernel

theorem readOctet_digits (n : Fin 256) : readOctet (Nat.toDigits 10 n.val) = some n := by
  have value : Nat.ofDigitChars 10 (Nat.toDigits 10 n.val) 0 = n.val :=
    Nat.ofDigitChars_toDigits (by decide) (by decide)
  have digits : (Nat.toDigits 10 n.val).all Char.isDigit = true := by
    rw [List.all_eq_true]
    exact fun c member => Nat.isDigit_of_mem_toDigits (by decide) (by decide) member
  simp [readOctet, value, digits]

theorem not_mem_digits {n : Nat} {c : Char} (other : c.isDigit = false) : c ∉ Nat.toDigits 10 n := by
  intro member
  rw [Nat.isDigit_of_mem_toDigits (by decide) (by decide) member] at other
  contradiction

theorem readCidrChars_peers (suffix : Fin 256) :
    readCidrChars (['1', '0', '.', '1', '0', '0', '.', '0', '.'] ++ Nat.toDigits 10 suffix.val ++ ['/', '3', '2']) =
      some ⟨⟨10, 100, 0, suffix⟩, 32⟩ := by
  have host : '/' ∉ ['1', '0', '.', '1', '0', '0', '.', '0', '.'] ++ Nat.toDigits 10 suffix.val := by
    simp [not_mem_digits]
  have parts :
      (['1', '0', '.', '1', '0', '0', '.', '0', '.'] ++ Nat.toDigits 10 suffix.val ++ ['/', '3', '2']).splitOn '/' =
      [['1', '0', '.', '1', '0', '0', '.', '0', '.'] ++ Nat.toDigits 10 suffix.val, ['3', '2']] := by
    rw [List.splitOn_append_cons_self_of_not_mem host]
    rfl
  have octets : (['1', '0', '.', '1', '0', '0', '.', '0', '.'] ++ Nat.toDigits 10 suffix.val).splitOn '.' =
      [['1', '0'], ['1', '0', '0'], ['0'], Nat.toDigits 10 suffix.val] := by
    show (['1', '0'] ++ '.' ::
        (['1', '0', '0'] ++ '.' :: (['0'] ++ '.' :: Nat.toDigits 10 suffix.val))).splitOn '.' = _
    rw [List.splitOn_append_cons_self_of_not_mem (by decide), List.splitOn_append_cons_self_of_not_mem (by decide),
      List.splitOn_append_cons_self_of_not_mem (by decide), List.splitOn_eq_singleton (not_mem_digits (by decide))]
  have constants : readOctet ['1', '0'] = some 10 ∧ readOctet ['1', '0', '0'] = some 100 ∧
      readOctet ['0'] = some 0 ∧
      readOctet ['3', '2'] = some 32 := by decide
  have base :
      readIpv4 (['1', '0', '.', '1', '0', '0', '.', '0', '.'] ++ Nat.toDigits 10 suffix.val) =
      some ⟨10, 100, 0, suffix⟩ := by
    rw [readIpv4, octets]
    simp only [List.map_cons, List.map_nil, constants, readOctet_digits]
  rw [readCidrChars, parts]
  simp only [base, constants]
  rfl

theorem readCidr_peer (ip : Ip) : readCidr (peerCidr ip) = some ⟨⟨10, 100, 0, ⟨ip.suffix, ip.byte⟩⟩, 32⟩ := by
  have letters : (peerCidr ip).toList =
      ['1', '0', '.', '1', '0', '0', '.', '0', '.'] ++ Nat.toDigits 10 ip.suffix ++ ['/', '3', '2'] := by
    have start : Vpn.POOL_PREFIX = ['1', '0', '.', '1', '0', '0', '.', '0'] := by
      unfold Vpn.POOL_PREFIX
      simp
    have ending : "/32".toList = ['/', '3', '2'] := by simp
    simp only [peerCidr, String.toList_append, String.toList_ofList, Ip.text, start, ending]
    rfl
  rw [readCidr, letters]
  exact readCidrChars_peers ⟨ip.suffix, ip.byte⟩

theorem elementHolds_of_readCidr {text : String} {cidr : Cidr} (read : readCidr text = some cidr) (ip : Ipv4) :
    tools.elementHolds text ip = cidr.contains ip := by
  simp [Tools.elementHolds, Tools.readElement, read]

theorem Cidr_contains_self (ip : Ipv4) (len : Nat) : Cidr.contains ⟨ip, len⟩ ip = true := by simp [Cidr.contains]

theorem contains_host {base ip : Ipv4} (inside : Cidr.contains ⟨base, 32⟩ ip = true) : ip = base := by
  obtain ⟨a, b, c, d⟩ := base
  obtain ⟨e, f, g, h⟩ := ip
  simp only [Cidr.contains, Ipv4.toNat, Nat.sub_self, Nat.pow_zero, Nat.div_one, beq_iff_eq] at inside
  simp only [Ipv4.mk.injEq, Fin.ext_iff]
  omega

theorem mem_allowedIps {service : Option String} {ip : Ip} :
    ip ∈ allowedIps peers service ↔
      ∃ peer ∈ peers, peer.status = .enabled ∧ peerAllowed service peer = true ∧ peer.allowed_ip = ip := by
  simp only [allowedIps, List.mem_mergeSort, List.mem_dedup, List.mem_map, List.mem_append,
    List.mem_filter, beq_iff_eq,
    bne_iff_ne]
  constructor
  · rintro ⟨peer, ⟨⟨member, enabled⟩, scope⟩ | ⟨⟨⟨member, enabled⟩, scope⟩, allowed⟩, rfl⟩
    · refine ⟨peer, member, enabled, ?_, rfl⟩
      cases named : peer.scope <;> simp_all [peerAllowed]
    · exact ⟨peer, member, enabled, allowed, rfl⟩
  · rintro ⟨peer, member, enabled, allowed, rfl⟩
    refine ⟨peer, ?_, rfl⟩
    by_cases scope : peer.scope = .services
    · exact Or.inr ⟨⟨⟨member, enabled⟩, scope⟩, allowed⟩
    · exact Or.inl ⟨⟨member, enabled⟩, scope⟩

theorem peerAddress_loopback :
    ∀ suffix : Fin 256, (Address.v4 ⟨10, 100, 0, suffix⟩).loopback = false := by decide +kernel

theorem peerAddress_outside (suffix : Fin 256) : (Address.v4 ⟨10, 100, 0, suffix⟩).Outside :=
  ⟨peerAddress_loopback suffix, by simp [Address.sentinel]⟩

theorem resolveRule_fields (peers : List Peer) (rule : Rule) :
    (resolveRule peers rule).enabled = rule.enabled ∧ (resolveRule peers rule).proto = rule.proto ∧
      (resolveRule peers rule).port_start = rule.port_start ∧ (resolveRule peers rule).port_end = rule.port_end ∧
      (resolveRule peers rule).scope = rule.scope := by
  unfold resolveRule
  split
  · exact ⟨rfl, rfl, rfl, rfl, rfl⟩
  · split <;> exact ⟨rfl, rfl, rfl, rfl, rfl⟩

theorem resolveRule_explicit {cidrs : List String} (explicit : rule.explicitSources = some cidrs) :
    resolveRule peers rule = rule := by
  simp [resolveRule, explicit]

theorem resolveRule_vpnOnly (enabled : rule.enabled = true) (scope : rule.scope = .vpnOnly)
    (plain : rule.explicitSources = none) :
    sourcesFor (resolveRule peers rule) =
      .ok (some (if allowedIps peers rule.serviceTag = [] then [NO_ALLOWED_PEERS_SENTINEL]
        else (allowedIps peers rule.serviceTag).map peerCidr)) := by
  cases allowed : allowedIps peers rule.serviceTag with
  | nil =>
    have resolved : resolveRule peers rule = { rule with source_cidrs := some [NO_ALLOWED_PEERS_SENTINEL] } := by
      simp [resolveRule, enabled, scope, plain, allowed]
    rw [resolved]
    rfl
  | cons first rest =>
    have resolved : resolveRule peers rule = { rule with source_cidrs := some ((first :: rest).map peerCidr) } := by
      simp [resolveRule, enabled, scope, plain, allowed]
    rw [resolved]
    rfl

theorem resolveRule_other (scope : rule.scope ≠ .vpnOnly) : resolveRule peers rule = rule := by
  simp [resolveRule, scope]

/-- The sources of a rendered rule let a remote client in exactly when the rule is open. -/
theorem fromSource_outside (enabled : rule.enabled = true)
    (rendered : renderAllowRule (resolveRule peers rule) = .ok allow) :
    (∃ saddr : Address, saddr.Outside ∧ allow.fromSource tools saddr = true) ↔ rule.OpenOutside tools peers := by
  have someAddress : (Address.v4 ⟨10, 0, 0, 1⟩).Outside := ⟨by decide, by decide⟩
  obtain ⟨sources, sourced, rfl⟩ : ∃ sources, sourcesFor (resolveRule peers rule) = .ok sources ∧
      ⟨sources, (resolveRule peers rule).proto, (resolveRule peers rule).port_start,
        portMatch (resolveRule peers rule),
        comment (resolveRule peers rule)⟩ = allow := map_ok.mp rendered
  have listed (elements : List String) (saddr : Address) :
      AllowRule.fromSource tools ⟨some elements, (resolveRule peers rule).proto,
        (resolveRule peers rule).port_start,
        portMatch (resolveRule peers rule), comment (resolveRule peers rule)⟩ saddr = true ↔
        ∃ ip, saddr = .v4 ip ∧ ∃ text ∈ elements, tools.elementHolds text ip = true := by
    cases saddr <;> simp [AllowRule.fromSource]
  cases explicit : rule.explicitSources with
  | some cidrs =>
    rw [resolveRule_explicit explicit] at sourced
    simp only [sourcesFor, explicit, Except.ok.injEq] at sourced
    subst sourced
    simp only [listed, Rule.OpenOutside, explicit]
    constructor
    · rintro ⟨_, outside, ip, rfl, text, member, holds⟩
      exact ⟨text, member, ip, holds, outside⟩
    · rintro ⟨text, member, ip, holds, outside⟩
      exact ⟨_, outside, ip, rfl, text, member, holds⟩
  | none =>
    cases scope : rule.scope with
    | vpnOnly =>
      rw [resolveRule_vpnOnly enabled scope explicit] at sourced
      cases sourced
      simp only [listed, Rule.OpenOutside, explicit, scope]
      by_cases nobody : allowedIps peers rule.serviceTag = []
      · rw [if_pos nobody]
        constructor
        · rintro ⟨_, outside, ip, rfl, text, member, holds⟩
          rw [List.mem_singleton.mp member, elementHolds_of_readCidr readCidr_constants.2.2] at holds
          exact absurd (congrArg Address.v4 (contains_host holds)) outside.2
        · rintro ⟨peer, member, isEnabled, allowed⟩
          have inside := mem_allowedIps.mpr ⟨peer, member, isEnabled, allowed, rfl⟩
          simp [nobody] at inside
      · rw [if_neg nobody]
        constructor
        · rintro _
          obtain ⟨ip, member⟩ := List.exists_mem_of_ne_nil _ nobody
          obtain ⟨peer, peerMember, isEnabled, allowed, _⟩ := mem_allowedIps.mp member
          exact ⟨peer, peerMember, isEnabled, allowed⟩
        · rintro ⟨peer, member, isEnabled, allowed⟩
          have inside := mem_allowedIps.mpr ⟨peer, member, isEnabled, allowed, rfl⟩
          refine ⟨_, peerAddress_outside ⟨peer.allowed_ip.suffix, peer.allowed_ip.byte⟩, _, rfl, _,
            List.mem_map_of_mem inside, ?_⟩
          rw [elementHolds_of_readCidr (readCidr_peer peer.allowed_ip)]
          exact Cidr_contains_self _ _
    | «public» =>
      rw [resolveRule_other (by simp [scope])] at sourced ⊢
      simp only [sourcesFor, explicit, scope, Except.ok.injEq] at sourced
      subst sourced
      simp only [Rule.OpenOutside, explicit, scope, iff_true]
      exact ⟨_, someAddress, rfl⟩
    | lanOnly =>
      rw [resolveRule_other (by simp [scope])] at sourced listed ⊢
      simp only [sourcesFor, explicit, scope, Except.ok.injEq] at sourced
      subst sourced
      simp only [listed, Rule.OpenOutside, explicit, scope, iff_true]
      refine ⟨_, someAddress, _, rfl, _, List.mem_cons_self, ?_⟩
      rw [elementHolds_of_readCidr readCidr_constants.1]
      decide
    | localhostOnly =>
      rw [resolveRule_other (by simp [scope])] at sourced listed ⊢
      simp only [sourcesFor, explicit, scope, Except.ok.injEq] at sourced
      subst sourced
      simp only [listed, Rule.OpenOutside, explicit, scope, iff_false]
      rintro ⟨_, outside, ip, rfl, text, member, holds⟩
      rw [List.mem_singleton.mp member, elementHolds_of_readCidr readCidr_constants.2.1] at holds
      exact absurd (holds.symm.trans outside.1) (by decide)
    | unknown text =>
      rw [resolveRule_other (by simp [scope])] at sourced
      simp [sourcesFor, explicit, scope] at sourced

theorem accepts_ssh {saddr : Address} :
    allow.accepts tools .tcp 22 saddr = true ↔ allow.proto = .tcp ∧ allow.toPort 22 = true ∧
      allow.fromSource tools saddr = true := by
  cases proto : allow.proto <;> simp [AllowRule.accepts, Proto.transport, proto]

theorem coversSsh_iff (rendered : renderAllowRule rule = .ok allow) :
    rule.coversSsh = true ↔ rule.enabled = true ∧ allow.proto = .tcp ∧ allow.toPort 22 = true := by
  obtain ⟨sources, _, rfl⟩ := map_ok.mp rendered
  cases last : portMatch rule with
  | none => simp [Rule.coversSsh, AllowRule.toPort, last, and_assoc]
  | some stop => simp [Rule.coversSsh, AllowRule.toPort, last, and_assoc]

theorem coversSsh_resolveRule (peers : List Peer) (rule : Rule) :
    (resolveRule peers rule).coversSsh = rule.coversSsh := by
  obtain ⟨enabled, proto, start, last, _⟩ := resolveRule_fields peers rule
  simp [Rule.coversSsh, portMatch, enabled, proto, start, last]

/-- The rule renders to one that lets a remote SSH client in. -/
theorem renderedRule_open (enabled : rule.enabled = true)
    (rendered : renderAllowRule (resolveRule peers rule) = .ok allow) :
    (∃ saddr : Address, saddr.Outside ∧ allow.accepts tools .tcp 22 saddr = true) ↔
      rule.coversSsh = true ∧ rule.OpenOutside tools peers := by
  rw [← fromSource_outside enabled rendered, ← coversSsh_resolveRule peers, coversSsh_iff rendered,
    (resolveRule_fields peers rule).1]
  simp only [accepts_ssh]
  constructor
  · rintro ⟨saddr, outside, proto, port, source⟩
    exact ⟨⟨enabled, proto, port⟩, saddr, outside, source⟩
  · rintro ⟨⟨_, proto, port⟩, saddr, outside, source⟩
    exact ⟨saddr, outside, proto, port, source⟩

theorem render_rules (rendered : render isIPv6 state = .ok ruleset)
    :
    allow ∈ ruleset.base_input ++ ruleset.discovered_input ↔
      ∃ rule ∈ state.rules, rule.enabled = true ∧ renderAllowRule rule = .ok allow := by
  simp only [render, bind_ok] at rendered
  obtain ⟨bridge, _, base, baseRules, discovered, discoveredRules, _, _, _, _, same⟩ := rendered
  cases same
  rw [List.mem_append, mem_mapM_ok baseRules, mem_mapM_ok discoveredRules]
  simp only [State.rules, List.mem_append, List.mem_filter]
  constructor
  · rintro (⟨rule, ⟨member, enabled⟩, gives⟩ | ⟨rule, ⟨member, enabled⟩, gives⟩)
    · exact ⟨rule, Or.inl member, enabled, gives⟩
    · exact ⟨rule, Or.inr member, enabled, gives⟩
  · rintro ⟨rule, member | member, enabled, gives⟩
    · exact Or.inl ⟨rule, ⟨member, enabled⟩, gives⟩
    · exact Or.inr ⟨rule, ⟨member, enabled⟩, gives⟩

theorem render_each (rendered : render isIPv6 state = .ok ruleset)
    (member : rule ∈ state.rules) (enabled : rule.enabled = true) : ∃ allow, renderAllowRule rule = .ok allow := by
  simp only [render, bind_ok] at rendered
  obtain ⟨_, _, _, baseRules, _, discoveredRules, _⟩ := rendered
  rcases List.mem_append.mp member with member | member
  · exact mapM_ok_each baseRules (List.mem_filter.mpr ⟨member, enabled⟩)
  · exact mapM_ok_each discoveredRules (List.mem_filter.mpr ⟨member, enabled⟩)

theorem mem_resolveVpnSources :
    rule ∈ (resolveVpnSources peers state).rules ↔ ∃ stored ∈ state.rules, resolveRule peers stored = rule := by
  simp only [resolveVpnSources, State.rules, ← List.map_append, List.mem_map]

/-- Some enabled TCP rule over port 22 holds a source address from outside. -/
def State.OpenOutside (tools : Tools) (peers : List Peer) (state : State) : Prop :=
  ∃ rule ∈ state.rules, rule.coversSsh = true ∧ rule.OpenOutside tools peers

theorem rendered_opensSsh
    (rendered : render tools.isIPv6 (resolveVpnSources peers stored) = .ok ruleset) :
    ruleset.OpensSsh tools ↔ stored.OpenOutside tools peers := by
  rw [opensSsh_iff]
  constructor
  · rintro ⟨allow, member, opens⟩
    obtain ⟨rule, ruleMember, enabled, gives⟩ := (render_rules rendered).mp member
    obtain ⟨original, originalMember, rfl⟩ := mem_resolveVpnSources.mp ruleMember
    have originalEnabled := (resolveRule_fields peers original).1.symm.trans enabled
    exact ⟨original, originalMember, (renderedRule_open originalEnabled gives).mp opens⟩
  · rintro ⟨original, originalMember, covers, isOpen⟩
    have enabled : original.enabled = true := by
      simp only [Rule.coversSsh, Bool.and_eq_true] at covers
      exact covers.1.1
    have resolvedMember : resolveRule peers original ∈ (resolveVpnSources peers stored).rules :=
      mem_resolveVpnSources.mpr ⟨original, originalMember, rfl⟩
    have resolvedEnabled := (resolveRule_fields peers original).1.trans enabled
    obtain ⟨allow, gives⟩ := render_each rendered resolvedMember resolvedEnabled
    exact ⟨allow, (render_rules rendered).mpr ⟨_, resolvedMember, resolvedEnabled, gives⟩,
      (renderedRule_open enabled gives).mpr ⟨covers, isOpen⟩⟩

/-- What `reconcile` loads is the rendering of the resolved state, and without the force option the
guard has passed. -/
theorem reconcile_installed {verification : Verification} {options : Options}
    {outcome : Outcome} (ran : reconcile tools verification peers options stored = .ok outcome)
    (installed : outcome.installed = some ruleset) :
    render tools.isIPv6 (resolveVpnSources peers stored) = .ok ruleset ∧
      (options.forceLockoutOk = false → lockoutCheck (resolveVpnSources peers stored) = .ok ()) := by
  obtain ⟨rendering, rendered, decided⟩ := bind_ok.mp ran
  dsimp only at decided
  split at decided
  case h_1 =>
    cases decided
    cases installed
  case h_2 checked forced distinct =>
    have passed : options.forceLockoutOk = false → lockoutCheck (resolveVpnSources peers stored) = .ok () := by
      intro unforced
      cases verdict : lockoutCheck (resolveVpnSources peers stored) with
      | ok _ => rfl
      | error reason => exact absurd unforced (distinct reason verdict)
    repeat' split at decided
    all_goals
      cases decided
      first
        | cases installed
          done
        | exact ⟨Option.some.inj installed ▸ rendered, passed⟩

/-- The guard has seen an enabled TCP rule over port 22 that it takes for reachable. -/
theorem guard_passed (passed : lockoutCheck (resolveVpnSources peers stored) = .ok ()) :
    ∃ rule ∈ stored.rules, rule.isSsh = true ∧ rule.plausiblyReachable = true := by
  simp only [lockoutCheck] at passed
  split at passed
  · cases passed
  split at passed
  case isFalse => cases passed
  case isTrue reachable =>
    obtain ⟨rule, member, counted⟩ := List.any_eq_true.mp reachable
    obtain ⟨member, isSsh⟩ := List.mem_filter.mp member
    obtain ⟨original, originalMember, rfl⟩ := mem_resolveVpnSources.mp member
    obtain ⟨enabled, proto, start, last, scope⟩ := resolveRule_fields peers original
    refine ⟨original, originalMember, ?_, ?_⟩
    · simpa only [Rule.isSsh, enabled, proto, start, last] using isSsh
    · by_cases vpnOnly : original.scope = .vpnOnly
      · simp [Rule.plausiblyReachable, vpnOnly]
      · rwa [resolveRule_other vpnOnly] at counted

/-- A ruleset that passed the guard lets a remote SSH client in exactly when some enabled TCP rule
over port 22 holds an address from outside. -/
theorem lockout_guard {tools : Tools} {verification : Verification} {peers : List Peer}
    {options : Options} {stored : State}
    {outcome : Outcome} {ruleset : Ruleset} (unforced : options.forceLockoutOk = false)
    (ran : reconcile tools verification peers options stored = .ok outcome)
    (installed : outcome.installed = some ruleset) :
    (ruleset.OpensSsh tools ↔ stored.OpenOutside tools peers) ∧
      ∃ rule ∈ stored.rules, rule.isSsh = true ∧ rule.plausiblyReachable = true := by
  obtain ⟨rendered, passed⟩ := reconcile_installed ran installed
  exact ⟨rendered_opensSsh rendered, guard_passed (passed unforced)⟩

/-- A host whose `nft` takes every file. -/
def plainTools : Tools := ⟨fun _ => false, fun _ => none, fun _ => true⟩

/-- The run ends with a ruleset in the kernel. -/
def appliesOn (peers : List Peer) (stored : State) : Bool :=
  match reconcile plainTools ⟨true, true⟩ peers ⟨false, false⟩ stored with
  | .ok outcome => outcome.applied && outcome.installed.isSome
  | .error _ => false

theorem applied_of_check (applies : appliesOn peers stored = true) : ∃ outcome ruleset,
    reconcile plainTools ⟨true, true⟩ peers ⟨false, false⟩ stored = .ok outcome ∧ outcome.applied = true ∧
      outcome.installed = some ruleset := by
  unfold appliesOn at applies
  split at applies
  case h_1 outcome ran =>
    obtain ⟨applied, present⟩ := Bool.and_eq_true_iff.mp applies
    obtain ⟨ruleset, installed⟩ := Option.isSome_iff_exists.mp present
    exact ⟨outcome, ruleset, ran, applied, installed⟩
  case h_2 => cases applies

/-- The fresh state after `set-scope base-ssh vpn-only`. -/
def vpnOnlySsh : State :=
  { defaultState 0 with base := (DEFAULT_BASE 0).map fun rule => if rule.id = "base-ssh"
    then { rule with scope := .vpnOnly } else rule }

def operator : Peer := ⟨1, "ops", ⟨[], List.not_mem_nil⟩, ⟨10, Vpn.pool_start_byte⟩, .full, none, .enabled⟩

/-- The run without a peer and the run with one, and the one rule over port 22. -/
theorem example_runs : appliesOn [] vpnOnlySsh = true ∧ appliesOn [operator] vpnOnlySsh = true ∧
    vpnOnlySsh.rules.filter Rule.coversSsh = [vpnOnlySsh.base.head (by decide)] := by decide +kernel

/-- Once the operator has a peer, the ruleset lets it in. -/
theorem lockout_guard_operator : ∃ outcome ruleset,
    reconcile plainTools ⟨true, true⟩ [operator] ⟨false, false⟩ vpnOnlySsh = .ok outcome ∧
      outcome.installed = some ruleset ∧
      ruleset.OpensSsh plainTools := by
  obtain ⟨outcome, ruleset, ran, _, installed⟩ := applied_of_check example_runs.2.1
  refine ⟨outcome, ruleset, ran, installed, (lockout_guard rfl ran installed).1.mpr ?_⟩
  exact ⟨_, List.mem_cons_self, by decide, operator, List.mem_cons_self, rfl, rfl⟩

/-- The only SSH rule is vpn-only, no peer exists, and the ruleset is applied all the same. -/
theorem vpnOnlySsh_applied : ∃ outcome ruleset,
    reconcile plainTools ⟨true, true⟩ [] ⟨false, false⟩ vpnOnlySsh = .ok outcome ∧ outcome.applied = true ∧
      outcome.installed = some ruleset ∧ ¬ ruleset.OpensSsh plainTools := by
  obtain ⟨outcome, ruleset, ran, applied, installed⟩ := applied_of_check example_runs.1
  refine ⟨outcome, ruleset, ran, applied, installed, fun opens => ?_⟩
  obtain ⟨rule, member, covers, isOpen⟩ := (rendered_opensSsh (reconcile_installed ran installed).1).mp opens
  have isSsh : rule = vpnOnlySsh.base.head (by decide) := by
    have inside := List.mem_filter.mpr ⟨member, covers⟩
    rwa [example_runs.2.2, List.mem_singleton] at inside
  subst isSsh
  obtain ⟨peer, nobody, _⟩ : ∃ peer ∈ ([] : List Peer), _ := isOpen
  cases nobody

end ProxyPilot.Firewall
