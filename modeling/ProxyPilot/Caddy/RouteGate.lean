import ProxyPilot.Data.Stable
import ProxyPilot.Firewall.Lockout

namespace ProxyPilot.Caddy

open Data
open Firewall (Rule resolveRule allowedIps peerAllowed peerCidr readOctet not_mem_digits)
open Vpn (Peer Ip)

/-! # Routes behind the VPN (`caddy/render.js`)

The same peers are let through as at the firewall, found by a join of its own.
-/

def NO_ALLOWED_PEERS_SENTINEL : String := "255.255.255.255/32"

structure Route where
  domain : String
  upstreamAddress : String
  pathPrefix : String
  tlsAuto : Bool
  vpnOnly : Bool
  service : Option String

/-- `route.service`, unless it is empty. -/
def Route.serviceTag (route : Route) : Option String := route.service.filter (· != "")

/-- `Set.add` -/
def addCidr (allowed : List String) (cidr : String) : List String :=
  if cidr ∈ allowed then allowed else allowed ++ [cidr]

/-- `Number(cidr.split('/')[0].split('.')[3])` -/
def trailingOctet (cidr : String) : Nat :=
  Nat.ofDigitChars 10 ((((cidr.toList.splitOn '/').headD []).splitOn '.').getD 3 []) 0

def resolveRoutePeers (route : Route) (peers : List Peer) : List String :=
  let fullAdmin := (peers.filter fun p => p.scope == .full || p.scope == .admin).map fun p => peerCidr p.allowed_ip
  let services := (peers.filter (·.scope == .services)).map fun p =>
      (peerCidr p.allowed_ip, p.scope_services.getD [])
  let allowed := fullAdmin.foldl addCidr []
  let allowed := match route.serviceTag with
    | none => allowed
    | some tag =>
      ((services.filter fun sp : String × List String => sp.2.contains tag).map Prod.fst).foldl addCidr allowed
  allowed.mergeSort fun a b => trailingOctet a ≤ trailingOctet b

def matcherIps (route : Route) (peers : List Peer) : List String :=
  let sources := resolveRoutePeers route peers
  if sources.length > 0 then sources else [NO_ALLOWED_PEERS_SENTINEL]

/-- The lines of a site block. -/
def renderRoute (route : Route) (peers : List Peer) : Except String (List String) := do
  require (route.domain != "") "renderRoute: route.domain is required"
  require (route.upstreamAddress != "") "renderRoute: route.upstream_address is required"
  let proxied := if route.pathPrefix ≠ "/" then
      ["handle " ++ route.pathPrefix ++ "* \x7b", "    reverse_proxy " ++ route.upstreamAddress, "\x7d"]
    else ["reverse_proxy " ++ route.upstreamAddress]
  let handlers := if route.vpnOnly then
      ["    @vpn remote_ip " ++ " ".intercalate (matcherIps route peers), "",
        "    handle @vpn \x7b"] ++ proxied.map ("        " ++ ·) ++
        ["    \x7d", "", "    handle \x7b", "        respond 403", "    \x7d"]
    else proxied.map ("    " ++ ·)
  return ["# ProxyPilot Managed Route", "# Generated by ProxyPilot. Do not edit by hand.", "",
      (if route.tlsAuto then route.domain else "http://" ++ route.domain) ++ " \x7b"] ++ handlers ++
    ["", "    header \x7b", "        X-Frame-Options \"SAMEORIGIN\"", "        X-Content-Type-Options \"nosniff\"",
      "        X-XSS-Protection \"1; mode=block\"",
        "        Referrer-Policy \"strict-origin-when-cross-origin\"", "    \x7d", "",
      "    log \x7b", "        output file /var/log/caddy/" ++ route.domain ++ ".log", "    \x7d", "\x7d", ""]

/-- `SELECT ... FROM vpn_peers WHERE status = 'enabled'` -/
def enabledPeers (peers : List Peer) : List Peer := peers.filter (·.status == .enabled)

theorem trailingOctet_peer (ip : Ip) : trailingOctet (peerCidr ip) = ip.suffix := by
  have letters : (peerCidr ip).toList = ['1', '0', '.', '1', '0', '0', '.', '0', '.'] ++
      Nat.toDigits 10 ip.suffix ++ ['/', '3', '2'] := by
    have start : Vpn.POOL_PREFIX = ['1', '0', '.', '1', '0', '0', '.', '0'] := by
      unfold Vpn.POOL_PREFIX
      simp
    have ending : "/32".toList = ['/', '3', '2'] := by simp
    simp only [peerCidr, String.toList_append, String.toList_ofList, Ip.text, start, ending]
    rfl
  have host : '/' ∉ ['1', '0', '.', '1', '0', '0', '.', '0', '.'] ++ Nat.toDigits 10 ip.suffix := by
    simp [not_mem_digits]
  have octets : (['1', '0', '.', '1', '0', '0', '.', '0', '.'] ++ Nat.toDigits 10 ip.suffix).splitOn '.' =
      [['1', '0'], ['1', '0', '0'], ['0'], Nat.toDigits 10 ip.suffix] := by
    show (['1', '0'] ++ '.' ::
        (['1', '0', '0'] ++ '.' :: (['0'] ++ '.' :: Nat.toDigits 10 ip.suffix))).splitOn '.' = _
    rw [List.splitOn_append_cons_self_of_not_mem (by decide), List.splitOn_append_cons_self_of_not_mem (by decide),
      List.splitOn_append_cons_self_of_not_mem (by decide), List.splitOn_eq_singleton (not_mem_digits (by decide))]
  rw [trailingOctet, letters, List.splitOn_append_cons_self_of_not_mem host, List.headD_cons, octets]
  exact Nat.ofDigitChars_toDigits (by decide) (by decide)

theorem peerCidr_injective {left right : Ip} (same : peerCidr left = peerCidr right) : left = right := by
  have octets := congrArg trailingOctet same
  rw [trailingOctet_peer, trailingOctet_peer] at octets
  cases left
  cases right
  cases octets
  rfl

section Cidrs

variable {allowed more : List String} {cidr : String}

theorem mem_addCidr {other : String} : cidr ∈ addCidr allowed other ↔ cidr ∈ allowed ∨ cidr = other := by
  unfold addCidr
  split
  · next known =>
      constructor
      · exact Or.inl
      · rintro (member | rfl)
        · exact member
        · exact known
  · simp

theorem nodup_addCidr {other : String} (once : allowed.Nodup) : (addCidr allowed other).Nodup := by
  unfold addCidr
  split
  · exact once
  · next fresh =>
      refine List.nodup_append.mpr ⟨once, List.nodup_singleton _, fun a member b single => ?_⟩
      rw [List.mem_singleton.mp single]
      rintro rfl
      exact fresh member

theorem mem_foldl_addCidr : cidr ∈ more.foldl addCidr allowed ↔ cidr ∈ allowed ∨ cidr ∈ more := by
  induction more generalizing allowed with
  | nil => simp
  | cons first rest ih => simp [ih, mem_addCidr, or_assoc]

theorem nodup_foldl_addCidr (once : allowed.Nodup) : (more.foldl addCidr allowed).Nodup := by
  induction more generalizing allowed with
  | nil => exact once
  | cons first rest ih => exact ih (nodup_addCidr once)

end Cidrs

section Peers

variable {peers listed : List Peer} {route : Route} {cidr : String}

theorem mem_resolveRoutePeers : cidr ∈ resolveRoutePeers route peers ↔
    ∃ peer ∈ peers, peerAllowed route.serviceTag peer = true ∧ peerCidr peer.allowed_ip = cidr := by
  have always :
      cidr ∈ (peers.filter fun p => p.scope == .full || p.scope == .admin).map (fun p => peerCidr p.allowed_ip) ↔
      ∃ peer ∈ peers, peer.scope ≠ .services ∧ peerCidr peer.allowed_ip = cidr := by
    simp only [List.mem_map, List.mem_filter, and_assoc]
    refine exists_congr fun peer => and_congr_right fun _ => and_congr_left fun _ => ?_
    cases peer.scope <;> simp
  unfold resolveRoutePeers
  simp only [List.mem_mergeSort]
  cases tag : route.serviceTag with
  | none =>
    simp only [mem_foldl_addCidr, List.not_mem_nil, false_or, always]
    refine exists_congr fun peer => and_congr_right fun _ => and_congr_left fun _ => ?_
    cases scope : peer.scope <;> simp [peerAllowed, scope]
  | some tag =>
    simp only [mem_foldl_addCidr, List.not_mem_nil, false_or, always, List.mem_map, List.mem_filter,
      beq_iff_eq, Prod.exists,
      exists_and_right, exists_eq_right]
    constructor
    · rintro (⟨peer, member, scope, same⟩ | ⟨tags, ⟨peer, ⟨member, scope⟩, same⟩, tagged⟩)
      · refine ⟨peer, member, ?_, same⟩
        cases named : peer.scope <;> simp_all [peerAllowed]
      · cases same
        exact ⟨peer, member, by simpa [peerAllowed, scope] using tagged, rfl⟩
    · rintro ⟨peer, member, allowed, rfl⟩
      by_cases scope : peer.scope = .services
      · exact Or.inr ⟨_, ⟨peer, ⟨member, scope⟩, rfl⟩, by simpa [peerAllowed, scope] using allowed⟩
      · exact Or.inl ⟨peer, member, scope, rfl⟩

theorem nodup_resolveRoutePeers : (resolveRoutePeers route peers).Nodup := by
  unfold resolveRoutePeers
  simp only []
  refine (List.mergeSort_perm _ _).nodup_iff.mpr ?_
  split
  · exact nodup_foldl_addCidr List.nodup_nil
  · exact nodup_foldl_addCidr (nodup_foldl_addCidr List.nodup_nil)

theorem sorted_resolveRoutePeers : (resolveRoutePeers route peers).Pairwise fun a b =>
    trailingOctet a ≤ trailingOctet b :=
  sorted_sortBy trailingOctet _

theorem nodup_allowedIps {service : Option String} : ((allowedIps peers service).map peerCidr).Nodup := by
  refine List.Nodup.map (fun _ _ => peerCidr_injective) ?_
  exact (List.mergeSort_perm _ _).nodup_iff.mpr (List.nodup_dedup _)

theorem sorted_allowedIps {service : Option String} :
    ((allowedIps peers service).map peerCidr).Pairwise fun a b => trailingOctet a ≤ trailingOctet b := by
  refine List.pairwise_map.mpr ?_
  simp only [trailingOctet_peer]
  exact sorted_sortBy (fun ip : Ip => ip.suffix) _

/-- The route's list is the firewall's, in whatever order the enabled rows are read. -/
theorem resolveRoutePeers_eq (rows : listed.Perm (enabledPeers peers)) :
    resolveRoutePeers route listed = (allowedIps peers route.serviceTag).map peerCidr := by
  have members : ∀ cidr, cidr ∈ resolveRoutePeers route listed ↔
      cidr ∈ (allowedIps peers route.serviceTag).map peerCidr := by
    intro cidr
    simp only [mem_resolveRoutePeers, rows.mem_iff, enabledPeers, List.mem_filter, beq_iff_eq,
      List.mem_map, Firewall.mem_allowedIps]
    constructor
    · rintro ⟨peer, ⟨member, enabled⟩, allowed, rfl⟩
      exact ⟨_, ⟨peer, member, enabled, allowed, rfl⟩, rfl⟩
    · rintro ⟨_, ⟨peer, member, enabled, allowed, rfl⟩, rfl⟩
      exact ⟨peer, ⟨member, enabled⟩, allowed, rfl⟩
  have same := (List.perm_ext_iff_of_nodup nodup_resolveRoutePeers nodup_allowedIps).mpr members
  refine List.Perm.eq_of_pairwise (fun a b left right below above => ?_) sorted_resolveRoutePeers
    sorted_allowedIps same
  obtain ⟨ip, _, rfl⟩ := List.mem_map.mp ((members a).mp left)
  obtain ⟨ip', _, rfl⟩ := List.mem_map.mp right
  rw [trailingOctet_peer, trailingOctet_peer] at below above
  have octets := Nat.le_antisymm below above
  cases ip
  cases ip'
  cases octets
  rfl

end Peers

/-- The peer is let through by its scope. -/
def Admits (service : Option String) (peer : Peer) : Prop :=
  peer.status = .enabled ∧ (peer.scope = .full ∨ peer.scope = .admin ∨
    (peer.scope = .services ∧ ∃ tag, service = some tag ∧ tag ≠ "" ∧ tag ∈ peer.scope_services.getD []))

theorem admits_iff {route : Route} {peer : Peer} :
    Admits route.service peer ↔ peer.status = .enabled ∧ peerAllowed route.serviceTag peer = true := by
  unfold Admits Route.serviceTag
  refine and_congr_right fun _ => ?_
  cases scope : peer.scope with
  | full => simp [peerAllowed, scope]
  | admin => simp [peerAllowed, scope]
  | services =>
    cases route.service with
    | none => simp [peerAllowed, scope]
    | some tag =>
      by_cases empty : tag = ""
      · simp [peerAllowed, scope, empty]
      · simp [peerAllowed, scope, empty]

/-- The matcher of a gated site lists the sources. -/
theorem renderRoute_matcher (gated : route.vpnOnly = true) (rendered : renderRoute route peers = .ok lines) :
    "    @vpn remote_ip " ++ " ".intercalate (matcherIps route peers) ∈ lines := by
  unfold renderRoute at rendered
  obtain ⟨_, _, rendered⟩ := bind_ok.mp rendered
  obtain ⟨_, _, rendered⟩ := bind_ok.mp rendered
  cases rendered
  simp [gated]

/-- An enabled `vpn-only` rule without explicit sources and a route with the same tag admit the
same addresses in the same order: those of the peers whose scope lets them through. -/
theorem vpn_gates_agree (peers listed : List Peer) (rule : Rule) (route : Route)
    (enabled : rule.enabled = true) (scope : rule.scope = .vpnOnly)
    (plain : rule.explicitSources = none) (tagged : rule.service = route.service)
    (rows : listed.Perm (enabledPeers peers)) :
    (resolveRule peers rule).source_cidrs = some (matcherIps route listed) ∧
      (∀ cidr, cidr ∈ resolveRoutePeers route listed ↔ ∃ peer ∈ peers, Admits rule.service peer ∧
        peerCidr peer.allowed_ip = cidr) ∧
      ((peers.map (·.allowed_ip)).Nodup →
        ∀ peer ∈ peers, peerCidr peer.allowed_ip ∈ resolveRoutePeers route listed ↔ Admits rule.service peer) ∧
      ∀ lines, route.vpnOnly = true → renderRoute route listed = .ok lines →
        ∃ sources, (resolveRule peers rule).source_cidrs = some sources ∧
          "    @vpn remote_ip " ++ " ".intercalate sources ∈ lines := by
  have tags : rule.serviceTag = route.serviceTag := by rw [Rule.serviceTag, Route.serviceTag, tagged]
  have found : resolveRoutePeers route listed = _ := resolveRoutePeers_eq rows
  have members : ∀ cidr, cidr ∈ resolveRoutePeers route listed ↔
      ∃ peer ∈ peers, Admits rule.service peer ∧ peerCidr peer.allowed_ip = cidr := by
    intro cidr
    simp only [mem_resolveRoutePeers, rows.mem_iff, enabledPeers, List.mem_filter, beq_iff_eq,
      tagged, admits_iff, and_assoc]
  have agree : (resolveRule peers rule).source_cidrs = some (matcherIps route listed) := by
    rw [matcherIps]
    cases allowed : allowedIps peers rule.serviceTag with
    | nil =>
      simp [resolveRule, enabled, scope, plain, allowed, found, ← tags, NO_ALLOWED_PEERS_SENTINEL,
        Firewall.NO_ALLOWED_PEERS_SENTINEL]
    | cons first rest => simp [resolveRule, enabled, scope, plain, allowed, found, ← tags]
  refine ⟨agree, members, fun unique peer member => ?_, fun lines gated rendered => ?_⟩
  · rw [members]
    constructor
    · rintro ⟨other, inside, admitted, same⟩
      rwa [← List.inj_on_of_nodup_map unique inside member (peerCidr_injective same)]
    · exact fun admitted => ⟨peer, member, admitted, rfl⟩
  · exact ⟨_, agree, renderRoute_matcher gated rendered⟩

def anna : Peer :=
  ⟨1, "anna", ⟨[], List.not_mem_nil⟩, ⟨10, Vpn.pool_start_byte⟩, .services, some ["shop"], .enabled⟩

private theorem bytes : 11 < 256 ∧ 12 < 256 ∧ 13 < 256 := by decide

def bea : Peer := ⟨2, "bea", ⟨[], List.not_mem_nil⟩, ⟨12, bytes.2.1⟩, .full, none, .enabled⟩

def carl : Peer := ⟨3, "carl", ⟨[], List.not_mem_nil⟩, ⟨11, bytes.1⟩, .services, some ["wiki"], .enabled⟩

def dora : Peer := ⟨4, "dora", ⟨[], List.not_mem_nil⟩, ⟨13, bytes.2.2⟩, .admin, none, .disabled⟩

def shopRule : Rule := ⟨"shop", .manual, none, 443, none, .tcp, .vpnOnly, none, true, none, some "shop", 0⟩

def shopRoute : Route := ⟨"shop.example", "10.0.0.2:80", "/", true, true, some "shop"⟩

/-- The tag lets anna through beside bea; carl has another tag and dora is disabled. -/
theorem vpn_gates_agree_shop :
    (resolveRule [anna, bea, carl, dora] shopRule).source_cidrs = some (matcherIps shopRoute [carl, bea, anna]) ∧
      (∀ peer ∈ [anna, bea, carl, dora],
        peerCidr peer.allowed_ip ∈ resolveRoutePeers shopRoute [carl, bea, anna] ↔ peer = anna ∨ peer = bea) ∧
      ∃ lines sources, renderRoute shopRoute [carl, bea, anna] = .ok lines ∧
        (resolveRule [anna, bea, carl, dora] shopRule).source_cidrs = some sources ∧
        "    @vpn remote_ip " ++ " ".intercalate sources ∈ lines := by
  have rows : List.Perm [carl, bea, anna] (enabledPeers [anna, bea, carl, dora]) :=
    (List.reverse_perm [anna, bea, carl])
  obtain ⟨same, _, each, shown⟩ :=
    vpn_gates_agree [anna, bea, carl, dora] [carl, bea, anna] shopRule shopRoute rfl rfl rfl rfl rows
  have admitted : ∀ peer ∈ [anna, bea, carl, dora], Admits shopRule.service peer ↔ peer = anna ∨ peer = bea := by
    simp [Admits, shopRule, anna, bea, carl, dora]
  obtain ⟨sources, listed, line⟩ := shown _ rfl rfl
  exact ⟨same, fun peer member => (each (by decide) peer member).trans (admitted peer member), _,
    sources, rfl, listed, line⟩

end ProxyPilot.Caddy
