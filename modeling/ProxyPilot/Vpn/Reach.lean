import ProxyPilot.Firewall.Ruleset
import ProxyPilot.Vpn.Integrity

namespace ProxyPilot.Vpn

open Data

/-! # Who still reaches the host

An untagged `vpn-only` rule is open to the enabled full and admin peers.  Three operations
can take the last of them away: the rule is then closed, however many services peers are
left.
-/

/-- An operation that can cut a peer off, called without force. -/
inductive Withdrawal where
  | disablePeer (name : String)
  | removePeer (name : String)
  | setPeerScope (request : AddRequest)

def Withdrawal.perform : Withdrawal → Host → State → Except PeerError Peer × State
  | .disablePeer name => Vpn.disablePeer name false
  | .removePeer name => Vpn.removePeer name false
  | .setPeerScope request => Vpn.setPeerScope request false

def Peer.admits (peer : Peer) : Bool := peer.status == .enabled && peer.scope != .services

def Db.AdminReach (db : Db) : Prop := ∃ peer ∈ db.peers.rows, peer.admits = true

/-- A rule that only the full and admin peers open. -/
def forAdmins (rule : Firewall.Rule) : Bool :=
  rule.enabled && rule.scope == .vpnOnly && rule.serviceTag.isNone && rule.explicitSources.isNone

def Closed (db : Db) (rule : Firewall.Rule) : Prop :=
  (Firewall.resolveRule db.peers.rows rule).source_cidrs = some [Firewall.NO_ALLOWED_PEERS_SENTINEL]

/-- No other enabled peer is full or admin. -/
def SoleAdmin (db : Db) (peer : Peer) : Prop := peer.admits = true ∧ otherFullAdmin db peer = 0

/-- The operation does not disable or remove the only enabled full or admin peer. -/
def Withdrawal.Spares (db : Db) : Withdrawal → Prop
  | .disablePeer name | .removePeer name => ∀ peer, db.readPeerByName name = some peer → ¬SoleAdmin db peer
  | .setPeerScope _ => True

theorem peerCidr_ne_sentinel (ip : Ip) : Firewall.peerCidr ip ≠ Firewall.NO_ALLOWED_PEERS_SENTINEL := by
  intro same
  have front : (Firewall.peerCidr ip).toList.head? = some '1' := by
    rw [Firewall.peerCidr, String.toList_append, String.toList_ofList]
    rfl
  rw [same] at front
  exact absurd front (by decide)

variable {db : Db} {peer : Peer} {state next : State} {host : Host}

/-- A rule without a tag is open to nobody but the full and admin peers. -/
theorem allowedIps_untagged : Firewall.allowedIps db.peers.rows none = [] ↔ ¬db.AdminReach := by
  constructor
  · rintro empty ⟨peer, member, admits⟩
    have listed : peer.allowed_ip ∈ Firewall.allowedIps db.peers.rows none := by
      simp only [Peer.admits, Bool.and_eq_true] at admits
      simp only [Firewall.allowedIps, List.mem_mergeSort, List.mem_dedup, List.mem_map,
        List.mem_append, List.mem_filter]
      exact ⟨peer, Or.inl ⟨⟨member, admits.1⟩, admits.2⟩, rfl⟩
    rw [empty] at listed
    cases listed
  · intro nobody
    apply List.eq_nil_iff_forall_not_mem.mpr
    intro ip listed
    simp only [Firewall.allowedIps, List.mem_mergeSort, List.mem_dedup, List.mem_map,
      List.mem_append, List.mem_filter] at listed
    obtain ⟨peer, ⟨⟨member, enabled⟩, scope⟩ | ⟨⟨⟨member, enabled⟩, scope⟩, allowed⟩, _⟩ := listed
    · exact nobody ⟨peer, member, by simp only [Peer.admits, enabled, scope, Bool.and_self]⟩
    · have services : peer.scope = .services := by simpa using scope
      simp [Firewall.peerAllowed, services] at allowed

variable {rule : Firewall.Rule} {name : String} {request : AddRequest}

theorem closed_iff (plain : forAdmins rule = true) : Closed db rule ↔ ¬db.AdminReach := by
  simp only [forAdmins, Bool.and_eq_true, beq_iff_eq, Option.isNone_iff_eq_none] at plain
  obtain ⟨⟨⟨enabled, scope⟩, untagged⟩, unsourced⟩ := plain
  rw [← allowedIps_untagged]
  cases allowed : Firewall.allowedIps db.peers.rows none with
  | nil => simp [Closed, Firewall.resolveRule, enabled, scope, untagged, unsourced, allowed]
  | cons first rest =>
    simp [Closed, Firewall.resolveRule, enabled, scope, untagged, unsourced, allowed, peerCidr_ne_sentinel]

theorem otherFullAdmin_eq_zero :
    otherFullAdmin db peer = 0 ↔ ∀ other ∈ db.peers.rows, other.admits = true → other.id = peer.id := by
  simp only [otherFullAdmin, List.countP_eq_zero, Peer.admits]
  constructor
  · intro none other member admits
    have absent := none other member
    simp only [Bool.and_eq_true, bne_iff_ne, ne_eq] at absent admits
    by_contra different
    exact absent ⟨⟨admits.1, different⟩, admits.2⟩
  · intro one other member counted
    simp only [Bool.and_eq_true, bne_iff_ne, ne_eq] at counted one
    exact counted.1.2 (one other member ⟨counted.1.1, counted.2⟩)

/-- Once `peer` admits nobody, what is left of the administrators are the others. -/
theorem adminReach_without (db after : Db) (peer : Peer)
    (left : ∀ other, other.admits = true →
    (other ∈ after.peers.rows ↔ other ∈ db.peers.rows ∧ other.id ≠ peer.id)) :
    after.AdminReach ↔ otherFullAdmin db peer ≠ 0 := by
  rw [ne_eq, otherFullAdmin_eq_zero]
  constructor
  · rintro ⟨other, member, admits⟩ one
    obtain ⟨before, different⟩ := (left other admits).mp member
    exact different (one other before admits)
  · intro several
    simp only [not_forall] at several
    obtain ⟨other, member, admits, different⟩ := several
    exact ⟨other, (left other admits).mpr ⟨member, different⟩, admits⟩

theorem mem_disabled {peer other : Peer} (admits : other.admits = true) :
    other ∈ (updatePeer db peer.id (·.setStatus .disabled) fun _ => rfl).peers.rows ↔
      other ∈ db.peers.rows ∧ other.id ≠ peer.id := by
  refine mem_updatePeer.trans ⟨?_, ?_⟩
  · rintro ⟨old, member, rfl⟩
    split at admits
    · simp [Peer.admits, Peer.setStatus] at admits
    · next different => simpa [different] using member
  · rintro ⟨member, different⟩
    exact ⟨other, member, by rw [if_neg different]⟩

theorem mem_removed {peer other : Peer} : other ∈ (db.peers.erase peer.id).rows ↔
    other ∈ db.peers.rows ∧ other.id ≠ peer.id := by
  simp [Table.erase, Keyed.key]

theorem commit_ok {α : Type} {change : Db → Except PeerError (Db × α)}
    {later : State → Except PeerError Unit × State}
    {result : α} (quiet : ∀ next, (later next).2.db = next.db)
    (done : commit change later state = (.ok result, next)) :
    change state.db = .ok (next.db, result) := by
  cases changed : change state.db with
  | error reason => simp [commit, changed] at done
  | ok outcome =>
    obtain ⟨db, given⟩ := outcome
    have after := commit_changed quiet changed
    rw [done] at after
    have same : given = result := by
      cases published : (later { state with db := db }).1 <;> simp [commit, changed, published, Except.map] at done
      exact done.1
    rw [same, ← after]

theorem disablePeer_ok
    (done : disablePeer name false host state = (.ok peer, next)) :
    state.db.readPeerByName name = some peer ∧
      ((peer.status = .disabled ∧ next.db = state.db) ∨
        (state.db.countEnabledPeers ≠ 1 ∧
          next.db = updatePeer state.db peer.id (·.setStatus .disabled) fun _ => rfl)) := by
  unfold disablePeer at done
  split at done
  · cases done
  · next found read =>
      obtain ⟨_, _, named⟩ := bind_ok.mp read
      split at done
      · next already =>
          cases done
          exact ⟨demand_ok.mp named, Or.inl ⟨already, rfl⟩⟩
      · obtain ⟨several, same⟩ := require_bind_ok.mp (commit_ok (publishTolerant_db _ _) done)
        obtain ⟨after, rfl⟩ := Prod.mk.inj (Except.ok.inj same)
        exact ⟨demand_ok.mp named, Or.inr ⟨by simpa using several, after.symm⟩⟩

theorem removePeer_ok
    (done : removePeer name false host state = (.ok peer, next)) :
    state.db.readPeerByName name = some peer ∧ (peer.status = .enabled → state.db.countEnabledPeers ≠ 1) ∧
      next.db.peers = state.db.peers.erase peer.id := by
  have changed := commit_ok (publishTolerant_db _ _) done
  simp only [existing, bind_ok, demand_ok, require_ok] at changed
  obtain ⟨row, ⟨_, _, found⟩, _, several, _, _, removed, deleted, same⟩ := changed
  obtain ⟨after, rfl⟩ := Prod.mk.inj (Except.ok.inj same)
  unfold deletePeer at deleted
  split at deleted
  · cases deleted
  · cases deleted
    exact ⟨found, by simpa [Decidable.imp_iff_not_or] using several, congrArg Db.peers after.symm⟩

theorem setPeerScope_ok
    (done : setPeerScope request false host state = (.ok peer, next)) :
    ∃ scope, state.db.readPeerByName request.name = some peer ∧ orphanedRules host state.db peer scope = [] ∧
      next.db = updatePeer state.db peer.id (·.setScope scope request.services) fun _ => rfl := by
  have changed := commit_ok (fun _ => rfl) done
  simp only [bind_ok, demand_ok, require_ok] at changed
  obtain ⟨_, _, scope, _, row, found, _, gate, same⟩ := changed
  obtain ⟨after, rfl⟩ := Prod.mk.inj (Except.ok.inj same)
  exact ⟨scope, found, by simpa using gate, after.symm⟩

/-- Among the enabled peers is one other than `peer`, unless it is the only one. -/
theorem another_enabled (peer : Peer) (some : 0 < db.countEnabledPeers) (several : db.countEnabledPeers ≠ 1) :
    ∃ other ∈ db.peers.rows, other.status = .enabled ∧ other.id ≠ peer.id := by
  by_contra nobody
  simp only [not_exists, not_and, Decidable.not_not] at nobody
  have ids : (db.readEnabledPeers.map Peer.id) = List.replicate db.countEnabledPeers peer.id := by
    apply List.eq_replicate_iff.mpr
    constructor
    · simp [Db.readEnabledPeers, Db.countEnabledPeers, List.countP_eq_length_filter]
    · intro id member
      obtain ⟨other, listed, rfl⟩ := List.mem_map.mp member
      simp only [Db.readEnabledPeers, List.mem_filter, beq_iff_eq] at listed
      exact nobody other listed.1 listed.2
  have distinct : (db.readEnabledPeers.map Peer.id).Nodup := db.peers.distinct.sublist (List.filter_sublist.map _)
  rw [ids, List.nodup_replicate] at distinct
  omega

theorem countEnabledPeers_pos : 0 < db.countEnabledPeers ↔ ∃ peer ∈ db.peers.rows, peer.status = .enabled := by
  simp [Db.countEnabledPeers, List.countP_pos_iff]

theorem enabled_disabled (some : 0 < db.countEnabledPeers) (several : db.countEnabledPeers ≠ 1) :
    0 < (updatePeer db peer.id (·.setStatus .disabled) fun _ => rfl).countEnabledPeers := by
  obtain ⟨other, member, enabled, different⟩ := another_enabled peer some several
  rw [countEnabledPeers_pos]
  exact ⟨other, mem_updatePeer.mpr ⟨other, member, by rw [if_neg different]⟩, enabled⟩

/-- No unforced operation takes the last enabled peer. -/
theorem enabled_kept {call : Withdrawal}
    (done : call.perform host state = (.ok peer, next)) (some : 0 < state.db.countEnabledPeers) :
    0 < next.db.countEnabledPeers := by
  cases call with
  | disablePeer name =>
    obtain ⟨_, ⟨_, same⟩ | ⟨several, after⟩⟩ := disablePeer_ok done
    · rwa [same]
    · rw [after]
      exact enabled_disabled some several
  | removePeer name =>
    obtain ⟨found, several, after⟩ := removePeer_ok done
    rw [countEnabledPeers_pos, after]
    by_cases enabled : peer.status = .enabled
    · obtain ⟨other, member, isEnabled, different⟩ := another_enabled peer some (several enabled)
      exact ⟨other, mem_removed.mpr ⟨member, different⟩, isEnabled⟩
    · obtain ⟨other, member, isEnabled⟩ := countEnabledPeers_pos.mp some
      refine ⟨other, mem_removed.mpr ⟨member, fun same => ?_⟩, isEnabled⟩
      exact enabled (Table.key_injective member (readPeerByName_mem found) same ▸ isEnabled)
  | setPeerScope request =>
    obtain ⟨scope, _, _, after⟩ := setPeerScope_ok done
    obtain ⟨other, member, isEnabled⟩ := countEnabledPeers_pos.mp some
    rw [after, countEnabledPeers_pos]
    refine ⟨_, mem_updatePeer.mpr ⟨other, member, rfl⟩, ?_⟩
    split
    · exact isEnabled
    · exact isEnabled

/-- A demotion that the gate let pass leaves an administrator. -/
theorem adminReach_setPeerScope
    (done : setPeerScope request false host state = (.ok peer, next)) (reach : state.db.AdminReach)
    {firewall : Firewall.State}
    (read : host.firewall = some firewall) (listed : rule ∈ firewall.rules) (plain : forAdmins rule = true) :
    next.db.AdminReach := by
  obtain ⟨scope, found, gate, after⟩ := setPeerScope_ok done
  obtain ⟨admin, member, admits⟩ := reach
  rw [after]
  by_cases other : admin.id = peer.id
  · obtain rfl : admin = peer := Table.key_injective member (readPeerByName_mem found) other
    have untagged : firewall.untaggedVpnOnly ≠ [] := by
      simp only [forAdmins, Bool.and_eq_true] at plain
      have counted : rule ∈ firewall.untaggedVpnOnly := by simp [Firewall.State.untaggedVpnOnly, listed, plain]
      exact List.ne_nil_of_mem counted
    by_cases alone : otherFullAdmin state.db admin = 0
    · have status : admin.status = .enabled ∧ admin.scope ≠ .services := by simpa [Peer.admits] using admits
      have kept : scope ≠ .services := by
        rintro rfl
        simp [orphanedRules, status, alone, read, untagged] at gate
      refine ⟨_, mem_updatePeer.mpr ⟨admin, member, rfl⟩, ?_⟩
      simp [Peer.admits, Peer.setScope, status, kept]
    · obtain ⟨another, anotherMember, anotherAdmits, different⟩ :
          ∃ another ∈ state.db.peers.rows, another.admits = true ∧ another.id ≠ admin.id := by
        rw [otherFullAdmin_eq_zero] at alone
        simpa [not_forall] using alone
      exact ⟨another, mem_updatePeer.mpr ⟨another, anotherMember, by rw [if_neg different]⟩, anotherAdmits⟩
  · exact ⟨admin, mem_updatePeer.mpr ⟨admin, member, by rw [if_neg other]⟩, admits⟩

/-- An unforced operation that succeeds leaves an enabled peer; it leaves the untagged rules open
exactly when it does not take away the only enabled full or admin peer. -/
theorem withdrawal_keeps_reach_iff {call : Withdrawal} {host : Host} {state next : State} {peer : Peer}
    (done : call.perform host state = (.ok peer, next)) :
    (0 < state.db.countEnabledPeers → 0 < next.db.countEnabledPeers) ∧
      (state.db.AdminReach → ∀ firewall, host.firewall = some firewall → ∀ rule ∈ firewall.rules,
        forAdmins rule = true →
        (next.db.AdminReach ∧ ¬Closed next.db rule ↔ call.Spares state.db)) := by
  refine ⟨enabled_kept done, ?_⟩
  intro reach firewall read rule listed plain
  rw [closed_iff plain, Classical.not_not, and_self]
  -- An operation on a peer that admits nobody leaves the administrators as they were.
  have idle : ∀ {peer : Peer}, peer ∈ state.db.peers.rows → peer.admits = false →
      ¬SoleAdmin state.db peer ∧ otherFullAdmin state.db peer ≠ 0 := by
    intro peer member admitsNobody
    refine ⟨fun sole => absurd sole.1 (by simp [admitsNobody]), fun alone => ?_⟩
    obtain ⟨admin, adminMember, admits⟩ := reach
    obtain rfl : admin = peer :=
      Table.key_injective adminMember member (otherFullAdmin_eq_zero.mp alone admin adminMember admits)
    simp [admitsNobody] at admits
  have named : ∀ {name : String} {peer : Peer}, state.db.readPeerByName name = some peer →
      (otherFullAdmin state.db peer ≠ 0 ↔ ∀ other, state.db.readPeerByName name = some other →
        ¬SoleAdmin state.db other) := by
    intro name peer found
    have one : (∀ other, state.db.readPeerByName name = some other → ¬SoleAdmin state.db other) ↔
        ¬SoleAdmin state.db peer := by
      simp [found]
    rw [one]
    cases admits : peer.admits with
    | false =>
      obtain ⟨notSole, others⟩ := idle (readPeerByName_mem found) admits
      exact iff_of_true others notSole
    | true => simp [SoleAdmin, admits]
  cases call with
  | disablePeer name =>
    obtain ⟨found, ⟨already, same⟩ | ⟨_, after⟩⟩ := disablePeer_ok done
    · have admitsNobody : peer.admits = false := by simp [Peer.admits, already]
      rw [same]
      exact iff_of_true reach ((named found).mp (idle (readPeerByName_mem found) admitsNobody).2)
    · rw [after, adminReach_without _ _ peer fun other admits => mem_disabled admits]
      exact named found
  | removePeer name =>
    obtain ⟨found, _, after⟩ := removePeer_ok done
    rw [adminReach_without state.db next.db peer fun other _ => by rw [after]; exact mem_removed]
    exact named found
  | setPeerScope request => exact iff_of_true (adminReach_setPeerScope done reach read listed plain) trivial

def databaseRule : Firewall.Rule :=
  ⟨"postgres", .manual, none, 5432, none, .tcp, .vpnOnly, none, true, none, none, 0⟩

def staffedHost (drawn : String) (single : newline ∉ drawn.toList) : Host where
  now := 0
  config := some 51820
  mtu := 1280
  keypair := some ⟨drawn.toList, single⟩
  serverKey := some ⟨"S".toList, by decide⟩
  writeConf := none
  clientConfig := none
  unlink := none
  audit := none
  syncconf := none
  lastHandshake := fun _ => 0
  firewall := some { Firewall.defaultState 0 with discovered := [databaseRule] }

def opsHost : Host := staffedHost "K1" (by decide)

def appHost : Host := staffedHost "K2" (by decide)

def hires : List (Call × Host) :=
  [(.addPeer ⟨"ops", "full", none⟩, opsHost), (.addPeer ⟨"app", "services", some ["web"]⟩, appHost)]

/-- A full peer for the operator and a services peer for an application. -/
def staffed : State := hires.foldl (fun state hire => (perform hire.1 hire.2 state).2) ⟨Db.initial, none⟩

def disable (name : String) : Except PeerError Peer × State := (Withdrawal.disablePeer name).perform opsHost staffed

theorem staffed_reachable : system.Reachable staffed := ⟨⟨Db.initial, none⟩, hires, rfl, rfl⟩

theorem staffed_adminReach : staffed.db.AdminReach := by
  have one : staffed.db.peers.rows.any Peer.admits = true := by decide +kernel
  exact List.any_eq_true.mp one

/-- The only administrator is disabled while an application stays enabled. -/
theorem only_admin_disabled :
    ¬∀ (call : Withdrawal) (host : Host) (state next : State) (peer : Peer), system.Reachable state →
      call.perform host state = (.ok peer, next) →
      state.db.AdminReach → ∀ firewall, host.firewall = some firewall →
        (∃ rule ∈ firewall.rules, forAdmins rule = true) →
        next.db.AdminReach := by
  intro keeps
  have passes : (disable "ops").1.isOk = true := by decide +kernel
  have silent : (disable "ops").2.db.peers.rows.all (fun peer => !peer.admits) = true := by decide +kernel
  cases ran : disable "ops" with
  | mk result next =>
    rw [ran] at passes silent
    cases result with
    | error reason => contradiction
    | ok peer =>
      obtain ⟨peer, member, admits⟩ :=
        keeps _ _ _ _ _ staffed_reachable ran staffed_adminReach _ rfl ⟨databaseRule, by decide, by decide⟩
      have closed := List.all_eq_true.mp silent peer member
      simp [admits] at closed

/-- Without the application the operator still gets in. -/
theorem withdrawal_keeps_reach_iff_services :
    (disable "app").2.db.AdminReach ∧ ¬Closed (disable "app").2.db databaseRule := by
  have passes : (disable "app").1.isOk = true := by decide +kernel
  cases ran : disable "app" with
  | mk result next =>
    rw [ran] at passes
    cases result with
    | error reason => contradiction
    | ok peer =>
      have exactly :=
        (withdrawal_keeps_reach_iff ran).2 staffed_adminReach _ rfl databaseRule (by decide) (by decide)
      refine exactly.mpr fun peer found sole => ?_
      have application : ((staffed.db.readPeerByName "app").map Peer.admits) = some false := by decide +kernel
      rw [found] at application
      simp [sole.1] at application

end ProxyPilot.Vpn
