import ProxyPilot.Vpn.Integrity

namespace ProxyPilot.Vpn

open Data

/-! # Addresses handed out and addresses published

The address a new peer gets, and the `AllowedIPs` lines of the enabled ones.
-/

def Db.LowestFree (db : Db) (ip : Ip) : Prop :=
  ip.InPool ∧ ¬ db.Held ip ∧ ∀ other : Ip, other.InPool → ¬ db.Held other → ip.suffix ≤ other.suffix

variable {steps : List (Option String)} {reason : PeerError} {services : Option (List String)}
  {name : String}

/-- The only error a publication ends with is a step's. -/
theorem hostSteps_error (failed : hostSteps steps = .error reason) :
    ∃ message, reason = .step message := by
  induction steps with
  | nil => cases failed
  | cons step rest ih =>
    cases step with
    | none => exact ih failed
    | some message =>
      cases failed
      exact ⟨message, rfl⟩

variable {host : Host} {state : State} {request : AddRequest} {db : Db} {publicKey : WgKey}
  {scope : PeerScope} {ip : Ip} {peer : Peer}

theorem publish_error
    (failed : (publish host steps state).1 = .error reason) : ∃ message, reason = .step message := by
  unfold publish at failed
  split at failed
  case h_1 => exact hostSteps_error failed
  case h_2 =>
    unfold regenerateWg0 at failed
    repeat' split at failed
    all_goals first
      | exact ⟨_, (Except.error.inj failed).symm⟩
      | cases failed

theorem validateScope_error {scope : String} :
    validateScope scope services ≠ .error .poolExhausted := by
  unfold validateScope
  repeat' split
  all_goals simp

theorem addPeerChecks_error :
    addPeerChecks request host db ≠ .error .poolExhausted := by
  simp only [addPeerChecks, validatePeerName, ne_eq, bind_error, require_error, demand_error]
  rintro (⟨_, other⟩ | ⟨_, _,
    exhausted | ⟨scope, _, ⟨_, other⟩ | ⟨_, _, ⟨_, other⟩ | ⟨_, _, ⟨_, other⟩ | ⟨_, _, other⟩⟩⟩⟩⟩)
  case inr.inl => exact validateScope_error exhausted
  all_goals cases other

theorem insertPeer_error :
    insertPeer db name publicKey ip scope services ≠ .error .poolExhausted := by
  unfold insertPeer
  dsimp only
  repeat' split
  all_goals simp

theorem addPeerTransaction_exhausted
    (failed : addPeerTransaction request scope publicKey db = .error .poolExhausted) :
    pickFreeIp (seedPoolIfEmpty db.pool) = none := by
  simp only [addPeerTransaction, bind_error, demand_error] at failed
  rcases failed with ⟨none_free, _⟩ | ⟨_, _, inserted | ⟨_, _, committed⟩⟩
  · exact none_free
  · exact absurd inserted insertPeer_error
  · cases committed

/-- `addPeer` reports exhaustion only when every address of the pool is held. -/
theorem addPeer_exhausted (sound : state.db.Sound)
    (failed : (addPeer request host state).1 = .error .poolExhausted) :
    ∀ ip : Ip, ip.InPool → state.db.Held ip := by
  refine (pickFreeIp_eq_none (seedPoolIfEmpty_sound sound) (seedPoolIfEmpty_ne_nil _)).mp ?_
  unfold addPeer commit at failed
  split at failed
  case h_1 reason changed =>
    cases failed
    rcases bind_error.mp changed with checks | ⟨_, _, exhausted⟩
    · exact absurd checks addPeerChecks_error
    · exact addPeerTransaction_exhausted exhausted
  case h_2 db peer changed =>
    cases published :
      (publish host [host.clientConfig, host.audit, host.syncconfWg0] { state with db := db }).1 with
    | error reason =>
      obtain ⟨message, rfl⟩ := publish_error published
      simp [published, Except.map] at failed
    | ok done => simp [published, Except.map] at failed

theorem addPeer_lowest (sound : state.db.Sound)
    (member : peer ∈ (addPeer request host state).2.db.peers.rows) (fresh : peer ∉ state.db.peers.rows) :
    state.db.LowestFree peer.allowed_ip := by
  rcases commit_db (publish_db host [host.clientConfig, host.audit, host.syncconfWg0])
    with same | ⟨db, added, changed, after⟩
  · rw [addPeer, same] at member
    exact absurd member fresh
  · rw [addPeer, after] at member
    obtain ⟨⟨scope, publicKey⟩, _, done⟩ := bind_ok.mp changed
    obtain ⟨free, found, isPeer, rfl⟩ := addPeerTransaction_ok done
    rcases Table.mem_put.mp member with rfl | ⟨old, _⟩
    · obtain ⟨_, inPool, unheld, least⟩ :=
        pickFreeIp_spec (seedPoolIfEmpty_sound sound) (seedPoolIfEmpty_ne_nil _) found
      rw [isPeer]
      exact ⟨inPool, unheld, least⟩
    · exact absurd old fresh

theorem insertPeer_accepts (db : Db) (newName : db.readPeerByName name = none)
    (newKey : ∀ peer ∈ db.peers.rows, peer.public_key ≠ publicKey) (unheld : ¬ db.Held ip)
    (scope : PeerScope) (services : Option (List String)) :
    ∃ outcome, insertPeer db name publicKey ip scope services = .ok outcome := by
  have names : db.peers.rows.any (·.name == name) = false := by
    simpa [Db.readPeerByName] using newName
  have keys : db.peers.rows.any (·.public_key == publicKey) = false := by
    simpa using newKey
  have addresses : db.peers.rows.any (·.allowed_ip == ip) = false := by
    simpa [Db.Held] using unheld
  exact ⟨_, by simp only [insertPeer, names, keys, addresses]; rfl⟩

/-- A request that passes the checks with a new key is served as long as an address is free. -/
theorem addPeer_served (sound : state.db.Sound)
    (checked : addPeerChecks request host state.db = .ok (scope, publicKey))
    (unused : ∀ peer ∈ state.db.peers.rows, peer.public_key ≠ publicKey) (inPool : ip.InPool)
    (unheld : ¬ state.db.Held ip) :
    ∃ peer ∈ (addPeer request host state).2.db.peers.rows, peer.id = state.db.sequence + 1 ∧
      peer.name = request.name ∧ peer.public_key = publicKey := by
  have ready := seedPoolIfEmpty_sound sound
  have nonempty := seedPoolIfEmpty_ne_nil state.db.pool
  have checks := addPeerChecks_ok.mp checked
  cases found : pickFreeIp (seedPoolIfEmpty state.db.pool) with
  | none => exact absurd ((pickFreeIp_eq_none ready nonempty).mp found ip inPool) unheld
  | some free =>
    obtain ⟨_, _, freeUnheld, _⟩ := pickFreeIp_spec ready nonempty found
    obtain ⟨⟨inserted, peer⟩, insertion⟩ :=
      insertPeer_accepts { state.db with pool := seedPoolIfEmpty state.db.pool }
      checks.2.2.2.1 unused freeUnheld scope request.services
    obtain ⟨isPeer, isInserted⟩ := insertPeer_ok insertion
    have done : addPeerTransaction request scope publicKey state.db =
        .ok ({ inserted with pool := claimIp inserted.pool free.ip peer.id }, peer) := by
      simp only [addPeerTransaction, bind_ok, demand_ok]
      exact ⟨free, found, ⟨inserted, peer⟩, insertion, rfl⟩
    have after : (addPeer request host state).2.db =
        { inserted with pool := claimIp inserted.pool free.ip peer.id } :=
      commit_changed (publish_db _ _) (bind_ok.mpr ⟨(scope, publicKey), checked, done⟩)
    refine ⟨peer, ?_, by rw [isPeer], by rw [isPeer], by rw [isPeer]⟩
    have member : peer ∈ inserted.peers.rows := by
      rw [isInserted]
      exact Table.mem_put.mpr (Or.inl rfl)
    rw [after]
    exact member

theorem digits_single (n : Nat) : newline ∉ Nat.toDigits 10 n := by
  intro member
  have digit : newline.isDigit = true := Nat.isDigit_of_mem_toDigits (by omega) (by omega) member
  simp [newline] at digit

theorem text_single (ip : Ip) : newline ∉ ip.text := by
  have start : newline ∉ POOL_PREFIX := by
    unfold POOL_PREFIX
    simp [newline]
  have digits := digits_single ip.suffix
  simp only [Ip.text, List.mem_append, List.mem_cons, not_or]
  exact ⟨start, by decide, digits⟩

theorem allowedIpsLine_single (ip : Ip) : newline ∉ allowedIpsLine ip := by
  have start : newline ∉ "AllowedIPs = ".toList := by simp [newline]
  have ending : newline ∉ "/32".toList := by simp [newline]
  intro inside
  rcases List.mem_append.mp inside with inside | inside
  · exact (List.mem_append.mp inside).elim start (text_single ip)
  · exact ending inside

theorem allowedIpsLine_inj {left right : Ip} : allowedIpsLine left = allowedIpsLine right ↔ left = right := by
  constructor
  · intro same
    unfold allowedIpsLine at same
    exact Ip.text_injective (List.append_cancel_left (List.append_cancel_right same))
  · exact congrArg allowedIpsLine

/-- A line that starts otherwise is no `AllowedIPs` line. -/
theorem ne_allowedIpsLine {line : List Char} (ip : Ip) (start : line.take 2 ≠ ['A', 'l']) :
    line ≠ allowedIpsLine ip := by
  rintro rfl
  exact start rfl

theorem count_peerLines (peer : Peer) (ip : Ip) :
    (peerLines peer).count (allowedIpsLine ip) = if peer.allowed_ip = ip then 1 else 0 := by
  have blank : ([] : List Char) ≠ allowedIpsLine ip := ne_allowedIpsLine ip (by simp)
  have comment : "# ".toList ++ peer.name.toList ≠ allowedIpsLine ip := ne_allowedIpsLine ip (by simp)
  have header : "[Peer]".toList ≠ allowedIpsLine ip := ne_allowedIpsLine ip (by simp)
  have key : "PublicKey = ".toList ++ peer.public_key.text ≠ allowedIpsLine ip := ne_allowedIpsLine ip (by simp)
  rw [peerLines, List.count_cons_of_ne blank, List.count_cons_of_ne comment, List.count_cons_of_ne header,
    List.count_cons_of_ne key, List.count_singleton]
  simp [allowedIpsLine_inj]

theorem count_interfaceLines (privateKey : WgKey) (listenPort mtu : Nat) (ip : Ip) :
    (interfaceLines privateKey listenPort mtu).count (allowedIpsLine ip) = 0 := by
  refine List.count_eq_zero.mpr fun member => ?_
  simp only [interfaceLines, List.mem_cons, List.not_mem_nil, or_false] at member
  rcases member with same | same | same | same | same | same | same
  all_goals exact ne_allowedIpsLine ip (by simp) same.symm

theorem peerLines_single (named : newline ∉ peer.name.toList) : ∀ line ∈ peerLines peer, newline ∉ line := by
  have hash : newline ∉ "# ".toList := by simp [newline]
  have header : newline ∉ "[Peer]".toList := by simp [newline]
  have key : newline ∉ "PublicKey = ".toList := by simp [newline]
  intro line member
  simp only [peerLines, List.mem_cons, List.not_mem_nil, or_false] at member
  rcases member with rfl | rfl | rfl | rfl | rfl
  · simp
  · exact fun inside => (List.mem_append.mp inside).elim hash named
  · exact header
  · exact fun inside => (List.mem_append.mp inside).elim key peer.public_key.single
  · exact allowedIpsLine_single peer.allowed_ip

theorem interfaceLines_single (privateKey : WgKey) (listenPort mtu : Nat) :
    ∀ line ∈ interfaceLines privateKey listenPort mtu, newline ∉ line := by
  have constants : newline ∉ "# Generated by ProxyPilot VPN manager. Do not edit by hand.".toList ∧
      newline ∉ "# NAT/forwarding live in nft table inet proxypilot, chain nat_postrouting.".toList ∧
      newline ∉ "[Interface]".toList ∧ newline ∉ "Address = ".toList ++ WG_SERVER_IP ∧ newline ∉ "MTU = ".toList ∧
      newline ∉ "ListenPort = ".toList ∧ newline ∉ "PrivateKey = ".toList := by
    unfold WG_SERVER_IP
    simp [newline]
  obtain ⟨generated, nat, header, address, mtuKey, portKey, privateKeyKey⟩ := constants
  intro line member
  simp only [interfaceLines, List.mem_cons, List.not_mem_nil, or_false] at member
  rcases member with rfl | rfl | rfl | rfl | rfl | rfl | rfl
  · exact generated
  · exact nat
  · exact header
  · exact address
  · exact fun inside => (List.mem_append.mp inside).elim mtuKey (digits_single mtu)
  · exact fun inside => (List.mem_append.mp inside).elim portKey (digits_single listenPort)
  · exact fun inside => (List.mem_append.mp inside).elim privateKeyKey privateKey.single

/-- How often an address is published is how many of the peers have it. -/
theorem count_renderWg0Conf (privateKey : WgKey) (listenPort mtu : Nat) {peers : List Peer}
    (named : ∀ peer ∈ peers, newline ∉ peer.name.toList) (ip : Ip) :
    (linesOf (renderWg0Conf privateKey listenPort mtu peers)).count (allowedIpsLine ip) =
      peers.countP (·.allowed_ip = ip) := by
  have single : ∀ line ∈ interfaceLines privateKey listenPort mtu ++ peers.flatMap peerLines, newline ∉ line := by
    intro line member
    rcases List.mem_append.mp member with member | member
    · exact interfaceLines_single privateKey listenPort mtu line member
    · obtain ⟨peer, peerMember, member⟩ := List.mem_flatMap.mp member
      exact peerLines_single (named peer peerMember) line member
  have blank : ([] : List Char) ≠ allowedIpsLine ip := ne_allowedIpsLine ip (by simp)
  rw [renderWg0Conf, linesOf_unlines single, List.count_append, List.count_append, count_interfaceLines,
    List.count_cons_of_ne blank, List.count_nil, Nat.zero_add, Nat.add_zero]
  clear single
  induction peers with
  | nil => rfl
  | cons peer rest ih =>
    have tail := ih fun other member => named other (List.mem_cons_of_mem _ member)
    rw [List.flatMap_cons, List.count_append, count_peerLines, tail, List.countP_cons, Nat.add_comm]
    simp

theorem readEnabledPeers_count (sound : db.Sound) (member : peer ∈ db.peers.rows) :
    db.readEnabledPeers.countP (·.allowed_ip = peer.allowed_ip) = if peer.status = .enabled then 1 else 0 := by
  have one : db.peers.rows.count peer = 1 :=
    List.count_eq_one_of_mem (List.Nodup.of_map _ db.peers.distinct) member
  have same : db.readEnabledPeers.countP (·.allowed_ip = peer.allowed_ip) = db.readEnabledPeers.count peer := by
    rw [List.count]
    refine List.countP_congr fun other otherMember => ?_
    have otherMember := (List.mem_filter.mp otherMember).1
    simp only [decide_eq_true_eq, beq_iff_eq]
    exact ⟨sound.address_injective otherMember member, congrArg Peer.allowed_ip⟩
  by_cases enabled : peer.status = .enabled
  · rw [same, if_pos enabled, Db.readEnabledPeers, List.count_filter (by simpa using enabled), one]
  · rw [same, if_neg enabled]
    refine List.count_eq_zero.mpr fun inside => enabled ?_
    simpa using (List.mem_filter.mp inside).2

theorem pool_integrity {state : State} (reached : system.Reachable state) :
    (∀ left ∈ state.db.peers.rows, ∀ right ∈ state.db.peers.rows,
      left.allowed_ip = right.allowed_ip → left = right) ∧
    (∀ row ∈ state.db.pool.rows, ∀ id, (row.peer_id = some id ∧ row.released_at = none) ↔
      ∃ peer ∈ state.db.peers.rows, peer.id = id ∧ peer.allowed_ip = row.ip) ∧
    (∀ peer ∈ state.db.peers.rows, peer.allowed_ip.InPool ∧ ∃ row ∈ state.db.pool.rows, row.ip = peer.allowed_ip) ∧
    (∀ request host, ∀ peer ∈ (addPeer request host state).2.db.peers.rows, peer ∉ state.db.peers.rows →
      state.db.LowestFree peer.allowed_ip) ∧
    (∀ request host, (addPeer request host state).1 = .error .poolExhausted → ∀ ip : Ip, ip.InPool →
      state.db.Held ip) ∧
    (∀ request host scope publicKey, addPeerChecks request host state.db = .ok (scope, publicKey) →
      (∀ peer ∈ state.db.peers.rows, peer.public_key ≠ publicKey) → (∃ ip : Ip, ip.InPool ∧ ¬ state.db.Held ip) →
      ∃ peer ∈ (addPeer request host state).2.db.peers.rows,
        peer.id = state.db.sequence + 1 ∧ peer.name = request.name ∧ peer.public_key = publicKey) ∧
    (∀ privateKey listenPort mtu, ∀ peer ∈ state.db.peers.rows,
      (linesOf (renderWg0Conf privateKey listenPort mtu state.db.readEnabledPeers)).count
        (allowedIpsLine peer.allowed_ip) =
        if peer.status = .enabled then 1 else 0) := by
  have sound := reachable_sound reached
  refine ⟨fun left leftMember right rightMember => sound.address_injective leftMember rightMember, ?_, ?_,
    fun request host peer => addPeer_lowest sound, fun request host => addPeer_exhausted sound, ?_, ?_⟩
  · intro row member id
    constructor
    · exact fun ⟨holder, _⟩ => (sound.owned row member id holder).2
    · rintro ⟨peer, peerMember, rfl, address⟩
      have isRow : row = ⟨peer.allowed_ip, some peer.id, none⟩ :=
        Table.key_injective member (sound.held peer peerMember) address.symm
      exact ⟨congrArg PoolRow.peer_id isRow, congrArg PoolRow.released_at isRow⟩
  · intro peer member
    have row := sound.held peer member
    have nonempty : state.db.pool.rows ≠ [] := List.ne_nil_of_mem row
    exact ⟨(mem_pool state.db sound nonempty).mpr ⟨_, row, rfl⟩, _, row, rfl⟩
  · rintro request host scope publicKey checked unused ⟨ip, inPool, unheld⟩
    exact addPeer_served sound checked unused inPool unheld
  · intro privateKey listenPort mtu peer member
    have named : ∀ other ∈ state.db.readEnabledPeers, newline ∉ other.name.toList := fun other inside =>
      sound.named other (List.mem_filter.mp inside).1
    rw [count_renderWg0Conf privateKey listenPort mtu named, readEnabledPeers_count sound member]

def keyOf (text : String) (single : newline ∉ text.toList) : WgKey := ⟨text.toList, single⟩

def serverKey : WgKey := keyOf "priv" (by simp [newline])

/-- A host whose interface is down, and which draws the given key. -/
def downHost (drawn : WgKey) : Host where
  now := 0
  config := some 51820
  mtu := 1280
  keypair := some drawn
  serverKey := some serverKey
  writeConf := none
  clientConfig := none
  unlink := none
  audit := none
  syncconf := some "Unable to access interface"
  lastHandshake := fun _ => 0
  firewall := none

def laptopHost : Host := downHost (keyOf "first" (by simp [newline]))

def phoneHost : Host := downHost (keyOf "second" (by simp [newline]))

def tabletHost : Host := downHost (keyOf "third" (by simp [newline]))

/-- The tablet comes after the laptop is gone, and the phone is disabled. -/
def moves : List (Call × Host) :=
  [(.addPeer ⟨"laptop", "admin", none⟩, laptopHost), (.addPeer ⟨"phone", "services", some ["web"]⟩, phoneHost),
    (.removePeer "laptop" false, laptopHost), (.addPeer ⟨"tablet", "full", none⟩, tabletHost),
    (.disablePeer "phone" false, phoneHost)]

def afterMoves : State := moves.foldl (fun state move => (perform move.1 move.2 state).2) ⟨Db.initial, none⟩

private theorem afterMoves_peers :
    afterMoves.db.peers.rows.map (fun peer => (peer.name, peer.allowed_ip.suffix, peer.status)) =
      [("phone", 11, .disabled), ("tablet", 10, .enabled)] := by
  decide +kernel

/-- The tablet has the address the laptop gave back, and it alone is published. -/
theorem pool_integrity_laptop :
    ∃ phone ∈ afterMoves.db.peers.rows, ∃ tablet ∈ afterMoves.db.peers.rows,
      (phone.name = "phone" ∧ phone.allowed_ip.InPool) ∧ (tablet.name = "tablet" ∧ tablet.allowed_ip.InPool) ∧
      phone.allowed_ip ≠ tablet.allowed_ip ∧
      (∀ row ∈ afterMoves.db.pool.rows, row.ip = tablet.allowed_ip → row.peer_id = some tablet.id) ∧
      (linesOf (renderWg0Conf serverKey 51820 1280 afterMoves.db.readEnabledPeers)).count
        (allowedIpsLine phone.allowed_ip) = 0 ∧
      (linesOf (renderWg0Conf serverKey 51820 1280 afterMoves.db.readEnabledPeers)).count
        (allowedIpsLine tablet.allowed_ip) = 1 := by
  have reached : system.Reachable afterMoves := ⟨⟨Db.initial, none⟩, moves, rfl, rfl⟩
  obtain ⟨distinct, holds, addresses, _, _, _, published⟩ := pool_integrity reached
  have rows := afterMoves_peers
  obtain ⟨phone, rest, at_first, isPhone, others⟩ := List.map_eq_cons_iff.mp rows
  obtain ⟨tablet, _, rfl, isTablet, _⟩ := List.map_eq_cons_iff.mp others
  have phoneMember : phone ∈ afterMoves.db.peers.rows := by simp [at_first]
  have tabletMember : tablet ∈ afterMoves.db.peers.rows := by simp [at_first]
  simp only [Prod.mk.injEq] at isPhone isTablet
  have different : phone.allowed_ip ≠ tablet.allowed_ip := fun same => by
    have suffixes := congrArg Ip.suffix same
    omega
  refine ⟨phone, phoneMember, tablet, tabletMember, ⟨isPhone.1, (addresses phone phoneMember).1⟩,
    ⟨isTablet.1, (addresses tablet tabletMember).1⟩, different, fun row member address => ?_, ?_, ?_⟩
  · exact ((holds row member tablet.id).mpr ⟨tablet, tabletMember, rfl, address.symm⟩).1
  · rw [published serverKey 51820 1280 phone phoneMember, if_neg (by simp [isPhone])]
  · rw [published serverKey 51820 1280 tablet tabletMember, if_pos isTablet.2.2]

end ProxyPilot.Vpn
