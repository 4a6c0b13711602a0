import Mathlib.Data.List.FinRange
import ProxyPilot.Data.Checks
import ProxyPilot.Data.Text
import ProxyPilot.Firewall.Ruleset
import ProxyPilot.Vpn.Records

namespace ProxyPilot.Vpn

open Data

/-! # The operations on peers

Each one changes the database in at most one transaction and then publishes the
result on the host: `wg0.conf`, the client's file, the audit row, the running
interface.  A host step that fails ends the operation and undoes nothing.
-/

inductive PeerError where
  | invalidName
  | invalidScope
  | servicesRequired
  | invalidService (service : String)
  | servicesNotAllowed
  | notEnabled
  | alreadyExists
  | notFound
  | keyGeneration
  | poolExhausted
  | uniqueConstraint (column : String)
  | foreignKey
  | lastEnabledPeer
  | recentlyActive
  | revoked
  | lastFullAdmin (rules : List String)
  /-- A step on the host failed with this message. -/
  | step (message : String)

/-- What the host answers during one call; `none` where a step succeeds. -/
structure Host where
  now : Nat
  /-- `vpn_config.listen_port`, when the row exists. -/
  config : Option Nat
  mtu : Nat
  /-- The public half of `generatePeerKeypair`. -/
  keypair : Option WgKey
  serverKey : Option WgKey
  writeConf : Option String
  clientConfig : Option String
  unlink : Option String
  audit : Option String
  syncconf : Option String
  /-- `dumpPeers`: the unix time of a key's last handshake, 0 for none. -/
  lastHandshake : WgKey → Nat
  /-- `fwReadState`, where it can be read. -/
  firewall : Option Firewall.State

structure State where
  db : Db
  /-- The bytes of `/etc/wireguard/wg0.conf`. -/
  wg0 : Option (List Char)

/-- `PEER_NAME_RE` -/
def peerName (name : String) : Bool :=
  match name.toList with
  | [] => false
  | first :: rest => first.isAlphanum && decide (rest.length ≤ 62) && rest.all nameChar

def validatePeerName (name : String) : Except PeerError Unit := require (peerName name) .invalidName

def serviceName (service : String) : Bool :=
  decide (1 ≤ service.toList.length ∧ service.toList.length ≤ 64) && service.toList.all nameChar

def PeerScope.ofString : String → Option PeerScope
  | "full" => some .full
  | "admin" => some .admin
  | "services" => some .services
  | _ => none

def validateScope (scope : String) (services : Option (List String)) : Except PeerError PeerScope :=
  match PeerScope.ofString scope with
  | none => .error .invalidScope
  | some .services =>
    match services with
    | none | some [] => .error .servicesRequired
    | some listed =>
      match listed.find? (!serviceName ·) with
      | some service => .error (.invalidService service)
      | none => .ok .services
  | some other =>
    match services with
    | none | some [] => .ok other
    | some _ => .error .servicesNotAllowed

def seedIp (offset : Fin (POOL_END_SUFFIX + 1 - POOL_START_SUFFIX)) : Ip where
  suffix := POOL_START_SUFFIX + offset.val
  byte := by
    have bound := offset.isLt
    simp only [POOL_END_SUFFIX, POOL_START_SUFFIX] at bound ⊢
    omega

def seedRows : List PoolRow :=
  (List.finRange (POOL_END_SUFFIX + 1 - POOL_START_SUFFIX)).map fun offset => ⟨seedIp offset, none, none⟩

theorem seedIp_injective : Function.Injective seedIp := by
  intro left right same
  have suffixes : POOL_START_SUFFIX + left.val = POOL_START_SUFFIX + right.val := congrArg Ip.suffix same
  exact Fin.ext (Nat.add_left_cancel suffixes)

def seeded : Table PoolRow where
  rows := seedRows
  distinct := by
    rw [seedRows, List.map_map]
    exact (List.nodup_finRange _).map seedIp_injective

def seedPoolIfEmpty (pool : Table PoolRow) : Table PoolRow := if pool.rows = [] then seeded else pool

def PoolRow.free (row : PoolRow) : Bool := row.peer_id.isNone || row.released_at.isSome

/-- `ORDER BY` the last octet, `LIMIT 1`. -/
def lowest : List PoolRow → Option PoolRow
  | [] => none
  | row :: rest =>
    match lowest rest with
    | none => some row
    | some other => if other.ip.suffix < row.ip.suffix then some other else some row

def pickFreeIp (pool : Table PoolRow) : Option PoolRow := lowest (pool.rows.filter PoolRow.free)

def PoolRow.claim (row : PoolRow) (peerId : Nat) : PoolRow :=
  { row with peer_id := some peerId, released_at := none }

def PoolRow.release (row : PoolRow) (now : Nat) : PoolRow := { row with peer_id := none, released_at := some now }

/-- `UPDATE vpn_ip_pool SET … WHERE ip = ?` -/
def updateIp (pool : Table PoolRow) (ip : Ip) (change : PoolRow → PoolRow)
    (same : ∀ row, (change row).ip = row.ip) : Table PoolRow :=
  pool.map (fun row => if row.ip = ip then change row else row) fun row => by
    by_cases named : row.ip = ip
    · simpa [named, Keyed.key] using (same row).trans named
    · simp [named]

def claimIp (pool : Table PoolRow) (ip : Ip) (peerId : Nat) : Table PoolRow :=
  updateIp pool ip (·.claim peerId) fun _ => rfl

def releaseIp (pool : Table PoolRow) (ip : Ip) (now : Nat) : Table PoolRow :=
  updateIp pool ip (·.release now) fun _ => rfl

/-- `INSERT`, with the columns that are `UNIQUE`. -/
def insertPeer (db : Db) (name : String) (publicKey : WgKey) (ip : Ip) (scope : PeerScope)
    (services : Option (List String)) :
    Except PeerError (Db × Peer) :=
  let peer : Peer := ⟨db.sequence + 1, name, publicKey, ip, scope, services, .enabled⟩
  if db.peers.rows.any (·.name == name) then .error (.uniqueConstraint "vpn_peers.name")
  else if db.peers.rows.any (·.public_key == publicKey) then .error (.uniqueConstraint "vpn_peers.public_key")
  else if db.peers.rows.any (·.allowed_ip == ip) then .error (.uniqueConstraint "vpn_peers.allowed_ip")
  else .ok ({ db with peers := db.peers.put peer, sequence := db.sequence + 1 }, peer)

/-- `UPDATE vpn_peers SET … WHERE id = ?` -/
def updatePeer (db : Db) (id : Nat) (change : Peer → Peer) (same : ∀ peer, (change peer).id = peer.id) : Db where
  peers := db.peers.map (fun peer => if peer.id = id then change peer else peer) fun peer => by
    by_cases named : peer.id = id
    · simpa [named, Keyed.key] using (same peer).trans named
    · simp [named]
  pool := db.pool
  sequence := db.sequence

def Peer.rotate (peer : Peer) (publicKey : WgKey) : Peer := { peer with public_key := publicKey }

def Peer.setStatus (peer : Peer) (status : Status) : Peer := { peer with status := status }

def Peer.setScope (peer : Peer) (scope : PeerScope) (services : Option (List String)) : Peer :=
  { peer with scope := scope, scope_services := services }

/-- `DELETE`, which the pool's foreign key may refuse. -/
def deletePeer (db : Db) (id : Nat) : Except PeerError Db :=
  if db.pool.rows.any (·.peer_id == some id) then .error .foreignKey
  else .ok { db with peers := db.peers.erase id }

def hostSteps : List (Option String) → Except PeerError Unit
  | [] => .ok ()
  | none :: rest => hostSteps rest
  | some message :: _ => .error (.step message)

def regenerateWg0 (host : Host) (state : State) : Except PeerError Unit × State :=
  match host.config with
  | none => (.error (.step "vpn_config row missing — run `proxypilot vpn enable` first"), state)
  | some listenPort =>
    match host.serverKey with
    | none =>
      (.error (.step
        "/etc/wireguard/server_private.key missing — refusing to render wg0.conf without the server key"), state)
    | some privateKey =>
      match host.writeConf with
      | some message => (.error (.step message), state)
      | none =>
        (.ok (),
          { state with wg0 := some (renderWg0Conf privateKey listenPort host.mtu state.db.readEnabledPeers) })

def Host.syncconfWg0 (host : Host) : Option String := host.syncconf.map ("wg syncconf wg0 failed: " ++ ·)

/-- `regenerateWg0()` and then further steps. -/
def publish (host : Host) (steps : List (Option String)) (state : State) : Except PeerError Unit × State :=
  match regenerateWg0 host state with
  | (.ok (), next) => (hostSteps steps, next)
  | failed => failed

/-- `/syncconf|interface|No such device/i` on the message. -/
def PeerError.tolerated : PeerError → Bool
  | .step message =>
    ["syncconf", "interface", "no such device"].any fun word =>
      mentions word.toList (message.toList.map Char.toLower)
  | _ => false

/-- The publication of `disablePeer` and `removePeer`, which an interface that is down does not stop. -/
def publishTolerant (host : Host) (steps : List (Option String)) (state : State) : Except PeerError Unit × State :=
  match publish host [host.syncconfWg0] state with
  | (.ok (), next) => (hostSteps steps, next)
  | (.error reason, next) => (if reason.tolerated then hostSteps steps else .error reason, next)

/-- Commit a change of the database and go on from it; a change that throws is rolled back. -/
def commit (change : Db → Except PeerError (Db × α)) (later : State → Except PeerError Unit × State)
    (state : State) :
    Except PeerError α × State :=
  match change state.db with
  | .error reason => (.error reason, state)
  | .ok (db, result) =>
    let published := later { state with db := db }
    (published.1.map fun _ => result, published.2)

structure AddRequest where
  name : String
  scope : String
  services : Option (List String)

/-- What `addPeer` checks before its transaction. -/
def addPeerChecks (request : AddRequest) (host : Host) (db : Db) : Except PeerError (PeerScope × WgKey) := do
  validatePeerName request.name
  let scope ← validateScope request.scope request.services
  require host.config.isSome .notEnabled
  require (db.readPeerByName request.name).isNone .alreadyExists
  let publicKey ← demand host.keypair .keyGeneration
  .ok (scope, publicKey)

def addPeerTransaction (request : AddRequest) (scope : PeerScope) (publicKey : WgKey) (db : Db) :
    Except PeerError (Db × Peer) := do
  let pool := seedPoolIfEmpty db.pool
  let free ← demand (pickFreeIp pool) .poolExhausted
  let (inserted, peer) ← insertPeer { db with pool := pool } request.name publicKey free.ip scope request.services
  .ok ({ inserted with pool := claimIp inserted.pool free.ip peer.id }, peer)

def addPeer (request : AddRequest) (host : Host) : State → Except PeerError Peer × State :=
  commit
    (fun db => do
      let (scope, publicKey) ← addPeerChecks request host db
      addPeerTransaction request scope publicKey db)
    (publish host [host.clientConfig, host.audit, host.syncconfWg0])

def rotatePeer (name : String) (host : Host) : State → Except PeerError Peer × State :=
  commit
    (fun db => do
      validatePeerName name
      require host.config.isSome .notEnabled
      let peer ← demand (db.readPeerByName name) .notFound
      let publicKey ← demand host.keypair .keyGeneration
      require (db.peers.rows.all fun other => other.id == peer.id || other.public_key != publicKey)
        (.uniqueConstraint "vpn_peers.public_key")
      .ok (updatePeer db peer.id (·.rotate publicKey) fun _ => rfl, peer))
    (publish host [host.clientConfig, host.audit, host.syncconfWg0])

/-- The row an operation on an existing peer starts from. -/
def existing (name : String) (db : Db) : Except PeerError Peer := do
  validatePeerName name
  demand (db.readPeerByName name) .notFound

def disablePeer (name : String) (force : Bool) (host : Host) (state : State) : Except PeerError Peer × State :=
  match existing name state.db with
  | .error reason => (.error reason, state)
  | .ok peer =>
    if peer.status = .disabled then (.ok peer, state)
    else commit
      (fun db => do
        require (force || db.countEnabledPeers != 1) .lastEnabledPeer
        .ok (updatePeer db peer.id (·.setStatus .disabled) fun _ => rfl, peer))
      (publishTolerant host [host.audit]) state

def enablePeer (name : String) (host : Host) (state : State) : Except PeerError Peer × State :=
  match existing name state.db with
  | .error reason => (.error reason, state)
  | .ok peer =>
    if peer.status = .enabled then (.ok peer, state)
    else commit
      (fun db => do
        require (peer.status != .revoked) .revoked
        .ok (updatePeer db peer.id (·.setStatus .enabled) fun _ => rfl, peer))
      (publish host [host.syncconfWg0, host.audit]) state

/-- `otherFullAdmin` -/
def otherFullAdmin (db : Db) (peer : Peer) : Nat :=
  db.peers.rows.countP fun other => other.status == .enabled && other.id != peer.id && other.scope != .services

/-- The `vpn-only` rules that no peer would reach once `peer` is the last of its kind and demoted. -/
def orphanedRules (host : Host) (db : Db) (peer : Peer) (scope : PeerScope) : List Firewall.Rule :=
  if peer.scope ≠ .services ∧ scope = .services ∧ peer.status = .enabled ∧ otherFullAdmin db peer = 0 then
    match host.firewall with
    | none => []
    | some firewall => firewall.untaggedVpnOnly
  else []

def setPeerScope (request : AddRequest) (force : Bool) (host : Host) : State → Except PeerError Peer × State :=
  commit
    (fun db => do
      validatePeerName request.name
      let scope ← validateScope request.scope request.services
      let peer ← demand (db.readPeerByName request.name) .notFound
      let orphaned := orphanedRules host db peer scope
      require (force || orphaned.isEmpty) (.lastFullAdmin (orphaned.map (·.id)))
      .ok (updatePeer db peer.id (·.setScope scope request.services) fun _ => rfl, peer))
    (fun next => (hostSteps [host.audit], next))

def ACTIVE_HANDSHAKE_WINDOW_SEC : Nat := 24 * 60 * 60

/-- The peer shook hands within the window. -/
def recentlyActive (host : Host) (peer : Peer) : Bool :=
  let handshake := host.lastHandshake peer.public_key
  handshake != 0 && decide (host.now < handshake + ACTIVE_HANDSHAKE_WINDOW_SEC)

def removePeer (name : String) (force : Bool) (host : Host) : State → Except PeerError Peer × State :=
  commit
    (fun db => do
      let peer ← existing name db
      require (force || !(peer.status == .enabled && db.countEnabledPeers == 1)) .lastEnabledPeer
      require (force || !recentlyActive host peer) .recentlyActive
      let removed ← deletePeer { db with pool := releaseIp db.pool peer.allowed_ip host.now } peer.id
      .ok (removed, peer))
    (publishTolerant host [host.unlink, host.audit])

end ProxyPilot.Vpn
