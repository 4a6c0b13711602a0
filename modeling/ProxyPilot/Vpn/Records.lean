import ProxyPilot.Data.Text
import ProxyPilot.Data.Table

namespace ProxyPilot.Vpn

open Data

/-! # Peers and addresses of the VPN

`vpn_peers` and `vpn_ip_pool`, and the text of `wg0.conf` made from the enabled
peers.
-/

/-- An address of the VPN subnet: `10.100.0.<suffix>`. -/
structure Ip where
  suffix : Nat
  byte : suffix < 256
deriving DecidableEq

def POOL_PREFIX : List Char := "10.100.0".toList
def POOL_START_SUFFIX : Nat := 10
def POOL_END_SUFFIX : Nat := 254

theorem pool_start_byte : POOL_START_SUFFIX < 256 := by decide

def Ip.text (ip : Ip) : List Char := POOL_PREFIX ++ '.' :: Nat.toDigits 10 ip.suffix

theorem Ip.text_injective {left right : Ip} (same : left.text = right.text) : left = right := by
  have digits : Nat.toDigits 10 left.suffix = Nat.toDigits 10 right.suffix := by
    simpa [Ip.text] using same
  have values := congrArg (fun text => Nat.ofDigitChars 10 text 0) digits
  simp only [Nat.ofDigitChars_toDigits (by decide : 1 < 10) (by decide : 10 ≤ 10)] at values
  cases left
  cases right
  simpa using values

/-- A key as `wg` prints it: one line. -/
structure WgKey where
  text : List Char
  single : newline ∉ text
deriving DecidableEq

inductive PeerScope where
  | full
  | admin
  | services
deriving DecidableEq

inductive Status where
  | enabled
  | disabled
  | revoked
deriving DecidableEq

structure Peer where
  id : Nat
  name : String
  public_key : WgKey
  allowed_ip : Ip
  scope : PeerScope
  scope_services : Option (List String)
  status : Status
deriving DecidableEq

instance : Keyed Peer Nat := ⟨Peer.id⟩

structure PoolRow where
  ip : Ip
  peer_id : Option Nat
  released_at : Option Nat

instance : Keyed PoolRow Ip := ⟨PoolRow.ip⟩

/-- The two tables, and the last id `AUTOINCREMENT` gave. -/
structure Db where
  peers : Table Peer
  pool : Table PoolRow
  sequence : Nat

def Db.readPeerByName (db : Db) (name : String) : Option Peer := db.peers.rows.find? (·.name == name)

def Db.countEnabledPeers (db : Db) : Nat := db.peers.rows.countP (·.status == .enabled)

/-- The enabled peers, which the query reads in the order of their ids. -/
def Db.readEnabledPeers (db : Db) : List Peer := db.peers.rows.filter (·.status == .enabled)

def WG_SERVER_IP : List Char := "10.100.0.1/24".toList

def allowedIpsLine (ip : Ip) : List Char := "AllowedIPs = ".toList ++ ip.text ++ "/32".toList

def peerLines (peer : Peer) : List (List Char) :=
  [[], "# ".toList ++ peer.name.toList, "[Peer]".toList, "PublicKey = ".toList ++ peer.public_key.text,
    allowedIpsLine peer.allowed_ip]

def interfaceLines (privateKey : WgKey) (listenPort mtu : Nat) : List (List Char) :=
  ["# Generated by ProxyPilot VPN manager. Do not edit by hand.".toList,
   "# NAT/forwarding live in nft table inet proxypilot, chain nat_postrouting.".toList,
   "[Interface]".toList,
   "Address = ".toList ++ WG_SERVER_IP,
   "MTU = ".toList ++ Nat.toDigits 10 mtu,
   "ListenPort = ".toList ++ Nat.toDigits 10 listenPort,
   "PrivateKey = ".toList ++ privateKey.text]

def renderWg0Conf (privateKey : WgKey) (listenPort mtu : Nat) (peers : List Peer) : List Char :=
  unlines (interfaceLines privateKey listenPort mtu ++ peers.flatMap peerLines)

end ProxyPilot.Vpn
