import ProxyPilot.Data.Checks
import ProxyPilot.Transition.System
import ProxyPilot.Vpn.Peers

namespace ProxyPilot.Vpn

open Data

/-! # The pool and the peers stay in step

Every peer holds one row of the pool, and a row with a peer is held by that peer.
The operations keep this whatever the host answers.
-/

def Db.Held (db : Db) (ip : Ip) : Prop := ∃ peer ∈ db.peers.rows, peer.allowed_ip = ip

def Ip.InPool (ip : Ip) : Prop := POOL_START_SUFFIX ≤ ip.suffix ∧ ip.suffix ≤ POOL_END_SUFFIX

structure Db.Sound (db : Db) : Prop where
  ids : ∀ peer ∈ db.peers.rows, peer.id ≤ db.sequence
  seeded : db.pool.rows = [] ∨ db.pool.rows.map PoolRow.ip = seedRows.map PoolRow.ip
  held : ∀ peer ∈ db.peers.rows, ⟨peer.allowed_ip, some peer.id, none⟩ ∈ db.pool.rows
  owned : ∀ row ∈ db.pool.rows, ∀ id, row.peer_id = some id →
    row.released_at = none ∧ ∃ peer ∈ db.peers.rows, peer.id = id ∧ peer.allowed_ip = row.ip
  named : ∀ peer ∈ db.peers.rows, newline ∉ peer.name.toList

namespace Db.Sound

variable {db : Db}

theorem address_injective (sound : db.Sound) {left right : Peer} (leftMember : left ∈ db.peers.rows)
    (rightMember : right ∈ db.peers.rows) (same : left.allowed_ip = right.allowed_ip) : left = right := by
  have rows := Table.key_injective (sound.held left leftMember) (sound.held right rightMember) same
  have ids : left.id = right.id := by
    have holders := congrArg PoolRow.peer_id rows
    exact Option.some.inj holders
  exact Table.key_injective leftMember rightMember ids

theorem free_iff (sound : db.Sound) {row : PoolRow} (member : row ∈ db.pool.rows) :
    row.free = true ↔ ¬ db.Held row.ip := by
  constructor
  · rintro free ⟨peer, peerMember, same⟩
    have row_eq : row = ⟨peer.allowed_ip, some peer.id, none⟩ :=
      Table.key_injective member (sound.held peer peerMember) same.symm
    simp [row_eq, PoolRow.free] at free
  · intro unheld
    cases holder : row.peer_id with
    | none => simp [PoolRow.free, holder]
    | some id =>
      obtain ⟨_, peer, peerMember, _, same⟩ := sound.owned row member id holder
      exact absurd ⟨peer, peerMember, same⟩ unheld

theorem peers_nil (sound : db.Sound) (empty : db.pool.rows = []) : db.peers.rows = [] := by
  cases rows : db.peers.rows with
  | nil => rfl
  | cons peer rest =>
    have member := sound.held peer (by simp [rows])
    simp [empty] at member

end Db.Sound

variable {ip : Ip} {row : PoolRow} {pool : Table PoolRow} {id : Nat} {db : Db} {peer : Peer}
  {name : String} {state : State} {later : State → Except PeerError Unit × State}
  {change : Db → Except PeerError (Db × α)}

theorem mem_seedRows : ip ∈ seedRows.map PoolRow.ip ↔ ip.InPool := by
  simp only [seedRows, List.map_map, List.mem_map, List.mem_finRange, true_and, Function.comp, Ip.InPool]
  constructor
  · rintro ⟨offset, rfl⟩
    have bound := offset.isLt
    simp only [seedIp, POOL_START_SUFFIX, POOL_END_SUFFIX] at bound ⊢
    omega
  · intro bounds
    obtain ⟨suffix, byte⟩ := ip
    simp only [POOL_START_SUFFIX, POOL_END_SUFFIX] at bounds
    refine ⟨⟨suffix - POOL_START_SUFFIX, by simp only [POOL_START_SUFFIX, POOL_END_SUFFIX]; omega⟩, ?_⟩
    simp only [seedIp, POOL_START_SUFFIX, Ip.mk.injEq]
    omega

theorem mem_pool (db : Db) (sound : db.Sound) (nonempty : db.pool.rows ≠ []) :
    ip.InPool ↔ ∃ row ∈ db.pool.rows, row.ip = ip := by
  have ips := sound.seeded.resolve_left nonempty
  rw [← mem_seedRows, ← ips, List.mem_map]

variable {rows : List PoolRow} {publicKey : WgKey} {scope : PeerScope} {request : AddRequest}

theorem lowest_eq_none : lowest rows = none ↔ rows = [] := by
  cases rows with
  | nil => simp [lowest]
  | cons row rest =>
    simp only [lowest]
    split
    · simp
    · split <;> simp

theorem lowest_spec (found : lowest rows = some row) :
    row ∈ rows ∧ ∀ other ∈ rows, row.ip.suffix ≤ other.ip.suffix := by
  induction rows generalizing row with
  | nil => simp [lowest] at found
  | cons first rest ih =>
    cases later : lowest rest with
    | none =>
      have empty := lowest_eq_none.mp later
      simp only [lowest, later, Option.some.injEq] at found
      subst found empty
      simp
    | some other =>
      obtain ⟨member, least⟩ := ih later
      simp only [lowest, later] at found
      split at found
      case isTrue smaller =>
        cases found
        refine ⟨List.mem_cons_of_mem _ member, fun row rowMember => ?_⟩
        rcases List.mem_cons.mp rowMember with rfl | rowMember
        · omega
        · exact least row rowMember
      case isFalse notSmaller =>
        cases found
        refine ⟨List.mem_cons_self, fun row rowMember => ?_⟩
        rcases List.mem_cons.mp rowMember with rfl | rowMember
        · omega
        · have := least row rowMember
          omega

theorem mem_updateIp {change : PoolRow → PoolRow} (same : ∀ row, (change row).ip = row.ip)
    :
    row ∈ (updateIp pool ip change same).rows ↔ ∃ old ∈ pool.rows, row = if old.ip = ip
      then change old else old := by
  unfold updateIp
  constructor
  · intro member
    obtain ⟨old, listed, changed⟩ := Table.mem_map.mp member
    exact ⟨old, listed, changed.symm⟩
  · intro found
    obtain ⟨old, listed, changed⟩ := found
    exact Table.mem_map.mpr ⟨old, listed, changed.symm⟩

theorem mem_claimIp :
    row ∈ (claimIp pool ip id).rows ↔ ∃ old ∈ pool.rows, row = if old.ip = ip then old.claim id else old := by
  unfold claimIp
  exact mem_updateIp _

theorem mem_releaseIp {now : Nat} :
    row ∈ (releaseIp pool ip now).rows ↔ ∃ old ∈ pool.rows, row = if old.ip = ip then old.release now else old := by
  unfold releaseIp
  exact mem_updateIp _

theorem updateIp_ips {change : PoolRow → PoolRow} (same : ∀ row, (change row).ip = row.ip) :
    (updateIp pool ip change same).rows.map PoolRow.ip = pool.rows.map PoolRow.ip := by
  simp only [updateIp, Table.map, List.map_map]
  refine List.map_congr_left fun row _ => ?_
  by_cases named : row.ip = ip
  · simpa [named] using (same row).trans named
  · simp [named]

theorem updateIp_seeded (ip : Ip) (change : PoolRow → PoolRow) (same : ∀ row, (change row).ip = row.ip)
    (seeded : pool.rows = [] ∨ pool.rows.map PoolRow.ip = seedRows.map PoolRow.ip) :
    (updateIp pool ip change same).rows = [] ∨
      (updateIp pool ip change same).rows.map PoolRow.ip = seedRows.map PoolRow.ip := by
  rcases seeded with empty | ips
  · exact Or.inl (by simp [updateIp, Table.map, empty])
  · exact Or.inr ((updateIp_ips same).trans ips)

theorem mem_updatePeer {change : Peer → Peer} {same : ∀ peer, (change peer).id = peer.id} :
    peer ∈ (updatePeer db id change same).peers.rows ↔ ∃ old ∈ db.peers.rows, peer = if old.id = id
      then change old else old := by
  simp only [updatePeer]
  constructor
  · intro member
    obtain ⟨old, listed, changed⟩ := Table.mem_map.mp member
    exact ⟨old, listed, changed.symm⟩
  · intro found
    obtain ⟨old, listed, changed⟩ := found
    exact Table.mem_map.mpr ⟨old, listed, changed.symm⟩

/-- A change of the columns the pool does not depend on. -/
theorem updatePeer_sound {change : Peer → Peer} {same : ∀ peer, (change peer).id = peer.id}
    (address : ∀ peer, (change peer).allowed_ip = peer.allowed_ip) (name : ∀ peer, (change peer).name = peer.name)
    (sound : db.Sound) : (updatePeer db id change same).Sound := by
  have kept (old : Peer) : let changed := if old.id = id then change old else old
      changed.id = old.id ∧ changed.allowed_ip = old.allowed_ip ∧ changed.name = old.name := by
    by_cases named : old.id = id
    · simp [named, address, name, same]
    · simp [named]
  constructor
  case seeded => exact sound.seeded
  case ids =>
    intro peer member
    obtain ⟨old, oldMember, rfl⟩ := mem_updatePeer.mp member
    rw [(kept old).1]
    exact sound.ids old oldMember
  case held =>
    intro peer member
    obtain ⟨old, oldMember, rfl⟩ := mem_updatePeer.mp member
    rw [(kept old).1, (kept old).2.1]
    exact sound.held old oldMember
  case owned =>
    intro row member holder holds
    obtain ⟨taken, old, oldMember, named, addressed⟩ := sound.owned row member holder holds
    refine ⟨taken, _, mem_updatePeer.mpr ⟨old, oldMember, rfl⟩, ?_, ?_⟩
    · rw [(kept old).1, named]
    · rw [(kept old).2.1, addressed]
  case named =>
    intro peer member
    obtain ⟨old, oldMember, rfl⟩ := mem_updatePeer.mp member
    rw [(kept old).2.2]
    exact sound.named old oldMember

theorem seedPoolIfEmpty_sound (sound : db.Sound) : { db with pool := seedPoolIfEmpty db.pool : Db }.Sound := by
  by_cases empty : db.pool.rows = []
  · have nobody := sound.peers_nil empty
    simp only [seedPoolIfEmpty, if_pos empty]
    constructor
    case seeded => exact Or.inr rfl
    case owned =>
      intro row member id holder
      simp only [seeded, seedRows, List.mem_map] at member
      obtain ⟨offset, _, rfl⟩ := member
      simp at holder
    all_goals simp [nobody]
  · simpa only [seedPoolIfEmpty, if_neg empty] using sound

theorem seedPoolIfEmpty_ne_nil (pool : Table PoolRow) : (seedPoolIfEmpty pool).rows ≠ [] := by
  by_cases empty : pool.rows = []
  · rw [seedPoolIfEmpty, if_pos empty]
    simp [seeded, seedRows, POOL_START_SUFFIX, POOL_END_SUFFIX]
  · rwa [seedPoolIfEmpty, if_neg empty]

theorem pickFreeIp_eq_none (sound : db.Sound) (nonempty : db.pool.rows ≠ []) :
    pickFreeIp db.pool = none ↔ ∀ ip : Ip, ip.InPool → db.Held ip := by
  rw [pickFreeIp, lowest_eq_none, List.filter_eq_nil_iff]
  constructor
  · intro none_free ip inPool
    obtain ⟨row, member, rfl⟩ := (mem_pool db sound nonempty).mp inPool
    exact Classical.not_not.mp fun unheld => none_free row member ((sound.free_iff member).mpr unheld)
  · intro all_held row member free
    exact (sound.free_iff member).mp free (all_held row.ip ((mem_pool db sound nonempty).mpr ⟨row, member, rfl⟩))

theorem pickFreeIp_spec (sound : db.Sound) (nonempty : db.pool.rows ≠ []) {free : PoolRow}
    (found : pickFreeIp db.pool = some free) :
    free ∈ db.pool.rows ∧ free.ip.InPool ∧ ¬ db.Held free.ip ∧
      ∀ ip : Ip, ip.InPool → ¬ db.Held ip → free.ip.suffix ≤ ip.suffix := by
  obtain ⟨member, least⟩ := lowest_spec found
  obtain ⟨inside, isFree⟩ := List.mem_filter.mp member
  refine ⟨inside, (mem_pool db sound nonempty).mpr ⟨free, inside, rfl⟩, (sound.free_iff inside).mp isFree, ?_⟩
  intro ip inPool unheld
  obtain ⟨row, rowMember, rfl⟩ := (mem_pool db sound nonempty).mp inPool
  exact least row (List.mem_filter.mpr ⟨rowMember, (sound.free_iff rowMember).mpr unheld⟩)

/-- What a new row of `vpn_peers` looks like. -/
theorem insertPeer_ok {db inserted : Db}
    {services : Option (List String)}
    (done : insertPeer db name publicKey ip scope services = .ok (inserted, peer)) :
    peer = ⟨db.sequence + 1, name, publicKey, ip, scope, services, .enabled⟩ ∧
      inserted = { db with peers := db.peers.put peer, sequence := db.sequence + 1 } := by
  simp only [insertPeer] at done
  split at done
  · cases done
  split at done
  · cases done
  split at done
  · cases done
  · cases done
    exact ⟨rfl, rfl⟩

/-- The transaction of `addPeer`: the new peer is fresh in both tables. -/
theorem claim_sound (sound : db.Sound) (member : row ∈ db.pool.rows)
    (unheld : ¬ db.Held row.ip) (fresh : peer.id = db.sequence + 1) (address : peer.allowed_ip = row.ip)
    (single : newline ∉ peer.name.toList) :
    { peers := db.peers.put peer, pool := claimIp db.pool row.ip peer.id, sequence := db.sequence +
      1 : Db }.Sound := by
  have old_id (other : Peer) (otherMember : other ∈ db.peers.rows) : other.id ≠ peer.id := by
    have := sound.ids other otherMember
    omega
  have peers (other : Peer) : other ∈ (db.peers.put peer).rows ↔ other = peer ∨ other ∈ db.peers.rows := by
    rw [Table.mem_put]
    exact or_congr_right ⟨fun both => both.1, fun otherMember => ⟨otherMember, old_id other otherMember⟩⟩
  constructor
  case ids =>
    intro other otherMember
    rcases (peers other).mp otherMember with rfl | otherMember
    · exact fresh.le
    · exact Nat.le_succ_of_le (sound.ids other otherMember)
  case seeded => exact updateIp_seeded row.ip (·.claim peer.id) (fun _ => rfl) sound.seeded
  case held =>
    intro other otherMember
    rcases (peers other).mp otherMember with rfl | otherMember
    · refine mem_claimIp.mpr ⟨row, member, ?_⟩
      simp [PoolRow.claim, address]
    · have elsewhere : other.allowed_ip ≠ row.ip := fun same => unheld ⟨other, otherMember, same⟩
      refine mem_claimIp.mpr ⟨_, sound.held other otherMember, ?_⟩
      simp [elsewhere]
  case owned =>
    intro taken takenMember id holder
    obtain ⟨old, oldMember, rfl⟩ := mem_claimIp.mp takenMember
    by_cases named : old.ip = row.ip
    · simp only [named, if_true, PoolRow.claim, Option.some.injEq] at holder ⊢
      exact ⟨trivial, peer, (peers peer).mpr (Or.inl rfl), holder, address⟩
    · simp only [named, if_false] at holder ⊢
      obtain ⟨unreleased, other, otherMember, isOther, addressed⟩ := sound.owned old oldMember id holder
      exact ⟨unreleased, other, (peers other).mpr (Or.inr otherMember), isOther, addressed⟩
  case named =>
    intro other otherMember
    rcases (peers other).mp otherMember with rfl | otherMember
    · exact single
    · exact sound.named other otherMember

/-- The transaction of `removePeer`. -/
theorem release_sound (sound : db.Sound) (member : peer ∈ db.peers.rows) (now : Nat) :
    { peers := db.peers.erase peer.id, pool := releaseIp db.pool peer.allowed_ip now,
      sequence := db.sequence : Db }.Sound := by
  have kept {other : Peer} (otherMember : other ∈ (db.peers.erase peer.id).rows) :
      other ∈ db.peers.rows ∧ other.id ≠ peer.id := by
    simpa [Table.erase, Keyed.key] using otherMember
  constructor
  case ids => exact fun other otherMember => sound.ids other (kept otherMember).1
  case named => exact fun other otherMember => sound.named other (kept otherMember).1
  case seeded => exact updateIp_seeded peer.allowed_ip (·.release now) (fun _ => rfl) sound.seeded
  case held =>
    intro other otherMember
    obtain ⟨otherMember, different⟩ := kept otherMember
    have elsewhere : other.allowed_ip ≠ peer.allowed_ip := fun same =>
      different (congrArg Peer.id (sound.address_injective otherMember member same))
    refine mem_releaseIp.mpr ⟨_, sound.held other otherMember, ?_⟩
    simp [elsewhere]
  case owned =>
    intro taken takenMember id holder
    obtain ⟨old, oldMember, rfl⟩ := mem_releaseIp.mp takenMember
    by_cases named : old.ip = peer.allowed_ip
    · simp [named, PoolRow.release] at holder
    · simp only [named, if_false] at holder ⊢
      obtain ⟨unreleased, other, otherMember, isOther, addressed⟩ := sound.owned old oldMember id holder
      refine ⟨unreleased, other, ?_, isOther, addressed⟩
      have different : other.id ≠ peer.id := fun same => by
        have one : other = peer := Table.key_injective otherMember member same
        exact named (addressed.symm.trans (congrArg Peer.allowed_ip one))
      simpa [Table.erase, Keyed.key] using And.intro otherMember different

theorem regenerateWg0_db (host : Host) (state : State) : (regenerateWg0 host state).2.db = state.db := by
  unfold regenerateWg0
  repeat' split
  all_goals rfl

theorem publish_db (host : Host) (steps : List (Option String)) (state : State) :
    (publish host steps state).2.db = state.db := by
  have regenerated := regenerateWg0_db host state
  unfold publish
  split
  case h_1 next found => rwa [found] at regenerated
  case h_2 => exact regenerated

theorem publishTolerant_db (host : Host) (steps : List (Option String)) (state : State) :
    (publishTolerant host steps state).2.db = state.db := by
  have published := publish_db host [host.syncconfWg0] state
  unfold publishTolerant
  split
  case h_1 next found => rwa [found] at published
  case h_2 reason next found => rwa [found] at published

theorem commit_changed
    (quiet : ∀ next, (later next).2.db = next.db) {result : α} (changed : change state.db = .ok (db, result)) :
    (commit change later state).2.db = db := by
  simp [commit, changed, quiet]

/-- After an operation the database is as before or as its transaction left it. -/
theorem commit_db
    (quiet : ∀ next, (later next).2.db = next.db) :
    (commit change later state).2.db = state.db ∨ ∃ db result, change state.db = .ok (db, result) ∧
      (commit change later state).2.db = db := by
  cases changed : change state.db with
  | error reason => exact Or.inl (by simp [commit, changed])
  | ok outcome =>
    obtain ⟨db, result⟩ := outcome
    exact Or.inr ⟨db, result, rfl, commit_changed quiet changed⟩

theorem commit_sound
    (quiet : ∀ next, (later next).2.db = next.db) (sound : state.db.Sound)
    (keeps : ∀ db result, change state.db = .ok (db, result) → db.Sound) :
    (commit change later state).2.db.Sound := by
  rcases commit_db quiet with same | ⟨db, result, changed, after⟩
  · rwa [same]
  · exact after ▸ keeps db result changed

theorem readPeerByName_mem (found : db.readPeerByName name = some peer) :
    peer ∈ db.peers.rows := List.mem_of_find?_eq_some found

theorem peerName_single (valid : peerName name = true) : newline ∉ name.toList := by
  unfold peerName at valid
  split at valid
  case h_1 empty => simp [empty]
  case h_2 first rest letters =>
    simp only [Bool.and_eq_true] at valid
    rw [letters]
    rintro member
    rcases List.mem_cons.mp member with rfl | member
    · exact absurd valid.1.1 (by decide)
    · exact absurd (List.all_eq_true.mp valid.2 _ member) (by decide)

theorem addPeerChecks_ok {host : Host} {checked : PeerScope × WgKey} :
    addPeerChecks request host db = .ok checked ↔
      peerName request.name = true ∧ validateScope request.scope request.services = .ok checked.1 ∧
        host.config.isSome = true ∧ db.readPeerByName request.name = none ∧ host.keypair = some checked.2 := by
  obtain ⟨scope, publicKey⟩ := checked
  simp only [addPeerChecks, validatePeerName, bind_ok, require_ok, demand_ok, Option.isNone_iff_eq_none]
  constructor
  · rintro ⟨_, name, _, validated, _, enabled, _, fresh, _, generated, same⟩
    cases same
    exact ⟨name, validated, enabled, fresh, generated⟩
  · rintro ⟨name, validated, enabled, fresh, generated⟩
    exact ⟨(), name, scope, validated, (), enabled, (), fresh, publicKey, generated, rfl⟩

theorem addPeerTransaction_ok {db after : Db}
    (done : addPeerTransaction request scope publicKey db = .ok (after, peer)) :
    ∃ free, pickFreeIp (seedPoolIfEmpty db.pool) = some free ∧
      peer = ⟨db.sequence + 1, request.name, publicKey, free.ip, scope, request.services, .enabled⟩ ∧
      after = {
        peers := db.peers.put peer, pool := claimIp (seedPoolIfEmpty db.pool) free.ip peer.id,
        sequence := db.sequence + 1 } := by
  simp only [addPeerTransaction, bind_ok, demand_ok] at done
  obtain ⟨free, found, ⟨inserted, row⟩, insertion, same⟩ := done
  cases same
  obtain ⟨isPeer, rfl⟩ := insertPeer_ok insertion
  exact ⟨free, found, isPeer, rfl⟩

theorem addPeer_sound (sound : state.db.Sound) (request : AddRequest) (host : Host) :
    (addPeer request host state).2.db.Sound := by
  refine commit_sound (publish_db _ _) sound fun db peer changed => ?_
  obtain ⟨⟨scope, publicKey⟩, checked, done⟩ := bind_ok.mp changed
  obtain ⟨free, found, rfl, rfl⟩ := addPeerTransaction_ok done
  have ready := seedPoolIfEmpty_sound sound
  obtain ⟨member, _, unheld, _⟩ := pickFreeIp_spec ready (seedPoolIfEmpty_ne_nil _) found
  exact claim_sound ready member unheld rfl rfl (peerName_single (addPeerChecks_ok.mp checked).1)

theorem rotatePeer_sound (sound : state.db.Sound) (name : String) (host : Host) :
    (rotatePeer name host state).2.db.Sound := by
  refine commit_sound (publish_db _ _) sound fun db peer changed => ?_
  simp only [bind_ok] at changed
  obtain ⟨_, _, _, _, _, _, _, _, _, _, same⟩ := changed
  cases same
  exact updatePeer_sound (fun _ => rfl) (fun _ => rfl) sound

theorem disablePeer_sound (sound : state.db.Sound) (name : String) (force : Bool) (host : Host) :
    (disablePeer name force host state).2.db.Sound := by
  unfold disablePeer
  split
  case h_1 => exact sound
  case h_2 peer found =>
    split
    case isTrue => exact sound
    case isFalse =>
      refine commit_sound (publishTolerant_db _ _) sound fun db result changed => ?_
      obtain ⟨_, same⟩ := require_bind_ok.mp changed
      cases same
      exact updatePeer_sound (fun _ => rfl) (fun _ => rfl) sound

theorem enablePeer_sound (sound : state.db.Sound) (name : String) (host : Host) :
    (enablePeer name host state).2.db.Sound := by
  unfold enablePeer
  split
  case h_1 => exact sound
  case h_2 peer found =>
    split
    case isTrue => exact sound
    case isFalse =>
      refine commit_sound (publish_db _ _) sound fun db result changed => ?_
      obtain ⟨_, same⟩ := require_bind_ok.mp changed
      cases same
      exact updatePeer_sound (fun _ => rfl) (fun _ => rfl) sound

theorem setPeerScope_sound (sound : state.db.Sound) (request : AddRequest) (force : Bool) (host : Host) :
    (setPeerScope request force host state).2.db.Sound := by
  refine commit_sound (fun _ => rfl) sound fun db peer changed => ?_
  simp only [bind_ok] at changed
  obtain ⟨_, _, _, _, _, _, _, _, same⟩ := changed
  cases same
  exact updatePeer_sound (fun _ => rfl) (fun _ => rfl) sound

theorem removePeer_sound (sound : state.db.Sound) (name : String) (force : Bool) (host : Host) :
    (removePeer name force host state).2.db.Sound := by
  refine commit_sound (publishTolerant_db _ _) sound fun db peer changed => ?_
  simp only [existing, bind_ok, demand_ok] at changed
  obtain ⟨row, ⟨_, _, found⟩, _, _, _, _, removed, deleted, same⟩ := changed
  cases same
  unfold deletePeer at deleted
  split at deleted
  case isTrue => cases deleted
  case isFalse =>
    cases deleted
    exact release_sound sound (readPeerByName_mem found) host.now

inductive Call where
  | addPeer (request : AddRequest)
  | rotatePeer (name : String)
  | disablePeer (name : String) (force : Bool)
  | enablePeer (name : String)
  | setPeerScope (request : AddRequest) (force : Bool)
  | removePeer (name : String) (force : Bool)

def perform : Call → Host → State → Except PeerError Peer × State
  | .addPeer request => addPeer request
  | .rotatePeer name => rotatePeer name
  | .disablePeer name force => disablePeer name force
  | .enablePeer name => enablePeer name
  | .setPeerScope request force => setPeerScope request force
  | .removePeer name force => removePeer name force

/-- The tables as `schema.js` creates them. -/
def Db.initial : Db := ⟨∅, ∅, 0⟩

def system : Transition.System State (Call × Host) where
  initial := fun state => state.db = Db.initial
  step := fun state (call, host) => some (perform call host state).2

theorem perform_sound (sound : state.db.Sound) (call : Call) (host : Host) :
    (perform call host state).2.db.Sound := by
  cases call with
  | addPeer request => exact addPeer_sound sound request host
  | rotatePeer name => exact rotatePeer_sound sound name host
  | disablePeer name force => exact disablePeer_sound sound name force host
  | enablePeer name => exact enablePeer_sound sound name host
  | setPeerScope request force => exact setPeerScope_sound sound request force host
  | removePeer name force => exact removePeer_sound sound name force host

theorem initial_sound : Db.initial.Sound := by
  constructor
  case seeded => exact Or.inl rfl
  all_goals exact fun _ member => nomatch member

theorem reachable_sound (reached : system.Reachable state) : state.db.Sound := by
  refine reached.invariant (fun state => state.db.Sound) ?_ ?_
  · rintro state initial
    exact initial ▸ initial_sound
  · rintro state ⟨call, host⟩ next sound moved
    cases moved
    exact perform_sound sound call host

end ProxyPilot.Vpn
