import ProxyPilot.Mock2.NetworkLogic
import Mathlib.Data.List.Pairwise

namespace ProxyPilot.Mock2

open Rules

/-! # What the fence isolates

A block of rules belongs to each entry, and the first block that decides a
packet wins.  Two blocks can decide the same packet: the destination's block,
by the container address, and the source's block, by the subnet.
-/

/-- The packet is addressed to the declared web port of the entry. -/
def FenceEntry.web (entry : FenceEntry) (packet : Packet) : Bool :=
  packet.proto == .tcp && packet.dport == entry.webPort

/-- What one entry's rules decide, stated without the rules. -/
def FenceEntry.decision (entry : FenceEntry) (packet : Packet) : Option Verdict :=
  if packet.daddr = entry.containerIp then
    some (if entry.web packet then .accept else .drop)
  else if entry.cidr.contains packet.saddr then
    some (if grantsCover entry.egress packet then .accept
      else if privateDestRanges.any (·.contains packet.daddr) then .reject else .accept)
  else none

theorem inboundRules_decide (entry : FenceEntry) (packet : Packet) :
    firstMatch NftRule.decides entry.inboundRules packet =
      if packet.daddr = entry.containerIp then some (if entry.web packet then .accept else .drop)
      else none := by
  by_cases inbound : packet.daddr = entry.containerIp
  · by_cases web : packet.proto = .tcp ∧ packet.dport = entry.webPort <;>
      simp [FenceEntry.inboundRules, FenceEntry.web, NftRule.decides, Condition.holds,
        Statement.verdict, inbound, web]
  · simp [FenceEntry.inboundRules, NftRule.decides, Condition.holds, inbound]

theorem egressRules_decide (entry : FenceEntry) (packet : Packet) :
    firstMatch NftRule.decides entry.egressRules packet =
      if entry.cidr.contains packet.saddr then
        some (if privateDestRanges.any (·.contains packet.daddr) then .reject else .accept)
      else none := by
  rw [FenceEntry.egressRules]
  generalize privateDestRanges = ranges
  cases source : entry.cidr.contains packet.saddr <;>
    cases lateral : ranges.any (·.contains packet.daddr) <;>
    simp [NftRule.decides, Condition.holds, Statement.verdict, source, lateral]

private theorem blocks_or (inbound : Prop) [Decidable inbound] (web : Verdict)
    (source covered lateral : Bool) :
    ((if inbound then some web else none).or
        (if source && covered then some .accept else none)).or
      (if source then some (if lateral then .reject else .accept) else none) =
    if inbound then some web
    else if source then some (if covered then .accept else if lateral then .reject else .accept)
    else none := by
  by_cases inbound <;> cases source <;> cases covered <;> simp [*]

theorem forwardRules_decide (entry : FenceEntry) (packet : Packet) :
    firstMatch NftRule.decides entry.forwardRules packet = entry.decision packet := by
  rw [FenceEntry.forwardRules, firstMatch_append, firstMatch_append, inboundRules_decide,
    renderEgressGrantRules_decide, egressRules_decide, FenceEntry.decision]
  exact blocks_or _ _ _ _ _

variable {packet : Packet} {entry : FenceEntry} {source destination : FenceEntry}
  {entries : List FenceEntry}

/-- On new connections the chain is the first deciding entry, else the policy. -/
theorem forwardVerdict_new (fresh : packet.ct = .new) (entries : List FenceEntry) :
    forwardVerdict entries packet = (firstMatch FenceEntry.decision entries packet).getD .accept := by
  have blocks : firstMatch NftRule.decides (entries.flatMap FenceEntry.forwardRules) packet =
      firstMatch FenceEntry.decision entries packet := by
    rw [firstMatch_flatMap]
    exact congrArg (firstMatch · entries packet) (funext₂ forwardRules_decide)
  rw [forwardVerdict, evaluate, forwardChain, firstMatch_append, blocks]
  simp [NftRule.decides, Condition.holds, fresh]

/-- The subnets are /24s of 10.0.0.0/8 that hold their own container. -/
structure FenceEntry.OnOwnBridge (entry : FenceEntry) : Prop where
  width : entry.cidr.len = 24
  block : entry.cidr.base.o1 = 10
  container : entry.cidr.contains entry.containerIp = true

def FenceEntry.Apart (left right : FenceEntry) : Prop :=
  ∀ ip, left.cidr.contains ip = true → right.cidr.contains ip = false

instance : Std.Symm FenceEntry.Apart where
  symm left right apart ip inRight := by
    by_contra inLeft
    rw [apart ip (by simpa using inLeft)] at inRight
    contradiction

/-- A plan whose entries sit on distinct project bridges. -/
structure SeparateBridges (entries : List FenceEntry) : Prop where
  own : ∀ entry ∈ entries, entry.OnOwnBridge
  apart : entries.Pairwise FenceEntry.Apart

theorem FenceEntry.OnOwnBridge.container_private (own : entry.OnOwnBridge) :
    privateDestRanges.any (·.contains entry.containerIp) = true := by
  have inside := own.container
  have block : entry.cidr.base.o1.val = 10 := by rw [own.block]; rfl
  simp only [Cidr.contains, own.width, Ipv4.toNat, beq_iff_eq] at inside
  simp only [privateDestRanges, List.any_cons, Bool.or_eq_true, Cidr.contains, Ipv4.toNat, beq_iff_eq]
  left
  change _ / 16777216 = (10 * 16777216 + 0 * 65536 + 0 * 256 + 0) / 16777216
  simp only [Nat.reduceSub, Nat.reducePow, block] at inside
  omega

namespace SeparateBridges

variable {entries : List FenceEntry}

theorem tail {entry : FenceEntry} (separate : SeparateBridges (entry :: entries)) :
    SeparateBridges entries where
  own other member := separate.own other (List.mem_cons_of_mem _ member)
  apart := (List.pairwise_cons.mp separate.apart).2

theorem disjoint (separate : SeparateBridges entries) {left right : FenceEntry}
    (leftMember : left ∈ entries) (rightMember : right ∈ entries) (different : left ≠ right) :
    left.Apart right :=
  separate.apart.forall leftMember rightMember different

/-- Between distinct entries, only the source's and the destination's rules speak. -/
theorem silent (separate : SeparateBridges entries) {source destination other : FenceEntry}
    (sourceMember : source ∈ entries) (destinationMember : destination ∈ entries)
    (otherMember : other ∈ entries) (notSource : other ≠ source)
    (notDestination : other ≠ destination) {packet : Packet}
    (sent : source.cidr.contains packet.saddr = true)
    (addressed : packet.daddr = destination.containerIp) : other.decision packet = none := by
  have elsewhere : packet.daddr ≠ other.containerIp := by
    intro same
    have inside := (separate.own destination destinationMember).container
    have outside := separate.disjoint destinationMember otherMember notDestination.symm _ inside
    rw [← addressed, same, (separate.own other otherMember).container] at outside
    contradiction
  simp [FenceEntry.decision, elsewhere,
    separate.disjoint sourceMember otherMember notSource.symm _ sent]

end SeparateBridges

theorem FenceEntry.decision_inbound
    (addressed : packet.daddr = entry.containerIp) :
    entry.decision packet = some (if entry.web packet then .accept else .drop) := by
  simp [FenceEntry.decision, addressed]

/-- A source's own rules reject what no grant of it covers on another bridge. -/
theorem FenceEntry.decision_lateral
    (own : destination.OnOwnBridge) (apart : source.cidr.contains destination.containerIp = false)
    (ownSource : source.OnOwnBridge) (sent : source.cidr.contains packet.saddr = true)
    (addressed : packet.daddr = destination.containerIp) :
    source.decision packet = some (if grantsCover source.egress packet then .accept else .reject) := by
  have elsewhere : packet.daddr ≠ source.containerIp := by
    intro same
    rw [← addressed, same, ownSource.container] at apart
    contradiction
  rw [FenceEntry.decision, if_neg elsewhere, if_pos sent, addressed, own.container_private, if_pos rfl]

/-- Isolation of one rendered plan: a new connection from one project to
another's container is accepted only under a grant of the source. -/
def Isolated (entries : List FenceEntry) : Prop :=
  ∀ source ∈ entries, ∀ destination ∈ entries, source ≠ destination →
    ∀ packet : Packet, packet.ct = .new → source.cidr.contains packet.saddr = true →
      packet.daddr = destination.containerIp → forwardVerdict entries packet = .accept →
      grantsCover source.egress packet = true

/-- Every order of the entries gives every packet the same verdict. -/
def OrderIndependent (entries : List FenceEntry) : Prop :=
  ∀ reordered : List FenceEntry, reordered.Perm entries →
    ∀ packet, forwardVerdict reordered packet = forwardVerdict entries packet

/-- A new connection from the source's container to the destination's web port. -/
def webPacket (source destination : FenceEntry) : Packet where
  saddr := source.containerIp
  daddr := destination.containerIp
  proto := .tcp
  dport := destination.webPort
  ct := .new

/-- Where the source is rendered first, its grants and the private-range rule
decide; where the destination is, its web rule does, whoever sent the packet. -/
theorem grantsCover_of_accepted (separate : SeparateBridges entries)
    (sourceMember : source ∈ entries)
    (destinationMember : destination ∈ entries) (different : source ≠ destination)
    (sent : source.cidr.contains packet.saddr = true)
    (addressed : packet.daddr = destination.containerIp)
    (accepted : firstMatch FenceEntry.decision entries packet = some .accept)
    (granted : entries.Pairwise fun earlier later =>
      grantsCover later.egress (webPacket later earlier) = true) :
    grantsCover source.egress packet = true := by
  induction entries with
  | nil => cases sourceMember
  | cons entry rest ih =>
    by_cases isSource : entry = source
    · subst isSource
      have decided := entry.decision_lateral (separate.own _ destinationMember)
        (separate.disjoint destinationMember sourceMember different.symm
          _ (separate.own _ destinationMember).container)
        (separate.own _ sourceMember) sent addressed
      rw [firstMatch_cons_decided decided] at accepted
      cases covered : grantsCover entry.egress packet with
      | true => rfl
      | false => simp [covered] at accepted
    · by_cases isDestination : entry = destination
      · subst isDestination
        rw [firstMatch_cons_decided (entry.decision_inbound addressed)] at accepted
        have web : entry.web packet = true := by
          cases web : entry.web packet with
          | true => rfl
          | false => simp [web] at accepted
        simp only [FenceEntry.web, Bool.and_eq_true, beq_iff_eq] at web
        have inRest : source ∈ rest := (List.mem_cons.mp sourceMember).resolve_left different
        have covered := (List.pairwise_cons.mp granted).1 source inRest
        simpa [grantsCover, GrantTarget.covers, webPacket, addressed, web.1, web.2] using covered
      · have quiet := separate.silent sourceMember destinationMember List.mem_cons_self isSource
          isDestination sent addressed
        rw [firstMatch_cons_silent quiet] at accepted
        exact ih separate.tail ((List.mem_cons.mp sourceMember).resolve_left (Ne.symm isSource))
          ((List.mem_cons.mp destinationMember).resolve_left (Ne.symm isDestination)) accepted
          (List.pairwise_cons.mp granted).2

theorem webPacket_sent (own : source.OnOwnBridge) :
    source.cidr.contains (webPacket source destination).saddr = true := own.container

theorem webPacket_accepted (separate : SeparateBridges entries) :
    entries.Pairwise fun earlier later =>
      forwardVerdict entries (webPacket later earlier) = .accept := by
  simp only [forwardVerdict_new (show (webPacket _ _).ct = .new from rfl)]
  induction entries with
  | nil => exact .nil
  | cons entry rest ih =>
    refine List.pairwise_cons.mpr ⟨?_, ?_⟩
    · intro later _
      rw [firstMatch_cons_decided (entry.decision_inbound rfl)]
      simp [FenceEntry.web, webPacket]
    · refine (ih separate.tail).imp_of_mem fun {earlier later} earlierMember laterMember accepted => ?_
      have quiet : entry.decision (webPacket later earlier) = none := by
        have apart := (List.pairwise_cons.mp separate.apart).1
        have own := separate.tail.own
        have elsewhere : earlier.containerIp ≠ entry.containerIp := by
          intro same
          have outside := apart earlier earlierMember entry.containerIp
            (separate.own entry List.mem_cons_self).container
          rw [← same, (own earlier earlierMember).container] at outside
          contradiction
        have unsent : entry.cidr.contains later.containerIp = false :=
          symm (apart later laterMember) _ (own later laterMember).container
        simp [FenceEntry.decision, webPacket, elsewhere, unsent]
      rwa [firstMatch_cons_silent quiet]

/-- The rendered order isolates exactly when every project already holds a grant
for the web port of each project rendered before it. -/
theorem isolated_iff (separate : SeparateBridges entries) :
    Isolated entries ↔ entries.Pairwise fun earlier later =>
      grantsCover later.egress (webPacket later earlier) = true := by
  constructor
  · intro isolated
    refine ((webPacket_accepted separate).and separate.apart).imp_of_mem
      fun {earlier later} earlierMember laterMember both => ?_
    obtain ⟨accepted, apart⟩ := both
    have different : later ≠ earlier := by
      rintro rfl
      have outside := apart _ (separate.own _ laterMember).container
      rw [(separate.own _ laterMember).container] at outside
      contradiction
    exact isolated later laterMember earlier earlierMember different _ rfl
      (webPacket_sent (separate.own later laterMember)) rfl accepted
  · intro granted source sourceMember destination destinationMember different packet fresh sent
      addressed accepted
    rw [forwardVerdict_new fresh] at accepted
    have decided : firstMatch FenceEntry.decision entries packet = some .accept := by
      cases verdict : firstMatch FenceEntry.decision entries packet with
      | some value => rw [verdict] at accepted; exact congrArg some accepted
      | none =>
        have undecided := List.findSome?_eq_none_iff.mp verdict destination destinationMember
        rw [destination.decision_inbound addressed] at undecided
        contradiction
    exact grantsCover_of_accepted separate sourceMember destinationMember different sent addressed
      decided granted

/-- A new connection that is neither TCP nor UDP, so that no grant covers it. -/
def pingPacket (source destination : FenceEntry) : Packet :=
  { webPacket source destination with proto := .other, dport := 0 }

theorem pingPacket_ungranted (source destination : FenceEntry) (grants : List EgressGrant) :
    grantsCover grants (pingPacket source destination) = false := by
  simp only [grantsCover, List.any_eq_false, List.mem_filterMap, forall_exists_index, and_imp]
  intro target grant _ opened
  have proto := EgressGrant.target_transport opened
  simp [GrantTarget.covers, pingPacket, proto.symm]

/-- With two fenced projects the order decides between drop and reject. -/
theorem orderIndependent_iff (separate : SeparateBridges entries) :
    OrderIndependent entries ↔ entries.length ≤ 1 := by
  constructor
  · intro independent
    match entries, separate with
    | [], _ => simp
    | [_], _ => simp
    | source :: destination :: rest, separate =>
      exfalso
      have apart : source.Apart destination :=
        (List.pairwise_cons.mp separate.apart).1 destination List.mem_cons_self
      have ownSource := separate.own source List.mem_cons_self
      have ownDestination := separate.own destination (by simp)
      have sent : source.cidr.contains (pingPacket source destination).saddr = true :=
        ownSource.container
      have rejects := source.decision_lateral ownDestination (symm apart _ ownDestination.container)
        ownSource sent rfl
      rw [pingPacket_ungranted] at rejects
      have drops : destination.decision (pingPacket source destination) = some .drop := by
        rw [destination.decision_inbound rfl]
        simp [FenceEntry.web, pingPacket]
      have second : destination ∈ source :: destination :: rest := by simp
      obtain ⟨reordered, perm, verdict, first, differs⟩ :=
        firstMatch_order_matters List.mem_cons_self second rejects drops (by decide)
      have same := independent reordered perm (pingPacket source destination)
      rw [forwardVerdict_new rfl, forwardVerdict_new rfl, first,
        firstMatch_cons_decided rejects] at same
      rw [firstMatch_cons_decided rejects] at differs
      exact differs (congrArg some same.symm)
  · intro short reordered perm packet
    have same : reordered = entries := by
      match entries, short with
      | [], _ => exact List.perm_nil.mp perm
      | [entry], _ => exact List.perm_singleton.mp perm
    rw [same]

/-- Project rows as provisioning stores them: ids before the subnet range wraps,
the bridge subnet derived from the id, and the container on its own bridge. -/
structure Provisioned (projects : List Project) : Prop where
  distinct : (projects.map Project.id).Nodup
  range : ∀ project ∈ projects, 1 ≤ project.id ∧ project.id ≤ 14336
  bridge : ∀ project ∈ projects, ∀ cidr, project.bridgeCidr = some cidr →
    cidr = bridgeCidrForProject project.id
  container : ∀ project ∈ projects, ∀ ip, project.containerIp = some ip →
    (bridgeCidrForProject project.id).contains ip = true

theorem fenceEntry_shape {project : Project}
    (built : fenceEntry project = some entry) :
    entry.id = project.id ∧ project.cidr = some entry.cidr ∧
      project.containerIp = some entry.containerIp := by
  simp only [fenceEntry, Option.ite_none_right_eq_some] at built
  obtain ⟨_, built⟩ := built
  cases cidr : project.cidr with
  | none => simp [cidr] at built
  | some cidr =>
    cases container : project.containerIp with
    | none => simp [container] at built
    | some container =>
      cases web : project.webPort with
      | none => simp [web] at built
      | some web =>
        simp only [cidr, container, web, Option.ite_none_left_eq_some, Option.some.injEq] at built
        obtain ⟨_, rfl⟩ := built
        exact ⟨rfl, rfl, rfl⟩

theorem bridgeCidr_apart {left right : Nat} (leftRange : 1 ≤ left ∧ left ≤ 14336)
    (rightRange : 1 ≤ right ∧ right ≤ 14336) (different : left ≠ right) {ip : Ipv4}
    (inLeft : (bridgeCidrForProject left).contains ip = true) :
    (bridgeCidrForProject right).contains ip = false := by
  by_contra inRight
  simp only [Bool.not_eq_false, Cidr.contains, bridgeCidrForProject, Ipv4.toNat, beq_iff_eq,
    Nat.reduceSub, Nat.reducePow] at inLeft inRight
  omega

namespace Provisioned

variable {projects : List Project}

theorem cidr_eq (provisioned : Provisioned projects) {project : Project} (member : project ∈ projects)
    {cidr : Cidr} (named : project.cidr = some cidr) : cidr = bridgeCidrForProject project.id := by
  cases stored : project.bridgeCidr with
  | some value =>
    simp only [Project.cidr, stored, Option.some_or, Option.some.injEq] at named
    exact named ▸ provisioned.bridge project member value stored
  | none =>
    simp only [Project.cidr, stored, Option.none_or, Option.ite_none_left_eq_some,
      Option.some.injEq] at named
    exact named.2.symm

/-- Provisioned rows with distinct ids give entries on separate bridges. -/
theorem separate (provisioned : Provisioned projects) :
    SeparateBridges (buildFenceEntries projects) where
  own entry member := by
    obtain ⟨project, stored, built⟩ := List.mem_filterMap.mp member
    obtain ⟨_, named, container⟩ := fenceEntry_shape built
    have cidr := provisioned.cidr_eq stored named
    exact ⟨by rw [cidr]; rfl, by rw [cidr]; rfl,
      by rw [cidr]; exact provisioned.container project stored _ container⟩
  apart := by
    refine List.pairwise_filterMap.mpr ((List.pairwise_map.mp provisioned.distinct).imp_of_mem ?_)
    intro left right leftStored rightStored different leftEntry leftBuilt rightEntry rightBuilt ip inLeft
    have leftCidr := provisioned.cidr_eq leftStored (fenceEntry_shape leftBuilt).2.1
    have rightCidr := provisioned.cidr_eq rightStored (fenceEntry_shape rightBuilt).2.1
    rw [leftCidr] at inLeft
    rw [rightCidr]
    exact bridgeCidr_apart (provisioned.range left leftStored) (provisioned.range right rightStored)
      different inLeft

end Provisioned

/-- The rendered fence isolates projects from each other in every order exactly
when at most one project is fenced.  In the order it is rendered in, it isolates
exactly when each later project was granted the web port of each earlier one. -/
theorem renderMock2Nft_isolates_iff {projects : List Project} (provisioned : Provisioned projects) :
    ((Isolated (buildFenceEntries projects) ∧ OrderIndependent (buildFenceEntries projects)) ↔
      (buildFenceEntries projects).length ≤ 1) ∧
    (Isolated (buildFenceEntries projects) ↔
      (buildFenceEntries projects).Pairwise fun earlier later =>
        grantsCover later.egress (webPacket later earlier) = true) := by
  have separate := provisioned.separate
  refine ⟨⟨fun both => (orderIndependent_iff separate).mp both.2, fun short => ?_⟩,
    isolated_iff separate⟩
  refine ⟨(isolated_iff separate).mpr ?_, (orderIndependent_iff separate).mpr short⟩
  match buildFenceEntries projects, short with
  | [], _ => exact .nil
  | [entry], _ => exact List.pairwise_singleton _ entry

/-- An active project with a web port and no grants. -/
def plainProject (id : Nat) (containerIp : Ipv4) : Project where
  id := id
  lifecycle := .active
  bridgeCidr := some (bridgeCidrForProject id)
  containerIp := some containerIp
  webPort := some 3000
  egress := []

/-- Two projects as `listProjects` orders them, the newer first. -/
def twoProjects : List Project := [plainProject 2 ⟨10, 200, 1, 20⟩, plainProject 1 ⟨10, 200, 0, 20⟩]

theorem twoProjects_provisioned : Provisioned twoProjects where
  distinct := by decide
  range := by decide
  bridge := by
    intro project member cidr stored
    simp only [twoProjects, List.mem_cons, List.not_mem_nil, or_false] at member
    rcases member with rfl | rfl <;> exact (Option.some.inj stored).symm
  container := by
    intro project member ip stored
    simp only [twoProjects, List.mem_cons, List.not_mem_nil, or_false] at member
    rcases member with rfl | rfl <;> cases stored <;> decide

theorem renderMock2Nft_isolates_iff_twoProjects :
    ¬ (Isolated (buildFenceEntries twoProjects) ∧ OrderIndependent (buildFenceEntries twoProjects)) :=
  fun both => absurd ((renderMock2Nft_isolates_iff twoProjects_provisioned).1.mp both) (by decide)

/-- The entry of a plain project. -/
def plainEntry (id : Nat) (containerIp : Ipv4) : FenceEntry where
  id := id
  cidr := bridgeCidrForProject id
  gateway := gatewayForCidr (bridgeCidrForProject id)
  containerIp := containerIp
  webPort := 3000
  egress := []

/-- The older project reaches the newer one's web port without any grant. -/
theorem renderMock2Nft_not_isolating :
    ¬ ∀ projects, Provisioned projects →
      Isolated (buildFenceEntries projects) ∧ OrderIndependent (buildFenceEntries projects) := by
  intro claimed
  have isolated := (claimed twoProjects twoProjects_provisioned).1
  have entries : buildFenceEntries twoProjects =
      [plainEntry 2 ⟨10, 200, 1, 20⟩, plainEntry 1 ⟨10, 200, 0, 20⟩] := rfl
  rw [entries] at isolated
  have covered := isolated (plainEntry 1 ⟨10, 200, 0, 20⟩) (by simp)
    (plainEntry 2 ⟨10, 200, 1, 20⟩) (by simp) (by decide) (webPacket (plainEntry 1 ⟨10, 200, 0, 20⟩)
      (plainEntry 2 ⟨10, 200, 1, 20⟩)) rfl (by decide) rfl (by decide)
  exact absurd covered (by decide)

end ProxyPilot.Mock2
