import ProxyPilot.Data.History
import ProxyPilot.Sso.Machine

namespace ProxyPilot.Sso

open Data

/-- Linked to the user, and checked no longer ago than the deadline says. -/
def Backed (links : Table Link) (history : List Event) (userId : String) (central : Central) : Prop :=
  links.get (central.issuer, central.subject) = some ⟨central.issuer, central.subject, userId⟩ ∧
    ∃ started existing, .answered started central.issuer central.subject true existing ∈ history ∧
      central.checkedUntil ≤ started + revocationMs

/-- No request passes with this session any more. -/
def Dead (sessions : Table Session) (now : Nat) (id : String) : Prop :=
  ∀ session, sessions.get id = some session → session.revoked = true ∨ session.expiresAt ≤ now

/-- A callback that opens no session. -/
def Blocked (sessions : Table Session) (flow : Flow) : Prop :=
  flow.action = .link ∨ flow.action = .sudo ∨
    ∃ id session, flow.sessionId = some id ∧ sessions.get id = some session ∧ session.revoked = true

def Law (before : List Event) : Event → Prop
  | .began flow =>
    flow.expiresAt = flow.startedAt + proofMs ∧ ∀ other, .began other ∈ before → other.state ≠ flow.state
  | .spent flow browser time fingerprint accepted =>
    .began flow ∈ before ∧
      (∀ other browser time fingerprint accepted, .spent other browser time fingerprint accepted ∈
        before → other.state ≠ flow.state) ∧
      (accepted = true → browser = flow.browserHash ∧ time < flow.startedAt + proofMs ∧
        fingerprint = flow.fingerprint)
  | .answered .. => True

def Unbegun (history : List Event) (state : String) : Prop := ∀ flow, .began flow ∈ history → flow.state ≠ state

def Unspent (history : List Event) (state : String) : Prop :=
  ∀ flow browser time fingerprint accepted, .spent flow browser time fingerprint accepted ∈
    history → flow.state ≠ state

/-- The session of a refresh is there, as it was when the refresh began. -/
def Refresh.Valid (contexts : Table Context) (refresh : Refresh) : Prop :=
  (∃ context central, contexts.get refresh.sessionId = some context ∧ context.central = some central ∧
    central.issuer = refresh.central.issuer ∧ central.subject = refresh.central.subject) ∧
    ∀ started, refresh.stage = .checking started → refresh.began ≤ started

structure Sound (s : State) : Prop where
  backed : ∀ id context central, s.contexts.get id = some context → context.central = some central →
    Backed s.links s.history context.userId central
  stored : ∀ id context, s.contexts.get id = some context →
    ∃ session, s.sessions.get id = some session ∧ context.userId = session.userId
  fingerprinted : ∀ id context central session, s.contexts.get id = some context → context.central = some central →
    s.sessions.get id = some session → session.revoked = false →
      s.config.map Config.fingerprint = some central.fingerprint
  refreshing : ∀ id refresh, s.refreshes.get id = some refresh → refresh.Valid s.contexts ∧ refresh.began ≤ s.now
  awaited : ∀ thread callback, s.callbacks.get thread = some callback → ∀ subject started,
    callback.stage = .refreshing subject started →
      (∃ existing, .answered started callback.fingerprint.bound.issuer subject true existing ∈ s.history) ∧
        (s.config.map Config.fingerprint = some callback.fingerprint ∨ Blocked s.sessions callback.flow)
  dead : ∀ started issuer subject existing, .answered started issuer subject false existing ∈ s.history →
    ∀ id ∈ existing, (s.contexts.get id).isSome = true ∧ Dead s.sessions s.now id
  lawful : Obeys Law s.history
  flows : ∀ flow ∈ s.flows.rows, .began flow ∈ s.history ∧ Unspent s.history flow.state
  building : ∀ begin' ∈ s.begins.rows, ∀ state startedAt, begin'.stage = .building state startedAt →
    Unbegun s.history state
  apart : ∀ begin' ∈ s.begins.rows, ∀ other ∈ s.begins.rows, ∀ state startedAt otherAt,
    begin'.stage = .building state startedAt →
    other.stage = .building state otherAt → begin' = other

variable {s : State}

/-- A session may slide, gain sudo or be revoked. -/
def Session.Ages (old new : Session) : Prop :=
  new.userId = old.userId ∧ new.expiresAt = old.expiresAt ∧ (old.revoked = true → new.revoked = true)

structure Ages (before after : Table Session) : Prop where
  kept : Table.Grows Session.Ages before after
  absent : ∀ id, before.get id = none → after.get id = none

theorem Session.Ages.refl (session : Session) : session.Ages session := ⟨rfl, rfl, fun revoked => revoked⟩

variable {before after : Table Session} {id : String} {flow : Flow}

theorem Ages.back (ages : Ages before after) {new : Session} (found : after.get id = some new) :
    ∃ old, before.get id = some old ∧ old.Ages new := by
  cases known : before.get id with
  | none =>
    rw [ages.absent id known] at found
    contradiction
  | some old =>
    obtain ⟨other, found', aged⟩ := ages.kept id old known
    cases found.symm.trans found'
    exact ⟨old, rfl, aged⟩

variable {now : Nat} {sessions : Table Session} {event other : Event}

theorem Ages.dead (ages : Ages before after) (dead : Dead before now id) :
    Dead after now id := by
  intro new found
  obtain ⟨old, known, _, expires, revoked⟩ := ages.back found
  exact (dead old known).imp revoked fun past => expires ▸ past

theorem Ages.blocked (ages : Ages before after) (blocked : Blocked before flow) :
    Blocked after flow := by
  refine blocked.imp_right (.imp_right fun ⟨id, session, named, found, revoked⟩ => ?_)
  obtain ⟨new, found', _, _, aged⟩ := ages.kept id session found
  exact ⟨id, new, named, found', aged revoked⟩

theorem Ages.put {before : Table Session} {old new : Session} (found : before.get new.id = some old)
    (aged : old.Ages new) :
    Ages before (before.put new) where
  kept := .put Session.Ages.refl fun other same => by
    cases found.symm.trans same
    exact aged
  absent := fun id none => by
    rw [Table.get_put]
    split
    case isTrue same =>
        rw [show before.get id = some old from same ▸ found] at none
        contradiction
    case isFalse => exact none

theorem revoke_ages (s : State) (chosen : String → Bool) : Ages s.sessions (s.revokeWhere chosen).sessions where
  kept := by
    refine Table.Grows.map _ (Session.revokeIf_key chosen) fun session _ => ?_
    unfold Session.revokeIf
    split
    · exact ⟨rfl, rfl, fun _ => rfl⟩
    · exact .refl session
  absent := fun id none => by
    rw [State.revokeWhere, Table.get_map, none]
    rfl

theorem revokeWhere_get {chosen : String → Bool} {session : Session}
    (found : (s.revokeWhere chosen).sessions.get id = some session) (among : chosen id = true) :
    session.revoked = true := by
  rw [State.revokeWhere, Table.get_map] at found
  obtain ⟨old, known, same⟩ := Option.map_eq_some_iff.mp found
  have named : old.id = id := Table.get_key known
  rw [Session.revokeIf, if_pos (named ▸ among)] at same
  exact same ▸ rfl

theorem Sound.aged (sound : Sound s) (ages : Ages s.sessions sessions) : Sound { s with sessions := sessions } :=
  { sound with
    stored := fun id context found => by
      obtain ⟨session, known, same⟩ := sound.stored id context found
      obtain ⟨new, found', user, _⟩ := ages.kept id session known
      exact ⟨new, found', same.trans user.symm⟩
    fingerprinted := fun id context central session found named known unrevoked => by
      obtain ⟨old, known', _, _, revoked⟩ := ages.back known
      refine sound.fingerprinted id context central old found named known' (Bool.eq_false_iff.mpr fun was => ?_)
      rw [revoked was] at unrevoked
      contradiction
    awaited := fun thread callback found subject started stage =>
      ⟨(sound.awaited thread callback found subject started stage).1,
        (sound.awaited thread callback found subject started stage).2.imp_right ages.blocked⟩
    dead := fun started issuer subject existing member id listed =>
      ⟨(sound.dead started issuer subject existing member id listed).1,
        ages.dead (sound.dead started issuer subject existing member id listed).2⟩ }

theorem Sound.revoked (sound : Sound s) (chosen : String → Bool) : Sound (s.revokeWhere chosen) :=
  sound.aged (revoke_ages s chosen)

theorem Dead.later (dead : Dead sessions now id) (ms : Nat) :
    Dead sessions (now + ms) id :=
  fun session found => (dead session found).imp_right fun past => Nat.le_add_right_of_le past

theorem Sound.tick (sound : Sound s) (ms : Nat) : Sound { s with now := s.now + ms } :=
  { sound with
    refreshing := fun id refresh found =>
      ⟨(sound.refreshing id refresh found).1, Nat.le_add_right_of_le (sound.refreshing id refresh found).2⟩
    dead := fun started issuer subject existing member id listed =>
      ⟨(sound.dead started issuer subject existing member id listed).1,
        (sound.dead started issuer subject existing member id listed).2.later ms⟩ }

theorem mem_note : other ∈ (s.note event).history ↔ other ∈ s.history ∨ other = event := by
  simp [State.note]

/-- A note of another event adds nothing that was not there. -/
theorem mem_of_note (member : other ∈ (s.note event).history) (differ : other ≠ event) : other ∈ s.history :=
  (mem_note.mp member).resolve_right differ

theorem Backed.snoc {links : Table Link} {history : List Event} {userId : String} {central : Central}
    (backed : Backed links history userId central) (event : Event) :
    Backed links (history ++ [event]) userId central := by
  obtain ⟨linked, started, existing, member, limit⟩ := backed
  exact ⟨linked, started, existing, List.mem_append_left _ member, limit⟩

/-- An answer, with every session of the subject dead if it said disabled. -/
theorem Sound.answered (sound : Sound s) {started : Nat} {issuer subject : String} {enabled : Bool}
    (dead : enabled = false → ∀ id ∈ s.existing issuer subject, Dead s.sessions s.now id) :
    Sound (s.note (.answered started issuer subject enabled (s.existing issuer subject))) :=
  { sound with
    backed := fun id context central found named => (sound.backed id context central found named).snoc _
    awaited := fun thread callback found subject started stage => by
      obtain ⟨⟨existing, member⟩, current⟩ := sound.awaited thread callback found subject started stage
      exact ⟨⟨existing, List.mem_append_left _ member⟩, current⟩
    dead := fun started' issuer' subject' existing member id listed => by
      rcases mem_note.mp member with old | same
      · exact sound.dead started' issuer' subject' existing old id listed
      · cases same
        refine ⟨?_, dead rfl id listed⟩
        obtain ⟨_, belongs⟩ := List.mem_filter.mp listed
        simp only [State.belongs, State.centralOf, Option.any_eq_true] at belongs
        obtain ⟨central, bound, _⟩ := belongs
        obtain ⟨context, found, _⟩ := Option.bind_eq_some_iff.mp bound
        exact found ▸ rfl
    lawful := sound.lawful.snoc trivial
    flows := fun flow member => by
      obtain ⟨began, unspent⟩ := sound.flows flow member
      refine ⟨List.mem_append_left _ began, fun other browser time fingerprint accepted spent => ?_⟩
      exact unspent other browser time fingerprint accepted (mem_of_note spent (by simp))
    building := fun started member state startedAt stage flow began =>
      sound.building started member state startedAt stage flow (mem_of_note began (by simp)) }

theorem Sound.began (sound : Sound s) (limit : flow.expiresAt = flow.startedAt + proofMs)
    (new : Unbegun s.history flow.state)
    (apart : ∀ started ∈ s.begins.rows, ∀ startedAt, started.stage ≠ .building flow.state startedAt) :
    Sound ({ s with flows := s.flows.put flow }.note (.began flow)) :=
  { sound with
    backed := fun id context central found named => (sound.backed id context central found named).snoc _
    awaited := fun thread callback found subject started stage => by
      obtain ⟨⟨existing, member⟩, current⟩ := sound.awaited thread callback found subject started stage
      exact ⟨⟨existing, List.mem_append_left _ member⟩, current⟩
    dead := fun started issuer subject existing member =>
      sound.dead started issuer subject existing (mem_of_note member (by simp))
    lawful := sound.lawful.snoc ⟨limit, new⟩
    flows := fun other member => by
      have earlier : ∀ state, Unspent s.history state → Unspent (s.history ++ [.began flow]) state := by
        intro state unspent other browser time fingerprint accepted spent
        exact unspent other browser time fingerprint accepted (mem_of_note spent (by simp))
      rcases Table.mem_put.mp member with rfl | ⟨stored, _⟩
      · refine ⟨List.mem_append_right _ List.mem_cons_self,
          earlier _ fun spent browser time fingerprint accepted member same => ?_⟩
        obtain ⟨before, within, law, _⟩ := sound.lawful.of_mem member
        exact new spent (within law) same
      · exact ⟨List.mem_append_left _ (sound.flows other stored).1, earlier _ (sound.flows other stored).2⟩
    building := fun started member state startedAt stage other began => by
      rcases mem_note.mp began with old | same
      · exact sound.building started member state startedAt stage other old
      · cases same
        intro same
        exact apart started member startedAt (same ▸ stage) }

theorem Sound.spent (sound : Sound s) (member : flow ∈ s.flows.rows) {browser : String} {fingerprint : Fingerprint}
    {accepted : Bool} (matched : accepted = true → browser = flow.browserHash ∧
    s.now < flow.expiresAt ∧ fingerprint = flow.fingerprint) :
    Sound ({ s with flows := s.flows.erase flow.state }.note (.spent flow browser s.now fingerprint accepted)) := by
  obtain ⟨began, unspent⟩ := sound.flows flow member
  obtain ⟨before, _, limit, _⟩ := sound.lawful.of_mem began
  exact
  { sound with
    backed := fun id context central found named => (sound.backed id context central found named).snoc _
    awaited := fun thread callback found subject started stage => by
      obtain ⟨⟨existing, member⟩, current⟩ := sound.awaited thread callback found subject started stage
      exact ⟨⟨existing, List.mem_append_left _ member⟩, current⟩
    dead := fun started issuer subject existing member =>
      sound.dead started issuer subject existing (mem_of_note member (by simp))
    lawful := sound.lawful.snoc ⟨began, unspent, fun taken => by
      obtain ⟨same, early, current⟩ := matched taken
      exact ⟨same, limit ▸ early, current⟩⟩
    flows := fun other member' => by
      obtain ⟨stored, different⟩ := List.mem_filter.mp member'
      obtain ⟨began', unspent'⟩ := sound.flows other stored
      refine ⟨List.mem_append_left _ began', fun spent browser time fingerprint accepted member'' => ?_⟩
      rcases mem_note.mp member'' with old | same
      · exact unspent' spent browser time fingerprint accepted old
      · cases same
        intro same
        simp [Keyed.key, same] at different
    building := fun started member state startedAt stage other began =>
      sound.building started member state startedAt stage other (mem_of_note began (by simp)) }

end ProxyPilot.Sso
