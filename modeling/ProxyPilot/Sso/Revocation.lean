import ProxyPilot.Sso.Soundness

namespace ProxyPilot.Sso

open Data Transition

variable {limits : Limits} {s after : State}

variable {context : Context} {central : Central} {limit : Nat} {sessionId : String}
  {refresh : Refresh} {state : String} {id : String} {callback : Callback}

/-- A new session, with the context it opens under. -/
theorem Sound.opened (sound : Sound s) {session : Session} (fresh : s.freshSession session.id = true)
    (same : context.sessionId = session.id) (owner : context.userId = session.userId)
    (backed : ∀ central, context.central = some central → Backed s.links s.history context.userId central ∧
      s.config.map Config.fingerprint = some central.fingerprint) :
    Sound { s with sessions := s.sessions.put session, contexts := s.contexts.put context } := by
  have unknown : s.sessions.get session.id = none ∧ s.contexts.get session.id = none := by
    simpa [State.freshSession] using fresh
  have sessions : ∀ id, id ≠ session.id → (s.sessions.put session).get id = s.sessions.get id :=
    fun id other => Table.get_put_other s.sessions other
  have contexts : ∀ id, id ≠ session.id → (s.contexts.put context).get id = s.contexts.get id :=
    fun id other => Table.get_put_other s.contexts (by rwa [show Keyed.key context = session.id from same])
  have newSession : (s.sessions.put session).get session.id = some session := Table.get_put_self _ _
  have newContext : (s.contexts.put context).get session.id = some context := same ▸ Table.get_put_self _ _
  have known : ∀ {id context'}, s.contexts.get id = some context' → id ≠ session.id := fun found equal => by
    rw [equal, unknown.2] at found
    contradiction
  have present : ∀ {id session'}, s.sessions.get id = some session' → id ≠ session.id := fun found equal => by
    rw [equal, unknown.1] at found
    contradiction
  exact
  { sound with
    backed := fun id context' central found named => by
      by_cases here : id = session.id
      · rw [here, newContext] at found
        cases found
        exact (backed central named).1
      · exact sound.backed id context' central (contexts id here ▸ found) named
    stored := fun id context' found => by
      by_cases here : id = session.id
      · rw [here, newContext] at found
        cases found
        exact ⟨session, here ▸ newSession, owner⟩
      · obtain ⟨session', known, same⟩ := sound.stored id context' (contexts id here ▸ found)
        exact ⟨session', (sessions id here).trans known, same⟩
    fingerprinted := fun id context' central session' found named stored unrevoked => by
      by_cases here : id = session.id
      · rw [here, newContext] at found
        cases found
        exact (backed central named).2
      · exact sound.fingerprinted id context' central session' (contexts id here ▸ found) named
          (sessions id here ▸ stored) unrevoked
    refreshing := fun id refresh found => by
      obtain ⟨⟨⟨context', central, there, rest⟩, began⟩, past⟩ := sound.refreshing id refresh found
      exact ⟨⟨⟨context', central, (contexts _ (known there)).trans there, rest⟩, began⟩, past⟩
    awaited := fun thread callback found subject started stage => by
      obtain ⟨checked, current⟩ := sound.awaited thread callback found subject started stage
      refine ⟨checked, current.imp_right (.imp_right (.imp_right ?_))⟩
      rintro ⟨id, session', named, there, revoked⟩
      exact ⟨id, session', named, (sessions id (present there)).trans there, revoked⟩
    dead := fun started issuer subject existing member id listed => by
      obtain ⟨some', dead⟩ := sound.dead started issuer subject existing member id listed
      obtain ⟨context', there⟩ := Option.isSome_iff_exists.mp some'
      have other := known there
      exact ⟨(contexts id other).symm ▸ some', fun session' found => dead session' (sessions id other ▸ found)⟩ }

/-- Contexts that stay what they are but for a proof or a deadline. -/
theorem Sound.recontexted (sound : Sound s) {contexts : Table Context}
    (old : ∀ id context, contexts.get id = some context →
    ∃ before, s.contexts.get id = some before ∧ context.userId = before.userId ∧
      ∀ central, context.central = some central → ∃ was, before.central = some was ∧
        central.fingerprint = was.fingerprint ∧
        Backed s.links s.history context.userId central)
    (new : ∀ id before, s.contexts.get id = some before → ∃ context, contexts.get id = some context ∧
      ∀ was, before.central = some was → ∃ central, context.central = some central ∧ central.issuer = was.issuer ∧
        central.subject = was.subject) :
    Sound { s with contexts := contexts } :=
  { sound with
    backed := fun id context central found named => by
      obtain ⟨before, _, _, backed⟩ := old id context found
      obtain ⟨_, _, _, there⟩ := backed central named
      exact there
    stored := fun id context found => by
      obtain ⟨before, there, user, _⟩ := old id context found
      obtain ⟨session, known, same⟩ := sound.stored id before there
      exact ⟨session, known, user.trans same⟩
    fingerprinted := fun id context central session found named stored unrevoked => by
      obtain ⟨before, there, _, backed⟩ := old id context found
      obtain ⟨was, bound, same, _⟩ := backed central named
      exact same ▸ sound.fingerprinted id before was session there bound stored unrevoked
    refreshing := fun id refresh found => by
      obtain ⟨⟨⟨before, was, there, bound, issuer, subject⟩, began⟩, past⟩ := sound.refreshing id refresh found
      obtain ⟨context, found', kept⟩ := new _ before there
      obtain ⟨central, named, issuer', subject'⟩ := kept was bound
      exact ⟨⟨⟨context, central, found', named, issuer'.trans issuer, subject'.trans subject⟩, began⟩, past⟩
    dead := fun started issuer subject existing member id listed => by
      obtain ⟨some', dead⟩ := sound.dead started issuer subject existing member id listed
      obtain ⟨before, there⟩ := Option.isSome_iff_exists.mp some'
      obtain ⟨context, found, _⟩ := new id before there
      exact ⟨found ▸ rfl, dead⟩ }

theorem Method.extend_oidc {method : Method} (named : method.extend limit = .oidc central) :
    ∃ was, method = .oidc was ∧ central = { was with checkedUntil := limit } := by
  cases method with
  | oidc was =>
    cases named
    exact ⟨was, rfl, rfl⟩
  | localAccount | linkOnly | ldap => cases named

theorem central_eq : context.central = some central ↔ context.method = .oidc central := by
  unfold Context.central
  cases context.method <;> simp

theorem extend_central
    (named : (context.extend sessionId limit).central = some central) : ∃ was, context.central = some was ∧
      central = if context.sessionId = sessionId then { was with checkedUntil := limit } else was := by
  have method := central_eq.mp named
  simp only [Context.extend] at method
  split at method
  case isTrue here =>
      obtain ⟨was, same, rfl⟩ := Method.extend_oidc method
      exact ⟨was, central_eq.mpr same, (if_pos here).symm⟩
  case isFalse here => exact ⟨central, central_eq.mpr method, (if_neg here).symm⟩

theorem central_extend {was : Central} (bound : context.central = some was) :
    ∃ central, (context.extend sessionId limit).central = some central ∧
      central.issuer = was.issuer ∧ central.subject = was.subject := by
  have method := central_eq.mp bound
  by_cases here : context.sessionId = sessionId
  · exact ⟨{ was with checkedUntil := limit },
      central_eq.mpr (by simp only [Context.extend, if_pos here, method, Method.extend]), rfl, rfl⟩
  · exact ⟨was, central_eq.mpr (by simp only [Context.extend, if_neg here, method]), rfl, rfl⟩

variable {existing : List String} {enabled : Option Bool} {subject : String}

theorem Sound.extended (sound : Sound s) {limit started : Nat} {issuer subject : String}
    (named : ∀ context central, s.contexts.get sessionId = some context → context.central = some central →
      central.issuer = issuer ∧ central.subject = subject)
    (checked : .answered started issuer subject true existing ∈ s.history)
    (bounded : limit ≤ started + revocationMs) :
    Sound (s.extend sessionId limit) := by
  have get : ∀ id, (s.extend sessionId limit).contexts.get id =
      (s.contexts.get id).map (Context.extend sessionId limit) :=
    Table.get_map s.contexts (Context.extend sessionId limit) fun _ => rfl
  refine sound.recontexted (fun id context found => ?_) fun id before there => ?_
  · obtain ⟨before, there, rfl⟩ := Option.map_eq_some_iff.mp ((get id).symm.trans found)
    refine ⟨before, there, rfl, fun central now => ?_⟩
    obtain ⟨was, bound, rfl⟩ := extend_central now
    refine ⟨was, bound, by split <;> rfl, ?_⟩
    obtain ⟨linked, rest⟩ := sound.backed id before was there bound
    split
    case isTrue here =>
        have key : before.sessionId = id := Table.get_key there
        obtain ⟨rfl, rfl⟩ := named before was (by rw [← here, key]; exact there) bound
        exact ⟨linked, started, existing, checked, bounded⟩
    case isFalse => exact ⟨linked, rest⟩
  · refine ⟨before.extend sessionId limit, (get id).trans (by rw [there]; rfl),
      fun was bound => central_extend bound⟩

theorem Sound.proved (sound : Sound s) (found : s.contexts.get context.sessionId = some context)
    (other : context.central = none) (time : Nat) :
    Sound { s with contexts := s.contexts.put { context with localProofAt := some time } } := by
  have get : ∀ id, (s.contexts.put { context with localProofAt := some time }).get id =
      if id = context.sessionId then some { context with localProofAt := some time }
        else s.contexts.get id := fun id => Table.get_put _ _ id
  refine sound.recontexted (fun id context' found' => ?_) fun id before there => ?_
  · rw [get] at found'
    split at found'
    case isTrue here =>
        cases found'
        refine ⟨context, here ▸ found, rfl, fun central now => ?_⟩
        rw [show Context.central { context with localProofAt := some time } =
          context.central from rfl, other] at now
        contradiction
    case isFalse =>
      exact ⟨context', found', rfl,
        fun central now => ⟨central, now, rfl, sound.backed id context' central found' now⟩⟩
  · by_cases here : id = context.sessionId
    · subst here
      cases found.symm.trans there
      refine ⟨_, by rw [get, if_pos rfl], fun was bound => ?_⟩
      rw [other] at bound
      contradiction
    · exact ⟨before, by rw [get, if_neg here]; exact there, fun was bound => ⟨was, bound, rfl, rfl⟩⟩

theorem Sound.linked (sound : Sound s) {link : Link} (new : s.links.get (link.issuer, link.subject) = none) :
    Sound { s with links := s.links.put link } :=
  { sound with
    backed := fun id context central found named => by
      obtain ⟨linked, rest⟩ := sound.backed id context central found named
      refine ⟨(Table.get_put_other s.links fun same => ?_).trans linked, rest⟩
      rw [same] at linked
      rw [show Keyed.key link = (link.issuer, link.subject) from rfl, new] at linked
      contradiction }

theorem Sound.endRefresh (sound : Sound s) (sessionId : String) : Sound (s.endRefresh sessionId) :=
  { sound with
    refreshing := fun id refresh found => by
      rw [State.endRefresh, Table.get_erase] at found
      split at found
      · contradiction
      · exact sound.refreshing id refresh found }

theorem Sound.refreshed (sound : Sound s) (valid : refresh.Valid s.contexts) (past : refresh.began ≤ s.now) :
    Sound { s with refreshes := s.refreshes.put refresh } :=
  { sound with
    refreshing := fun id other found => by
      rw [Table.get_put] at found
      split at found
      · cases found
        exact ⟨valid, past⟩
      · exact sound.refreshing id other found }

theorem Sound.endCallback (sound : Sound s) (thread : Nat) : Sound (s.endCallback thread) :=
  { sound with
    awaited := fun other callback found => by
      rw [State.endCallback, Table.get_erase] at found
      split at found
      · contradiction
      · exact sound.awaited other callback found }

theorem Sound.called (sound : Sound s) {callback : Callback}
    (valid : ∀ subject started, callback.stage = .refreshing subject started →
      (∃ existing, .answered started callback.fingerprint.bound.issuer subject true existing ∈ s.history) ∧
        (s.config.map Config.fingerprint = some callback.fingerprint ∨ Blocked s.sessions callback.flow)) :
    Sound { s with callbacks := s.callbacks.put callback } :=
  { sound with
    awaited := fun other found here => by
      rw [Table.get_put] at here
      split at here
      · cases here
        exact valid
      · exact sound.awaited other found here }

theorem Sound.endBegin (sound : Sound s) (thread : Nat) : Sound (s.endBegin thread) :=
  { sound with
    building := fun started member => sound.building started (List.mem_filter.mp member).1
    apart := fun started member other member' =>
      sound.apart started (List.mem_filter.mp member).1 other (List.mem_filter.mp member').1 }

theorem Sound.started (sound : Sound s) {started : Begin} (verifying : started.stage = .verifying) :
    Sound { s with begins := s.begins.put started } :=
  { sound with
    building := fun other member state startedAt stage => by
      rcases Table.mem_put.mp member with rfl | ⟨stored, _⟩
      · rw [verifying] at stage
        contradiction
      · exact sound.building other stored state startedAt stage
    apart := fun first member second member' state startedAt otherAt stage stage' => by
      rcases Table.mem_put.mp member with rfl | ⟨stored, _⟩
      · rw [verifying] at stage
        contradiction
      · rcases Table.mem_put.mp member' with rfl | ⟨stored', _⟩
        · rw [verifying] at stage'
          contradiction
        · exact sound.apart first stored second stored' state startedAt otherAt stage stage' }

theorem freshState_spec (fresh : s.freshState state = true) : Unbegun s.history state ∧
    ∀ started ∈ s.begins.rows, ∀ startedAt, started.stage ≠ .building state startedAt := by
  simp only [State.freshState, Bool.and_eq_true, Bool.not_eq_true', List.any_eq_false] at fresh
  refine ⟨fun flow began same => ?_, fun started member startedAt stage => ?_⟩
  · have other := fresh.1 _ began
    simp [same] at other
  · have other := fresh.2 started member
    rw [stage] at other
    simp at other

theorem Sound.built (sound : Sound s) {started : Begin} (fresh : s.freshState state = true) (time : Nat) :
    Sound { s with begins := s.begins.put { started with stage := .building state time } } := by
  obtain ⟨unbegun, alone⟩ := freshState_spec fresh
  exact
  { sound with
    building := fun other member state' startedAt stage => by
      rcases Table.mem_put.mp member with rfl | ⟨stored, _⟩
      · cases stage
        exact unbegun
      · exact sound.building other stored state' startedAt stage
    apart := fun first member second member' state' startedAt otherAt stage stage' => by
      rcases Table.mem_put.mp member with rfl | ⟨stored, _⟩
      · cases stage
        rcases Table.mem_put.mp member' with rfl | ⟨stored', _⟩
        · rfl
        · exact absurd stage' (alone second stored' otherAt)
      · rcases Table.mem_put.mp member' with rfl | ⟨stored', _⟩
        · cases stage'
          exact absurd stage (alone first stored startedAt)
        · exact sound.apart first stored second stored' state' startedAt otherAt stage stage' }

theorem current_fingerprint {fingerprint : Fingerprint} (current : s.current fingerprint = true) :
    s.config.map Config.fingerprint = some fingerprint := by
  simp only [State.current, Option.any_eq_true, Bool.and_eq_true, beq_iff_eq] at current
  obtain ⟨config, known, same, _⟩ := current
  rw [known, Option.map_some, same]

theorem isCentral_iff : s.isCentral id = true ↔ ∃ context central,
    s.contexts.get id = some context ∧ context.central = some central := by
  simp only [State.isCentral, State.centralOf, Option.isSome_iff_exists, Option.bind_eq_some_iff]
  constructor
  · rintro ⟨central, context, found, named⟩
    exact ⟨context, central, found, named⟩
  · rintro ⟨context, central, found, named⟩
    exact ⟨central, context, found, named⟩

theorem Sound.configured (sound : Sound s) {config : Option Config}
    (same : config.map Config.fingerprint = s.config.map Config.fingerprint) :
    Sound { s with config := config } :=
  { sound with
    fingerprinted := fun id context central session found named stored unrevoked =>
      same.trans (sound.fingerprinted id context central session found named stored unrevoked)
    awaited := fun thread callback found subject started stage =>
      ⟨(sound.awaited thread callback found subject started stage).1,
        (sound.awaited thread callback found subject started stage).2.imp_left same.trans⟩ }

theorem Sound.fewer (sound : Sound s) {flows : Table Flow}
    (kept : ∀ flow ∈ flows.rows, flow ∈ s.flows.rows) : Sound { s with flows := flows } :=
  { sound with flows := fun flow member => sound.flows flow (kept flow member) }

def CallbackStage.waits : CallbackStage → Bool
  | .refreshing .. => true
  | _ => false

/-- Whether a callback that waits for the check of its session can only end without a new session
once that session is revoked. -/
def Callback.Safe (s : State) (callback : Callback) : Prop :=
  callback.flow.action = .link ∨ callback.flow.action = .sudo ∨ callback.flow.sessionId.any s.isCentral = true

instance (callback : Callback) : Decidable (callback.Safe s) := inferInstanceAs (Decidable (_ ∨ _ ∨ _))

theorem Callback.Safe.blocked (sound : Sound s) (safe : callback.Safe s) :
    Blocked (s.revokeWhere s.isCentral).sessions callback.flow := by
  refine safe.imp_right (.imp_right fun central => ?_)
  obtain ⟨id, named, central⟩ := (Option.any_eq_true ..).mp central
  obtain ⟨context, _, found, _⟩ := isCentral_iff.mp central
  obtain ⟨session, stored, _⟩ := sound.stored id context found
  obtain ⟨new, there, _⟩ := (revoke_ages s s.isCentral).kept id session stored
  exact ⟨id, new, named, there, revokeWhere_get there central⟩

theorem Sound.saved (sound : Sound s) {config : Config}
    (safe : ∀ callback ∈ s.callbacks.rows, callback.stage.waits = true → callback.Safe s) :
    Sound { s.revokeWhere s.isCentral with config := some config, flows := ∅ } :=
  { sound.revoked s.isCentral with
    fingerprinted := fun id context central session found named stored unrevoked => by
      rw [revokeWhere_get stored (isCentral_iff.mpr ⟨context, central, found, named⟩)] at unrevoked
      contradiction
    awaited := fun thread callback found subject started stage =>
      ⟨(sound.awaited thread callback found subject started stage).1,
        .inr ((safe callback (Table.get_mem found) (by rw [stage]; rfl)).blocked sound)⟩
    flows := fun flow member => nomatch member }

theorem saveConfig_sound (sound : Sound s) (expectedRevision : Nat) (bound : Bound) (valid : Bool)
    (safe : ∀ callback ∈ s.callbacks.rows, callback.stage.waits = true → callback.Safe s) :
    Sound (saveConfig s expectedRevision bound valid) := by
  simp only [saveConfig]
  split
  · exact sound
  · exact sound.saved safe

theorem disableSso_sound (sound : Sound s) : Sound (disableSso s) := by
  have configured :
      Sound { s.revokeWhere s.isCentral with config := s.config.map fun config =>
      { config with active := false } } :=
    (sound.revoked s.isCentral).configured (by rw [Option.map_map]; rfl)
  exact { configured with flows := fun flow member => nomatch member }

theorem activate_sound (sound : Sound s) (fingerprint : Fingerprint) : Sound (activate s fingerprint) := by
  unfold activate
  split
  · exact (sound.revoked _).configured (by rw [Option.map_map]; rfl)
  · exact sound

theorem startRefresh_sound (sound : Sound s) (sessionId : String) : Sound (startRefresh s sessionId) := by
  unfold startRefresh
  split
  case h_1 central session named found =>
      split
      · exact sound
      · obtain ⟨context, there, bound⟩ := Option.bind_eq_some_iff.mp named
        exact sound.refreshed ⟨⟨context, central, there, bound, rfl, rfl⟩,
          fun _ wrong => by contradiction⟩ (Nat.le_refl _)
  case h_2 => exact sound

theorem refreshVerified_sound (sound : Sound s)
    (found : s.refreshes.get refresh.sessionId = some refresh) (valid : Bool) :
    Sound (refreshVerified s refresh valid) := by
  obtain ⟨⟨there, _⟩, past⟩ := sound.refreshing _ refresh found
  unfold refreshVerified
  split
  · exact sound.refreshed ⟨there, fun started stage => by cases stage; exact past⟩ past
  · exact sound.endRefresh _

theorem mem_existing {issuer subject id : String} (member : id ∈ s.existing issuer subject) :
    s.belongs issuer subject id = true :=
  (List.mem_filter.mp member).2

theorem refreshAnswered_sound (sound : Sound s)
    (found : s.refreshes.get refresh.sessionId = some refresh) {started : Nat}
    (checking : refresh.stage = .checking started)
    (heeded : enabled = some false → s.current refresh.central.fingerprint = true ∨
      ∀ id ∈ s.existing refresh.central.issuer refresh.central.subject, Dead s.sessions s.now id) :
    Sound (refreshAnswered s refresh started enabled) := by
  obtain ⟨⟨⟨context, central, there, named, issuer, subject⟩, began⟩, _⟩ := sound.refreshing _ refresh found
  have done := sound.endRefresh refresh.sessionId
  cases enabled with
  | none => exact done
  | some enabled =>
    simp only [refreshAnswered]
    split
    case isTrue yes =>
        refine done.answered fun disabled => ?_
        subst disabled
        exact (heeded rfl).resolve_left (by rw [yes]; exact Bool.false_ne_true)
    case isFalse =>
        split
        case isTrue yes =>
            subst yes
            have noted :
                Sound ((s.endRefresh refresh.sessionId).note
                (.answered started refresh.central.issuer refresh.central.subject true
                (s.existing refresh.central.issuer refresh.central.subject))) :=
              done.answered fun wrong => Bool.noConfusion wrong
            refine noted.extended (fun other bound found' named' => ?_) (mem_note.mpr (.inr rfl))
              (Nat.add_le_add_right (began started checking) _)
            cases there.symm.trans found'
            cases named.symm.trans named'
            exact ⟨issuer, subject⟩
        case isFalse =>
            -- revoked in the same step as the answer
            have revoked := done.revoked (s.belongs refresh.central.issuer refresh.central.subject)
            exact revoked.answered fun _ id member session found =>
              .inl (revokeWhere_get found (mem_existing member))

theorem startBegin_sound (sound : Sound s) (action : Action) (confirmed : Bool)
    (origin browser : String) (asking : Option Caller) :
    Sound (startBegin s action confirmed origin browser asking) := by
  simp only [startBegin]
  split
  · exact sound
  · split
    · exact sound
    case isFalse =>
        have started : ∀ started : Begin, started.stage = .verifying →
            Sound { s with begins := s.begins.put started } := fun _ => sound.started
        exact { started _ rfl with }

theorem beginVerified_sound (sound : Sound s) (started : Begin) (valid : Bool) (fresh : s.freshState state = true) :
    Sound (beginVerified s started valid state) := by
  unfold beginVerified
  split
  · exact sound.built fresh s.now
  · exact sound.endBegin _

theorem beginBuilt_sound (sound : Sound s) {started : Begin} (found : s.begins.get started.thread = some started)
    {startedAt : Nat} (building : started.stage = .building state startedAt) (built : Bool) :
    Sound (beginBuilt s started state startedAt built) := by
  have member := Table.get_mem found
  have done := sound.endBegin started.thread
  simp only [beginBuilt]
  split
  · have kept :
        Sound { s.endBegin started.thread with flows := s.flows.filter fun flow => startedAt ≤ flow.expiresAt } :=
      done.fewer fun flow member => (List.mem_filter.mp member).1
    have unbegun : Unbegun s.history (started.flow state startedAt).state :=
      sound.building started member state startedAt building
    refine kept.began rfl unbegun ?_
    intro other among otherAt stage
    obtain ⟨stored, different⟩ := List.mem_filter.mp among
    cases sound.apart started member other stored state startedAt otherAt building stage
    simp [Keyed.key] at different
  · exact done

theorem startCallback_sound (sound : Sound s) (origin browser state : String) :
    Sound (startCallback s origin browser state) := by
  simp only [startCallback]
  split
  · exact sound
  case h_2 config _ =>
    split
    · exact sound
    · split
      · exact sound
      case h_2 flow found =>
          have named : flow.state = state := Table.get_key found
          subst named
          split
          case isTrue accepted =>
              have matched : browser = flow.browserHash ∧ s.now < flow.expiresAt ∧
                  config.fingerprint = flow.fingerprint := by
                simp only [Bool.and_eq_true, decide_eq_true_eq, beq_iff_eq] at accepted
                exact ⟨accepted.2.symm, accepted.1.1, accepted.1.2.symm⟩
              rw [accepted]
              let callback : Callback := ⟨s.threads, config.fingerprint, flow, .exchanging⟩
              have early : ∀ subject started, callback.stage ≠ .refreshing subject started :=
                fun _ _ wrong => by contradiction
              exact { (sound.spent (Table.get_mem found) fun _ => matched).called
                fun subject started stage => absurd stage (early subject started) with }
          case isFalse refused => exact sound.spent (Table.get_mem found) fun accepted => absurd accepted refused

theorem advance_sound (sound : Sound s) (callback : Callback) {stage : CallbackStage}
    (early : stage.waits = false) :
    Sound (s.advance callback stage) := by
  refine sound.called fun subject started same => ?_
  rw [show stage = .refreshing subject started from same] at early
  contradiction

theorem linkAccount_sound (sound : Sound s) (callback : Callback) (subject : String) :
    Sound (linkAccount s callback subject) := by
  simp only [linkAccount]
  split
  case h_1 sessionId user _ _ =>
      split
      · exact sound
      case isFalse allowed =>
          simp only [not_or] at allowed
          exact sound.linked (by simpa using allowed.2.2.2.2)
  case h_2 => exact sound

theorem grantSudo_sound (sound : Sound s) (limits : Limits) (sessionId : Option String) :
    Sound (grantSudo limits s sessionId) := by
  unfold grantSudo
  split
  · exact sound
  case h_2 session found =>
      split
      · exact sound
      · obtain ⟨id, _, there⟩ := Option.bind_eq_some_iff.mp found
        have named : session.id = id := Table.get_key there
        have aged : session.Ages { session with sudoUntil := some (s.now + limits.sudoGrant) } :=
          ⟨rfl, rfl, fun revoked => revoked⟩
        exact sound.aged (.put (named ▸ there) aged)

/-- What a callback whose account is enabled leaves to the request. -/
theorem finishCallback_sound (sound : Sound s) {subject id : String} {started : Nat}
    (checked : .answered started callback.fingerprint.bound.issuer subject true existing ∈
    s.history) (fresh : s.freshSession id = true)
    (current : callback.flow.action = .link ∨ callback.flow.action = .sudo ∨
    s.config.map Config.fingerprint = some callback.fingerprint) :
    Sound (finishCallback limits s callback subject started id) := by
  simp only [finishCallback]
  split
  · exact linkAccount_sound sound callback subject
  case isFalse unlinking =>
    split
    · exact sound
    case h_2 link linked =>
      split
      · exact sound
      case h_2 user known =>
        split
        · exact sound
        · split
          · exact grantSudo_sound sound limits _
          case isFalse unsudo =>
            split
            · exact sound
            · have latest := (current.resolve_left unlinking).resolve_left unsudo
              have owner : user.id = link.userId := Table.get_key known
              have key : (link.issuer, link.subject) =
                  (callback.fingerprint.bound.issuer, subject) := Table.get_key linked
              obtain ⟨issuer, same⟩ := Prod.mk.inj key
              refine sound.opened fresh rfl rfl fun central named => ?_
              cases named
              refine ⟨⟨linked.trans (congrArg some ?_), started, existing, checked, Nat.le_refl _⟩, latest⟩
              simp only [owner, ← issuer, ← same]

theorem validateSession_spec (limits : Limits) (s : State) (sessionId : String) (origin : Option String) :
    ∃ sessions, (validateSession limits s sessionId origin).2 = { s with sessions := sessions } ∧
      Ages s.sessions sessions ∧
      ((validateSession limits s sessionId origin).1 = true →
        ∃ session, s.sessions.get sessionId = some session ∧ session.revoked = false) := by
  have unchanged : Ages s.sessions s.sessions := ⟨.refl Session.Ages.refl _, fun _ none => none⟩
  unfold validateSession
  split
  · exact ⟨s.sessions, rfl, unchanged, fun wrong => absurd wrong Bool.false_ne_true⟩
  case h_2 session found =>
      split
      · exact ⟨s.sessions, rfl, unchanged, fun wrong => absurd wrong Bool.false_ne_true⟩
      case isFalse passes =>
          split
          · exact ⟨_, rfl, revoke_ages s _, fun wrong => absurd wrong Bool.false_ne_true⟩
          · have named : session.id = sessionId := Table.get_key found
            have aged : session.Ages { session with lastUsedAt := s.now } := ⟨rfl, rfl, fun revoked => revoked⟩
            have ages : Ages s.sessions (s.sessions.put { session with lastUsedAt := s.now }) :=
              .put (named ▸ found) aged
            refine ⟨_, rfl, ages, fun _ => ⟨session, found, ?_⟩⟩
            simp only [Bool.or_eq_true, not_or, Bool.not_eq_true] at passes
            exact passes.1.1.1

theorem resumed_sound (sound : Sound s) (found : s.callbacks.get callback.thread = some callback)
    {started : Nat} (waiting : callback.stage = .refreshing subject started) {sessionId id : String}
    (named : callback.flow.sessionId = some sessionId)
    (fresh : s.freshSession id = true) : Sound (resumed limits s callback sessionId subject started id) := by
  obtain ⟨⟨existing, checked⟩, current⟩ := sound.awaited _ callback found subject started waiting
  obtain ⟨sessions, same, ages, passed⟩ :=
    validateSession_spec limits (s.endCallback callback.thread) sessionId
      (some callback.fingerprint.bound.publicOrigin)
  have aged : Sound { s.endCallback callback.thread with sessions := sessions } :=
    (sound.endCallback callback.thread).aged ages
  simp only [resumed]
  split
  case isTrue valid =>
      obtain ⟨session, there, unrevoked⟩ := passed (Bool.and_eq_true_iff.mp valid).1
      rw [same]
      refine finishCallback_sound aged checked ?_ ?_
      · simp only [State.freshSession, Bool.and_eq_true, Option.isNone_iff_eq_none] at fresh ⊢
        exact ⟨ages.absent id fresh.1, fresh.2⟩
      · rcases current with latest | link | granting | ⟨other, session', named', there', revoked⟩
        · exact .inr (.inr latest)
        · exact .inl link
        · exact .inr (.inl granting)
        · cases named.symm.trans named'
          cases there.symm.trans there'
          rw [revoked] at unrevoked
          contradiction
  case isFalse =>
      rw [same]
      exact aged

theorem startRefresh_frame (s : State) (sessionId : String) :
    ∃ refreshes, startRefresh s sessionId = { s with refreshes := refreshes } := by
  unfold startRefresh
  split
  · split <;> exact ⟨_, rfl⟩
  · exact ⟨_, rfl⟩

theorem answered_sound (sound : Sound s) {started : Nat}
    (fresh : s.freshSession id = true)
    (heeded : enabled = some false → ∀ id ∈ s.existing callback.fingerprint.bound.issuer subject,
    Dead s.sessions s.now id) :
    Sound (answered limits s callback subject started enabled id) := by
  cases enabled with
  | none => exact sound.endCallback _
  | some enabled =>
    have noted : Sound (s.note (.answered started callback.fingerprint.bound.issuer subject enabled
        (s.existing callback.fingerprint.bound.issuer subject))) :=
      sound.answered fun disabled => heeded (congrArg some disabled)
    simp only [answered]
    split
    case isTrue going =>
        obtain ⟨rfl, current⟩ := Bool.and_eq_true_iff.mp going
        have latest := current_fingerprint current
        split
        · exact finishCallback_sound (noted.endCallback _) (mem_note.mpr (.inr rfl)) fresh (.inr (.inr latest))
        · -- the event and the configuration are those of this step
          have awaiting := startRefresh_sound noted
          rename_i sessionId _
          obtain ⟨refreshes, same⟩ :=
            startRefresh_frame (s.note (.answered started callback.fingerprint.bound.issuer subject true
            (s.existing callback.fingerprint.bound.issuer subject))) sessionId
          refine (awaiting sessionId).called fun _ _ stage => ?_
          cases stage
          rw [same]
          exact ⟨⟨_, mem_note.mpr (.inr rfl)⟩, .inl latest⟩
    case isFalse => exact noted.endCallback _

/-- A configuration that `saveConfig` stores. -/
def State.saves (s : State) (expectedRevision : Nat) (bound : Bound) (valid : Bool) : Prop :=
  (s.config.map fun config => config.fingerprint.revision).getD 0 = expectedRevision ∧
    s.config.any Config.active = false ∧
    s.connection = some bound.issuer ∧ valid = true

instance (expectedRevision : Nat) (bound : Bound) (valid : Bool) :
    Decidable (s.saves expectedRevision bound valid) :=
  inferInstanceAs (Decidable (_ ∧ _ ∧ _ ∧ _))

theorem saveConfig_refused {expectedRevision : Nat} {bound : Bound} {valid : Bool}
    (refused : ¬ s.saves expectedRevision bound valid) :
    saveConfig s expectedRevision bound valid = s := by
  simp only [saveConfig]
  refine if_pos (Decidable.byContradiction fun allowed => refused ?_)
  simp only [not_or, not_not, Bool.not_eq_true, Bool.not_eq_false] at allowed
  exact allowed

instance (sessions : Table Session) (now : Nat) (id : String) : Decidable (Dead sessions now id) :=
  decidable_of_iff ((sessions.get id).all fun session => session.revoked || decide (session.expiresAt ≤ now)) (by
    unfold Dead
    cases sessions.get id <;> simp)

def State.allDead (s : State) (issuer subject : String) : Prop :=
  ∀ id ∈ s.existing issuer subject, Dead s.sessions s.now id

instance (issuer subject : String) : Decidable (s.allDead issuer subject) :=
  inferInstanceAs (Decidable (∀ id ∈ _, Dead _ _ id))

/-- What a callback learns when its account is disabled concerns no session. -/
def Callback.AloneIn (s : State) (callback : Callback) : Prop :=
  match callback.stage with
  | .checking subject _ => s.allDead callback.fingerprint.bound.issuer subject
  | _ => True

instance (callback : Callback) : Decidable (callback.AloneIn s) := by
  unfold Callback.AloneIn
  split <;> infer_instance

/-- No callback waits that could open a session under a connection just replaced, and an account
found disabled has no session
but those the answer revokes. -/
def Undisturbed (s : State) : Label → Prop
  | .saveConfig expectedRevision bound valid =>
    s.saves expectedRevision bound valid → ∀ callback ∈ s.callbacks.rows,
      callback.stage.waits = true → callback.Safe s
  | .answered thread (some false) _ => ∀ callback ∈ s.callbacks.rows, callback.thread = thread → callback.AloneIn s
  | .refreshAnswered sessionId (some false) => ∀ refresh ∈ s.refreshes.rows, refresh.sessionId = sessionId →
      s.current refresh.central.fingerprint = true ∨ s.allDead refresh.central.issuer refresh.central.subject
  | _ => True

instance (s : State) (label : Label) : Decidable (Undisturbed s label) := by
  unfold Undisturbed
  split <;> infer_instance

theorem localMethod_central (linkOnly ldap : Bool) (id userId origin : String) (time : Option Nat) :
    Context.central ⟨id, userId, origin, localMethod linkOnly ldap, time⟩ = none := by
  cases linkOnly <;> cases ldap <;> rfl

theorem prove_sound (sound : Sound s) (sessionId : String) : Sound (prove s sessionId) := by
  unfold prove
  split
  · exact sound
  case h_2 context found =>
      split
      · exact sound
      case isFalse other =>
          have named : context.sessionId = sessionId := Table.get_key found
          exact sound.proved (named ▸ found) (by simpa using other) s.now

theorem step_sound {label : Label} (sound : Sound s) (undisturbed : Undisturbed s label)
    (moved : step limits s label = some after) :
    Sound after := by
  cases label with
  | tick ms =>
    cases moved
    exact sound.tick ms
  | connection issuer =>
    cases moved
    exact { sound with }
  | user user =>
    cases moved
    exact { sound with }
  | signIn id userId origin linkOnly ldap =>
    obtain ⟨fresh, rfl⟩ := Option.ite_none_right_eq_some.mp moved |>.imp_right Option.some.inj
    refine sound.opened fresh rfl rfl fun central named => ?_
    rw [localMethod_central] at named
    contradiction
  | prove sessionId =>
    cases moved
    exact prove_sound sound sessionId
  | revoke sessionId =>
    cases moved
    exact sound.revoked _
  | request sessionId origin =>
    cases moved
    obtain ⟨sessions, same, ages, _⟩ := validateSession_spec limits s sessionId origin
    rw [same]
    exact sound.aged ages
  | saveConfig expectedRevision bound valid =>
    cases moved
    by_cases saves : s.saves expectedRevision bound valid
    · exact saveConfig_sound sound expectedRevision bound valid (undisturbed saves)
    · rwa [saveConfig_refused saves]
  | activate fingerprint =>
    cases moved
    exact activate_sound sound fingerprint
  | disable =>
    cases moved
    exact disableSso_sound sound
  | begin action confirmed origin browser caller =>
    cases moved
    exact startBegin_sound sound action confirmed origin browser caller
  | beginVerified thread valid state =>
    obtain ⟨started, _, moved⟩ := Option.bind_eq_some_iff.mp moved
    cases stage : started.stage with
    | building => simp [stage] at moved
    | verifying =>
      simp only [stage] at moved
      obtain ⟨fresh, rfl⟩ := Option.ite_none_right_eq_some.mp moved |>.imp_right Option.some.inj
      exact beginVerified_sound sound started valid fresh
  | beginBuilt thread built =>
    obtain ⟨started, found, moved⟩ := Option.bind_eq_some_iff.mp moved
    cases stage : started.stage with
    | verifying => simp [stage] at moved
    | building state startedAt =>
      simp only [stage] at moved
      cases moved
      have named : started.thread = thread := Table.get_key found
      exact beginBuilt_sound sound (named ▸ found) stage built
  | callback origin browser state =>
    cases moved
    exact startCallback_sound sound origin browser state
  | exchanged thread subject =>
    obtain ⟨callback, _, moved⟩ := Option.bind_eq_some_iff.mp moved
    cases stage : callback.stage with
    | exchanging =>
      simp only [stage] at moved
      cases moved
      cases subject with
      | none => exact sound.endCallback _
      | some subject => exact advance_sound sound callback rfl
    | verifying | checking | refreshing => simp [stage] at moved
  | verified thread valid =>
    obtain ⟨callback, _, moved⟩ := Option.bind_eq_some_iff.mp moved
    cases stage : callback.stage with
    | verifying subject =>
      simp only [stage] at moved
      cases moved
      unfold verified
      split
      · exact advance_sound sound callback rfl
      · exact sound.endCallback _
    | exchanging | checking | refreshing => simp [stage] at moved
  | answered thread enabled id =>
    obtain ⟨callback, found, moved⟩ := Option.bind_eq_some_iff.mp moved
    cases stage : callback.stage with
    | checking subject started =>
      simp only [stage] at moved
      obtain ⟨fresh, rfl⟩ := Option.ite_none_right_eq_some.mp moved |>.imp_right Option.some.inj
      refine answered_sound sound fresh fun disabled => ?_
      subst disabled
      have alone := undisturbed callback (Table.get_mem found) (Table.get_key found)
      simp only [Callback.AloneIn, stage] at alone
      exact alone
    | exchanging | verifying | refreshing => simp [stage] at moved
  | resumed thread id =>
    obtain ⟨callback, found, moved⟩ := Option.bind_eq_some_iff.mp moved
    have key : callback.thread = thread := Table.get_key found
    cases stage : callback.stage with
    | refreshing subject started =>
      cases named : callback.flow.sessionId with
      | none => simp [stage, named] at moved
      | some sessionId =>
        simp only [stage, named] at moved
        obtain ⟨fresh, rfl⟩ := Option.ite_none_right_eq_some.mp moved |>.imp_right Option.some.inj
        exact resumed_sound sound (key ▸ found) stage named (Bool.and_eq_true_iff.mp fresh).1
    | exchanging | verifying | checking => simp [stage] at moved
  | refresh sessionId =>
    cases moved
    exact startRefresh_sound sound sessionId
  | refreshVerified sessionId valid =>
    obtain ⟨refresh, found, moved⟩ := Option.bind_eq_some_iff.mp moved
    have key : refresh.sessionId = sessionId := Table.get_key found
    cases stage : refresh.stage with
    | verifying =>
      simp only [stage] at moved
      cases moved
      exact refreshVerified_sound sound (key ▸ found) valid
    | checking => simp [stage] at moved
  | refreshAnswered sessionId enabled =>
    obtain ⟨refresh, found, moved⟩ := Option.bind_eq_some_iff.mp moved
    have key : refresh.sessionId = sessionId := Table.get_key found
    cases stage : refresh.stage with
    | verifying => simp [stage] at moved
    | checking started =>
      simp only [stage] at moved
      cases moved
      refine refreshAnswered_sound sound (key ▸ found) stage fun disabled => ?_
      subst disabled
      exact undisturbed refresh (Table.get_mem found) key

theorem Sound.start : Sound .start where
  backed id context central found _ := by cases found
  stored id context found := by cases found
  fingerprinted id context central session found _ _ _ := by cases found
  refreshing id refresh found := by cases found
  awaited thread callback found _ _ _ := by cases found
  dead started issuer subject existing member := by cases member
  lawful := .nil
  flows flow member := by cases member
  building begin' member _ _ _ := by cases member
  apart begin' member _ _ _ _ _ _ _ := by cases member

def Event.spentState : Event → Option String
  | .spent flow _ _ _ _ => some flow.state
  | _ => none

/-- What the deadline, the revoked flag and the fingerprint promise together. -/
structure Bounded (s : State) : Prop where
  checked : ∀ id context central session origin, s.contexts.get id = some context → context.central = some central →
    s.sessions.get id = some session → session.revoked = false → checkSessionContext s id origin = true →
      s.links.get (central.issuer, central.subject) = some ⟨central.issuer, central.subject, session.userId⟩ ∧
        ∃ started existing, .answered started central.issuer central.subject true existing ∈
          s.history ∧ s.now < started + revocationMs
  current : ∀ id context central session, s.contexts.get id = some context → context.central = some central →
    s.sessions.get id = some session → session.revoked = false →
      s.config.map Config.fingerprint = some central.fingerprint
  once : (s.history.filterMap Event.spentState).Nodup
  consumed : ∀ flow browser time fingerprint, .spent flow browser time fingerprint true ∈ s.history →
    .began flow ∈ s.history ∧ browser = flow.browserHash ∧ time < flow.startedAt + proofMs ∧
      fingerprint = flow.fingerprint
  disabled : ∀ started issuer subject existing, .answered started issuer subject false existing ∈ s.history →
    ∀ id ∈ existing, ∀ session, s.sessions.get id = some session → session.revoked = true ∨
      session.expiresAt ≤ s.now

theorem checkSessionContext_deadline {origin : Option String}
    (found : s.contexts.get id = some context) (named : context.central = some central)
    (passes : checkSessionContext s id origin = true) :
    s.now < central.checkedUntil := by
  simp only [checkSessionContext, found, central_eq.mp named, Bool.and_eq_true, decide_eq_true_eq] at passes
  exact passes.2

theorem Sound.bounded (sound : Sound s) : Bounded s where
  checked := fun id context central session origin found named stored _ passes => by
    obtain ⟨linked, started, existing, checked, limit⟩ := sound.backed id context central found named
    obtain ⟨session', stored', owner⟩ := sound.stored id context found
    cases stored.symm.trans stored'
    refine ⟨owner ▸ linked, started, existing, checked, ?_⟩
    exact Nat.lt_of_lt_of_le (checkSessionContext_deadline found named passes) limit
  current := sound.fingerprinted
  once := by
    refine sound.lawful.distinct fun before event state law named member => ?_
    obtain ⟨earlier, stored, same⟩ := List.mem_filterMap.mp member
    cases event <;> cases named
    cases earlier <;> simp only [Event.spentState, Option.some.injEq, reduceCtorEq] at same
    exact law.2.1 _ _ _ _ _ stored same
  consumed := fun flow browser time fingerprint member => by
    obtain ⟨before, within, began, _, matched⟩ := sound.lawful.of_mem member
    exact ⟨within began, matched rfl⟩
  disabled := fun started issuer subject existing member id listed =>
    (sound.dead started issuer subject existing member id listed).2

/-- The bound of central revocation, in every run that no such answer or change disturbs. -/
theorem revocation_bounded {labels : List Label} (undisturbed : (machine limits).Along Undisturbed .start labels)
    (ran : (machine limits).exec .start labels = some s) : Bounded s :=
  Sound.bounded ((machine limits).exec_preserves_along Undisturbed Sound step_sound undisturbed .start ran)

def dayLimits : Limits := ⟨86400000, 7200000, 14400000⟩

def keycloak : Bound := ⟨"https://id.test", "https://app.test", "https://recovery.test", "realm"⟩

def administrator : Caller := ⟨"local", "u"⟩

/-- A flow of the administrator's browser, up to the answer about the account. -/
def flowLabels (action : Action) (thread : Nat) (state : String) (enabled : Bool) : List Label :=
  [.begin action true keycloak.publicOrigin "browser" (some administrator),
    .beginVerified thread true state, .beginBuilt thread true,
    .callback keycloak.publicOrigin "browser" state, .exchanged (thread + 1) (some "alice"),
      .verified (thread + 1) true,
    .answered (thread + 1) (some enabled) "unused"]

/-- An administrator links an account and tests the sign-in with it. -/
def testLabels : List Label :=
  [.connection (some keycloak.issuer), .user ⟨"u", .admin, .localAccount⟩, .saveConfig 0 keycloak true,
    .signIn "local" "u" keycloak.publicOrigin false false] ++
  flowLabels .link 0 "first" true ++ [.resumed 1 "unused"] ++
    flowLabels .testLogin 2 "second" true ++ [.resumed 3 "central"]

/-- The periodic check finds the account disabled. -/
def disabledLabels : List Label :=
  testLabels ++ [.tick 60000, .refresh "central", .refreshVerified "central" true,
    .refreshAnswered "central" (some false)]

theorem revocation_bounded_disabled : ∃ s, (machine dayLimits).exec .start disabledLabels = some s ∧
    (s.sessions.get "central").map Session.revoked = some true ∧ Bounded s := by
  refine ⟨_, rfl, by rfl, ?_⟩
  have undisturbed : (machine dayLimits).Along Undisturbed .start disabledLabels := by decide +kernel
  exact revocation_bounded undisturbed rfl

/-- The second test is the one that finds the account disabled. -/
def overlookedLabels : List Label := testLabels ++ flowLabels .testLogin 4 "third" false

/-- The connection is saved anew while the second test waits for the check of its own session. -/
def replacedLabels : List Label :=
  testLabels ++ flowLabels .testLogin 4 "third" true ++ [.saveConfig 1 keycloak true, .resumed 5 "stale"]

theorem revocation_overlooked :
    (∃ s, (machine dayLimits).exec .start overlookedLabels = some s ∧
      checkSessionContext s "central" (some keycloak.publicOrigin) = true ∧ ¬ Bounded s) ∧
    ∃ s, (machine dayLimits).exec .start replacedLabels = some s ∧
      checkSessionContext s "stale" (some keycloak.publicOrigin) = true ∧ ¬ Bounded s := by
  refine ⟨⟨_, rfl, by decide +kernel, fun bounded => ?_⟩, ⟨_, rfl, by decide +kernel, fun bounded => ?_⟩⟩
  · -- the session the test signed in with is listed in the answer
    have alive := bounded.disabled 0 keycloak.issuer "alice" ["central"] (by decide +kernel) "central" (by decide)
      ⟨"central", "u", dayLimits.sessionTtl, 0, false, none⟩ (by rfl)
    exact absurd alive (by decide +kernel)
  · have latest := bounded.current "stale" ⟨"stale", "u", keycloak.publicOrigin,
        .oidc ⟨keycloak.issuer, "alice", ⟨1, keycloak⟩, revocationMs⟩, none⟩
      ⟨keycloak.issuer, "alice", ⟨1, keycloak⟩, revocationMs⟩ ⟨"stale", "u", dayLimits.sessionTtl,
        0, false, none⟩ (by rfl) rfl (by rfl) rfl
    exact absurd latest (by decide +kernel)

end ProxyPilot.Sso
