import ProxyPilot.Gateway.Registry

namespace ProxyPilot.Gateway

open Data Effects Transition

variable {h after : Host} {r : Registry} {w : World} {a : Attempt}

def Closed (a : Attempt) : Prop := a.gateway.phase = .revoked

theorem check_closed (closed : Closed a) (allowPaused : Bool) :
    Leads (check w allowPaused) a (fun _ _ => False) (fun failure b => failure =
      .denied .gatewayRevoked ∧ b = a) := by
  refine leads_bind.mpr (leads_get.mpr (leads_bind.mpr ?_))
  rw [show decide (a.gateway.phase = .revoked) = true from decide_eq_true closed]
  exact ⟨rfl, rfl⟩

theorem freeze_closed (closed : Closed a) (code : Code) (origin requestRef : Option String) :
    Leads (freeze w code origin requestRef) a (fun _ b => b = a) (fun _ b => b = a) := by
  refine leads_bind.mpr (leads_get.mpr ?_)
  rw [if_pos (show a.gateway.phase = .revoked from closed)]
  exact leads_pure.mpr rfl

theorem frozen_closed (closed : Closed a) (failure : Failure) :
    Leads (do
      match failure with
      | .denied code => freeze w code none none
      | .raised => pure ()
      throw failure : Act Parts) a (fun _ b => Closed b) (fun _ b => Closed b) := by
  cases failure with
  | raised => exact closed
  | denied code =>
    refine leads_bind.mpr ((freeze_closed closed code none none).mono (fun _ c same => ?_) fun _ c same => ?_)
    · exact leads_throw.mpr (same ▸ closed)
    · exact same ▸ closed

theorem checkConnect_closed (closed : Closed a) (authority : Except Code Parts) :
    Leads (checkConnect w authority) a (fun _ b => Closed b) (fun _ b => Closed b) := by
  refine leads_tryCatch.mpr ?_
  cases authority with
  | error code => exact leads_bind.mpr (leads_throw.mpr (frozen_closed closed (.denied code)))
  | ok parts =>
    refine leads_bind.mpr (leads_pure.mpr (leads_bind.mpr ?_))
    exact (check_closed closed false).mono (fun _ _ never => never.elim) fun failure b thrown =>
      thrown.2 ▸ frozen_closed closed failure

theorem forward_closed (closed : Closed a) (request : Request) :
    Leads (forward w request) a (fun _ b => Closed b) (fun _ b => Closed b) := by
  refine leads_bind.mpr (leads_bind.mpr ?_)
  exact (check_closed closed false).mono (fun _ _ never => never.elim) fun _ _ thrown => thrown.2 ▸ closed

variable {label : Label} {live : Live} {lines : List Line} {identity : Option Identity}

theorem Live.perform_revoked (enters : label.enters = true) (revoked : live.revoked) :
    (live.perform label).revoked := by
  have leads :
      Leads (Gateway.perform live.world label) live.attempt (fun _ b => Closed b) (fun _ b => Closed b) := by
    cases label with
    | connect authority => exact leads_bind.mpr (checkConnect_closed revoked authority)
    | forward request => exact forward_closed revoked request
    | _ => contradiction
  exact left_leads leads

/-- Made for a registered attempt, and reached from its own start. -/
structure Grounded (registered : List String) (live : Live) : Prop where
  reached : (machine live.world).Reachable live.attempt
  named : live.identity.attemptId ∈ registered

theorem Live.perform_reached (reached : (machine live.world).Reachable live.attempt) (label : Label) :
    (machine live.world).Reachable (live.perform label).attempt :=
  reached.step rfl

/-- Everything a gateway accepts, it gave out itself. -/
structure Own (a : Attempt) : Prop where
  tickets : ∀ admission ticket time, .admitted admission ticket time ∈ a.history → .minted ticket ∈ a.history
  pending : ∀ record ∈ a.gateway.pending.rows, Reviewed a.history record
  purposes : ∀ purpose ∈ a.gateway.purposes.rows,
    .consumed purpose.grant.id (.destination purpose.grant) ∈ a.history

theorem own (reached : (machine w).Reachable a) : Own a where
  tickets := fun _ _ _ admitted => (reachable_sound reached).admitted_minted admitted
  pending := fun record member => ((reachable_sound reached).pending record member).reviewed
  purposes := (reachable_sound reached).purposes

/-- The gateway of the process. -/
structure Serving (h : Host) (r : Registry) (live : Live) : Prop where
  grounded : Grounded h.registered live
  idle : r.doing = .idle
  latched : r.latched = some live.identity
  latch : h.latch = some (.whole live.identity)
  era : live.era = r.era
  ledger : h.lines live.identity.attemptId = live.attempt.gateway.ledger.file

def Registry.underway (h : Host) (r : Registry) : Prop :=
  match r.doing with
  | .idle | .unlinking => True
  | .latching _ => r.latched = none ∧ h.latch = some .empty
  | .syncing w => r.latched = none ∧ h.latch = some (.whole w.policy.identity)
  | .opening w => r.latched = some w.policy.identity ∧ h.latch = some (.whole w.policy.identity)
  | .starting w =>
    r.latched = some w.policy.identity ∧ h.latch = some (.whole w.policy.identity) ∧
      h.lines w.policy.identity.attemptId = []
  | .unlinked => h.latch = none

structure Holding (h : Host) (r : Registry) : Prop where
  era : ∀ live ∈ h.lost, live.era < r.era
  now : r.era < h.eras
  serving : ∀ live, r.gateway = some live → Serving h r live
  released : ∀ live ∈ r.released, live.revoked ∧ Grounded h.registered live ∧ live.era = r.era
  underway : r.underway h

/-- What outlives the process. -/
structure Recorded (h : Host) : Prop where
  once : h.registered.Nodup
  kept : ∀ id ∈ h.registered, ∃ identity more, h.lines id = .whole (.attemptRegistered identity) :: more
  lost : ∀ live ∈ h.lost, Grounded h.registered live ∧ live.era < h.eras

structure Exclusive (h : Host) : Prop extends Recorded h where
  holding : ∀ r, h.registry = some r → Holding h r

theorem Exclusive.start : Exclusive .start where
  once := List.nodup_nil
  kept := fun id member => by contradiction
  lost := fun live member => by contradiction
  holding := fun r same => by contradiction

theorem lines_setLines {id other : String} :
    (h.setLines id lines).lines other = if other = id then lines else h.lines other := by
  unfold Host.lines Host.setLines
  rw [Table.get_put]
  by_cases same : other = id
  · rw [if_pos same, if_pos (show other = Keyed.key (LedgerFile.mk id lines) from same)]
    rfl
  · rw [if_neg same, if_neg (show ¬ other = Keyed.key (LedgerFile.mk id lines) from same)]

theorem readable_nil (empty : readable lines = some []) : lines = [] := by
  cases lines with
  | nil => rfl
  | cons line rest =>
    cases line with
    | torn => contradiction
    | whole row => cases rest' : readable rest <;> simp [readable, rest'] at empty

/-- In the middle of a call no gateway serves. -/
theorem Holding.vacant (holding : Holding h r) (busy : r.doing ≠ .idle) (live : Live) : r.gateway ≠ some live :=
  fun serves => busy (holding.serving live serves).idle

theorem Recorded.relined (recorded : Recorded h) {id : String}
    (kept : id ∈ h.registered → ∃ identity more, lines = .whole (.attemptRegistered identity) ::
    more) : Recorded (h.setLines id lines) :=
  { recorded with
    kept := fun other member => by
      rw [lines_setLines]
      split
      case isTrue same => exact kept (same ▸ member)
      case isFalse => exact recorded.kept other member }

/-- The process goes on where no gateway serves. -/
theorem Recorded.proceeds (recorded : Recorded h) {r' : Registry} (vacant : ∀ live, r'.gateway ≠ some live)
    (era : ∀ live ∈ h.lost, live.era < r'.era) (now : r'.era < h.eras)
    (released : ∀ live ∈ r'.released, live.revoked ∧ Grounded h.registered live ∧ live.era = r'.era)
    (underway : r'.underway h) : Exclusive (h.set r') :=
  { recorded with
    holding := fun other same => by
      cases same
      exact ⟨era, now, fun live serves => absurd serves (vacant live), released, underway⟩ }

theorem register_exclusive {opens : Bool} {choice : Except Failure World} (exclusive : Exclusive h)
    (known : h.registry = some r)
    (moved : register h r choice opens = some after) : Exclusive after := by
  unfold register at moved
  split at moved
  case h_1 w idle unlatched =>
      split at moved
      · cases moved
        exact exclusive
      · cases moved
        have holding := exclusive.holding r known
        have recorded : Recorded { h with latch := some Latch.empty } := { exclusive with }
        refine recorded.proceeds (fun live serves => ?_) holding.era holding.now holding.released ⟨unlatched, rfl⟩
        have latched := (holding.serving live serves).latched
        rw [unlatched] at latched
        contradiction
  case h_2 =>
      cases moved
      exact exclusive
  case h_3 => contradiction

variable {written : Written} {synced : Bool} {call : Call}

theorem writeLatch_exclusive (exclusive : Exclusive h) (known : h.registry = some r)
    (moved : writeLatch h r written = some after) : Exclusive after := by
  unfold writeLatch at moved
  split at moved
  case h_2 => contradiction
  case h_1 w doing =>
      cases moved
      have holding := exclusive.holding r known
      have underway := holding.underway
      rw [Registry.underway, doing] at underway
      have recorded : Recorded { h with latch := some (Latch.left w.policy.identity written) } := { exclusive with }
      refine recorded.proceeds (holding.vacant (by rw [doing]; exact Doing.noConfusion)) holding.era
        holding.now holding.released ?_
      by_cases whole : written = .whole
      · subst whole
        exact ⟨underway.1, rfl⟩
      · simp [Registry.underway, whole]

theorem syncLatch_exclusive (exclusive : Exclusive h) (known : h.registry = some r)
    (moved : syncLatch h r synced = some after) : Exclusive after := by
  unfold syncLatch at moved
  split at moved
  case h_2 => contradiction
  case h_1 w doing =>
      have holding := exclusive.holding r known
      have underway := holding.underway
      rw [Registry.underway, doing] at underway
      have vacant := holding.vacant (by rw [doing]; exact Doing.noConfusion)
      split at moved <;> cases moved
      · exact exclusive.proceeds vacant holding.era holding.now holding.released ⟨rfl, underway.2⟩
      · exact exclusive.proceeds vacant holding.era holding.now holding.released trivial

theorem openLedger_exclusive {opened : Opened} (exclusive : Exclusive h) (known : h.registry = some r)
    (moved : openLedger h r opened = some after) : Exclusive after := by
  unfold openLedger at moved
  split at moved
  case h_2 => contradiction
  case h_1 w doing =>
      have holding := exclusive.holding r known
      have underway := holding.underway
      rw [Registry.underway, doing] at underway
      have vacant := holding.vacant (by rw [doing]; exact Doing.noConfusion)
      have created : Recorded (h.setLines w.policy.identity.attemptId (h.lines w.policy.identity.attemptId)) :=
        exclusive.relined fun member => exclusive.kept _ member
      cases opened with
      | refused =>
        cases moved
        exact exclusive.proceeds vacant holding.era holding.now holding.released trivial
      | rejected =>
        cases moved
        exact created.proceeds vacant holding.era holding.now holding.released trivial
      | fine =>
        cases moved
        refine created.proceeds vacant holding.era holding.now holding.released ?_
        by_cases empty : readable (h.lines w.policy.identity.attemptId) = some []
        · rw [if_pos empty]
          refine ⟨underway.1, underway.2, ?_⟩
          rw [lines_setLines, if_pos rfl]
          exact readable_nil empty
        · rw [if_neg empty]
          trivial

/-- The first line of a ledger makes its attempt a registered one. -/
theorem startGateway_exclusive (exclusive : Exclusive h) (known : h.registry = some r)
    (moved : startGateway h r written = some after) : Exclusive after := by
  unfold startGateway at moved
  split at moved
  case h_2 => contradiction
  case h_1 w doing =>
      have holding := exclusive.holding r known
      have underway := holding.underway
      rw [Registry.underway, doing] at underway
      obtain ⟨latched, latch, empty⟩ := underway
      have vacant := holding.vacant (by rw [doing]; exact Doing.noConfusion)
      have new : w.policy.identity.attemptId ∉ h.registered := by
        intro member
        obtain ⟨identity, more, lines⟩ := exclusive.kept _ member
        rw [empty] at lines
        contradiction
      simp only at moved
      split at moved
      case isFalse =>
          cases moved
          exact Recorded.proceeds (exclusive.relined fun member => absurd member new) vacant
            holding.era holding.now holding.released trivial
      case isTrue whole =>
          cases moved
          subst whole
          have grows : ∀ live, Grounded h.registered live →
              Grounded (h.registered ++ [w.policy.identity.attemptId]) live :=
            fun live grounded => ⟨grounded.reached, List.mem_append_left _ grounded.named⟩
          refine ⟨⟨?_, fun id member => ?_, fun live member => ?_⟩, fun other same => ?_⟩
          · exact List.nodup_append.mpr ⟨exclusive.once, List.nodup_singleton _,
              fun id member other single same => by
              rw [same, List.mem_singleton.mp single] at member
              exact new member⟩
          · rw [show (Host.set _ _).lines id =
              (h.setLines w.policy.identity.attemptId _).lines id from rfl, lines_setLines]
            split
            case isTrue => exact ⟨w.policy.identity, [], by rw [empty]; rfl⟩
            case isFalse other =>
                rcases List.mem_append.mp member with old | single
                · exact exclusive.kept id old
                · exact absurd (List.mem_singleton.mp single) other
          · exact ⟨grows live (exclusive.lost live member).1, (exclusive.lost live member).2⟩
          · cases same
            refine ⟨holding.era, holding.now, fun live serves => ?_, fun live member => ?_, trivial⟩
            · cases serves
              refine ⟨⟨.of_initial rfl, List.mem_append_right _ List.mem_cons_self⟩, rfl, latched, latch, rfl, ?_⟩
              show (h.setLines w.policy.identity.attemptId _).lines w.policy.identity.attemptId = _
              rw [lines_setLines, if_pos rfl, empty]
              rfl
            · obtain ⟨revoked, grounded, era⟩ := holding.released live member
              exact ⟨revoked, grows live grounded, era⟩

theorem release_exclusive {cleanup : Bool} (exclusive : Exclusive h) (known : h.registry = some r)
    (moved : release h r identity cleanup = some after) : Exclusive after := by
  unfold release at moved
  have holding := exclusive.holding r known
  split at moved
  case h_2 => contradiction
  case h_1 idle =>
      split at moved
      · cases moved
        exact exclusive
      split at moved
      case h_1 none =>
          cases moved
          refine exclusive.proceeds (fun live serves => ?_) holding.era holding.now holding.released trivial
          rw [none] at serves
          contradiction
      case h_2 live serves =>
          split at moved
          · cases moved
            exact exclusive
          case isFalse revoked =>
              cases moved
              refine exclusive.proceeds (fun live serves => by contradiction) holding.era
                holding.now (fun other member => ?_) trivial
              rcases List.mem_append.mp member with old | single
              · exact holding.released other old
              · cases List.mem_singleton.mp single
                have serving := holding.serving live serves
                have ended : live.attempt.gateway.phase = .revoked := Decidable.not_not.mp (not_or.mp revoked).1
                exact ⟨ended, serving.grounded, serving.era⟩

theorem unlinkLatch_exclusive {unlinked : Bool} (exclusive : Exclusive h) (known : h.registry = some r)
    (moved : unlinkLatch h r unlinked = some after) : Exclusive after := by
  unfold unlinkLatch at moved
  split at moved
  case h_2 => contradiction
  case h_1 doing =>
      have holding := exclusive.holding r known
      have vacant := holding.vacant (by rw [doing]; exact Doing.noConfusion)
      split at moved <;> cases moved
      · have recorded : Recorded { h with latch := none } := { exclusive with }
        exact recorded.proceeds vacant holding.era holding.now holding.released rfl
      · exact exclusive.proceeds vacant holding.era holding.now holding.released trivial

theorem syncRelease_exclusive (exclusive : Exclusive h) (known : h.registry = some r)
    (moved : syncRelease h r synced = some after) : Exclusive after := by
  unfold syncRelease at moved
  split at moved
  case h_2 => contradiction
  case h_1 doing =>
      have holding := exclusive.holding r known
      have vacant := holding.vacant (by rw [doing]; exact Doing.noConfusion)
      cases moved
      exact exclusive.proceeds vacant holding.era holding.now holding.released trivial

theorem Registry.bound_gateway (bound : r.bound identity label = some live) :
    r.gateway = some live := by
  unfold Registry.bound at bound
  split at bound
  · contradiction
  · exact bound

/-- A ledger begins with the registration of its attempt. -/
theorem Live.founded (live : Live) (reached : (machine live.world).Reachable live.attempt) :
    ∃ more, live.attempt.gateway.ledger.file = .whole (.attemptRegistered live.identity) :: more :=
  (reachable_sound reached).founded

theorem act_exclusive (exclusive : Exclusive h) (known : h.registry = some r)
    (moved : act h r identity label = some after) : Exclusive after := by
  obtain ⟨live, bound, rfl⟩ := Option.map_eq_some_iff.mp moved
  have holding := exclusive.holding r known
  have serving := holding.serving live (Registry.bound_gateway bound)
  have reached := Live.perform_reached serving.grounded.reached label
  obtain ⟨more, founded⟩ := (live.perform label).founded reached
  have recorded : Recorded (h.setLines live.identity.attemptId (live.perform label).attempt.gateway.ledger.file) :=
    exclusive.relined fun _ => ⟨live.identity, more, founded⟩
  refine { recorded with holding := fun other same => ?_ }
  cases same
  refine ⟨holding.era, holding.now, fun current serves => ?_, holding.released, ?_⟩
  · cases serves
    refine ⟨⟨reached, serving.grounded.named⟩, serving.idle, serving.latched, serving.latch, serving.era, ?_⟩
    exact lines_setLines.trans (if_pos rfl)
  · rw [Registry.underway, serving.idle]
    trivial

theorem stale_exclusive {index : Nat} (exclusive : Exclusive h) (known : h.registry = some r)
    (moved : stale h r index label = some after) : Exclusive after := by
  unfold stale at moved
  split at moved
  case isFalse => contradiction
  case isTrue enters =>
      obtain ⟨live, found, rfl⟩ := Option.map_eq_some_iff.mp moved
      have holding := exclusive.holding r known
      refine { exclusive with holding := fun other same => ?_ }
      cases same
      refine ⟨holding.era, holding.now, fun current serves => ?_, fun other member => ?_, holding.underway⟩
      · have serving := holding.serving current serves
        exact ⟨serving.grounded, serving.idle, serving.latched, serving.latch, serving.era, serving.ledger⟩
      · rcases List.mem_or_eq_of_mem_set member with old | rfl
        · exact holding.released other old
        · obtain ⟨revoked, grounded, era⟩ := holding.released live (List.mem_of_getElem? found)
          exact ⟨Live.perform_revoked enters revoked,
            ⟨Live.perform_reached grounded.reached label, grounded.named⟩, era⟩

/-- The gateways of a process are lost with it. -/
theorem Recorded.crash (recorded : Recorded h) (now : r.era < h.eras)
    (gateways : ∀ live, r.gateway = some live ∨ live ∈ r.released → Grounded h.registered live ∧ live.era = r.era) :
    Exclusive (crash h r) :=
  { recorded with
    lost := fun live member => by
      have own : r.gateway = some live ∨ live ∈ r.released → Grounded h.registered live ∧
          live.era < h.eras := fun here =>
        ⟨(gateways live here).1, (gateways live here).2 ▸ now⟩
      rcases List.mem_append.mp member with member | released
      · rcases List.mem_append.mp member with old | serves
        · exact recorded.lost live old
        · exact own (.inl (Option.mem_toList.mp serves))
      · exact own (.inr released)
    holding := fun other same => by contradiction }

theorem crash_exclusive (exclusive : Exclusive h) (known : h.registry = some r) : Exclusive (crash h r) := by
  have holding := exclusive.holding r known
  refine exclusive.crash holding.now fun live here => ?_
  rcases here with serves | released
  · exact ⟨(holding.serving live serves).grounded, (holding.serving live serves).era⟩
  · exact (holding.released live released).2

theorem crashDuring_exclusive {lines : Nat} (exclusive : Exclusive h)
    (known : h.registry = some r) (moved : crashDuring h r identity label lines = some after) :
    Exclusive after := by
  obtain ⟨live, bound, rfl⟩ := Option.map_eq_some_iff.mp moved
  have holding := exclusive.holding r known
  have serving := holding.serving live (Registry.bound_gateway bound)
  have reached := Live.perform_reached serving.grounded.reached label
  obtain ⟨first, before⟩ := live.founded serving.grounded.reached
  obtain ⟨more, founded⟩ := (live.perform label).founded reached
  refine Recorded.crash (exclusive.relined fun _ => ?_) holding.now fun other here => ?_
  · have some' : max lines live.attempt.gateway.ledger.file.length =
        max lines live.attempt.gateway.ledger.file.length - 1 + 1 := by
      rw [before, List.length_cons]
      omega
    rw [some', founded, List.take_succ_cons]
    exact ⟨_, _, rfl⟩
  · rcases here with same | released
    · cases same
      exact ⟨⟨reached, serving.grounded.named⟩, serving.era⟩
    · exact (holding.released other released).2

theorem restart_exclusive (exclusive : Exclusive h) (safe : Bool) : Exclusive (restart h safe) := by
  have started : ∀ latched, Exclusive { h with
    registry := some ⟨h.eras, latched, none, .idle, []⟩, eras := h.eras + 1 } := fun latched =>
    { exclusive with
      lost := fun live member => ⟨(exclusive.lost live member).1, Nat.lt_succ_of_lt (exclusive.lost live member).2⟩
      holding := fun other same => by
        cases same
        exact ⟨fun live member => (exclusive.lost live member).2, Nat.lt_succ_self _,
          fun live serves => by contradiction,
          fun live member => by contradiction, trivial⟩ }
  unfold restart
  simp only
  split
  · exact started _
  · exact started _
  · exact exclusive

theorem step_exclusive (exclusive : Exclusive h) (moved : h.step call = some after) : Exclusive after := by
  unfold Host.step at moved
  split at moved
  case h_1 safe _ =>
      cases moved
      exact restart_exclusive exclusive safe
  case h_2 => contradiction
  case h_3 known => exact register_exclusive exclusive known moved
  case h_4 known => exact writeLatch_exclusive exclusive known moved
  case h_5 known => exact syncLatch_exclusive exclusive known moved
  case h_6 known => exact openLedger_exclusive exclusive known moved
  case h_7 known => exact startGateway_exclusive exclusive known moved
  case h_8 known => exact release_exclusive exclusive known moved
  case h_9 known => exact unlinkLatch_exclusive exclusive known moved
  case h_10 known => exact syncRelease_exclusive exclusive known moved
  case h_11 known => exact act_exclusive exclusive known moved
  case h_12 known => exact stale_exclusive exclusive known moved
  case h_13 known =>
      cases moved
      exact crash_exclusive exclusive known
  case h_14 known => exact crashDuring_exclusive exclusive known moved
  case h_15 => contradiction

theorem reachable_exclusive (reached : registryMachine.Reachable h) : Exclusive h :=
  System.Reachable.invariant Exclusive (fun _ start => by cases start; exact .start)
    (fun exclusive moved => step_exclusive exclusive moved) reached

structure OneAttempt (h : Host) : Prop where
  /-- A gateway that is not revoked is the one of the process, of the latched identity. -/
  single : ∀ r, h.registry = some r → ∀ live, r.gateway = some live ∨ live ∈ r.released → ¬ live.revoked →
    r.gateway = some live ∧ r.latched = some live.identity
  once : h.registered.Nodup
  /-- Whatever a gateway gave out, its attempt counts as registered. -/
  named : (∀ live ∈ h.lost, live.identity.attemptId ∈ h.registered) ∧ ∀ r, h.registry = some r → ∀ live,
    r.gateway = some live ∨ live ∈ r.released → live.identity.attemptId ∈ h.registered
  registers : ∀ call after, h.step call = some after → after.registered = h.registered ∨
    ∃ r live, after.registry = some r ∧ r.gateway = some live ∧ h.latch = some (.whole live.identity) ∧
      live.identity.attemptId ∉ h.registered ∧ after.registered = h.registered ++ [live.identity.attemptId]
  absent : ∀ r, h.registry = some r → ∀ attemptId, neverRegistered h r attemptId = true → attemptId ∉ h.registered
  /-- The gateway is of this process, and what it accepts it gave out itself. -/
  own : ∀ r live, h.registry = some r → r.gateway = some live →
    live.era = r.era ∧ (∀ old ∈ h.lost, old.era < r.era) ∧ Own live.attempt

/-- Only the last step of a registration adds an attempt. -/
theorem step_registered (moved : h.step call = some after) : after.registered = h.registered ∨
    ∃ r, h.registry = some r ∧ startGateway h r .whole = some after := by
  unfold Host.step at moved
  split at moved
  case h_1 safe _ =>
      cases moved
      unfold restart
      split <;> exact .inl rfl
  case h_2 | h_15 => contradiction
  case h_3 =>
      unfold register at moved
      split at moved
      · split at moved <;> cases moved <;> exact .inl rfl
      · cases moved
        exact .inl rfl
      · contradiction
  case h_4 =>
      unfold writeLatch at moved
      split at moved <;> cases moved
      exact .inl rfl
  case h_5 =>
      unfold syncLatch at moved
      split at moved
      · split at moved <;> cases moved <;> exact .inl rfl
      · contradiction
  case h_6 opened _ =>
      unfold openLedger at moved
      split at moved
      · cases opened <;> cases moved <;> exact .inl rfl
      · contradiction
  case h_7 written known =>
      by_cases whole : written = .whole
      · exact .inr ⟨_, known, whole ▸ moved⟩
      · unfold startGateway at moved
        split at moved
        · simp only [whole, if_false] at moved
          cases moved
          exact .inl rfl
        · contradiction
  case h_8 =>
      unfold release at moved
      split at moved
      · split at moved
        · cases moved
          exact .inl rfl
        · split at moved
          · cases moved
            exact .inl rfl
          · split at moved <;> cases moved <;> exact .inl rfl
      · contradiction
  case h_9 =>
      unfold unlinkLatch at moved
      split at moved
      · split at moved <;> cases moved <;> exact .inl rfl
      · contradiction
  case h_10 =>
      unfold syncRelease at moved
      split at moved <;> cases moved
      exact .inl rfl
  case h_11 =>
      obtain ⟨live, _, rfl⟩ := Option.map_eq_some_iff.mp moved
      exact .inl rfl
  case h_12 =>
      unfold stale at moved
      split at moved
      · obtain ⟨live, _, rfl⟩ := Option.map_eq_some_iff.mp moved
        exact .inl rfl
      · contradiction
  case h_13 =>
      cases moved
      exact .inl rfl
  case h_14 =>
      obtain ⟨live, _, rfl⟩ := Option.map_eq_some_iff.mp moved
      exact .inl rfl

theorem startGateway_registers (exclusive : Exclusive h) (known : h.registry = some r)
    (moved : startGateway h r .whole = some after) :
    ∃ r live, after.registry = some r ∧ r.gateway = some live ∧ h.latch = some (.whole live.identity) ∧
      live.identity.attemptId ∉ h.registered ∧ after.registered = h.registered ++ [live.identity.attemptId] := by
  have registered := (startGateway_exclusive exclusive known moved).once
  have underway := (exclusive.holding r known).underway
  unfold startGateway at moved
  split at moved
  case h_2 => contradiction
  case h_1 w doing =>
      rw [Registry.underway, doing] at underway
      cases moved
      refine ⟨_, _, rfl, rfl, underway.2.1, fun member => ?_, rfl⟩
      exact (List.nodup_append.mp registered).2.2 _ member _ List.mem_cons_self rfl

/-- At any time one gateway, of the latched identity, and no attempt twice. -/
theorem one_attempt_at_a_time (reached : registryMachine.Reachable h) : OneAttempt h := by
  have exclusive := reachable_exclusive reached
  refine ⟨fun r known live here unrevoked => ?_, exclusive.once,
    ⟨fun live member => (exclusive.lost live member).1.named,
    fun r known live here => ?_⟩, fun call after moved => ?_, fun r known attemptId absent member =>
      ?_, fun r live known serves => ?_⟩
  · rcases here with serves | released
    · exact ⟨serves, ((exclusive.holding r known).serving live serves).latched⟩
    · exact absurd ((exclusive.holding r known).released live released).1 unrevoked
  · rcases here with serves | released
    · exact ((exclusive.holding r known).serving live serves).grounded.named
    · exact ((exclusive.holding r known).released live released).2.1.named
  · rcases step_registered moved with same | ⟨r, known, started⟩
    · exact .inl same
    · exact .inr (startGateway_registers exclusive known started)
  · obtain ⟨identity, more, lines⟩ := exclusive.kept attemptId member
    have nothing : h.ledgers.get attemptId = none := by
      simp only [neverRegistered, Bool.and_eq_true, Option.isNone_iff_eq_none] at absent
      exact absent.2
    rw [Host.lines, nothing] at lines
    contradiction
  · have serving := (exclusive.holding r known).serving live serves
    exact ⟨serving.era, (exclusive.holding r known).era, own serving.grounded.reached⟩

/-- One attempt registered, revoked and released. -/
def releasedOnce : List Call :=
  [.restart true, .register (.ok readingWorld) true, .writeLatch .whole, .syncLatch true,
    .openLedger .fine, .startGateway .whole,
    .act (some readingWorld.policy.identity) (.review "r1" (.ok pageMetadata)),
      .act (some readingWorld.policy.identity) .revoke,
    .release (some readingWorld.policy.identity) true, .unlinkLatch true, .syncRelease true]

theorem one_attempt_at_a_time_released : ∃ h, registryMachine.exec .start releasedOnce = some h ∧
    h.registered = ["attempt"] ∧ OneAttempt h := by
  refine ⟨_, rfl, by rfl, one_attempt_at_a_time ⟨.start, releasedOnce, rfl, rfl⟩⟩

end ProxyPilot.Gateway
