import ProxyPilot.Firewall.Lockout
import ProxyPilot.Firewall.Toggle
import ProxyPilot.Transition.System

namespace ProxyPilot.Firewall

open Data
open Vpn (Peer)

/-- Under the panic flag an enabled rule goes back to a rule that was enabled right
after panic-close: the same protocol and the same sources, and the same ports
unless `setPort` gave it others. -/
inductive Call where
  | enable (id : String) (scope : Option Scope) (sourceCidrs : Option (List String)) (service : Option String)
  | disable (id : String)
  | setPort (id : String) (port : Nat) (portEnd : Option Nat)
  | setScope (id : String) (scope : Scope) (sourceCidrs : Option (List String)) (service : Option String)
  | addManual (new : NewRule) (now : Nat)
  | addServiceL4 (id : String) (new : NewRule) (now : Nat)
  | removeManual (id : String)
  | removeServiceL4 (id : String)
  | allowEgress (container service : String) (reason containerIp : Option String)
  | denyEgress (container service : String)
  | reconcileDiscovery (discoveredSet : List Listener) (now : Nat)
  | panicClose
  | panicOpen

def perform (collation : Collation) : Call → State → Except String State
  | .enable id scope sourceCidrs service => enable id scope sourceCidrs service
  | .disable id => disable id
  | .setPort id port portEnd => setPort id port portEnd
  | .setScope id scope sourceCidrs service => setScope id scope sourceCidrs service
  | .addManual new now => addManual collation new now
  | .addServiceL4 id new now => addServiceL4 collation id new now
  | .removeManual id => removeManual id
  | .removeServiceL4 id => removeServiceL4 id
  | .allowEgress container service reason containerIp => allowEgress container service reason containerIp
  | .denyEgress container service => denyEgress container service
  | .reconcileDiscovery discoveredSet now => fun state => .ok (reconcileDiscovery collation discoveredSet now state)
  | .panicClose => fun state => .ok (panicClose state)
  | .panicOpen => fun state => .ok (panicOpen state)

/-- The state file after a call: a call that throws, or whose write fails, leaves it as it was. -/
def after (collation : Collation) (state : State) (call : Call × Bool) : State :=
  match perform collation call.1 state with
  | .ok next => if call.2 then next else state
  | .error _ => state

def run (collation : Collation) (state : State) (calls : List (Call × Bool)) : State :=
  calls.foldl (after collation) state

/-- Neither `panicOpen` nor a new rule of an L4 forward. -/
def Call.locked : Call → Bool
  | .panicOpen | .addServiceL4 .. => false
  | _ => true

/-- The columns the sources of a rendered rule come from. -/
structure Rule.SameReach (old new : Rule) : Prop where
  id : new.id = old.id
  proto : new.proto = old.proto
  scope : new.scope = old.scope
  source_cidrs : new.source_cidrs = old.source_cidrs
  service : new.service = old.service

/-- The rule has the ports of the old one, or those a `setPort` of the list gave its id. -/
def PortsFrom (moves : List (String × Nat × Option Nat)) (old new : Rule) : Prop :=
  (new.port_start = old.port_start ∧ new.port_end = old.port_end) ∨ (new.id, new.port_start, new.port_end) ∈ moves

/-- A rule of `rules` the new one goes back to. -/
def ComesFrom (moves : List (String × Nat × Option Nat)) (rules : List Rule) (new : Rule) : Prop :=
  ∃ old ∈ rules, old.SameReach new ∧ PortsFrom moves old new

/-- Every rule that is enabled, or that panic-close would enable, goes back to a rule enabled at first. -/
structure Locked (moves : List (String × Nat × Option Nat)) (first : State) (state : State) : Prop where
  flag : state.panic_close = true
  enabled : ∀ rule ∈ state.rules, rule.enabled = true → ComesFrom moves (first.rules.filter (·.enabled)) rule
  ssh : ∀ rule ∈ state.base, rule.id = "base-ssh" → ComesFrom moves (first.rules.filter (·.enabled)) rule

theorem Rule.SameReach.refl (rule : Rule) : rule.SameReach rule := ⟨rfl, rfl, rfl, rfl, rfl⟩

variable {first second third : Rule} {fn : Rule → Except String Rule} {rule : Rule}
  {action : Action} {found : Table Rule} {calls : List (Call × Bool)} {allow : AllowRule}
  {saddr : Address} {tools : Tools}

theorem Rule.SameReach.trans (left : first.SameReach second) (right : second.SameReach third) :
    first.SameReach third :=
  ⟨right.id.trans left.id, right.proto.trans left.proto, right.scope.trans left.scope,
    right.source_cidrs.trans left.source_cidrs, right.service.trans left.service⟩

theorem PortsFrom.refl (moves : List (String × Nat × Option Nat)) (rule : Rule) :
    PortsFrom moves rule rule := Or.inl ⟨rfl, rfl⟩

theorem PortsFrom.trans {moves : List (String × Nat × Option Nat)} (left : PortsFrom moves first second)
    (right : PortsFrom moves second third) (reach : second.SameReach third) : PortsFrom moves first third := by
  rcases right with ⟨start, last⟩ | moved
  · rcases left with ⟨start', last'⟩ | moved
    · exact Or.inl ⟨start.trans start', last.trans last'⟩
    · refine Or.inr ?_
      rwa [reach.id, start, last]
  · exact Or.inr moved

/-- What one call under the panic flag may do to the rules. -/
structure Narrows (moves : List (String × Nat × Option Nat)) (state next : State) : Prop where
  flag : state.panic_close = true → next.panic_close = true
  enabled : ∀ rule ∈ next.rules, rule.enabled = true →
    ∃ old ∈ state.rules, old.SameReach rule ∧ PortsFrom moves old rule ∧
      (old.enabled = true ∨ (old ∈ state.base ∧ old.id = "base-ssh"))
  base : ∀ rule ∈ next.base, ∃ old ∈ state.base, old.SameReach rule ∧ PortsFrom moves old rule

theorem Narrows.refl (moves : List (String × Nat × Option Nat)) (state : State) : Narrows moves state state where
  flag := id
  enabled := fun rule member enabled => ⟨rule, member, .refl rule, .refl moves rule, Or.inl enabled⟩
  base := fun rule member => ⟨rule, member, .refl rule, .refl moves rule⟩

variable {old new : Rule} {rules : List Rule} {id : String} {state : State} {port : Nat}
  {proto : Proto} {peers : List Peer}

theorem ComesFrom.next {moves : List (String × Nat × Option Nat)} (origin : ComesFrom moves rules old)
    (reach : old.SameReach new) (ports : PortsFrom moves old new) : ComesFrom moves rules new := by
  obtain ⟨source, member, before, earlier⟩ := origin
  exact ⟨source, member, before.trans reach, earlier.trans ports reach⟩

theorem Locked.next {moves : List (String × Nat × Option Nat)} {first state next : State}
    (locked : Locked moves first state)
    (step : Narrows moves state next) : Locked moves first next where
  flag := step.flag locked.flag
  enabled := by
    intro rule member enabled
    obtain ⟨old, oldMember, reach, ports, on | ⟨inBase, named⟩⟩ := step.enabled rule member enabled
    · exact (locked.enabled old oldMember on).next reach ports
    · exact (locked.ssh old inBase named).next reach ports
  ssh := by
    intro rule member named
    obtain ⟨old, oldMember, reach, ports⟩ := step.base rule member
    exact (locked.ssh old oldMember (reach.id.symm.trans named)).next reach ports

/-- The ports a call may give a rule. -/
def Call.moves : Call → List (String × Nat × Option Nat)
  | .setPort id port portEnd => [(id, port, portEnd)]
  | _ => []

theorem updateFirst_mem {rules updated : List Rule}
    (done : updateFirst id fn rules = .ok updated) (member : rule ∈ updated) :
    rule ∈ rules ∨ ∃ old ∈ rules, old.id = id ∧ fn old = .ok rule := by
  induction rules generalizing updated with
  | nil => cases done
  | cons head rest ih =>
    rw [updateFirst] at done
    split at done
    case isTrue named =>
      obtain ⟨changed, gives, rfl⟩ := map_ok.mp done
      rcases List.mem_cons.mp member with rfl | member
      · exact Or.inr ⟨head, List.mem_cons_self, named, gives⟩
      · exact Or.inl (List.mem_cons_of_mem _ member)
    case isFalse =>
      obtain ⟨tail, gives, rfl⟩ := map_ok.mp done
      rcases List.mem_cons.mp member with rfl | member
      · exact Or.inl List.mem_cons_self
      · rcases ih gives member with same | ⟨old, oldMember, named, changed⟩
        · exact Or.inl (List.mem_cons_of_mem _ same)
        · exact Or.inr ⟨old, List.mem_cons_of_mem _ oldMember, named, changed⟩

/-- A mutation that neither enables a rule nor changes its sources. -/
theorem mutate_narrows {moves : List (String × Nat × Option Nat)} {state next : State}
    (done : mutate state id action fn = .ok next)
    (keeps : ∀ old new, old.id = id → fn old = .ok new → old.SameReach new ∧
    PortsFrom moves old new ∧ (new.enabled = true → old.enabled = true)) :
    Narrows moves state next := by
  have origin {rules updated : List Rule} (changed : updateFirst id fn rules = .ok updated)
      (rule : Rule) (member : rule ∈ updated) :
      ∃ old ∈ rules, old.SameReach rule ∧ PortsFrom moves old rule ∧
        (rule.enabled = true → old.enabled = true) := by
    rcases updateFirst_mem changed member with same | ⟨old, oldMember, named, gives⟩
    · exact ⟨rule, same, .refl rule, .refl moves rule, fun on => on⟩
    · exact ⟨old, oldMember, keeps old rule named gives⟩
  obtain ⟨_, _, done⟩ := bind_ok.mp done
  split at done
  case isTrue =>
    obtain ⟨base, changed, same⟩ := bind_ok.mp done
    cases same
    constructor
    case flag => exact fun on => on
    case enabled =>
      intro rule member on
      rcases List.mem_append.mp member with member | member
      · obtain ⟨old, oldMember, reach, ports, was⟩ := origin changed rule member
        exact ⟨old, List.mem_append_left _ oldMember, reach, ports, Or.inl (was on)⟩
      · exact ⟨rule, List.mem_append_right _ member, .refl rule, .refl moves rule, Or.inl on⟩
    case base =>
      intro rule member
      obtain ⟨old, oldMember, reach, ports, _⟩ := origin changed rule member
      exact ⟨old, oldMember, reach, ports⟩
  case isFalse =>
    obtain ⟨discovered, changed, same⟩ := bind_ok.mp done
    cases same
    constructor
    case flag => exact fun on => on
    case enabled =>
      intro rule member on
      rcases List.mem_append.mp member with member | member
      · exact ⟨rule, List.mem_append_left _ member, .refl rule, .refl moves rule, Or.inl on⟩
      · obtain ⟨old, oldMember, reach, ports, was⟩ := origin changed rule member
        exact ⟨old, List.mem_append_right _ oldMember, reach, ports, Or.inl (was on)⟩
    case base => exact fun rule member => ⟨rule, member, .refl rule, .refl moves rule⟩

/-- Only the discovered rules change, and the enabled ones among them were there. -/
theorem discovered_narrows {moves : List (String × Nat × Option Nat)} {state next : State}
    (flag : next.panic_close = state.panic_close)
    (base : next.base = state.base)
    (origin : ∀ rule ∈ next.discovered, rule.enabled = true →
      ∃ old ∈ state.discovered, old.SameReach rule ∧ PortsFrom moves old rule ∧
        old.enabled = true) : Narrows moves state next where
  flag := fun on => flag.trans on
  enabled := by
    intro rule member on
    rcases List.mem_append.mp member with member | member
    · exact ⟨rule, List.mem_append_left _ (base ▸ member), .refl rule, .refl moves rule, Or.inl on⟩
    · obtain ⟨old, oldMember, reach, ports, was⟩ := origin rule member on
      exact ⟨old, List.mem_append_right _ oldMember, reach, ports, Or.inl was⟩
  base := fun rule member => ⟨rule, base ▸ member, .refl rule, .refl moves rule⟩

/-- The actions the guard lists are refused under the flag. -/
theorem panicGuard_refuses (flag : state.panic_close = true)
    (listed : action = .enable ∨ action = .setScope ∨ action = .addManual) :
    ∃ reason, panicGuard state action = .error reason := by
  rcases listed with rfl | rfl | rfl
  all_goals exact ⟨_, by simp [panicGuard, flag, require]; rfl⟩

theorem removeFrom_narrows {moves : List (String × Nat × Option Nat)} {source : Source} {state next : State}
    (done : removeFrom source id state = .ok next) : Narrows moves state next := by
  simp only [removeFrom, bind_ok] at done
  obtain ⟨_, _, _, _, same⟩ := done
  cases same
  refine discovered_narrows rfl rfl fun rule member on => ?_
  exact ⟨rule, List.mem_of_mem_eraseP member, .refl rule, .refl moves rule, on⟩

/-- A rule of the scan's map that is enabled stood enabled in the list. -/
def FromList (rules : List Rule) (found : Table Rule) : Prop :=
  ∀ rule ∈ found.rows, rule.enabled = true → ∃ old ∈ rules, old.SameReach rule ∧ rule.port_start = old.port_start ∧
    rule.port_end = old.port_end ∧ old.enabled = true

theorem fromList_existing (rules : List Rule) : FromList rules (rules.foldl Table.put ∅) := by
  have general (added : List Rule) (within : ∀ rule ∈ added, rule ∈ rules) (found : Table Rule)
      (start : FromList rules found) :
      FromList rules (added.foldl Table.put found) := by
    induction added generalizing found with
    | nil => exact start
    | cons rule rest ih =>
      refine ih (fun other member => within other (List.mem_cons_of_mem _ member)) _ ?_
      intro other member on
      rcases Table.mem_put.mp member with rfl | ⟨old, _⟩
      · exact ⟨other, within other List.mem_cons_self, .refl other, rfl, rfl, on⟩
      · exact start other old on
  exact general rules (fun _ member => member) ∅ fun _ member => nomatch member

theorem fromList_discoverOne (start : FromList rules found) (now : Nat) (rec : Listener) :
    FromList rules (discoverOne now found rec) := by
  intro rule member on
  unfold discoverOne at member
  split at member
  case h_1 current present =>
    rcases Table.mem_put.mp member with rfl | ⟨old, _⟩
    · obtain ⟨old, oldMember, reach, ports⟩ := start current (Table.get_mem present) on
      exact ⟨old, oldMember, reach.trans ⟨rfl, rfl, rfl, rfl, rfl⟩, ports⟩
    · exact start rule old on
  case h_2 =>
    rcases Table.mem_put.mp member with rfl | ⟨old, _⟩
    · cases on
    · exact start rule old on

theorem fromList_scan (start : FromList rules found) (now : Nat) (listeners : List Listener) :
    FromList rules (listeners.foldl (discoverOne now) found) := by
  induction listeners generalizing found with
  | nil => exact start
  | cons rec rest ih => exact ih (fromList_discoverOne start now rec)

theorem reconcileDiscovery_narrows (moves : List (String × Nat × Option Nat))
    (collation : Collation) (discoveredSet : List Listener)
    (now : Nat) (state : State) : Narrows moves state (reconcileDiscovery collation discoveredSet now state) := by
  refine discovered_narrows rfl rfl fun rule member on => ?_
  have kept := (List.mergeSort_perm _ _).mem_iff.mp member
  have found := fromList_scan (fromList_existing state.discovered) now discoveredSet
  obtain ⟨old, oldMember, reach, start, last, was⟩ := found rule (List.mem_filter.mp kept).1 on
  exact ⟨old, oldMember, reach, Or.inl ⟨start, last⟩, was⟩

theorem panicClose_narrows (moves : List (String × Nat × Option Nat)) (state : State) :
    Narrows moves state (panicClose state) where
  flag := fun _ => rfl
  enabled := by
    intro rule member on
    rcases List.mem_append.mp member with member | member
    · obtain ⟨old, oldMember, rfl⟩ := List.mem_map.mp member
      refine ⟨old, List.mem_append_left _ oldMember, ⟨rfl, rfl, rfl, rfl, rfl⟩, Or.inl ⟨rfl, rfl⟩, ?_⟩
      simp only [Rule.panicKeeps, Bool.or_eq_true, Bool.and_eq_true, beq_iff_eq] at on
      rcases on with named | ⟨_, was⟩
      · exact Or.inr ⟨oldMember, named⟩
      · exact Or.inl was
    · obtain ⟨old, _, rfl⟩ := List.mem_map.mp member
      cases on
  base := by
    intro rule member
    obtain ⟨old, oldMember, rfl⟩ := List.mem_map.mp member
    exact ⟨old, oldMember, ⟨rfl, rfl, rfl, rfl, rfl⟩, Or.inl ⟨rfl, rfl⟩⟩

theorem perform_narrows {collation : Collation} {call : Call} {state next : State} (flag : state.panic_close = true)
    (locked : call.locked = true) (done : perform collation call state = .ok next) :
    Narrows call.moves state next := by
  cases call with
  | enable id scope sourceCidrs service =>
    obtain ⟨_, passed, _⟩ := bind_ok.mp done
    obtain ⟨_, refused⟩ := panicGuard_refuses flag (Or.inl rfl)
    cases passed.symm.trans refused
  | disable id =>
    refine mutate_narrows done fun old new _ gives => ?_
    cases gives
    exact ⟨⟨rfl, rfl, rfl, rfl, rfl⟩, Or.inl ⟨rfl, rfl⟩, fun off => nomatch off⟩
  | setPort id port portEnd =>
    obtain ⟨_, _, done⟩ := bind_ok.mp done
    refine mutate_narrows done fun old new named gives => ?_
    cases gives
    exact ⟨⟨rfl, rfl, rfl, rfl, rfl⟩, Or.inr (by simp [Call.moves, named]), fun on => on⟩
  | setScope id scope sourceCidrs service =>
    obtain ⟨_, _, done⟩ := bind_ok.mp done
    obtain ⟨_, passed, _⟩ := bind_ok.mp done
    obtain ⟨_, refused⟩ := panicGuard_refuses flag (Or.inr (Or.inl rfl))
    cases passed.symm.trans refused
  | addManual new now =>
    simp only [perform, addManual, addRule, bind_ok] at done
    obtain ⟨_, _, _, _, _, _, _, passed, _⟩ := done
    obtain ⟨_, refused⟩ := panicGuard_refuses flag (Or.inr (Or.inr rfl))
    cases passed.symm.trans refused
  | addServiceL4 id new now => cases locked
  | removeManual id => exact removeFrom_narrows done
  | removeServiceL4 id => exact removeFrom_narrows done
  | allowEgress container service reason containerIp =>
    obtain ⟨_, _, same⟩ := bind_ok.mp done
    cases same
    exact discovered_narrows rfl rfl fun rule member on => ⟨rule, member, .refl rule, .refl _ rule, on⟩
  | denyEgress container service =>
    cases done
    exact discovered_narrows rfl rfl fun rule member on => ⟨rule, member, .refl rule, .refl _ rule, on⟩
  | reconcileDiscovery discoveredSet now =>
    cases done
    exact reconcileDiscovery_narrows _ collation discoveredSet now state
  | panicClose =>
    cases done
    exact panicClose_narrows _ state
  | panicOpen => cases locked

/-- The ports the calls may give to rules. -/
def movesOf (calls : List (Call × Bool)) : List (String × Nat × Option Nat) :=
  calls.flatMap fun call => call.1.moves

theorem PortsFrom.mono {moves more : List (String × Nat × Option Nat)} (within : moves ⊆ more)
    (ports : PortsFrom moves old new) : PortsFrom more old new := ports.imp_right fun moved => within moved

theorem Narrows.mono {moves more : List (String × Nat × Option Nat)} (within : moves ⊆ more) {state next : State}
    (step : Narrows moves state next) : Narrows more state next where
  flag := step.flag
  enabled := fun rule member on =>
    let ⟨old, oldMember, reach, ports, was⟩ := step.enabled rule member on
    ⟨old, oldMember, reach, ports.mono within, was⟩
  base := fun rule member =>
    let ⟨old, oldMember, reach, ports⟩ := step.base rule member
    ⟨old, oldMember, reach, ports.mono within⟩

theorem after_narrows (collation : Collation) {call : Call × Bool} (flag : state.panic_close = true)
    (locked : call.1.locked = true) : Narrows call.1.moves state (after collation state call) := by
  unfold after
  split
  case h_1 next done =>
    split
    · exact perform_narrows flag locked done
    · exact Narrows.refl _ state
  case h_2 => exact Narrows.refl _ state

theorem run_locked (collation : Collation) {moves : List (String × Nat × Option Nat)} {first : State}
    (locked : ∀ call ∈ calls, call.1.locked = true) (within : movesOf calls ⊆ moves)
    (before : Locked moves first state) :
    Locked moves first (run collation state calls) := by
  induction calls generalizing state with
  | nil => exact before
  | cons call rest ih =>
    have step := after_narrows collation before.flag (locked call List.mem_cons_self)
    have here : call.1.moves ⊆ moves := fun moved member => within (List.mem_append_left _ member)
    refine ih (fun other member => locked other (List.mem_cons_of_mem _ member)) ?_ (before.next (step.mono here))
    exact fun moved member => within (List.mem_append_right _ member)

/-- Right after panic-close the state is locked onto itself. -/
theorem panicClose_locked (moves : List (String × Nat × Option Nat)) (state : State) :
    Locked moves (panicClose state) (panicClose state) where
  flag := rfl
  enabled := fun rule member on => ⟨rule, List.mem_filter.mpr ⟨member, on⟩, .refl rule, .refl moves rule⟩
  ssh := by
    intro rule member named
    refine ⟨rule, List.mem_filter.mpr ⟨List.mem_append_left _ member, ?_⟩, .refl rule, .refl moves rule⟩
    obtain ⟨old, _, rfl⟩ := List.mem_map.mp member
    have isSsh : old.id = "base-ssh" := named
    simp [Rule.panicKeeps, isSsh]

/-- `base_input` or `discovered_input` accepts the protocol, port and source. -/
def Ruleset.Accepts (tools : Tools) (ruleset : Ruleset) (proto : Proto) (port : Nat) (saddr : Address) : Prop :=
  ∃ rule ∈ ruleset.base_input ++ ruleset.discovered_input, rule.accepts tools proto.transport port saddr = true

theorem accepts_parts :
    allow.accepts tools proto.transport port saddr = true ↔
      allow.proto = proto ∧ allow.toPort port = true ∧ allow.fromSource tools saddr = true := by
  cases proto <;> cases named : allow.proto <;> simp [AllowRule.accepts, Proto.transport, named]

/-- Rules with the same reach get the same sources. -/
theorem resolveRule_sources (reach : old.SameReach new) (oldOn : old.enabled = true)
    (newOn : new.enabled = true) : sourcesFor (resolveRule peers new) = sourcesFor (resolveRule peers old) := by
  have explicit : new.explicitSources = old.explicitSources := by simp [Rule.explicitSources, reach.source_cidrs]
  have tag : new.serviceTag = old.serviceTag := by simp [Rule.serviceTag, reach.service]
  by_cases scope : old.scope = .vpnOnly
  · cases listed : old.explicitSources with
    | none =>
      rw [resolveRule_vpnOnly newOn (reach.scope.trans scope) (explicit.trans listed),
        resolveRule_vpnOnly oldOn scope listed, tag]
    | some cidrs =>
      rw [resolveRule_explicit (explicit.trans listed), resolveRule_explicit listed]
      simp [sourcesFor, explicit, listed]
  · rw [resolveRule_other (by rwa [reach.scope]), resolveRule_other scope]
    simp [sourcesFor, explicit, reach.scope]

theorem accepts_iff {ruleset : Ruleset}
    (rendered : render tools.isIPv6 (resolveVpnSources peers state) = .ok ruleset) :
    ruleset.Accepts tools proto port saddr ↔ ∃ rule ∈ state.rules, rule.enabled = true ∧
      ∃ allow, renderAllowRule (resolveRule peers rule) = .ok allow ∧
        allow.accepts tools proto.transport port saddr = true := by
  constructor
  · rintro ⟨allow, member, accepted⟩
    obtain ⟨resolved, resolvedMember, on, gives⟩ := (render_rules rendered).mp member
    obtain ⟨rule, ruleMember, rfl⟩ := mem_resolveVpnSources.mp resolvedMember
    exact ⟨rule, ruleMember, (resolveRule_fields peers rule).1.symm.trans on, allow, gives, accepted⟩
  · rintro ⟨rule, member, on, allow, gives, accepted⟩
    have resolvedMember : resolveRule peers rule ∈ (resolveVpnSources peers state).rules :=
      mem_resolveVpnSources.mpr ⟨rule, member, rfl⟩
    have resolvedOn := (resolveRule_fields peers rule).1.trans on
    exact ⟨allow, (render_rules rendered).mpr ⟨_, resolvedMember, resolvedOn, gives⟩, accepted⟩

/-- The ports of a rendered rule lie in the range the rule names. -/
theorem toPort_range (gives : renderAllowRule (resolveRule peers rule) = .ok allow)
    (inside : allow.toPort port = true) :
    rule.port_start ≤ port ∧ port ≤ max rule.port_start (rule.port_end.getD rule.port_start) := by
  obtain ⟨_, _, start, last, _⟩ := resolveRule_fields peers rule
  obtain ⟨sources, _, rfl⟩ := map_ok.mp gives
  simp only [AllowRule.toPort, portMatch, start, last] at inside
  cases stop : rule.port_end with
  | none =>
    simp only [stop, Option.filter_none, beq_iff_eq] at inside
    simp only [Option.getD_none]
    omega
  | some stop' =>
    simp only [stop, Option.filter_some] at inside
    simp only [Option.getD_some]
    by_cases range : (stop' != 0 && stop' != rule.port_start) = true
    · simp only [range, if_true, decide_eq_true_eq] at inside
      omega
    · simp only [range] at inside
      simp only [Bool.false_eq_true, if_false, beq_iff_eq] at inside
      omega

/-- Rules with the same reach render to the same protocol and sources, and to the same ports where
those are the same. -/
theorem rendered_reach {oldAllow allow : AllowRule} (reach : old.SameReach new)
    (oldOn : old.enabled = true) (newOn : new.enabled = true)
    (oldGives : renderAllowRule (resolveRule peers old) = .ok oldAllow)
    (gives : renderAllowRule (resolveRule peers new) = .ok allow) :
    oldAllow.proto = allow.proto ∧ oldAllow.sources = allow.sources ∧
      (new.port_start = old.port_start ∧ new.port_end = old.port_end → oldAllow.toPort = allow.toPort) := by
  obtain ⟨_, oldProto, oldStart, oldLast, _⟩ := resolveRule_fields peers old
  obtain ⟨_, newProto, newStart, newLast, _⟩ := resolveRule_fields peers new
  obtain ⟨oldSources, oldSourced, rfl⟩ := map_ok.mp oldGives
  obtain ⟨sources, sourced, rfl⟩ := map_ok.mp gives
  have sameSources : oldSources = sources := by
    rw [resolveRule_sources reach oldOn newOn, oldSourced] at sourced
    exact Except.ok.inj sourced
  refine ⟨by rw [oldProto, newProto, reach.proto], sameSources, fun ⟨start, last⟩ => ?_⟩
  funext port
  simp only [AllowRule.toPort, portMatch, oldStart, oldLast, newStart, newLast, start, last]

theorem movesOf_setPort {start : Nat} {stop : Option Nat}
    (moved : (id, start, stop) ∈ movesOf calls) : ∃ written, (Call.setPort id start stop, written) ∈ calls := by
  obtain ⟨⟨call, written⟩, member, inside⟩ := List.mem_flatMap.mp moved
  cases call with
  | setPort id' start' stop' =>
    simp only [Call.moves, List.mem_singleton, Prod.mk.injEq] at inside
    obtain ⟨rfl, rfl, rfl⟩ := inside
    exact ⟨written, member⟩
  | _ => cases inside

/-- A port of the range a `setPort` call named. -/
def movedTo (calls : List (Call × Bool)) (port : Nat) : Prop :=
  ∃ id start stop written, (Call.setPort id start stop, written) ∈ calls ∧ start ≤ port ∧
    port ≤ max start (stop.getD start)

/-- Panic-close turns on `base-ssh` and nothing else, and until `panicOpen` no call other than a new
L4 forward widens what the chains accept, save that `setPort` moves a rule to the ports it names. -/
theorem panic_narrows (collation : Collation) (tools : Tools) (peers : List Peer) (state : State) :
    List.Forall₂ (fun old new => new.enabled = true → old.enabled = true ∨
      old.id = "base-ssh") state.rules (panicClose state).rules ∧
    ∀ (calls : List (Call × Bool)) (first last : Ruleset), (∀ call ∈ calls, call.1.locked = true) →
      render tools.isIPv6 (resolveVpnSources peers (panicClose state)) = .ok first →
      render tools.isIPv6 (resolveVpnSources peers (run collation (panicClose state) calls)) = .ok last →
      ∀ proto port saddr, last.Accepts tools proto port saddr →
        first.Accepts tools proto port saddr ∨
          (movedTo calls port ∧
            ∃ rule ∈ first.base_input ++ first.discovered_input, rule.proto = proto ∧
              rule.fromSource tools saddr = true) := by
  constructor
  · refine List.rel_append ?_ ?_
    · refine List.forall₂_map_right_iff.mpr (List.forall₂_same.mpr fun rule _ on => ?_)
      simp only [Rule.panicKeeps, Bool.or_eq_true, Bool.and_eq_true, beq_iff_eq] at on
      exact on.symm.imp_left And.right
    · exact List.forall₂_map_right_iff.mpr (List.forall₂_same.mpr fun rule _ on => nomatch on)
  · intro calls first last locked renderedFirst renderedLast proto port saddr accepted
    obtain ⟨rule, member, on, allow, gives, accepts⟩ := (accepts_iff renderedLast).mp accepted
    obtain ⟨isProto, inside, source⟩ := accepts_parts.mp accepts
    have kept := run_locked collation locked (fun _ moved => moved) (panicClose_locked (movesOf calls) state)
    obtain ⟨old, oldMember, reach, ports⟩ := kept.enabled rule member on
    obtain ⟨oldMember, oldOn⟩ := List.mem_filter.mp oldMember
    have resolvedMember : resolveRule peers old ∈ (resolveVpnSources peers (panicClose state)).rules :=
      mem_resolveVpnSources.mpr ⟨old, oldMember, rfl⟩
    have resolvedOn := (resolveRule_fields peers old).1.trans oldOn
    obtain ⟨oldAllow, oldGives⟩ := render_each renderedFirst resolvedMember resolvedOn
    have oldIn := (render_rules renderedFirst).mpr ⟨_, resolvedMember, resolvedOn, oldGives⟩
    obtain ⟨sameProto, sameSource, samePorts⟩ := rendered_reach reach oldOn on oldGives gives
    have oldProto : oldAllow.proto = proto := sameProto.trans isProto
    have oldSource : oldAllow.fromSource tools saddr = true := by
      unfold AllowRule.fromSource at source ⊢
      rwa [sameSource]
    rcases ports with unmoved | moved
    · exact Or.inl ⟨oldAllow, oldIn, accepts_parts.mpr ⟨oldProto, by rwa [samePorts unmoved], oldSource⟩⟩
    · obtain ⟨written, called⟩ := movesOf_setPort moved
      obtain ⟨lower, upper⟩ := toPort_range gives inside
      exact Or.inr ⟨⟨rule.id, rule.port_start, rule.port_end, written, called, lower, upper⟩,
        oldAllow, oldIn, oldProto, oldSource⟩

/-- A fresh state with SSH switched off and WireGuard on. -/
def sshOff : State :=
  { defaultState 0 with
    base := (DEFAULT_BASE 0).map fun rule => { rule with enabled := rule.id == "base-wireguard" } }

/-- The chains rendered from a state accept an address from outside. -/
def acceptance (state : State) (proto : Proto) (port : Nat) : Option Bool :=
  (render plainTools.isIPv6 (resolveVpnSources [] state)).toOption.map fun ruleset =>
    (ruleset.base_input ++ ruleset.discovered_input).any fun rule =>
      rule.accepts plainTools proto.transport port (.v4 ⟨8, 8, 8, 8⟩)

theorem acceptance_spec {answer : Bool} (computed : acceptance state proto port = some answer) :
    ∃ ruleset, render plainTools.isIPv6 (resolveVpnSources [] state) = .ok ruleset ∧
      (ruleset.Accepts plainTools proto port (.v4 ⟨8, 8, 8, 8⟩) ↔ answer = true) := by
  unfold acceptance at computed
  cases rendered : render plainTools.isIPv6 (resolveVpnSources [] state) with
  | error reason => simp [rendered, Except.toOption] at computed
  | ok ruleset =>
    simp only [rendered, Except.toOption, Option.map_some, Option.some.injEq] at computed
    exact ⟨ruleset, rfl, by rw [← computed, List.any_eq_true, Ruleset.Accepts]⟩

/-- WireGuard moves to another port. -/
def portMove : List (Call × Bool) := [(.setPort "base-wireguard" 51821 none, true)]

theorem portMove_acceptance : acceptance (panicClose sshOff) .udp 51821 = some false ∧
    acceptance (run (fun _ _ => true) (panicClose sshOff) portMove) .udp 51821 = some true := by decide +kernel

theorem panic_narrows_portMove : ∃ first last : Ruleset,
    render plainTools.isIPv6 (resolveVpnSources [] (panicClose sshOff)) = .ok first ∧
      last.Accepts plainTools .udp 51821 (.v4 ⟨8, 8, 8, 8⟩) ∧
      (first.Accepts plainTools .udp 51821 (.v4 ⟨8, 8, 8, 8⟩) ∨
        (movedTo portMove 51821 ∧ ∃ rule ∈ first.base_input ++ first.discovered_input,
          rule.proto = .udp ∧ rule.fromSource plainTools (.v4 ⟨8, 8, 8, 8⟩) = true)) := by
  obtain ⟨first, renderedFirst, _⟩ := acceptance_spec portMove_acceptance.1
  obtain ⟨last, renderedLast, accepts⟩ := acceptance_spec portMove_acceptance.2
  have accepted := accepts.mpr rfl
  exact ⟨first, last, renderedFirst, accepted,
    (panic_narrows (fun _ _ => true) plainTools [] sshOff).2 portMove first last (by decide)
      renderedFirst renderedLast _ _ _ accepted⟩

/-- Panic-close turns SSH on, and a port moved after it is open where it was not. -/
theorem panicClose_opens :
    (¬ List.Forall₂ (fun old new => new.enabled = true →
      old.enabled = true) sshOff.rules (panicClose sshOff).rules) ∧
      ∃ first last : Ruleset, render plainTools.isIPv6 (resolveVpnSources [] (panicClose sshOff)) = .ok first ∧
        render plainTools.isIPv6
          (resolveVpnSources [] (run (fun _ _ => true) (panicClose sshOff) portMove)) = .ok last ∧
        last.Accepts plainTools .udp 51821 (.v4 ⟨8, 8, 8, 8⟩) ∧
          ¬ first.Accepts plainTools .udp 51821 (.v4 ⟨8, 8, 8, 8⟩) := by
  constructor
  · intro all
    cases all with
    | cons ssh _ => exact absurd (ssh rfl) (by decide)
  · obtain ⟨first, renderedFirst, closed⟩ := acceptance_spec portMove_acceptance.1
    obtain ⟨last, renderedLast, accepts⟩ := acceptance_spec portMove_acceptance.2
    exact ⟨first, last, renderedFirst, renderedLast, accepts.mpr rfl, fun accepted => nomatch closed.mp accepted⟩

end ProxyPilot.Firewall
