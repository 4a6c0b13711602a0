import ProxyPilot.Firewall.Toggle

namespace ProxyPilot.Firewall

open Data Keyed

/-! # Discovered listeners and their rules (`discover.js`)

A rule is found again by the text of its id, which is made of the listener's fields.  Here the
rules carry their container too.
-/

structure Discovered where
  rule : Rule
  container : Option String
  first_seen : Nat

instance : Keyed Discovered String := ⟨fun entry => entry.rule.id⟩

/-- A listener seen again. -/
def Discovered.seen (entry : Discovered) (rec : Listener) (now : Nat) : Discovered :=
  { entry with rule := entry.rule.seen rec now }

def Listener.entry (rec : Listener) (now : Nat) : Discovered := ⟨rec.rule now, rec.container, now⟩

def discoverEntry (now : Nat) (existing : Table Discovered) (rec : Listener) : Table Discovered :=
  match existing.get (ruleId rec) with
  | some current => existing.put (current.seen rec now)
  | none => existing.put (rec.entry now)

/-- The rules after a scan, before they are sorted. -/
def discoveredTable (discoveredSet : List Listener) (now : Nat) (discovered : List Discovered) : Table Discovered :=
  (discoveredSet.foldl (discoverEntry now) (discovered.foldl Table.put ∅)).filter fun entry =>
    !entry.rule.stale (discoveredSet.map (·.source)) now

def discoveredAfter (collation : Collation) (discoveredSet : List Listener) (now : Nat)
    (discovered : List Discovered) : List Discovered :=
  (discoveredTable discoveredSet now discovered).rows.mergeSort fun left right =>
    collation left.rule.id right.rule.id

/-- The ports of a listener; an end that is absent or zero is its start. -/
def portsOf (start : Nat) (last : Option Nat) : Nat × Nat := (start, (last.filter (· != 0)).getD start)

/-- Source, container, process, ports and protocol. -/
structure Fields where
  source : Source
  container : Option String
  process : Option String
  ports : Nat × Nat
  proto : Proto
deriving DecidableEq

def Listener.fields (rec : Listener) : Fields :=
  ⟨rec.source, rec.container, rec.process, portsOf rec.port_start rec.port_end, rec.proto⟩

def Discovered.fields (entry : Discovered) : Fields :=
  ⟨entry.rule.source, entry.container, entry.rule.process,
    portsOf entry.rule.port_start entry.rule.port_end, entry.rule.proto⟩

/-- The listener's own rule, which its id names, carries its fields. -/
def Carried (rules : List Discovered) (rec : Listener) : Prop :=
  ∃ entry ∈ rules, entry.rule.id = ruleId rec ∧ entry.fields = rec.fields

/-- The id stands for this listener only, in the scan and among the rules; a rule without a
process takes on that of the listener. -/
def Named (discoveredSet : List Listener) (now : Nat) (discovered : List Discovered) (rec : Listener) : Prop :=
  (∀ other ∈ discoveredSet, ruleId other = ruleId rec → other.fields = rec.fields) ∧
    ∀ entry ∈ discovered, entry.rule.id = ruleId rec → (entry.seen rec now).fields = rec.fields

section Step

variable {existing : Table Discovered} {rec : Listener} {now : Nat} {id : String}

@[simp] theorem key_eq (entry : Discovered) : key entry = entry.rule.id := rfl

@[simp] theorem seen_id (entry : Discovered) (rec : Listener) (now : Nat) :
    (entry.seen rec now).rule.id = entry.rule.id := rfl

@[simp] theorem entry_id (rec : Listener) (now : Nat) : (rec.entry now).rule.id = ruleId rec := rfl

/-- What a listener makes of the rule that its id names. -/
def touch (now : Nat) (current : Option Discovered) (rec : Listener) : Option Discovered :=
  some (match current with
    | some entry => entry.seen rec now
    | none => rec.entry now)

theorem get_discoverEntry : (discoverEntry now existing rec).get id =
    if id = ruleId rec then touch now (existing.get id) rec else existing.get id := by
  unfold discoverEntry
  cases found : existing.get (ruleId rec) with
  | some current =>
    have named : current.rule.id = ruleId rec := Table.get_key found
    have same : key (current.seen rec now) = ruleId rec := named
    simp only [Table.get_put, same]
    split
    · next own => rw [own, found, touch]
    · rfl
  | none =>
    have same : key (rec.entry now) = ruleId rec := rfl
    simp only [Table.get_put, same]
    split
    · next own => rw [own, found, touch]
    · rfl

/-- The rule of an id is touched by the listeners with this id. -/
theorem get_scan (discoveredSet : List Listener) : (discoveredSet.foldl (discoverEntry now) existing).get id =
    (discoveredSet.filter (ruleId · = id)).foldl (touch now) (existing.get id) := by
  induction discoveredSet generalizing existing with
  | nil => rfl
  | cons rec rest ih =>
    rw [List.foldl_cons, ih, get_discoverEntry, List.filter_cons]
    by_cases own : ruleId rec = id
    · simp [own]
    · simp [own, Ne.symm own]

variable {discovered : List Discovered}

theorem rows_foldl_put (unique : (discovered.map (·.rule.id)).Nodup) :
    (discovered.foldl Table.put ∅).rows = discovered := by
  have general : ∀ (rest : List Discovered) (table : Table Discovered),
      ((table.rows ++ rest).map (·.rule.id)).Nodup →
      (rest.foldl Table.put table).rows = table.rows ++ rest := by
    intro rest
    induction rest with
    | nil => exact fun table _ => (List.append_nil _).symm
    | cons entry rest ih =>
      intro table unique
      have fresh : table.get (key entry) = none := by
        refine Table.get_eq_none_iff.mpr fun old member same => ?_
        rw [List.map_append, List.map_cons] at unique
        exact (List.nodup_append.mp unique).2.2 _ (List.mem_map.mpr ⟨old, member, rfl⟩) _ List.mem_cons_self same
      have rows := Table.rows_put_new fresh
      rw [List.foldl_cons, ih, rows, List.append_assoc, List.singleton_append]
      rw [rows, List.append_assoc, List.singleton_append]
      exact unique
  exact general discovered ∅ unique

theorem get_existing (unique : (discovered.map (·.rule.id)).Nodup) {entry : Discovered} :
    (discovered.foldl Table.put ∅).get id = some entry ↔ entry ∈ discovered ∧ entry.rule.id = id := by
  rw [Table.get_eq_some_iff, rows_foldl_put unique, key_eq]

end Step

section Plain

variable {table : Table Discovered} {now : Nat}

def rulesOf (table : Table Discovered) : Table Rule :=
  ⟨table.rows.map (·.rule), by
    rw [List.map_map]
    exact table.distinct⟩

theorem get_rulesOf (table : Table Discovered) (id : String) :
    (rulesOf table).get id = (table.get id).map (·.rule) := by
  simp only [Table.get, rulesOf, List.find?_map]
  rfl

theorem rulesOf_put (table : Table Discovered) (entry : Discovered) :
    ((rulesOf table).put entry.rule).rows = (rulesOf (table.put entry)).rows := by
  have plain : (rulesOf table).get (key entry.rule) = (table.get (key entry)).map (·.rule) := get_rulesOf table _
  cases found : table.get (key entry) with
  | none =>
    rw [found] at plain
    rw [Table.rows_put_new plain]
    simp [rulesOf, Table.rows_put_new found]
  | some old =>
    rw [found] at plain
    rw [Table.rows_put_old plain]
    simp only [rulesOf, Table.rows_put_old found, List.map_map]
    refine List.map_congr_left fun other _ => ?_
    by_cases same : other.rule.id = entry.rule.id <;> simp [key, same]

theorem table_ext {left right : Table Rule} (same : left.rows = right.rows) : left = right := by
  cases left
  cases right
  cases same
  rfl

theorem rulesOf_discover (table : Table Discovered) (rec : Listener) :
    rulesOf (discoverEntry now table rec) = discoverOne now (rulesOf table) rec := by
  have plain := get_rulesOf table (ruleId rec)
  unfold discoverEntry discoverOne
  cases found : table.get (ruleId rec) with
  | none =>
    rw [found] at plain
    rw [plain]
    exact table_ext (rulesOf_put table (rec.entry now)).symm
  | some current =>
    rw [found] at plain
    rw [plain]
    exact table_ext (rulesOf_put table (current.seen rec now)).symm

theorem rulesOf_scan (table : Table Discovered) (discoveredSet : List Listener) :
    rulesOf (discoveredSet.foldl (discoverEntry now) table) =
      discoveredSet.foldl (discoverOne now) (rulesOf table) := by
  induction discoveredSet generalizing table with
  | nil => rfl
  | cons rec rest ih => rw [List.foldl_cons, List.foldl_cons, ih, rulesOf_discover]

theorem rulesOf_existing (table : Table Discovered) (discovered : List Discovered) :
    rulesOf (discovered.foldl Table.put table) = (discovered.map (·.rule)).foldl Table.put (rulesOf table) := by
  induction discovered generalizing table with
  | nil => rfl
  | cons entry rest ih =>
    rw [List.foldl_cons, List.map_cons, List.foldl_cons, ih, table_ext (rulesOf_put table entry)]

/-- The scan on rules that carry their containers is the scan of the firewall's state. -/
theorem discoveredAfter_rules (collation : Collation) (discoveredSet : List Listener) (now : Nat)
    (discovered : List Discovered) (state : State)
    (same : state.discovered = discovered.map (·.rule)) :
    (discoveredAfter collation discoveredSet now discovered).map (·.rule) =
      (reconcileDiscovery collation discoveredSet now state).discovered := by
  have found : (discoveredSet.foldl (discoverOne now) (state.discovered.foldl Table.put ∅)).rows =
      (discoveredSet.foldl (discoverEntry now) (discovered.foldl Table.put ∅)).rows.map (·.rule) := by
    rw [same]
    show _ = (rulesOf _).rows
    rw [rulesOf_scan, rulesOf_existing]
    rfl
  simp only [reconcileDiscovery, sortById, found, discoveredAfter, discoveredTable, Table.filter, List.filter_map]
  exact List.map_mergeSort fun _ _ _ _ => rfl

end Plain

/-- What the operator set, and what finds the rule again. -/
structure Discovered.Keeps (old new : Discovered) : Prop where
  id : new.rule.id = old.rule.id
  source : new.rule.source = old.rule.source
  enabled : new.rule.enabled = old.rule.enabled
  scope : new.rule.scope = old.rule.scope
  sources : new.rule.source_cidrs = old.rule.source_cidrs
  service : new.rule.service = old.rule.service
  reason : new.rule.reason = old.rule.reason

section Touched

variable {recs : List Listener} {rec other : Listener} {entry new : Discovered} {now : Nat}

theorem Discovered.Keeps.refl (entry : Discovered) : entry.Keeps entry := ⟨rfl, rfl, rfl, rfl, rfl, rfl, rfl⟩

theorem touched_some (entry : Discovered) (recs : List Listener) (now : Nat) :
    ∃ new, recs.foldl (touch now) (some entry) = some new ∧ entry.Keeps new ∧
      (recs ≠ [] → new.rule.last_seen = now) := by
  induction recs generalizing entry with
  | nil => exact ⟨entry, rfl, .refl entry, fun some => absurd rfl some⟩
  | cons rec rest ih =>
    obtain ⟨new, run, kept, later⟩ := ih (entry.seen rec now)
    refine ⟨new, run, ⟨kept.id, kept.source, kept.enabled, kept.scope, kept.sources, kept.service,
      kept.reason⟩, fun _ => ?_⟩
    cases rest with
    | nil =>
      cases run
      rfl
    | cons next rest => exact later (List.cons_ne_nil _ _)

variable (now) in
theorem touched_none (named : recs ≠ []) : ∃ new, recs.foldl (touch now) none = some new ∧
    new.rule.enabled = false ∧ new.rule.last_seen = now := by
  cases recs with
  | nil => exact absurd rfl named
  | cons rec rest =>
    obtain ⟨new, run, kept, later⟩ := touched_some (rec.entry now) rest now
    refine ⟨new, run, kept.enabled, ?_⟩
    cases rest with
    | nil =>
      cases run
      rfl
    | cons next rest => exact later (List.cons_ne_nil _ _)

/-- The process of a rule that is seen with a process. -/
def adopted (process named : Option String) : Option String :=
  if process.all (· == "") then (named.filter (· != "")).or process else process

theorem seen_fields (entry : Discovered) (rec : Listener) (now : Nat) :
    (entry.seen rec now).fields = { entry.fields with process := adopted entry.rule.process rec.process } := rfl

theorem adopted_again (process named : Option String) :
    adopted (adopted process named) named = adopted process named := by
  cases shows : named.filter (· != "") with
  | none => simp [adopted, shows]
  | some name =>
    have some : (name == "") = false := by simpa using (Option.filter_eq_some_iff.mp shows).2
    by_cases unknown : process.all (· == "")
    · simp [adopted, shows, unknown, some]
    · simp [adopted, unknown]

theorem adopted_self (process : Option String) : adopted process process = process := by
  cases process with
  | none => rfl
  | some name =>
    by_cases empty : name = ""
    · subst empty
      rfl
    · simp [adopted, empty]

/-- Once its process is known, a rule keeps its fields. -/
theorem fields_stay (known : ∀ rec ∈ recs, adopted entry.rule.process rec.process = entry.rule.process)
    (run : recs.foldl (touch now) (some entry) = some new) : new.fields = entry.fields := by
  induction recs generalizing entry with
  | nil =>
    cases run
    rfl
  | cons rec rest ih =>
    have first : (entry.seen rec now).rule.process = entry.rule.process := known rec List.mem_cons_self
    have same : (entry.seen rec now).fields = entry.fields := by rw [seen_fields, known rec List.mem_cons_self]; rfl
    rw [← same]
    refine ih (fun other member => ?_) run
    rw [first]
    exact known other (List.mem_cons_of_mem _ member)

/-- Listeners that all name one process leave a rule as the first of them. -/
theorem fields_touched (same : ∀ other ∈ recs, other.process = rec.process) (member : rec ∈ recs)
    (run : recs.foldl (touch now) (some entry) = some new) : new.fields = (entry.seen rec now).fields := by
  cases recs with
  | nil => cases member
  | cons first rest =>
    have firstSame := same first List.mem_cons_self
    have started : (entry.seen first now).fields = (entry.seen rec now).fields :=
      by rw [seen_fields, seen_fields, firstSame]
    rw [← started]
    refine fields_stay (fun other later => ?_) run
    rw [same other (List.mem_cons_of_mem _ later), ← firstSame]
    exact adopted_again _ _

theorem fields_new (same : ∀ other ∈ recs, other.fields = rec.fields) (member : rec ∈ recs)
    (run : recs.foldl (touch now) none = some new) : new.fields = rec.fields := by
  cases recs with
  | nil => cases member
  | cons first rest =>
    have adopts : ∀ other ∈ rest, adopted (first.entry now).rule.process other.process =
        (first.entry now).rule.process := ?_
    · exact (fields_stay adopts run).trans (same first List.mem_cons_self)
    intro other later
    have process : other.process = first.process :=
      congrArg Fields.process
        ((same other (List.mem_cons_of_mem _ later)).trans (same first List.mem_cons_self).symm)
    rw [process]
    exact adopted_self _

end Touched

section Scan

variable {collation : Collation} {discoveredSet : List Listener} {now : Nat}
  {discovered : List Discovered} {entry : Discovered} {rec : Listener}

/-- The listeners of one id. -/
def namesakes (discoveredSet : List Listener) (id : String) : List Listener := discoveredSet.filter (ruleId · = id)

theorem mem_namesakes {id : String} {other : Listener} : other ∈ namesakes discoveredSet id ↔
    other ∈ discoveredSet ∧ ruleId other = id := by
  simp [namesakes]

theorem get_table (id : String) : (discoveredTable discoveredSet now discovered).get id =
    ((namesakes discoveredSet id).foldl (touch now) ((discovered.foldl Table.put ∅).get id)).filter fun entry =>
      !entry.rule.stale (discoveredSet.map (·.source)) now := by
  rw [discoveredTable, Table.get_filter, get_scan]
  rfl

theorem mem_after : entry ∈ discoveredAfter collation discoveredSet now discovered ↔
    (discoveredTable discoveredSet now discovered).get entry.rule.id = some entry := by
  rw [discoveredAfter, List.mem_mergeSort, Table.get_eq_some_iff]
  exact ⟨fun member => ⟨member, rfl⟩, And.left⟩

theorem fresh_stays {rule : Rule} {scanned : List Source} (seen : rule.last_seen = now) :
    rule.stale scanned now = false := by
  have late : ¬ rule.last_seen + RETENTION_MS < now := by omega
  simp [Rule.stale, late]

/-- The rule that a listener finds or makes is there afterwards. -/
theorem own_rule (member : rec ∈ discoveredSet) :
    ∃ new, new ∈ discoveredAfter collation discoveredSet now discovered ∧
    new.rule.id = ruleId rec ∧
      (namesakes discoveredSet (ruleId rec)).foldl (touch now)
        ((discovered.foldl Table.put ∅).get (ruleId rec)) = some new := by
  have named : namesakes discoveredSet (ruleId rec) ≠ [] := List.ne_nil_of_mem (mem_namesakes.mpr ⟨member, rfl⟩)
  have run : ∃ new, (namesakes discoveredSet (ruleId rec)).foldl (touch now)
      ((discovered.foldl Table.put ∅).get (ruleId rec)) = some new ∧
      new.rule.last_seen = now := by
    cases (discovered.foldl Table.put ∅).get (ruleId rec) with
    | none =>
      obtain ⟨new, run, _, seen⟩ := touched_none now named
      exact ⟨new, run, seen⟩
    | some entry =>
      obtain ⟨new, run, _, seen⟩ := touched_some entry (namesakes discoveredSet (ruleId rec)) now
      exact ⟨new, run, seen named⟩
  obtain ⟨new, run, seen⟩ := run
  have got : (discoveredTable discoveredSet now discovered).get (ruleId rec) = some new := by
    rw [get_table, run]
    exact Option.filter_eq_some_iff.mpr ⟨rfl, by simp [fresh_stays seen]⟩
  have id : new.rule.id = ruleId rec := Table.get_key got
  exact ⟨new, mem_after.mpr (by rw [id]; exact got), id, run⟩

theorem after_unique : ((discoveredAfter collation discoveredSet now discovered).map (·.rule.id)).Nodup := by
  have same := List.mergeSort_perm (discoveredTable discoveredSet now discovered).rows
      fun left right => collation left.rule.id right.rule.id
  exact (same.map _).nodup_iff.mpr (discoveredTable discoveredSet now discovered).distinct

variable {new : Discovered}

theorem carried_unique (carried : Carried (discoveredAfter collation discoveredSet now discovered) rec)
    (member : new ∈ discoveredAfter collation discoveredSet now discovered)
    (id : new.rule.id = ruleId rec) : new.fields = rec.fields := by
  obtain ⟨other, inside, own, same⟩ := carried
  have one : new = other := List.inj_on_of_nodup_map after_unique member inside (id.trans own.symm)
  rw [one, same]

variable (unique : (discovered.map (·.rule.id)).Nodup)

include unique

theorem carried_of_named (member : rec ∈ discoveredSet) (named : Named discoveredSet now discovered rec) :
    Carried (discoveredAfter collation discoveredSet now discovered) rec := by
  obtain ⟨new, inside, id, run⟩ :
      ∃ new, new ∈ discoveredAfter collation discoveredSet now discovered ∧ _ ∧ _ := own_rule member
  have own : rec ∈ namesakes discoveredSet (ruleId rec) := mem_namesakes.mpr ⟨member, rfl⟩
  have same : ∀ other ∈ namesakes discoveredSet (ruleId rec), other.fields = rec.fields := by
    intro other listed
    obtain ⟨inside, same⟩ := mem_namesakes.mp listed
    exact named.1 other inside same
  refine ⟨new, inside, id, ?_⟩
  cases found : (discovered.foldl Table.put ∅).get (ruleId rec) with
  | none =>
    rw [found] at run
    exact fields_new same own run
  | some entry =>
    rw [found] at run
    obtain ⟨listed, entryId⟩ := (get_existing unique).mp found
    rw [fields_touched (fun other listed => congrArg Fields.process (same other listed)) own run]
    exact named.2 entry listed entryId

theorem named_of_carried
    (carried : ∀ rec ∈ discoveredSet, Carried (discoveredAfter collation discoveredSet now discovered) rec)
    (member : rec ∈ discoveredSet) : Named discoveredSet now discovered rec := by
  obtain ⟨new, inside, id, run⟩ :
      ∃ new, new ∈ discoveredAfter collation discoveredSet now discovered ∧ _ ∧ _ := own_rule member
  have shown := carried_unique (carried rec member) inside id
  have same : ∀ other ∈ discoveredSet, ruleId other = ruleId rec → other.fields = rec.fields := by
    intro other listed sameId
    rw [← carried_unique (carried other listed) inside (id.trans sameId.symm), shown]
  refine ⟨same, fun entry listed entryId => ?_⟩
  rw [(get_existing unique).mpr ⟨listed, entryId⟩] at run
  have alike : ∀ other ∈ namesakes discoveredSet (ruleId rec), other.process = rec.process := by
    intro other named
    obtain ⟨listed, sameId⟩ := mem_namesakes.mp named
    exact congrArg Fields.process (same other listed sameId)
  rw [← fields_touched alike (mem_namesakes.mpr ⟨member, rfl⟩) run]
  exact shown

theorem survivor_kept (member : entry ∈ discovered)
    (inside : new ∈ discoveredAfter collation discoveredSet now discovered)
    (id : new.rule.id = entry.rule.id) : entry.Keeps new := by
  have got := mem_after.mp inside
  rw [id, get_table, (get_existing unique).mpr ⟨member, rfl⟩] at got
  obtain ⟨last, run, kept, _⟩ := touched_some entry (namesakes discoveredSet entry.rule.id) now
  rw [run] at got
  cases (Option.filter_eq_some_iff.mp got).1
  exact kept

theorem added_disabled (inside : new ∈ discoveredAfter collation discoveredSet now discovered)
    (fresh : ∀ entry ∈ discovered, entry.rule.id ≠ new.rule.id) : new.rule.enabled = false := by
  have got := mem_after.mp inside
  have absent : (discovered.foldl Table.put ∅).get new.rule.id = none := by
    cases found : (discovered.foldl Table.put ∅).get new.rule.id with
    | none => rfl
    | some entry =>
      obtain ⟨listed, id⟩ := (get_existing unique).mp found
      exact absurd id (fresh entry listed)
  rw [get_table, absent] at got
  obtain ⟨run, _⟩ := Option.filter_eq_some_iff.mp got
  by_cases named : namesakes discoveredSet new.rule.id = []
  · rw [named] at run
    cases run
  · obtain ⟨last, run', off, _⟩ := touched_none now named
    rw [run'] at run
    cases run
    exact off

theorem kept_unscanned (member : entry ∈ discovered)
    (apart : entry.rule.source = .manual ∨ entry.rule.source ∉ discoveredSet.map (·.source)) :
    ∃ new ∈ discoveredAfter collation discoveredSet now discovered, new.rule.id = entry.rule.id := by
  obtain ⟨last, run, kept, _⟩ := touched_some entry (namesakes discoveredSet entry.rule.id) now
  have stays : last.rule.stale (discoveredSet.map (·.source)) now = false := by
    rcases apart with manual | unscanned
    · simp [Rule.stale, kept.source, manual]
    · simp [Rule.stale, kept.source, unscanned]
  refine ⟨last, mem_after.mpr ?_, kept.id⟩
  rw [kept.id, get_table, (get_existing unique).mpr ⟨member, rfl⟩, run]
  exact Option.filter_eq_some_iff.mpr ⟨rfl, by simp [stays]⟩

end Scan

/-- The sources that the scanners name. -/
def scannerSources : List Source := [.host, .lxc, .docker, .caddyL4]

/-- A scan leaves what the operator set, adds only disabled rules, removes no rule of a source
it did not scan and keeps the ids apart; every listener has its own rule exactly when each
id stands for one listener only; and the state has the rules of the scan. -/
theorem discovery_keeps (collation : Collation) (discoveredSet : List Listener) (now : Nat)
    (discovered : List Discovered)
    (unique : (discovered.map (·.rule.id)).Nodup) (scanners : ∀ rec ∈ discoveredSet, rec.source ∈ scannerSources) :
    (∀ entry ∈ discovered, ∀ new ∈ discoveredAfter collation discoveredSet now discovered,
      new.rule.id = entry.rule.id →
      new.rule.enabled = entry.rule.enabled ∧ new.rule.scope = entry.rule.scope ∧
        new.rule.source_cidrs = entry.rule.source_cidrs ∧
        new.rule.service = entry.rule.service ∧ new.rule.reason = entry.rule.reason) ∧
    (∀ new ∈ discoveredAfter collation discoveredSet now discovered,
      (∀ entry ∈ discovered, entry.rule.id ≠ new.rule.id) → new.rule.enabled = false) ∧
    (∀ entry ∈ discovered, entry.rule.source = .manual ∨ entry.rule.source = .serviceL4 ∨
      entry.rule.source ∉ discoveredSet.map (·.source) →
      ∃ new ∈ discoveredAfter collation discoveredSet now discovered, new.rule.id = entry.rule.id) ∧
    ((discoveredAfter collation discoveredSet now discovered).map (·.rule.id)).Nodup ∧
    ((∀ rec ∈ discoveredSet, Carried (discoveredAfter collation discoveredSet now discovered) rec) ↔
      ∀ rec ∈ discoveredSet, Named discoveredSet now discovered rec) ∧
    ∀ state : State, state.discovered = discovered.map (·.rule) →
      (reconcileDiscovery collation discoveredSet now state).discovered =
        (discoveredAfter collation discoveredSet now discovered).map (·.rule) := by
  refine ⟨fun entry member new inside id => ?_, fun new inside => added_disabled unique inside,
    fun entry member apart => ?_, after_unique, ?_, fun state same =>
      (discoveredAfter_rules collation discoveredSet now discovered state same).symm⟩
  · have kept := survivor_kept unique member inside id
    exact ⟨kept.enabled, kept.scope, kept.sources, kept.service, kept.reason⟩
  · refine kept_unscanned unique member ?_
    rcases apart with manual | service | unscanned
    · exact Or.inl manual
    · refine Or.inr fun scanned => ?_
      obtain ⟨rec, listed, same⟩ := List.mem_map.mp scanned
      have source := scanners rec listed
      rw [same, service] at source
      revert source
      decide
    · exact Or.inr unscanned
  · constructor
    · exact fun carried rec member => named_of_carried unique carried member
    · exact fun named rec member => carried_of_named unique member (named rec member)

def proxyOfWeb : Listener := ⟨.lxc, some "web", some "db-proxy", 5432, none, .tcp⟩

def proxyOfWebDb : Listener := ⟨.lxc, some "web-db", some "proxy", 5432, none, .tcp⟩

def nginxOfShop : Listener := ⟨.lxc, some "shop", some "nginx", 443, none, .tcp⟩

/-- A rule that the operator enabled for the local network. -/
def enabledRule (id : String) (source : Source) (process : Option String) (last_seen : Nat) : Rule :=
  ⟨id, source, process, 5432, none, .tcp, .lanOnly, some ["10.0.0.0/8"], true, some "wanted", none,
    last_seen⟩

/-- The rule of a listener before its process was known, two that no scan makes, and one of a
container that is gone. -/
def oldRules : List Discovered :=
  [⟨enabledRule (ruleId proxyOfWeb) .lxc none 0, some "web", 0⟩,
    ⟨enabledRule "manual-5432-tcp" .manual none 0, none, 0⟩,
    ⟨enabledRule "service-l4-db" .serviceL4 none 0, none, 0⟩,
    ⟨enabledRule "lxc-old-db-5432-tcp" .lxc (some "db") 0, some "old", 0⟩]

def scanned : List Listener := [proxyOfWeb, nginxOfShop]

/-- The rules eight days later. -/
def rescanned : List Discovered :=
  discoveredAfter (fun left right => decide (left ≤ right)) scanned (RETENTION_MS + 86400000) oldRules

theorem discovery_keeps_web :
    (rescanned.map fun entry => (entry.rule.id, entry.rule.enabled)).Perm
      [(ruleId proxyOfWeb, true), ("manual-5432-tcp", true), ("service-l4-db", true),
        ("lxc-shop-nginx-443-tcp", false)] ∧
    (∀ entry ∈ oldRules, ∀ new ∈ rescanned, new.rule.id = entry.rule.id →
      new.rule.enabled = entry.rule.enabled ∧ new.rule.scope = entry.rule.scope ∧
        new.rule.source_cidrs = entry.rule.source_cidrs ∧ new.rule.service = entry.rule.service ∧
        new.rule.reason = entry.rule.reason) ∧
    (∀ new ∈ rescanned, (∀ entry ∈ oldRules, entry.rule.id ≠ new.rule.id) → new.rule.enabled = false) ∧
    (∀ entry ∈ oldRules, entry.rule.source = .manual ∨ entry.rule.source = .serviceL4 ∨
        entry.rule.source ∉ scanned.map (·.source) →
      ∃ new ∈ rescanned, new.rule.id = entry.rule.id) ∧
    (rescanned.map (·.rule.id)).Nodup ∧ ∀ rec ∈ scanned, Carried rescanned rec := by
  have unique : (oldRules.map (·.rule.id)).Nodup := by decide +kernel
  have named : ∀ rec ∈ scanned, Named scanned (RETENTION_MS + 86400000) oldRules rec := by
    unfold Named
    decide +kernel
  obtain ⟨settings, added, kept, apart, carried, _⟩ := discovery_keeps
    (fun left right => decide (left ≤ right)) scanned (RETENTION_MS + 86400000) oldRules unique (by decide)
  have rows : (discoveredTable scanned (RETENTION_MS + 86400000) oldRules).rows.map
      (fun entry => (entry.rule.id, entry.rule.enabled)) =
        [(ruleId proxyOfWeb, true), ("manual-5432-tcp", true), ("service-l4-db", true),
          ("lxc-shop-nginx-443-tcp", false)] := by decide +kernel
  exact ⟨rows ▸ (List.mergeSort_perm _ _).map _, settings, added, kept, apart, carried.mpr named⟩

/-- Two containers whose names and processes run together share one rule. -/
theorem ids_run_together : ruleId proxyOfWeb = ruleId proxyOfWebDb ∧
    ¬ ∀ rec ∈ [proxyOfWeb, proxyOfWebDb],
      Carried (discoveredAfter (fun _ _ => true) [proxyOfWeb, proxyOfWebDb] 0 []) rec := by
  have same : ruleId proxyOfWeb = ruleId proxyOfWebDb := by decide +kernel
  refine ⟨same, fun carried => ?_⟩
  have apart : (([] : List Discovered).map (·.rule.id)).Nodup := List.nodup_nil
  have member : proxyOfWebDb ∈ [proxyOfWeb, proxyOfWebDb] := by simp
  have named := named_of_carried apart carried member
  exact absurd (named.1 proxyOfWeb (by simp) same) (by decide)

end ProxyPilot.Firewall
