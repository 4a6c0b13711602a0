import ProxyPilot.Data.Objects

namespace ProxyPilot.Sanoid

/-! # The backup policy (`lib/storage/policy.js`)

One stored document: counts for each class, overrides for datasets and for guests.  A value
of the document is of any type `V`; `number` is `Number(value)` where that is an integer.

`sanoid.conf` is a list of sections, and a section a name with keys and values.
-/

abbrev Text := List Char

/-- `CLASS_NAMES` -/
inductive PolicyClass where
  | guests
  | backups
  | exports
deriving DecidableEq

def PolicyClass.name : PolicyClass → Text
  | .guests => "guests".toList
  | .backups => "backups".toList
  | .exports => "exports".toList

def PolicyClass.all : List PolicyClass := [.guests, .backups, .exports]

def PolicyClass.named (text : Text) : Option PolicyClass := PolicyClass.all.find? fun c => c.name == text

/-- `RETENTION_KEYS` -/
inductive Period where
  | frequent
  | hourly
  | daily
  | monthly

def Period.name : Period → Text
  | .frequent => "frequent".toList
  | .hourly => "hourly".toList
  | .daily => "daily".toList
  | .monthly => "monthly".toList

def RETENTION_KEYS : List Period := [.frequent, .hourly, .daily, .monthly]

/-- How many snapshots of each period to keep. -/
abbrev Counts := Period → Nat

/-- The counts that an object has. -/
abbrev Override := Period → Option Nat

/-- `{ ...base, ...override }` -/
def Override.on (override : Override) (base : Counts) : Counts := fun k => (override k).getD (base k)

def DEFAULT_CLASSES : PolicyClass → Counts
  | .guests => fun | .frequent => 4 | .hourly => 24 | .daily => 14 | .monthly => 3
  | .backups => fun | .frequent => 0 | .hourly => 0 | .daily => 30 | .monthly => 6
  | .exports => fun | .frequent => 0 | .hourly => 0 | .daily => 7 | .monthly => 1

structure DatasetOverride where
  cls : Option PolicyClass
  enabled : Bool
  retention : Option Override

structure GuestOverride where
  enabled : Bool
  retention : Option Override

structure Policy where
  classes : PolicyClass → Counts
  datasets : Data.Filled DatasetOverride
  guests : Data.Filled GuestOverride

/-- `datasets[name]` -/
def Policy.dataset (policy : Policy) : Text → Option (Option DatasetOverride) :=
  policy.datasets.get fun v =>
    [("class".toList, v.cls.isSome), ("enabled".toList, v.enabled), ("retention".toList, v.retention.isSome)]

/-- `guests[guest]` -/
def Policy.guest (policy : Policy) : Text → Option (Option GuestOverride) :=
  policy.guests.get fun v => [("enabled".toList, v.enabled), ("retention".toList, v.retention.isSome)]

/-- An object with counts: `none` for a field that is absent or null. -/
abbrev StoredRetention (V : Type) := Period → Option V

structure StoredDataset (V : Type) where
  /-- Any text. -/
  cls : Option Text
  /-- Anything but `false`. -/
  enabled : Bool
  retention : Option (StoredRetention V)

structure StoredGuest (V : Type) where
  enabled : Bool
  retention : Option (StoredRetention V)

/-- The entries of the objects in order, `none` where the value is no object. -/
structure Stored (V : Type) where
  classes : PolicyClass → Option (StoredRetention V)
  datasets : List (Text × Option (StoredDataset V))
  guests : List (Text × Option (StoredGuest V))

def Stored.empty : Stored V := ⟨fun _ => none, [], []⟩

section

variable (number : V → Option Int)

def cleanCount (k : Period) : Option V → Except Text (Option Nat)
  | none => .ok none
  | some v =>
    match number v with
    | some n =>
      if n < 0 ∨ 10000 < n then .error ("retention.".toList ++ k.name ++ " must be an integer 0–10000".toList)
      else .ok (some n.toNat)
    | none => .error ("retention.".toList ++ k.name ++ " must be an integer 0–10000".toList)

/-- `cleanRetention(r, {})` -/
def cleanOverride (r : StoredRetention V) : Except Text Override := do
  let frequent ← cleanCount number .frequent (r .frequent)
  let hourly ← cleanCount number .hourly (r .hourly)
  let daily ← cleanCount number .daily (r .daily)
  let monthly ← cleanCount number .monthly (r .monthly)
  return fun | .frequent => frequent | .hourly => hourly | .daily => daily | .monthly => monthly

def cleanRetention (r : Option (StoredRetention V)) (base : Counts) : Except Text Counts :=
  match r with
  | none => .ok base
  | some r => do return (← cleanOverride number r).on base

def cleanOptional (r : Option (StoredRetention V)) : Except Text (Option Override) :=
  match r with
  | none => .ok none
  | some r => do return some (← cleanOverride number r)

def resolveDataset : Text × StoredDataset V → Except Text (Text × DatasetOverride)
  | (name, v) => do return (name, ⟨v.cls.bind PolicyClass.named, v.enabled, ← cleanOptional number v.retention⟩)

def resolveGuest : Text × StoredGuest V → Except Text (Text × GuestOverride)
  | (name, v) => do return (name, ⟨v.enabled, ← cleanOptional number v.retention⟩)

/-- The entries whose value is an object. -/
def objects (entries : List (Text × Option α)) : List (Text × α) :=
  entries.filterMap fun e => e.2.map fun v => (e.1, v)

def resolvePolicy (stored : Option (Stored V)) : Except Text Policy := do
  let s := stored.getD Stored.empty
  let guestCounts ← cleanRetention number (s.classes .guests) (DEFAULT_CLASSES .guests)
  let backupCounts ← cleanRetention number (s.classes .backups) (DEFAULT_CLASSES .backups)
  let exportCounts ← cleanRetention number (s.classes .exports) (DEFAULT_CLASSES .exports)
  let datasets ← (objects s.datasets).mapM (resolveDataset number)
  let guests ← (objects s.guests).mapM (resolveGuest number)
  return ⟨fun | .guests => guestCounts | .backups => backupCounts | .exports => exportCounts,
    .ofEntries datasets, .ofEntries guests⟩

end

/-- No count is above the limit. -/
def Bounded (override : Override) : Prop := ∀ k n, override k = some n → n ≤ 10000

variable {number : V → Option Int} {override : Override}

theorem cleanCount_bounded {k : Period} {v : Option V} {n : Nat} (clean : cleanCount number k v = .ok (some n)) :
    n ≤ 10000 := by
  cases v with
  | none => cases clean
  | some v =>
    simp only [cleanCount] at clean
    split at clean
    · split at clean
      · cases clean
      · cases clean
        omega
    · cases clean

theorem cleanOverride_ok {r : StoredRetention V} (clean : cleanOverride number r = .ok override) :
    ∀ k, cleanCount number k (r k) = .ok (override k) := by
  unfold cleanOverride at clean
  obtain ⟨frequent, ofFrequent, clean⟩ := Data.bind_ok.mp clean
  obtain ⟨hourly, ofHourly, clean⟩ := Data.bind_ok.mp clean
  obtain ⟨daily, ofDaily, clean⟩ := Data.bind_ok.mp clean
  obtain ⟨monthly, ofMonthly, clean⟩ := Data.bind_ok.mp clean
  cases clean
  intro k
  cases k with
  | frequent => exact ofFrequent
  | hourly => exact ofHourly
  | daily => exact ofDaily
  | monthly => exact ofMonthly

theorem cleanOverride_bounded {r : StoredRetention V}
    (clean : cleanOverride number r = .ok override) : Bounded override := by
  intro k n set
  have here := cleanOverride_ok clean k
  rw [set] at here
  exact cleanCount_bounded here

/-- What was read once is read the same again. -/
theorem cleanOverride_again {ofNat : Nat → V} (reads : ∀ n : Nat, number (ofNat n) = some (n : Int))
    (bounded : Bounded override) : cleanOverride number (fun k => (override k).map ofNat) = .ok override := by
  have each : ∀ k, cleanCount number k ((override k).map ofNat) = .ok (override k) := by
    intro k
    cases set : override k with
    | none => rfl
    | some n =>
      have small := bounded k n set
      have fits : ¬((n : Int) < 0 ∨ 10000 < (n : Int)) := by omega
      simp only [Option.map_some, cleanCount, reads]
      rw [if_neg fits, Int.toNat_natCast]
  unfold cleanOverride
  rw [each, each, each, each]
  refine congrArg Except.ok (funext fun k => ?_)
  cases k <;> rfl

def storedDataset (ofNat : Nat → V) (v : DatasetOverride) : StoredDataset V :=
  ⟨v.cls.map PolicyClass.name, v.enabled, v.retention.map fun ov k => (ov k).map ofNat⟩

def storedGuest (ofNat : Nat → V) (v : GuestOverride) : StoredGuest V :=
  ⟨v.enabled, v.retention.map fun ov k => (ov k).map ofNat⟩

/-- The policy as a document. -/
def Policy.stored (ofNat : Nat → V) (policy : Policy) : Stored V :=
  { classes := fun cls => some fun k => some (ofNat (policy.classes cls k))
    datasets := policy.datasets.own.map fun e => (e.1, some (storedDataset ofNat e.2))
    guests := policy.guests.own.map fun e => (e.1, some (storedGuest ofNat e.2)) }

/-- The policy without what an entry called `__proto__` gave its objects to inherit. -/
def Policy.plain (policy : Policy) : Policy :=
  { policy with datasets := ⟨policy.datasets.own, none⟩, guests := ⟨policy.guests.own, none⟩ }

/-- No entry of the document is called `__proto__`. -/
def Stored.Plain (s : Stored V) : Prop :=
  (∀ e ∈ s.datasets, e.1 ≠ Data.protoName) ∧ ∀ e ∈ s.guests, e.1 ≠ Data.protoName

theorem PolicyClass.named_name (cls : PolicyClass) : PolicyClass.named cls.name = some cls := by
  cases cls <;> rfl

variable {r : Option (StoredRetention V)}

theorem cleanRetention_bounded {base counts : Counts} (small : ∀ k, base k ≤ 10000)
    (clean : cleanRetention number r base = .ok counts) : ∀ k, counts k ≤ 10000 := by
  intro k
  cases r with
  | none =>
    cases clean
    exact small k
  | some r =>
    obtain ⟨override, given, same⟩ := Data.bind_ok.mp clean
    cases same
    cases set : override k with
    | none => simpa [Override.on, set] using small k
    | some n => simpa [Override.on, set] using cleanOverride_bounded given k n set

theorem cleanOptional_bounded
    (clean : cleanOptional number r = .ok (some override)) : Bounded override := by
  cases r with
  | none => cases clean
  | some r =>
    obtain ⟨given, clean, same⟩ := Data.bind_ok.mp clean
    cases same
    exact cleanOverride_bounded clean

theorem objects_map (entries : List (Text × α)) (back : α → β) :
    objects (entries.map fun e => (e.1, some (back e.2))) = entries.map fun e => (e.1, back e.2) := by
  induction entries with
  | nil => rfl
  | cons e rest induction => simpa [objects] using induction

theorem objects_named {entries : List (Text × Option α)} (named : ∀ e ∈ entries, e.1 ≠ Data.protoName) :
    ∀ e ∈ objects entries, e.1 ≠ Data.protoName := by
  intro e member
  obtain ⟨entry, listed, gave⟩ := List.mem_filterMap.mp member
  obtain ⟨v, -, rfl⟩ := Option.map_eq_some_iff.mp gave
  exact named entry listed

theorem resolved_plain {stored : Option (Stored V)} {policy : Policy}
    (resolved : resolvePolicy number stored = .ok policy) (plain : ∀ s ∈ stored, s.Plain) :
    policy.plain = policy := by
  unfold resolvePolicy at resolved
  obtain ⟨_, _, resolved⟩ := Data.bind_ok.mp resolved
  obtain ⟨_, _, resolved⟩ := Data.bind_ok.mp resolved
  obtain ⟨_, _, resolved⟩ := Data.bind_ok.mp resolved
  obtain ⟨datasets, ofDatasets, resolved⟩ := Data.bind_ok.mp resolved
  obtain ⟨guests, ofEntries, resolved⟩ := Data.bind_ok.mp resolved
  cases resolved
  have source : (stored.getD Stored.empty).Plain := by
    cases stored with
    | none => simp [Stored.Plain, Stored.empty]
    | some s => exact plain s rfl
  have datasetsNamed : ∀ e ∈ datasets, e.1 ≠ Data.protoName := by
    intro e member
    obtain ⟨entry, listed, gave⟩ := (Data.mem_mapM_ok ofDatasets).mp member
    obtain ⟨retention, -, same⟩ := Data.bind_ok.mp gave
    cases same
    exact objects_named source.1 entry listed
  have guestsNamed : ∀ e ∈ guests, e.1 ≠ Data.protoName := by
    intro e member
    obtain ⟨entry, listed, gave⟩ := (Data.mem_mapM_ok ofEntries).mp member
    obtain ⟨retention, -, same⟩ := Data.bind_ok.mp gave
    cases same
    exact objects_named source.2 entry listed
  rw [Policy.plain, Data.Filled.ofEntries_own datasetsNamed, Data.Filled.ofEntries_own guestsNamed]

section

variable {number : V → Option Int} {ofNat : Nat → V} (reads : ∀ n : Nat, number (ofNat n) = some (n : Int))

include reads

theorem cleanRetention_again {counts base : Counts} (small : ∀ k, counts k ≤ 10000) :
    cleanRetention number (some fun k => some (ofNat (counts k))) base = .ok counts := by
  have bounded : Bounded fun k => some (counts k) := by
    intro k n set
    cases set
    exact small k
  exact Data.bind_ok.mpr ⟨_, cleanOverride_again reads bounded, rfl⟩

theorem cleanOptional_again {retention : Option Override}
    (bounded : ∀ override, retention = some override → Bounded override) :
    cleanOptional number (retention.map fun ov k => (ov k).map ofNat) = .ok retention := by
  cases retention with
  | none => rfl
  | some override => exact Data.bind_ok.mpr ⟨override, cleanOverride_again reads (bounded override rfl), rfl⟩

theorem resolveDataset_again {entry : Text × StoredDataset V} {e : Text × DatasetOverride}
    (resolved : resolveDataset number entry = .ok e) :
    resolveDataset number (e.1, storedDataset ofNat e.2) = .ok e := by
  obtain ⟨retention, clean, same⟩ := Data.bind_ok.mp resolved
  cases same
  have again : cleanOptional number (retention.map fun ov k => (ov k).map ofNat) = .ok retention :=
    cleanOptional_again reads fun override given => cleanOptional_bounded (given ▸ clean)
  refine Data.bind_ok.mpr ⟨retention, again, ?_⟩
  have cls : ((entry.2.cls.bind PolicyClass.named).map PolicyClass.name).bind PolicyClass.named =
      entry.2.cls.bind PolicyClass.named := by
    cases entry.2.cls.bind PolicyClass.named with
    | none => rfl
    | some cls => exact PolicyClass.named_name cls
  simp only [storedDataset, cls]
  rfl

theorem resolveGuest_again {entry : Text × StoredGuest V} {e : Text × GuestOverride}
    (resolved : resolveGuest number entry = .ok e) :
    resolveGuest number (e.1, storedGuest ofNat e.2) = .ok e := by
  obtain ⟨retention, clean, same⟩ := Data.bind_ok.mp resolved
  cases same
  have again : cleanOptional number (retention.map fun ov k => (ov k).map ofNat) = .ok retention :=
    cleanOptional_again reads fun override given => cleanOptional_bounded (given ▸ clean)
  exact Data.bind_ok.mpr ⟨retention, again, rfl⟩

/-- The callers give the renderer a policy that is resolved already: written out as a document it
is accepted again, and is the same policy, but for what `__proto__` gave its objects to inherit. -/
theorem resolvePolicy_again {stored : Option (Stored V)} {policy : Policy}
    (resolved : resolvePolicy number stored = .ok policy) :
    resolvePolicy number (some (policy.stored ofNat)) = .ok policy.plain ∧
      ((∀ s ∈ stored, s.Plain) → policy.plain = policy) := by
  refine ⟨?_, resolved_plain resolved⟩
  unfold resolvePolicy at resolved
  obtain ⟨guestCounts, ofGuests, resolved⟩ := Data.bind_ok.mp resolved
  obtain ⟨backupCounts, ofBackups, resolved⟩ := Data.bind_ok.mp resolved
  obtain ⟨exportCounts, ofExports, resolved⟩ := Data.bind_ok.mp resolved
  obtain ⟨datasets, ofDatasets, resolved⟩ := Data.bind_ok.mp resolved
  obtain ⟨guests, ofEntries, resolved⟩ := Data.bind_ok.mp resolved
  cases resolved
  have defaults : ∀ cls k, DEFAULT_CLASSES cls k ≤ 10000 := by
    intro cls k
    cases cls <;> cases k <;> decide
  have datasetsAgain : ((Data.Filled.ofEntries datasets).own.map fun e => (e.1, storedDataset ofNat e.2)).mapM
      (resolveDataset number) = .ok (Data.Filled.ofEntries datasets).own := by
    refine Data.mapM_back fun e mem => ?_
    obtain ⟨entry, _, gave⟩ := (Data.mem_mapM_ok ofDatasets).mp (List.mem_filter.mp mem).1
    exact resolveDataset_again reads gave
  have guestsAgain : ((Data.Filled.ofEntries guests).own.map fun e => (e.1, storedGuest ofNat e.2)).mapM
      (resolveGuest number) = .ok (Data.Filled.ofEntries guests).own := by
    refine Data.mapM_back fun e mem => ?_
    obtain ⟨entry, _, gave⟩ := (Data.mem_mapM_ok ofEntries).mp (List.mem_filter.mp mem).1
    exact resolveGuest_again reads gave
  unfold resolvePolicy
  refine Data.bind_ok.mpr ⟨guestCounts,
    cleanRetention_again reads (cleanRetention_bounded (defaults _) ofGuests), ?_⟩
  refine Data.bind_ok.mpr ⟨backupCounts,
    cleanRetention_again reads (cleanRetention_bounded (defaults _) ofBackups), ?_⟩
  refine Data.bind_ok.mpr ⟨exportCounts,
    cleanRetention_again reads (cleanRetention_bounded (defaults _) ofExports), ?_⟩
  refine Data.bind_ok.mpr ⟨(Data.Filled.ofEntries datasets).own, ?_,
    Data.bind_ok.mpr ⟨(Data.Filled.ofEntries guests).own, ?_, ?_⟩⟩
  · simpa [Policy.stored, objects_map] using datasetsAgain
  · simpa [Policy.stored, objects_map] using guestsAgain
  · rw [Data.Filled.ofEntries_own Data.Filled.ofEntries_named,
      Data.Filled.ofEntries_own Data.Filled.ofEntries_named]
    rfl

end

/-- A disabled dataset and a guest with six hourly snapshots, the rest by default. -/
def storedWeb : Stored Nat :=
  { Stored.empty with
    datasets := [("tank/incus/containers/web".toList, some ⟨none, false, none⟩)]
    guests := [("web".toList, some ⟨true, some fun | .hourly => some 6 | _ => none⟩)] }

theorem resolvePolicy_again_web :
    ∃ policy, resolvePolicy (fun n : Nat => some (n : Int)) (some storedWeb) = .ok policy ∧
    resolvePolicy (fun n : Nat => some (n : Int)) (some (policy.stored id)) = .ok policy := by
  have resolved : resolvePolicy (fun n : Nat => some (n : Int)) (some storedWeb) = .ok _ := rfl
  have plain : storedWeb.Plain := by
    unfold Stored.Plain
    decide
  obtain ⟨again, same⟩ := @resolvePolicy_again Nat (fun n => some n) id (fun _ => rfl) (some storedWeb) _ resolved
  refine ⟨_, resolved, again.trans (congrArg Except.ok (same fun s given => ?_))⟩
  cases given
  exact plain

/-- Dataset names; an empty one is as good as none. -/
structure Managed where
  incus : Option Text
  backups : Option Text
  exports : Option Text

def Managed.root (managed : Managed) : PolicyClass → Option Text
  | .guests => managed.incus.filter (· ≠ [])
  | .backups => managed.backups.filter (· ≠ [])
  | .exports => managed.exports.filter (· ≠ [])

def below (root name : Text) : Bool := (root ++ ['/']).isPrefixOf name

def inTree (managed : Managed) (name : Text) (cls : PolicyClass) : Bool :=
  match managed.root cls with
  | none => false
  | some root => name == root || below root name

/-- The class of the first managed tree that holds the dataset. -/
def treeClass (managed : Managed) (name : Text) : Option PolicyClass := PolicyClass.all.find? (inTree managed name)

def classForDataset (name : Text) (managed : Option Managed) (policy : Policy) : Option PolicyClass :=
  match (policy.dataset name).join.bind DatasetOverride.cls with
  | some cls => some cls
  | none => managed.bind (treeClass · name)

structure Effective where
  cls : Option PolicyClass
  /-- `none` is `undefined`. -/
  enabled : Option Bool
  retention : Option Override

/-- `if (override) ret = { ...(ret || {}), ...override }` -/
def spread (ret : Option Override) : Option Override → Option Override
  | none => ret
  | some override => some fun k => (override k).or (ret.bind (· k))

/-- `(found ? found.enabled : true)` -/
def enabledOf (enabled : α → Bool) : Option (Option α) → Option Bool
  | none => some true
  | some entry => entry.map enabled

/-- `a && b` -/
def both : Option Bool → Option Bool → Option Bool
  | some true, b => b
  | a, _ => a

def effectiveRetention (name : Text) (managed : Option Managed) (policy : Policy)
    (guest : Option Text) : Effective :=
  let cls := classForDataset name managed policy
  let own := policy.dataset name
  let guestOverride := (guest.filter (· ≠ [])).bind policy.guest
  let ret := cls.map fun c k => some (policy.classes c k)
  { cls
    enabled := both (enabledOf DatasetOverride.enabled own) (enabledOf GuestOverride.enabled guestOverride)
    retention := spread (spread ret (own.join.bind DatasetOverride.retention))
      (guestOverride.join.bind GuestOverride.retention) }

inductive Key where
  | useTemplate
  | recursive
  | processChildrenOnly
  | frequently
  | frequentPeriod
  | hourly
  | daily
  | monthly
  | yearly
  | autosnap
  | autoprune
deriving DecidableEq

inductive Value where
  | template (cls : PolicyClass)
  | flag (yes : Bool)
  | count (n : Nat)
deriving DecidableEq

abbrev Body := List (Key × Value)

structure Section where
  name : Text
  body : Body

/-- `k === 'frequent' ? 'frequently' : k` -/
def Period.key : Period → Key
  | .frequent => .frequently
  | .hourly => .hourly
  | .daily => .daily
  | .monthly => .monthly

def templatePrefix : Text := "template_".toList

def templateName (cls : PolicyClass) : Text := templatePrefix ++ "pp_".toList ++ cls.name

def isTemplate (name : Text) : Bool := templatePrefix.isPrefixOf name

/-- The datasets above a dataset, the nearest first. -/
def ancestors (name : Text) : List Text :=
  ((List.range name.length).reverse.filter fun i => name[i]? = some '/').map name.take

def Section.of (name : Text) (s : Section) : Bool := !isTemplate s.name && s.name == name

def Section.recursive (s : Section) : Bool := s.body.lookup .recursive == some (.flag true)

/-- The section that a dataset takes: its own, or that of the nearest dataset above with `recursive = yes`. -/
def sectionFor (conf : List Section) (name : Text) : Option Section :=
  (conf.find? (Section.of name)).or
    ((ancestors name).findSome? fun above => conf.find? fun s => s.of above && s.recursive)

def templateOf (conf : List Section) (s : Section) : Option Section :=
  match s.body.lookup .useTemplate with
  | some (.template cls) => conf.find? fun t => t.name == templateName cls
  | _ => none

/-- The value of a key in a section, or in its template. -/
def valueOf (conf : List Section) (s : Section) (key : Key) : Option Value :=
  (s.body.lookup key).or ((templateOf conf s).bind (·.body.lookup key))

structure Settings where
  enabled : Bool
  retention : Override

def countOf : Option Value → Option Nat
  | some (.count n) => some n
  | _ => none

def settingsOf (conf : List Section) (s : Section) : Settings :=
  { enabled := valueOf conf s .autosnap == some (.flag true) && valueOf conf s .autoprune == some (.flag true)
    retention := fun k => countOf (valueOf conf s k.key) }

def settings (conf : List Section) (name : Text) : Option Settings := (sectionFor conf name).map (settingsOf conf)

structure GuestDataset where
  guest : Text
  dataset : Text

/-- The sections behind the templates so far, and the set `written`. -/
structure Rendered where
  sections : List Section
  written : List Text

def Rendered.push (r : Rendered) (s : Section) : Rendered := ⟨r.sections ++ [s], s.name :: r.written⟩

def disabledKeys (enabled : Bool) : Body :=
  if enabled then [] else [(.autosnap, .flag false), (.autoprune, .flag false)]

def retentionKeys : Option Override → Body
  | none => []
  | some ov => RETENTION_KEYS.filterMap fun k => (ov k).map fun n => (k.key, .count n)

/-- What an override adds to a section. -/
def overrideKeys (enabled : Bool) (retention : Option Override) : Body :=
  disabledKeys enabled ++ retentionKeys retention

def rootSection (policy : Policy) (cls : PolicyClass) (ds : Text) : Section :=
  let ov := (policy.dataset ds).join
  let incus := cls == .guests
  ⟨ds,
    [(.useTemplate, .template ((ov.bind DatasetOverride.cls).getD cls)), (.recursive, .flag incus),
      (.processChildrenOnly, .flag incus)] ++
      overrideKeys (ov.elim true DatasetOverride.enabled) (ov.bind DatasetOverride.retention)⟩

/-- The section of a guest that the look-up finds something for. -/
def guestSection (ov : Option GuestOverride) (dataset : Text) : Section :=
  ⟨dataset, [(.useTemplate, .template .guests), (.recursive, .flag false)] ++
    overrideKeys (ov.elim true GuestOverride.enabled) (ov.bind GuestOverride.retention)⟩

def datasetSection (policy : Policy) (managed : Managed) (ds : Text) (ov : DatasetOverride) : Section :=
  let cls := (ov.cls.or (classForDataset ds (some managed) policy)).getD .backups
  ⟨ds, [(.useTemplate, .template cls), (.recursive, .flag false)] ++ overrideKeys ov.enabled ov.retention⟩

def writeRoot (policy : Policy) (managed : Managed) (r : Rendered) (cls : PolicyClass) : Rendered :=
  match managed.root cls with
  | none => r
  | some ds => r.push (rootSection policy cls ds)

local instance lawfulText : LawfulBEq (List Char) := inferInstance

def writeGuest (policy : Policy) (r : Rendered) (g : GuestDataset) : Rendered :=
  match policy.guest g.guest with
  | none => r
  | some ov => if g.dataset ∈ r.written then r else r.push (guestSection ov g.dataset)

def writeDataset (policy : Policy) (managed : Managed) (r : Rendered) (entry : Text × DatasetOverride) : Rendered :=
  if entry.1 ∈ r.written then r else r.push (datasetSection policy managed entry.1 entry.2)

def rendered (policy : Policy) (managed : Managed) (guestDatasets : List GuestDataset) : Rendered :=
  let roots := PolicyClass.all.foldl (writeRoot policy managed) ⟨[], []⟩
  let guests := guestDatasets.foldl (writeGuest policy) roots
  policy.datasets.own.foldl (writeDataset policy managed) guests

end ProxyPilot.Sanoid
