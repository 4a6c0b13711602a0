import Mathlib.Data.List.Induction
import ProxyPilot.Routes.Drift

namespace ProxyPilot.Routes

open Data

/-! # What a clean drift report says

One call of the check: the route table, what it reads downstream, and the guests.
-/

structure Edge where
  rows : List RouteRow
  siteFiles : Table SiteFile
  config : Option Json
  guests : List Guest
  reservations : String → Option Bool

variable {e : Edge} {domain dial : String}

def Edge.running (e : Edge) : Option Running := e.config.map extractCaddyUpstreams

def Edge.inputs (e : Edge) : Inputs :=
  ⟨intendedUpstreams e.rows, e.siteFiles, e.running, indexGuestsByIp e.guests, e.reservations⟩

def Edge.report (e : Edge) : Report := compareRoutes e.inputs

def routed (rows : List RouteRow) (domain : String) : List RouteRow := rows.filter fun row => row.domain == domain

def Edge.Declares (e : Edge) (domain : String) : Prop := ∃ row ∈ e.rows, row.domain = domain

/-- What the route table says of the domain. -/
def Edge.Expects (e : Edge) (domain dial : String) : Prop :=
  ∃ row ∈ routed e.rows domain, ∃ ip port, row.upstream = some (ip, port) ∧ dial = upstreamOf ip port

def Edge.OnDisk (e : Edge) (domain dial : String) : Prop :=
  ∃ file, e.siteFiles.get domain = some file ∧ dial ∈ file.upstreams

def Edge.InCaddy (e : Edge) (domain dial : String) : Prop :=
  ∃ config, e.config = some config ∧ Proxies [] config (.str domain) dial

/-- The text before the port, or all of it. -/
def addressOf (dial : String) : String :=
  if ':' ∈ dial.toList then String.ofList ((dial.toList.reverse.dropWhile (· ≠ ':')).drop 1).reverse else dial

def Edge.Holds (e : Edge) (address name : String) : Prop :=
  ∃ guest ∈ e.guests, guest.listed = true ∧ trimmed guest.ip = address ∧ guest.name = name

/-- Held by a guest that is not the container of a service of the domain. -/
def Edge.Foreign (e : Edge) (domain dial : String) : Prop :=
  ∃ name, e.Holds (addressOf dial) name ∧ ∀ row ∈ routed e.rows domain, truthy row.lxcContainerName ≠ some name

/-- No declared domain is without its file or reaches another tenant. -/
def Edge.Contained (e : Edge) : Prop :=
  ∀ domain, e.Declares domain → (e.siteFiles.get domain).isSome = true ∧
    ∀ dial, e.OnDisk domain dial ∨ e.InCaddy domain dial → ¬ e.Foreign domain dial

/-- Both stores dial what is declared, and each upstream is held by its own container. -/
def Edge.Exact (e : Edge) : Prop :=
  ∀ domain, e.Declares domain → (e.siteFiles.get domain).isSome = true ∧
    (∀ dial, e.OnDisk domain dial ↔ e.Expects domain dial) ∧
    (e.config.isSome = true → ∀ dial, e.InCaddy domain dial ↔ e.Expects domain dial) ∧
    ∀ row ∈ routed e.rows domain, ∀ ip port, row.upstream = some (ip, port) →
      ∃ name, truthy row.lxcContainerName = some name ∧ e.Holds ip name

def firstContainer (rows : List RouteRow) (domain : String) : Option String :=
  (routed rows domain).findSome? fun row => truthy row.lxcContainerName

def declared (rows : List RouteRow) (domain : String) : Declared :=
  (routed rows domain).foldl Declared.add ⟨domain, none, [], []⟩

theorem foldl_add_domain (rows : List RouteRow) (entry : Declared) :
    (rows.foldl Declared.add entry).domain = entry.domain := by
  induction rows generalizing entry with
  | nil => rfl
  | cons row rest ih => exact ih (entry.add row)

theorem foldl_add_container (rows : List RouteRow) (entry : Declared) :
    (rows.foldl Declared.add entry).container =
      (entry.container <|> rows.findSome? fun row => truthy row.lxcContainerName) := by
  induction rows generalizing entry with
  | nil => simp
  | cons row rest ih =>
    rw [List.foldl_cons, ih, List.findSome?_cons]
    simp only [Declared.add]
    cases entry.container <;> cases truthy row.lxcContainerName <;> rfl

theorem mem_addTo {expected : List String} {upstream : Option (String × Nat)} :
    dial ∈ addTo expected upstream ↔ dial ∈ expected ∨ ∃ ip port, upstream = some (ip, port) ∧
      dial = upstreamOf ip port := by
  cases upstream with
  | none => simp [addTo]
  | some pair =>
    obtain ⟨ip, port⟩ := pair
    simp only [addTo]
    split
    case isTrue member =>
        constructor
        · exact .inl
        · rintro (old | ⟨_, _, same, rfl⟩)
          · exact old
          · cases same
            exact member
    case isFalse => simp

theorem mem_foldl_add {rows : List RouteRow} {entry : Declared} : dial ∈ (rows.foldl Declared.add entry).expected ↔
    dial ∈ entry.expected ∨ ∃ row ∈ rows, ∃ ip port, row.upstream = some (ip, port) ∧
      dial = upstreamOf ip port := by
  induction rows generalizing entry with
  | nil => simp
  | cons row rest ih =>
    rw [List.foldl_cons, ih]
    simp only [Declared.add, mem_addTo, List.exists_mem_cons_iff, or_assoc]

@[simp] theorem declared_domain (rows : List RouteRow) : (declared rows domain).domain = domain :=
  foldl_add_domain _ _

@[simp] theorem declared_container (rows : List RouteRow) :
    (declared rows domain).container = firstContainer rows domain := by
  rw [declared, foldl_add_container]
  exact Option.none_or

theorem mem_declared : dial ∈ (declared e.rows domain).expected ↔ e.Expects domain dial := by
  rw [declared, mem_foldl_add]
  exact or_iff_right List.not_mem_nil

theorem addRow_get (byDomain : Table Declared) (row : RouteRow) (domain : String) :
    (addRow byDomain row).get domain =
    if domain = row.domain then some (((byDomain.get domain).getD ⟨domain, none, [], []⟩).add row)
      else byDomain.get domain := by
  have named : Keyed.key (((byDomain.get row.domain).getD ⟨row.domain, none, [], []⟩).add row) = row.domain := by
    cases found : byDomain.get row.domain with
    | none => rfl
    | some entry =>
      have key : entry.domain = row.domain := Table.get_key found
      exact key
  rw [addRow, Table.get_put, named]
  by_cases same : domain = row.domain
  · rw [if_pos same, if_pos same, same]
  · rw [if_neg same, if_neg same]

theorem routed_snoc (rows : List RouteRow) (row : RouteRow) (domain : String) :
    routed (rows ++ [row]) domain = if domain = row.domain then routed rows domain ++ [row]
      else routed rows domain := by
  by_cases same : domain = row.domain
  · simp [routed, same]
  · simp [routed, same, Ne.symm same]

theorem intended_get (rows : List RouteRow) (domain : String) :
    (intendedUpstreams rows).get domain = if routed rows domain = [] then none
      else some (declared rows domain) := by
  induction rows using List.reverseRecOn with
  | nil => rfl
  | append_singleton rows row ih =>
    have grown : intendedUpstreams (rows ++ [row]) = addRow (intendedUpstreams rows) row := by
      rw [intendedUpstreams, List.foldl_append]
      rfl
    have before : ((intendedUpstreams rows).get domain).getD ⟨domain, none, [], []⟩ = declared rows domain := by
      rw [ih]
      split
      case isTrue none => rw [declared, none]; rfl
      case isFalse => rfl
    rw [grown, addRow_get, routed_snoc, before, ih]
    split
    case isTrue same =>
        rw [if_neg (by simp), declared, declared, routed_snoc, if_pos same, List.foldl_append]
        rfl
    case isFalse other => rw [declared, declared, routed_snoc, if_neg other]

theorem intended_rows {want : Declared} : want ∈ (intendedUpstreams e.rows).rows ↔
    e.Declares want.domain ∧ want = declared e.rows want.domain := by
  have lookup : want ∈ (intendedUpstreams e.rows).rows ↔ (intendedUpstreams e.rows).get want.domain = some want :=
    ⟨fun member => Table.get_of_mem member, fun found => Table.get_mem found⟩
  have none : routed e.rows want.domain = [] ↔ ¬ e.Declares want.domain := by
    simp [routed, Edge.Declares, List.filter_eq_nil_iff]
  rw [lookup, intended_get]
  split
  case isTrue absent => simp [none.mp absent]
  case isFalse there =>
      have declares : e.Declares want.domain := by
        by_contra absent
        exact there (none.mpr absent)
      simp [declares, eq_comm]

theorem before_port {ip port : List Char} (plain : ':' ∉ port) :
    (((ip ++ ':' :: port).reverse.dropWhile (· ≠ ':')).drop 1).reverse = ip := by
  have skipped : (port.reverse ++ ':' :: ip.reverse).dropWhile (· ≠ ':') = ':' :: ip.reverse := by
    rw [List.dropWhile_append_of_pos]
    · rfl
    · intro c member
      exact decide_eq_true fun same => plain (same ▸ List.mem_reverse.mp member)
  rw [List.reverse_append, List.reverse_cons, List.append_assoc, List.singleton_append, skipped]
  exact List.reverse_reverse ip

theorem port_plain (port : Nat) : ':' ∉ (toString port).toList := by
  intro member
  have digit :=
    Nat.isDigit_of_mem_toDigits (by decide) (by decide) (show ':' ∈ Nat.toDigits 10 port by simpa using member)
  revert digit
  decide

theorem upstream_toList (ip : String) (port : Nat) :
    (upstreamOf ip port).toList = ip.toList ++ ':' :: (toString port).toList := by
  simp [upstreamOf]

@[simp] theorem addressOf_upstream (ip : String) (port : Nat) : addressOf (upstreamOf ip port) = ip := by
  rw [addressOf, upstream_toList, if_pos (by simp), before_port (port_plain port)]
  exact String.ofList_toList

theorem dialHost_upstream {ip : String} (named : ip ≠ "") (port : Nat) : dialHost (upstreamOf ip port) = ip := by
  have before : sliceBeforePort (upstreamOf ip port).toList = ip.toList := by
    rw [sliceBeforePort, upstream_toList, if_pos (by simp), before_port (port_plain port)]
  have filled : ip.toList ≠ [] := by simpa using named
  rw [dialHost, before, if_neg filled]
  exact String.ofList_toList

theorem index_of_holds {address name : String} (holds : e.Holds address name) :
    ∃ last, indexGuestsByIp e.guests address = some last := by
  obtain ⟨guest, member, listed, here, _⟩ := holds
  cases found : e.guests.reverse.find? fun guest => guest.listed && trimmed guest.ip == address with
  | some last => exact ⟨last.name, by rw [indexGuestsByIp, found]; rfl⟩
  | none =>
    have absent := List.find?_eq_none.mp found guest (List.mem_reverse.mpr member)
    simp [listed, here] at absent

/-- What the check takes the edge to dial. -/
def Edge.Effective (e : Edge) (domain dial : String) : Prop :=
  e.InCaddy domain dial ∨ (∀ other, ¬ e.InCaddy domain other) ∧ e.OnDisk domain dial

/-- A domain without a difference. -/
structure Edge.Compares (e : Edge) (domain : String) : Prop where
  file : (e.siteFiles.get domain).isSome = true
  disk : ∀ upstream, e.Expects domain upstream → ∀ dial, e.OnDisk domain dial ↔ e.Expects domain dial
  caddy : ∀ upstream, e.Expects domain upstream → e.config.isSome = true →
    ∀ dial, e.InCaddy domain dial ↔ e.Expects domain dial
  attributed : ∀ dial, e.Effective domain dial →
    ∀ container, firstContainer e.rows domain = some container → ∀ holder,
    indexGuestsByIp e.guests (dialHost dial) = some holder → holder = container

theorem setsEqual_iff {a b : List String} : setsEqual a b = true ↔ ∀ dial, dial ∈ b ↔ dial ∈ a := by
  simp only [setsEqual, Bool.and_eq_true, List.all_eq_true, List.contains_iff_mem]
  exact ⟨fun both dial => ⟨both.2 dial, both.1 dial⟩,
    fun same => ⟨fun dial => (same dial).mpr, fun dial => (same dial).mp⟩⟩

theorem mem_onDisk : dial ∈ e.inputs.onDisk (declared e.rows domain) ↔ e.OnDisk domain dial := by
  unfold Inputs.onDisk Edge.OnDisk Edge.inputs
  rw [declared_domain]
  cases e.siteFiles.get domain <;> simp

theorem inCaddy_of_config {config : Json} (read : e.config = some config) :
    e.InCaddy domain dial ↔ dial ∈ (extractCaddyUpstreams config).get domain := by
  simp [Edge.InCaddy, read, mem_extracted]

theorem not_inCaddy (read : e.config = none) : ¬ e.InCaddy domain dial := by simp [Edge.InCaddy, read]

theorem mem_effective : dial ∈ e.inputs.effective (declared e.rows domain) ↔ e.Effective domain dial := by
  unfold Inputs.effective Inputs.inCaddy Edge.Effective
  rw [declared_domain]
  cases read : e.config with
  | none => simp [Edge.inputs, Edge.running, read, not_inCaddy read, ← mem_onDisk]
  | some config =>
    simp only [Edge.inputs, Edge.running, read, Option.map_some, List.isEmpty_iff, inCaddy_of_config read]
    split
    case isTrue none => simp [none, ← mem_onDisk, Edge.inputs, Edge.running, read]
    case isFalse some =>
        obtain ⟨first, member⟩ := List.exists_mem_of_ne_nil _ some
        exact ⟨.inl, fun either => either.resolve_right fun filed => filed.1 first member⟩

theorem crossings_nil : e.inputs.crossings (declared e.rows domain) = [] ↔
    ∀ dial, e.Effective domain dial → ∀ container, firstContainer e.rows domain = some container → ∀ holder,
      indexGuestsByIp e.guests (dialHost dial) = some holder → holder = container := by
  simp only [Inputs.crossings, List.filterMap_eq_nil_iff, mem_effective]
  refine forall₂_congr fun dial _ => ?_
  unfold Inputs.crossing
  rw [declared_container, show e.inputs.guestsByIp = indexGuestsByIp e.guests from rfl]
  cases firstContainer e.rows domain with
  | none => simp
  | some container =>
    cases indexGuestsByIp e.guests (dialHost dial) with
    | none => simp
    | some holder => simp

theorem expected_filled : (declared e.rows domain).expected.isEmpty = false ↔
    ∃ upstream, e.Expects domain upstream := by
  rw [List.isEmpty_eq_false_iff_exists_mem]
  simp only [mem_declared]

theorem expected_differs {dials : List String} : setsEqual (declared e.rows domain).expected dials = false ↔
    ¬ ∀ dial, dial ∈ dials ↔ e.Expects domain dial := by
  rw [← Bool.not_eq_true, setsEqual_iff]
  simp only [mem_declared]

theorem fileStatus_match : (e.inputs.fileStatus (declared e.rows domain)).1 = .match' ↔
    (e.siteFiles.get domain).isSome = true ∧
    ∀ upstream, e.Expects domain upstream → ∀ dial, e.OnDisk domain dial ↔ e.Expects domain dial := by
  have drifts :
      (!(declared e.rows domain).expected.isEmpty && !setsEqual (declared e.rows domain).expected
      (e.inputs.onDisk (declared e.rows domain))) = true ↔
      (∃ upstream, e.Expects domain upstream) ∧ ¬ ∀ dial, e.OnDisk domain dial ↔ e.Expects domain dial := by
    rw [Bool.and_eq_true, Bool.not_eq_true', Bool.not_eq_true', expected_filled, expected_differs]
    simp only [mem_onDisk]
  unfold Inputs.fileStatus
  rw [declared_domain]
  cases found : e.inputs.siteFiles.get domain with
  | none => simp [show e.siteFiles.get domain = none from found]
  | some file =>
    simp only [show e.siteFiles.get domain = some file from found, Option.isSome_some, true_and]
    split
    case isTrue drift =>
        obtain ⟨⟨upstream, expected⟩, differs⟩ := drifts.mp drift
        simp only [reduceCtorEq, false_iff]
        exact fun same => differs (same upstream expected)
    case isFalse still =>
        simp only [true_iff]
        intro upstream expected
        by_contra differs
        exact still (drifts.mpr ⟨⟨upstream, expected⟩, differs⟩)

variable {before : Status × List String}

theorem caddyStatus_match : (e.inputs.caddyStatus (declared e.rows domain) before).1 = .match' ↔
    before.1 = .match' ∧ ∀ upstream, e.Expects domain upstream → e.config.isSome = true →
      ∀ dial, e.InCaddy domain dial ↔ e.Expects domain dial := by
  unfold Inputs.caddyStatus Inputs.inCaddy
  rw [declared_domain]
  cases read : e.config with
  | none => simp [Edge.inputs, Edge.running, read]
  | some config =>
    simp only [Edge.inputs, Edge.running, read, Option.map_some, Option.isSome_some, forall_const,
      inCaddy_of_config read]
    split
    case isTrue none =>
        have nothing : ∀ upstream, ¬ e.Expects domain upstream := fun upstream expected => by
          rw [expected_filled.mpr ⟨upstream, expected⟩] at none
          contradiction
        simp [nothing]
    case isFalse some =>
        obtain ⟨upstream, expected⟩ := expected_filled.mp (Bool.not_eq_true _ ▸ some)
        split
        case isTrue empty =>
            have differs : ¬ ∀ upstream, e.Expects domain upstream → ∀ dial,
                dial ∈ (extractCaddyUpstreams config).get domain ↔ e.Expects domain dial := fun same => by
              have member := (same upstream expected upstream).mpr expected
              rw [List.isEmpty_iff.mp empty] at member
              contradiction
            have never : before.1.orMissing ≠ .match' := by cases before.1 <;> simp [Status.orMissing]
            exact ⟨fun wrong => absurd wrong never, fun both => absurd both.2 differs⟩
        case isFalse =>
            split
            case isTrue drift =>
                have differs := expected_differs.mp (Bool.not_eq_true' _ ▸ drift)
                simp only [reduceCtorEq, false_iff, not_and]
                exact fun _ same => differs (same upstream expected)
            case isFalse still =>
                refine ⟨fun matched => ⟨matched, fun _ _ => ?_⟩, fun both => both.1⟩
                by_contra differs
                exact still (by rw [expected_differs.mpr differs]; rfl)

theorem fileStatus_managed (i : Inputs) (want : Declared) : (i.fileStatus want).1 ≠ .unmanaged := by
  unfold Inputs.fileStatus
  split
  · simp
  · split <;> simp

theorem caddyStatus_managed (i : Inputs) (want : Declared) (managed : before.1 ≠ .unmanaged) :
    (i.caddyStatus want before).1 ≠ .unmanaged := by
  unfold Inputs.caddyStatus
  split
  · exact managed
  · split
    · exact managed
    · split
      · have kept : ∀ status : Status, status ≠ .unmanaged → status.orMissing ≠ .unmanaged := by
          intro status
          cases status <;> simp [Status.orMissing]
        exact kept _ managed
      · split
        · simp
        · exact managed

theorem status_clean :
    ((e.inputs.status (declared e.rows domain) ≠ .drift ∧ e.inputs.status (declared e.rows domain) ≠ .missing) ∧
    e.inputs.crossings (declared e.rows domain) = []) ↔ e.Compares domain := by
  have matched : ∀ status : Status, status ≠ .unmanaged →
      ((status ≠ .drift ∧ status ≠ .missing) ↔ status = .match') := by
    intro status
    cases status <;> simp
  have managed :=
    caddyStatus_managed e.inputs (declared e.rows domain) (fileStatus_managed e.inputs (declared e.rows domain))
  constructor
  · rintro ⟨fine, none⟩
    rw [Inputs.status, none, List.isEmpty_nil, if_pos rfl, matched _ managed, caddyStatus_match,
      fileStatus_match] at fine
    exact ⟨fine.1.1, fine.1.2, fine.2, crossings_nil.mp none⟩
  · intro compares
    have none := crossings_nil.mpr compares.attributed
    refine ⟨?_, none⟩
    rw [Inputs.status, none, List.isEmpty_nil, if_pos rfl, matched _ managed, caddyStatus_match, fileStatus_match]
    exact ⟨⟨compares.file, compares.disk⟩, compares.caddy⟩

theorem clean_iff : e.report.clean = true ↔ ∀ domain, e.Declares domain → e.Compares domain := by
  have rows : ∀ want, want ∈ e.inputs.intended.rows ↔ e.Declares want.domain ∧
      want = declared e.rows want.domain := fun _ => intended_rows
  have split : e.report.clean = true ↔ ∀ want ∈ e.inputs.intended.rows,
      (e.inputs.status want ≠ .drift ∧ e.inputs.status want ≠ .missing) ∧ e.inputs.crossings want = [] := by
    have others : ∀ file : SiteFile, (unmanagedReport file).status = .unmanaged := fun _ => rfl
    simp only [Edge.report, compareRoutes, Bool.and_eq_true, List.all_append, List.all_map,
      List.all_eq_true, Function.comp_apply, others,
      bne_iff_ne, Inputs.domainReport, List.isEmpty_iff, List.flatMap_eq_nil_iff]
    constructor
    · exact fun both want member => ⟨both.1.1 want member, both.2 want member⟩
    · exact fun each => ⟨⟨fun want member => (each want member).1, fun _ _ => by decide⟩,
        fun want member => (each want member).2⟩
  rw [split]
  constructor
  · intro each domain declares
    have member := (rows (declared e.rows domain)).mpr ⟨by rwa [declared_domain], by rw [declared_domain]⟩
    exact status_clean.mp (each _ member)
  · intro each want member
    obtain ⟨declares, same⟩ := (rows want).mp member
    rw [same]
    exact status_clean.mpr (each _ declares)

theorem crossTenant_nil (clean : e.report.clean = true) : e.report.crossTenant = [] := by
  simp only [Edge.report, compareRoutes, Bool.and_eq_true, List.isEmpty_iff] at clean
  exact clean.2

/-- Another tenant's address that the check passes over: the domain has no named container, or its site file is not
looked at beside the running configuration, or the address is listed for the named container as well, or the dial
string is not read as the address. -/
structure Edge.Overlooks (e : Edge) (domain dial : String) : Prop where
  foreign : e.Foreign domain dial
  passed : firstContainer e.rows domain = none ∨
    ((∀ upstream, ¬ e.Expects domain upstream) ∧ ¬ e.InCaddy domain dial ∧ ∃ other, e.InCaddy domain other) ∨
    (indexGuestsByIp e.guests (addressOf dial) = firstContainer e.rows domain) ∨ dialHost dial ≠ addressOf dial

/-- Every declared upstream is listed for the first container of its domain. -/
def Edge.Unshared (e : Edge) : Prop :=
  ∀ row ∈ e.rows, ∀ ip port, row.upstream = some (ip, port) →
    indexGuestsByIp e.guests ip = firstContainer e.rows row.domain

theorem expects_filled {upstream : String} (expects : e.Expects domain upstream) :
    ∃ ip port, ip ≠ "" ∧ upstream = upstreamOf ip port := by
  obtain ⟨row, _, ip, port, there, same⟩ := expects
  refine ⟨ip, port, ?_, same⟩
  unfold RouteRow.upstream at there
  split at there
  case h_1 found _ =>
      cases there
      simpa [truthy] using (Option.filter_eq_some_iff.mp found).2
  case h_2 => contradiction

/-- Where the stores agree, every dial of another tenant is one the check passes over. -/
theorem Edge.Compares.overlooks (compares : e.Compares domain)
    (dials : e.OnDisk domain dial ∨ e.InCaddy domain dial) (foreign : e.Foreign domain dial) :
    e.Overlooks domain dial := by
  refine ⟨foreign, ?_⟩
  cases named : firstContainer e.rows domain with
  | none => exact .inl rfl
  | some container =>
    refine .inr ?_
    by_cases effective : e.Effective domain dial
    · refine .inr ?_
      by_cases read : dialHost dial = addressOf dial
      · obtain ⟨name, holds, _⟩ := foreign
        obtain ⟨last, found⟩ := index_of_holds holds
        have attributed := compares.attributed dial effective container named last (read ▸ found)
        exact .inl (attributed ▸ found)
      · exact .inr read
    · have unserved : ¬ e.InCaddy domain dial := fun serves => effective (.inl serves)
      have filed := dials.resolve_right unserved
      refine .inl ⟨fun upstream expects => effective ?_, unserved, ?_⟩
      · -- the two stores dial the same where something is expected
        have same := (compares.disk upstream expects dial).mp filed
        cases read : e.config with
        | none => exact .inr ⟨fun _ => not_inCaddy read, filed⟩
        | some config => exact .inl ((compares.caddy upstream expects (read ▸ rfl) dial).mpr same)
      · by_contra none
        exact effective (.inr ⟨fun other serves => none ⟨other, serves⟩, filed⟩)

theorem Edge.Exact.compares (exact' : e.Exact) (unshared : e.Unshared)
    (declares : e.Declares domain) : e.Compares domain := by
  obtain ⟨file, disk, caddy, _⟩ := exact' domain declares
  refine ⟨file, fun _ _ => disk, fun _ _ => caddy, fun dial effective container named holder found => ?_⟩
  have expects : e.Expects domain dial := by
    rcases effective with serves | ⟨_, filed⟩
    · have ⟨config, read, _⟩ := serves
      exact (caddy (read ▸ rfl) dial).mp serves
    · exact (disk dial).mp filed
  obtain ⟨ip, port, filled, same⟩ := expects_filled expects
  obtain ⟨row, member, ip', port', there, same'⟩ := expects
  obtain ⟨inside, here⟩ := List.mem_filter.mp member
  have address : ip' = ip := by
    rw [← addressOf_upstream ip' port', ← same', same, addressOf_upstream]
  have listed := unshared row inside ip' port' there
  rw [same, dialHost_upstream filled, ← address, listed, beq_iff_eq.mp here, named] at found
  exact (Option.some.inj found).symm

theorem Edge.Exact.unshared (exact' : e.Exact)
    (compares : ∀ domain, e.Declares domain → e.Compares domain) : e.Unshared := by
  intro row member ip port there
  have declares : e.Declares row.domain := ⟨row, member, rfl⟩
  have inside : row ∈ routed e.rows row.domain := List.mem_filter.mpr ⟨member, beq_iff_eq.mpr rfl⟩
  obtain ⟨_, disk, caddy, owners⟩ := exact' row.domain declares
  obtain ⟨name, own, holds⟩ := owners row inside ip port there
  have expects : e.Expects row.domain (upstreamOf ip port) := ⟨row, inside, ip, port, there, rfl⟩
  obtain ⟨last, found⟩ := index_of_holds holds
  obtain ⟨_, _, filled, same⟩ := expects_filled expects
  have named : ∃ container, firstContainer e.rows row.domain = some container := by
    cases first : firstContainer e.rows row.domain with
    | some container => exact ⟨container, rfl⟩
    | none =>
      have nameless := List.findSome?_eq_none_iff.mp first row inside
      rw [own] at nameless
      contradiction
  obtain ⟨container, named⟩ := named
  have effective : e.Effective row.domain (upstreamOf ip port) := by
    cases read : e.config with
    | none => exact .inr ⟨fun _ => not_inCaddy read, (disk _).mpr expects⟩
    | some config => exact .inl ((caddy (read ▸ rfl) _).mpr expects)
  have ipFilled : ip ≠ "" := by
    have address := congrArg addressOf same
    rw [addressOf_upstream, addressOf_upstream] at address
    exact address ▸ filled
  have attributed := (compares row.domain declares).attributed _ effective container named last
      (by rw [dialHost_upstream ipFilled]; exact found)
  rw [found, named, attributed]

/-- A clean report means containment, and exact stores a clean report, exactly where nothing is overlooked and no
domain is shared. -/
theorem clean_report :
    ((e.report.clean = true → e.Contained) ∧ (e.Exact → e.report.clean = true ∧ e.report.crossTenant = [])) ↔
    ((∀ domain, e.Declares domain → e.Compares domain) → ∀ domain, e.Declares domain →
      ∀ dial, e.OnDisk domain dial ∨ e.InCaddy domain dial →
      ¬ e.Overlooks domain dial) ∧ (e.Exact → e.Unshared) := by
  rw [clean_iff]
  constructor
  · rintro ⟨sound, complete⟩
    refine ⟨fun compares domain declares dial dials overlooks => ?_, fun exact' => ?_⟩
    · exact (sound compares domain declares).2 dial dials overlooks.foreign
    · exact exact'.unshared (complete exact').1
  · rintro ⟨seen, unshared⟩
    refine ⟨fun compares domain declares =>
      ⟨(compares domain declares).file, fun dial dials foreign => ?_⟩, fun exact' => ?_⟩
    · exact seen compares domain declares dial dials ((compares domain declares).overlooks dials foreign)
    · have compares : ∀ domain, e.Declares domain → e.Compares domain :=
        fun domain declares => exact'.compares (unshared exact') declares
      exact ⟨compares, crossTenant_nil (clean_iff.mpr compares)⟩

def apiRow : RouteRow := ⟨"example.org", some 80, .containerService, some "10.0.0.1", some "api"⟩

def webRow : RouteRow := ⟨"example.org", some 80, .containerService, some "10.0.0.2", some "web"⟩

def sharedEdge : Edge where
  rows := [apiRow, webRow]
  siteFiles := (∅ : Table SiteFile).put ⟨"example.org", "example.org.caddy", ["10.0.0.1:80", "10.0.0.2:80"]⟩
  config := none
  guests := [⟨"api", "10.0.0.1"⟩, ⟨"web", "10.0.0.2"⟩]
  reservations := fun _ => none

theorem shared_exact : sharedEdge.Exact := by
  intro domain ⟨row, member, here⟩
  have named : domain = "example.org" := by
    rcases List.mem_cons.mp member with rfl | other
    · exact here.symm
    · rw [← here, List.mem_singleton.mp other]
      rfl
  subst named
  have routes : routed sharedEdge.rows "example.org" = [apiRow, webRow] := rfl
  have api : apiRow.upstream = some ("10.0.0.1", 80) := by decide
  have web : webRow.upstream = some ("10.0.0.2", 80) := by decide
  have holds : ∀ guest ∈ sharedEdge.guests, sharedEdge.Holds guest.ip guest.name := by
    intro guest member
    refine ⟨guest, member, ?_, ?_, rfl⟩
    all_goals revert guest; decide
  refine ⟨rfl, fun dial => ?_, fun wrong => (nomatch wrong), fun row member ip port there => ?_⟩
  · have files : sharedEdge.OnDisk "example.org" dial ↔
        dial ∈ [upstreamOf "10.0.0.1" 80, upstreamOf "10.0.0.2" 80] :=
      ⟨fun ⟨_, found, inside⟩ => by cases found; exact inside, fun inside => ⟨_, rfl, inside⟩⟩
    rw [files, Edge.Expects, routes]
    simp [api, web]
  · rw [routes] at member
    rcases List.mem_cons.mp member with rfl | other
    · cases api.symm.trans there
      exact ⟨"api", by decide, holds ⟨"api", "10.0.0.1"⟩ (by decide)⟩
    · cases List.mem_singleton.mp other
      cases web.symm.trans there
      exact ⟨"web", by decide, holds ⟨"web", "10.0.0.2"⟩ (by decide)⟩

/-- Two services share a domain, each route dials its own container, and the second is reported as
another tenant. -/
theorem clean_report_shared : ¬ ((sharedEdge.report.clean = true → sharedEdge.Contained) ∧
    (sharedEdge.Exact → sharedEdge.report.clean = true ∧ sharedEdge.report.crossTenant = [])) := by
  intro ⟨_, complete⟩
  have dirty : sharedEdge.report.clean = false := by decide +kernel
  rw [(complete shared_exact).1] at dirty
  contradiction

end ProxyPilot.Routes
