import Mathlib.Data.List.ProdSigma
import ProxyPilot.Data.Table
import ProxyPilot.Data.Text

namespace ProxyPilot.Routes

open Data

/-! # Drift of the running edge (`route-drift.js`)

A `Map` from hosts to sets of dial strings is the list of its pairs.
-/

/-- A JSON value, as the admin API returns it. -/
inductive Json where
  | null
  | bool (value : Bool)
  | num (value : Rat)
  | str (value : String)
  | arr (items : List Json)
  | obj (fields : List (String × Json))

def Json.isStr (value : String) : Json → Bool
  | .str other => other == value
  | _ => false

def hostsOf : Json → List Json
  | .obj fields =>
    match fields.lookup "host" with
    | some (.arr hosts) => hosts
    | _ => []
  | _ => []

/-- A route entry may narrow the host set for everything beneath it. -/
def scopedHosts (hosts : List Json) (fields : List (String × Json)) : List Json :=
  match fields.lookup "match" with
  | some (.arr matchers) => if (matchers.flatMap hostsOf).isEmpty then hosts else matchers.flatMap hostsOf
  | _ => hosts

def dialOf : Json → Option String
  | .obj fields =>
    match fields.lookup "dial" with
    | some (.str dial) => some dial
    | _ => none
  | _ => none

def isReverseProxy (fields : List (String × Json)) : Bool :=
  (fields.lookup "handler").any (Json.isStr "reverse_proxy")

/-- What the node itself dials. -/
def dialsOf (fields : List (String × Json)) : List String :=
  match isReverseProxy fields, fields.lookup "upstreams" with
  | true, some (.arr upstreams) => upstreams.filterMap dialOf
  | _, _ => []

mutual

def walk (hosts : List Json) : Json → List (Json × String)
  | .arr items => walkItems hosts items
  | .obj fields => scopedHosts hosts fields ×ˢ dialsOf fields ++ walkFields (scopedHosts hosts fields) fields
  | _ => []

def walkItems (hosts : List Json) : List Json → List (Json × String)
  | [] => []
  | item :: rest => walk hosts item ++ walkItems hosts rest

def walkFields (hosts : List Json) : List (String × Json) → List (Json × String)
  | [] => []
  | (key, value) :: rest => (if key = "match" then [] else walk hosts value) ++ walkFields hosts rest

end

abbrev Running := List (Json × String)

def extractCaddyUpstreams (config : Json) : Running := walk [] config

def Running.get (running : Running) (domain : String) : List String :=
  ((running.filter fun entry => entry.1.isStr domain).map Prod.snd).eraseDups

/-- A node that dials for a host, by the nearest enclosing host matcher. -/
inductive Proxies : List Json → Json → Json → String → Prop where
  | here {hosts : List Json} {fields : List (String × Json)} {host : Json} {dial : String} :
      host ∈ scopedHosts hosts fields → dial ∈ dialsOf fields → Proxies hosts (.obj fields) host dial
  | field {hosts : List Json} {fields : List (String × Json)} {key : String} {value host : Json} {dial : String} :
      (key, value) ∈ fields → key ≠ "match" → Proxies (scopedHosts hosts fields) value host dial →
        Proxies hosts (.obj fields) host dial
  | item {hosts items : List Json} {item host : Json} {dial : String} :
      item ∈ items → Proxies hosts item host dial → Proxies hosts (.arr items) host dial

mutual

theorem mem_walk (hosts : List Json) {host : Json} {dial : String} :
    (node : Json) → ((host, dial) ∈ walk hosts node ↔ Proxies hosts node host dial)
  | .arr items => by
    rw [walk, mem_walkItems hosts items]
    constructor
    · rintro ⟨item, member, proxies⟩
      exact .item member proxies
    · intro proxies
      cases proxies with
      | item member inner => exact ⟨_, member, inner⟩
  | .obj fields => by
    rw [walk, List.mem_append, List.mem_product, mem_walkFields _ fields]
    constructor
    · rintro (⟨inside, dials⟩ | ⟨key, value, member, other, proxies⟩)
      · exact .here inside dials
      · exact .field member other proxies
    · intro proxies
      cases proxies with
      | here inside dials => exact .inl ⟨inside, dials⟩
      | field member other inner => exact .inr ⟨_, _, member, other, inner⟩
  | .null | .bool _ | .num _ | .str _ => by
    rw [walk]
    · exact ⟨fun member => absurd member List.not_mem_nil, fun proxies => nomatch proxies⟩
    all_goals intros; contradiction

theorem mem_walkItems (hosts : List Json) {host : Json} {dial : String} : (items : List Json) →
    ((host, dial) ∈ walkItems hosts items ↔ ∃ item ∈ items, Proxies hosts item host dial)
  | [] => by simp [walkItems]
  | item :: rest => by
    rw [walkItems, List.mem_append, mem_walk hosts item, mem_walkItems hosts rest]
    simp

theorem mem_walkFields (hosts : List Json) {host : Json} {dial : String} : (fields : List (String × Json)) →
    ((host, dial) ∈ walkFields hosts fields ↔ ∃ key value, (key, value) ∈ fields ∧ key ≠ "match" ∧
      Proxies hosts value host dial)
  | [] => by simp [walkFields]
  | (key, value) :: rest => by
    have first : (host, dial) ∈ (if key = "match" then [] else walk hosts value) ↔ key ≠ "match" ∧
        Proxies hosts value host dial := by
      split
      case isTrue same => simp [same]
      case isFalse other => rw [mem_walk hosts value]; simp [other]
    rw [walkFields, List.mem_append, first, mem_walkFields hosts rest]
    constructor
    · rintro (⟨other, proxies⟩ | ⟨key', value', member, other, proxies⟩)
      · exact ⟨key, value, List.mem_cons_self, other, proxies⟩
      · exact ⟨key', value', List.mem_cons_of_mem _ member, other, proxies⟩
    · rintro ⟨key', value', member, other, proxies⟩
      rcases List.mem_cons.mp member with same | later
      · cases same
        exact .inl ⟨other, proxies⟩
      · exact .inr ⟨key', value', later, other, proxies⟩

end

theorem mem_extracted {config : Json} {domain dial : String} :
    dial ∈ (extractCaddyUpstreams config).get domain ↔ Proxies [] config (.str domain) dial := by
  rw [← mem_walk, Running.get, List.mem_eraseDups, List.mem_map]
  constructor
  · rintro ⟨⟨host, other⟩, member, rfl⟩
    obtain ⟨inside, named⟩ := List.mem_filter.mp member
    cases host <;> simp only [Json.isStr, Bool.false_eq_true, beq_iff_eq] at named
    exact named ▸ inside
  · exact fun member => ⟨(.str domain, dial), List.mem_filter.mpr ⟨member, by simp [Json.isStr]⟩, rfl⟩

inductive ServiceKind where
  | containerService
  | staticSite

/-- A row of the join of `service_http_routes` with `services` that are no administrator's. -/
structure RouteRow where
  domain : String
  targetPort : Option Nat
  kind : ServiceKind
  targetIp : Option String
  lxcContainerName : Option String

/-- An empty string counts as none. -/
def truthy (text : Option String) : Option String := text.filter (· ≠ "")

def upstreamOf (ip : String) (port : Nat) : String := ip ++ ":" ++ toString port

def RouteRow.upstream (row : RouteRow) : Option (String × Nat) :=
  match row.kind, truthy row.targetIp, row.targetPort.filter (· ≠ 0) with
  | .containerService, some ip, some port => some (ip, port)
  | _, _, _ => none

structure Declared where
  domain : String
  container : Option String
  expected : List String
  routes : List RouteRow

instance : Keyed Declared String := ⟨Declared.domain⟩

def addTo (expected : List String) (upstream : Option (String × Nat)) : List String :=
  match upstream with
  | some (ip, port) => if upstreamOf ip port ∈ expected then expected else expected ++ [upstreamOf ip port]
  | none => expected

/-- The first named container stays. -/
def Declared.add (entry : Declared) (row : RouteRow) : Declared :=
  { entry with
    container := entry.container <|> truthy row.lxcContainerName
    expected := addTo entry.expected row.upstream
    routes := entry.routes ++ [row] }

def addRow (byDomain : Table Declared) (row : RouteRow) : Table Declared :=
  byDomain.put (((byDomain.get row.domain).getD ⟨row.domain, none, [], []⟩).add row)

def intendedUpstreams (rows : List RouteRow) : Table Declared := rows.foldl addRow ∅

structure SiteFile where
  domain : String
  file : String
  upstreams : List String

instance : Keyed SiteFile String := ⟨SiteFile.domain⟩

structure Guest where
  name : String
  ip : String
deriving DecidableEq

def trimmed (text : String) : String := String.ofList (trim text.toList)

def Guest.listed (guest : Guest) : Bool := guest.ip != "" && guest.name != ""

/-- A later guest replaces an earlier one of the same address. -/
def indexGuestsByIp (guests : List Guest) (address : String) : Option String :=
  (guests.reverse.find? fun guest => guest.listed && trimmed guest.ip == address).map Guest.name

def setsEqual (a b : List String) : Bool := a.all b.contains && b.all a.contains

/-- `dial.slice(0, dial.lastIndexOf(':'))`, which drops the last character where there is no colon. -/
def sliceBeforePort (dial : List Char) : List Char :=
  if ':' ∈ dial then ((dial.reverse.dropWhile (· ≠ ':')).drop 1).reverse else dial.dropLast

def dialHost (dial : String) : String :=
  if sliceBeforePort dial.toList = [] then dial else String.ofList (sliceBeforePort dial.toList)

inductive Status where
  | match'
  | drift
  | missing
  | unmanaged
deriving DecidableEq

structure Crossing where
  domain : String
  declaredContainer : String
  servingContainer : String
  upstream : String

structure DomainReport where
  domain : String
  status : Status
  container : Option String
  upstreamReserved : Option Bool
  expected : List String
  onDisk : List String
  inCaddy : Option (List String)
  differences : List String

structure Report where
  clean : Bool
  checked : Nat
  caddyAdminReachable : Bool
  domains : List DomainReport
  crossTenant : List Crossing
  unreserved : List (String × String)

structure Inputs where
  intended : Table Declared
  siteFiles : Table SiteFile
  running : Option Running
  guestsByIp : String → Option String
  reservations : String → Option Bool

variable (i : Inputs)

def Inputs.onDisk (want : Declared) : List String :=
  ((i.siteFiles.get want.domain).map fun file => file.upstreams.eraseDups).getD []

def Inputs.inCaddy (want : Declared) : Option (List String) := i.running.map fun running => running.get want.domain

def joined (dials : List String) : String := ", ".intercalate dials

def listedOr (dials : List String) : String := if dials.isEmpty then "nothing" else joined dials

/-- The site file against the route table. -/
def Inputs.fileStatus (want : Declared) : Status × List String :=
  match i.siteFiles.get want.domain with
  | none =>
    (.missing, ["no site file for " ++ want.domain ++ " — the route is declared but the edge cannot serve it"])
  | some _ =>
    if !want.expected.isEmpty && !setsEqual want.expected (i.onDisk want) then
      (.drift, ["site file dials " ++ listedOr (i.onDisk want) ++ " but the route table says " ++
        joined want.expected])
    else (.match', [])

def Status.orMissing : Status → Status
  | .match' => .missing
  | other => other

def Status.orDrift : Status → Status
  | .match' => .drift
  | other => other

/-- The running configuration against the route table. -/
def Inputs.caddyStatus (want : Declared) (before : Status × List String) : Status × List String :=
  match i.inCaddy want with
  | none => before
  | some inCaddy =>
    if want.expected.isEmpty then before
    else if inCaddy.isEmpty then
      (before.1.orMissing, before.2 ++ ["Caddy's running config serves no upstream for " ++ want.domain])
    else if !setsEqual want.expected inCaddy then
      (.drift, before.2 ++ ["Caddy is running " ++ joined inCaddy ++ " but the route table says " ++
        joined want.expected])
    else before

/-- What the edge is dialing: the running config first, the file second. -/
def Inputs.effective (want : Declared) : List String :=
  match i.inCaddy want with
  | some inCaddy => if inCaddy.isEmpty then i.onDisk want else inCaddy
  | none => i.onDisk want

def Inputs.crossing (want : Declared) (dial : String) : Option Crossing :=
  match want.container, i.guestsByIp (dialHost dial) with
  | some container, some holder => if holder = container then none else some ⟨want.domain, container, holder, dial⟩
  | _, _ => none

def Inputs.crossings (want : Declared) : List Crossing := (i.effective want).filterMap (i.crossing want)

def Inputs.status (want : Declared) : Status :=
  let compared := (i.caddyStatus want (i.fileStatus want)).1
  if (i.crossings want).isEmpty then compared else compared.orDrift

def Inputs.reserved (want : Declared) : Option Bool := want.container.bind i.reservations

def Inputs.domainReport (want : Declared) : DomainReport :=
  ⟨want.domain, i.status want, want.container, i.reserved want, want.expected, i.onDisk want, i.inCaddy want,
    (i.caddyStatus want (i.fileStatus want)).2⟩

def unmanagedReport (file : SiteFile) : DomainReport :=
  ⟨file.domain, .unmanaged, none, none, [], file.upstreams, none,
    [file.file ++ " serves " ++ file.domain ++ ", which ProxyPilot does not manage"]⟩

def Inputs.unreservedOf (want : Declared) : Option (String × String) :=
  match want.container, i.reserved want with
  | some container, some false => some (want.domain, container)
  | _, _ => none

def compareRoutes : Report :=
  let domains := i.intended.rows.map i.domainReport ++
    (i.siteFiles.rows.filter fun file => (i.intended.get file.domain).isNone).map unmanagedReport
  let crossTenant := i.intended.rows.flatMap i.crossings
  { clean := domains.all (fun report => report.status != .drift && report.status != .missing) && crossTenant.isEmpty
    checked := domains.length
    caddyAdminReachable := i.running.isSome
    domains := domains
    crossTenant := crossTenant
    unreserved := i.intended.rows.filterMap i.unreservedOf }

end ProxyPilot.Routes
