import ProxyPilot.Data.Objects
import ProxyPilot.Data.Text

namespace ProxyPilot.Mock2.GateBattery

open Data

/-! # Gate batteries (`cycle-logic.js`, `baseline-gates.js`)

A cycle runs the gates of one profile: the framework's gates up to the profile's tier, and
the baseline gates that the framework does not define itself.
-/

abbrev Name := List Char

inductive Profile where
  | quick | mvp | full
deriving DecidableEq

def Profile.text : Profile → List Char
  | .quick => "quick".toList
  | .mvp => "mvp".toList
  | .full => "full".toList

def GATE_TIERS : List Profile := [.quick, .mvp, .full]

def tierRank : Profile → Nat
  | .quick => 0
  | .mvp => 1
  | .full => 2

/-- `toLowerCase`, as far as a result can be a Latin word: the Kelvin sign becomes a `k`. -/
def toLowerCase (c : Char) : Char := if c.toNat = 0x212a then 'k' else c.toLower

def lowerText (text : List Char) : List Char := (trim text).map toLowerCase

/-- A framework gate, as `parseGateScripts` leaves it. -/
structure Gate where
  name : Name
  script : List Char
  order : Rat
  tier : Option (List Char)

/-- A gate of a battery; a baseline gate has no tier and no profile. -/
structure Selected where
  name : Name
  script : List Char
  order : Rat
  tier : Option (List Char)
  advisory : Bool
  profile : Option Profile

/-- A test at the front of the text or behind a separator. -/
def atSegment (separator : Char) (test : List Char → Bool) : Bool → List Char → Bool
  | front, [] => front && test []
  | front, c :: rest => (front && test (c :: rest)) || atSegment separator test (c == separator) rest

def QUICK_TIER_NAMES : List Name :=
  ["tsc", "typecheck", "type-check", "types", "lint", "compile", "constitution-lint"].map String.toList

def MVP_TIER_WORDS : List Name :=
  ["ui", "ui-check", "ui-checks", "ui-interaction", "smoke", "render", "responsive", "mobile",
    "a11y", "accessibility", "build"].map String.toList

/-- A word of the MVP tier, up to a hyphen or the end. -/
def mvpWord (text : List Char) : Bool :=
  MVP_TIER_WORDS.any fun word => word.isPrefixOf text && ((text.drop word.length).head?.getD '-' == '-')

def gateTier (gate : Gate) : Profile :=
  let declared := lowerText (gate.tier.getD [])
  match GATE_TIERS.find? fun tier => tier.text == declared with
  | some tier => tier
  | none =>
    let name := gate.name.map Char.toLower
    if QUICK_TIER_NAMES.contains name then .quick
    else if atSegment '-' mvpWord true name then .mvp
    else .full

inductive Thrown where
  | notAFunction (name : Name)

def UI_INTERACTION : Name := "ui-interaction".toList

/-- `ADVISORY_GATE_PROFILES[name].includes(profile)`: an inherited member is no list. -/
def gateIsAdvisoryIn (name : Name) (profile : Profile) : Except Thrown Bool :=
  if name = UI_INTERACTION then .ok ([Profile.mvp].contains profile)
  else if objectMembers.contains name then .error (.notAFunction name)
  else .ok false

/-- The gate runs in a subshell, and its failure is only reported. -/
def asAdvisory (script : List Char) (name : Name) : List Char :=
  "# ADVISORY placement of ".toList ++ name ++ ": reported, never blocking.\n(\n".toList ++
    dropEnd (· == '\n') script ++ "\n)\nrc=$?\n".toList ++
    "if [ \"$rc\" -ne 0 ]; then echo \"\"; echo \"(advisory: ".toList ++ name ++
    " is not blocking in this build mode — fix it in the next full build)\"; fi\nexit 0\n".toList

def selectGate (profile : Profile) (g : Gate) : Except Thrown Selected := do
  let advisory ← gateIsAdvisoryIn g.name profile
  return {
    name := g.name
    script := if advisory then asAdvisory g.script g.name else g.script
    order := g.order
    tier := g.tier
    advisory := advisory
    profile := some profile }

def inProfile (gates : List Gate) (profile : Profile) : List Gate :=
  gates.filter fun g => tierRank (gateTier g) ≤ tierRank profile

def gatesForProfile (gates : List Gate) (profile : Profile) : Except Thrown (List Selected) :=
  (inProfile gates profile).mapM (selectGate profile)

structure BaselineGate where
  name : Name
  tier : Profile
  advisoryIn : List Profile

def BASELINE_GATES : List BaselineGate := [
  ⟨"design-adherence".toList, .quick, [.quick]⟩,
  ⟨"platform-intact".toList, .quick, []⟩,
  ⟨"signin-reachable".toList, .quick, []⟩,
  ⟨"mobile-overflow".toList, .mvp, []⟩,
  ⟨"no-native-dialogs".toList, .mvp, []⟩,
  ⟨"no-dead-controls".toList, .mvp, []⟩,
  ⟨"e2e".toList, .mvp, []⟩]

section

-- `scripts`: the scripts of the baseline gates, by name
variable (scripts : Name → List Char)

def baselineGatesForProfile (profile : Profile) : List BaselineGate :=
  BASELINE_GATES.filter fun g => tierRank g.tier ≤ tierRank profile

/-- A baseline gate at its place in the battery. -/
def placed (profile : Profile) (g : BaselineGate) (order : Rat) : Selected where
  name := g.name
  script := if g.advisoryIn.contains profile then asAdvisory (scripts g.name) g.name else scripts g.name
  order := order
  tier := none
  advisory := g.advisoryIn.contains profile
  profile := none

/-- The loop over the baseline gates, behind the largest order so far. -/
def addBaseline (profile : Profile) (names : List Name) : List BaselineGate → Rat → List Selected
  | [], _ => []
  | g :: rest, order =>
    if names.contains g.name then addBaseline profile names rest order
    else placed scripts profile g (order + 1) :: addBaseline profile names rest (order + 1)

def withBaselineGates (list : List Selected) (profile : Profile) : List Selected :=
  let order := list.foldl (fun m g => if m < g.order then g.order else m) 0
  list ++ addBaseline scripts profile (list.map Selected.name) (baselineGatesForProfile profile) order

def gateProfileForMode (mode : List Char) : Profile :=
  if lowerText mode = Profile.mvp.text then .mvp
  else if lowerText mode = Profile.quick.text then .quick
  else .full

def userFacing (f : List Char) : Bool :=
  "public/".toList.isPrefixOf f ||
    [".html", ".css", ".scss", ".jsx", ".tsx"].any (fun extension => extension.toList.isSuffixOf f) ||
    atSegment '/' ("views/".toList.isPrefixOf ·) true f || atSegment '/' ("templates/".toList.isPrefixOf ·) true f

def uiInfraExempt (f : List Char) : Bool :=
  atSegment '/' (fun rest => ["sw.js", "build-id.js", "build-id.txt", "build-id.json", "manifest",
    "manifest.webmanifest",
      "manifest.json"].any fun file => file.toList == rest) true f ||
    ".webmanifest".toList.isSuffixOf f

def touchesUserFacing (changedFiles : List (List Char)) : Bool :=
  changedFiles.any fun f => userFacing (f.map Char.toLower) && !uiInfraExempt (f.map Char.toLower)

structure Battery where
  profile : Profile
  requestedProfile : Profile
  escalated : Bool
  gates : List Selected

def buildGateBattery (frameworkGates : List Gate) (mode : List Char)
    (changedFiles : Option (List (List Char))) : Except Thrown Battery := do
  let requestedProfile := gateProfileForMode mode
  let escalated := requestedProfile == .quick && (changedFiles.map touchesUserFacing).getD false
  let profile := if escalated then .mvp else requestedProfile
  let gates ← gatesForProfile frameworkGates profile
  return {
    profile := profile
    requestedProfile := requestedProfile
    escalated := escalated
    gates := withBaselineGates scripts gates profile }

end

def Battery.names (battery : Battery) : List Name := battery.gates.map Selected.name

/-- A gate of this name stops a build. -/
def Battery.Blocks (battery : Battery) (name : Name) : Prop :=
  ∃ g ∈ battery.gates, g.name = name ∧ g.advisory = false

variable {scripts : Name → List Char} {gates : List Gate} {profile : Profile} {list : List Selected} {name : Name}

variable {g : Gate}

theorem selectGate_ok {selected : Selected} (ok : selectGate profile g = .ok selected) :
    selected.name = g.name ∧ gateIsAdvisoryIn g.name profile = .ok selected.advisory := by
  obtain ⟨advisory, placed, same⟩ := bind_ok.mp ok
  cases same
  exact ⟨rfl, placed⟩

theorem selectGate_total (own : g.name ∉ objectMembers) : ∃ selected, selectGate profile g = .ok selected := by
  by_cases ui : g.name = UI_INTERACTION <;>
    simp [selectGate, gateIsAdvisoryIn, ui, own, bind, Except.bind, pure, Except.pure]

theorem gatesForProfile_names (ok : gatesForProfile gates profile = .ok list) :
    list.map Selected.name = (inProfile gates profile).map Gate.name :=
  mapM_ok_map (fun _ _ selected => (selectGate_ok selected).1) ok

theorem gatesForProfile_total (own : ∀ g ∈ gates, g.name ∉ objectMembers) :
    ∃ list, gatesForProfile gates profile = .ok list :=
  mapM_total fun g member => selectGate_total (own g (List.mem_filter.mp member).1)

theorem mem_inProfile : g ∈ inProfile gates profile ↔ g ∈ gates ∧ tierRank (gateTier g) ≤ tierRank profile := by
  simp [inProfile]

theorem inProfile_full : inProfile gates .full = gates := by
  apply List.filter_eq_self.mpr
  intro g _
  cases gateTier g <;> rfl

/-- The baseline step adds the gates whose names are not there yet. -/
theorem addBaseline_view (names : List Name) (baseline : List BaselineGate) (order : Rat) :
    (addBaseline scripts profile names baseline order).map (fun g => (g.name, g.advisory)) =
      (baseline.filter fun g => !names.contains g.name).map fun g => (g.name, g.advisoryIn.contains profile) := by
  induction baseline generalizing order with
  | nil => rfl
  | cons g rest ih =>
    rw [addBaseline, List.filter_cons]
    cases names.contains g.name with
    | true => exact ih order
    | false => simpa [placed] using ih (order + 1)

theorem addBaseline_names (names : List Name) (baseline : List BaselineGate) (order : Rat) :
    (addBaseline scripts profile names baseline order).map Selected.name =
      (baseline.filter fun g => !names.contains g.name).map BaselineGate.name := by
  have names := congrArg (List.map Prod.fst) (@addBaseline_view scripts profile names baseline order)
  simpa only [List.map_map, Function.comp_def] using names

theorem baseline_nodup : (BASELINE_GATES.map BaselineGate.name).Nodup := by decide

/-- The gates added by the baseline step: none of them has a name that is there before, and no two have one name. -/
theorem withBaselineGates_split (list : List Selected) (profile : Profile) :
    ∃ added, withBaselineGates scripts list profile = list ++ added ∧
    (added.map Selected.name).Nodup ∧ (∀ g ∈ added, g.name ∉ list.map Selected.name) ∧
    added.map (fun g => (g.name, g.advisory)) =
      ((baselineGatesForProfile profile).filter fun g => !(list.map Selected.name).contains g.name).map
        fun g => (g.name, g.advisoryIn.contains profile) := by
  refine ⟨_, rfl, ?_, ?_, addBaseline_view _ _ _⟩
  · rw [addBaseline_names]
    exact baseline_nodup.sublist (List.filter_sublist.trans List.filter_sublist |>.map _)
  · intro g member
    have named := List.mem_map_of_mem (f := Selected.name) member
    rw [addBaseline_names] at named
    obtain ⟨baseline, kept, same⟩ := List.mem_map.mp named
    have absent := (List.mem_filter.mp kept).2
    rw [← same]
    simpa using absent

/-- The battery over a selection. -/
def battery (scripts : Name → List Char) (profile requestedProfile : Profile) (escalated : Bool)
    (list : List Selected) : Battery :=
  ⟨profile, requestedProfile, escalated, withBaselineGates scripts list profile⟩

theorem mem_names {requested : Profile} {escalated : Bool} (ok : gatesForProfile gates profile = .ok list) :
    name ∈ (battery scripts profile requested escalated list).names ↔
      (∃ g ∈ inProfile gates profile, g.name = name) ∨ ∃ g ∈ baselineGatesForProfile profile, g.name = name := by
  obtain ⟨added, split, _, _, view⟩ := @withBaselineGates_split scripts list profile
  have addedNames := congrArg (List.map Prod.fst) view
  simp only [List.map_map, Function.comp_def] at addedNames
  have selectedNames := gatesForProfile_names ok
  rw [Battery.names, battery, split, List.map_append, List.mem_append, addedNames, selectedNames]
  simp only [List.mem_map, List.mem_filter]
  constructor
  · rintro (own | ⟨g, ⟨member, _⟩, same⟩)
    · exact .inl own
    · exact .inr ⟨g, member, same⟩
  · rintro (own | ⟨g, member, same⟩)
    · exact .inl own
    · by_cases there : ∃ own ∈ inProfile gates profile, own.name = name
      · exact .inl there
      · refine .inr ⟨g, ⟨member, ?_⟩, same⟩
        simpa [same] using there

theorem blocks_iff {requested : Profile} {escalated : Bool} (ok : gatesForProfile gates profile = .ok list) :
    (battery scripts profile requested escalated list).Blocks name ↔
      (∃ g ∈ inProfile gates profile, g.name = name ∧ gateIsAdvisoryIn name profile = .ok false) ∨
        (∀ g ∈ inProfile gates profile, g.name ≠ name) ∧
          ∃ g ∈ baselineGatesForProfile profile, g.name = name ∧ g.advisoryIn.contains profile = false := by
  obtain ⟨added, split, _, _, view⟩ := @withBaselineGates_split scripts list profile
  have selectedNames := gatesForProfile_names ok
  have blocksAdded : (∃ g ∈ added, g.name = name ∧ g.advisory = false) ↔
      (name, false) ∈ added.map fun g => (g.name, g.advisory) := by
    simp
  have blocksOwn : (∃ g ∈ list, g.name = name ∧ g.advisory = false) ↔
      ∃ g ∈ inProfile gates profile, g.name = name ∧ gateIsAdvisoryIn name profile = .ok false := by
    constructor
    · rintro ⟨selected, member, rfl, blocking⟩
      obtain ⟨g, inside, chosen⟩ := (mem_mapM_ok ok).mp member
      obtain ⟨same, advisory⟩ := selectGate_ok chosen
      rw [blocking, ← same] at advisory
      exact ⟨g, inside, same.symm, advisory⟩
    · rintro ⟨g, inside, rfl, advisory⟩
      obtain ⟨selected, chosen⟩ := mapM_ok_each ok inside
      obtain ⟨same, placed⟩ := selectGate_ok chosen
      rw [advisory] at placed
      exact ⟨selected, (mem_mapM_ok ok).mpr ⟨g, inside, chosen⟩, same, (Except.ok.inj placed).symm⟩
  simp only [Battery.Blocks, battery, split, List.mem_append, or_and_right, exists_or, blocksOwn,
    blocksAdded, view, selectedNames]
  refine or_congr Iff.rfl ?_
  simp only [List.mem_map, List.mem_filter, Prod.mk.injEq]
  constructor
  · rintro ⟨g, ⟨member, absent⟩, rfl, blocking⟩
    exact ⟨by simpa using absent, g, member, rfl, blocking⟩
  · rintro ⟨absent, g, member, rfl, blocking⟩
    exact ⟨g, ⟨member, by simpa using absent⟩, rfl, blocking⟩

variable {low high requested other : Profile} {escalated again : Bool} {lower higher : List Selected}

theorem inProfile_mono (le : tierRank low ≤ tierRank high) (member : g ∈ inProfile gates low) :
    g ∈ inProfile gates high := by
  obtain ⟨inside, rank⟩ := mem_inProfile.mp member
  exact mem_inProfile.mpr ⟨inside, Nat.le_trans rank le⟩

theorem baseline_mono (le : tierRank low ≤ tierRank high) {g : BaselineGate}
    (member : g ∈ baselineGatesForProfile low) :
    g ∈ baselineGatesForProfile high := by
  simp only [baselineGatesForProfile, List.mem_filter, decide_eq_true_eq] at member ⊢
  exact ⟨member.1, Nat.le_trans member.2 le⟩

/-- A baseline gate that blocks goes on blocking, and its name is its own. -/
theorem baseline_blocking : ∀ g ∈ BASELINE_GATES, g.name ≠ UI_INTERACTION ∧ g.name ∉ objectMembers ∧
    ∀ low ∈ GATE_TIERS, ∀ high ∈ GATE_TIERS, tierRank low ≤ tierRank high →
      g.advisoryIn.contains low = false → g.advisoryIn.contains high = false := by decide

theorem mem_GATE_TIERS (profile : Profile) : profile ∈ GATE_TIERS := by cases profile <;> decide

theorem names_mono (le : tierRank low ≤ tierRank high) (first : gatesForProfile gates low = .ok lower)
    (second : gatesForProfile gates high = .ok higher) :
    (battery scripts low requested escalated lower).names ⊆ (battery scripts high other again higher).names := by
  intro name member
  rw [mem_names first] at member
  rw [mem_names second]
  rcases member with ⟨g, inside, same⟩ | ⟨g, inside, same⟩
  · exact .inl ⟨g, inProfile_mono le inside, same⟩
  · exact .inr ⟨g, baseline_mono le inside, same⟩

/-- The only gates that stop blocking in a higher profile are the ones named `ui-interaction` of the quick tier. -/
theorem blocks_mono (quiet : ∀ g ∈ gates, g.name = UI_INTERACTION → gateTier g ≠ .quick)
    (le : tierRank low ≤ tierRank high)
    (first : gatesForProfile gates low = .ok lower) (second : gatesForProfile gates high = .ok higher)
    (blocks : (battery scripts low requested escalated lower).Blocks name) :
    (battery scripts high other again higher).Blocks name := by
  rw [blocks_iff first] at blocks
  rw [blocks_iff second]
  rcases blocks with ⟨g, inside, rfl, advisory⟩ | ⟨_, b, inside, rfl, advisory⟩
  · left
    refine ⟨g, inProfile_mono le inside, rfl, ?_⟩
    obtain ⟨member, rank⟩ := mem_inProfile.mp inside
    unfold gateIsAdvisoryIn at advisory ⊢
    by_cases ui : g.name = UI_INTERACTION
    · -- It blocks in the full profile only, for it is not in the quick one.
      have notQuick := quiet g member ui
      rw [if_pos ui] at advisory ⊢
      cases low with
      | quick => cases tier : gateTier g <;> simp_all [tierRank]
      | mvp => cases advisory
      | full =>
        cases high with
        | quick | mvp => simp [tierRank] at le
        | full => exact advisory
    · rw [if_neg ui] at advisory ⊢
      exact advisory
  · obtain ⟨notUi, own, stays⟩ := baseline_blocking b (List.mem_filter.mp inside).1
    by_cases there : ∃ g ∈ inProfile gates high, g.name = b.name
    · obtain ⟨g, member, same⟩ := there
      left
      refine ⟨g, member, same, ?_⟩
      have own : objectMembers.contains b.name = false := by simpa using own
      rw [gateIsAdvisoryIn, if_neg notUi, own]
      rfl
    · right
      refine ⟨fun g member same => there ⟨g, member, same⟩, b, baseline_mono le inside, rfl, ?_⟩
      exact stays low (mem_GATE_TIERS low) high (mem_GATE_TIERS high) le advisory

theorem buildGateBattery_ok {mode : List Char} {files : Option (List (List Char))} {built : Battery} :
    buildGateBattery scripts gates mode files = .ok built ↔
      ∃ list, gatesForProfile gates built.profile = .ok list ∧
        built = battery scripts built.profile (gateProfileForMode mode) built.escalated list ∧
        built.escalated = (gateProfileForMode mode == .quick && (files.map touchesUserFacing).getD false) ∧
        built.profile = if built.escalated then .mvp else gateProfileForMode mode := by
  unfold buildGateBattery
  rw [bind_ok]
  constructor
  · rintro ⟨list, ok, same⟩
    cases same
    exact ⟨list, ok, rfl, rfl, rfl⟩
  · rintro ⟨list, ok, same, isEscalated, isProfile⟩
    rw [← isEscalated, ← isProfile]
    refine ⟨list, ok, ?_⟩
    rw [same]
    rfl

/-- The batteries of the three modes: each adds to the one before. -/
def Cumulative (scripts : Name → List Char) (gates : List Gate) : Prop :=
  ∃ quick mvp full, buildGateBattery scripts gates Profile.quick.text none = .ok quick ∧
    buildGateBattery scripts gates Profile.mvp.text none = .ok mvp ∧
      buildGateBattery scripts gates Profile.full.text none = .ok full ∧
    quick.names ⊆ mvp.names ∧ mvp.names ⊆ full.names ∧
    (∀ files, touchesUserFacing files = true →
      ∃ escalated, buildGateBattery scripts gates Profile.quick.text (some files) = .ok escalated ∧
      escalated.escalated = true ∧ escalated.profile = mvp.profile ∧ escalated.gates = mvp.gates) ∧
    (∀ built ∈ [quick, mvp, full], ∃ selected added, gatesForProfile gates built.profile =
      .ok selected ∧ built.gates = selected ++ added ∧
      (added.map Selected.name).Nodup ∧ ∀ g ∈ added, g.name ∉ selected.map Selected.name) ∧
    ∀ name, (quick.Blocks name → mvp.Blocks name) ∧ (mvp.Blocks name → full.Blocks name)

/-- No framework gate has the name of a member every object inherits, and none named
`ui-interaction` is of the quick tier. -/
def Placed (gates : List Gate) : Prop :=
  ∀ g ∈ gates, g.name ∉ objectMembers ∧ (g.name = UI_INTERACTION → gateTier g ≠ .quick)

theorem cumulative_of_placed (scripts : Name → List Char) (placed : Placed gates) : Cumulative scripts gates := by
  have total (profile : Profile) := @gatesForProfile_total gates profile fun g member => (placed g member).1
  have quiet : ∀ g ∈ gates, g.name = UI_INTERACTION → gateTier g ≠ .quick := fun g member => (placed g member).2
  obtain ⟨quick, quickOk⟩ := total .quick
  obtain ⟨mvp, mvpOk⟩ := total .mvp
  obtain ⟨full, fullOk⟩ := total .full
  refine ⟨battery scripts .quick .quick false quick, battery scripts .mvp .mvp false mvp,
    battery scripts .full .full false full,
    buildGateBattery_ok.mpr ⟨quick, quickOk, rfl, rfl, rfl⟩, buildGateBattery_ok.mpr ⟨mvp, mvpOk, rfl, rfl, rfl⟩,
    buildGateBattery_ok.mpr ⟨full, fullOk, rfl, rfl, rfl⟩, names_mono (by decide) quickOk mvpOk,
      names_mono (by decide) mvpOk fullOk,
    ?_, ?_, fun name => ⟨blocks_mono quiet (by decide) quickOk mvpOk, blocks_mono quiet (by decide) mvpOk fullOk⟩⟩
  · intro files touches
    refine ⟨battery scripts .mvp .quick true mvp, buildGateBattery_ok.mpr ⟨mvp, mvpOk, rfl, ?_, rfl⟩, rfl, rfl, rfl⟩
    simp [battery, touches]
    rfl
  · intro built member
    simp only [List.mem_cons, List.not_mem_nil, or_false] at member
    rcases member with rfl | rfl | rfl
    · obtain ⟨added, split, distinct, apart, _⟩ := @withBaselineGates_split scripts quick .quick
      exact ⟨quick, added, quickOk, split, distinct, apart⟩
    · obtain ⟨added, split, distinct, apart, _⟩ := @withBaselineGates_split scripts mvp .mvp
      exact ⟨mvp, added, mvpOk, split, distinct, apart⟩
    · obtain ⟨added, split, distinct, apart, _⟩ := @withBaselineGates_split scripts full .full
      exact ⟨full, added, fullOk, split, distinct, apart⟩

theorem placed_of_cumulative (cumulative : Cumulative scripts gates) : Placed gates := by
  obtain ⟨quick, mvp, full, quickBuilt, mvpBuilt, fullBuilt, _, _, _, _, blocks⟩ := cumulative
  obtain ⟨quickList, quickOk, quickSame, quickEscalated, quickProfile⟩ := buildGateBattery_ok.mp quickBuilt
  obtain ⟨mvpList, mvpOk, mvpSame, mvpEscalated, mvpProfile⟩ := buildGateBattery_ok.mp mvpBuilt
  obtain ⟨fullList, fullOk, _, fullEscalated, fullProfile⟩ := buildGateBattery_ok.mp fullBuilt
  have quickIs : quick.profile = .quick := by rw [quickProfile, quickEscalated]; rfl
  have mvpIs : mvp.profile = .mvp := by rw [mvpProfile, mvpEscalated]; rfl
  have fullIs : full.profile = .full := by rw [fullProfile, fullEscalated]; rfl
  rw [quickIs] at quickOk quickSame
  rw [mvpIs] at mvpOk mvpSame
  rw [fullIs] at fullOk
  intro g member
  constructor
  · obtain ⟨selected, chosen⟩ := mapM_ok_each fullOk (by rwa [inProfile_full])
    have placed := (selectGate_ok chosen).2
    unfold gateIsAdvisoryIn at placed
    intro inherited
    have notUi : g.name ≠ UI_INTERACTION := fun ui => by
      rw [ui] at inherited
      revert inherited
      decide
    have inherits : objectMembers.contains g.name = true := by simpa using inherited
    rw [if_neg notUi, if_pos inherits] at placed
    cases placed
  · intro ui isQuick
    have inside : g ∈ inProfile gates .quick := mem_inProfile.mpr ⟨member, by simp [isQuick]⟩
    have blocksQuick : quick.Blocks UI_INTERACTION := by
      rw [quickSame, blocks_iff quickOk]
      exact .inl ⟨g, inside, ui, by simp [gateIsAdvisoryIn]⟩
    have blocksMvp := (blocks UI_INTERACTION).1 blocksQuick
    rw [mvpSame, blocks_iff mvpOk] at blocksMvp
    rcases blocksMvp with ⟨_, _, _, advisory⟩ | ⟨_, b, baseline, named, _⟩
    · simp [gateIsAdvisoryIn] at advisory
    · exact (baseline_blocking b (List.mem_filter.mp baseline).1).1 named

/-- The batteries add up exactly when no framework gate named `ui-interaction` is of the quick tier
and none is named like a
member every object inherits. -/
theorem batteries_add_up (scripts : Name → List Char) (gates : List Gate) :
    Cumulative scripts gates ↔ Placed gates :=
  ⟨placed_of_cumulative, cumulative_of_placed scripts⟩

/-- A `ui-interaction` gate declared for the quick tier blocks there, and is only reported in the mvp battery. -/
theorem quick_ui_interaction_loosens :
    ¬ Cumulative (fun _ => "true".toList) [⟨UI_INTERACTION, "exit 1".toList, 0, some "quick".toList⟩] := by
  intro cumulative
  have placed := placed_of_cumulative cumulative
  exact (placed _ List.mem_cons_self).2 rfl (by decide)

end ProxyPilot.Mock2.GateBattery
