import ProxyPilot.Zpool.Plans

namespace ProxyPilot.Zpool

open Data

def isLink (argument : Text) : Bool := byIdPrefix.isPrefixOf argument

inductive Command where
  | wipefs
  | labelclear
  | create
  | replace
  | other
deriving DecidableEq

def commandNamed (front : List Text) : Command :=
  if front.take 1 = words ["wipefs"] then .wipefs
  else if front = words ["zpool", "labelclear"] then .labelclear
  else if front = words ["zpool", "create"] then .create
  else if front = words ["zpool", "replace"] then .replace
  else .other

def commandOf (argv : List Text) : Command := commandNamed (argv.take 2)

/-- The device arguments of `zpool create`. -/
def createdFrom (step : Step) : List Text :=
  match commandOf step.argv with
  | .create => step.argv.filter isLink
  | _ => []

/-- The devices that a command wipes or gives to a pool. -/
def taken (step : Step) : List Text :=
  match commandOf step.argv with
  | .wipefs => step.argv.drop 2
  | .labelclear => step.argv.drop 3
  | .create => step.argv.filter isLink
  | .replace => step.argv.drop 4
  | .other => []

def Plan.createdFrom (plan : Plan) : List Text := plan.steps.flatMap Zpool.createdFrom

def Plan.taken (plan : Plan) : List Text := plan.steps.flatMap Zpool.taken

theorem head_append {front rest : Text} (present : front ≠ []) : (front ++ rest).head? = front.head? := by
  cases front with
  | nil => exact absurd rfl present
  | cons c more => rfl

variable {argument : Text} {props : List (Text × Text)} {params : CreateParams} {prop : Text × Text}
  {groups : List (List Text)} {wipe : Bool} {devices : List Device}

theorem not_link (elsewhere : argument.head? ≠ some '/') : isLink argument = false := by
  cases link : isLink argument with
  | false => rfl
  | true =>
    obtain ⟨rest, rfl⟩ := List.isPrefixOf_iff_prefix.mp link
    rw [head_append (by decide)] at elsewhere
    exact absurd (by decide) elsewhere

variable {name : Text} {ashift : Nat} {m : Member} {lay : Layout}

theorem poolName_not_link {param : Option Text} (valid : validPoolName param = some name) :
    isLink name = false := by
  apply not_link
  unfold validPoolName at valid
  split at valid
  · next c rest =>
      split at valid
      · next accepted =>
          cases valid
          simp only [Bool.and_eq_true] at accepted
          intro same
          cases same
          exact absurd accepted.1.1.1 (by decide)
      · cases valid
  · cases valid

theorem layout_not_link {l : Text} {spec : Option Nat} (known : layoutSpec l = some spec) : isLink l = false := by
  have layoutNames : ∀ entry ∈ layouts, isLink entry.1 = false := by decide
  have inherited : ∀ key ∈ objectMembers, isLink key = false := by decide
  unfold layoutSpec at known
  split at known
  · next least found =>
      obtain ⟨before, after, same, _⟩ := List.lookup_eq_some_iff.mp found
      exact layoutNames (l, least) (by simp [same])
  · split at known
    · next member => exact inherited l (by simpa using member)
    · cases known

theorem propKey_head (prop : CreateProp) : prop.key ≠ [] ∧ prop.key.head? ≠ some '/' := by
  cases prop <;> exact ⟨by decide, by decide⟩

def plainKey (prop : Text × Text) : Prop := prop.1 ≠ [] ∧ prop.1.head? ≠ some '/'

theorem plain_props (valid : (propsIn params).mapM validProp = .ok props)
    (member : prop ∈ props) : plainKey prop := by
  obtain ⟨entry, _, gives⟩ := (mem_mapM_ok valid).mp member
  obtain ⟨_, gives⟩ := require_bind_ok.mp gives
  cases gives
  exact propKey_head entry.1

theorem plain_encryption {param : EncryptionParam} {props : List (Text × Text) × Option Text}
    (valid : encryptionProps param = .ok props)
    (member : prop ∈ props.1) : plainKey prop := by
  have keys : ∀ key ∈ ["encryption", "keyformat", "keylocation"].map String.toList, key ≠ [] ∧
      key.head? ≠ some '/' := by decide
  suffices named : prop.1 ∈ ["encryption", "keyformat", "keylocation"].map String.toList from keys prop.1 named
  cases param with
  | omitted =>
    cases valid
    cases member
  | other => cases valid
  | object keyformat keylocation =>
    obtain ⟨_, valid⟩ := require_bind_ok.mp valid
    split at valid
    · obtain ⟨_, valid⟩ := require_bind_ok.mp valid
      cases valid
      simp only [List.mem_append, List.mem_cons, List.not_mem_nil, or_false] at member
      rcases member with (rfl | rfl) | rfl <;> simp
    · obtain ⟨_, valid⟩ := require_bind_ok.mp valid
      cases valid
      simp only [List.mem_append, List.mem_cons, List.not_mem_nil, or_false] at member
      rcases member with (rfl | rfl) | rfl <;> simp

theorem prop_not_link (plain : plainKey prop) : isLink (prop.1 ++ "=".toList ++ prop.2) = false := by
  apply not_link
  rw [List.append_assoc, head_append plain.1]
  exact plain.2

theorem filter_createArgv {name layout : Text}
    (plain : ∀ prop ∈ props, plainKey prop) (nameOther : isLink name = false) (layoutOther : isLink layout = false)
    (links : ∀ g ∈ groups, ∀ id ∈ g, isLink id = true) :
    (createArgv ashift props name layout groups).filter isLink = groups.flatten := by
  have options : (props.flatMap fun prop => ["-O".toList, prop.1 ++ "=".toList ++ prop.2]).filter isLink = [] := by
    rw [List.filter_eq_nil_iff]
    intro argument member
    obtain ⟨prop, propMember, member⟩ := List.mem_flatMap.mp member
    rcases List.mem_cons.mp member with rfl | value
    · decide
    · rw [List.mem_singleton.mp value, prop_not_link (plain prop propMember)]
      decide
  have fixed : (words ["zpool", "create", "-o"] ++ ["ashift=".toList ++ number ashift]).filter isLink = [] := by
    have others : (words ["zpool", "create", "-o"]).filter isLink = [] := by decide
    have first : isLink ("ashift=".toList ++ number ashift) = false := by
      apply not_link
      rw [head_append (by decide)]
      decide
    rw [List.filter_append, others, List.filter_cons_of_neg (by rw [first]; decide)]
    rfl
  have vdevs :
      (groups.flatMap fun g => (if layout = single then [] else [layout]) ++ g).filter isLink = groups.flatten := by
    induction groups with
    | nil => rfl
    | cons g rest ih =>
      have kept : g.filter isLink = g := List.filter_eq_self.mpr (links g List.mem_cons_self)
      have word : (if layout = single then [] else [layout]).filter isLink = [] := by
        split
        · rfl
        · rw [List.filter_cons_of_neg (by rw [layoutOther]; decide)]
          rfl
      rw [List.flatMap_cons, List.filter_append, List.filter_append, word, kept,
        ih fun other member => links other (List.mem_cons_of_mem _ member)]
      rfl
  unfold createArgv
  rw [List.filter_append, List.filter_append, List.filter_append, fixed, options, vdevs]
  simp [nameOther]

section Commands

variable (rest : List Text)

theorem commandOf_wipefs : commandOf (words ["wipefs", "-a"] ++ rest) = .wipefs :=
  show commandNamed (words ["wipefs", "-a"]) = .wipefs by decide

theorem commandOf_labelclear : commandOf (words ["zpool", "labelclear", "-f"] ++ rest) = .labelclear :=
  show commandNamed (words ["zpool", "labelclear"]) = .labelclear by decide

theorem commandOf_create : commandOf (words ["zpool", "create", "-o"] ++ rest) = .create :=
  show commandNamed (words ["zpool", "create"]) = .create by decide

theorem commandOf_replace : commandOf (words ["zpool", "replace"] ++ rest) = .replace :=
  show commandNamed (words ["zpool", "replace"]) = .replace by decide

theorem commandOf_status : commandOf (words ["zpool", "status", "-P"] ++ rest) = .other :=
  show commandNamed (words ["zpool", "status"]) = .other by decide

theorem commandOf_dataset : commandOf (words ["zfs", "create"] ++ rest) = .other :=
  show commandNamed (words ["zfs", "create"]) = .other by decide

end Commands

theorem commandOf_createArgv (ashift : Nat) (props : List (Text × Text)) (name layout : Text)
    (groups : List (List Text)) :
    commandOf (createArgv ashift props name layout groups) = .create := by
  unfold createArgv
  simp only [List.append_assoc]
  exact commandOf_create _

theorem createdFrom_wipe (m : Member) : (wipeSteps m).flatMap createdFrom = [] := by
  have cleared :
      createdFrom { argv := words ["zpool", "labelclear", "-f"] ++ [m.id], ignore_failure := true } = [] := by
    simp only [createdFrom, commandOf_labelclear]
  have wiped : createdFrom { argv := words ["wipefs", "-a"] ++ [m.id] } = [] := by
    simp only [createdFrom, commandOf_wipefs]
  unfold wipeSteps
  split
  · rw [List.flatMap_append, List.flatMap_singleton, wiped]
    split
    · rw [List.flatMap_singleton, cleared]
      rfl
    · rfl
  · rfl

theorem taken_wipe (member : argument ∈ (wipeSteps m).flatMap taken) : argument = m.id := by
  have cleared :
      taken { argv := words ["zpool", "labelclear", "-f"] ++ [m.id], ignore_failure := true } = [m.id] := by
    simp only [taken, commandOf_labelclear]
    rfl
  have wiped : taken { argv := words ["wipefs", "-a"] ++ [m.id] } = [m.id] := by
    simp only [taken, commandOf_wipefs]
    rfl
  unfold wipeSteps at member
  split at member
  · rw [List.flatMap_append, List.flatMap_singleton, wiped] at member
    rcases List.mem_append.mp member with clears | wipes
    · split at clears
      · rw [List.flatMap_singleton, cleared] at clears
        exact List.mem_singleton.mp clears
      · cases clears
    · exact List.mem_singleton.mp wipes
  · cases member

section CreatePlan

variable {name layout : Text} {ashift : Nat} {props : List (Text × Text)} {stdin : Option Text}
  {managed : Bool} {resolved : List (List Member)}

theorem createdFrom_createPlan :
    (createPlan name layout ashift props stdin managed resolved).createdFrom =
      (createArgv ashift props name layout (resolved.map fun g => g.map Member.id)).filter isLink := by
  have wipes : (resolved.flatten.flatMap wipeSteps).flatMap createdFrom = [] := by
    rw [List.flatMap_assoc]
    exact List.flatMap_eq_nil_iff.mpr fun m _ => createdFrom_wipe m
  have datasets :
      (if managed then managedDatasets.map fun ds =>
      { argv := words ["zfs", "create"] ++ [name ++ "/".toList ++ ds.2] } else [] :
      List Step).flatMap createdFrom = [] := by
    split
    · rw [List.flatMap_map]
      exact List.flatMap_eq_nil_iff.mpr fun ds _ => by simp only [createdFrom, commandOf_dataset]
    · rfl
  unfold Plan.createdFrom createPlan
  rw [List.flatMap_append, List.flatMap_append, List.flatMap_append, wipes, datasets,
    List.flatMap_singleton, List.flatMap_singleton]
  simp only [createdFrom, commandOf_createArgv, commandOf_status, List.nil_append, List.append_nil]

theorem taken_createPlan {argument : Text}
    (member : argument ∈ (createPlan name layout ashift props stdin managed resolved).taken) :
    (∃ m ∈ resolved.flatten, argument = m.id) ∨
      argument ∈ (createArgv ashift props name layout (resolved.map fun g => g.map Member.id)).filter isLink := by
  unfold Plan.taken createPlan at member
  rw [List.flatMap_append, List.flatMap_append, List.flatMap_append, List.mem_append,
    List.mem_append, List.mem_append,
    List.flatMap_singleton, List.flatMap_singleton] at member
  rcases member with ((wipes | given) | dataset) | status
  · rw [List.flatMap_assoc] at wipes
    obtain ⟨m, listed, wipes⟩ := List.mem_flatMap.mp wipes
    exact Or.inl ⟨m, listed, taken_wipe wipes⟩
  · simp only [taken, commandOf_createArgv] at given
    exact Or.inr given
  · split at dataset
    · obtain ⟨step, stepMember, dataset⟩ := List.mem_flatMap.mp dataset
      obtain ⟨ds, _, rfl⟩ := List.mem_map.mp stepMember
      simp only [taken, commandOf_dataset] at dataset
      cases dataset
    · cases dataset
  · simp only [taken, commandOf_status] at status
    cases status

end CreatePlan

theorem taken_replacePlan {pool old new_device : Text} {device : Device}
    (member : argument ∈ (replacePlan pool old new_device device wipe).taken) : argument = new_device := by
  unfold Plan.taken replacePlan at member
  rw [List.flatMap_append, List.mem_append, List.flatMap_cons, List.mem_append, List.flatMap_singleton] at member
  rcases member with wipes | replaced | status
  · exact taken_wipe wipes
  · simp only [taken, commandOf_replace] at replaced
    exact List.mem_singleton.mp replaced
  · simp only [taken, commandOf_status] at status
    cases status

theorem filterMap_lookAt_ids {ids : List Text} (clear : ∀ id ∈ ids, (lookAt devices wipe id).1 = []) :
    (ids.filterMap fun id => (lookAt devices wipe id).2).map Member.id = ids := by
  induction ids with
  | nil => rfl
  | cons id rest ih =>
    obtain ⟨device, _, _, found⟩ := lookAt_free (clear id List.mem_cons_self)
    simp only [List.filterMap_cons, found, List.map_cons]
    rw [ih fun other member => clear other (List.mem_cons_of_mem _ member)]

theorem lookAt_clear (clear : problemsIn devices wipe groups = [])
    {g : List Text} (groupMember : g ∈ groups) {id : Text} (member : id ∈ g) : (lookAt devices wipe id).1 = [] :=
  List.flatMap_eq_nil_iff.mp clear id (List.mem_flatten.mpr ⟨g, groupMember, member⟩)

theorem resolvedGroups_ids (clear : problemsIn devices wipe groups = []) :
    ((resolvedGroups devices wipe groups).map fun g => g.map Member.id) = groups := by
  unfold resolvedGroups
  rw [List.map_map]
  refine (List.map_congr_left fun g groupMember => ?_).trans (List.map_id groups)
  exact filterMap_lookAt_ids fun id member => lookAt_clear clear groupMember member

/-- Each member of the new pool is the disk that its link resolves to. -/
theorem mem_resolvedGroups (clear : problemsIn devices wipe groups = [])
    (member : m ∈ (resolvedGroups devices wipe groups).flatten) :
    resolveByIdDevice devices m.id = .ok m.device ∧ hardReasons m.device = [] := by
  obtain ⟨g, groupMember, member⟩ := List.mem_flatten.mp member
  obtain ⟨listed, listedMember, rfl⟩ := List.mem_map.mp groupMember
  obtain ⟨id, idMember, found⟩ := List.mem_filterMap.mp member
  obtain ⟨device, resolved, eligible, same⟩ := lookAt_free (lookAt_clear clear listedMember idMember)
  rw [same] at found
  cases found
  exact ⟨resolved, hard_of_eligible eligible⟩

theorem links_of_clear (clear : problemsIn devices wipe groups = []) :
    ∀ g ∈ groups, ∀ id ∈ g, isLink id = true := by
  intro g groupMember id member
  obtain ⟨device, resolved, _⟩ := lookAt_free (lookAt_clear clear groupMember member)
  exact (resolveByIdDevice_ok resolved).1

theorem layoutSpec_of_valid (laid : validateLayout params = .ok lay) :
    (∃ spec, layoutSpec lay.layout = some spec) ∧ listedGroups params = .ok lay.groups ∧
      lay.groups.flatten.Nodup := by
  unfold validateLayout at laid
  obtain ⟨spec, known, laid⟩ := bind_ok.mp laid
  obtain ⟨groups, listed, laid⟩ := bind_ok.mp laid
  obtain ⟨distinct, laid⟩ := require_bind_ok.mp laid
  split at laid
  · cases laid
  · cases laid
    exact ⟨⟨spec, demand_ok.mp known⟩, listed, of_decide_eq_true distinct⟩

/-- An accepted plan creates the pool from the listed links. -/
theorem create_arguments
    {encryption : List (Text × Text) × Option Text} (named : validPoolName params.name = some name)
    (laid : validateLayout params = .ok lay) (clear : problemsIn devices params.wipe lay.groups = [])
    (valid : (propsIn params).mapM validProp = .ok props)
    (encrypted : encryptionProps params.encryption = .ok encryption) :
    (createArgv ashift (props ++ encryption.1) name lay.layout
      ((resolvedGroups devices params.wipe lay.groups).map fun g => g.map Member.id)).filter
        isLink = lay.groups.flatten := by
  obtain ⟨⟨spec, known⟩, _, _⟩ := layoutSpec_of_valid laid
  rw [resolvedGroups_ids clear]
  apply filter_createArgv _ (poolName_not_link named) (layout_not_link known) (links_of_clear clear)
  intro prop member
  rcases List.mem_append.mp member with fromParams | fromEncryption
  · exact plain_props valid fromParams
  · exact plain_encryption encrypted fromEncryption

end ProxyPilot.Zpool
