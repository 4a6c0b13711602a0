import Mathlib.Data.List.Dedup
import ProxyPilot.Zpool.Commands

namespace ProxyPilot.Zpool

open Data

/-! # Which disks a new pool is made of

The parameters list links, and a link listed twice is refused.  A disk has several links,
and two of them are not recognised as one disk.
-/

/-- The links that the parameters list. -/
def listedLinks (params : CreateParams) : List Text :=
  match listedGroups params with
  | .ok groups => groups.flatten
  | .error _ => []

/-- Two links of one disk: where the inventory gives a link to several disks, the first one has it. -/
def SameDisk (devices : List Device) (a b : Text) : Prop :=
  ∃ d e, devices.find? (carries a) = some d ∧ devices.find? (carries b) = some e ∧ d.path = e.path

def resolvedPath (devices : List Device) (link : Text) : Option Text :=
  match resolveByIdDevice devices link with
  | .ok device => some device.path
  | .error _ => none

/-- The vdevs of the plan are made of different disks. -/
structure DistinctDisks (inv : Inventory) (plan : Plan) : Prop where
  resolve : ∀ link ∈ plan.createdFrom, (resolvedPath inv.devices link).isSome
  distinct : (plan.createdFrom.map (resolvedPath inv.devices)).Nodup
  wide : ∀ lay, plan.layout = some lay → ∀ least, layoutSpec lay.layout = some (some least) → ∀ vdev ∈ lay.vdevs,
    least ≤ (vdev.map fun m => resolvedPath inv.devices m.id).dedup.length
  touches : plan.touches.Nodup

theorem resolvedPath_ok {devices : List Device} {link : Text} {device : Device}
    (resolved : resolveByIdDevice devices link = .ok device) :
    resolvedPath devices link = some device.path := by
  simp [resolvedPath, resolved]

theorem wide_of_valid {params : CreateParams} {lay : Layout} (laid : validateLayout params = .ok lay) {least : Nat}
    (known : layoutSpec lay.layout = some (some least)) {g : List Text} (member : g ∈ lay.groups) :
    least ≤ g.length := by
  unfold validateLayout at laid
  obtain ⟨spec, found, laid⟩ := bind_ok.mp laid
  obtain ⟨groups, _, laid⟩ := bind_ok.mp laid
  obtain ⟨_, laid⟩ := require_bind_ok.mp laid
  split at laid
  · cases laid
  · next fits =>
      cases laid
      cases (demand_ok.mp found).symm.trans known
      obtain ⟨entry, entryMember, same⟩ :=
        List.mem_map.mp (show g ∈ groups.zipIdx.map Prod.fst by simpa using member)
      have checked := List.findSome?_eq_none_iff.mp fits entry entryMember
      rw [same] at checked
      unfold widthError at checked
      split at checked
      · cases checked
      · by_contra narrow
        simp [Nat.lt_of_not_le narrow] at checked

section Planned

variable {inv : Inventory} {params : CreateParams} {plan : Plan}

/-- What an accepted plan is made of. -/
structure Made (inv : Inventory) (params : CreateParams) (plan : Plan) (lay : Layout)
    (resolved : List (List Member)) : Prop where
  laid : validateLayout params = .ok lay
  ids : (resolved.map fun g => g.map Member.id) = lay.groups
  members : ∀ m ∈ resolved.flatten, resolveByIdDevice inv.devices m.id = .ok m.device
  arguments : plan.createdFrom = lay.groups.flatten
  layout : plan.layout = some ⟨lay.layout, resolved.map fun g => g.map fun m => ⟨m.id, m.device.path, m.wipe⟩⟩
  touched : plan.touches = resolved.flatten.map fun m => m.device.path

theorem made (planned : planCreateZpool inv params = .ok plan) :
    ∃ lay resolved, Made inv params plan lay resolved := by
  obtain ⟨name, lay, ashift, props, encryption, named, laid, clear, valid, encrypted, rfl⟩ :=
    planCreateZpool_ok planned
  refine ⟨lay, resolvedGroups inv.devices params.wipe lay.groups, laid, resolvedGroups_ids clear,
    fun m member => (mem_resolvedGroups clear member).1, ?_, rfl, rfl⟩
  rw [createdFrom_createPlan]
  exact create_arguments named laid clear valid encrypted

variable {resolved : List (List Member)} {lay : Layout}

theorem listed_of_made (made : Made inv params plan lay resolved) :
    listedLinks params = lay.groups.flatten := by
  obtain ⟨_, listed, _⟩ := layoutSpec_of_valid made.laid
  simp [listedLinks, listed]

theorem resolved_of_made (made : Made inv params plan lay resolved) {link : Text}
    (member : link ∈ lay.groups.flatten) : ∃ m ∈ resolved.flatten, m.id = link := by
  rw [← made.ids, ← List.map_flatten] at member
  exact List.mem_map.mp member

/-- A plan takes different disks exactly when no two of the listed links are links of one disk. -/
theorem create_distinct (planned : planCreateZpool inv params = .ok plan) :
    DistinctDisks inv plan ↔
      ∀ a ∈ listedLinks params, ∀ b ∈ listedLinks params, a ≠ b → ¬ SameDisk inv.devices a b := by
  obtain ⟨lay, resolved, made⟩ := made planned
  obtain ⟨_, _, nodup⟩ := layoutSpec_of_valid made.laid
  rw [listed_of_made made]
  have resolves : ∀ link ∈ lay.groups.flatten, ∃ device, resolveByIdDevice inv.devices link = .ok device := by
    intro link member
    obtain ⟨m, listed, rfl⟩ := resolved_of_made made member
    exact ⟨m.device, made.members m listed⟩
  constructor
  · intro distinct a aMember b bMember different ⟨d, e, first, second, same⟩
    obtain ⟨d', dResolved⟩ := resolves a aMember
    obtain ⟨e', eResolved⟩ := resolves b bMember
    cases first.symm.trans (resolveByIdDevice_ok dResolved).2
    cases second.symm.trans (resolveByIdDevice_ok eResolved).2
    have nodupPaths := distinct.distinct
    rw [made.arguments] at nodupPaths
    refine different (List.inj_on_of_nodup_map nodupPaths aMember bMember ?_)
    rw [resolvedPath_ok dResolved, resolvedPath_ok eResolved, same]
  · intro apart
    have injective : ∀ a ∈ lay.groups.flatten, ∀ b ∈ lay.groups.flatten,
        resolvedPath inv.devices a = resolvedPath inv.devices b → a = b := by
      intro a aMember b bMember same
      obtain ⟨d, dResolved⟩ := resolves a aMember
      obtain ⟨e, eResolved⟩ := resolves b bMember
      rw [resolvedPath_ok dResolved, resolvedPath_ok eResolved] at same
      by_contra different
      exact apart a aMember b bMember different
        ⟨d, e, (resolveByIdDevice_ok dResolved).2, (resolveByIdDevice_ok eResolved).2, Option.some.inj same⟩
    have paths : (lay.groups.flatten.map (resolvedPath inv.devices)).Nodup := List.Nodup.map_on injective nodup
    refine ⟨?_, made.arguments ▸ paths, ?_, ?_⟩
    · intro link member
      rw [made.arguments] at member
      obtain ⟨d, found⟩ := resolves link member
      rw [resolvedPath_ok found]
      rfl
    · intro planLayout same least known vdev vdevMember
      rw [made.layout] at same
      cases same
      obtain ⟨g, gMember, rfl⟩ := List.mem_map.mp vdevMember
      have listed : g.map Member.id ∈ lay.groups := made.ids ▸ List.mem_map_of_mem gMember
      have different : ((g.map Member.id).map (resolvedPath inv.devices)).Nodup :=
        paths.sublist ((List.sublist_flatten_of_mem listed).map _)
      have width := wide_of_valid made.laid known listed
      simp only [List.map_map, Function.comp_def] at different ⊢
      rw [different.dedup]
      simpa using width
    · rw [made.touched]
      have shownPaths : resolved.flatten.map (fun m => some m.device.path) =
          lay.groups.flatten.map (resolvedPath inv.devices) := by
        rw [← made.ids, ← List.map_flatten, List.map_map]
        exact List.map_congr_left fun m member => (resolvedPath_ok (made.members m member)).symm
      rw [← shownPaths] at paths
      refine List.Nodup.of_map some ?_
      rwa [List.map_map]

end Planned

private def emptyDisk (name : String) (by_id : List Text) : Device where
  disk := {
    name := some name.toList, path := ("/dev/" ++ name).toList, wwn := none, read_only :=
      false, fstype := none, pttype := none
    mountpoints := [], partitions := [], holders := [], contains := [] }
  by_id := by_id
  partitions := []
  os_reason := none
  signatures := []
  mounted := false
  mounted_at := []
  in_pool := none
  importable_pool := none
  has_holders := false
  risk := []

private def wwn : Text := "/dev/disk/by-id/wwn-0x5000c500c3333333".toList

private def ata : Text := "/dev/disk/by-id/ata-ST4000VN008-2DR166_ZDH1CCCC".toList

private def other : Text := "/dev/disk/by-id/ata-ST4000VN008-2DR166_ZDH1DDDD".toList

private def twoDisks : Inventory where
  devices := [emptyDisk "sdc" [wwn, ata], emptyDisk "sdd" [other]]
  pools := []
  importable := []
  poolStatus := []

private def mirrorOf (links : List Text) : CreateParams where
  name := some "tank".toList
  layout := some "mirror".toList
  vdevs := none
  devices := some links
  wipe := false
  ashift := none
  compression := none
  atime := none
  xattr := none
  mountpoint := none
  encryption := .omitted
  managed := true

theorem create_distinct_mirror : ∃ plan, planCreateZpool twoDisks (mirrorOf [ata, other]) =
    .ok plan ∧ plan.createdFrom = [ata, other] ∧
    (DistinctDisks twoDisks plan ↔ ∀ a ∈ listedLinks (mirrorOf [ata, other]),
      ∀ b ∈ listedLinks (mirrorOf [ata, other]), a ≠ b →
      ¬ SameDisk twoDisks.devices a b) := by
  have evaluated : (planCreateZpool twoDisks (mirrorOf [ata, other])).toOption.map
      Plan.createdFrom = some [ata, other] := by decide +kernel
  cases planned : planCreateZpool twoDisks (mirrorOf [ata, other]) with
  | error error =>
    rw [planned] at evaluated
    cases evaluated
  | ok plan =>
    rw [planned] at evaluated
    exact ⟨plan, rfl, Option.some.inj evaluated, create_distinct planned⟩

/-- A mirror is planned over two links of one disk. -/
theorem mirror_of_one_disk : ¬ ∀ inv params plan, planCreateZpool inv params = .ok plan →
    DistinctDisks inv plan := by
  intro always
  have evaluated : (planCreateZpool twoDisks (mirrorOf [wwn, ata])).toOption.map Plan.touches =
      some ["/dev/sdc".toList, "/dev/sdc".toList] := by
    decide +kernel
  cases planned : planCreateZpool twoDisks (mirrorOf [wwn, ata]) with
  | error error =>
    rw [planned] at evaluated
    cases evaluated
  | ok plan =>
    rw [planned] at evaluated
    have touches := (always twoDisks (mirrorOf [wwn, ata]) plan planned).touches
    rw [show plan.touches = _ from Option.some.inj evaluated] at touches
    simp at touches

end ProxyPilot.Zpool
