import ProxyPilot.Zpool.Plans

namespace ProxyPilot.Zfs

open Data
open Zpool (Text joined words number poolNameChar StepKind)

/-! # Plans, and the destruction of a dataset (`planner.js`)

Every planner of the module counts its steps with one counter.  `newPlan` sets it back, so
the names of the steps begin again with each plan.

`zfs destroy -r` takes everything below the dataset with it.  The planner looks for guests
at and below the dataset, and for the source of an Incus pool at the dataset only.
-/

structure Step where
  id : Text
  argv : List Text
  description : Text
  stdin : Option Text := none
  timeout_ms : Nat := 120000
  ignore_failure : Bool := false
  kind : StepKind := .exec
  expect : Option Text := none

structure Plan where
  op : Text
  subject : Text
  summary : Text
  steps : List Step := []
  warnings : List Text := []
  reversal : Option Text := none
  touches : List Text := []
  stream_file : Option Text := none

/-- Work on the counter `seq` of the module. -/
abbrev Counted := StateM Nat

/-- `step(argv, description, extra)` -/
def step (argv : List Text) (description : Text) (extra : Step → Step) : Counted Step := do
  modify (· + 1)
  let seq ← get
  return extra { id := "s".toList ++ number seq, argv := argv, description := description }

def newPlan (op subject summary : Text) : Counted Plan := do
  set 0
  return { op := op, subject := subject, summary := summary }

def shellArgv (script : Text) (args : List Text) (descr : Text) (extra : Step → Step) : Counted Step :=
  step (words ["sh", "-c"] ++ [script, "sh".toList] ++ args) descr extra

/-- A planner: what it answers, and the counter it leaves behind. -/
abbrev Planner := Nat → Except Text Plan × Nat

/-- The checks of a planner, and the plan that is put together when they pass. -/
def planner {α : Type} (checks : Except Text α) (build : α → Counted Plan) : Planner := fun seq =>
  match checks with
  | .error error => (.error error, seq)
  | .ok found =>
    let built := (build found).run seq
    (.ok built.1, built.2)

theorem planner_ok {α : Type} {checks : Except Text α} {build : α → Counted Plan} {seq : Nat} {plan : Plan} :
    (planner checks build seq).1 = .ok plan ↔ ∃ found, checks = .ok found ∧ ((build found).run seq).1 = plan := by
  unfold planner
  cases checks with
  | error error => simp
  | ok found => simp

def startsAlpha : Text → Bool
  | c :: _ => c.isAlpha
  | [] => false

/-- `DATASET_RE` -/
def isDataset (n : Text) : Bool :=
  match n.splitOn '/' with
  | [] => false
  | first :: rest =>
    startsAlpha first && first.all poolNameChar && rest.all fun part => !part.isEmpty && part.all poolNameChar

def validDataset (s : Option Text) : Option Text :=
  let n := s.getD []
  if isDataset n && decide (n.length ≤ 255) then some n else none

def validSnapshotName (s : Text) : Option Text :=
  if !s.isEmpty && decide (s.length ≤ 200) && s.all poolNameChar then some s else none

structure SnapshotRef where
  dataset : Text
  snapshot : Text

def SnapshotRef.name (target : SnapshotRef) : Text := target.dataset ++ "@".toList ++ target.snapshot

def splitSnapshot (full : Option Text) : Option SnapshotRef := do
  let s := full.getD []
  let front := s.takeWhile (· ≠ '@')
  if front.length = s.length ∨ front = [] then none
  else
    let dataset ← validDataset (some front)
    let snap ← validSnapshotName (s.drop (front.length + 1))
    return ⟨dataset, snap⟩

/-- `INCUS_NAME_RE` -/
def isIncusName : Text → Bool
  | c :: rest => c.isAlphanum && decide (rest.length ≤ 62) && rest.all fun c => c.isAlphanum || c == '-'
  | [] => false

inductive SnapshotKind where
  | sanoid
  | syncoid
  | incus
  | proxypilot
  | manual
deriving DecidableEq

def SnapshotKind.text : SnapshotKind → Text
  | .sanoid => "sanoid".toList
  | .syncoid => "syncoid".toList
  | .incus => "incus".toList
  | .proxypilot => "proxypilot".toList
  | .manual => "manual".toList

/-- Who made a snapshot, from its name. -/
def classifySnapshotName (name : Text) : SnapshotKind :=
  if "autosnap_".toList.isPrefixOf name then .sanoid
  else if "syncoid_".toList.isPrefixOf name then .syncoid
  else if "snapshot-".toList.isPrefixOf name then .incus
  else if "pp-".toList.isPrefixOf name then .proxypilot
  else .manual

/-- A row of `zfs list -t snapshot`. -/
structure Snapshot where
  dataset : Text
  snapshot : Text
  created_at : Option Text
  /-- `none` when it is missing or not finite. -/
  createtxg : Option Rat
  single : '@' ∉ dataset

def Snapshot.name (s : Snapshot) : Text := s.dataset ++ "@".toList ++ s.snapshot

def Snapshot.kind (s : Snapshot) : SnapshotKind := classifySnapshotName s.snapshot

structure GuestInstance where
  name : Text
  status : Text
  dataset : Option Text

/-- What the planners read.  ZFS has no two snapshots of one name. -/
structure Inventory where
  /-- The names of the datasets. -/
  datasets : List Text
  snapshots : List Snapshot
  instances : List GuestInstance
  incusSources : List Text
  backupsDir : Option Text
  distinct : (snapshots.map Snapshot.name).Nodup

/-- `dataset.startsWith(name + '/')` -/
def below (name dataset : Text) : Bool := (name ++ "/".toList).isPrefixOf dataset

/-- What `zfs destroy -r name` removes. -/
def within (name dataset : Text) : Bool := dataset == name || below name dataset

/-- What the checks of `planDestroyDataset` leave to work with. -/
structure Destroyed where
  name : Text
  children : List Text

def guestsWithin (inv : Inventory) (name : Text) : List GuestInstance :=
  inv.instances.filter fun i => i.dataset.any fun dataset => !dataset.isEmpty && within name dataset

def destroyChecks (inv : Inventory) (dataset : Option Text) : Except Text Destroyed := do
  let name ← demand (validDataset dataset) "dataset is required".toList
  require (name.contains '/')
    (name ++ " is a pool, not a dataset — export_pool / zpool destroy are separate, deliberate operations".toList)
  require (inv.datasets.contains name) ("dataset ".toList ++ name ++ " does not exist".toList)
  let guests := guestsWithin inv name
  require guests.isEmpty
    ("refused: ".toList ++ name ++ " holds Incus guest storage (".toList ++
      joined ", " (guests.map GuestInstance.name) ++
      ") — delete guests through Incus (delete_lxc_container)".toList)
  require (!inv.incusSources.contains name) ("refused: ".toList ++ name ++
    " is the source dataset of an Incus storage pool".toList)
  return ⟨name, inv.datasets.filter (below name)⟩

def dropSlashes (text : Text) : Text := dropEnd (· == '/') text

def safeChar (c : Char) : Char := if nameChar c then c else '_'

def streamFile (inv : Inventory) (name : Text) : Text :=
  let backupsDir := (inv.backupsDir.filter fun dir => !dir.isEmpty).getD "/var/lib/proxypilot/storage".toList
  dropSlashes backupsDir ++ "/destroyed/".toList ++ name.map safeChar ++
    "@pp-predestroy-\x7b\x7bstamp\x7d\x7d.zfs".toList

/-- The snapshot that is taken before the dataset goes. -/
def predestroy (name : Text) : Text := name ++ "@pp-predestroy-\x7b\x7bstamp\x7d\x7d".toList

def streamScript : Text := "mkdir -p \"$(dirname \"$2\")\" && zfs send -R \"$1\" > \"$2\"".toList

def destroyPlan (inv : Inventory) (found : Destroyed) : Counted Plan := do
  let name := found.name
  let children := found.children
  let file := streamFile inv name
  let plan ← newPlan "destroy_dataset".toList name
    ("Destroy dataset ".toList ++ name ++
      (if children.isEmpty then [] else " and ".toList ++ number children.length ++ " child dataset(s)".toList) ++
      " after a fresh snapshot is taken and streamed to ".toList ++ file)
  let snapshot ← step (words ["zfs", "snapshot", "-r"] ++ [predestroy name])
      "Take the pre-destroy snapshot".toList id
  let stream ← shellArgv streamScript [predestroy name,
      file] "Stream the snapshot (with its history) into the backups location".toList
    fun s => { s with timeout_ms := 6 * 3600 * 1000 }
  let destroy ← step (words ["zfs", "destroy", "-r"] ++ [name]) "Destroy the dataset and everything below it".toList
    fun s => { s with timeout_ms := 600000 }
  return { plan with
    warnings := if children.isEmpty then [] else ["children destroyed with it: ".toList ++ joined ", " children]
    steps := [snapshot, stream, destroy]
    reversal := some ("zfs receive ".toList ++ name ++ " < ".toList ++ file)
    stream_file := some file }

def planDestroyDataset (inv : Inventory) (dataset : Option Text) : Planner :=
  planner (destroyChecks inv dataset) (destroyPlan inv)

theorem destroyChecks_ok {inv : Inventory} {dataset : Option Text} {found : Destroyed}
    (passed : destroyChecks inv dataset = .ok found) :
    validDataset dataset = some found.name ∧ guestsWithin inv found.name = [] ∧ found.name ∉ inv.incusSources := by
  unfold destroyChecks at passed
  obtain ⟨name, named, passed⟩ := bind_ok.mp passed
  obtain ⟨_, passed⟩ := require_bind_ok.mp passed
  obtain ⟨_, passed⟩ := require_bind_ok.mp passed
  obtain ⟨free, passed⟩ := require_bind_ok.mp passed
  obtain ⟨foreign, passed⟩ := require_bind_ok.mp passed
  cases passed
  exact ⟨demand_ok.mp named, List.isEmpty_iff.mp free, by simpa using foreign⟩

/-- The commands of the plan, in their order. -/
theorem destroyPlan_argv (inv : Inventory) (found : Destroyed) (seq : Nat) :
    ((destroyPlan inv found).run seq).1.steps.map Step.argv =
      [words ["zfs", "snapshot", "-r"] ++ [predestroy found.name],
        words ["sh", "-c"] ++ [streamScript, "sh".toList] ++ [predestroy found.name, streamFile inv found.name],
        words ["zfs", "destroy", "-r"] ++ [found.name]] := rfl

/-- No guest, and no source of an Incus pool, is at or below the dataset. -/
def SparesIncus (inv : Inventory) (name : Text) : Prop :=
  (∀ guest ∈ inv.instances, ∀ dataset, guest.dataset = some dataset → dataset ≠ [] → within name dataset = false) ∧
    ∀ source ∈ inv.incusSources, within name source = false

theorem spares_iff {inv : Inventory} {name : Text} (free : guestsWithin inv name = [])
    (foreign : name ∉ inv.incusSources) :
    SparesIncus inv name ↔ ∀ source ∈ inv.incusSources, below name source = false := by
  have guests : ∀ guest ∈ inv.instances, ∀ dataset, guest.dataset = some dataset → dataset ≠ [] →
      within name dataset = false := by
    intro guest member dataset placed some
    have outside := List.filter_eq_nil_iff.mp free guest member
    simpa [placed, some] using outside
  constructor
  · rintro ⟨_, spared⟩ source member
    have := spared source member
    simp only [within, Bool.or_eq_false_iff] at this
    exact this.2
  · intro spared
    refine ⟨guests, ?_⟩
    intro source member
    have other : source ≠ name := by
      rintro rfl
      exact foreign member
    simp [within, other, spared source member]

/-- What the snapshot and the stream in front of the destroy step save. -/
def SavesFirst (plan : Plan) (name : Text) : Prop :=
  ∃ file, plan.steps.map Step.argv =
    [words ["zfs", "snapshot", "-r"] ++ [predestroy name], words ["sh", "-c"] ++
      [streamScript, "sh".toList] ++ [predestroy name, file],
      words ["zfs", "destroy", "-r"] ++ [name]]

/-- A plan saves the dataset before it destroys it, and spares the storage of Incus exactly when no
source of an Incus pool is below the dataset. -/
theorem planDestroyDataset_spares_iff {inv : Inventory} {dataset : Option Text} {seq : Nat} {plan : Plan}
    (planned : (planDestroyDataset inv dataset seq).1 = .ok plan) :
    ∃ name, validDataset dataset = some name ∧ plan.subject = name ∧
      (SparesIncus inv name ∧ SavesFirst plan name ↔ ∀ source ∈ inv.incusSources, below name source = false) := by
  obtain ⟨found, passed, rfl⟩ := planner_ok.mp planned
  obtain ⟨named, free, foreign⟩ := destroyChecks_ok passed
  refine ⟨found.name, named, rfl, ?_⟩
  have saves : SavesFirst ((destroyPlan inv found).run seq).1 found.name := ⟨_, destroyPlan_argv inv found seq⟩
  rw [← spares_iff free foreign]
  exact ⟨fun both => both.1, fun spared => ⟨spared, saves⟩⟩

/-- A pool of Incus on a dataset below `tank/apps`, without guests. -/
def nestedSource : Inventory where
  datasets := words ["tank", "tank/apps", "tank/apps/incus"]
  snapshots := []
  instances := []
  incusSources := words ["tank/apps/incus"]
  backupsDir := some "/tank/backups".toList
  distinct := by simp

def nestedPlan : Plan := ((destroyPlan nestedSource ⟨"tank/apps".toList, words ["tank/apps/incus"]⟩).run 0).1

theorem nestedPlan_planned : (planDestroyDataset nestedSource (some "tank/apps".toList) 0).1 = .ok nestedPlan :=
  planner_ok.mpr ⟨_, rfl, rfl⟩

/-- The dataset above an empty Incus pool is destroyed with the source of the pool. -/
theorem nested_source_destroyed :
    (planDestroyDataset nestedSource (some "tank/apps".toList) 0).1 = .ok nestedPlan ∧
      ¬SparesIncus nestedSource "tank/apps".toList := by
  refine ⟨nestedPlan_planned, ?_⟩
  rintro ⟨_, spared⟩
  exact absurd (spared "tank/apps/incus".toList (by decide)) (by decide +kernel)

/-- The plan for `tank/apps` is one that the equivalence speaks about. -/
theorem planDestroyDataset_spares_iff_nested :
    ∃ name, validDataset (some "tank/apps".toList) = some name ∧ nestedPlan.subject = name ∧
      (SparesIncus nestedSource name ∧ SavesFirst nestedPlan name ↔
        ∀ source ∈ nestedSource.incusSources, below name source = false) :=
  planDestroyDataset_spares_iff nestedPlan_planned

end ProxyPilot.Zfs
