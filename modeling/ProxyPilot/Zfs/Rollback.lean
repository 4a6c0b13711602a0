import Mathlib.Data.List.Nodup
import ProxyPilot.Data.Paths
import ProxyPilot.Zfs.Destroy

namespace ProxyPilot.Zfs

open Data
open Zpool (Text joined words number poolNameChar)

/-! # Rolling back to a snapshot (`planner.js`)

A rollback destroys every newer snapshot of the dataset.  `createtxg` orders them; the time
of creation is in whole seconds and counts only where a `createtxg` is missing.
-/

/-- `a > b`, where an undefined number is not greater than any. -/
def exceeds (a b : Option Rat) : Bool :=
  match a, b with
  | some a, some b => decide (b < a)
  | _, _ => false

/-- The time of creation, with `Date.parse` whatever it makes of a text. -/
def createdAt (dateParse : Text → Option Rat) (x : Snapshot) : Option Rat :=
  match x.created_at.filter fun text => !text.isEmpty with
  | some text => dateParse text
  | none => some 0

def isNewer (dateParse : Text → Option Rat) (s x : Snapshot) : Bool :=
  if x.createtxg.isSome && s.createtxg.isSome then exceeds x.createtxg s.createtxg
  else exceeds (createdAt dateParse x) (createdAt dateParse s)

structure Newer where
  snapshot : Snapshot
  newer : List Snapshot

def newerSnapshots (dateParse : Text → Option Rat) (inv : Inventory) (target : SnapshotRef) :
    Except Text Newer := do
  let s ← demand (inv.snapshots.find? fun x => x.name == target.name) ("snapshot ".toList ++
      target.name ++ " does not exist".toList)
  return ⟨s, inv.snapshots.filter fun x => x.dataset == target.dataset && x.name != target.name &&
    isNewer dateParse s x⟩

def names (snapshots : List Snapshot) : Text := joined ", " (snapshots.map Snapshot.snapshot)

structure RollbackParams where
  snapshot : Option Text
  destroy_newer : Bool

def refusedNewer (newer : List Snapshot) (rest : String) : Text :=
  "refused: ".toList ++ number newer.length ++ " newer snapshot(s) would be destroyed (".toList ++
    names newer ++ rest.toList

def rollbackChecks (dateParse : Text → Option Rat) (inv : Inventory) (params : RollbackParams) :
    Except Text (SnapshotRef × Newer) := do
  let target ← demand (splitSnapshot params.snapshot) "snapshot must be dataset@name".toList
  let n ← newerSnapshots dateParse inv target
  require (n.newer.isEmpty || params.destroy_newer)
    (refusedNewer n.newer ") — pass destroy_newer: true to accept that")
  let guests := inv.instances.filter fun i => i.dataset == some target.dataset
  require guests.isEmpty
    ("refused: ".toList ++ target.dataset ++ " is guest storage for ".toList ++
      joined ", " (guests.map GuestInstance.name) ++
      " — use rollback_guest_dataset (it stops the guest first)".toList)
  return (target, n)

def rollbackArgv (newer : List Snapshot) (target : SnapshotRef) : List Text :=
  words ["zfs", "rollback"] ++ (if newer.isEmpty then [] else words ["-r"]) ++ [target.name]

def rollbackPlan (found : SnapshotRef × Newer) : Counted Plan := do
  let target := found.1
  let newer := found.2.newer
  let plan ← newPlan "zfs_rollback".toList target.name
    ("Roll ".toList ++ target.dataset ++ " back to @".toList ++ target.snapshot ++
      (if newer.isEmpty then [] else ", destroying ".toList ++ number newer.length ++ " newer snapshot(s)".toList))
  let rollback ← step (rollbackArgv newer target) "Roll back".toList id
  return { plan with
    warnings := if newer.isEmpty then [] else ["destroys: ".toList ++ names newer]
    steps := [rollback]
    reversal := some "none — data written after the snapshot is gone".toList }

def planRollback (dateParse : Text → Option Rat) (inv : Inventory) (params : RollbackParams) : Planner :=
  planner (rollbackChecks dateParse inv params) rollbackPlan

structure GuestRollbackParams extends RollbackParams where
  guest : Text
  stop : Bool
  start_after : Bool

structure GuestRollback where
  target : SnapshotRef
  found : Newer
  running : Bool

def nonempty (text : Option Text) : Option Text := text.filter fun text => !text.isEmpty

def withoutMark (snapshot : Text) : Text :=
  if "snapshot-".toList.isPrefixOf snapshot then snapshot.drop 9 else snapshot

def guestRollbackChecks (dateParse : Text → Option Rat) (inv : Inventory)
    (params : GuestRollbackParams) : Except Text GuestRollback := do
  let guest := params.guest
  require (isIncusName guest) "guest is required".toList
  let inst ← demand (inv.instances.find? fun i => i.name == guest) ("guest ".toList ++ guest ++ " not found".toList)
  let target ← demand (splitSnapshot params.snapshot) "snapshot must be dataset@name".toList
  require (nonempty inst.dataset == some target.dataset)
    (target.name ++ " is not a snapshot of ".toList ++ guest ++ "'s dataset (".toList ++
      (nonempty inst.dataset).getD "unknown".toList ++
      ")".toList)
  let n ← newerSnapshots dateParse inv target
  let newerIncus := n.newer.filter fun s => s.kind == .incus
  require newerIncus.isEmpty
    ("refused: Incus snapshots newer than @".toList ++ target.snapshot ++ " exist (".toList ++
      joined ", " (newerIncus.map fun s => withoutMark s.snapshot) ++
      ") and a rollback would destroy them behind Incus's back — delete them with delete_snapshot first".toList)
  require (n.newer.isEmpty || params.destroy_newer) (refusedNewer n.newer ") — pass destroy_newer: true")
  let running := inst.status == "Running".toList
  require (!running || params.stop)
    ("refused: ".toList ++ guest ++
      " is running — pass stop: true to stop it for the rollback (it is started again afterwards)".toList)
  return ⟨target, n, running⟩

def guestRollbackPlan (params : GuestRollbackParams) (found : GuestRollback) : Counted Plan := do
  let guest := params.guest
  let newer := found.found.newer
  let s := found.found.snapshot
  let plan ← newPlan "rollback_guest_dataset".toList guest
    ("Roll guest ".toList ++ guest ++ " back to @".toList ++ found.target.snapshot ++ " (".toList ++
      s.kind.text ++ ", ".toList ++
      (nonempty s.created_at).getD "?".toList ++ ")".toList)
  let stop ← if found.running then
      let stop ← step (words ["incus", "stop"] ++ [guest]) ("Stop ".toList ++ guest) fun s =>
          { s with timeout_ms := 300000 }
      pure [stop]
    else pure []
  let rollback ← step (rollbackArgv newer found.target) "Roll the dataset back".toList id
  let start ← if found.running || params.start_after then
      let start ← step (words ["incus", "start"] ++ [guest]) ("Start ".toList ++ guest) fun s =>
          { s with timeout_ms := 300000 }
      let verify ← step (words ["incus", "list"] ++ ["^".toList ++ guest ++ "$".toList] ++
          words ["--format", "json"])
        ("Verify ".toList ++ guest ++ " is running".toList) fun s =>
          { s with kind := .verify, expect := some "Running".toList }
      pure [start, verify]
    else pure []
  return { plan with
    warnings := if newer.isEmpty then [] else ["destroys newer snapshots: ".toList ++ names newer]
    steps := stop ++ [rollback] ++ start
    reversal := some
      "none — data written after the snapshot is gone (restore_guest_from_snapshot on a later snapshot is the non-destructive alternative)".toList }

def planRollbackGuestDataset (dateParse : Text → Option Rat) (inv : Inventory)
    (params : GuestRollbackParams) : Planner :=
  planner (guestRollbackChecks dateParse inv params) (guestRollbackPlan params)

/-- The snapshots of the dataset with a larger `createtxg`. -/
def laterThan (inv : Inventory) (dataset : Text) (txg : Rat) : List Snapshot :=
  inv.snapshots.filter fun x => x.dataset == dataset && x.createtxg.any fun other => decide (txg < other)

/-- Every snapshot of the dataset has a finite `createtxg`. -/
def Ordered (inv : Inventory) (dataset : Text) : Prop :=
  ∀ x ∈ inv.snapshots, x.dataset = dataset → x.createtxg.isSome = true

theorem no_at_of_isDataset {n : Text} (valid : isDataset n = true) : '@' ∉ n := by
  have plain : ∀ part : Text, part.all poolNameChar = true → '@' ∉ part := by
    intro part chars member
    exact absurd (List.all_eq_true.mp chars '@' member) (by decide)
  intro member
  rcases mem_piece_of_mem '/' member with same | ⟨piece, listed, inside⟩
  · exact absurd same (by decide)
  · unfold isDataset at valid
    cases pieces : n.splitOn '/' with
    | nil => simp [pieces] at listed
    | cons first rest =>
      simp only [pieces, Bool.and_eq_true, List.all_eq_true (l := rest)] at valid listed
      rcases List.mem_cons.mp listed with rfl | deeper
      · exact plain piece valid.1.2 inside
      · exact plain piece (valid.2 piece deeper).2 inside

theorem no_at_of_split {full : Option Text} {target : SnapshotRef}
    (split : splitSnapshot full = some target) : '@' ∉ target.dataset := by
  unfold splitSnapshot at split
  simp only [] at split
  split at split
  · cases split
  · obtain ⟨dataset, valid, split⟩ := Option.bind_eq_some_iff.mp split
    obtain ⟨snap, _, split⟩ := Option.bind_eq_some_iff.mp split
    cases split
    unfold validDataset at valid
    simp only [] at valid
    split at valid
    · next accepted =>
        cases valid
        simp only [Bool.and_eq_true] at accepted
        exact no_at_of_isDataset accepted.1
    · cases valid

theorem takeWhile_at {front : Text} (single : '@' ∉ front) (rest : Text) :
    (front ++ '@' :: rest).takeWhile (· ≠ '@') = front := by
  rw [List.takeWhile_append_of_pos (fun c member => by simpa using fun same : c = '@' => single (same ▸ member))]
  simp

/-- A snapshot is known by its name. -/
theorem split_name {target : SnapshotRef} {x : Snapshot} (single : '@' ∉ target.dataset)
    (same : x.name = target.name) :
    x.dataset = target.dataset := by
  have front := congrArg (List.takeWhile (· ≠ '@')) same
  simp only [Snapshot.name, SnapshotRef.name, List.append_assoc] at front
  exact (takeWhile_at x.single _).symm.trans (front.trans (takeWhile_at single _))

/-- The commands of a plan that roll something back. -/
def rollbacks (plan : Plan) : List (List Text) := (plan.steps.map Step.argv).filter fun argv =>
    argv.take 2 == words ["zfs", "rollback"]

theorem rollbackPlan_spec (found : SnapshotRef × Newer) (seq : Nat) :
    rollbacks ((rollbackPlan found).run seq).1 = [rollbackArgv found.2.newer found.1] ∧
      ((rollbackPlan found).run seq).1.warnings = if found.2.newer.isEmpty then []
        else ["destroys: ".toList ++ names found.2.newer] :=
  ⟨rfl, rfl⟩

theorem guestRollbackPlan_spec (params : GuestRollbackParams) (found : GuestRollback) (seq : Nat) :
    rollbacks ((guestRollbackPlan params found).run seq).1 = [rollbackArgv found.found.newer found.target] ∧
      ((guestRollbackPlan params found).run seq).1.warnings =
        if found.found.newer.isEmpty then []
          else ["destroys newer snapshots: ".toList ++ names found.found.newer] := by
  unfold guestRollbackPlan
  cases found.running <;> cases params.start_after <;> exact ⟨rfl, rfl⟩

section Accepted

variable {dateParse : Text → Option Rat} {inv : Inventory} {target : SnapshotRef} {n : Newer}

/-- With a `createtxg` for every snapshot, the newer ones are those with a larger one. -/
theorem newerSnapshots_ok (single : '@' ∉ target.dataset) (ordered : Ordered inv target.dataset)
    (found : newerSnapshots dateParse inv target = .ok n) :
    n.snapshot ∈ inv.snapshots ∧ n.snapshot.name = target.name ∧
      ∃ txg, n.snapshot.createtxg = some txg ∧ n.newer = laterThan inv target.dataset txg := by
  obtain ⟨s, chosen, found⟩ := bind_ok.mp found
  cases found
  have chosen := demand_ok.mp chosen
  have member := List.mem_of_find?_eq_some chosen
  have named : s.name = target.name := by simpa using List.find?_some chosen
  obtain ⟨txg, known⟩ := Option.isSome_iff_exists.mp (ordered s member (split_name single named))
  refine ⟨member, named, txg, known, ?_⟩
  unfold laterThan
  apply List.filter_congr
  intro x listed
  by_cases own : x.dataset = target.dataset
  · obtain ⟨other, otherKnown⟩ := Option.isSome_iff_exists.mp (ordered x listed own)
    by_cases same : x.name = target.name
    · -- the target is not newer than itself
      have itself : x = s := List.inj_on_of_nodup_map inv.distinct listed member (same.trans named.symm)
      subst itself
      simp [known, named]
    · simp [own, same, isNewer, exceeds, known, otherKnown]
  · have other : (x.dataset == target.dataset) = false := beq_eq_false_iff_ne.mpr own
    simp [other]

/-- The plan destroys nothing that was not accepted: the snapshots it destroys are the later ones,
and it says which. -/
def DestroysAccepted (inv : Inventory) (target : SnapshotRef) (destroyNewer : Bool) (mark : String)
    (plan : Plan) : Prop :=
  ∃ s ∈ inv.snapshots, ∃ txg, s.name = target.name ∧ s.createtxg = some txg ∧
    (destroyNewer = false → laterThan inv target.dataset txg = []) ∧
    rollbacks plan = [words ["zfs", "rollback"] ++
      (if laterThan inv target.dataset txg = [] then [] else words ["-r"]) ++ [target.name]] ∧
    plan.warnings = if laterThan inv target.dataset txg = [] then []
      else [mark.toList ++ names (laterThan inv target.dataset txg)]

theorem destroysAccepted {mark : String} {destroyNewer : Bool} {plan : Plan}
    (single : '@' ∉ target.dataset) (ordered : Ordered inv target.dataset)
    (found : newerSnapshots dateParse inv target = .ok n) (accepted : (n.newer.isEmpty || destroyNewer) = true)
    (rolls : rollbacks plan = [rollbackArgv n.newer target])
    (warns : plan.warnings = if n.newer.isEmpty then [] else [mark.toList ++ names n.newer]) :
    DestroysAccepted inv target destroyNewer mark plan := by
  obtain ⟨member, named, txg, known, later⟩ := newerSnapshots_ok single ordered found
  refine ⟨n.snapshot, member, txg, named, known, ?_, ?_, ?_⟩
  · rintro rfl
    simpa [later] using accepted
  · simpa [rollbackArgv, later] using rolls
  · simpa [later] using warns

theorem rollbackChecks_ok {params : RollbackParams} {found : SnapshotRef × Newer}
    (passed : rollbackChecks dateParse inv params = .ok found) :
    splitSnapshot params.snapshot = some found.1 ∧ newerSnapshots dateParse inv found.1 = .ok found.2 ∧
      (found.2.newer.isEmpty || params.destroy_newer) = true := by
  unfold rollbackChecks at passed
  obtain ⟨target, split, passed⟩ := bind_ok.mp passed
  obtain ⟨n, newer, passed⟩ := bind_ok.mp passed
  obtain ⟨accepted, passed⟩ := require_bind_ok.mp passed
  obtain ⟨_, passed⟩ := require_bind_ok.mp passed
  cases passed
  exact ⟨demand_ok.mp split, newer, accepted⟩

theorem guestRollbackChecks_ok {params : GuestRollbackParams} {found : GuestRollback}
    (passed : guestRollbackChecks dateParse inv params = .ok found) :
    splitSnapshot params.snapshot = some found.target ∧
      newerSnapshots dateParse inv found.target = .ok found.found ∧
      (found.found.newer.filter fun s => s.kind == .incus) = [] ∧
        (found.found.newer.isEmpty || params.destroy_newer) = true := by
  unfold guestRollbackChecks at passed
  obtain ⟨_, passed⟩ := require_bind_ok.mp passed
  obtain ⟨inst, _, passed⟩ := bind_ok.mp passed
  obtain ⟨target, split, passed⟩ := bind_ok.mp passed
  obtain ⟨_, passed⟩ := require_bind_ok.mp passed
  obtain ⟨n, newer, passed⟩ := bind_ok.mp passed
  obtain ⟨foreign, passed⟩ := require_bind_ok.mp passed
  obtain ⟨accepted, passed⟩ := require_bind_ok.mp passed
  obtain ⟨_, passed⟩ := require_bind_ok.mp passed
  cases passed
  exact ⟨demand_ok.mp split, newer, List.isEmpty_iff.mp foreign, accepted⟩

end Accepted

/-- Both planners destroy only what was accepted, and the one for guests no snapshot of Incus. -/
theorem rollback_destroys_accepted (dateParse : Text → Option Rat) (inv : Inventory) (seq : Nat) (plan : Plan) :
    (∀ params : RollbackParams, (planRollback dateParse inv params seq).1 = .ok plan →
      ∃ target, splitSnapshot params.snapshot = some target ∧
        (Ordered inv target.dataset → DestroysAccepted inv target params.destroy_newer "destroys: " plan)) ∧
      ∀ params : GuestRollbackParams, (planRollbackGuestDataset dateParse inv params seq).1 = .ok plan →
        ∃ target, splitSnapshot params.snapshot = some target ∧
          (Ordered inv target.dataset →
            DestroysAccepted inv target params.destroy_newer "destroys newer snapshots: " plan ∧
            ∀ s ∈ inv.snapshots, ∀ txg, s.name = target.name → s.createtxg = some txg →
              ∀ x ∈ laterThan inv target.dataset txg, x.kind ≠ .incus) := by
  constructor
  · intro params planned
    obtain ⟨found, passed, rfl⟩ := planner_ok.mp planned
    obtain ⟨split, newer, accepted⟩ := rollbackChecks_ok passed
    refine ⟨found.1, split, fun ordered => ?_⟩
    obtain ⟨rolls, warns⟩ := rollbackPlan_spec found seq
    exact destroysAccepted (no_at_of_split split) ordered newer accepted rolls warns
  · intro params planned
    obtain ⟨found, passed, rfl⟩ := planner_ok.mp planned
    obtain ⟨split, newer, foreign, accepted⟩ := guestRollbackChecks_ok passed
    refine ⟨found.target, split, fun ordered => ?_⟩
    obtain ⟨rolls, warns⟩ := guestRollbackPlan_spec params found seq
    refine ⟨destroysAccepted (no_at_of_split split) ordered newer accepted rolls warns, ?_⟩
    obtain ⟨member, named, txg, known, later⟩ := newerSnapshots_ok (no_at_of_split split) ordered newer
    intro s listed other sameName otherKnown x destroyed
    have itself : s = found.found.snapshot :=
      List.inj_on_of_nodup_map inv.distinct listed member (sameName.trans named.symm)
    subst itself
    rw [known] at otherKnown
    cases otherKnown
    rw [← later] at destroyed
    simpa using List.filter_eq_nil_iff.mp foreign x destroyed

/-- Two snapshots of one dataset, taken in the same second. -/
def sameSecond : Inventory where
  datasets := words ["tank", "tank/data"]
  snapshots :=
    [⟨"tank/data".toList, "before".toList, some "2026-01-01T00:00:00.000Z".toList, some 41, by decide⟩,
      ⟨"tank/data".toList, "after".toList, some "2026-01-01T00:00:00.000Z".toList, some 42, by decide⟩]
  instances := []
  incusSources := []
  backupsDir := none
  distinct := by decide

def sameSecondTarget : SnapshotRef := ⟨"tank/data".toList, "before".toList⟩

def sameSecondParams : RollbackParams := ⟨some "tank/data@before".toList, true⟩

def sameSecondPlan : Plan :=
  ((rollbackPlan (sameSecondTarget, ⟨sameSecond.snapshots.head (by decide), sameSecond.snapshots.tail⟩)).run 0).1

/-- The later one of them is destroyed, once that is accepted. -/
theorem rollback_destroys_accepted_same_second :
    (planRollback (fun _ => some 0) sameSecond sameSecondParams 0).1 = .ok sameSecondPlan ∧
      DestroysAccepted sameSecond sameSecondTarget true "destroys: " sameSecondPlan := by
  have planned : (planRollback (fun _ => some 0) sameSecond sameSecondParams 0).1 =
      .ok sameSecondPlan := planner_ok.mpr ⟨_, rfl, rfl⟩
  refine ⟨planned, ?_⟩
  obtain ⟨target, split, destroys⟩ :=
    (rollback_destroys_accepted (fun _ => some 0) sameSecond 0 sameSecondPlan).1 sameSecondParams planned
  have same : splitSnapshot sameSecondParams.snapshot = some sameSecondTarget := rfl
  rw [same] at split
  cases split
  apply destroys
  intro x listed _
  simp only [sameSecond, List.mem_cons, List.not_mem_nil, or_false] at listed
  rcases listed with rfl | rfl <;> rfl

end ProxyPilot.Zfs
