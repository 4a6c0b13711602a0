import ProxyPilot.Data.Table

namespace ProxyPilot.Versions

open Data

/-- Snapshots of versioned records arrive one after another, each complete: a record
that is not in it is gone.  A floor per key remembers the last revision seen, its
digest, and whether the last snapshot still had the record, so that no later
snapshot brings an older record back. -/
structure Floor (κ : Type u) (δ : Type v) where
  key : κ
  revision : Int
  digest : δ
  present : Bool

instance {κ : Type u} {δ : Type v} : Keyed (Floor κ δ) κ := ⟨Floor.key⟩

structure Versioning (α : Type u) (κ : Type v) (δ : Type w) where
  key : α → κ
  revision : α → Int
  digest : α → δ

namespace Versioning

variable {α : Type u} {κ : Type v} {δ : Type w} (v : Versioning α κ δ)

def floor (r : α) : Floor κ δ := ⟨v.key r, v.revision r, v.digest r, true⟩

/-- The record may follow what the floor remembers. -/
def follows [DecidableEq δ] (f : Floor κ δ) (r : α) : Bool :=
  f.revision < v.revision r || (v.revision r = f.revision && v.digest r = f.digest && f.present)

theorem follows_iff [DecidableEq δ] {v : Versioning α κ δ} {f : Floor κ δ} {r : α} : v.follows f r = true ↔
    f.revision < v.revision r ∨ (v.revision r = f.revision ∧ v.digest r = f.digest ∧ f.present = true) := by
  simp [follows, and_assoc]

variable [DecidableEq κ]

def retire (keys : List κ) (f : Floor κ δ) : Floor κ δ := if f.key ∈ keys then f else { f with present := false }

variable [DecidableEq δ]

def admitRecord (floors : Table (Floor κ δ)) (r : α) : Option (Table (Floor κ δ)) :=
  if (floors.get (v.key r)).all (v.follows · r) then some (floors.put (v.floor r)) else none

/-- The floors after a snapshot, if it may follow. -/
def advance (floors : Table (Floor κ δ)) (records : List α) : Option (Table (Floor κ δ)) :=
  if (records.map v.key).Nodup then
    (records.foldlM v.admitRecord floors).map fun floors =>
      floors.map (retire (records.map v.key)) fun f => by unfold retire; split <;> rfl
  else none

variable {v} {floors after : Table (Floor κ δ)} {records : List α}

theorem foldlM_admitRecord_other {k : κ} (ran : records.foldlM v.admitRecord floors = some after)
    (absent : k ∉ records.map v.key) : after.get k = floors.get k := by
  induction records generalizing floors with
  | nil => cases ran; rfl
  | cons r rest ih =>
    simp only [List.foldlM_cons, Option.bind_eq_bind, Option.bind_eq_some_iff] at ran
    obtain ⟨next, admitted, ran⟩ := ran
    simp only [List.map_cons, List.mem_cons, not_or] at absent
    rw [ih ran absent.2]
    simp only [admitRecord, Option.ite_none_right_eq_some] at admitted
    cases admitted.2
    exact Table.get_put_other floors absent.1

theorem foldlM_admitRecord_own {r : α} (ran : records.foldlM v.admitRecord floors = some after)
    (distinct : (records.map v.key).Nodup) (member : r ∈ records) :
    after.get (v.key r) = some (v.floor r) ∧ ∀ f, floors.get (v.key r) = some f → v.follows f r := by
  induction records generalizing floors with
  | nil => contradiction
  | cons first rest ih =>
    simp only [List.foldlM_cons, Option.bind_eq_bind, Option.bind_eq_some_iff] at ran
    obtain ⟨next, admitted, ran⟩ := ran
    obtain ⟨absent, distinct⟩ := List.nodup_cons.mp distinct
    simp only [admitRecord, Option.ite_none_right_eq_some] at admitted
    obtain ⟨fresh, same⟩ := admitted
    cases same
    rcases List.mem_cons.mp member with rfl | member
    · refine ⟨?_, fun f found => ?_⟩
      · rw [foldlM_admitRecord_other ran absent]
        exact Table.get_put_self floors (v.floor r)
      · rw [found] at fresh
        exact fresh
    · obtain ⟨stored, follows⟩ := ih ran distinct member
      refine ⟨stored, fun f found => follows f ?_⟩
      have different : v.key r ≠ v.key first := fun same => absent (same ▸ List.mem_map_of_mem member)
      rw [Table.get_put_other floors different]
      exact found

/-- What a snapshot leaves of the floor of each key. -/
theorem advance_spec (admitted : v.advance floors records = some after) :
    (∀ r ∈ records, after.get (v.key r) = some (v.floor r) ∧ ∀ f, floors.get (v.key r) = some f → v.follows f r) ∧
      ∀ k ∉ records.map v.key, after.get k = (floors.get k).map fun f => { f with present := false } := by
  simp only [advance, Option.ite_none_right_eq_some, Option.map_eq_some_iff] at admitted
  obtain ⟨distinct, middle, ran, rfl⟩ := admitted
  constructor
  · intro r member
    obtain ⟨stored, follows⟩ := foldlM_admitRecord_own ran distinct member
    refine ⟨?_, follows⟩
    rw [Table.get_map, stored]
    exact congrArg some (if_pos (List.mem_map_of_mem member))
  · intro k absent
    rw [Table.get_map, foldlM_admitRecord_other ran absent]
    cases found : floors.get k with
    | none => rfl
    | some f =>
      have key : f.key = k := Table.get_key found
      exact congrArg some (if_neg (by rw [key]; exact absent))

/-- The floor remembers the record, and a record that left as such. -/
structure Remembers (v : Versioning α κ δ) (f : Floor κ δ) (r : α) (newer : List (List α)) : Prop where
  revision : v.revision r ≤ f.revision
  same : v.revision r = f.revision → f.digest = v.digest r ∧
    (f.present = true → ∀ later ∈ newer, v.key r ∈ later.map v.key)

def Covered (v : Versioning α κ δ) (history : List (List α)) (floors : Table (Floor κ δ)) : Prop :=
  ∀ newer batch older, history = newer ++ batch :: older → ∀ r ∈ batch,
    ∃ f, floors.get (v.key r) = some f ∧ Remembers v f r newer

/-- The records may follow every snapshot of the history. -/
def Advances (v : Versioning α κ δ) (history : List (List α)) (records : List α) : Prop :=
  ∀ newer batch older, history = newer ++ batch :: older → ∀ r ∈ batch, ∀ r' ∈ records, v.key r = v.key r' →
    v.revision r ≤ v.revision r' ∧ (v.revision r = v.revision r' →
      v.digest r = v.digest r' ∧ ∀ later ∈ newer, v.key r ∈ later.map v.key)

variable {history : List (List α)}

omit [DecidableEq δ] in
theorem Covered.empty : Covered v ([] : List (List α)) floors := by
  intro newer batch older split
  cases newer <;> contradiction

/-- A snapshot that is admitted advances the history. -/
theorem Covered.advances (covered : Covered v history floors) (admitted : v.advance floors records = some after) :
    Advances v history records := by
  intro newer batch older split r member r' member' same
  obtain ⟨f, found, revision, remembered⟩ := covered newer batch older split r member
  have follows := (advance_spec admitted).1 r' member' |>.2 f (same ▸ found)
  rcases follows_iff.mp follows with larger | ⟨equal, digest, present⟩
  · exact ⟨by omega, fun equal => by omega⟩
  · refine ⟨by omega, fun equal' => ?_⟩
    obtain ⟨digest', listed⟩ := remembered (equal'.trans equal)
    exact ⟨digest'.symm.trans digest.symm, listed present⟩

/-- The new floors cover the history, and with it the snapshot. -/
theorem Covered.advance (covered : Covered v history floors) (admitted : v.advance floors records = some after) :
    Covered v history after ∧ Covered v (records :: history) after := by
  obtain ⟨own, other⟩ := advance_spec admitted
  have advances := covered.advances admitted
  have later : ∀ newer batch older, history = newer ++ batch :: older → ∀ r ∈ batch,
      ∃ f, after.get (v.key r) = some f ∧ Remembers v f r newer ∧ Remembers v f r (records :: newer) := by
    intro newer batch older split r member
    by_cases again : v.key r ∈ records.map v.key
    · obtain ⟨r', member', same⟩ := List.mem_map.mp again
      obtain ⟨revision, equal⟩ := advances newer batch older split r member r' member' same.symm
      refine ⟨v.floor r', same ▸ (own r' member').1, ⟨revision, fun same' => ?_⟩, ⟨revision, fun same' => ?_⟩⟩
      · obtain ⟨digest, listed⟩ := equal same'
        exact ⟨digest.symm, fun _ => listed⟩
      · obtain ⟨digest, listed⟩ := equal same'
        refine ⟨digest.symm, fun _ batch member => ?_⟩
        rcases List.mem_cons.mp member with rfl | member
        · exact again
        · exact listed batch member
    · obtain ⟨f, found, revision, remembered⟩ := covered newer batch older split r member
      refine ⟨{ f with present := false }, ?_, ⟨revision, fun same => ⟨(remembered same).1, ?_⟩⟩,
        ⟨revision, fun same => ⟨(remembered same).1, ?_⟩⟩⟩
      · rw [other _ again, found]
        rfl
      · exact fun present => absurd present Bool.false_ne_true
      · exact fun present => absurd present Bool.false_ne_true
  constructor
  · intro newer batch older split r member
    obtain ⟨f, found, remembers, _⟩ := later newer batch older split r member
    exact ⟨f, found, remembers⟩
  · intro newer batch older split r member
    rcases List.cons_eq_append_iff.mp split with ⟨rfl, first⟩ | ⟨rest, rfl, tail⟩
    · cases first
      exact ⟨v.floor r, (own r member).1, Int.le_refl _, fun _ => ⟨rfl, fun _ _ absurd => by contradiction⟩⟩
    · obtain ⟨f, found, _, remembers⟩ := later rest batch older tail r member
      exact ⟨f, found, remembers⟩

end Versioning

end ProxyPilot.Versions
