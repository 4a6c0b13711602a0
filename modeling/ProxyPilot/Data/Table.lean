import Mathlib.Data.List.Nodup
import Mathlib.Data.List.Pairwise

namespace ProxyPilot.Data

/-! # Keyed record tables

A table is a list of records in insertion order whose keys are distinct.
Writing a record replaces the one with its key in place and otherwise appends,
which is what `INSERT … ON CONFLICT DO UPDATE` does to a table read back in
row order.
-/

class Keyed (α : Type u) (κ : outParam (Type v)) where
  key : α → κ

variable {α : Type u} {κ : Type v} [Keyed α κ]

structure Table (α : Type u) {κ : Type v} [Keyed α κ] where
  rows : List α
  distinct : (rows.map Keyed.key).Nodup

namespace Table

open Keyed

def empty : Table α := ⟨[], by simp⟩

instance : EmptyCollection (Table α) := ⟨empty⟩

variable {table : Table α} {row : α} {k : κ}

theorem key_injective {left right : α} (leftMember : left ∈ table.rows)
    (rightMember : right ∈ table.rows) (same : key left = key right) : left = right :=
  List.inj_on_of_nodup_map table.distinct leftMember rightMember same

variable [DecidableEq κ]

def get (table : Table α) (k : κ) : Option α := table.rows.find? (key · = k)

private def replaced (rows : List α) (row : α) : List α :=
  rows.map fun old => if key old = key row then row else old

private theorem replaced_keys (rows : List α) (row : α) :
    (replaced rows row).map key = rows.map key := by
  simp only [replaced, List.map_map]
  refine List.map_congr_left fun old _ => ?_
  by_cases same : key old = key row <;> simp [same]

def put (table : Table α) (row : α) : Table α :=
  if present : ∃ old ∈ table.rows, key old = key row then
    ⟨replaced table.rows row, by rw [replaced_keys]; exact table.distinct⟩
  else
    ⟨table.rows ++ [row], by
      have fresh : key row ∉ table.rows.map key := by simpa using present
      simpa [List.nodup_append, table.distinct] using fun old member same =>
        fresh (List.mem_map.mpr ⟨old, member, same⟩)⟩

def erase (table : Table α) (k : κ) : Table α where
  rows := table.rows.filter (key · ≠ k)
  distinct := table.distinct.sublist (List.filter_sublist.map _)

@[simp] theorem get_empty (k : κ) : (∅ : Table α).get k = none := rfl

theorem get_key (found : table.get k = some row) :
    key row = k := by
  simpa using List.find?_some found

theorem get_mem (found : table.get k = some row) :
    row ∈ table.rows := List.mem_of_find?_eq_some found

theorem get_eq_some_iff :
    table.get k = some row ↔ row ∈ table.rows ∧ key row = k := by
  constructor
  · exact fun found => ⟨get_mem found, get_key found⟩
  · rintro ⟨member, rfl⟩
    cases found : table.get (key row) with
    | none =>
      have absent := List.find?_eq_none.mp found row member
      simp at absent
    | some other => rw [key_injective (get_mem found) member (get_key found)]

theorem get_of_mem (member : row ∈ table.rows) :
    table.get (key row) = some row := get_eq_some_iff.mpr ⟨member, rfl⟩

theorem get_eq_none_iff :
    table.get k = none ↔ ∀ row ∈ table.rows, key row ≠ k := by
  simp [get]

theorem mem_put {row other : α} :
    other ∈ (table.put row).rows ↔ other = row ∨ (other ∈ table.rows ∧ key other ≠ key row) := by
  unfold put
  split
  case isTrue present =>
    simp only [replaced, List.mem_map]
    constructor
    · rintro ⟨old, member, rfl⟩
      by_cases same : key old = key row
      · simp [same]
      · simp [same, member]
    · rintro (rfl | ⟨member, different⟩)
      · obtain ⟨old, member, same⟩ := present
        exact ⟨old, member, by simp [same]⟩
      · exact ⟨other, member, by simp [different]⟩
  case isFalse absent =>
    simp only [List.mem_append, List.mem_singleton]
    constructor
    · rintro (member | rfl)
      · exact Or.inr ⟨member, fun same => absent ⟨other, member, same⟩⟩
      · exact Or.inl rfl
    · rintro (rfl | ⟨member, _⟩)
      · exact Or.inr rfl
      · exact Or.inl member

@[simp] theorem get_put_self (table : Table α) (row : α) :
    (table.put row).get (key row) = some row :=
  get_eq_some_iff.mpr ⟨mem_put.mpr (Or.inl rfl), rfl⟩

theorem get_put_other (table : Table α) (different : k ≠ key row) :
    (table.put row).get k = table.get k := by
  apply Option.ext
  intro other
  simp only [get_eq_some_iff, mem_put]
  constructor
  · rintro ⟨rfl | ⟨member, _⟩, same⟩
    · exact absurd same.symm different
    · exact ⟨member, same⟩
  · rintro ⟨member, same⟩
    exact ⟨Or.inr ⟨member, same ▸ different⟩, same⟩

theorem get_put (table : Table α) (row : α) (k : κ) :
    (table.put row).get k = if k = key row then some row else table.get k := by
  by_cases same : k = key row
  · rw [if_pos same, same, get_put_self]
  · rw [if_neg same, get_put_other table same]

theorem get_erase (table : Table α) (erased k : κ) :
    (table.erase erased).get k = if k = erased then none else table.get k := by
  apply Option.ext
  intro row
  by_cases same : k = erased
  · simp only [get_eq_some_iff, erase, List.mem_filter, same, if_true]
    simp
  · simp only [get_eq_some_iff, erase, List.mem_filter, if_neg same]
    constructor
    · rintro ⟨⟨member, _⟩, named⟩
      exact ⟨member, named⟩
    · rintro ⟨member, named⟩
      exact ⟨⟨member, by simpa [named] using same⟩, named⟩

/-- Change every row, none its key. -/
def map (table : Table α) (change : α → α) (same : ∀ row, key (change row) = key row) : Table α :=
  ⟨table.rows.map change, by
    have keys : (table.rows.map change).map key = table.rows.map key := by
      rw [List.map_map]
      exact List.map_congr_left fun row _ => same row
    rw [keys]
    exact table.distinct⟩

theorem get_map (table : Table α) (change : α → α) (same : ∀ row, key (change row) = key row) (k : κ) :
    (table.map change same).get k = (table.get k).map change := by
  simp only [get, map, List.find?_map]
  congr 2
  funext row
  simp only [Function.comp, same]

/-- Keep the rows of a test. -/
def filter (table : Table α) (keeps : α → Bool) : Table α :=
  ⟨table.rows.filter keeps, table.distinct.sublist (List.filter_sublist.map _)⟩

theorem get_filter (table : Table α) (keeps : α → Bool) (k : κ) :
    (table.filter keeps).get k = (table.get k).filter keeps := by
  apply Option.ext
  intro row
  simp only [get_eq_some_iff, filter, List.mem_filter, Option.filter_eq_some_iff]
  exact and_right_comm

/-- A new key appends; nothing else of the table moves. -/
theorem rows_put_new (fresh : table.get (key row) = none) :
    (table.put row).rows = table.rows ++ [row] := by
  have absent : ¬ ∃ old ∈ table.rows, key old = key row := by
    simpa using get_eq_none_iff.mp fresh
  rw [put, dif_neg absent]

/-- A known key is replaced in place. -/
theorem rows_put_old {old row : α} (found : table.get (key row) = some old) :
    (table.put row).rows = table.rows.map fun other => if key other = key row then row else other := by
  have present : ∃ old ∈ table.rows, key old = key row := ⟨old, get_mem found, get_key found⟩
  rw [put, dif_pos present]
  rfl

/-- Replacing a row by one that counts the same leaves the count. -/
theorem countP_put {old row : α} {counts : α → Bool} (found : table.get (key row) = some old)
    (same : counts row = counts old) : (table.put row).rows.countP counts = table.rows.countP counts := by
  have present : ∃ old ∈ table.rows, key old = key row := ⟨old, get_mem found, get_key found⟩
  rw [put, dif_pos present]
  simp only [replaced, List.countP_map]
  refine List.countP_congr fun other member => ?_
  by_cases named : key other = key row
  · have one : other = old := key_injective member (get_mem found) (named.trans (get_key found).symm)
    simp [one, get_key found, same]
  · simp [named]

/-- Replacing a row by one that shows the same leaves what the table shows. -/
theorem map_put {β : Type w} {old row : α} {shows : α → β} (found : table.get (key row) = some old)
    (same : shows row = shows old) : (table.put row).rows.map shows = table.rows.map shows := by
  have present : ∃ old ∈ table.rows, key old = key row := ⟨old, get_mem found, get_key found⟩
  rw [put, dif_pos present]
  simp only [replaced, List.map_map]
  refine List.map_congr_left fun other member => ?_
  by_cases named : key other = key row
  · have one : other = old := key_injective member (get_mem found) (named.trans (get_key found).symm)
    simp [one, get_key found, same]
  · simp [named]

/-- Every row is still there, changed inside the relation. -/
def Grows (relates : α → α → Prop) (before after : Table α) : Prop :=
  ∀ k row, before.get k = some row → ∃ row', after.get k = some row' ∧ relates row row'

section Grows

variable {relates : α → α → Prop} {before middle after : Table α}

theorem Grows.refl (refl : ∀ row, relates row row) (table : Table α) : Grows relates table table :=
  fun _ row found => ⟨row, found, refl row⟩

theorem Grows.trans (trans : ∀ {x y z}, relates x y → relates y z → relates x z)
    (first : Grows relates before middle) (second : Grows relates middle after) : Grows relates before after := by
  intro k row found
  obtain ⟨row', found', inside⟩ := first k row found
  obtain ⟨row'', found'', inside'⟩ := second k row' found'
  exact ⟨row'', found'', trans inside inside'⟩

theorem Grows.put (refl : ∀ row, relates row row) {row : α}
    (replaces : ∀ old, before.get (key row) = some old → relates old row) :
    Grows relates before (before.put row) := by
  intro k old found
  rw [get_put]
  by_cases same : k = key row
  · rw [if_pos same]
    exact ⟨row, rfl, replaces old (same ▸ found)⟩
  · rw [if_neg same]
    exact ⟨old, found, refl old⟩

theorem Grows.map (change : α → α) (same : ∀ row, key (change row) = key row)
    (changes : ∀ row ∈ before.rows, relates row (change row)) : Grows relates before (before.map change same) := by
  intro k row found
  exact ⟨change row, by rw [get_map, found]; rfl, changes row (get_mem found)⟩

theorem Grows.put_new (refl : ∀ row, relates row row) {row : α} (fresh : before.get (key row) = none) :
    Grows relates before (before.put row) :=
  .put refl fun old found => by
    rw [fresh] at found
    contradiction

end Grows

theorem all_put {holds : α → Prop} (rest : ∀ other ∈ table.rows, holds other)
    (new : holds row) : ∀ other ∈ (table.put row).rows, holds other := by
  intro other member
  cases mem_put.mp member with
  | inl same => exact same ▸ new
  | inr old => exact rest other old.1

omit [DecidableEq κ] in
theorem mem_map {change : α → α} {same : ∀ row, key (change row) = key row} :
    row ∈ (table.map change same).rows ↔ ∃ old ∈ table.rows, change old = row := List.mem_map

omit [DecidableEq κ] in
theorem all_map (change : α → α) (same : ∀ row, key (change row) = key row) {holds : α → Prop}
    (each : ∀ row ∈ table.rows, holds (change row)) : ∀ row ∈ (table.map change same).rows, holds row := by
  intro row member
  obtain ⟨old, stored, rfl⟩ := mem_map.mp member
  exact each old stored

end Table

end ProxyPilot.Data
