import Mathlib.Algebra.GroupWithZero.Nat
import Mathlib.Data.List.Forall2
import ProxyPilot.Data.Table

namespace ProxyPilot.Data.Table

open Keyed

variable {α : Type u} {κ : Type v} [Keyed α κ]

def total (weigh : α → Nat) (table : Table α) : Nat := (table.rows.map weigh).sum

def count (counts : α → Bool) (table : Table α) : Nat := table.rows.countP counts

/-- The rows of the second table are those of the first, each changed inside the relation. -/
def Rowwise (relates : α → α → Prop) (before after : Table α) : Prop := List.Forall₂ relates before.rows after.rows

section Rowwise

variable {relates : α → α → Prop} {before middle after : Table α} {k : κ} {old new : α}

theorem Rowwise.refl (refl : ∀ row, relates row row) (table : Table α) : Rowwise relates table table :=
  List.forall₂_same.mpr fun row _ => refl row

variable {first second third : List α}

omit [Keyed α κ] in
private theorem forall₂_trans (trans : ∀ {x y z}, relates x y → relates y z → relates x z)
    (left : List.Forall₂ relates first second) (right : List.Forall₂ relates second third) :
    List.Forall₂ relates first third := by
  induction left generalizing third with
  | nil => exact right
  | cons inside _ ih =>
    cases right with
    | cons inside' rest => exact .cons (trans inside inside') (ih rest)

theorem Rowwise.trans (trans : ∀ {x y z}, relates x y → relates y z → relates x z)
    (left : Rowwise relates before middle)
    (right : Rowwise relates middle after) : Rowwise relates before after :=
  forall₂_trans trans left right

theorem Rowwise.map (change : α → α) (same : ∀ row, key (change row) = key row)
    (changes : ∀ row ∈ before.rows, relates row (change row)) :
    Rowwise relates before (before.map change same) :=
  List.forall₂_map_right_iff.mpr (List.forall₂_same.mpr changes)

theorem Rowwise.imp {wider : α → α → Prop} (weakens : ∀ old new, relates old new → wider old new)
    (rows : Rowwise relates before after) :
    Rowwise wider before after :=
  List.Forall₂.imp weakens rows

omit [Keyed α κ] in
private theorem forall₂_sum_le {weigh : α → Nat} (lighter : ∀ old new, relates old new → weigh new ≤ weigh old)
    (rows : List.Forall₂ relates first second) : (second.map weigh).sum ≤ (first.map weigh).sum := by
  induction rows with
  | nil => exact Nat.le_refl _
  | cons inside _ ih =>
    simp only [List.map_cons, List.sum_cons]
    exact Nat.add_le_add (lighter _ _ inside) ih

theorem Rowwise.total_le {weigh : α → Nat} (lighter : ∀ old new, relates old new → weigh new ≤ weigh old)
    (rows : Rowwise relates before after) : after.total weigh ≤ before.total weigh :=
  forall₂_sum_le lighter rows

omit [Keyed α κ] in
private theorem forall₂_countP_le {counts : α → Bool}
    (fewer : ∀ old new, relates old new → counts new = true → counts old = true)
    (rows : List.Forall₂ relates first second) : second.countP counts ≤ first.countP counts := by
  induction rows with
  | nil => exact Nat.le_refl _
  | @cons old new _ _ inside _ ih =>
    rw [List.countP_cons, List.countP_cons]
    refine Nat.add_le_add ih ?_
    by_cases counted : counts new = true
    · simp [counted, fewer old new inside counted]
    · simp [counted]

theorem Rowwise.count_le {counts : α → Bool}
    (fewer : ∀ old new, relates old new → counts new = true → counts old = true)
    (rows : Rowwise relates before after) : after.count counts ≤ before.count counts :=
  forall₂_countP_le fewer rows

omit [Keyed α κ] in
private theorem forall₂_mem (rows : List.Forall₂ relates first second) (member : new ∈ second) :
    ∃ old ∈ first, relates old new := by
  induction rows with
  | nil => contradiction
  | @cons row changed _ _ inside _ ih =>
    rcases List.mem_cons.mp member with rfl | later
    · exact ⟨row, List.mem_cons_self, inside⟩
    · obtain ⟨old, stored, related⟩ := ih later
      exact ⟨old, List.mem_cons_of_mem _ stored, related⟩

theorem Rowwise.mem (rows : Rowwise relates before after) (member : new ∈ after.rows) :
    ∃ old ∈ before.rows, relates old new :=
  forall₂_mem rows member

variable [DecidableEq κ]

private theorem find_forall₂ {first second : List α} (keys : ∀ old new, relates old new → key new = key old)
    (rows : List.Forall₂ relates first second) :
    Option.Rel relates (first.find? (key · = k)) (second.find? (key · = k)) := by
  induction rows with
  | nil => exact .none
  | @cons old new _ _ inside _ ih =>
    by_cases here : key old = k
    · simpa [List.find?_cons, here, keys old new inside] using Option.Rel.some inside
    · simpa [List.find?_cons, here, keys old new inside] using ih

theorem Rowwise.get (keys : ∀ old new, relates old new → key new = key old)
    (rows : Rowwise relates before after) (k : κ) :
    Option.Rel relates (before.get k) (after.get k) :=
  find_forall₂ keys rows

theorem Rowwise.forth (keys : ∀ old new, relates old new → key new = key old) (rows : Rowwise relates before after)
    (found : before.get k = some old) : ∃ new, after.get k = some new ∧ relates old new := by
  have both := rows.get keys k
  rw [found] at both
  cases both' : after.get k with
  | none =>
    rw [both'] at both
    contradiction
  | some new =>
    rw [both'] at both
    cases both with
    | some inside => exact ⟨new, rfl, inside⟩

end Rowwise

omit [Keyed α κ] in
private theorem sum_eq_zero {weigh : α → Nat} {rows : List α}
    (light : ∀ row ∈ rows, weigh row = 0) : (rows.map weigh).sum = 0 := by
  induction rows with
  | nil => rfl
  | cons row rest ih =>
    obtain ⟨first, others⟩ := List.forall_mem_cons.mp light
    rw [List.map_cons, List.sum_cons, first, ih others]

theorem total_eq_zero {weigh : α → Nat} {table : Table α}
    (light : ∀ row ∈ table.rows, weigh row = 0) : table.total weigh = 0 :=
  sum_eq_zero light

variable [DecidableEq κ] {table : Table α} {row : α}

theorem total_put_new (weigh : α → Nat) (fresh : table.get (key row) = none) :
    (table.put row).total weigh = table.total weigh + weigh row := by
  simp [total, rows_put_new fresh]

theorem count_put_new (counts : α → Bool) (fresh : table.get (key row) = none) :
    (table.put row).count counts = table.count counts + if counts row = true then 1 else 0 := by
  simp [count, rows_put_new fresh, List.countP_append, List.countP_singleton]

private theorem sum_replaced (weigh : α → Nat) {old row : α} {rows : List α}
    (distinct : (rows.map key).Nodup) (member : old ∈ rows)
    (same : key old = key row) :
    ((rows.map fun other => if key other = key row then row else other).map weigh).sum +
      weigh old = (rows.map weigh).sum + weigh row := by
  induction rows with
  | nil => contradiction
  | cons first rest ih =>
    obtain ⟨unlike, distinct⟩ := List.nodup_cons.mp distinct
    simp only [List.map_cons, List.sum_cons]
    rcases List.mem_cons.mp member with rfl | later
    · have kept : (rest.map fun other => if key other = key row then row else other) = rest := by
        conv_rhs => rw [← List.map_id rest]
        refine List.map_congr_left fun other later => if_neg fun equal => ?_
        exact unlike (List.mem_map.mpr ⟨other, later, equal.trans same.symm⟩)
      rw [if_pos same, kept]
      omega
    · have other : key first ≠ key row := fun equal => unlike (List.mem_map.mpr ⟨old, later, same.trans equal.symm⟩)
      rw [if_neg other]
      have inner := ih distinct later
      omega

/-- Writing a row adds it and takes the row it replaces. -/
theorem total_put (weigh : α → Nat) (table : Table α) (row : α) :
    (table.put row).total weigh + ((table.get (key row)).map weigh).getD 0 = table.total weigh + weigh row := by
  cases found : table.get (key row) with
  | none => rw [total_put_new weigh found]; rfl
  | some old =>
    unfold total
    rw [rows_put_old found]
    exact sum_replaced weigh table.distinct (get_mem found) (get_key found)

end ProxyPilot.Data.Table
