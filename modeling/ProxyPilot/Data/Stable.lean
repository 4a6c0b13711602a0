namespace ProxyPilot.Data

/-! # Stable sorting by a key

Sorted lists with the same elements of every key, in the same order, are the same; so a
stable sort commutes with a filter.
-/

section Stable

variable {α : Type u} {κ : Type v} {key : α → κ} {le : κ → κ → Bool}

def Ordered (key : α → κ) (le : κ → κ → Bool) (list : List α) : Prop :=
  list.Pairwise fun a b => le (key a) (key b) = true

variable (antisymm : ∀ a b, le a b = true → le b a = true → a = b)

include antisymm in
theorem eq_of_ordered [DecidableEq κ] (total : ∀ a b, (le a b || le b a) = true)
    {left right : List α} (first : Ordered key le left) (second : Ordered key le right)
    (same : ∀ k, left.filter (key · = k) = right.filter (key · = k)) : left = right := by
  have refl : ∀ k, le k k = true := fun k => by simpa using total k k
  have least : ∀ {a b : α} {as bs : List α}, Ordered key le (a :: as) →
      (a :: as).filter (key · = key b) = (b :: bs).filter (key · = key b) →
      le (key a) (key b) = true := by
    intro a b as bs ordered same
    have listed : b ∈ (a :: as).filter (key · = key b) := by
      rw [same]
      simp
    rcases List.mem_cons.mp (List.mem_filter.mp listed).1 with rfl | member
    · exact refl _
    · exact (List.pairwise_cons.mp ordered).1 b member
  induction left generalizing right with
  | nil =>
    cases right with
    | nil => rfl
    | cons b bs => simpa using same (key b)
  | cons a as ih =>
    cases right with
    | nil => simpa using same (key a)
    | cons b bs =>
      have keys : key a = key b := antisymm _ _ (least first (same (key b))) (least second (same (key a)).symm)
      have heads := same (key b)
      simp only [List.filter_cons, keys, decide_true, if_true, List.cons.injEq] at heads
      obtain ⟨rfl, _⟩ := heads
      have tails := ih (List.pairwise_cons.mp first).2 (List.pairwise_cons.mp second).2 fun k => by
        have whole := same k
        simp only [List.filter_cons] at whole
        split at whole
        · exact (List.cons.inj whole).2
        · exact whole
      rw [tails]

variable (trans : ∀ a b c, le a b = true → le b c = true → le a c = true) (total : ∀ a b, (le a b || le b a) = true)

def sortBy (key : α → κ) (le : κ → κ → Bool) (list : List α) : List α :=
  list.mergeSort fun a b => le (key a) (key b)

include trans total in
theorem ordered_sortBy (list : List α) : Ordered key le (sortBy key le list) :=
  List.pairwise_mergeSort (fun a b c => trans (key a) (key b) (key c)) (fun a b => total (key a) (key b)) list

theorem sorted_sortBy (key : α → Nat) (list : List α) :
    (sortBy key (fun a b => a ≤ b) list).Pairwise fun a b => key a ≤ key b := by
  have trans : ∀ a b c : Nat, decide (a ≤ b) = true → decide (b ≤ c) = true → decide (a ≤ c) = true := by
    intro a b c first second
    simp only [decide_eq_true_eq] at first second ⊢
    omega
  have total : ∀ a b : Nat, (decide (a ≤ b) || decide (b ≤ a)) = true := by
    intro a b
    simp only [Bool.or_eq_true, decide_eq_true_eq]
    omega
  exact (ordered_sortBy trans total list).imp of_decide_eq_true

/-- Elements of one key keep their order. -/
theorem filter_sortBy [DecidableEq κ] (trans : ∀ a b c, le a b = true → le b c = true →
    le a c = true) (total : ∀ a b, (le a b || le b a) = true)
    (list : List α) (k : κ) : (sortBy key le list).filter (key · = k) = list.filter (key · = k) := by
  have refl : ∀ k, le k k = true := fun k => by simpa using total k k
  have ordered : (list.filter (key · = k)).Pairwise fun a b => le (key a) (key b) = true := by
    refine List.pairwise_of_forall_mem_list fun a first b second => ?_
    have left : key a = k := by simpa using (List.mem_filter.mp first).2
    have right : key b = k := by simpa using (List.mem_filter.mp second).2
    rw [left, right]
    exact refl k
  have inside : (list.filter (key · = k)).Sublist (list.mergeSort fun a b => le (key a) (key b)) :=
    List.sublist_mergeSort (fun a b c => trans (key a) (key b) (key c)) (fun a b => total (key a) (key b)) ordered
      List.filter_sublist
  have again := inside.filter (key · = k)
  rw [List.filter_filter] at again
  simp only [Bool.and_self] at again
  refine (again.eq_of_length ?_).symm
  exact ((List.mergeSort_perm list _).filter _).length_eq.symm

include antisymm trans total in
/-- A stable sort of a part is that part of the sorted list. -/
theorem sortBy_filter [DecidableEq κ] (keep : α → Bool) (list : List α) :
    sortBy key le (list.filter keep) = (sortBy key le list).filter keep := by
  refine eq_of_ordered antisymm total (ordered_sortBy trans total _)
    ((ordered_sortBy trans total list).filter _) fun k => ?_
  rw [filter_sortBy trans total, List.filter_filter, List.filter_filter]
  have swap : ∀ rest : List α, rest.filter (fun a => decide (key a = k) && keep a) =
      (rest.filter (key · = k)).filter keep := by
    intro rest
    rw [List.filter_filter]
    exact List.filter_congr fun a _ => Bool.and_comm _ _
  rw [swap, swap, filter_sortBy trans total]

end Stable

end ProxyPilot.Data
