import Mathlib.Data.List.Induction
import Mathlib.Data.List.Nodup

namespace ProxyPilot.Data

/-! # Laws of a history

A history is a list that grows at its end. A law relates each entry to the
entries before it.
-/

variable {α : Type u}

/-- Every entry obeys the law, given what came before it. -/
def Obeys (law : List α → α → Prop) (history : List α) : Prop :=
  ∀ before entry after, history = before ++ entry :: after → law before entry

variable {law : List α → α → Prop} {history : List α} {entry : α}

theorem Obeys.nil : Obeys law [] := by
  intro before entry after split
  simp at split

variable {before after : List α} {other : α}

/-- An entry of a history that grew by one is the new one or was there before. -/
theorem snoc_split (split : history ++ [entry] = before ++ other :: after) :
    (before = history ∧ other = entry ∧ after = []) ∨
      ∃ rest, after = rest ++ [entry] ∧ history = before ++ other :: rest := by
  rcases List.eq_nil_or_concat after with rfl | ⟨rest, last, rfl⟩
  · obtain ⟨same, last⟩ := List.append_inj' split rfl
    exact .inl ⟨same.symm, (List.head_eq_of_cons_eq last).symm, rfl⟩
  · have inner : history ++ [entry] = (before ++ other :: rest) ++ [last] := by simpa using split
    obtain ⟨same, ends⟩ := List.append_inj' inner rfl
    exact .inr ⟨rest, by rw [List.head_eq_of_cons_eq ends, List.concat_eq_append], same⟩

theorem Obeys.snoc (obeys : Obeys law history) (next : law history entry) : Obeys law (history ++ [entry]) := by
  intro before other after split
  rcases snoc_split split with ⟨rfl, rfl, _⟩ | ⟨rest, _, inner⟩
  · exact next
  · exact obeys before other rest inner

/-- Entries that obey the law whatever came before. -/
theorem Obeys.append {more : List α} (obeys : Obeys law history)
    (free : ∀ entry ∈ more, ∀ before, law before entry) :
    Obeys law (history ++ more) := by
  induction more generalizing history with
  | nil => simpa using obeys
  | cons entry rest ih =>
    obtain ⟨first, others⟩ := List.forall_mem_cons.mp free
    have longer := ih (obeys.snoc (first history)) others
    rwa [List.append_assoc] at longer

theorem Obeys.middle (obeys : Obeys law (before ++ entry :: after)) : law before entry :=
  obeys before entry after rfl

theorem Obeys.of_mem (obeys : Obeys law history) (member : entry ∈ history) :
    ∃ before, before ⊆ history ∧ law before entry := by
  obtain ⟨before, after, split⟩ := List.append_of_mem member
  exact ⟨before, split ▸ List.subset_append_left before _, obeys before entry after split⟩

/-- Two entries, one of which obeys the law with the other before it. -/
theorem Obeys.ordered (obeys : Obeys law history) (member : entry ∈ history) (member' : other ∈ history)
    (different : entry ≠ other) :
    (∃ before, other ∈ before ∧ law before entry) ∨ ∃ before, entry ∈ before ∧ law before other := by
  obtain ⟨before, after, rfl⟩ := List.append_of_mem member
  rcases List.mem_append.mp member' with earlier | later
  · exact .inl ⟨before, earlier, obeys.middle⟩
  · rcases List.mem_cons.mp later with same | inside
    · exact absurd same.symm different
    · obtain ⟨middle, rest, rfl⟩ := List.append_of_mem inside
      refine .inr ⟨before ++ entry :: middle, List.mem_append_right _ List.mem_cons_self, ?_⟩
      exact obeys _ other rest (by rw [List.append_assoc, List.cons_append])

/-- Names that no earlier entry has are distinct. -/
theorem Obeys.distinct {β : Type v} {name : α → Option β} (obeys : Obeys law history)
    (new : ∀ before entry named, law before entry → name entry = some named → named ∉ before.filterMap name) :
    (history.filterMap name).Nodup := by
  induction history using List.reverseRecOn with
  | nil => exact List.nodup_nil
  | append_singleton earlier last ih =>
    have before : Obeys law earlier := fun first entry rest split =>
      obeys first entry (rest ++ [last]) (by rw [split, List.append_assoc, List.cons_append])
    rw [List.filterMap_append]
    cases named : name last with
    | none => simpa [named] using ih before
    | some found =>
      have absent := new earlier last found (obeys earlier last [] rfl) named
      simp only [List.filterMap_cons, named, List.filterMap_nil]
      refine List.nodup_append.mpr ⟨ih before, List.nodup_singleton _, fun other member last same => ?_⟩
      intro equal
      rw [equal, List.mem_singleton.mp same] at member
      exact absent member

/-- The entry is there, and only quiet entries came after it. -/
def Since (quiet : α → Prop) (entry : α) (history : List α) : Prop :=
  ∃ before after, history = before ++ entry :: after ∧ ∀ later ∈ after, quiet later

variable {quiet : α → Prop}

theorem Since.now : Since quiet entry (history ++ [entry]) := ⟨history, [], rfl, by simp⟩

theorem Since.mem (since : Since quiet entry history) : entry ∈ history := by
  obtain ⟨before, after, rfl, _⟩ := since
  exact List.mem_append_right _ List.mem_cons_self

theorem Since.snoc {last : α} (since : Since quiet entry history) (still : quiet last) :
    Since quiet entry (history ++ [last]) := by
  obtain ⟨before, after, rfl, later⟩ := since
  refine ⟨before, after ++ [last], by rw [List.append_assoc, List.cons_append], fun other member => ?_⟩
  rcases List.mem_append.mp member with old | new
  · exact later other old
  · exact List.mem_singleton.mp new ▸ still

end ProxyPilot.Data
