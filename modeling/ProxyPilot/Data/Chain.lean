namespace ProxyPilot.Data

/-! # Hash chains

Each entry carries the hash of the one before it and the hash of its own body.  Where two chains
carry one hash at one place, they agree from the start up to there.
-/

/-- What the entries of a chain are made of; the body decides the hash in front. -/
structure ChainOf (α β η : Type) where
  good : α → Prop
  body : α → β
  previous : α → η
  hash : α → η
  digest : β → η
  previous_of_body : ∀ a b, good a → good b → body a = body b → previous a = previous b

namespace ChainOf

variable {α β η : Type}

def Linked (chain : ChainOf α β η) (start : η) : List α → Prop
  | [] => True
  | a :: rest =>
    chain.good a ∧ chain.previous a = start ∧ chain.hash a = chain.digest (chain.body a) ∧
      Linked chain (chain.hash a) rest

/-- No two of the bodies have one hash. -/
def NoCollision (chain : ChainOf α β η) (bodies : List β) : Prop :=
  ∀ a ∈ bodies, ∀ b ∈ bodies, chain.digest a = chain.digest b → a = b

variable {chain : ChainOf α β η} {start : η} {entries others : List α}

theorem linked_append : chain.Linked start (entries ++ others) ↔
    chain.Linked start entries ∧ chain.Linked ((entries.getLast?.map chain.hash).getD start) others := by
  induction entries generalizing start with
  | nil => simp [Linked]
  | cons a entries ih =>
    simp only [List.cons_append, Linked, ih, and_assoc]
    cases entries with
    | nil => simp
    | cons next entries =>
      rw [List.getLast?_cons_cons, List.getLast?_eq_some_getLast (List.cons_ne_nil next entries)]
      rfl

variable {i : Nat} {a : α}

theorem linked_hash (linked : chain.Linked start entries) (found : entries[i]? = some a) :
    chain.hash a = chain.digest (chain.body a) := by
  induction entries generalizing start i with
  | nil => cases found
  | cons first entries ih =>
    cases i with
    | zero =>
      rw [List.getElem?_cons_zero, Option.some.injEq] at found
      exact found ▸ linked.2.2.1
    | succ i => exact ih linked.2.2.2 found

theorem linked_good (linked : chain.Linked start entries) (found : entries[i]? = some a) : chain.good a := by
  induction entries generalizing start i with
  | nil => cases found
  | cons first entries ih =>
    cases i with
    | zero =>
      rw [List.getElem?_cons_zero, Option.some.injEq] at found
      exact found ▸ linked.1
    | succ i => exact ih linked.2.2.2 found

theorem linked_previous (linked : chain.Linked start entries) {a b : α}
    (found : entries[i]? = some a) (next : entries[i + 1]? = some b) :
    chain.previous b = chain.hash a := by
  induction entries generalizing start i with
  | nil => cases found
  | cons first entries ih =>
    cases i with
    | zero =>
      rw [List.getElem?_cons_zero, Option.some.injEq] at found
      subst found
      cases entries with
      | nil => cases next
      | cons second entries =>
        rw [List.getElem?_cons_succ, List.getElem?_cons_zero, Option.some.injEq] at next
        exact next ▸ linked.2.2.2.2.1
    | succ i => exact ih linked.2.2.2 found next

theorem mem_bodies (found : entries[i]? = some a) : chain.body a ∈ entries.map chain.body :=
  List.mem_map_of_mem (List.mem_of_getElem? found)

/-- One hash at one place: one body at each place up to there. -/
theorem agree_of_hash (linked : chain.Linked start entries) (linked' : chain.Linked start others)
    (free : chain.NoCollision (entries.map chain.body ++ others.map chain.body)) {a b : α}
    (found : entries[i]? = some a)
    (found' : others[i]? = some b) (same : chain.hash a = chain.hash b) :
    ∀ j ≤ i, (entries[j]?).map chain.body = (others[j]?).map chain.body := by
  induction i generalizing a b with
  | zero =>
    intro j le
    rw [linked_hash linked found, linked_hash linked' found'] at same
    have bodies :=
      free _ (List.mem_append_left _ (mem_bodies found)) _ (List.mem_append_right _ (mem_bodies found')) same
    rw [Nat.le_zero.mp le, found, found', Option.map_some, Option.map_some, bodies]
  | succ i ih =>
    intro j le
    rw [linked_hash linked found, linked_hash linked' found'] at same
    have bodies :=
      free _ (List.mem_append_left _ (mem_bodies found)) _ (List.mem_append_right _ (mem_bodies found')) same
    rcases Nat.lt_or_ge i j with later | before
    · rw [Nat.le_antisymm le later, found, found', Option.map_some, Option.map_some, bodies]
    · have below := (List.getElem?_eq_some_iff.mp found).1
      have below' := (List.getElem?_eq_some_iff.mp found').1
      have front : entries[i]? = some entries[i] := List.getElem?_eq_getElem (by omega)
      have front' : others[i]? = some others[i] := List.getElem?_eq_getElem (by omega)
      refine ih front front' ?_ j before
      rw [← linked_previous linked front found, ← linked_previous linked' front' found']
      exact chain.previous_of_body _ _ (linked_good linked found) (linked_good linked' found') bodies

/-- Up to some place two lists of bodies agree, and there they no longer do, or one has ended. -/
theorem agree_up_to (f : Nat → Option β) (g : Nat → Option β) (most : Nat) :
    ∃ k ≤ most, (∀ j < k, f j = g j) ∧ (k = most ∨ f k ≠ g k) := by
  induction most with
  | zero => exact ⟨0, Nat.le_refl 0, fun j less => absurd less (Nat.not_lt_zero j), .inl rfl⟩
  | succ most ih =>
    obtain ⟨k, le, agree, ends | other⟩ := ih
    · subst ends
      by_cases same : f k = g k
      · refine ⟨k + 1, Nat.le_refl _, fun j less => ?_, .inl rfl⟩
        rcases Nat.lt_or_eq_of_le (Nat.le_of_lt_succ less) with below | rfl
        · exact agree j below
        · exact same
      · exact ⟨k, Nat.le_succ k, agree, .inr same⟩
    · exact ⟨k, Nat.le_succ_of_le le, agree, .inr other⟩

/-- Two chains agree in front, and behind it they have no hash in common at any place. -/
theorem agree_then_diverge (linked : chain.Linked start entries) (linked' : chain.Linked start others)
    (free : chain.NoCollision (entries.map chain.body ++ others.map chain.body)) :
    ∃ k, k ≤ entries.length ∧ k ≤ others.length ∧
      (∀ j < k, (entries[j]?).map chain.body = (others[j]?).map chain.body) ∧
      ∀ i ≥ k, ∀ a b, entries[i]? = some a → others[i]? = some b → chain.hash a ≠ chain.hash b := by
  obtain ⟨k, le, agree, ends⟩ := agree_up_to (fun j => (entries[j]?).map chain.body)
    (fun j => (others[j]?).map chain.body) (min entries.length others.length)
  refine ⟨k, by omega, by omega, agree, fun i behind a b found found' same => ?_⟩
  have both := agree_of_hash linked linked' free found found' same
  rcases ends with ends | other
  · have below := (List.getElem?_eq_some_iff.mp found).1
    have below' := (List.getElem?_eq_some_iff.mp found').1
    omega
  · exact other (both k behind)

/-- Every entry fits the place it stands at. -/
def Placed (fits : Nat → α → Prop) (entries : List α) : Prop :=
  ∀ i a, entries[i]? = some a → fits i a

theorem placed_snoc {fits : Nat → α → Prop} (before : Placed fits entries)
    (last : fits entries.length a) : Placed fits (entries ++ [a]) := by
  intro i found there
  rw [List.getElem?_append] at there
  split at there
  · exact before i found there
  · next behind =>
      obtain ⟨place, rfl⟩ := List.getElem?_eq_some_iff.mp there
      rw [List.length_singleton] at place
      rw [List.getElem_singleton, show i = entries.length by omega]
      exact last

/-- Where the body says the place, no entry behind the common front has the hash of any entry of
the other chain. -/
theorem agree_then_apart (linked : chain.Linked start entries) (linked' : chain.Linked start others)
    (free : chain.NoCollision (entries.map chain.body ++ others.map chain.body))
    {fits fits' : Nat → α → Prop} (placed : Placed fits entries) (placed' : Placed fits' others)
    (one : ∀ i j a b, chain.good a → chain.good b → chain.body a = chain.body b → fits i a →
      fits' j b → i = j) :
    ∃ k, k ≤ entries.length ∧ k ≤ others.length ∧
      (∀ j < k, (entries[j]?).map chain.body = (others[j]?).map chain.body) ∧
      ∀ j ≥ k, ∀ b, others[j]? = some b → ∀ a ∈ entries, chain.hash a ≠ chain.hash b := by
  obtain ⟨k, le, le', agree, differ⟩ := agree_then_diverge linked linked' free
  refine ⟨k, le, le', agree, fun j behind b found' a member same => ?_⟩
  obtain ⟨i, found⟩ := List.mem_iff_getElem?.mp member
  have hashes := same
  rw [linked_hash linked found, linked_hash linked' found'] at hashes
  have bodies := free _ (List.mem_append_left _ (mem_bodies found)) _
    (List.mem_append_right _ (mem_bodies found')) hashes
  obtain rfl : i = j := one i j a b (linked_good linked found) (linked_good linked' found') bodies
    (placed i a found) (placed' j b found')
  exact differ i behind a b found found' same

end ChainOf

end ProxyPilot.Data
