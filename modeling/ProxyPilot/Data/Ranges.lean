namespace ProxyPilot.Data

/-- A set of numbers as a list of ranges.  In a tidy list the ranges stand in order with a gap
between any two, and the set determines the list. -/
structure Range where
  first : Nat
  last : Nat
deriving DecidableEq

namespace Range

variable {range other : Range} {ranges others earlier : List Range} {n : Nat}

def Holds (range : Range) (n : Nat) : Prop := range.first ≤ n ∧ n ≤ range.last

def Covers (ranges : List Range) (n : Nat) : Prop := ∃ range ∈ ranges, range.Holds n

def Gap (range other : Range) : Prop := range.last + 1 < other.first

structure Tidy (ranges : List Range) : Prop where
  ordered : ∀ range ∈ ranges, range.first ≤ range.last
  apart : ranges.Pairwise Gap

@[simp] theorem covers_nil : Covers [] n ↔ False := by simp [Covers]

@[simp] theorem covers_cons : Covers (range :: ranges) n ↔ range.Holds n ∨ Covers ranges n := by simp [Covers]

@[simp] theorem covers_reverse : Covers ranges.reverse n ↔ Covers ranges n := by simp [Covers]

theorem covers_perm (same : ranges.Perm others) : Covers ranges n ↔ Covers others n := by
  simp only [Covers, same.mem_iff]

theorem tidy_nil : Tidy [] := ⟨fun _ member => absurd member List.not_mem_nil, .nil⟩

theorem Tidy.tail (tidy : Tidy (range :: ranges)) : Tidy ranges :=
  ⟨fun other member => tidy.ordered other (List.mem_cons_of_mem _ member), (List.pairwise_cons.mp tidy.apart).2⟩

theorem Tidy.head (tidy : Tidy (range :: ranges)) : range.first ≤ range.last :=
  tidy.ordered range List.mem_cons_self

/-- What the tail covers lies beyond the gap. -/
theorem Tidy.beyond (tidy : Tidy (range :: ranges)) (covered : Covers ranges n) : range.last + 1 < n := by
  obtain ⟨other, member, lower, _⟩ := covered
  have gap : range.last + 1 < other.first := (List.pairwise_cons.mp tidy.apart).1 other member
  omega

theorem Tidy.first_le (tidy : Tidy (range :: ranges)) (covered : Covers (range :: ranges) n) : range.first ≤ n := by
  have ordered := tidy.head
  rcases covers_cons.mp covered with inside | later
  · exact inside.1
  · have beyond := tidy.beyond later
    omega

theorem Tidy.covers_tail (tidy : Tidy (range :: ranges)) :
    Covers ranges n ↔ Covers (range :: ranges) n ∧ range.last < n := by
  constructor
  · intro covered
    have beyond := tidy.beyond covered
    exact ⟨covers_cons.mpr (Or.inr covered), by omega⟩
  · rintro ⟨covered, above⟩
    rcases covers_cons.mp covered with inside | later
    · exact absurd inside.2 (by omega)
    · exact later

theorem Tidy.head_eq (tidy : Tidy (range :: ranges)) (tidy' : Tidy (other :: others))
    (same : ∀ n, Covers (range :: ranges) n ↔ Covers (other :: others) n) : range = other := by
  have ordered := tidy.head
  have ordered' := tidy'.head
  have left : other.first ≤ range.first :=
    tidy'.first_le ((same _).mp (covers_cons.mpr (Or.inl ⟨Nat.le_refl _, ordered⟩)))
  have right : range.first ≤ other.first :=
    tidy.first_le ((same _).mpr (covers_cons.mpr (Or.inl ⟨Nat.le_refl _, ordered'⟩)))
  -- the number behind the shorter of the two is in neither
  have ends : ∀ {a b : Range} {as bs : List Range}, Tidy (a :: as) → a.first = b.first → b.first ≤ b.last →
      (∀ n, Covers (b :: bs) n → Covers (a :: as) n) → b.last ≤ a.last := by
    intro a b as bs tidy begins ordered covered
    refine Nat.le_of_not_lt fun longer => ?_
    have head := tidy.head
    have behind := covered (a.last + 1) (covers_cons.mpr (Or.inl ⟨by omega, longer⟩))
    rcases covers_cons.mp behind with inside | later
    · exact absurd inside.2 (by omega)
    · exact absurd (tidy.beyond later) (by omega)
  have begins : range.first = other.first := Nat.le_antisymm right left
  have shorter := ends tidy' begins.symm ordered fun n => (same n).mp
  have longer := ends tidy begins ordered' fun n => (same n).mpr
  cases range
  cases other
  simp only [Range.mk.injEq] at begins shorter longer ⊢
  omega

/-- Tidy lists that cover the same numbers are the same. -/
theorem Tidy.unique (tidy : Tidy ranges) (tidy' : Tidy others)
    (same : ∀ n, Covers ranges n ↔ Covers others n) : ranges = others := by
  induction ranges generalizing others with
  | nil =>
    cases others with
    | nil => rfl
    | cons other others =>
      exact absurd ((same other.first).mpr (covers_cons.mpr (Or.inl ⟨Nat.le_refl _, tidy'.head⟩))) (by simp)
  | cons range ranges ih =>
    cases others with
    | nil => exact absurd ((same range.first).mp (covers_cons.mpr (Or.inl ⟨Nat.le_refl _, tidy.head⟩))) (by simp)
    | cons other others =>
      obtain rfl := tidy.head_eq tidy' same
      rw [ih tidy.tail tidy'.tail fun n => by rw [tidy.covers_tail, tidy'.covers_tail, same]]

/-- Add a range to those so far, the last of which comes first. -/
def coalesce : List Range → Range → List Range
  | [], range => [range]
  | last :: earlier, range =>
    if last.last + 1 < range.first then range :: last :: earlier
      else ⟨last.first, max last.last range.last⟩ :: earlier

def coalesceAll (ranges : List Range) : List Range := (ranges.foldl coalesce []).reverse

example : coalesceAll [⟨1, 6⟩, ⟨2, 3⟩, ⟨7, 9⟩, ⟨20, 30⟩] = [⟨1, 9⟩, ⟨20, 30⟩] := by decide

/-- The ranges so far are tidy, and none of them starts behind `bound`. -/
structure Stacked (stack : List Range) (bound : Nat) : Prop where
  tidy : Tidy stack.reverse
  starts : ∀ range ∈ stack, range.first ≤ bound

theorem tidy_snoc (tidy : Tidy ranges) (ordered : range.first ≤ range.last)
    (gaps : ∀ other ∈ ranges, Gap other range) :
    Tidy (ranges ++ [range]) where
  ordered := by
    intro other member
    rcases List.mem_append.mp member with member | member
    · exact tidy.ordered other member
    · cases List.mem_singleton.mp member
      exact ordered
  apart := List.pairwise_append.mpr ⟨tidy.apart, List.pairwise_singleton _ _, fun other member last single => by
    cases List.mem_singleton.mp single
    exact gaps other member⟩

theorem tidy_of_snoc (tidy : Tidy (ranges ++ [range])) :
    Tidy ranges ∧ range.first ≤ range.last ∧ ∀ other ∈ ranges, Gap other range := by
  obtain ⟨apart, _, gaps⟩ := List.pairwise_append.mp tidy.apart
  exact ⟨⟨fun other member => tidy.ordered other (List.mem_append_left _ member), apart⟩,
    tidy.ordered range (List.mem_append_right _ List.mem_cons_self), fun other member =>
      gaps other member range List.mem_cons_self⟩

variable {stack : List Range} {bound : Nat}

theorem Stacked.coalesce (stacked : Stacked stack bound) (ordered : range.first ≤ range.last)
    (later : bound ≤ range.first) : Stacked (coalesce stack range) range.first := by
  cases stack with
  | nil =>
    refine ⟨tidy_snoc tidy_nil ordered fun other member => absurd member List.not_mem_nil, fun other member => ?_⟩
    cases List.mem_singleton.mp member
    exact Nat.le_refl _
  | cons last earlier =>
    have starts := stacked.starts
    have tidy := stacked.tidy
    rw [List.reverse_cons] at tidy
    obtain ⟨before, lastOrdered, gaps⟩ := tidy_of_snoc tidy
    have begins := starts last List.mem_cons_self
    by_cases apart : last.last + 1 < range.first
    · rw [Range.coalesce, if_pos apart]
      refine ⟨?_, fun other member => ?_⟩
      · rw [List.reverse_cons]
        refine tidy_snoc stacked.tidy ordered fun other member => ?_
        rcases List.mem_cons.mp (List.mem_reverse.mp member) with same | member
        · exact same ▸ apart
        · have gap : other.last + 1 < last.first := gaps other (List.mem_reverse.mpr member)
          simp only [Gap]
          omega
      · rcases List.mem_cons.mp member with same | member
        · exact Nat.le_of_eq (congrArg Range.first same)
        · exact Nat.le_trans (starts other member) later
    · rw [Range.coalesce, if_neg apart]
      refine ⟨?_, fun other member => ?_⟩
      · rw [List.reverse_cons]
        exact tidy_snoc before (Nat.le_trans lastOrdered (Nat.le_max_left _ _)) gaps
      · rcases List.mem_cons.mp member with same | member
        · rw [same]
          exact Nat.le_trans begins later
        · exact Nat.le_trans (starts other (List.mem_cons_of_mem _ member)) later

/-- A range that does not start before the last one is added without another number. -/
theorem Stacked.covers_coalesce (stacked : Stacked stack bound)
    (later : bound ≤ range.first) : Covers (Range.coalesce stack range) n ↔ Covers stack n ∨ range.Holds n := by
  cases stack with
  | nil => simp [Range.coalesce]
  | cons last earlier =>
    have begins := stacked.starts last List.mem_cons_self
    by_cases apart : last.last + 1 < range.first
    · rw [Range.coalesce, if_pos apart, covers_cons, or_comm]
    · have joined : (Range.mk last.first (max last.last range.last)).Holds n ↔ last.Holds n ∨ range.Holds n := by
        simp only [Holds]
        omega
      rw [Range.coalesce, if_neg apart, covers_cons, covers_cons, joined, or_right_comm]

theorem Stacked.foldl (stacked : Stacked stack bound) (ordered : ∀ range ∈ ranges, range.first ≤ range.last)
    (sorted : ranges.Pairwise fun range other => range.first ≤ other.first)
    (later : ∀ range ∈ ranges, bound ≤ range.first) :
    Tidy (ranges.foldl Range.coalesce stack).reverse ∧
      ∀ n, Covers (ranges.foldl Range.coalesce stack) n ↔ Covers stack n ∨ Covers ranges n := by
  induction ranges generalizing stack bound with
  | nil => exact ⟨stacked.tidy, fun n => by simp⟩
  | cons range ranges ih =>
    obtain ⟨starts, sorted⟩ := List.pairwise_cons.mp sorted
    obtain ⟨rangeOrdered, ordered⟩ := List.forall_mem_cons.mp ordered
    have rangeLater := later range List.mem_cons_self
    obtain ⟨tidy, covers⟩ := ih (stacked.coalesce rangeOrdered rangeLater) ordered sorted starts
    refine ⟨tidy, fun n => ?_⟩
    rw [List.foldl_cons, covers, stacked.covers_coalesce rangeLater, covers_cons, or_assoc]

/-- Sorted by their first numbers, ranges coalesce into the tidy list of what they cover. -/
theorem coalesceAll_tidy (ordered : ∀ range ∈ ranges, range.first ≤ range.last)
    (sorted : ranges.Pairwise fun range other => range.first ≤ other.first) :
    Tidy (coalesceAll ranges) ∧ ∀ n, Covers (coalesceAll ranges) n ↔ Covers ranges n := by
  have empty : Stacked [] 0 := ⟨tidy_nil, fun range member => absurd member List.not_mem_nil⟩
  obtain ⟨tidy, covers⟩ := empty.foldl ordered sorted fun range _ => Nat.zero_le _
  exact ⟨tidy, fun n => by simp [coalesceAll, covers]⟩

end Range

end ProxyPilot.Data
