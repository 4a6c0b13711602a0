import Mathlib.Data.List.Forall2
import Mathlib.Data.List.Lex
import Mathlib.Data.List.Nodup
import Mathlib.Data.List.Sort
import ProxyPilot.Data.Decimal
import ProxyPilot.Data.Utf16

namespace ProxyPilot.Data

/-! # Values made of JSON

An object is the list of its fields.  Two values are the same when they differ in nothing
but the order of the fields of their objects, where `undefined` counts as `null`.
-/

theorem lookup_of_mem {κ : Type u} [BEq κ] [LawfulBEq κ] {α : Type v} {fields : List (κ × α)}
    (distinct : (fields.map Prod.fst).Nodup)
    {entry : κ × α} (member : entry ∈ fields) : fields.lookup entry.1 = some entry.2 := by
  induction fields with
  | nil => cases member
  | cons first fields ih =>
    obtain ⟨name, value⟩ := first
    rw [List.map_cons, List.nodup_cons] at distinct
    rcases List.mem_cons.mp member with rfl | later
    · exact List.lookup_cons_self
    · have other : (entry.1 == name) = false := by
        rw [beq_eq_false_iff_ne]
        intro same
        have named := List.mem_map_of_mem (f := Prod.fst) later
        exact distinct.1 (same ▸ named)
      rw [List.lookup_cons, other]
      exact ih distinct.2 later

inductive Value where
  | undefined
  | null
  | bool (value : Bool)
  | number (value : Decimal)
  | text (value : Units)
  | array (items : List Value)
  | object (fields : List (Units × Value))

namespace Value

def isNothing : Value → Bool
  | undefined => true
  | null => true
  | _ => false

mutual

/-- No object has two fields of one name. -/
def Distinct : Value → Prop
  | array items => DistinctItems items
  | object fields => (fields.map Prod.fst).Nodup ∧ DistinctFields fields
  | _ => True

def DistinctItems : List Value → Prop
  | [] => True
  | item :: items => Distinct item ∧ DistinctItems items

def DistinctFields : List (Units × Value) → Prop
  | [] => True
  | (_, value) :: fields => Distinct value ∧ DistinctFields fields

end

mutual

/-- Equal up to the order of fields. -/
def Same : Value → Value → Prop
  | undefined, other => other.isNothing = true
  | null, other => other.isNothing = true
  | bool b, other => other = bool b
  | number n, other => other = number n
  | text t, other => other = text t
  | array items, other => ∃ others, other = array others ∧ SameItems items others
  | object fields, other =>
    ∃ others, other = object others ∧ (fields.map Prod.fst).Perm (others.map Prod.fst) ∧ SameFields fields others

def SameItems : List Value → List Value → Prop
  | [], others => others = []
  | item :: items, others => ∃ other rest, others = other :: rest ∧ Same item other ∧ SameItems items rest

/-- Every field of the first has its like in the second. -/
def SameFields : List (Units × Value) → List (Units × Value) → Prop
  | [], _ => True
  | (name, value) :: fields, others =>
    (∃ other, (name, other) ∈ others ∧ Same value other) ∧ SameFields fields others

end

/-- A property of values that passes from what a value contains to the value. -/
theorem every {P : Value → Prop} (leaf : ∀ v, (∀ items, v ≠ array items) → (∀ fields, v ≠ object fields) → P v)
    (inArray : ∀ items, (∀ item ∈ items, P item) → P (array items))
    (inObject : ∀ fields, (∀ entry ∈ fields, P entry.2) → P (object fields)) (v : Value) : P v :=
  @Value.rec P (fun items => ∀ item ∈ items, P item) (fun fields => ∀ entry ∈ fields,
    P entry.2) (fun entry => P entry.2)
    (leaf _ (by simp) (by simp)) (leaf _ (by simp) (by simp)) (fun _ => leaf _ (by simp) (by simp))
      (fun _ => leaf _ (by simp) (by simp))
    (fun _ => leaf _ (by simp) (by simp)) inArray inObject (by simp)
      (fun _ _ first rest => by simpa using ⟨first, rest⟩)
    (by simp) (fun _ _ first rest => List.forall_mem_cons.mpr ⟨first, rest⟩) (fun _ _ value => value) v

theorem distinctItems_iff {items : List Value} : DistinctItems items ↔ ∀ item ∈ items, Distinct item := by
  induction items with
  | nil => simp [DistinctItems]
  | cons item items ih => simp [DistinctItems, ih]

variable {fields : List (Units × Value)}

theorem distinctFields_iff : DistinctFields fields ↔ ∀ entry ∈ fields, Distinct entry.2 := by
  induction fields with
  | nil => simp [DistinctFields]
  | cons entry fields ih => simp [DistinctFields, ih]

theorem sameItems_iff {items others : List Value} : SameItems items others ↔ List.Forall₂ Same items others := by
  induction items generalizing others with
  | nil => simp [SameItems]
  | cons item items ih =>
    simp only [SameItems, ih]
    constructor
    · rintro ⟨other, rest, rfl, same, later⟩
      exact .cons same later
    · rintro (_ | ⟨same, later⟩)
      exact ⟨_, _, rfl, same, later⟩

theorem sameFields_iff {fields others : List (Units × Value)} :
    SameFields fields others ↔ ∀ entry ∈ fields, ∃ other, (entry.1, other) ∈ others ∧ Same entry.2 other := by
  induction fields with
  | nil => simp [SameFields]
  | cons entry fields ih => simp [SameFields, ih]

/-- The order of strings: that of their code units. -/
def nameLe (a b : Units) : Prop := a.map UInt16.toNat ≤ b.map UInt16.toNat

instance : DecidableRel nameLe := fun a b => inferInstanceAs (Decidable (a.map UInt16.toNat ≤ b.map UInt16.toNat))

theorem map_toNat_injective {a b : Units} (same : a.map UInt16.toNat = b.map UInt16.toNat) : a = b :=
  List.map_injective_iff.mpr (fun _ _ => UInt16.toNat_inj.mp) same

instance : Std.Total nameLe := ⟨fun a b => le_total (a.map UInt16.toNat) (b.map UInt16.toNat)⟩

instance : IsTrans Units nameLe := ⟨fun _ _ _ => le_trans⟩

instance : Std.Antisymm nameLe := ⟨fun _ _ below above => map_toNat_injective (le_antisymm below above)⟩

def sortedNames (names : List Units) : List Units := names.insertionSort nameLe

theorem sortedNames_perm (names : List Units) : (sortedNames names).Perm names := List.perm_insertionSort _ _

/-- The sorted names do not depend on the order of the fields. -/
theorem sortedNames_eq {names others : List Units} (perm : names.Perm others) :
    sortedNames names = sortedNames others :=
  List.Perm.eq_of_pairwise' (List.pairwise_insertionSort nameLe _) (List.pairwise_insertionSort nameLe _)
    ((sortedNames_perm names).trans (perm.trans (sortedNames_perm others).symm))

/-- The fields of an object in the order of their names. -/
def sortedFields (fields : List (Units × Value)) : List (Units × Value) :=
  (sortedNames (fields.map Prod.fst)).map fun name => (name, (fields.lookup name).getD undefined)

theorem sortedFields_names (fields : List (Units × Value)) :
    (sortedFields fields).map Prod.fst = sortedNames (fields.map Prod.fst) := by
  simp [sortedFields, Function.comp_def]

theorem lookup_mem {κ : Type u} [BEq κ] [LawfulBEq κ] {α : Type v} {fields : List (κ × α)}
    {name : κ} (named : name ∈ fields.map Prod.fst) :
    ∃ value, fields.lookup name = some value ∧ (name, value) ∈ fields := by
  cases found : fields.lookup name with
  | none =>
    obtain ⟨entry, member, rfl⟩ := List.mem_map.mp named
    have := List.lookup_eq_none_iff.mp found entry member
    simp at this
  | some value =>
    obtain ⟨front, back, rfl, _⟩ := List.lookup_eq_some_iff.mp found
    exact ⟨value, rfl, by simp⟩

/-- What stands in the sorted fields stands in the object. -/
theorem mem_of_sorted {entry : Units × Value} (member : entry ∈ sortedFields fields) : entry ∈ fields := by
  obtain ⟨name, listed, rfl⟩ := List.mem_map.mp member
  obtain ⟨value, found, inside⟩ := lookup_mem ((sortedNames_perm _).mem_iff.mp listed)
  simpa [found] using inside

theorem mem_sorted (distinct : (fields.map Prod.fst).Nodup) {entry : Units × Value} (member : entry ∈ fields) :
    entry ∈ sortedFields fields := by
  refine List.mem_map.mpr ⟨entry.1, (sortedNames_perm _).mem_iff.mpr (List.mem_map_of_mem member), ?_⟩
  simp [lookup_of_mem distinct member]

section Agree

variable {rel : Value → Value → Prop} {fields others : List (Units × Value)}

/-- The fields have the same names in the same order, and related values. -/
def Agree (rel : Value → Value → Prop) : List (Units × Value) → List (Units × Value) → Prop :=
  List.Forall₂ fun a b => a.1 = b.1 ∧ rel a.2 b.2

theorem Agree.names (agree : Agree rel fields others) : fields.map Prod.fst = others.map Prod.fst := by
  induction agree with
  | nil => rfl
  | cons first _ ih => simp [first.1, ih]

theorem Agree.like (agree : Agree rel fields others) {entry : Units × Value} (member : entry ∈ fields) :
    ∃ other, (entry.1, other) ∈ others ∧ rel entry.2 other := by
  induction agree with
  | nil => cases member
  | @cons left right _ _ first _ ih =>
    rcases List.mem_cons.mp member with rfl | later
    · exact ⟨right.2, by simp [first.1], first.2⟩
    · obtain ⟨other, deeper, like⟩ := ih later
      exact ⟨other, List.mem_cons_of_mem _ deeper, like⟩

end Agree

/-- Fields that agree in their order make the objects the same. -/
theorem same_of_sorted {fields others : List (Units × Value)} (distinct : (fields.map Prod.fst).Nodup)
    (agree : Agree Same (sortedFields fields) (sortedFields others)) : Same (object fields) (object others) := by
  have names := agree.names
  rw [sortedFields_names, sortedFields_names] at names
  refine ⟨others, rfl, ?_, sameFields_iff.mpr ?_⟩
  · exact (sortedNames_perm _).symm.trans (names ▸ sortedNames_perm _)
  · intro entry member
    obtain ⟨other, listed, same⟩ := agree.like (mem_sorted distinct member)
    exact ⟨other, mem_of_sorted listed, same⟩

end Value

end ProxyPilot.Data
