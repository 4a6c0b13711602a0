import ProxyPilot.Data.Values

namespace ProxyPilot.Zfs

open Data
open Utf16 (quote)

/-! # The canonical text of a plan (`planner.js`)

`canonical` writes a value with the fields of its objects in the order of their names.  The
text says which value it is: each value ends where the text of another one cannot go on.
-/

def ascii (text : List Char) : Units := text.map fun c => UInt16.ofNat c.toNat

def comma : UInt16 := 44

def colon : UInt16 := 58

def openBracket : UInt16 := 91

def closeBracket : UInt16 := 93

def openBrace : UInt16 := 123

def closeBrace : UInt16 := 125

/-- `join(',')` -/
def joinUnits : List Units → Units
  | [] => []
  | first :: rest => first ++ rest.flatMap (comma :: ·)

def nullText : Units := ascii "null".toList

def memberText (name value : Units) : Units := quote name ++ colon :: value

mutual

def canonical : Value → Units
  | .array items => openBracket :: (joinUnits (canonicalItems items) ++ [closeBracket])
  | .object fields =>
    openBrace :: (joinUnits ((Value.sortedNames (fields.map Prod.fst)).map fun k =>
      memberText k (((canonicalFields fields).lookup k).getD nullText)) ++ [closeBrace])
  | .text t => quote t
  | .number n => ascii n.text
  | .bool true => ascii "true".toList
  | .bool false => ascii "false".toList
  | .null => nullText
  | .undefined => nullText

def canonicalItems : List Value → List Units
  | [] => []
  | item :: items => canonical item :: canonicalItems items

def canonicalFields : List (Units × Value) → List (Units × Units)
  | [] => []
  | (k, value) :: fields => (k, canonical value) :: canonicalFields fields

end

theorem canonicalItems_eq (items : List Value) : canonicalItems items = items.map canonical := by
  induction items with
  | nil => rfl
  | cons item items ih => simp [canonicalItems, ih]

theorem canonicalFields_eq (fields : List (Units × Value)) :
    canonicalFields fields = fields.map fun entry => (entry.1, canonical entry.2) := by
  induction fields with
  | nil => rfl
  | cons entry fields ih => simp [canonicalFields, ih]

def fieldText (entry : Units × Value) : Units := memberText entry.1 (canonical entry.2)

theorem canonical_array (items : List Value) : canonical (.array items) = openBracket ::
    (joinUnits (items.map canonical) ++ [closeBracket]) := by
  rw [canonical, canonicalItems_eq]

theorem lookup_canonicalFields (fields : List (Units × Value)) (k : Units) :
    ((canonicalFields fields).lookup k).getD nullText = canonical ((fields.lookup k).getD .undefined) := by
  rw [canonicalFields_eq]
  induction fields with
  | nil => simp [canonical]
  | cons entry fields ih =>
    obtain ⟨name, value⟩ := entry
    simp only [List.map_cons, List.lookup_cons]
    cases k == name with
    | true => rfl
    | false => exact ih

theorem canonical_object (fields : List (Units × Value)) :
    canonical (.object fields) = openBrace ::
      (joinUnits ((Value.sortedFields fields).map fieldText) ++ [closeBrace]) := by
  simp [canonical, Value.sortedFields, lookup_canonicalFields, fieldText, Function.comp_def]

/-- Which values have a text that begins with a unit. -/
def kindOf (u : UInt16) : Nat :=
  if u = 110 then 0 else if u = 116 then 1 else if u = 102 then 2 else if u = 34 then 4
    else if u = 91 then 5 else if u = 123 then 6
  else if u = comma ∨ u = closeBracket ∨ u = closeBrace then 7 else 3

def kind : Value → Nat
  | .undefined => 0
  | .null => 0
  | .bool true => 1
  | .bool false => 2
  | .number _ => 3
  | .text _ => 4
  | .array _ => 5
  | .object _ => 6

/-- The units of numbers. -/
def numeral (u : UInt16) : Bool := decide (48 ≤ u.toNat ∧ u.toNat ≤ 57) || [43, 45, 46, 101].contains u

variable {c : Char} {r q : Units} {v w : Value}

theorem digit_range (digit : c.isDigit = true) : 48 ≤ c.toNat ∧ c.toNat ≤ 57 := by
  simp only [Char.isDigit, Bool.and_eq_true, decide_eq_true_eq] at digit
  exact ⟨UInt32.le_iff_toNat_le.mp digit.1, UInt32.le_iff_toNat_le.mp digit.2⟩

theorem toNat_unit (small : c.toNat < 65536) : (UInt16.ofNat c.toNat).toNat = c.toNat :=
  UInt16.toNat_ofNat_of_lt' small

theorem kindOf_number {u : UInt16} (begins : 48 ≤ u.toNat ∧ u.toNat ≤ 57 ∨ u = 45) : kindOf u = 3 := by
  have other : ∀ v : UInt16, ¬(48 ≤ v.toNat ∧ v.toNat ≤ 57 ∨ v = 45) → u ≠ v := fun v no same => no (same ▸ begins)
  simp [kindOf, comma, closeBracket, closeBrace, other 110 (by decide), other 116 (by decide),
    other 102 (by decide), other 34 (by decide),
    other 91 (by decide), other 123 (by decide), other 44 (by decide), other 93 (by decide), other 125 (by decide)]

theorem canonical_head (v : Value) : ∃ u rest, canonical v = u :: rest ∧ kindOf u = kind v := by
  cases v with
  | undefined => exact ⟨_, _, rfl, by decide⟩
  | null => exact ⟨_, _, rfl, by decide⟩
  | bool b => cases b <;> exact ⟨_, _, rfl, by decide⟩
  | text t => exact ⟨_, _, rfl, rfl⟩
  | array items => exact ⟨_, _, canonical_array items, rfl⟩
  | object fields => exact ⟨_, _, canonical_object fields, rfl⟩
  | number n =>
    obtain ⟨c, rest, shape, begins⟩ := n.text_head
    refine ⟨UInt16.ofNat c.toNat, ascii rest, by simp [canonical, ascii, shape], kindOf_number ?_⟩
    rcases begins with digit | rfl
    · have range := digit_range digit
      rw [toNat_unit (by omega)]
      exact Or.inl range
    · exact Or.inr rfl

theorem numeral_unit (written : Decimal.numeral c = true) :
    c.toNat < 65536 ∧ numeral (UInt16.ofNat c.toNat) = true := by
  simp only [Decimal.numeral, Bool.or_eq_true, List.contains_iff_mem, List.mem_cons,
    List.not_mem_nil, or_false] at written
  rcases written with digit | rfl | rfl | rfl | rfl
  · have range := digit_range digit
    have small : c.toNat < 65536 := by omega
    refine ⟨small, ?_⟩
    unfold numeral
    rw [toNat_unit small]
    simp [range]
  all_goals decide

theorem ascii_injective {s t : List Char} (left : ∀ c ∈ s, c.toNat < 65536)
    (right : ∀ c ∈ t, c.toNat < 65536) (same : ascii s = ascii t) : s = t := by
  have back : ∀ s : List Char, (∀ c ∈ s, c.toNat < 65536) → (ascii s).map (fun u => Char.ofNat u.toNat) = s := by
    intro s small
    unfold ascii
    rw [List.map_map]
    conv_rhs => rw [← List.map_id s]
    apply List.map_congr_left
    intro c member
    simp only [Function.comp_apply, toNat_unit (small c member), Char.ofNat_toNat, id_eq]
  rw [← back s left, ← back t right, same]

/-- What follows a value does not go on with a number. -/
def Ends (rest : Units) : Prop := ∀ u, rest.head? = some u → numeral u = false

theorem takeWhile_number (n : Decimal) {rest : Units} (ends : Ends rest) :
    (ascii n.text ++ rest).takeWhile numeral = ascii n.text := by
  have written : ∀ u ∈ ascii n.text, numeral u = true := by
    intro u member
    obtain ⟨c, inside, rfl⟩ := List.mem_map.mp member
    exact (numeral_unit (List.all_eq_true.mp n.numeral_text c inside)).2
  rw [List.takeWhile_append_of_pos written]
  cases rest with
  | nil => simp
  | cons u rest => simp [ends u rfl]

theorem number_unique {m n : Decimal} (left : Ends r) (right : Ends q)
    (same : ascii m.text ++ r = ascii n.text ++ q) :
    m = n ∧ r = q := by
  have texts : ascii m.text = ascii n.text := by rw [← takeWhile_number m left, ← takeWhile_number n right, same]
  have small : ∀ d : Decimal, ∀ c ∈ d.text, c.toNat < 65536 :=
    fun d c member => (numeral_unit (List.all_eq_true.mp d.numeral_text c member)).1
  rw [texts] at same
  exact ⟨Decimal.text_injective (ascii_injective (small m) (small n) texts), List.append_cancel_left same⟩

/-- A text that is recognised whatever follows it, as one that stands for something related. -/
def Reads {α : Type} (text : α → Units) (rel : α → α → Prop) (a : α) : Prop :=
  ∀ b r q, Ends r → Ends q → text a ++ r = text b ++ q → rel a b ∧ r = q

section Lists

variable {α : Type} {text : α → Units} {rel : α → α → Prop} {close : UInt16}

/-- A text that begins neither with a comma nor with a closing bracket. -/
def Opens (text : Units) : Prop := ∃ u rest, text = u :: rest ∧ kindOf u ≠ 7

theorem ends_tail (closes : close = closeBracket ∨ close = closeBrace) (items : List Units) (rest : Units) :
    Ends (items.flatMap (comma :: ·) ++ close :: rest) := by
  intro u head
  cases items with
  | nil =>
    simp only [List.flatMap_nil, List.nil_append, List.head?_cons, Option.some.injEq] at head
    subst head
    rcases closes with rfl | rfl <;> decide
  | cons item items =>
    simp only [List.flatMap_cons, List.cons_append, List.head?_cons, Option.some.injEq] at head
    subst head
    decide

theorem tail_unique (closes : close = closeBracket ∨ close = closeBrace) {items others : List α}
    (reads : ∀ item ∈ items, Reads text rel item)
    {r q : Units} (same : (items.map text).flatMap (comma :: ·) ++ close ::
    r = (others.map text).flatMap (comma :: ·) ++ close :: q) :
    List.Forall₂ rel items others ∧ r = q := by
  have apart : comma ≠ close := by rcases closes with rfl | rfl <;> decide
  induction items generalizing others with
  | nil =>
    cases others with
    | nil => exact ⟨.nil, (List.cons.inj same).2⟩
    | cons other others => exact absurd (List.cons.inj same).1.symm apart
  | cons item items ih =>
    cases others with
    | nil => exact absurd (List.cons.inj same).1 apart
    | cons other others =>
      simp only [List.map_cons, List.flatMap_cons, List.cons_append, List.append_assoc,
        List.cons.injEq, true_and] at same
      obtain ⟨first, later⟩ :=
        reads item List.mem_cons_self other _ _ (ends_tail closes _ _) (ends_tail closes _ _) same
      obtain ⟨rest, ends⟩ := ih (fun i member => reads i (List.mem_cons_of_mem _ member)) later
      exact ⟨.cons first rest, ends⟩

theorem list_unique (closes : close = closeBracket ∨ close = closeBrace) {items others : List α}
    (reads : ∀ item ∈ items, Reads text rel item)
    (opens : ∀ a, Opens (text a)) {r q : Units}
    (same : joinUnits (items.map text) ++ close :: r = joinUnits (others.map text) ++ close :: q) :
    List.Forall₂ rel items others ∧ r = q := by
  have shut : kindOf close = 7 := by rcases closes with rfl | rfl <;> decide
  cases items with
  | nil =>
    cases others with
    | nil => exact ⟨.nil, (List.cons.inj same).2⟩
    | cons other others =>
      obtain ⟨u, rest, shape, opening⟩ := opens other
      simp only [List.map_cons, joinUnits, shape, List.cons_append] at same
      exact absurd ((List.cons.inj same).1 ▸ shut) opening
  | cons item items =>
    cases others with
    | nil =>
      obtain ⟨u, rest, shape, opening⟩ := opens item
      simp only [List.map_cons, joinUnits, shape, List.cons_append] at same
      exact absurd ((List.cons.inj same).1 ▸ shut) opening
    | cons other others =>
      simp only [List.map_cons, joinUnits, List.append_assoc] at same
      obtain ⟨first, later⟩ :=
        reads item List.mem_cons_self other _ _ (ends_tail closes _ _) (ends_tail closes _ _) same
      obtain ⟨rest, ends⟩ := tail_unique closes (fun i member => reads i (List.mem_cons_of_mem _ member)) later
      exact ⟨.cons first rest, ends⟩

end Lists

theorem opens_canonical (v : Value) : Opens (canonical v) := by
  obtain ⟨u, rest, shape, same⟩ := canonical_head v
  refine ⟨u, rest, shape, ?_⟩
  rw [same]
  cases v with
  | bool b => cases b <;> simp [kind]
  | _ => simp [kind]

theorem opens_fieldText (entry : Units × Value) : Opens (fieldText entry) := ⟨_, _, rfl, by decide⟩

theorem fieldText_reads {entry : Units × Value} (reads : Reads canonical Value.Same entry.2) :
    Reads fieldText (fun a b => a.1 = b.1 ∧ Value.Same a.2 b.2) entry := by
  intro other r q left right same
  simp only [fieldText, memberText, List.append_assoc, List.cons_append] at same
  obtain ⟨name, rest⟩ := Utf16.quote_injective same
  obtain ⟨value, ends⟩ := reads other.2 r q left right (List.cons.inj rest).2
  exact ⟨⟨name, value⟩, ends⟩

theorem kind_of_same (same : canonical v ++ r = canonical w ++ q) : kind v = kind w := by
  obtain ⟨a, after, shape, first⟩ := canonical_head v
  obtain ⟨b, afterToo, shapeToo, second⟩ := canonical_head w
  rw [shape, shapeToo, List.cons_append, List.cons_append, List.cons.injEq] at same
  rw [← first, ← second, same.1]

theorem array_of_kind {v : Value} (known : kind v = 5) : ∃ items, v = .array items := by
  cases v with
  | array items => exact ⟨items, rfl⟩
  | bool b => cases b <;> cases known
  | _ => cases known

theorem object_of_kind {v : Value} (known : kind v = 6) : ∃ fields, v = .object fields := by
  cases v with
  | object fields => exact ⟨fields, rfl⟩
  | bool b => cases b <;> cases known
  | _ => cases known

/-- Where the text of a value is continued, the value and the continuation are known from the whole. -/
theorem canonical_reads (v : Value) : v.Distinct → Reads canonical Value.Same v := by
  induction v using Value.every with
  | leaf v noArray noObject =>
    intro _ w r q left right same
    have kinds := kind_of_same same
    cases v with
    | array items => exact absurd rfl (noArray items)
    | object fields => exact absurd rfl (noObject fields)
    | undefined | null =>
      have nothing : w.isNothing = true := by
        cases w with
        | bool b => cases b <;> cases kinds
        | undefined | null => rfl
        | _ => cases kinds
      refine ⟨nothing, ?_⟩
      cases w <;> first | exact List.append_cancel_left same | cases nothing
    | bool x =>
      cases w with
      | bool y =>
        have equal : x = y := by cases x <;> cases y <;> first | rfl | cases kinds
        subst equal
        exact ⟨rfl, List.append_cancel_left same⟩
      | _ => cases x <;> cases kinds
    | number n =>
      cases w with
      | number m =>
        obtain ⟨rfl, ends⟩ := number_unique left right same
        exact ⟨rfl, ends⟩
      | bool y => cases y <;> cases kinds
      | _ => cases kinds
    | text t =>
      cases w with
      | text u =>
        obtain ⟨rfl, ends⟩ := Utf16.quote_injective same
        exact ⟨rfl, ends⟩
      | bool y => cases y <;> cases kinds
      | _ => cases kinds
  | inArray items ih =>
    intro distinct w r q left right same
    obtain ⟨others, rfl⟩ := array_of_kind (kind_of_same same).symm
    rw [canonical_array, canonical_array] at same
    simp only [List.cons_append, List.append_assoc, List.nil_append, List.cons.injEq, true_and] at same
    have reads : ∀ item ∈ items, Reads canonical Value.Same item :=
      fun item member => ih item member (Value.distinctItems_iff.mp distinct item member)
    obtain ⟨agree, ends⟩ := list_unique (Or.inl rfl) reads opens_canonical same
    exact ⟨⟨others, rfl, Value.sameItems_iff.mpr agree⟩, ends⟩
  | inObject fields ih =>
    intro distinct w r q left right same
    obtain ⟨others, rfl⟩ := object_of_kind (kind_of_same same).symm
    rw [canonical_object, canonical_object] at same
    simp only [List.cons_append, List.append_assoc, List.nil_append, List.cons.injEq, true_and] at same
    have reads : ∀ entry ∈ Value.sortedFields fields,
        Reads fieldText (fun a b => a.1 = b.1 ∧ Value.Same a.2 b.2) entry := by
      intro entry listed
      have member := Value.mem_of_sorted listed
      exact fieldText_reads (ih entry member (Value.distinctFields_iff.mp distinct.2 entry member))
    obtain ⟨agree, ends⟩ := list_unique (Or.inr rfl) reads opens_fieldText same
    exact ⟨Value.same_of_sorted distinct.1 agree, ends⟩

theorem map_canonical {items others : List Value} (agree : List.Forall₂ Value.Same items others)
    (texts : ∀ item ∈ items, ∀ other ∈ others, item.Same other → canonical item = canonical other) :
    items.map canonical = others.map canonical := by
  induction agree with
  | nil => rfl
  | cons first _ ih =>
    have text := texts _ List.mem_cons_self _ List.mem_cons_self first
    have rest := ih fun i member o memberToo =>
        texts i (List.mem_cons_of_mem _ member) o (List.mem_cons_of_mem _ memberToo)
    rw [List.map_cons, List.map_cons, text, rest]

/-- Values that are the same have one text. -/
theorem canonical_same (v : Value) : v.Distinct → ∀ w : Value, w.Distinct → v.Same w →
    canonical v = canonical w := by
  induction v using Value.every with
  | leaf v noArray noObject =>
    intro _ w _ same
    cases v with
    | array items => exact absurd rfl (noArray items)
    | object fields => exact absurd rfl (noObject fields)
    | undefined | null => cases w <;> first | rfl | cases same
    | _ =>
      cases same
      rfl
  | inArray items ih =>
    intro distinct w distinctToo same
    obtain ⟨others, rfl, agree⟩ := same
    rw [canonical_array, canonical_array]
    have texts : items.map canonical = others.map canonical := by
      apply map_canonical (Value.sameItems_iff.mp agree)
      intro item member other memberToo like
      exact ih item member (Value.distinctItems_iff.mp distinct item member) other
        (Value.distinctItems_iff.mp distinctToo other memberToo) like
    rw [texts]
  | inObject fields ih =>
    intro distinct w distinctToo same
    obtain ⟨others, rfl, names, agree⟩ := same
    rw [canonical_object, canonical_object]
    have texts : (Value.sortedFields fields).map fieldText = (Value.sortedFields others).map fieldText := by
      unfold Value.sortedFields
      rw [List.map_map, List.map_map, Value.sortedNames_eq names]
      apply List.map_congr_left
      intro name listed
      obtain ⟨value, found, inside⟩ :=
        Value.lookup_mem (names.mem_iff.mpr ((Value.sortedNames_perm _).mem_iff.mp listed))
      obtain ⟨other, insideToo, like⟩ := Value.sameFields_iff.mp agree _ inside
      have foundToo := lookup_of_mem distinctToo.1 insideToo
      have text := ih _ inside (Value.distinctFields_iff.mp distinct.2 _ inside) other
        (Value.distinctFields_iff.mp distinctToo.2 _ insideToo) like
      simp only [Function.comp_apply, found, foundToo, Option.getD_some, fieldText, text]
    rw [texts]

/-- Two values have one text exactly when they are equal up to the order of fields. -/
theorem canonical_iff (distinct : v.Distinct) (distinctToo : w.Distinct) :
    canonical v = canonical w ↔ v.Same w := by
  constructor
  · intro same
    have none : Ends [] := by simp [Ends]
    exact (canonical_reads v distinct w [] [] none none (by simpa using same)).1
  · exact canonical_same v distinct w distinctToo

end ProxyPilot.Zfs
