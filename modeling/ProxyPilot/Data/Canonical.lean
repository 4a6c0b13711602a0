import Mathlib.Data.List.Lex
import Mathlib.Data.List.Sort
import ProxyPilot.Data.JsonGrammar

namespace ProxyPilot.Data.Canonical

/-! # Canonical JSON

Python's `json` as a dictionary is hashed and stored: names in order, no blanks, nothing escaped
that need not be, no infinite number.  A text has no lone surrogate.
-/

abbrev Text := List Char

/-- No numeral of a whole number: there is a point or an exponent in it. -/
def wholeNumeral (numeral : Text) : Bool := numeral.all fun c => c.isDigit || c == '-'

/-- Finite floating point numbers, as they are written and read. -/
structure Floats where
  Float : Type
  repr : Float → Text
  /-- `float(text)`, nothing where the result is infinite. -/
  read : Text → Option Float
  /-- `f == n` -/
  isWhole : Float → Int → Bool
  numeral : ∀ f, JsonGrammar.Numeral (repr f)
  fractional : ∀ f, wholeNumeral (repr f) = false
  read_repr : ∀ f, read (repr f) = some f

inductive Value (F : Type) where
  | null
  | bool (value : Bool)
  | int (value : Int)
  | float (value : F)
  | text (value : Text)
  | array (items : List (Value F))
  | object (fields : List (Text × Value F))

section Names

variable {α : Type u} {β : Type v}

/-- Texts are ordered by their code points. -/
def nameLe (a b : Text × α) : Prop := a.1.map Char.toNat ≤ b.1.map Char.toNat

instance : DecidableRel (nameLe (α := α)) :=
  fun a b => inferInstanceAs (Decidable (a.1.map Char.toNat ≤ b.1.map Char.toNat))

instance : Std.Total (nameLe (α := α)) := ⟨fun a b => le_total (a.1.map Char.toNat) (b.1.map Char.toNat)⟩

instance : IsTrans (Text × α) nameLe := ⟨fun _ _ _ => le_trans⟩

def sorted (fields : List (Text × α)) : List (Text × α) := fields.insertionSort nameLe

theorem sorted_perm (fields : List (Text × α)) : (sorted fields).Perm fields := List.perm_insertionSort _ _

theorem mem_sorted {fields : List (Text × α)} {field : Text × α} :
    field ∈ sorted fields ↔ field ∈ fields := (sorted_perm fields).mem_iff

theorem sorted_map (f : α → β) (fields : List (Text × α)) :
    sorted (fields.map fun field => (field.1, f field.2)) = (sorted fields).map fun field => (field.1, f field.2) :=
  (List.map_insertionSort (r := nameLe) (s := nameLe) (fun field : Text × α => (field.1, f field.2))
    fields fun _ _ _ _ => Iff.rfl).symm

/-- Fields in order with names of their own stand in one order. -/
theorem sorted_eq {fields others : List (Text × α)} (perm : fields.Perm others)
    (distinct : (fields.map Prod.fst).Nodup) :
    sorted fields = sorted others := by
  have inside : ∀ field, field ∈ sorted others ↔ field ∈ fields := fun field => mem_sorted.trans perm.mem_iff.symm
  apply @List.Perm.eq_of_pairwise _ nameLe
  · intro a b left right below above
    have names : a.1 = b.1 := List.map_injective_iff.mpr (fun _ _ => Char.toNat_inj.mp) (le_antisymm below above)
    exact List.inj_on_of_nodup_map distinct (mem_sorted.mp left) ((inside b).mp right) names
  · exact List.pairwise_insertionSort _ _
  · exact List.pairwise_insertionSort _ _
  · exact (sorted_perm fields).trans (perm.trans (sorted_perm others).symm)

end Names

variable {floats : Floats}

def intText (n : Int) : Text := if n < 0 then '-' :: Nat.toDigits 10 n.natAbs else Nat.toDigits 10 n.natAbs

def fieldText (field : Text × Text) : Text := Json.quote field.1 ++ ':' :: field.2

def commas (parts : List Text) : Text := [','].intercalate parts

mutual

/-- `json.dumps(value, ensure_ascii=False, sort_keys=True, separators=(',', ':'))` -/
def write (floats : Floats) : Value floats.Float → Text
  | .null => ['n', 'u', 'l', 'l']
  | .bool true => ['t', 'r', 'u', 'e']
  | .bool false => ['f', 'a', 'l', 's', 'e']
  | .int n => intText n
  | .float f => floats.repr f
  | .text text => Json.quote text
  | .array items => '[' :: (commas (writeItems floats items) ++ [']'])
  | .object fields => '\x7b' :: (commas ((sorted (writeFields floats fields)).map fieldText) ++ ['\x7d'])

def writeItems (floats : Floats) : List (Value floats.Float) → List Text
  | [] => []
  | item :: items => write floats item :: writeItems floats items

def writeFields (floats : Floats) : List (Text × Value floats.Float) → List (Text × Text)
  | [] => []
  | (name, value) :: fields => (name, write floats value) :: writeFields floats fields

end

/-- The digits of a whole number that Python writes and reads. -/
def maxDigits : Nat := 4300

def shortInt (n : Int) : Bool := (Nat.toDigits 10 n.natAbs).length ≤ maxDigits

mutual

/-- Nothing raises as the value is written. -/
def writable {F : Type} : Value F → Bool
  | .int n => shortInt n
  | .array items => writableItems items
  | .object fields => writableFields fields
  | _ => true

def writableItems {F : Type} : List (Value F) → Bool
  | [] => true
  | item :: items => writable item && writableItems items

def writableFields {F : Type} : List (Text × Value F) → Bool
  | [] => true
  | (_, value) :: fields => writable value && writableFields fields

end

def canonical (floats : Floats) (value : Value floats.Float) : Option Text :=
  if writable value = true then some (write floats value) else none

mutual

/-- No object has a name twice. -/
def Distinct {F : Type} : Value F → Prop
  | .array items => DistinctItems items
  | .object fields => (fields.map Prod.fst).Nodup ∧ DistinctFields fields
  | _ => True

def DistinctItems {F : Type} : List (Value F) → Prop
  | [] => True
  | item :: items => Distinct item ∧ DistinctItems items

def DistinctFields {F : Type} : List (Text × Value F) → Prop
  | [] => True
  | (_, value) :: fields => Distinct value ∧ DistinctFields fields

end

mutual

/-- The value with all names in order; values are equal as dictionaries where these agree. -/
def normal {F : Type} : Value F → Value F
  | .array items => .array (normalItems items)
  | .object fields => .object (sorted (normalFields fields))
  | other => other

def normalItems {F : Type} : List (Value F) → List (Value F)
  | [] => []
  | item :: items => normal item :: normalItems items

def normalFields {F : Type} : List (Text × Value F) → List (Text × Value F)
  | [] => []
  | (name, value) :: fields => (name, normal value) :: normalFields fields

end

/-- A property of values that passes from what a value contains to the value. -/
theorem every {F : Type} {P : Value F → Prop}
    (leaf : ∀ v, (∀ items, v ≠ .array items) → (∀ fields, v ≠ .object fields) → P v)
    (inArray : ∀ items, (∀ item ∈ items, P item) → P (.array items))
    (inObject : ∀ fields, (∀ entry ∈ fields, P entry.2) → P (.object fields)) (v : Value F) : P v :=
  @Value.rec F P (fun items => ∀ item ∈ items, P item) (fun fields => ∀ entry ∈ fields,
    P entry.2) (fun entry => P entry.2)
    (leaf _ (by simp) (by simp)) (fun _ => leaf _ (by simp) (by simp)) (fun _ => leaf _ (by simp) (by simp))
    (fun _ => leaf _ (by simp) (by simp)) (fun _ => leaf _ (by simp) (by simp)) inArray inObject (by simp)
    (fun _ _ first rest => by simpa using ⟨first, rest⟩) (by simp)
      (fun _ _ first rest => List.forall_mem_cons.mpr ⟨first, rest⟩)
    (fun _ _ value => value) v

section Lists

variable {F : Type}

theorem writeItems_eq (items : List (Value floats.Float)) : writeItems floats items = items.map (write floats) := by
  induction items with
  | nil => rfl
  | cons item items ih => rw [writeItems, ih, List.map_cons]

theorem writeFields_eq (fields : List (Text × Value floats.Float)) :
    writeFields floats fields = fields.map fun field => (field.1, write floats field.2) := by
  induction fields with
  | nil => rfl
  | cons field fields ih => rw [writeFields, ih, List.map_cons]

theorem writableItems_eq (items : List (Value F)) : writableItems items = items.all writable := by
  induction items with
  | nil => rfl
  | cons item items ih => rw [writableItems, ih, List.all_cons]

theorem writableFields_eq (fields : List (Text × Value F)) :
    writableFields fields = fields.all fun field => writable field.2 := by
  induction fields with
  | nil => rfl
  | cons field fields ih => rw [writableFields, ih, List.all_cons]

theorem distinctItems_iff {items : List (Value F)} : DistinctItems items ↔ ∀ item ∈ items, Distinct item := by
  induction items with
  | nil => simp [DistinctItems]
  | cons item items ih => simp [DistinctItems, ih]

theorem distinctFields_iff {fields : List (Text × Value F)} :
    DistinctFields fields ↔ ∀ field ∈ fields, Distinct field.2 := by
  induction fields with
  | nil => simp [DistinctFields]
  | cons field fields ih => simp [DistinctFields, ih]

theorem normalItems_eq (items : List (Value F)) : normalItems items = items.map normal := by
  induction items with
  | nil => rfl
  | cons item items ih => rw [normalItems, ih, List.map_cons]

theorem normalFields_eq (fields : List (Text × Value F)) :
    normalFields fields = fields.map fun field => (field.1, normal field.2) := by
  induction fields with
  | nil => rfl
  | cons field fields ih => rw [normalFields, ih, List.map_cons]

end Lists

end ProxyPilot.Data.Canonical
