import ProxyPilot.Data.Checks

namespace ProxyPilot.Data

/-! # Members of an object

A look-up on a plain object finds its own entries, and else what it inherits.
-/

/-- The members that every object inherits. -/
def objectMemberNames : List String :=
  ["constructor", "__defineGetter__", "__defineSetter__", "hasOwnProperty", "__lookupGetter__",
    "__lookupSetter__", "isPrototypeOf", "propertyIsEnumerable", "toString", "valueOf", "__proto__",
    "toLocaleString"]

def objectMembers : List (List Char) := objectMemberNames.map String.toList

def protoName : List Char := "__proto__".toList

/-- An object filled by `object[name] = value`: an assignment to `__proto__` makes no entry, its
value is what the object inherits from. -/
structure Filled (α : Type u) where
  own : List (List Char × α)
  proto : Option α

namespace Filled

variable {α : Type u} (fields : α → List (List Char × Bool)) (object : Filled α) {name : List Char}

/-- The object after the assignments of the entries. -/
def ofEntries (entries : List (List Char × α)) : Filled α :=
  ⟨entries.filter fun e => e.1 != protoName, entries.lookup protoName⟩

/-- What the object inherits under the name: `some none` is a value that is no entry but counts
as true.  `fields` are the names of an entry's own fields, and whether their values count as true. -/
def inherits (name : List Char) : Option (Option α) :=
  match object.proto with
  | none => if objectMembers.contains name then some none else none
  | some value =>
    if name = protoName then some (some value)
    else match (fields value).lookup name with
      | some holds => if holds then some none else none
      | none => if objectMembers.contains name then some none else none

/-- `object[name]`, where that counts as true. -/
def get (name : List Char) : Option (Option α) :=
  match object.own.lookup name with
  | some value => some (some value)
  | none => object.inherits fields name

variable {fields object}

variable {entries : List (List Char × α)}

/-- Entries of other names are kept, and nothing is inherited from them. -/
theorem ofEntries_own (named : ∀ e ∈ entries, e.1 ≠ protoName) :
    ofEntries entries = ⟨entries, none⟩ := by
  have kept : entries.filter (fun e => e.1 != protoName) = entries :=
    List.filter_eq_self.mpr fun e member => by simpa using named e member
  have absent : entries.lookup protoName = none := by
    rw [List.lookup_eq_none_iff]
    intro e member
    simpa using (named e member).symm
  rw [ofEntries, kept, absent]

theorem ofEntries_named :
    ∀ e ∈ (ofEntries entries).own, e.1 ≠ protoName := by
  intro e member
  simpa using (List.mem_filter.mp member).2

end Filled

end ProxyPilot.Data
