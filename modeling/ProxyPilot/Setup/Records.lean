import ProxyPilot.Data.Table

namespace ProxyPilot.Setup

open Data

/-! # Rows of the setup engine (`setup-engine/store.js`)

Instants are the milliseconds of the ISO texts the rows hold.
-/

/-- Milliseconds of the clock. -/
abbrev Time := Int

/-- A JSON value; the ISO text of an instant is kept as the instant. -/
inductive Json where
  | null
  | flag (holds : Bool)
  | number (n : Int)
  | time (t : Time)
  | text (s : String)
  | list (items : List Json)
  | record (fields : List (String × Json))

def Json.truthy : Json → Bool
  | .null => false
  | .flag holds => holds
  | .number n => n ≠ 0
  | .text s => s ≠ ""
  | .time _ | .list _ | .record _ => true

/-- `Number(value) || 0`, for whole numbers. -/
def Json.count : Json → Int
  | .number n => n
  | .flag true => 1
  | .text s => s.toInt?.getD 0
  | _ => 0

structure Field where
  name : String
  value : Json

instance : Keyed Field String := ⟨Field.name⟩

/-- A JSON object of a row, its fields in the order they were set. -/
abbrev Object := Table Field

def Object.value (object : Object) (name : String) : Option Json := (object.get name).map Field.value

def Object.set (object : Object) (name : String) (value : Json) : Object := object.put ⟨name, value⟩

/-- `{ ...object, ...fields }`. -/
def Object.spread (object fields : Object) : Object := fields.rows.foldl Table.put object

def Object.has (object : Object) (name : String) : Bool := (object.value name).isSome

inductive Status where
  | queued | running | succeeded | failed | deferred | refused | recoveryRequired | cancelled
deriving DecidableEq

/-- `TERMINAL_STATUS`. -/
def Status.terminal : Status → Bool
  | .queued | .running => false
  | _ => true

abbrev TerminalStatus := { status : Status // status.terminal = true }

/-- `TERMINAL_STATUS.includes(status)`. -/
def Status.asTerminal (status : Status) : Option TerminalStatus :=
  if terminal : status.terminal = true then some ⟨status, terminal⟩ else none

structure JobRow where
  id : String
  kind : String
  app : String
  status : Status
  phase : Option String
  progress : Object
  checkpoint : Object
  owner : Option String
  epoch : Nat
  leaseExpiresAt : Option Time
  outcome : Option String
  createdAt : Time
  startedAt : Option Time
  finishedAt : Option Time
  updatedAt : Time

instance : Keyed JobRow String := ⟨JobRow.id⟩

structure LockRow where
  app : String
  owner : String
  operation : String
  jobId : Option String
  epoch : Nat
  acquiredAt : Time
  leaseExpiresAt : Time
  staleSince : Option Time
  recoveryJobId : Option String

instance : Keyed LockRow String := ⟨LockRow.app⟩

structure Db where
  jobs : Table JobRow
  locks : Table LockRow

def Db.empty : Db := ⟨∅, ∅⟩

/-- The regular expressions of `redact`: the rewriting of a text, the field names
that hold a secret, and the texts a field name declares to be a content hash. -/
structure Patterns where
  redactText : String → String
  holdsSecret : String → Bool
  contentHash : String → String → Bool

def REDACTED : Json := .text "[redacted]"

mutual

def redact (patterns : Patterns) (depth : Nat) : Json → Json
  | .text s => if depth > 12 then REDACTED else .text (patterns.redactText s)
  | .list items => if depth > 12 then REDACTED else .list (redactItems patterns (depth + 1) items)
  | .record fields => if depth > 12 then REDACTED else .record (redactFields patterns depth fields)
  | other => if depth > 12 then REDACTED else other

def redactItems (patterns : Patterns) (depth : Nat) : List Json → List Json
  | [] => []
  | item :: rest => redact patterns depth item :: redactItems patterns depth rest

def redactEntry (patterns : Patterns) (depth : Nat) (name : String) : Json → Json
  | .text s =>
    if patterns.holdsSecret name then REDACTED
    else if patterns.contentHash name s then .text s
    else redact patterns (depth + 1) (.text s)
  | .time t => if patterns.holdsSecret name then REDACTED else redact patterns (depth + 1) (.time t)
  | other => redact patterns (depth + 1) other

def redactFields (patterns : Patterns) (depth : Nat) : List (String × Json) → List (String × Json)
  | [] => []
  | (name, value) :: rest =>
    (name, redactEntry patterns depth name value) :: redactFields patterns depth rest

end

def Object.redact (patterns : Patterns) (object : Object) : Object :=
  object.map (fun field => ⟨field.name, redactEntry patterns 0 field.name field.value⟩) fun _ => rfl

theorem Object.value_set (object : Object) (name other : String) (value : Json) :
    (object.set name value).value other = if other = name then some value else object.value other := by
  unfold Object.value Object.set
  by_cases same : other = name
  · subst same
    rw [if_pos rfl]
    exact congrArg (Option.map Field.value) (object.get_put_self (⟨other, value⟩ : Field))
  · rw [if_neg same]
    exact congrArg (Option.map Field.value)
      (object.get_put_other (show other ≠ Keyed.key (⟨name, value⟩ : Field) from same))

@[simp] theorem Object.value_set_self (object : Object) (name : String) (value : Json) :
    (object.set name value).value name = some value := by
  rw [Object.value_set, if_pos rfl]

theorem Object.value_set_other (object : Object) {name other : String} (value : Json) (different : other ≠ name) :
    (object.set name value).value other = object.value other := by
  rw [Object.value_set, if_neg different]

theorem Object.value_erase_other (object : Object) {name other : String} (different : other ≠ name) :
    Object.value (object.erase name) other = object.value other := by
  unfold Object.value
  rw [Table.get_erase, if_neg different]

theorem Object.value_foldl (fields : List Field) (distinct : (fields.map Field.name).Nodup) (object : Object)
    (name : String) :
    Object.value (fields.foldl Table.put object) name =
      ((fields.find? (·.name = name)).map Field.value).or (object.value name) := by
  induction fields generalizing object with
  | nil => rfl
  | cons field rest ih =>
    obtain ⟨absent, distinct⟩ := List.nodup_cons.mp distinct
    rw [List.foldl_cons, ih distinct]
    have put := Object.value_set object field.name name field.value
    by_cases same : field.name = name
    · have none : rest.find? (·.name = name) = none := by
        refine List.find?_eq_none.mpr fun other member named => absent ?_
        rw [same, ← of_decide_eq_true named]
        exact List.mem_map.mpr ⟨other, member, rfl⟩
      rw [none, List.find?_cons_of_pos (by simpa using same)]
      rw [if_pos same.symm] at put
      exact put
    · rw [List.find?_cons_of_neg (by simpa using same)]
      rw [if_neg fun named => same named.symm] at put
      exact congrArg (Option.or _) put

theorem Object.value_spread (object fields : Object) (name : String) :
    (object.spread fields).value name = (fields.value name).or (object.value name) :=
  Object.value_foldl fields.rows fields.distinct object name

/-- A field the spread does not name keeps its value. -/
theorem Object.value_spread_other (object : Object) {fields : Object} {name : String}
    (absent : fields.has name = false) :
    (object.spread fields).value name = object.value name := by
  rw [Object.value_spread, Option.isSome_eq_false_iff.mp absent |> Option.isNone_iff_eq_none.mp]
  rfl

theorem Object.has_redact (patterns : Patterns) (object : Object) (name : String) :
    (object.redact patterns).has name = object.has name := by
  unfold Object.has Object.value Object.redact
  rw [Table.get_map]
  simp

end ProxyPilot.Setup
