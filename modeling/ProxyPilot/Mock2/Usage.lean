import Mathlib.Algebra.BigOperators.Group.List.Lemmas
import Mathlib.Algebra.Order.Monoid.WithTop
import Mathlib.Algebra.Order.Ring.Rat
import Mathlib.Order.WithBot

namespace ProxyPilot.Mock2.Usage

/-! # Canonical usage records (`usage-logic.js`)

A number is exact, and NaN is the bottom element: it absorbs every sum and every minimum it
enters, and is at least no number.
-/

abbrev Number := WithBot Rat

/-- A field of a row; `null` and a field that is not there are `missing`. -/
inductive Value where
  | missing
  | number (value : Number)
  | text (value : String)
deriving DecidableEq

/-- A usage-ish object: its own fields, and the record nested under `usage` when there is one. -/
inductive Row where
  | plain (fields : List (String × Value))
  | shaped (fields : List (String × Value)) (usage : Row)

namespace Row

def fields : Row → List (String × Value)
  | plain fields => fields
  | shaped fields _ => fields

def get (row : Row) (key : String) : Value := (row.fields.lookup key).getD .missing

end Row

/-- `Number(value || 0)` keeps a value that is truthy. -/
def Value.orZero : Value → Value
  | .missing => .number 0
  | .number value => if value = ⊥ then .number 0 else .number value
  | .text value => if value = "" then .number 0 else .text value

/-- `left ?? right` -/
def Value.orElse : Value → Value → Value
  | .missing, right => right
  | left, _ => left

section

-- the number a non-empty text denotes
variable (readNumber : String → Number)

/-- `Number(value)` -/
def Value.toNumber : Value → Number
  | .missing => ⊥
  | .number value => value
  | .text value => if value = "" then 0 else readNumber value

/-- `Number(value) || 0` -/
def Value.figure (value : Value) : Rat := (value.toNumber readNumber).unbotD 0

def CACHE_READ_MULT : Rat := 1 / 10
def CACHE_WRITE_MULT : Rat := 5 / 4

structure Price where
  input_cents_per_mtok : Rat
  output_cents_per_mtok : Rat
  cached_input_cents_per_mtok : Option Rat
  cache_write_mult : Option Rat
  long_context_multiplier : Rat

structure Tokens where
  input : Rat
  output : Rat
  cache_read : Rat
  cache_write : Rat

def clamp01 (share : Rat) : Rat := min 1 (max 0 share)

def costCentsForUsage (tokens : Tokens) (longContextInputShare longContextOutputShare : Rat) :
    Option Price → Rat
  | none => 0
  | some price =>
    let inRate := price.input_cents_per_mtok
    let readRate := price.cached_input_cents_per_mtok.getD (inRate * CACHE_READ_MULT)
    let writeMult := price.cache_write_mult.getD CACHE_WRITE_MULT
    let inC := tokens.input / 1000000 * inRate
    let outC := tokens.output / 1000000 * price.output_cents_per_mtok
    let readC := tokens.cache_read / 1000000 * readRate
    let writeC := tokens.cache_write / 1000000 * inRate * writeMult
    let total := inC + outC + readC + writeC
    let lcMult := if price.long_context_multiplier = 0 then 1 else price.long_context_multiplier
    if 1 < lcMult then
      total + (lcMult - 1) *
        (clamp01 longContextInputShare * (inC + readC + writeC) + clamp01 longContextOutputShare * outC)
    else total

def usageCostCents (tokens : Tokens) (price : Option Price) : Rat := costCentsForUsage tokens 0 0 price

@[simp] theorem usageCostCents_none (tokens : Tokens) : usageCostCents tokens none = 0 := rfl

def USAGE_SCHEMA_VERSION : Rat := 3

def INPUT : List String := ["input", "inputTokens", "input_tokens"]
def OUTPUT : List String := ["output", "outputTokens", "output_tokens"]
def CACHE_READ : List String :=
  ["cache_read", "cacheReadTokens", "cacheReadInputTokens", "cache_read_tokens", "cache_read_input_tokens"]
def CACHE_WRITE : List String :=
  ["cache_write", "cacheWriteTokens", "cacheCreationInputTokens", "cache_write_tokens",
    "cache_creation_input_tokens"]

structure Canonical where
  input : Rat
  output : Rat
  cache_read : Rat
  cache_write : Rat
  cost_cents : Rat
  schema_version : Value

/-- `n(...keys)`: the first spelling that is neither missing nor the empty text. -/
def Row.n (row : Row) : List String → Rat
  | [] => 0
  | key :: keys =>
    if row.get key = .missing ∨ row.get key = .text "" then row.n keys
    else (row.get key).figure readNumber

/-- No token field of its own, as the test before unwrapping reads it. -/
def Row.unspelled (row : Row) : Prop :=
  row.get "input" = .missing ∧ row.get "inputTokens" = .missing ∧ row.get "input_tokens" = .missing

instance (row : Row) : Decidable row.unspelled := by unfold Row.unspelled; infer_instance

/-- The explicit cost of a row, when it has one. -/
def Row.cost (row : Row) : Option Rat :=
  if row.get "cost_cents" ≠ .missing then some ((row.get "cost_cents").figure readNumber)
  else if row.get "used_cost_cents" ≠ .missing then some ((row.get "used_cost_cents").figure readNumber)
  else none

def readRow (price : Option Price) (schemaVersion : Value) (row : Row) : Canonical :=
  let input := row.n readNumber INPUT
  let output := row.n readNumber OUTPUT
  let cache_read := row.n readNumber CACHE_READ
  let cache_write := row.n readNumber CACHE_WRITE
  { input, output, cache_read, cache_write,
    cost_cents := (row.cost readNumber).getD (usageCostCents { input, output, cache_read, cache_write } price),
    schema_version := schemaVersion }

def canonicalUsage (price : Option Price) : Row → Value → Canonical
  | .plain fields, schemaVersion => readRow readNumber price schemaVersion (.plain fields)
  | .shaped fields usage, schemaVersion =>
    if (Row.shaped fields usage).unspelled then
      canonicalUsage price usage ((usage.get "schema_version").orElse schemaVersion)
    else readRow readNumber price schemaVersion (.shaped fields usage)

/-- The canonical record as a row of its own. -/
def Canonical.row (usage : Canonical) : Row :=
  .plain [("input", .number usage.input), ("output", .number usage.output),
    ("cache_read", .number usage.cache_read), ("cache_write", .number usage.cache_write),
    ("cost_cents", .number usage.cost_cents), ("schema_version", usage.schema_version)]

structure Total where
  input : Number
  output : Number
  cache_read : Number
  cache_write : Number
  cost_cents : Number
  schema_version : Number

def Total.row (total : Total) : Row :=
  .plain [("input", .number total.input), ("output", .number total.output),
    ("cache_read", .number total.cache_read), ("cache_write", .number total.cache_write),
    ("cost_cents", .number total.cost_cents), ("schema_version", .number total.schema_version)]

/-- The rows that `sumUsage` reads as they are. -/
def Row.direct (row : Row) : Prop :=
  row.get "input" ≠ .missing ∨ row.get "output" ≠ .missing ∨ row.get "cache_read" ≠ .missing

instance (row : Row) : Decidable row.direct := by unfold Row.direct; infer_instance

def counted (row : Row) : Row :=
  if row.direct then row else (canonicalUsage readNumber none row (.number USAGE_SCHEMA_VERSION)).row

/-- `Number(u[key] || 0)` -/
def Row.amount (row : Row) (key : String) : Number := (row.get key).orZero.toNumber readNumber

def addRow (acc : Total) (row : Row) : Total :=
  let u := counted readNumber row
  { input := acc.input + u.amount readNumber "input"
    output := acc.output + u.amount readNumber "output"
    cache_read := acc.cache_read + u.amount readNumber "cache_read"
    cache_write := acc.cache_write + u.amount readNumber "cache_write"
    cost_cents := acc.cost_cents + u.amount readNumber "cost_cents"
    schema_version :=
      if u.get "schema_version" ≠ .missing then
        min acc.schema_version ((u.get "schema_version").toNumber readNumber)
      else acc.schema_version }

def zero : Total := ⟨0, 0, 0, 0, 0, USAGE_SCHEMA_VERSION⟩

/-- The total and `sawAny` after one more record; a null record is passed over. -/
def addRecord (acc : Total × Bool) : Option Row → Total × Bool
  | none => acc
  | some row => (addRow readNumber acc.1 row, true)

def sumUsage (records : List (Option Row)) : Total :=
  let sum := records.foldl (addRecord readNumber) (zero, false)
  if sum.2 then sum.1 else { sum.1 with schema_version := USAGE_SCHEMA_VERSION }

end

/-- The test of a total's basis. -/
def Total.Comparable (total : Total) : Prop := (USAGE_SCHEMA_VERSION : Number) ≤ total.schema_version

end ProxyPilot.Mock2.Usage
