import ProxyPilot.Data.CanonicalRead
import ProxyPilot.Data.Chain
import ProxyPilot.Data.Text
import ProxyPilot.Data.Utf8

namespace ProxyPilot.Gateway.FileLedger

open Data (linesOf)
open Data.Canonical

/-! # The ledger file (`selected_browser_gateway.py`)

`FileLedger` keeps its rows in a file, one line of canonical JSON for each, and reads them back as
it opens the file.
-/

structure Row (F : Type) where
  sequence : Value F
  previousSha256 : Text
  kind : Value F
  data : Value F
  sha256 : Text

structure Ledger (F : Type) where
  file : List UInt8
  rows : List (Row F)
  approvals : List (Value F)

def sequenceName : Text := "sequence".toList
def previousName : Text := "previous_sha256".toList
def kindName : Text := "kind".toList
def dataName : Text := "data".toList
def shaName : Text := "sha256".toList
def approvalConsumed : Text := "approval_consumed".toList
def approvalIdName : Text := "approval_id".toList
def bindingName : Text := "binding_sha256".toList

section Rows

variable {F : Type}

def Row.signed (row : Row F) : List (Text × Value F) :=
  [(sequenceName, row.sequence), (previousName, .text row.previousSha256), (kindName, row.kind),
    (dataName, row.data)]

/-- The row without its own hash. -/
def Row.unsigned (row : Row F) : Value F := .object row.signed

def Row.value (row : Row F) : Value F := .object (row.signed ++ [(shaName, .text row.sha256)])

def zeros : Text := List.replicate 64 '0'

/-- `self.sha256` -/
def lastSha (rows : List (Row F)) : Text := (rows.getLast?.map Row.sha256).getD zeros

def textOf : Value F → Option Text
  | .text text => some text
  | _ => none

def isText (text : Text) (value : Value F) : Bool := textOf value == some text

/-- What may be put into a set. -/
def hashable : Value F → Bool
  | .array _ => false
  | .object _ => false
  | _ => true

end Rows

variable (floats : Floats) (digest : Text → Text)

def append (ledger : Ledger floats.Float) (kind data : Value floats.Float) : Option (Ledger floats.Float) :=
  let row : Row floats.Float := ⟨.int (ledger.rows.length + 1), lastSha ledger.rows, kind, data, []⟩
  (canonical floats row.unsigned).bind fun text =>
    let row := { row with sha256 := digest text }
    (canonical floats row.value).map fun line =>
      { ledger with file := ledger.file ++ Data.Utf8.encode (line ++ ['\n']), rows := ledger.rows ++ [row] }

def consume (ledger : Ledger floats.Float) (approvalId bindingSha256 : Text) : Option (Ledger floats.Float) :=
  if ledger.approvals.any (isText approvalId) = true then none
  else (append floats digest ledger (.text approvalConsumed)
      (.object [(approvalIdName, .text approvalId), (bindingName, .text bindingSha256)])).map fun next =>
    { next with approvals := next.approvals ++ [.text approvalId] }

/-- `row['sequence'] == n`, where a truth value counts as a number. -/
def isIndex (n : Nat) : Value floats.Float → Bool
  | .int k => k == n
  | .bool b => b.toNat == n
  | .float f => floats.isWhole f n
  | _ => false

/-- The row of exactly the five names. A hash that is no text is none that fits. -/
def exactRow {F : Type} (fields : List (Text × Value F)) : Option (Row F) :=
  if fields.length = 5 then do
    let sequence ← fields.lookup sequenceName
    let previousSha256 ← (fields.lookup previousName).bind textOf
    let kind ← fields.lookup kindName
    let data ← fields.lookup dataName
    let sha256 ← (fields.lookup shaName).bind textOf
    some ⟨sequence, previousSha256, kind, data, sha256⟩
  else none

def checkFields (rows : List (Row floats.Float)) (fields : List (Text × Value floats.Float)) :
    Option (Row floats.Float) := do
  let row ← exactRow fields
  let text ← canonical floats (.object (fields.filter fun field => field.1 != shaName))
  if isIndex floats (rows.length + 1) row.sequence = true ∧ row.previousSha256 = lastSha rows ∧
    row.sha256 = digest text then some row
  else none

def fieldsOf {F : Type} : Value F → Option (List (Text × Value F))
  | .object fields => some fields
  | _ => none

def checkRow (rows : List (Row floats.Float)) (line : Text) : Option (Row floats.Float) :=
  ((strictJson floats line).bind fieldsOf).bind (checkFields floats digest rows)

/-- What a row adds to the approvals that are used up; a row of that kind without one raises. -/
def approvalOf {F : Type} (row : Row F) : Option (List (Value F)) :=
  if isText approvalConsumed row.kind = true then
    ((fieldsOf row.data).bind (·.lookup approvalIdName)).bind fun id =>
      if hashable id = true then some [id] else none
  else some []

structure Opened (F : Type) where
  rows : List (Row F)
  approvals : List (Value F)

def readLine (opened : Opened floats.Float) (line : Text) : Option (Opened floats.Float) := do
  let row ← checkRow floats digest opened.rows (line ++ ['\n'])
  let gained ← approvalOf row
  some ⟨opened.rows ++ [row], opened.approvals ++ gained⟩

/-- A text stream gives every line end as a line feed. -/
def newlines (afterReturn : Bool) : Text → Text
  | [] => []
  | c :: rest =>
    if c = '\r' then '\n' :: newlines true rest
    else if c = '\n' ∧ afterReturn = true then newlines false rest
    else c :: newlines false rest

def maxFile : Nat := 64 * 1024 * 1024

/-- The lines of a text that ends with a line feed. -/
def completeLines (text : Text) : Option (List Text) :=
  let lines := linesOf (newlines false text)
  if lines.getLast? = some [] then some lines.dropLast else none

def readLines (lines : List Text) : Option (Opened floats.Float) := lines.foldlM (readLine floats digest) ⟨[], []⟩

/-- `FileLedger(path)` on a file that is safe but for its size. -/
def openLedger (file : List UInt8) : Option (Ledger floats.Float) :=
  if maxFile < file.length then none
  else do
    let text ← Data.Utf8.decodeStrict file
    let lines ← completeLines text
    let opened ← readLines floats digest lines
    some ⟨file, opened.rows, opened.approvals⟩

/-- The gateway appends events of other kinds, consumes approvals and opens the file again. -/
inductive Step : Ledger floats.Float → Ledger floats.Float → Prop
  | event {ledger next : Ledger floats.Float} {kind : Text} {data : Value floats.Float}
      (other : kind ≠ approvalConsumed) (distinct : Distinct data)
      (appended : append floats digest ledger (.text kind) data = some next) : Step ledger next
  | consume {ledger next : Ledger floats.Float} {approvalId bindingSha256 : Text}
      (consumed : consume floats digest ledger approvalId bindingSha256 = some next) : Step ledger next
  | reopen {ledger next : Ledger floats.Float}
      (opened : openLedger floats digest ledger.file = some next) : Step ledger next

inductive Reachable : Ledger floats.Float → Prop
  | start : Reachable ⟨[], [], []⟩
  | step {ledger next : Ledger floats.Float} (before : Reachable ledger)
      (step : Step floats digest ledger next) : Reachable next

end ProxyPilot.Gateway.FileLedger
