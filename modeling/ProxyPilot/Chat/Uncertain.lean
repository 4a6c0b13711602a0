import ProxyPilot.Chat.Tasks
import ProxyPilot.Data.Stable

namespace ProxyPilot.Chat.Uncertain

open Data

/-! # What a stopped build left open (`task-logic.js`)

A cycle logs each turn of the model as its tool calls and then a result per call.  The
calls of the last turn without a result may or may not have happened.
-/

def MAX_UNCERTAIN : Nat := 8

inductive Kind where
  | toolCall
  | toolResult
  | aiMessage
  | gate
  | checkpoint
  | deploy
  | other (name : String)
deriving DecidableEq

/-- The input of a call: its text fields, and the whole as JSON text. -/
structure Input where
  texts : List (String × String)
  json : String

/-- What an event's `meta` says; a missing name is empty. -/
structure Details where
  name : String
  input : Option Input
  ok : Option Bool

structure Event where
  seq : Nat
  kind : Kind
  content : String
  details : Details

structure Pending where
  name : String
  summary : String

section

-- `sanitize`: `sanitizeTaskText`, redacted and clipped to a length
variable (sanitize : Nat → String → String)

def oneLine (text : String) (max : Nat) : String := sanitize max (String.ofList (oneSpace text.toList))

def orElse (text other : String) : String := if text = "" then other else text

def TOOL_SUMMARY_KEYS : List String := ["command", "cmd", "path", "file", "from", "url", "query", "name"]

def toolCallSummary (details : Details) : String :=
  match details.input with
  | none => ""
  | some input =>
    match TOOL_SUMMARY_KEYS.findSome? fun key => (input.texts.lookup key).filter fun text =>
      !(trim text.toList).isEmpty with
    | some text => oneLine sanitize text 120
    | none => if input.json = "" ∨ input.json = "\x7b\x7d" then "" else oneLine sanitize input.json 120

def Event.callName (e : Event) : String := orElse e.details.name (orElse e.content "a tool")

def Event.pending (e : Event) : Pending := ⟨e.callName, toolCallSummary sanitize e.details⟩

/-- `pending.splice(…)`: a result takes away the first call of its name, else the first call. -/
def answer (name : String) (pending : List Pending) : List Pending :=
  match pending.findIdx? fun p => name != "" && p.name == name with
  | some i => pending.eraseIdx i
  | none => pending.eraseIdx 0

structure Tracked where
  pending : List Pending
  prevKind : Option Kind
  deployOpen : Bool

def Tracked.start : Tracked := ⟨[], none, false⟩

def DEPLOY_LINE : String :=
  "A deploy was in progress when the build stopped — check whether the app serves the new version before deploying again"

def Pending.line (p : Pending) : String :=
  "Check whether " ++ orElse (oneLine sanitize p.name 60) "a tool" ++
    (if p.summary = "" then "" else " (" ++ p.summary ++ ")") ++
    " completed before repeating it"

/-- `add`: a new line, while there is room. -/
def add (out : List String) (line : String) : List String :=
  if line ≠ "" ∧ line ∉ out ∧ out.length < MAX_UNCERTAIN then out ++ [line] else out

/-- The lines that are offered: the deploy, and the calls still pending. -/
def Tracked.lines (state : Tracked) (deploying : Bool) : List String :=
  (if state.deployOpen || deploying then [DEPLOY_LINE] else []) ++ state.pending.map (Pending.line sanitize)

/-- An event that says nothing of a turn. -/
def Event.silent (e : Event) : Bool :=
  match e.kind with
  | .deploy | .other _ => true
  | _ => false

def Event.isCall (e : Event) : Bool := e.kind == .toolCall

def Event.isResult (e : Event) : Bool := e.kind == .toolResult

/-- The events of a turn: up to its last call, and behind it. -/
structure Turn where
  front : List Event
  back : List Event

def Turn.events (turn : Turn) : List Event := turn.front ++ turn.back

def Turn.calls (turn : Turn) : List Event := turn.front.filter Event.isCall

def Turn.results (turn : Turn) : List Event := turn.back.filter Event.isResult

/-- The calls without a result. -/
def Turn.unanswered (turn : Turn) : List Event := turn.calls.drop turn.results.length

/-- The calls come first, and the results answer them in order, each by its tool's name. -/
structure Turn.Logged (turn : Turn) : Prop where
  calls : turn.calls ≠ []
  front : ∀ e ∈ turn.front, e.isCall = true ∨ e.silent = true
  back : ∀ e ∈ turn.back, e.isResult = true ∨ e.silent = true
  answers : turn.results.map (fun e => e.details.name) <+: turn.calls.map Event.callName

/-- The calls of the last turn that have no result. -/
def openCalls (turns : List Turn) : List Event := (turns.getLast?.map Turn.unanswered).getD []

/-- The last deploy event carries no outcome. -/
def deployUnreported (events : List Event) : Bool :=
  (events.filter fun e => e.kind == .deploy).getLast?.any fun e => e.details.ok.isNone

/-- The lines a log stands for. -/
def expected (events : List Event) (turns : List Turn) (deploying : Bool) : List String :=
  (if deployUnreported events || deploying then [DEPLOY_LINE] else []) ++
    (openCalls turns).map fun e => (e.pending sanitize).line sanitize

end

variable {sanitize : Nat → String → String} {state : Tracked} {events lead : List Event} {turns : List Turn}

variable {rows : List Event} {e : Event} {turn : Turn}

variable (sanitize)

end ProxyPilot.Chat.Uncertain
