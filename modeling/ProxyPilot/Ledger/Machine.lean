import ProxyPilot.Ledger.Books
import ProxyPilot.Transition.System

namespace ProxyPilot.Ledger

open Data Transition

/-! # Threads, crashes and the journal

A block under `self.lock` is one step. It changes the memory, and the journal as
well where its `_save` succeeds; where that raises, the thread ends.
-/

def State.note (s : State) (event : Event) : State := { s with history := s.history ++ [event] }

def State.store (s : State) (b : Books) (saves : Bool) : State :=
  { s with memory := b, journal := if saves then b else s.journal }

def State.finish (s : State) (t : Thread) : State :=
  { s with threads := s.threads.erase t.id, holder := if s.holder = some t.id then none else s.holder }

def State.goto (s : State) (t : Thread) (stage : Stage) : State :=
  { s with threads := s.threads.put { t with stage := stage } }

/-- Go on where the save succeeded. -/
def State.gotoIf (s : State) (saves : Bool) (t : Thread) (stage : Stage) : State :=
  if saves then s.goto t stage else s.finish t

def State.atStage (s : State) (thread : Nat) (stage : Stage) : Option Thread :=
  (s.threads.get thread).filter fun t => t.stage == stage

/-- Proofs that read no key and ask no provider. -/
def Thread.offline (t : Thread) : Bool := t.proof == some .replyOutsideSet || t.proof == some .usageMissing

def State.begin (s : State) (kind : Kind) (request : Request) (proof : Option Proof) (control : Option Control)
    (browser : Option BrowserInput) : State :=
  if validRequest kind request then
    { s with
      threads := s.threads.put ⟨s.next, kind, request, proof, control, browser, .waiting⟩,
      next := s.next + 1 }
  else s

def State.beginControlled (s : State) (kind : Kind) (request : Request)
    (browser : Option BrowserInput) (control : Except Code Control) : State :=
  match control with
  | .ok control => s.begin kind request none (some control) browser
  | .error _ => s

/-- A waiting review or browser call looks whether it may still go on. -/
def State.poll (s : State) (t : Thread) (times : Times) : State :=
  match reviewRefusal s.memory t.request.runId t.control times with
  | some _ => s.finish t
  | none => s

def State.acquire (s : State) (t : Thread) (times : Times) : State :=
  match reviewRefusal s.memory t.request.runId t.control times with
  | some _ => s.finish t
  | none => { s with holder := some t.id }.goto t .admitted

/-- A call id is single-use; a refused call keeps it as well. -/
def State.reserve (s : State) (t : Thread) (times : Times) (saves : Bool) : State :=
  match reviewRefusal s.memory t.request.runId t.control times, s.memory.calls.get t.request.callId with
  | none, none =>
    let reserved := reserveCall s.memory t
    (s.store reserved.1 saves).gotoIf (saves && reserved.2) t .reserved
  | _, _ => s.finish t

def State.release (s : State) (t : Thread) (call : Call) (code : Code) (saves : Bool) : State :=
  ((s.store (s.memory.release call .refused (some code)) saves).note (.released call.id)).finish t

/-- `_review_allowed` with the call: one that is not sent yet is released. -/
def State.refuse (s : State) (t : Thread) (call : Call) (code : Code) (saves : Bool) : State :=
  if call.state = .reserved then s.release t call code saves else s.finish t

def State.prepare (s : State) (t : Thread) (call : Call) (times : Times) (saves : Bool) : State :=
  match reviewRefusal s.memory t.request.runId t.control times with
  | some code => s.refuse t call code saves
  | none => s.goto t .reading

inductive VaultAnswer where
  | value
  | refused (code : String)
  | raised

def State.read (s : State) (t : Thread) (call : Call) (answer : VaultAnswer) (saves : Bool) : State :=
  match answer with
  | .value => s.goto t .ready
  | .refused code => s.release t call (.vault code) saves
  | .raised => s.finish t

def admittedEvents (call : Call) (saves : Bool) : List Event :=
  if saves then [.admitted call.id call.runId call.kind] else []

def State.send (s : State) (t : Thread) (call : Call) (times : Times) (saves : Bool) : State :=
  match reviewRefusal s.memory t.request.runId t.control times with
  | some code => s.refuse t call code saves
  | none =>
    let sent := s.store (s.memory.mark call .sent none) saves
    { sent with history := s.history ++ admittedEvents call saves }.gotoIf saves t .sent

def State.prove (s : State) (t : Thread) (call : Call) (saves : Bool) : State :=
  (s.store (s.memory.mark { call with providerContacted := false } .sent none) saves).gotoIf saves t .sent

def State.contact (s : State) (t : Thread) : State :=
  (s.note (.contacted t.request.callId (s.journal.calls.get t.request.callId))).goto t .contacted

def releasedEvents (call : Call) (released : Bool) : List Event := if released then [.released call.id] else []

def State.settle (s : State) (t : Thread) (call : Call) (status : Nat) (answer : Option Answer)
    (events : List Event) (saves : Bool) : State :=
  let settled := settleAnswer s.memory call status answer
  { s.store settled.1 saves with history := s.history ++ events ++ releasedEvents call settled.2 }.finish t

def State.answer (s : State) (t : Thread) (call : Call) (outcome : Outcome) (saves : Bool) : State :=
  match outcome with
  | .failed => (s.store (s.memory.mark call .uncertain (some .providerError)) saves).finish t
  | .raised => s.finish t
  | .replied status answer => s.settle t call status answer [.answered call.id status] saves

/-- The fixed reply of a proof is settled as if a provider had sent it. -/
def State.proved (s : State) (t : Thread) (call : Call) (proof : Proof) (saves : Bool) : State :=
  s.settle t call 200 (some (proofAnswer proof t.request.model t.promptBytes)) [] saves

/-- The process ends, and starts again from the journal. -/
def State.crash (s : State) : State where
  memory := recover s.journal
  journal := recover s.journal
  threads := ∅
  holder := none
  next := s.next
  history := s.history ++ (abandoned s.journal).map .released

inductive Label where
  | binding (record : Binding) (saves : Bool)
  | pinRun (id : String) (pins : Pins) (saves : Bool)
  | providerBind (vaultKey : String) (version : Nat) (saves : Bool)
  | priceSet (price : Price) (saves : Bool)
  | priceClear (saves : Bool)
  | cancel (runId : String) (saves : Bool)
  | modelCall (request : Request) (proof : Option Proof)
  | summaryCall (request : Request)
  | reviewCall (request : Request) (deadline : Deadline) (times : Times)
  | browserModelCall (request : Request) (deadline : Deadline) (browser : BrowserInput) (times : Times)
  | poll (thread : Nat) (times : Times)
  | acquire (thread : Nat) (times : Times)
  | reserve (thread : Nat) (times : Times) (saves : Bool)
  | prove (thread : Nat) (saves : Bool)
  | prepare (thread : Nat) (times : Times) (saves : Bool)
  | vault (thread : Nat) (answer : VaultAnswer) (saves : Bool)
  | send (thread : Nat) (times : Times) (saves : Bool)
  | contact (thread : Nat)
  | answer (thread : Nat) (outcome : Outcome) (saves : Bool)
  | proved (thread : Nat) (saves : Bool)
  | crash

def State.pin (s : State) (id : String) (pins : Pins) (saves : Bool) : State :=
  match Ledger.pinRun s.memory id pins with
  | .ok (some b) => s.store b saves
  | _ => s

/-- The tombstone holds over a restart only where it was saved. -/
def State.cancel (s : State) (runId : String) (saves : Bool) : State :=
  let stored := s.store (Ledger.cancel s.memory runId) saves
  if saves then stored.note (.cancelled runId) else stored

/-- A thread at a stage, with the call it holds. -/
def State.held (s : State) (thread : Nat) (stage : Stage) : Option (Thread × Call) :=
  (s.atStage thread stage).bind fun t => (s.memory.calls.get t.request.callId).map fun call => (t, call)

def step (s : State) : Label → Option State
  | .binding record saves => some (s.store { s.memory with bindings := s.memory.bindings.put record } saves)
  | .pinRun id pins saves => some (s.pin id pins saves)
  | .providerBind vaultKey version saves => some (s.store (providerBind s.memory vaultKey version) saves)
  | .priceSet price saves => some (s.store (priceSet s.memory price) saves)
  | .priceClear saves => some (s.store (priceClear s.memory) saves)
  | .cancel runId saves => some (s.cancel runId saves)
  | .modelCall request proof => some (s.begin .step request proof none none)
  | .summaryCall request => some (s.begin .summary request none none none)
  | .reviewCall request deadline times =>
    some (s.beginControlled .publicReview request none (Ledger.reviewCall s.memory request deadline times))
  | .browserModelCall request deadline browser times =>
    some (s.beginControlled .selectedBrowser request (some browser)
      (Ledger.browserModelCall s.memory request deadline browser times))
  | .poll thread times => (s.atStage thread .waiting).map fun t => s.poll t times
  | .acquire thread times =>
    (s.atStage thread .waiting).bind fun t => if s.holder = none then some (s.acquire t times) else none
  | .reserve thread times saves => (s.atStage thread .admitted).map fun t => s.reserve t times saves
  | .prove thread saves =>
    ((s.held thread .reserved).filter fun found => found.1.offline).map fun found => s.prove found.1 found.2 saves
  | .prepare thread times saves =>
    ((s.held thread .reserved).filter fun found => !found.1.offline).map fun found =>
      s.prepare found.1 found.2 times saves
  | .vault thread answer saves => (s.held thread .reading).map fun found => s.read found.1 found.2 answer saves
  | .send thread times saves => (s.held thread .ready).map fun found => s.send found.1 found.2 times saves
  | .contact thread => ((s.atStage thread .sent).filter fun t => !t.offline).map fun t => s.contact t
  | .answer thread outcome saves =>
    (s.held thread .contacted).map fun found => s.answer found.1 found.2 outcome saves
  | .proved thread saves =>
    (s.held thread .sent).bind fun found =>
      (found.1.proof.filter fun _ => found.1.offline).map fun proof => s.proved found.1 found.2 proof saves
  | .crash => some s.crash

def Books.empty : Books := ⟨∅, ∅, ∅, 0, none, none, []⟩

def State.start : State := ⟨.empty, .empty, ∅, none, 0, []⟩

def machine : System State Label where
  initial := (· = .start)
  step := step

end ProxyPilot.Ledger
