import ProxyPilot.Gateway.Authority

namespace ProxyPilot.Gateway

open Data Transition

/-! # The registry of attempts (`SelectedGatewayRegistry`)

The directory holds the latch and one ledger for each attempt. Every write of a file is a
step of its own, after which the process may crash; the lock keeps other calls out until
the call is done.
-/

inductive Latch where
  | empty
  | cut
  | whole (identity : Identity)

structure LedgerFile where
  attemptId : String
  lines : List Line

instance : Keyed LedgerFile String := ⟨LedgerFile.attemptId⟩

/-- A gateway object, and the process it lives in. -/
structure Live where
  era : Nat
  world : World
  attempt : Attempt

def Live.identity (live : Live) : Identity := live.world.policy.identity

def Live.revoked (live : Live) : Prop := live.attempt.gateway.phase = .revoked

/-- Where a call of the registry stands. -/
inductive Doing where
  | idle
  | latching (w : World)
  | syncing (w : World)
  | opening (w : World)
  | starting (w : World)
  | unlinking
  | unlinked

structure Registry where
  era : Nat
  latched : Option Identity
  gateway : Option Live
  doing : Doing
  /-- Released gateways that a thread of the proxy may still hold. -/
  released : List Live

structure Host where
  latch : Option Latch
  ledgers : Table LedgerFile
  registry : Option Registry
  eras : Nat
  /-- Every attempt that a gateway was made for. -/
  registered : List String
  /-- The gateways that were lost with their process. -/
  lost : List Live

/-- What the constructor of `FileLedger` meets. -/
inductive Opened where
  | refused
  | rejected
  | fine

def readable : List Line → Option (List Row)
  | [] => some []
  | .torn :: _ => none
  | .whole row :: rest => (readable rest).map (row :: ·)

def Host.lines (h : Host) (attemptId : String) : List Line :=
  ((h.ledgers.get attemptId).map LedgerFile.lines).getD []

def Host.setLines (h : Host) (attemptId : String) (lines : List Line) : Host :=
  { h with ledgers := h.ledgers.put ⟨attemptId, lines⟩ }

def Host.set (h : Host) (r : Registry) : Host := { h with registry := some r }

inductive Call where
  | register (w : Except Failure World) (opens : Bool)
  | writeLatch (written : Written)
  | syncLatch (synced : Bool)
  | openLedger (opened : Opened)
  | startGateway (written : Written)
  | release (identity : Option Identity) (cleanup : Bool)
  | unlinkLatch (unlinked : Bool)
  | syncRelease (synced : Bool)
  | act (identity : Option Identity) (label : Label)
  | stale (index : Nat) (label : Label)
  | crash
  | crashDuring (identity : Option Identity) (label : Label) (lines : Nat)
  | restart (safe : Bool)

/-- The methods that come through the control socket. -/
def Label.bound : Label → Bool
  | .review .. | .approve .. | .grant .. | .deny _ | .pause | .resume | .revoke | .status => true
  | _ => false

/-- The first thing a thread of the proxy calls. -/
def Label.enters : Label → Bool
  | .connect _ | .forward _ => true
  | _ => false

def register (h : Host) (r : Registry) (w : Except Failure World) (opens : Bool) : Option Host :=
  match r.doing, r.latched, w with
  | .idle, none, .ok w =>
    if h.latch.isSome || !opens then some h
    else some ({ h with latch := some .empty }.set { r with doing := .latching w })
  | .idle, _, _ => some h
  | _, _, _ => none

def Latch.left (identity : Identity) : Written → Latch
  | .whole | .fails true => .whole identity
  | .short => .cut
  | .fails false => .empty

/-- A short or failed write is raised with the latch in place and nothing latched in memory. -/
def writeLatch (h : Host) (r : Registry) (written : Written) : Option Host :=
  match r.doing with
  | .latching w =>
    let after := { h with latch := some (.left w.policy.identity written) }
    some (after.set { r with doing := if written = Written.whole then .syncing w else .idle })
  | _ => none

def syncLatch (h : Host) (r : Registry) (synced : Bool) : Option Host :=
  match r.doing with
  | .syncing w =>
    if synced then some (h.set { r with latched := some w.policy.identity, doing := .opening w })
    else some (h.set { r with doing := .idle })
  | _ => none

def openLedger (h : Host) (r : Registry) (opened : Opened) : Option Host :=
  match r.doing with
  | .opening w =>
    let attemptId := w.policy.identity.attemptId
    let created := h.setLines attemptId (h.lines attemptId)
    match opened with
    | .refused => some (h.set { r with doing := .idle })
    | .rejected => some (created.set { r with doing := .idle })
    | .fine =>
      some (created.set { r with doing := if readable (h.lines attemptId) = some [] then .starting w else .idle })
  | _ => none

def startGateway (h : Host) (r : Registry) (written : Written) : Option Host :=
  match r.doing with
  | .starting w =>
    let identity := w.policy.identity
    let ledger := Ledger.write ⟨[], [], h.lines identity.attemptId⟩ (.attemptRegistered identity) written
    let after := h.setLines identity.attemptId ledger.file
    if written = .whole then
      some ({ after with registered := h.registered ++ [identity.attemptId] }.set
        { r with gateway := some ⟨r.era, w, .start w⟩, doing := .idle })
    else some (after.set { r with doing := .idle })
  | _ => none

def release (h : Host) (r : Registry) (identity : Option Identity) (cleanup : Bool) : Option Host :=
  match r.doing with
  | .idle =>
    if identity ≠ r.latched ∨ cleanup = false then some h
    else
      match r.gateway with
      | none => some (h.set { r with doing := .unlinking })
      | some live =>
        if live.attempt.gateway.phase ≠ .revoked ∨ live.attempt.gateway.inflight ≠ 0 then some h
        else some (h.set { r with gateway := none, doing := .unlinking, released := r.released ++ [live] })
  | _ => none

def unlinkLatch (h : Host) (r : Registry) (unlinked : Bool) : Option Host :=
  match r.doing with
  | .unlinking =>
    if h.latch.isSome && unlinked then some ({ h with latch := none }.set { r with doing := .unlinked })
    else some (h.set { r with doing := .idle })
  | _ => none

def syncRelease (h : Host) (r : Registry) (synced : Bool) : Option Host :=
  match r.doing with
  | .unlinked => some (h.set { r with latched := if synced then none else r.latched, doing := .idle })
  | _ => none

/-- `never_registered`. -/
def neverRegistered (h : Host) (r : Registry) (attemptId : String) : Bool :=
  r.latched.isNone && r.gateway.isNone && h.latch.isNone && (h.ledgers.get attemptId).isNone

/-- `_bound`, and the threads of the proxy. -/
def Registry.bound (r : Registry) (identity : Option Identity) (label : Label) : Option Live :=
  if label.bound && identity ≠ r.latched then none else r.gateway

def Live.perform (live : Live) (label : Label) : Live :=
  { live with attempt := left (Gateway.perform live.world label) live.attempt }

def act (h : Host) (r : Registry) (identity : Option Identity) (label : Label) : Option Host :=
  (r.bound identity label).map fun live =>
    let after := live.perform label
    (h.setLines live.identity.attemptId after.attempt.gateway.ledger.file).set { r with gateway := some after }

def stale (h : Host) (r : Registry) (index : Nat) (label : Label) : Option Host :=
  if label.enters then
    (r.released[index]?).map fun live => h.set { r with released := r.released.set index (live.perform label) }
  else none

def crash (h : Host) (r : Registry) : Host :=
  { h with registry := none, lost := h.lost ++ r.gateway.toList ++ r.released }

/-- Some of what the call appends to the ledger is there, and no reply was given. -/
def crashDuring (h : Host) (r : Registry) (identity : Option Identity) (label : Label)
    (lines : Nat) : Option Host :=
  (r.bound identity label).map fun live =>
    let after := live.perform label
    let kept := max lines live.attempt.gateway.ledger.file.length
    crash (h.setLines live.identity.attemptId (after.attempt.gateway.ledger.file.take kept))
      { r with gateway := some after }

def restart (h : Host) (safe : Bool) : Host :=
  let started (latched : Option Identity) : Host :=
    { h with registry := some ⟨h.eras, latched, none, .idle, []⟩, eras := h.eras + 1 }
  match safe, h.latch with
  | true, none => started none
  | true, some (.whole identity) => started (some identity)
  | _, _ => h

def Host.step (h : Host) (call : Call) : Option Host :=
  match h.registry, call with
  | none, .restart safe => some (restart h safe)
  | none, _ => none
  | some r, .register w opens => register h r w opens
  | some r, .writeLatch written => writeLatch h r written
  | some r, .syncLatch synced => syncLatch h r synced
  | some r, .openLedger opened => openLedger h r opened
  | some r, .startGateway written => startGateway h r written
  | some r, .release identity cleanup => release h r identity cleanup
  | some r, .unlinkLatch unlinked => unlinkLatch h r unlinked
  | some r, .syncRelease synced => syncRelease h r synced
  | some r, .act identity label => act h r identity label
  | some r, .stale index label => stale h r index label
  | some r, .crash => some (crash h r)
  | some r, .crashDuring identity label lines => crashDuring h r identity label lines
  | some _, .restart _ => none

def Host.start : Host := ⟨none, ∅, none, 0, [], []⟩

def registryMachine : System Host Call where
  initial := (· = .start)
  step := Host.step

end ProxyPilot.Gateway
