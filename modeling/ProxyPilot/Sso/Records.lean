import ProxyPilot.Data.Table

namespace ProxyPilot.Sso

open Data

/-! # Single sign-on records (`sso/store.js`, `sso/sessions.js`)

A fingerprint stands for the text it is the hash of. Times are milliseconds.
-/

def revocationMs : Nat := 60000

def proofMs : Nat := 5 * 60000

/-- The part of a configuration that its fingerprint binds. -/
structure Bound where
  issuer : String
  publicOrigin : String
  recoveryOrigin : String
  rest : String
deriving DecidableEq

structure Fingerprint where
  revision : Nat
  bound : Bound
deriving DecidableEq

structure Config where
  fingerprint : Fingerprint
  active : Bool

structure Link where
  issuer : String
  subject : String
  userId : String

instance : Keyed Link (String × String) := ⟨fun link => (link.issuer, link.subject)⟩

inductive Role where
  | admin
  | user
  | pending
deriving DecidableEq

inductive AuthSource where
  | localAccount
  | ldap
deriving DecidableEq

structure User where
  id : String
  role : Role
  authSource : AuthSource

instance : Keyed User String := ⟨User.id⟩

structure Session where
  id : String
  userId : String
  expiresAt : Nat
  lastUsedAt : Nat
  revoked : Bool
  sudoUntil : Option Nat

instance : Keyed Session String := ⟨Session.id⟩

/-- What a session that came through the provider depends on. -/
structure Central where
  issuer : String
  subject : String
  fingerprint : Fingerprint
  checkedUntil : Nat
deriving DecidableEq

inductive Method where
  | localAccount
  | linkOnly
  | ldap
  | oidc (central : Central)
deriving DecidableEq

structure Context where
  sessionId : String
  userId : String
  origin : String
  method : Method
  localProofAt : Option Nat

instance : Keyed Context String := ⟨Context.sessionId⟩

def Context.central (context : Context) : Option Central :=
  match context.method with
  | .oidc central => some central
  | _ => none

inductive Action where
  | login
  | link
  | testLogin
  | sudo
deriving DecidableEq

structure Flow where
  state : String
  browserHash : String
  fingerprint : Fingerprint
  expiresAt : Nat
  startedAt : Nat
  action : Action
  sessionId : Option String
  userId : Option String
  subject : Option String
deriving DecidableEq

instance : Keyed Flow String := ⟨Flow.state⟩

inductive BeginStage where
  | verifying
  | building (state : String) (startedAt : Nat)

structure Begin where
  thread : Nat
  fingerprint : Fingerprint
  action : Action
  browser : String
  sessionId : Option String
  userId : Option String
  subject : Option String
  stage : BeginStage

instance : Keyed Begin Nat := ⟨Begin.thread⟩

inductive CallbackStage where
  | exchanging
  | verifying (subject : String)
  | checking (subject : String) (started : Nat)
  | refreshing (subject : String) (started : Nat)

structure Callback where
  thread : Nat
  fingerprint : Fingerprint
  flow : Flow
  stage : CallbackStage

instance : Keyed Callback Nat := ⟨Callback.thread⟩

inductive RefreshStage where
  | verifying
  | checking (started : Nat)

/-- One entry of `inFlight`. -/
structure Refresh where
  sessionId : String
  central : Central
  began : Nat
  stage : RefreshStage

instance : Keyed Refresh String := ⟨Refresh.sessionId⟩

inductive Event where
  | began (flow : Flow)
  /-- A callback took the row of a flow, in a browser, under a configuration. -/
  | spent (flow : Flow) (browser : String) (time : Nat) (fingerprint : Fingerprint) (accepted : Bool)
  /-- An account check was answered while these sessions of the subject existed. -/
  | answered (started : Nat) (issuer subject : String) (enabled : Bool) (existing : List String)
deriving DecidableEq

structure State where
  now : Nat
  config : Option Config
  /-- The issuer the connection is verified for. -/
  connection : Option String
  users : Table User
  links : Table Link
  sessions : Table Session
  contexts : Table Context
  flows : Table Flow
  begins : Table Begin
  callbacks : Table Callback
  refreshes : Table Refresh
  threads : Nat
  history : List Event

end ProxyPilot.Sso
