import ProxyPilot.Data.Checks
import ProxyPilot.Data.Tally

namespace ProxyPilot.Ledger

open Data

/-! # Model calls of the host broker (`a4-credential-broker.py`)

A digest stands for the text it is the digest of.
-/

inductive Measure where
  | tokens
  | nano

/-- Tokens and nano-USD. -/
structure Amount (α : Type) where
  tokens : α
  nano : α
deriving DecidableEq

def Amount.of {α : Type} (amount : Amount α) : Measure → α
  | .tokens => amount.tokens
  | .nano => amount.nano

def Amount.plus (total : Amount Int) (part : Amount Nat) : Amount Int :=
  ⟨total.tokens + part.tokens, total.nano + part.nano⟩

def Amount.minus (total : Amount Int) (part : Amount Nat) : Amount Int :=
  ⟨total.tokens - part.tokens, total.nano - part.nano⟩

@[simp] theorem Amount.of_plus (total : Amount Int) (part : Amount Nat) (m : Measure) :
    (total.plus part).of m = total.of m + part.of m := by
  cases m <;> rfl

@[simp] theorem Amount.of_minus (total : Amount Int) (part : Amount Nat) (m : Measure) :
    (total.minus part).of m = total.of m - part.of m := by
  cases m <;> rfl

def Amount.none : Amount Nat := ⟨0, 0⟩

@[simp] theorem Amount.of_none (m : Measure) : Amount.none.of m = 0 := by cases m <;> rfl

inductive Code where
  | invalidRequest
  | bindingUnknown
  | bindingRevoked
  | bindingScopeMismatch
  | bindingRevisionMismatch
  | runPolicyMismatch
  | runNotPinned
  | revisionMismatch
  | modelNotAllowed
  | priceUnknown
  | priceChanged
  | providerKeyUnbound
  | reservationTooSmall
  | budgetExhausted
  | callUncertain
  | callRefused
  | cancelled
  | deadline
  | providerError
  | usageMissing
  | modelMismatch
  | vault (code : String)
deriving DecidableEq

/-- Micro-USD per million tokens. -/
structure Price where
  input : Nat
  cachedInput : Nat
  cacheWrite : Nat
  output : Nat
deriving DecidableEq

/-- Nano-USD, rounded up. -/
def nanoCost (tokens rate : Nat) : Nat := (tokens * rate + 999) / 1000

def budgetNano (usd : Rat) : Int := (usd * 1000000000).floor

def Price.rateIn (price : Price) : Nat := max price.input price.cacheWrite

def worstCase (promptBytes maxOutputTokens : Nat) (price : Price) : Amount Nat :=
  let tokensIn := promptBytes + 16 + 32
  ⟨tokensIn + maxOutputTokens, nanoCost tokensIn price.rateIn + nanoCost maxOutputTokens price.output⟩

structure Binding where
  id : String
  projectId : String
  profileId : String
  revision : Nat
  active : Bool

instance : Keyed Binding String := ⟨Binding.id⟩

structure Credential where
  projectId : String
  profileId : String
  profileRevision : Nat
  bindingId : String
  bindingRevision : Nat
deriving DecidableEq

structure Limits where
  maxTokens : Option Nat
  maxUsd : Option Rat
deriving DecidableEq

def Limits.cap (limits : Limits) : Measure → Option Int
  | .tokens => limits.maxTokens.map Int.ofNat
  | .nano => limits.maxUsd.map budgetNano

/-- What a run is pinned to. -/
structure Pins where
  limitsRevision : Nat
  limits : Limits
  credential : Option Credential
deriving DecidableEq

structure Run where
  id : String
  pins : Pins
  reserved : Amount Int
  settled : Amount Int

instance : Keyed Run String := ⟨Run.id⟩

inductive Kind where
  | step
  | summary
  | publicReview
  | selectedBrowser
deriving DecidableEq

def Kind.maxOutput : Kind → Nat
  | .step => 4096
  | .summary => 300
  | .publicReview => 1500
  | .selectedBrowser => 6000

/-- Calls that heed a cancellation and a deadline. -/
def Kind.controlled : Kind → Bool
  | .publicReview | .selectedBrowser => true
  | .step | .summary => false

inductive Proof where
  | providerError
  | replyOutsideSet
  | usageMissing
deriving DecidableEq

inductive CallState where
  | reserved
  | sent
  | uncertain
  | refused
  | abandoned
  | providerError
  | settled
  | settledAtReservation
deriving DecidableEq

/-- `LIVE_CALL`. -/
def CallState.live : CallState → Bool
  | .reserved | .sent | .uncertain => true
  | _ => false

structure Image where
  mimeType : String
  sha256 : String
  encodedLength : Nat
  byteCount : Nat
deriving DecidableEq

structure Deadline where
  text : String
  at' : Int
deriving DecidableEq

structure Call where
  id : String
  runId : String
  model : String
  kind : Kind
  maxOutputTokens : Nat
  promptBytes : Nat
  prompt : String
  priceRevision : Nat
  deadline : Option Deadline
  images : Option (List Image)
  state : CallState
  refusal : Option Code
  /-- Nothing where the call was refused before it reserved. -/
  reserved : Amount Nat
  settled : Amount Nat
  price : Option Price
  providerRevision : Option Nat
  proof : Option Proof
  providerContacted : Bool
  exceededReservation : Bool
deriving DecidableEq

instance : Keyed Call String := ⟨Call.id⟩

structure Provider where
  vaultKey : String
  vaultVersion : Nat
  revision : Nat

/-- The journal; there is one model route, and so one price. -/
structure Books where
  bindings : Table Binding
  runs : Table Run
  calls : Table Call
  priceRevision : Nat
  price : Option Price
  provider : Option Provider
  reviewCancellations : List String

def routeModel : String := "gpt-6-luna"

def serviceTier : String := "default"

structure Request where
  runId : String
  callId : String
  limitsRevision : Nat
  model : String
  maxOutputTokens : Nat
  prompt : String

structure Reservation where
  tokens : Nat
  usd : Rat

structure BrowserInput where
  images : List Image
  priceRevision : Nat
  reservation : Reservation

def encodedBytes (images : List Image) : Nat := (images.map fun image => image.encodedLength + 256).sum

/-- Wall clock and monotonic clock. -/
structure Times where
  clock : Int
  monotonic : Int

structure Control where
  deadline : Deadline
  monotonicDeadline : Int

inductive Stage where
  | waiting
  | admitted
  | reserved
  | reading
  | ready
  | sent
  | contacted
deriving DecidableEq

/-- One `_model_call` under way; only the one past `waiting` holds `model_lock`. -/
structure Thread where
  id : Nat
  kind : Kind
  request : Request
  proof : Option Proof
  control : Option Control
  browser : Option BrowserInput
  stage : Stage

instance : Keyed Thread Nat := ⟨Thread.id⟩

/-- Counts that are safe integers; a missing `cached` is zero, a missing total is not compared. -/
structure Usage where
  prompt : Option Nat
  completion : Option Nat
  cached : Option Nat
  total : Option Nat

structure Answer where
  hasId : Bool
  model : Option String
  tier : Option String
  usage : Option Usage

inductive Outcome where
  /-- An `OSError`, `ValueError` or `TimeoutError`. -/
  | failed
  /-- An error that no handler names, while asking or while reading the answer. -/
  | raised
  | replied (status : Nat) (answer : Option Answer)

inductive Event where
  | cancelled (runId : String)
  /-- Durably sent. -/
  | admitted (callId runId : String) (kind : Kind)
  /-- The provider is asked, with this row of the journal. -/
  | contacted (callId : String) (saved : Option Call)
  | answered (callId : String) (status : Nat)
  | released (callId : String)
deriving DecidableEq

structure State where
  memory : Books
  journal : Books
  threads : Table Thread
  holder : Option Nat
  next : Nat
  history : List Event

end ProxyPilot.Ledger
