import ProxyPilot.Data.Text
import ProxyPilot.Ledger.Records

namespace ProxyPilot.Ledger

open Data

/-! # The blocks under `self.lock`

What is reserved before a call is priced at one rate for the prompt.  What is settled prices
the cached tokens of the prompt at a rate of their own, and rounds up once more.
-/

def activeBinding (b : Books) (id : String) : Except Code Binding := do
  let record ← demand (b.bindings.get id) .bindingUnknown
  require record.active .bindingRevoked
  pure record

def checkCredential (b : Books) : Option Credential → Except Code Unit
  | none => pure ()
  | some credential => do
    let record ← activeBinding b credential.bindingId
    require (record.projectId == credential.projectId && record.profileId == credential.profileId)
      .bindingScopeMismatch
    require (record.revision == credential.bindingRevision) .bindingRevisionMismatch

def newRun (id : String) (pins : Pins) : Run := ⟨id, pins, ⟨0, 0⟩, ⟨0, 0⟩⟩

def maxSafe : Nat := 2 ^ 53 - 1

def validLimits (limits : Limits) : Bool :=
  (limits.maxTokens.all fun tokens => decide (1 ≤ tokens) && decide (tokens ≤ maxSafe)) &&
    limits.maxUsd.all fun usd => decide (0 < usd) && decide (usd < 1000000)

/-- `none` where the run is pinned already, so that nothing is saved. -/
def pinRun (b : Books) (id : String) (pins : Pins) : Except Code (Option Books) := do
  require (validLimits pins.limits) .invalidRequest
  checkCredential b pins.credential
  match b.runs.get id with
  | some run => do
    require (run.pins == pins) .runPolicyMismatch
    pure none
  | none => pure (some { b with runs := b.runs.put (newRun id pins) })

def providerBind (b : Books) (vaultKey : String) (version : Nat) : Books :=
  { b with provider := some ⟨vaultKey, version, ((b.provider.map Provider.revision).getD 0) + 1⟩ }

def priceSet (b : Books) (price : Price) : Books :=
  { b with priceRevision := b.priceRevision + 1, price := some price }

def priceClear (b : Books) : Books := { b with priceRevision := b.priceRevision + 1, price := none }

/-- `cancel_review` and `cancel_browser_model` leave the same tombstone. -/
def cancel (b : Books) (runId : String) : Books := { b with reviewCancellations := runId :: b.reviewCancellations }

def Run.release (call : Call) (run : Run) : Run := { run with reserved := run.reserved.minus call.reserved }

def Books.release (b : Books) (call : Call) (state : CallState) (refusal : Option Code) : Books :=
  { b with
    runs := match b.runs.get call.runId with
      | some run => if call.reserved.tokens = 0 then b.runs else b.runs.put (run.release call)
      | none => b.runs
    calls := b.calls.put { call with state := state, settled := .none, refusal := refusal <|> call.refusal } }

def Run.settle (call : Call) (amount : Amount Nat) (run : Run) : Run :=
  { run with reserved := run.reserved.minus call.reserved, settled := run.settled.plus amount }

/-- `_settle`, and the update of the call after it. -/
def Books.settle (b : Books) (call : Call) (amount : Amount Nat) (state : CallState)
    (refusal : Option Code) : Books :=
  { b with
    runs := match b.runs.get call.runId with
      | some run => b.runs.put (run.settle call amount)
      | none => b.runs
    calls := b.calls.put { call with
      state := state
      settled := amount
      refusal := refusal <|> call.refusal
      exceededReservation := decide (call.reserved.tokens < amount.tokens ∨ call.reserved.nano < amount.nano) } }

def Books.mark (b : Books) (call : Call) (state : CallState) (refusal : Option Code) : Books :=
  { b with calls := b.calls.put { call with state := state, refusal := refusal <|> call.refusal } }

def recoverCall (b : Books) (call : Call) : Books :=
  match call.state with
  | .sent => b.mark call .uncertain (some .callUncertain)
  | .reserved => b.release call .abandoned none
  | _ => b

/-- Never resend. -/
def recoverOne (b : Books) (id : String) : Books :=
  match b.calls.get id with
  | some call => recoverCall b call
  | none => b

def recover (b : Books) : Books := (b.calls.rows.map Call.id).foldl recoverOne b

/-- Calls that `recover` releases. -/
def abandoned (b : Books) : List String := (b.calls.rows.filter fun call => call.state == .reserved).map Call.id

def Control.expired (control : Control) (times : Times) : Bool :=
  decide (control.deadline.at' ≤ times.clock) || decide (control.monotonicDeadline ≤ times.monotonic)

/-- `_review_allowed`, up to what it does to an unsent call. -/
def reviewRefusal (b : Books) (runId : String) (control : Option Control) (times : Times) : Option Code :=
  match control with
  | none => none
  | some control =>
    if b.reviewCancellations.contains runId then some .cancelled
    else if control.expired times then some .deadline
    else none

def reviewAllowed (b : Books) (runId : String) (control : Control) (times : Times) : Except Code Unit :=
  match reviewRefusal b runId (some control) times with
  | some code => .error code
  | none => .ok ()

def validRequest (kind : Kind) (request : Request) : Bool :=
  decide (1 ≤ request.maxOutputTokens) && decide (request.maxOutputTokens ≤ kind.maxOutput) &&
    decide (0 < request.prompt.utf8ByteSize) && decide (request.prompt.utf8ByteSize ≤ 16000)

def control? (times : Times) (deadline : Deadline) : Except Code Control := do
  let remaining := deadline.at' - times.clock
  require (decide (0 < remaining ∧ remaining ≤ 180)) .deadline
  pure ⟨deadline, times.monotonic + remaining⟩

def uncredentialed (b : Books) (runId : String) : Except Code Run :=
  demand ((b.runs.get runId).filter fun run => run.pins.credential.isNone) .runNotPinned

/-- An earlier call of the id must be the same request. -/
def samePrevious (b : Books) (kind : Kind) (request : Request) (deadline : Deadline) : Bool :=
  (b.calls.get request.callId).all fun previous =>
    previous.kind == kind && previous.runId == request.runId && previous.prompt == request.prompt &&
      previous.maxOutputTokens == request.maxOutputTokens && previous.deadline == some deadline

def reviewCall (b : Books) (request : Request) (deadline : Deadline) (times : Times) : Except Code Control := do
  let control ← control? times deadline
  reviewAllowed b request.runId control times
  let _ ← uncredentialed b request.runId
  require (samePrevious b .publicReview request deadline) .runPolicyMismatch
  pure control

def sameImages (b : Books) (callId : String) (browser : BrowserInput) : Bool :=
  (b.calls.get callId).all fun previous =>
    previous.images == some browser.images && previous.priceRevision == browser.priceRevision

def fitsLimits (limits : Limits) (reservation : Reservation) : Except Code Unit := do
  let maxTokens ← demand limits.maxTokens .runNotPinned
  let maxUsd ← demand limits.maxUsd .runNotPinned
  require (decide (reservation.tokens ≤ maxTokens) && decide (reservation.usd ≤ maxUsd)) .budgetExhausted

def validBrowser (browser : BrowserInput) : Bool :=
  decide (browser.images.length ≤ 8) && decide (1 ≤ browser.priceRevision) &&
    decide (1 ≤ browser.reservation.tokens) &&
    decide (0 ≤ browser.reservation.usd) && decide (browser.reservation.usd ≤ 20)

def browserModelCall (b : Books) (request : Request) (deadline : Deadline) (browser : BrowserInput)
    (times : Times) :
    Except Code Control := do
  require (validBrowser browser) .invalidRequest
  let control ← control? times deadline
  require (decide ((browser.images.map Image.byteCount).sum ≤ 2 * 1024 * 1024)) .invalidRequest
  reviewAllowed b request.runId control times
  let run ← uncredentialed b request.runId
  fitsLimits run.pins.limits browser.reservation
  require (samePrevious b .selectedBrowser request deadline && sameImages b request.callId browser)
    .runPolicyMismatch
  pure control

def Thread.promptBytes (t : Thread) : Nat := t.request.prompt.utf8ByteSize +
    (t.browser.map fun browser => encodedBytes browser.images).getD 0

def Thread.outputTokens (t : Thread) : Nat := if t.proof = some .providerError then 0 else t.request.maxOutputTokens

def newCall (b : Books) (t : Thread) (state : CallState) (refusal : Option Code) : Call where
  id := t.request.callId
  runId := t.request.runId
  model := t.request.model
  kind := t.kind
  maxOutputTokens := t.request.maxOutputTokens
  promptBytes := t.promptBytes
  prompt := t.request.prompt
  priceRevision := b.priceRevision
  deadline := t.control.map Control.deadline
  images := t.browser.map BrowserInput.images
  state := state
  refusal := refusal
  reserved := .none
  settled := .none
  price := none
  providerRevision := none
  proof := none
  providerContacted := true
  exceededReservation := false

/-- Whether an amount still fits beside what is settled and reserved. -/
def Run.fits (run : Run) (amount : Amount Nat) (m : Measure) : Bool :=
  (run.pins.limits.cap m).all fun cap => decide (run.settled.of m + run.reserved.of m + amount.of m ≤ cap)

def browserFits (browser : Option BrowserInput) (amount : Amount Nat) : Bool :=
  browser.all fun browser => decide (amount.tokens ≤ browser.reservation.tokens) &&
    decide ((amount.nano : Int) ≤ budgetNano browser.reservation.usd)

structure Quote where
  run : Run
  price : Price
  provider : Provider
  amount : Amount Nat

/-- The refusals of a call, in order, or what it is to reserve. -/
def quote (b : Books) (t : Thread) : Except Code Quote := do
  let run ← demand (b.runs.get t.request.runId) .runNotPinned
  require (t.request.limitsRevision == run.pins.limitsRevision) .revisionMismatch
  require (t.request.model == routeModel) .modelNotAllowed
  let price ← demand b.price .priceUnknown
  require (t.browser.all fun browser => b.priceRevision == browser.priceRevision) .priceChanged
  let provider ← demand b.provider .providerKeyUnbound
  let amount := worstCase t.promptBytes t.outputTokens price
  require (browserFits t.browser amount) .reservationTooSmall
  require (run.fits amount .tokens) .budgetExhausted
  require (run.fits amount .nano) .budgetExhausted
  pure ⟨run, price, provider, amount⟩

def Run.reserve (amount : Amount Nat) (run : Run) : Run := { run with reserved := run.reserved.plus amount }

def reservedCall (b : Books) (t : Thread) (quote : Quote) : Call :=
  { newCall b t .reserved none with
    reserved := quote.amount, price := some quote.price, providerRevision :=
      some quote.provider.revision, proof := t.proof }

/-- A refused call keeps its id. -/
def reserveCall (b : Books) (t : Thread) : Books × Bool :=
  match quote b t with
  | .error code => ({ b with calls := b.calls.put (newCall b t .refused (some code)) }, false)
  | .ok quote => ({ b with
      runs := b.runs.put (quote.run.reserve quote.amount),
      calls := b.calls.put (reservedCall b t quote) }, true)

/-- `REJECTED_STATUSES`. -/
def rejected (status : Nat) : Bool := [400, 401, 403, 404, 409, 413, 415, 422, 429].contains status

def safeInt (count : Option Nat) : Except Code Nat :=
  demand (count.filter fun n => decide (n ≤ maxSafe)) .usageMissing

def servesModel (requested model : String) : Bool := model == requested || (requested ++ "-").isPrefixOf model

/-- Any doubt refuses. -/
def settleUsage (answer : Option Answer) (requested : String) (price : Price) : Except Code (Amount Nat) := do
  let body ← demand (answer.filter Answer.hasId) .usageMissing
  require (body.model.any (servesModel requested)) .modelMismatch
  require (body.tier.all fun tier => tier == serviceTier) .priceUnknown
  let usage ← demand body.usage .usageMissing
  let prompt ← safeInt usage.prompt
  let completion ← safeInt usage.completion
  let cached ← safeInt usage.cached
  require (decide (cached ≤ prompt)) .usageMissing
  require (usage.total.all fun total => total == prompt + completion) .usageMissing
  pure ⟨prompt + completion, nanoCost cached price.cachedInput +
    nanoCost (prompt - cached) price.rateIn + nanoCost completion price.output⟩

/-- A fixed reply for an operator's proof. -/
def proofAnswer (proof : Proof) (model : String) (promptBytes : Nat) : Answer :=
  ⟨true, some model, none, if proof = .replyOutsideSet
    then some ⟨some (promptBytes / 4 + 1), some 5, some 0, some (promptBytes / 4 + 6)⟩ else none⟩

def freePrice : Price := ⟨0, 0, 0, 0⟩

/-- What an answer does to the books, and whether the reservation is released. -/
def settleAnswer (b : Books) (call : Call) (status : Nat) (answer : Option Answer) : Books × Bool :=
  if status ≠ 200 then
    if rejected status then (b.release call .providerError (some .providerError), true)
    else (b.mark call .uncertain (some .providerError), false)
  else
    match settleUsage answer call.model (call.price.getD freePrice) with
    | .error code => (b.settle call call.reserved .settledAtReservation (some code), false)
    | .ok amount => (b.settle call amount .settled none, false)

/-- `(\.[0-9]{1,6})?\Z`, in millionths. -/
def readFraction : List Char → Option Nat
  | [] => some 0
  | c :: rest =>
    if c = '.' ∧ rest ≠ [] ∧ rest.length ≤ 6 ∧ rest.all Char.isDigit
      then some (Nat.ofDigitChars 10 rest 0 * 10 ^ (6 - rest.length)) else none

/-- `PRICE.fullmatch`, in micro-USD. -/
def readPrice (text : List Char) : Option Nat :=
  let whole := text.takeWhile Char.isDigit
  if whole = ['0'] ∨ (whole ≠ [] ∧ whole.head? ≠ some '0' ∧ whole.length ≤ 4) then
    (readFraction (text.dropWhile Char.isDigit)).map (Nat.ofDigitChars 10 whole 0 * 1000000 + ·)
  else none

/-- The fields of `PRICE_FIELDS`, as the operator gives them. -/
structure PriceTexts where
  input : List Char
  cachedInput : List Char
  cacheWrite : List Char
  output : List Char

/-- The entry that `price_set` stores. -/
def PriceTexts.accepted (texts : PriceTexts) : Option Price := do
  let input ← readPrice texts.input
  let cachedInput ← readPrice texts.cachedInput
  let cacheWrite ← readPrice texts.cacheWrite
  let output ← readPrice texts.output
  return ⟨input, cachedInput, cacheWrite, output⟩

example : readPrice "1.25".toList = some 1250000 ∧ readPrice "01".toList = none ∧
    readPrice "1.".toList = none := by decide

section Costs

variable {tokens more rate : Nat}

theorem nanoCost_mono (le : tokens ≤ more) : nanoCost tokens rate ≤ nanoCost more rate := by
  have scaled : tokens * rate ≤ more * rate := Nat.mul_le_mul_right rate le
  unfold nanoCost
  omega

/-- A rate without a part of a nano-USD is not rounded. -/
theorem nanoCost_le {whole : Nat} (below : rate ≤ whole * 1000) : nanoCost tokens rate ≤ tokens * whole := by
  have scaled : tokens * rate ≤ tokens * whole * 1000 := by
    rw [Nat.mul_assoc]
    exact Nat.mul_le_mul_left tokens below
  unfold nanoCost
  omega

theorem nanoCost_add_whole {whole : Nat} (below : whole * 1000 ≤ rate) (le : tokens ≤ more) :
    tokens * whole + nanoCost (more - tokens) rate ≤ nanoCost more rate := by
  have scaled : tokens * whole * 1000 ≤ tokens * rate := by
    rw [Nat.mul_assoc]
    exact Nat.mul_le_mul_left tokens below
  have split : (more - tokens) * rate + tokens * rate = more * rate := by
    rw [← Nat.add_mul, Nat.sub_add_cancel le]
  unfold nanoCost
  omega

end Costs

/-- The part of the prompt's rate that is a whole number of nano-USD for each token. -/
def Price.wholeRateIn (price : Price) : Nat := price.rateIn / 1000

/-- What the provider reports of a call stays within what was sent and allowed. -/
def Answer.reportsAtMost (answer : Answer) (promptTokens outputTokens : Nat) : Prop :=
  ∀ usage, answer.usage = some usage →
    (∀ prompt, usage.prompt = some prompt → prompt ≤ promptTokens) ∧
      ∀ completion, usage.completion = some completion → completion ≤ outputTokens

def SettlesWithin (price : Price) : Prop :=
  ∀ promptBytes maxOutputTokens requested answer settled,
    settleUsage (some answer) requested price = .ok settled →
      answer.reportsAtMost (promptBytes + 16 + 32) maxOutputTokens →
      settled.tokens ≤ (worstCase promptBytes maxOutputTokens price).tokens ∧
        settled.nano ≤ (worstCase promptBytes maxOutputTokens price).nano

theorem safeInt_ok {count : Option Nat} {n : Nat} (safe : safeInt count = .ok n) : count = some n :=
  (Option.filter_eq_some_iff.mp (demand_ok.mp safe)).1

variable {price : Price}

theorem settleUsage_ok {answer : Answer} {requested : String} {settled : Amount Nat}
    (accepted : settleUsage (some answer) requested price = .ok settled) :
    ∃ usage prompt completion cached, answer.usage = some usage ∧ usage.prompt = some prompt ∧
      usage.completion = some completion ∧
      cached ≤ prompt ∧ settled = ⟨prompt + completion,
        nanoCost cached price.cachedInput + nanoCost (prompt - cached) price.rateIn +
          nanoCost completion price.output⟩ := by
  unfold settleUsage at accepted
  obtain ⟨body, found, accepted⟩ := bind_ok.mp accepted
  have same : answer = body := by simpa using (Option.filter_eq_some_iff.mp (demand_ok.mp found)).1
  obtain ⟨_, accepted⟩ := require_bind_ok.mp accepted
  obtain ⟨_, accepted⟩ := require_bind_ok.mp accepted
  obtain ⟨usage, reported, accepted⟩ := bind_ok.mp accepted
  obtain ⟨prompt, prompted, accepted⟩ := bind_ok.mp accepted
  obtain ⟨completion, completed, accepted⟩ := bind_ok.mp accepted
  obtain ⟨cached, _, accepted⟩ := bind_ok.mp accepted
  obtain ⟨part, accepted⟩ := require_bind_ok.mp accepted
  obtain ⟨_, accepted⟩ := require_bind_ok.mp accepted
  cases accepted
  rw [← same] at reported
  exact ⟨usage, prompt, completion, cached, demand_ok.mp reported, safeInt_ok prompted,
    safeInt_ok completed, of_decide_eq_true part, rfl⟩

theorem settles_within (cheap : price.cachedInput ≤ price.wholeRateIn * 1000) : SettlesWithin price := by
  intro promptBytes maxOutputTokens requested answer settled accepted bounded
  obtain ⟨usage, prompt, completion, cached, reported, prompted, completed, part, rfl⟩ := settleUsage_ok accepted
  obtain ⟨prompts, completions⟩ := bounded usage reported
  have promptBound := prompts prompt prompted
  have completionBound := completions completion completed
  have whole : price.wholeRateIn * 1000 ≤ price.rateIn := Nat.div_mul_le_self _ _
  have hit : nanoCost cached price.cachedInput ≤ cached * price.wholeRateIn := nanoCost_le cheap
  have joined : cached * price.wholeRateIn + nanoCost (prompt - cached) price.rateIn ≤
      nanoCost prompt price.rateIn := nanoCost_add_whole whole part
  have sent : nanoCost prompt price.rateIn ≤ nanoCost (promptBytes + 16 + 32) price.rateIn :=
    nanoCost_mono promptBound
  have written : nanoCost completion price.output ≤ nanoCost maxOutputTokens price.output :=
    nanoCost_mono completionBound
  simp only [worstCase]
  omega

/-- A thousand prompt tokens of which one was cached. -/
def oneCached : Answer := ⟨true, some routeModel, none, some ⟨some 1000, some 0, some 1, none⟩⟩

theorem oneCached_settles (price : Price) :
    settleUsage (some oneCached) routeModel price = .ok ⟨1000, nanoCost 1 price.cachedInput +
      nanoCost 999 price.rateIn + nanoCost 0 price.output⟩ := rfl

theorem cheap_of_settlesWithin (within : SettlesWithin price) : price.cachedInput ≤ price.wholeRateIn * 1000 := by
  have bounded : oneCached.reportsAtMost (952 + 16 + 32) 0 := by
    intro usage reported
    cases reported
    constructor
    · intro prompt prompted
      cases prompted
      decide
    · intro completion completed
      cases completed
      decide
  have cost := (within 952 0 routeModel oneCached _ (oneCached_settles price) bounded).2
  simp only [worstCase, nanoCost, Price.wholeRateIn] at cost ⊢
  omega

theorem budgetNano_le (usd : Rat) : (budgetNano usd : Rat) ≤ usd * 1000000000 := Rat.floor_le _

/-- Exactly these entries of the price table settle every call within its reservation; a
budget in whole nano-USD is never more than the budget. -/
theorem settlement_within_reservation (price : Price) :
    (SettlesWithin price ↔ price.cachedInput ≤ price.wholeRateIn * 1000) ∧
      ∀ usd : Rat, (budgetNano usd : Rat) ≤ usd * 1000000000 :=
  ⟨⟨cheap_of_settlesWithin, settles_within⟩, budgetNano_le⟩

/-- A cached token that costs a nano-USD more than any other. -/
def dearCache : PriceTexts := ⟨"1".toList, "1.001".toList, "1".toList, "0".toList⟩

theorem dear_cache_overspends : ∃ price, dearCache.accepted = some price ∧ ¬ SettlesWithin price ∧
    settleUsage (some oneCached) routeModel price = .ok ⟨1000, 1000001⟩ ∧
      worstCase 952 0 price = ⟨1000, 1000000⟩ := by
  refine ⟨⟨1000000, 1001000, 1000000, 0⟩, by decide, ?_, rfl, rfl⟩
  intro within
  exact absurd (cheap_of_settlesWithin within) (by decide)

end ProxyPilot.Ledger
