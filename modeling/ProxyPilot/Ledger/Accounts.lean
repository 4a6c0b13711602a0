import ProxyPilot.Ledger.Soundness

namespace ProxyPilot.Ledger

open Data Transition

variable {s : State} {b : Books}

/-- The sums of every run. -/
structure Sums (b : Books) : Prop where
  reserved : ∀ id run, b.runs.get id = some run → ∀ m, run.reserved.of m = b.held id m
  settled : ∀ id run, b.runs.get id = some run → ∀ m, run.settled.of m = b.spent id m
  positive : ∀ id run, b.runs.get id = some run → ∀ m, 0 ≤ run.reserved.of m ∧ 0 ≤ run.settled.of m
  capped : ∀ id run, b.runs.get id = some run → ∀ m cap, run.pins.limits.cap m = some cap → b.within id m →
    run.settled.of m + run.reserved.of m ≤ cap

theorem Balanced.sums (balanced : Balanced b) : Sums b where
  reserved := balanced.reserved
  settled := balanced.settled
  positive := fun id run found m => by
    rw [balanced.reserved id run found m, balanced.settled id run found m]
    exact ⟨Int.natCast_nonneg _, Int.natCast_nonneg _⟩
  capped := balanced.capped

def Event.asked : Event → Option String
  | .contacted callId _ => some callId
  | _ => none

theorem asked_once {history : List Event} (lawful : Obeys Law history) : (history.filterMap Event.asked).Nodup := by
  refine lawful.distinct fun before event callId law named member => ?_
  obtain ⟨other, inside, named'⟩ := List.mem_filterMap.mp member
  cases event <;> cases named
  cases other <;> cases named'
  exact law.1 ⟨_, inside⟩

structure Kept (s : State) : Prop where
  memory : Sums s.memory
  journal : Sums s.journal
  once : (s.history.filterMap Event.asked).Nodup
  saved : ∀ before after callId row, s.history = before ++ .contacted callId row :: after →
    ∃ call, row = some call ∧ call.id = callId ∧ call.state = .sent ∧ 0 < call.reserved.tokens ∧
      .admitted callId call.runId call.kind ∈ before
  released : ∀ before after callId, s.history = before ++ .released callId :: after → Contacted before callId →
    ∃ status, rejected status = true ∧ .answered callId status ∈ before
  /-- A review or a browser call is not sent after its run was cancelled. -/
  cancelled : ∀ before after callId runId kind, s.history = before ++ .admitted callId runId kind ::
    after → kind.controlled = true →
    .cancelled runId ∉ before

theorem Sound.keeps (sound : Sound s) : Kept s where
  memory := sound.memory.balanced.sums
  journal := sound.journal.balanced.sums
  once := asked_once sound.lawful
  saved := fun before after _ _ split => (sound.lawful before _ after split).2
  released := fun before after _ split => sound.lawful before _ after split
  cancelled := fun before after _ _ _ split => sound.lawful before _ after split

/-- Whatever interleaves, and wherever the process ends. -/
theorem ledger_kept (reached : machine.Reachable s) : Kept s := (reachable_sound reached).keeps

def oneRun : Pins := ⟨1, ⟨some 10000, some 1⟩, none⟩

def ask (callId : String) : Request := ⟨"run", callId, 1, routeModel, 100, "prompt"⟩

def noon : Times := ⟨0, 0⟩

/-- A thread has its call reserved, sent and asked. -/
def sendLabels (thread : Nat) : List Label :=
  [.acquire thread noon, .reserve thread noon true, .prepare thread noon true,
    .vault thread .value true, .send thread noon true, .contact thread]

def openLabels : List Label := [.pinRun "run" oneRun true, .priceSet ⟨1, 1, 1, 1⟩ true, .providerBind "key" 1 true]

def reviewLabels : List Label :=
  openLabels ++ [.reviewCall (ask "review") ⟨"soon", 60⟩ noon] ++ sendLabels 0 ++
    [.answer 0 (.replied 429 none) true, .modelCall (ask "step") none] ++ sendLabels 1 ++ [.crash]

theorem ledger_kept_review : ∃ s, machine.exec .start reviewLabels = some s ∧
    s.history.filterMap Event.asked = ["review", "step"] ∧
    s.memory.held "run" .tokens = 154 ∧ Kept s := by
  have ran :
      (machine.exec .start reviewLabels).map
      (fun s => (s.history.filterMap Event.asked, s.memory.held "run" .tokens)) =
      some (["review", "step"], 154) := by decide +kernel
  obtain ⟨s, ran, seen⟩ := Option.map_eq_some_iff.mp ran
  obtain ⟨asked, held⟩ := Prod.mk.inj seen
  exact ⟨s, ran, asked, held, ledger_kept ⟨.start, reviewLabels, rfl, ran⟩⟩

def cancelledLabels : List Label := openLabels ++ [.cancel "run" true, .modelCall (ask "step") none] ++ sendLabels 0

theorem step_heeds_no_cancellation : ∃ s after, machine.Reachable s ∧
    s.history = .cancelled "run" :: .admitted "step" "run" .step :: after ∧
      after.filterMap Event.asked = ["step"] := by
  have ran :
      (machine.exec .start cancelledLabels).map
      (fun s => (s.history.take 2, (s.history.drop 2).filterMap Event.asked)) =
      some ([.cancelled "run", .admitted "step" "run" .step], ["step"]) := by decide +kernel
  obtain ⟨s, ran, seen⟩ := Option.map_eq_some_iff.mp ran
  obtain ⟨first, asked⟩ := Prod.mk.inj seen
  refine ⟨s, s.history.drop 2, ⟨.start, cancelledLabels, rfl, ran⟩, ?_, asked⟩
  calc s.history = s.history.take 2 ++ s.history.drop 2 := (List.take_append_drop 2 _).symm
    _ = _ := by rw [first]; rfl

end ProxyPilot.Ledger
