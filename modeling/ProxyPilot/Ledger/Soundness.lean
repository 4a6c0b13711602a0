import ProxyPilot.Data.History
import ProxyPilot.Ledger.Balance

namespace ProxyPilot.Ledger

open Data Transition

def Contacted (history : List Event) (callId : String) : Prop := ∃ saved, .contacted callId saved ∈ history

def Law (before : List Event) : Event → Prop
  | .admitted _ runId kind => kind.controlled = true → .cancelled runId ∉ before
  | .contacted callId saved =>
    ¬ Contacted before callId ∧
      ∃ call, saved = some call ∧ call.id = callId ∧ call.state = .sent ∧ 0 < call.reserved.tokens ∧
        .admitted callId call.runId call.kind ∈ before
  | .released callId =>
    Contacted before callId → ∃ status, rejected status = true ∧ .answered callId status ∈ before
  | .cancelled _ | .answered _ _ => True

/-- Books that what happened agrees with. -/
structure Fair (history : List Event) (b : Books) : Prop where
  balanced : Balanced b
  contacted : ∀ callId, Contacted history callId → ∃ call, b.calls.get callId = some call ∧ call.state ≠ .reserved
  cancelled : ∀ runId, .cancelled runId ∈ history → runId ∈ b.reviewCancellations

/-- The call of a thread, where it stands. -/
def Calls (b : Books) (t : Thread) (state : CallState) : Prop :=
  ∃ call, b.calls.get t.request.callId = some call ∧ call.state = state ∧ call.kind = t.kind ∧
    call.runId = t.request.runId

def Holding (memory journal : Books) (history : List Event) (t : Thread) : Prop :=
  match t.stage with
  | .waiting | .admitted => True
  | .reserved | .reading | .ready => Calls memory t .reserved ∧ ¬ Contacted history t.request.callId
  | .sent => Calls memory t .sent ∧ ¬ Contacted history t.request.callId ∧
      (t.offline = false → Calls journal t .sent ∧ .admitted t.request.callId t.request.runId t.kind ∈ history)
  | .contacted => Calls memory t .sent

structure Sound (s : State) : Prop where
  memory : Fair s.history s.memory
  journal : Fair s.history s.journal
  controlled : ∀ id t, s.threads.get id = some t → t.kind.controlled = true → t.control.isSome = true
  alone : ∀ id t, s.threads.get id = some t → t.stage ≠ .waiting → s.holder = some id
  holding : ∀ id t, s.threads.get id = some t → Holding s.memory s.journal s.history t
  lawful : Obeys Law s.history

variable {s : State} {b : Books} {history : List Event} {t : Thread} {call : Call}

variable {after : Books} {state : CallState} {events : List Event} {refusal : Option Code}
  {memory journal : Books} {stage : Stage} {thread : Nat}

theorem Fair.books (fair : Fair history b) (balanced : Balanced after) (calls : after.calls = b.calls)
    (cancelled : ∀ runId ∈ b.reviewCancellations, runId ∈ after.reviewCancellations) : Fair history after :=
  ⟨balanced, calls ▸ fair.contacted, fun runId member => cancelled runId (fair.cancelled runId member)⟩

theorem Calls.books (calls : Calls b t state) (same : after.calls = b.calls) : Calls after t state := by
  unfold Calls
  rw [same]
  exact calls

theorem Holding.books {memory journal memory' journal' : Books} (holding : Holding memory journal history t)
    (same : memory'.calls = memory.calls)
    (same' : journal' = journal ∨ journal'.calls = memory.calls) : Holding memory' journal' history t := by
  unfold Holding at holding ⊢
  split at holding
  · trivial
  · trivial
  · exact ⟨holding.1.books same, holding.2⟩
  · exact ⟨holding.1.books same, holding.2⟩
  · exact ⟨holding.1.books same, holding.2⟩
  · refine ⟨holding.1.books same, holding.2.1, fun online => ?_⟩
    obtain ⟨saved, admitted⟩ := holding.2.2 online
    rcases same' with rfl | stored
    · exact ⟨saved, admitted⟩
    · exact ⟨holding.1.books stored, admitted⟩
  · exact holding.books same

/-- A block that leaves the calls. -/
theorem Sound.stored (sound : Sound s) (after : Books) (balanced : Balanced after)
    (calls : after.calls = s.memory.calls)
    (cancelled : ∀ runId ∈ s.memory.reviewCancellations, runId ∈ after.reviewCancellations)
    (saves : Bool) : Sound (s.store after saves) :=
  { sound with
    memory := sound.memory.books balanced calls cancelled
    journal := by
      cases saves
      · exact sound.journal
      · exact sound.memory.books balanced calls cancelled
    holding := fun id t found => (sound.holding id t found).books calls (by
      cases saves
      · exact .inl rfl
      · exact .inr calls) }

/-- Neither a contact nor a cancellation. -/
def Event.quiet : Event → Bool
  | .contacted .. | .cancelled _ => false
  | _ => true

theorem contacted_append {callId : String} (quiet : ∀ event ∈ events, event.quiet = true) :
    Contacted (history ++ events) callId ↔ Contacted history callId := by
  constructor
  · rintro ⟨saved, member⟩
    rcases List.mem_append.mp member with old | new
    · exact ⟨saved, old⟩
    · have loud := quiet _ new
      contradiction
  · rintro ⟨saved, member⟩
    exact ⟨saved, List.mem_append_left _ member⟩

theorem Fair.append (fair : Fair history b) (quiet : ∀ event ∈ events, event.quiet = true) :
    Fair (history ++ events) b :=
  ⟨fair.balanced, fun callId contacted =>
    fair.contacted callId ((contacted_append quiet).mp contacted), fun runId member => by
    rcases List.mem_append.mp member with old | new
    · exact fair.cancelled runId old
    · have loud := quiet _ new
      contradiction⟩

/-- A call is written that is not reserved if it was contacted. -/
theorem Fair.written {runs : Table Run} (fair : Fair history b)
    (balanced : Balanced { b with runs := runs, calls := b.calls.put call })
    (later : Contacted history call.id → call.state ≠ .reserved) :
    Fair history { b with runs := runs, calls := b.calls.put call } :=
  ⟨balanced, fun callId contacted => by
    by_cases here : callId = call.id
    · subst here
      exact ⟨call, Table.get_put_self _ _, later contacted⟩
    · obtain ⟨other, found, started⟩ := fair.contacted callId contacted
      exact ⟨other, (Table.get_put_other _ here).trans found, started⟩, fair.cancelled⟩

theorem Fair.mark (fair : Fair history b) {old : Call} (found : b.calls.get call.id = some old)
    (sameRun : old.runId = call.runId) (sameReserved : old.reserved = call.reserved)
    (sameSettled : old.settled = call.settled)
    (live : old.state.live = true) (next : state.live = true) (started : state ≠ .reserved) :
    Fair history (b.mark call state refusal) :=
  fair.written (fair.balanced.mark found sameRun sameReserved sameSettled live next) fun _ => started

theorem Fair.release (fair : Fair history b) (found : b.calls.get call.id = some call)
    (live : call.state.live = true) (dead : state.live = false) : Fair history (b.release call state refusal) :=
  fair.written (fair.balanced.release found live dead) fun _ reserved => by
    rw [show state = .reserved from reserved] at dead
    contradiction

theorem Fair.settle (fair : Fair history b) {amount : Amount Nat}
    (found : b.calls.get call.id = some call) (live : call.state.live = true) (dead : state.live = false) :
    Fair history (b.settle call amount state refusal) :=
  fair.written (fair.balanced.settle found live dead) fun _ reserved => by
    rw [show state = .reserved from reserved] at dead
    contradiction

theorem Fair.settleAnswer (fair : Fair history b) (found : b.calls.get call.id = some call)
    (live : call.state.live = true) (status : Nat)
    (answer : Option Answer) : Fair history (settleAnswer b call status answer).1 := by
  unfold Ledger.settleAnswer
  split
  · split
    · exact fair.release found live rfl
    · exact fair.mark found rfl rfl rfl live rfl (fun wrong => nomatch wrong)
  · split
    · exact fair.settle found live rfl
    · exact fair.settle found live rfl

theorem Fair.reserveCall (fair : Fair history b) (new : b.calls.get t.request.callId = none) :
    Fair history (reserveCall b t).1 := by
  have unknown : ¬ Contacted history t.request.callId := fun contacted => by
    obtain ⟨call, found, _⟩ := fair.contacted _ contacted
    rw [new] at found
    contradiction
  have balanced := reserveCall_balanced fair.balanced new
  unfold Ledger.reserveCall at balanced ⊢
  split at balanced
  · exact fair.written balanced fun contacted => absurd contacted unknown
  · exact fair.written balanced fun contacted => absurd contacted unknown

theorem reserveCall_calls (reserved : (Ledger.reserveCall b t).2 = true) :
    Calls (Ledger.reserveCall b t).1 t .reserved := by
  unfold Ledger.reserveCall at reserved ⊢
  split at reserved
  · contradiction
  case h_2 quote _ => exact ⟨reservedCall b t quote, Table.get_put_self _ _, rfl, rfl, rfl⟩

theorem Fair.store {history : List Event} (fair : Fair history journal)
    (after : Fair history memory) (saves : Bool) :
    Fair history (if saves then memory else journal) := by
  cases saves
  · exact fair
  · exact after

variable {other : Thread} {answer : Option Answer} {status : Nat}

theorem Sound.others (sound : Sound s) (mine : s.threads.get t.id = some t) (active : t.stage ≠ .waiting) {id : Nat}
    (found : s.threads.get id = some other) (different : id ≠ t.id) : other.stage = .waiting := by
  by_contra busy
  have held := sound.alone t.id t mine active
  rw [sound.alone id other found busy] at held
  exact different (Option.some.inj held)

theorem holding_waiting (waiting : t.stage = .waiting) : Holding memory journal history t := by
  unfold Holding
  rw [waiting]
  trivial

theorem get_erased {threads : Table Thread} {thread id : Nat} (found : (threads.erase thread).get id = some other) :
    id ≠ thread ∧ threads.get id = some other := by
  rw [Table.get_erase] at found
  split at found
  · contradiction
  case isFalse different => exact ⟨different, found⟩

/-- The thread with the lock ends, whatever books it leaves. -/
theorem Sound.finish (sound : Sound s) (mine : s.threads.get t.id = some t) (active : t.stage ≠ .waiting)
    {history : List Event} (fair : Fair history memory) (fair' : Fair history journal)
    (lawful : Obeys Law history) :
    Sound ({ s with memory := memory, journal := journal, history := history }.finish t) where
  memory := fair
  journal := fair'
  controlled := fun id other found => sound.controlled id other (get_erased found).2
  alone := fun id other found busy => by
    obtain ⟨different, there⟩ := get_erased found
    exact absurd (sound.others mine active there different) busy
  holding := fun id other found => by
    obtain ⟨different, there⟩ := get_erased found
    exact holding_waiting (sound.others mine active there different)
  lawful := lawful

/-- A thread ends and leaves everything. -/
theorem Sound.leave (sound : Sound s) (t : Thread) : Sound (s.finish t) :=
  { sound with
    controlled := fun id other found => sound.controlled id other (get_erased found).2
    alone := fun id other found busy => by
      obtain ⟨different, there⟩ := get_erased found
      have held := sound.alone id other there busy
      have notMine : s.holder ≠ some t.id := fun same => different (Option.some.inj (held.symm.trans same))
      simpa only [State.finish, if_neg notMine] using held
    holding := fun id other found => sound.holding id other (get_erased found).2 }

/-- The thread with the lock goes on. -/
theorem Sound.goto (sound : Sound s) (mine : s.threads.get t.id = some t) (active : t.stage ≠ .waiting)
    {history : List Event} (fair : Fair history memory) (fair' : Fair history journal) (lawful : Obeys Law history)
    (holding : Holding memory journal history { t with stage := stage }) :
    Sound ({ s with memory := memory, journal := journal, history := history }.goto t stage) := by
  have get : ∀ id, (s.threads.put { t with stage := stage }).get id = if id = t.id
      then some { t with stage := stage } else s.threads.get id :=
    fun id => Table.get_put _ _ id
  constructor
  case memory => exact fair
  case journal => exact fair'
  case lawful => exact lawful
  case controlled =>
    intro id other found
    have there := (get id).symm.trans found
    split at there
    · cases there
      exact sound.controlled t.id t mine
    · exact sound.controlled id other there
  case alone =>
    intro id other found busy
    have there := (get id).symm.trans found
    split at there
    case isTrue here =>
        subst here
        exact sound.alone t.id t mine active
    case isFalse different => exact absurd (sound.others mine active there different) busy
  case holding =>
    intro id other found
    have there := (get id).symm.trans found
    split at there
    · cases there
      exact holding
    case isFalse different => exact holding_waiting (sound.others mine active there different)

theorem atStage_spec (found : s.atStage thread stage = some t) : s.threads.get t.id = some t ∧ t.stage = stage := by
  obtain ⟨there, same⟩ := Option.filter_eq_some_iff.mp found
  have key : t.id = thread := Table.get_key there
  exact ⟨key ▸ there, beq_iff_eq.mp same⟩

theorem held_spec (found : s.held thread stage = some (t, call)) :
    s.threads.get t.id = some t ∧ t.stage = stage ∧
      s.memory.calls.get t.request.callId = some call ∧ call.id = t.request.callId := by
  obtain ⟨other, at', found⟩ := Option.bind_eq_some_iff.mp found
  obtain ⟨there, known, same⟩ := Option.map_eq_some_iff.mp found
  cases same
  exact ⟨(atStage_spec at').1, (atStage_spec at').2, known, Table.get_key known⟩

theorem poll_sound (sound : Sound s) (t : Thread) (times : Times) : Sound (s.poll t times) := by
  unfold State.poll
  split
  · exact sound.leave t
  · exact sound

theorem acquire_sound (sound : Sound s) (mine : s.threads.get t.id = some t)
    (free : s.holder = none) (times : Times) :
    Sound (s.acquire t times) := by
  unfold State.acquire
  split
  · exact sound.leave t
  · have get : ∀ id, (s.threads.put { t with stage := .admitted }).get id = if id = t.id
        then some { t with stage := .admitted } else s.threads.get id :=
      fun id => Table.get_put _ _ id
    exact
    { sound with
      controlled := fun id other found => by
        have there := (get id).symm.trans found
        split at there
        · cases there
          exact sound.controlled t.id t mine
        · exact sound.controlled id other there
      alone := fun id other found busy => by
        have there := (get id).symm.trans found
        split at there
        case isTrue here => exact congrArg some here.symm
        case isFalse =>
            have held := sound.alone id other there busy
            rw [free] at held
            contradiction
      holding := fun id other found => by
        have there := (get id).symm.trans found
        split at there
        · cases there
          trivial
        · exact sound.holding id other there }

theorem begin_sound (sound : Sound s) {kind : Kind} {request : Request} {proof : Option Proof}
    {control : Option Control} {browser : Option BrowserInput}
    (controlled : kind.controlled = true → control.isSome = true) :
    Sound (s.begin kind request proof control browser) := by
  unfold State.begin
  split
  · have get : ∀ id, (s.threads.put ⟨s.next, kind, request, proof, control, browser, .waiting⟩).get id =
        if id = s.next then some ⟨s.next, kind, request, proof, control, browser, .waiting⟩
          else s.threads.get id := fun id => Table.get_put _ _ id
    exact
    { sound with
      controlled := fun id other found => by
        have there := (get id).symm.trans found
        split at there
        · cases there
          exact controlled
        · exact sound.controlled id other there
      alone := fun id other found busy => by
        have there := (get id).symm.trans found
        split at there
        · cases there
          exact absurd rfl busy
        · exact sound.alone id other there busy
      holding := fun id other found => by
        have there := (get id).symm.trans found
        split at there
        · cases there
          trivial
        · exact sound.holding id other there }
  · exact sound

theorem beginControlled_sound (sound : Sound s) (kind : Kind) (request : Request)
    (browser : Option BrowserInput) (control : Except Code Control) :
    Sound (s.beginControlled kind request browser control) := by
  unfold State.beginControlled
  split
  · exact begin_sound sound fun _ => rfl
  · exact sound

theorem reserve_sound (sound : Sound s) (mine : s.threads.get t.id = some t)
    (at' : t.stage = .admitted) (times : Times) (saves : Bool) :
    Sound (s.reserve t times saves) := by
  have active : t.stage ≠ .waiting := fun waiting => by
    rw [at'] at waiting
    contradiction
  unfold State.reserve
  split
  case h_1 new =>
      have fair := sound.memory.reserveCall new
      simp only [State.gotoIf]
      split
      case isTrue going =>
          refine sound.goto mine active fair (sound.journal.store fair saves) sound.lawful ⟨?_, fun contacted => ?_⟩
          · exact reserveCall_calls (Bool.and_eq_true_iff.mp going).2
          · obtain ⟨call, found, _⟩ := sound.memory.contacted _ contacted
            rw [new] at found
            contradiction
      case isFalse => exact sound.finish mine active fair (sound.journal.store fair saves) sound.lawful
  case h_2 => exact sound.leave t

/-- A call that was never contacted is given up. -/
theorem release_sound (sound : Sound s) (mine : s.threads.get t.id = some t) (active : t.stage ≠ .waiting)
    (found : s.memory.calls.get call.id = some call) (live : call.state.live = true)
    (unasked : ¬ Contacted s.history call.id) (code : Code)
    (saves : Bool) : Sound (s.release t call code saves) := by
  have quiet : ∀ event ∈ [Event.released call.id], event.quiet = true := by simp [Event.quiet]
  have fair : Fair (s.history ++ [.released call.id]) (s.memory.release call .refused (some code)) :=
    (sound.memory.release found live rfl).append quiet
  exact sound.finish mine active fair ((sound.journal.append quiet).store fair saves)
    (sound.lawful.snoc fun asked => absurd asked unasked)

theorem refuse_sound (sound : Sound s) (mine : s.threads.get t.id = some t) (active : t.stage ≠ .waiting)
    (found : s.memory.calls.get call.id = some call) (unasked : ¬ Contacted s.history call.id)
    (code : Code) (saves : Bool) :
    Sound (s.refuse t call code saves) := by
  unfold State.refuse
  split
  case isTrue reserved => exact release_sound sound mine active found (reserved ▸ rfl) unasked code saves
  case isFalse => exact sound.leave t

/-- A thread whose call is reserved, at any of the stages before it is sent. -/
structure Unsent (s : State) (t : Thread) (call : Call) : Prop where
  mine : s.threads.get t.id = some t
  active : t.stage ≠ .waiting
  found : s.memory.calls.get call.id = some call
  named : call.id = t.request.callId
  reserved : call.state = .reserved
  kind : call.kind = t.kind
  run : call.runId = t.request.runId
  unasked : ¬ Contacted s.history call.id

theorem Sound.unsent (sound : Sound s) (held : s.held thread stage = some (t, call))
    (early : stage = .reserved ∨ stage = .reading ∨ stage = .ready) : Unsent s t call := by
  obtain ⟨mine, at', found, named⟩ := held_spec held
  have holding := sound.holding t.id t mine
  have reserved : Calls s.memory t .reserved ∧ ¬ Contacted s.history t.request.callId := by
    rcases early with rfl | rfl | rfl <;> simpa only [Holding, at'] using holding
  obtain ⟨⟨other, known, state, kind, run⟩, unasked⟩ := reserved
  cases found.symm.trans known
  refine ⟨mine, fun waiting => ?_, named ▸ found, named, state, kind, run, named ▸ unasked⟩
  rw [at'] at waiting
  rcases early with rfl | rfl | rfl <;> contradiction

theorem Unsent.calls (unsent : Unsent s t call) : Calls s.memory t .reserved :=
  ⟨call, unsent.named ▸ unsent.found, unsent.reserved, unsent.kind, unsent.run⟩

theorem Unsent.uncontacted (unsent : Unsent s t call) : ¬ Contacted s.history t.request.callId :=
  unsent.named ▸ unsent.unasked

theorem prepare_sound (sound : Sound s) (unsent : Unsent s t call) (times : Times) (saves : Bool) :
    Sound (s.prepare t call times saves) := by
  unfold State.prepare
  split
  · exact refuse_sound sound unsent.mine unsent.active unsent.found unsent.unasked _ saves
  · exact sound.goto unsent.mine unsent.active sound.memory sound.journal sound.lawful
      ⟨unsent.calls, unsent.uncontacted⟩

theorem read_sound (sound : Sound s) (unsent : Unsent s t call) (answer : VaultAnswer)
    (saves : Bool) : Sound (s.read t call answer saves) := by
  cases answer with
  | value =>
    exact sound.goto unsent.mine unsent.active sound.memory sound.journal sound.lawful
      ⟨unsent.calls, unsent.uncontacted⟩
  | refused code =>
    exact release_sound sound unsent.mine unsent.active unsent.found (unsent.reserved ▸ rfl) unsent.unasked _ saves
  | raised => exact sound.leave t

theorem marked_calls (like : Call) (named : like.id = t.request.callId) (kind : like.kind = t.kind)
    (run : like.runId = t.request.runId)
    (b : Books) (state : CallState) (refusal : Option Code) : Calls (b.mark like state refusal) t state := by
  refine ⟨{ like with state := state, refusal := refusal <|> like.refusal }, ?_, rfl, kind, run⟩
  rw [← named]
  exact Table.get_put_self _ _

theorem send_sound (sound : Sound s) (unsent : Unsent s t call) (times : Times) (saves : Bool) :
    Sound (s.send t call times saves) := by
  unfold State.send
  split
  · exact refuse_sound sound unsent.mine unsent.active unsent.found unsent.unasked _ saves
  case h_2 allowed =>
      have marked : Fair s.history (s.memory.mark call .sent none) :=
        sound.memory.mark unsent.found rfl rfl rfl (unsent.reserved ▸ rfl) rfl fun wrong => nomatch wrong
      cases saves with
      | false =>
        have same : s.history ++ admittedEvents call false = s.history := List.append_nil _
        simp only [State.gotoIf, same]
        exact sound.finish unsent.mine unsent.active marked sound.journal sound.lawful
      | true =>
        have quiet : ∀ event ∈ admittedEvents call true, event.quiet = true := by simp [admittedEvents, Event.quiet]
        have calls := marked_calls call unsent.named unsent.kind unsent.run s.memory .sent none
        refine sound.goto unsent.mine unsent.active (marked.append quiet) (marked.append quiet)
          (sound.lawful.snoc fun controlled cancelled => ?_)
          ⟨calls, fun asked => unsent.uncontacted ((contacted_append quiet).mp asked), fun _ => ⟨calls, ?_⟩⟩
        · -- a cancellation that was saved would have refused the call
          have control := sound.controlled t.id t unsent.mine (unsent.kind ▸ controlled)
          obtain ⟨control, known⟩ := Option.isSome_iff_exists.mp control
          have tombstone := sound.memory.cancelled call.runId cancelled
          rw [unsent.run] at tombstone
          simp [reviewRefusal, known, tombstone] at allowed
        · rw [← unsent.named, ← unsent.kind, ← unsent.run]
          exact List.mem_append_right _ List.mem_cons_self

theorem prove_sound (sound : Sound s) (unsent : Unsent s t call) (offline : t.offline = true)
    (saves : Bool) : Sound (s.prove t call saves) := by
  have marked : Fair s.history (s.memory.mark { call with providerContacted := false } .sent none) :=
    sound.memory.mark unsent.found rfl rfl rfl (unsent.reserved ▸ rfl) rfl fun wrong => nomatch wrong
  unfold State.prove State.gotoIf
  cases saves with
  | false => exact sound.finish unsent.mine unsent.active marked sound.journal sound.lawful
  | true =>
    have calls : Calls (s.memory.mark { call with providerContacted := false } .sent none) t .sent :=
      marked_calls { call with providerContacted := false } unsent.named unsent.kind unsent.run s.memory .sent none
    refine sound.goto unsent.mine unsent.active marked marked sound.lawful ⟨calls,
      unsent.uncontacted, fun online => ?_⟩
    rw [show ({ t with stage := Stage.sent } : Thread).offline = t.offline from rfl, offline] at online
    contradiction

theorem contact_sound (sound : Sound s) (mine : s.threads.get t.id = some t) (at' : t.stage = .sent)
    (online : t.offline = false) :
    Sound (s.contact t) := by
  have active : t.stage ≠ .waiting := fun waiting => by
    rw [at'] at waiting
    contradiction
  have holding := sound.holding t.id t mine
  simp only [Holding, at'] at holding
  obtain ⟨inMemory, unasked, saved⟩ := holding
  obtain ⟨⟨call, found, state, kind, run⟩, admitted⟩ := saved online
  have named : call.id = t.request.callId := Table.get_key found
  have weighty := (sound.journal.balanced.unsettled _ call found (state ▸ rfl)).2
  have asked : ∀ {b : Books}, Fair s.history b →
      (∃ call, b.calls.get t.request.callId = some call ∧ call.state ≠ .reserved) →
      Fair (s.history ++ [.contacted t.request.callId (some call)]) b := by
    intro b fair mine
    refine ⟨fair.balanced, fun callId contacted => ?_, fun runId member => ?_⟩
    · obtain ⟨other, member⟩ := contacted
      rcases List.mem_append.mp member with old | new
      · exact fair.contacted callId ⟨other, old⟩
      · cases List.mem_singleton.mp new
        exact mine
    · rcases List.mem_append.mp member with old | new
      · exact fair.cancelled runId old
      · cases List.mem_singleton.mp new
  obtain ⟨known, there, sent, _⟩ := inMemory
  unfold State.contact
  rw [found]
  refine sound.goto mine active (asked sound.memory ⟨known, there, fun wrong => ?_⟩)
    (asked sound.journal ⟨call, found, fun wrong => ?_⟩)
    (sound.lawful.snoc ⟨unasked, call, rfl, named, state, weighty,
      by rw [run, kind]; exact admitted⟩) ⟨known, there, sent, ?_⟩
  · rw [sent] at wrong
    contradiction
  · rw [state] at wrong
    contradiction
  · assumption

theorem settleAnswer_released (released : (settleAnswer b call status answer).2 = true) :
    rejected status = true := by
  unfold settleAnswer at released
  split at released
  · split at released
    · assumption
    · contradiction
  · split at released <;> contradiction

theorem settle_sound (sound : Sound s) (mine : s.threads.get t.id = some t) (active : t.stage ≠ .waiting)
    (found : s.memory.calls.get call.id = some call) (live : call.state.live = true)
    (answers : ∀ event ∈ events, ∃ callId status, event = .answered callId status)
    (told : rejected status = true → .answered call.id status ∈ s.history ++ events) (saves : Bool) :
    Sound (s.settle t call status answer events saves) := by
  have quiet : ∀ event ∈ events, event.quiet = true := fun event member => by
    obtain ⟨callId, status, rfl⟩ := answers event member
    rfl
  have quiet' : ∀ event ∈ releasedEvents call (settleAnswer s.memory call status answer).2,
      event.quiet = true := fun event member => by
    unfold releasedEvents at member
    split at member
    · rw [List.mem_singleton.mp member]
      rfl
    · contradiction
  have fair := ((sound.memory.settleAnswer found live status answer).append quiet).append quiet'
  have lawful : Obeys Law (s.history ++ events) := sound.lawful.append fun event member before => by
    obtain ⟨callId, status, rfl⟩ := answers event member
    trivial
  refine sound.finish mine active fair (((sound.journal.append quiet).append quiet').store fair saves) ?_
  unfold releasedEvents
  split
  case isTrue released =>
    exact lawful.snoc fun _ => ⟨status, settleAnswer_released released, told (settleAnswer_released released)⟩
  case isFalse => rwa [List.append_nil]

/-- A thread that waits for its provider, or for the reply of its proof. -/
structure Sent (s : State) (t : Thread) (call : Call) : Prop where
  mine : s.threads.get t.id = some t
  active : t.stage ≠ .waiting
  found : s.memory.calls.get call.id = some call
  live : call.state.live = true

theorem Sound.sent (sound : Sound s) (held : s.held thread stage = some (t, call))
    (late : stage = .sent ∨ stage = .contacted) : Sent s t call := by
  obtain ⟨mine, at', found, named⟩ := held_spec held
  have holding := sound.holding t.id t mine
  have sent : Calls s.memory t .sent := by
    rcases late with rfl | rfl <;> simp only [Holding, at'] at holding
    · exact holding.1
    · exact holding
  obtain ⟨other, known, state, _, _⟩ := sent
  cases found.symm.trans known
  refine ⟨mine, fun waiting => ?_, named ▸ found, state ▸ rfl⟩
  rw [at'] at waiting
  rcases late with rfl | rfl <;> contradiction

theorem answer_sound (sound : Sound s) (sent : Sent s t call) (outcome : Outcome) (saves : Bool) :
    Sound (s.answer t call outcome saves) := by
  cases outcome with
  | failed =>
    have marked : Fair s.history (s.memory.mark call .uncertain (some .providerError)) :=
      sound.memory.mark sent.found rfl rfl rfl sent.live rfl fun wrong => nomatch wrong
    exact sound.finish sent.mine sent.active marked (sound.journal.store marked saves) sound.lawful
  | raised => exact sound.leave t
  | replied status answer =>
    refine settle_sound sound sent.mine sent.active sent.found sent.live (fun event member => ?_)
      (fun _ => ?_) saves
    · exact ⟨call.id, status, List.mem_singleton.mp member⟩
    · exact List.mem_append_right _ List.mem_cons_self

theorem proved_sound (sound : Sound s) (sent : Sent s t call) (proof : Proof) (saves : Bool) :
    Sound (s.proved t call proof saves) :=
  settle_sound sound sent.mine sent.active sent.found sent.live (fun _ member => absurd member List.not_mem_nil)
    (fun wrong => absurd wrong (by decide)) saves

theorem Balanced.books (balanced : Balanced b) (runs : after.runs = b.runs)
    (calls : after.calls = b.calls) : Balanced after := by
  obtain ⟨_, _, _, _, _, _, _⟩ := after
  cases runs
  cases calls
  exact { balanced with }

/-- A block that leaves the runs, the calls and the cancellations. -/
theorem Sound.beside (sound : Sound s) (after : Books) (runs : after.runs = s.memory.runs)
    (calls : after.calls = s.memory.calls)
    (cancelled : after.reviewCancellations = s.memory.reviewCancellations) (saves : Bool) :
    Sound (s.store after saves) :=
  sound.stored after (sound.memory.balanced.books runs calls) calls (fun _ member => cancelled ▸ member) saves

theorem pin_sound (sound : Sound s) (id : String) (pins : Pins) (saves : Bool) : Sound (s.pin id pins saves) := by
  unfold State.pin
  split
  case h_1 after done =>
      have balanced := pinRun_balanced sound.memory.balanced done
      simp only [Ledger.pinRun, bind_ok] at done
      obtain ⟨_, _, _, _, done⟩ := done
      split at done
      · obtain ⟨_, _, done⟩ := bind_ok.mp done
        cases done
      · cases done
        exact sound.stored _ balanced rfl (fun _ member => member) saves
  case h_2 => exact sound

theorem Fair.cancel (fair : Fair history b) (runId : String) :
    Fair (history ++ [.cancelled runId]) (Ledger.cancel b runId) := by
  refine ⟨fair.balanced.books rfl rfl, fun callId contacted => ?_, fun other member => ?_⟩
  · obtain ⟨saved, member⟩ := contacted
    rcases List.mem_append.mp member with old | new
    · exact fair.contacted callId ⟨saved, old⟩
    · cases List.mem_singleton.mp new
  · rcases List.mem_append.mp member with old | new
    · exact List.mem_cons_of_mem _ (fair.cancelled other old)
    · cases List.mem_singleton.mp new
      exact List.mem_cons_self

theorem contacted_cancelled {runId callId : String} :
    Contacted (history ++ [.cancelled runId]) callId ↔ Contacted history callId := by
  constructor
  · rintro ⟨saved, member⟩
    rcases List.mem_append.mp member with old | new
    · exact ⟨saved, old⟩
    · cases List.mem_singleton.mp new
  · rintro ⟨saved, member⟩
    exact ⟨saved, List.mem_append_left _ member⟩

theorem Holding.cancelled (holding : Holding memory journal history t) (runId : String) :
    Holding memory journal (history ++ [.cancelled runId]) t := by
  unfold Holding at holding ⊢
  split at holding
  · trivial
  · trivial
  · exact ⟨holding.1, fun contacted => holding.2 (contacted_cancelled.mp contacted)⟩
  · exact ⟨holding.1, fun contacted => holding.2 (contacted_cancelled.mp contacted)⟩
  · exact ⟨holding.1, fun contacted => holding.2 (contacted_cancelled.mp contacted)⟩
  · refine ⟨holding.1, fun contacted => holding.2.1 (contacted_cancelled.mp contacted), fun online => ?_⟩
    obtain ⟨saved, admitted⟩ := holding.2.2 online
    exact ⟨saved, List.mem_append_left _ admitted⟩
  · exact holding

theorem cancel_sound (sound : Sound s) (runId : String) (saves : Bool) : Sound (s.cancel runId saves) := by
  have stored : Sound (s.store (Ledger.cancel s.memory runId) saves) :=
    sound.stored (Ledger.cancel s.memory runId) (sound.memory.balanced.books rfl rfl) rfl
      (fun _ member => List.mem_cons_of_mem _ member) saves
  cases saves with
  | false => exact stored
  | true =>
    exact
    { stored with
      memory := sound.memory.cancel runId
      journal := sound.memory.cancel runId
      holding := fun id t found => (stored.holding id t found).cancelled runId
      lawful := stored.lawful.snoc trivial }

theorem recoverOne_fair (fair : Fair history b) (id : String) : Fair history (recoverOne b id) := by
  unfold recoverOne
  split
  case h_1 call found =>
      have key : call.id = id := Table.get_key found
      have there : b.calls.get call.id = some call := key ▸ found
      unfold recoverCall
      split
      case h_1 sent => exact fair.mark there rfl rfl rfl (sent ▸ rfl) rfl fun wrong => nomatch wrong
      case h_2 reserved => exact fair.release there (reserved ▸ rfl) rfl
      case h_3 => exact fair
  case h_2 => exact fair

theorem recover_fair (fair : Fair history b) : Fair history (recover b) := by
  unfold recover
  induction b.calls.rows.map Call.id generalizing b with
  | nil => exact fair
  | cons id rest ih => exact ih (recoverOne_fair fair id)

theorem released_lawful {ids : List String} (lawful : Obeys Law history)
    (unasked : ∀ id ∈ ids, ¬ Contacted history id) :
    Obeys Law (history ++ ids.map .released) := by
  induction ids generalizing history with
  | nil => simpa using lawful
  | cons id rest ih =>
    have quiet : ∀ event ∈ [Event.released id], event.quiet = true := by simp [Event.quiet]
    have next : Obeys Law (history ++ [.released id]) :=
      lawful.snoc fun asked => absurd asked (unasked id List.mem_cons_self)
    have later := ih next fun other member asked =>
        unasked other (List.mem_cons_of_mem _ member) ((contacted_append quiet).mp asked)
    rwa [List.append_assoc] at later

theorem abandoned_unasked (fair : Fair history b) : ∀ id ∈ abandoned b, ¬ Contacted history id := by
  intro id member contacted
  obtain ⟨call, inside, rfl⟩ := List.mem_map.mp member
  obtain ⟨row, reserved⟩ := List.mem_filter.mp inside
  obtain ⟨other, found, started⟩ := fair.contacted _ contacted
  cases (Table.get_of_mem row).symm.trans found
  exact started (beq_iff_eq.mp reserved)

theorem crash_sound (sound : Sound s) : Sound s.crash := by
  have quiet : ∀ event ∈ (abandoned s.journal).map Event.released, event.quiet = true := fun event member => by
    obtain ⟨id, _, rfl⟩ := List.mem_map.mp member
    rfl
  have fair := (recover_fair sound.journal).append quiet
  exact
  { memory := fair
    journal := fair
    controlled := fun _ _ found => nomatch found
    alone := fun _ _ found => nomatch found
    holding := fun _ _ found => nomatch found
    lawful := released_lawful sound.lawful (abandoned_unasked sound.journal) }

theorem step_sound {label : Label} {after : State} (sound : Sound s)
    (moved : step s label = some after) : Sound after := by
  cases label with
  | binding record saves =>
    cases moved
    exact sound.beside { s.memory with bindings := s.memory.bindings.put record } rfl rfl rfl saves
  | pinRun id pins saves =>
    cases moved
    exact pin_sound sound id pins saves
  | providerBind vaultKey version saves =>
    cases moved
    exact sound.beside (providerBind s.memory vaultKey version) rfl rfl rfl saves
  | priceSet price saves =>
    cases moved
    exact sound.beside (priceSet s.memory price) rfl rfl rfl saves
  | priceClear saves =>
    cases moved
    exact sound.beside (priceClear s.memory) rfl rfl rfl saves
  | cancel runId saves =>
    cases moved
    exact cancel_sound sound runId saves
  | modelCall request proof =>
    cases moved
    exact begin_sound sound fun wrong => nomatch wrong
  | summaryCall request =>
    cases moved
    exact begin_sound sound fun wrong => nomatch wrong
  | reviewCall request deadline times =>
    cases moved
    exact beginControlled_sound sound _ _ _ _
  | browserModelCall request deadline browser times =>
    cases moved
    exact beginControlled_sound sound _ _ _ _
  | poll thread times =>
    obtain ⟨t, _, rfl⟩ := Option.map_eq_some_iff.mp moved
    exact poll_sound sound t times
  | acquire thread times =>
    obtain ⟨t, found, moved⟩ := Option.bind_eq_some_iff.mp moved
    split at moved
    case isTrue free =>
        cases moved
        exact acquire_sound sound (atStage_spec found).1 free times
    case isFalse => contradiction
  | reserve thread times saves =>
    obtain ⟨t, found, rfl⟩ := Option.map_eq_some_iff.mp moved
    exact reserve_sound sound (atStage_spec found).1 (atStage_spec found).2 times saves
  | prove thread saves =>
    obtain ⟨⟨t, call⟩, found, rfl⟩ := Option.map_eq_some_iff.mp moved
    obtain ⟨held, offline⟩ := Option.filter_eq_some_iff.mp found
    exact prove_sound sound (sound.unsent held (.inl rfl)) offline saves
  | prepare thread times saves =>
    obtain ⟨⟨t, call⟩, found, rfl⟩ := Option.map_eq_some_iff.mp moved
    exact prepare_sound sound (sound.unsent (Option.filter_eq_some_iff.mp found).1 (.inl rfl)) times saves
  | vault thread answer saves =>
    obtain ⟨⟨t, call⟩, held, rfl⟩ := Option.map_eq_some_iff.mp moved
    exact read_sound sound (sound.unsent held (.inr (.inl rfl))) answer saves
  | send thread times saves =>
    obtain ⟨⟨t, call⟩, held, rfl⟩ := Option.map_eq_some_iff.mp moved
    exact send_sound sound (sound.unsent held (.inr (.inr rfl))) times saves
  | contact thread =>
    obtain ⟨t, found, rfl⟩ := Option.map_eq_some_iff.mp moved
    obtain ⟨at', online⟩ := Option.filter_eq_some_iff.mp found
    exact contact_sound sound (atStage_spec at').1 (atStage_spec at').2 (by simpa using online)
  | answer thread outcome saves =>
    obtain ⟨⟨t, call⟩, held, rfl⟩ := Option.map_eq_some_iff.mp moved
    exact answer_sound sound (sound.sent held (.inr rfl)) outcome saves
  | proved thread saves =>
    obtain ⟨⟨t, call⟩, held, moved⟩ := Option.bind_eq_some_iff.mp moved
    obtain ⟨proof, _, rfl⟩ := Option.map_eq_some_iff.mp moved
    exact proved_sound sound (sound.sent held (.inl rfl)) proof saves
  | crash =>
    cases moved
    exact crash_sound sound

theorem start_sound : Sound .start := by
  have balanced : Balanced .empty := by
    constructor
    all_goals intro _ _ found; exact nomatch found
  have fair : Fair [] .empty :=
    ⟨balanced, fun _ contacted => absurd contacted.choose_spec List.not_mem_nil,
    fun _ member => absurd member List.not_mem_nil⟩
  exact ⟨fair, fair, fun _ _ found => (nomatch found), fun _ _ found => (nomatch found),
    fun _ _ found => (nomatch found), .nil⟩

theorem reachable_sound (reached : machine.Reachable s) : Sound s := by
  refine reached.invariant Sound (fun first initial => ?_) step_sound
  cases initial
  exact start_sound

end ProxyPilot.Ledger
