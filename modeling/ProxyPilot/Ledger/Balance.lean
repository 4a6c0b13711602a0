import ProxyPilot.Ledger.Machine

namespace ProxyPilot.Ledger

open Data

variable {b : Books} {call old : Call} {run : Run}

def Call.held (call : Call) (m : Measure) : Nat := if call.state.live then call.reserved.of m else 0

def Call.spent (call : Call) (m : Measure) : Nat := if call.state.live then 0 else call.settled.of m

/-- What the calls of a run hold of their reservations. -/
def Books.held (b : Books) (runId : String) (m : Measure) : Nat :=
  b.calls.total fun call => if call.runId = runId then call.held m else 0

def Books.spent (b : Books) (runId : String) (m : Measure) : Nat :=
  b.calls.total fun call => if call.runId = runId then call.spent m else 0

/-- Every settlement of the run is within its reservation. -/
def Books.within (b : Books) (runId : String) (m : Measure) : Prop :=
  ∀ call ∈ b.calls.rows, call.runId = runId → call.settled.of m ≤ call.reserved.of m

structure Balanced (b : Books) : Prop where
  reserved : ∀ id run, b.runs.get id = some run → ∀ m, run.reserved.of m = b.held id m
  settled : ∀ id run, b.runs.get id = some run → ∀ m, run.settled.of m = b.spent id m
  capped : ∀ id run, b.runs.get id = some run → ∀ m cap, run.pins.limits.cap m = some cap → b.within id m →
    run.settled.of m + run.reserved.of m ≤ cap
  orphan : ∀ id call, b.calls.get id = some call → b.runs.get call.runId = none →
    call.state.live = false ∧ call.reserved = .none ∧ call.settled = .none
  unsettled : ∀ id call, b.calls.get id = some call → call.state.live = true →
    call.settled = .none ∧ 0 < call.reserved.tokens

def Call.change (weight : Call → Measure → Nat) (prior : Option Call) (call : Call) (m : Measure) : Int :=
  weight call m - ((prior.map fun old => weight old m).getD 0 : Nat)

/-- The runs, with one of them shifted. -/
structure Shift (before after : Table Run) (runId : String) (held spent : Measure → Int) : Prop where
  back : ∀ id run', after.get id = some run' → ∃ run, before.get id = some run ∧ run'.pins = run.pins ∧
    ∀ m, run'.reserved.of m = run.reserved.of m + (if runId = id then held m else 0) ∧
      run'.settled.of m = run.settled.of m + (if runId = id then spent m else 0)
  forth : ∀ id, after.get id = none → before.get id = none

theorem Shift.still (runs : Table Run) (runId : String) : Shift runs runs runId (fun _ => 0) (fun _ => 0) :=
  ⟨fun _ run found => ⟨run, found, rfl, fun m => by simp⟩, fun _ none => none⟩

variable {runs : Table Run} {weight : Call → Measure → Nat} {q : Quote} {pins : Pins}

theorem Shift.put {run' : Run} {held spent : Measure → Int} (found : runs.get run'.id = some run)
    (pins : run'.pins = run.pins)
    (reserved : ∀ m, run'.reserved.of m = run.reserved.of m + held m)
    (settled : ∀ m, run'.settled.of m = run.settled.of m + spent m) :
    Shift runs (runs.put run') run'.id held spent where
  back := fun id other there => by
    rw [Table.get_put] at there
    split at there
    case isTrue here =>
        cases there
        have same : run'.id = id := here.symm
        exact ⟨run, same ▸ found, pins, fun m => by rw [if_pos same, if_pos same]; exact ⟨reserved m, settled m⟩⟩
    case isFalse different =>
        have other' : run'.id ≠ id := fun same => different same.symm
        exact ⟨other, there, rfl, fun m => by rw [if_neg other', if_neg other']; simp⟩
  forth := fun id none => by
    rw [Table.get_put] at none
    split at none
    · contradiction
    · exact none

theorem weight_put (weight : Call → Measure → Nat) (b : Books) (call : Call) (runId : String) (m : Measure)
    (same : ∀ old, b.calls.get call.id = some old → old.runId = call.runId) :
    (((b.calls.put call).total fun call => if call.runId = runId then weight call m else 0 : Nat) : Int) =
      (b.calls.total fun call => if call.runId = runId then weight call m else 0 : Nat) +
        (if call.runId = runId then call.change weight (b.calls.get call.id) m else 0) := by
  have moved := Table.total_put (fun call : Call => if call.runId = runId then weight call m else 0) b.calls call
  rw [show Keyed.key call = call.id from rfl] at moved
  unfold Call.change
  cases prior : b.calls.get call.id with
  | none =>
    rw [prior] at moved
    simp only [Option.map_none, Option.getD_none] at moved ⊢
    split at moved <;> simp_all
  | some old =>
    rw [prior] at moved
    simp only [Option.map_some, Option.getD_some, same old prior] at moved ⊢
    split at moved <;> simp_all
    omega

/-- Writing a call, and shifting its run by what the call changes. -/
theorem Balanced.put (balanced : Balanced b)
    (same : ∀ old, b.calls.get call.id = some old → old.runId = call.runId ∧
    ∀ m, old.settled.of m ≤ old.reserved.of m)
    (shift : Shift b.runs runs call.runId (call.change Call.held (b.calls.get call.id))
    (call.change Call.spent (b.calls.get call.id)))
    (unsettled : call.state.live = true → call.settled = .none ∧ 0 < call.reserved.tokens)
    (orphan : runs.get call.runId = none → call.state.live = false ∧ call.reserved = .none ∧ call.settled = .none)
    (capped : ∀ run, b.runs.get call.runId = some run → ∀ m cap, run.pins.limits.cap m = some cap →
    call.settled.of m ≤ call.reserved.of m →
      run.settled.of m + run.reserved.of m ≤ cap →
        run.settled.of m + run.reserved.of m + call.change Call.held (b.calls.get call.id) m +
          call.change Call.spent (b.calls.get call.id) m ≤ cap) :
    Balanced { b with runs := runs, calls := b.calls.put call } where
  reserved := fun id run' found m => by
    obtain ⟨run, before, _, moved⟩ := shift.back id run' found
    rw [(moved m).1, balanced.reserved id run before m]
    exact (weight_put Call.held b call id m fun old known => (same old known).1).symm
  settled := fun id run' found m => by
    obtain ⟨run, before, _, moved⟩ := shift.back id run' found
    rw [(moved m).2, balanced.settled id run before m]
    exact (weight_put Call.spent b call id m fun old known => (same old known).1).symm
  capped := fun id run' found m cap limited within => by
    obtain ⟨run, before, pins, moved⟩ := shift.back id run' found
    rw [pins] at limited
    have earlier : b.within id m := fun other member ofRun => by
      by_cases named : other.id = call.id
      · exact (same other (named ▸ Table.get_of_mem member)).2 m
      · exact within other (Table.mem_put.mpr (.inr ⟨member, named⟩)) ofRun
    have bound := balanced.capped id run before m cap limited earlier
    rw [(moved m).1, (moved m).2]
    by_cases here : call.runId = id
    · subst here
      have next := capped run before m cap limited (within call (Table.mem_put.mpr (.inl rfl)) rfl) bound
      simp only [if_true]
      omega
    · simpa [here] using bound
  orphan := fun id other found gone => by
    rw [Table.get_put] at found
    split at found
    · cases found
      exact orphan gone
    · exact balanced.orphan id other found (shift.forth _ gone)
  unsettled := fun id other found live => by
    rw [Table.get_put] at found
    split at found
    · cases found
      exact unsettled live
    · exact balanced.unsettled id other found live

variable {id : String} {refusal : Option Code} {state : CallState} {t : Thread}

theorem Balanced.settled_within (balanced : Balanced b) (found : b.calls.get id = some call)
    (live : call.state.live = true) (m : Measure) :
    call.settled.of m ≤ call.reserved.of m := by
  rw [(balanced.unsettled id call found live).1, Amount.of_none]
  exact Nat.zero_le _

theorem change_some (found : b.calls.get call.id = some old) (m : Measure) :
    call.change weight (b.calls.get call.id) m = weight call m - weight old m := by
  rw [found]
  rfl

theorem Balanced.mark (balanced : Balanced b) (found : b.calls.get call.id = some old)
    (sameRun : old.runId = call.runId) (sameReserved : old.reserved = call.reserved) (sameSettled : old.settled = call.settled)
    (live : old.state.live = true) (next : state.live = true) : Balanced (b.mark call state refusal) := by
  have marked :
      b.calls.get ({ call with state := state, refusal := refusal <|> call.refusal } : Call).id = some old := found
  have held : ∀ m, Call.change Call.held (b.calls.get call.id) { call with
    state := state, refusal := refusal <|> call.refusal } m = 0 := by
    intro m
    rw [found]
    simp [Call.change, Call.held, live, next, sameReserved]
  have spent : ∀ m, Call.change Call.spent (b.calls.get call.id) { call with
    state := state, refusal := refusal <|> call.refusal } m = 0 := by
    intro m
    rw [found]
    simp [Call.change, Call.spent, live, next]
  refine balanced.put (fun other known => ?_) ?_ (fun _ => ?_) (fun gone => ?_) (fun run _ m cap _ _ bound => ?_)
  · cases marked.symm.trans known
    exact ⟨sameRun, balanced.settled_within found live⟩
  · rw [funext held, funext spent]
    exact .still b.runs _
  · rw [← sameSettled, ← sameReserved]
    exact balanced.unsettled _ old found live
  · have ended := (balanced.orphan _ old found (sameRun ▸ gone)).1
    rw [live] at ended
    contradiction
  · rw [held, spent]
    simpa using bound

theorem Balanced.run_of_live (balanced : Balanced b) (found : b.calls.get id = some call)
    (live : call.state.live = true) :
    ∃ run, b.runs.get call.runId = some run := by
  cases known : b.runs.get call.runId with
  | some run => exact ⟨run, rfl⟩
  | none =>
    rw [(balanced.orphan id call found known).1] at live
    contradiction

/-- A live call ends: its reservation goes, and what it settles comes. -/
theorem Balanced.ended (balanced : Balanced b) {ended : Call} {run' : Run} (found : b.calls.get call.id = some call)
    (live : call.state.live = true) (known : b.runs.get call.runId = some run)
    (sameId : ended.id = call.id) (sameRun : ended.runId = call.runId)
    (sameReserved : ended.reserved = call.reserved) (dead : ended.state.live = false)
    (named : run'.id = run.id) (pins : run'.pins = run.pins)
    (reserved : ∀ m, run'.reserved.of m = run.reserved.of m - call.reserved.of m)
    (settled : ∀ m, run'.settled.of m = run.settled.of m + ended.settled.of m) :
    Balanced { b with runs := b.runs.put run', calls := b.calls.put ended } := by
  have key : run.id = call.runId := Table.get_key known
  have there : b.calls.get ended.id = some call := sameId ▸ found
  have held : ∀ m, ended.change Call.held (b.calls.get ended.id) m = - (call.reserved.of m : Int) := by
    intro m
    rw [change_some there]
    simp [Call.held, live, dead]
  have spent : ∀ m, ended.change Call.spent (b.calls.get ended.id) m = ended.settled.of m := by
    intro m
    rw [change_some there]
    simp [Call.spent, live, dead]
  refine balanced.put (fun other same => ?_) ?_ (fun wrong => ?_) (fun gone => ?_)
    (fun other same m cap _ within bound => ?_)
  · cases there.symm.trans same
    exact ⟨sameRun.symm, balanced.settled_within found live⟩
  · have before : b.runs.get run'.id = some run := by rw [named, key]; exact known
    rw [funext held, funext spent, sameRun, ← key, ← named]
    exact .put before pins (fun m => by rw [reserved]; omega) settled
  · rw [dead] at wrong
    contradiction
  · have kept : (b.runs.put run').get ended.runId = some run' := by
      rw [sameRun, ← key, ← named]
      exact Table.get_put_self _ _
    rw [kept] at gone
    contradiction
  · rw [held, spent]
    rw [sameReserved] at within
    omega

theorem Balanced.release (balanced : Balanced b) (found : b.calls.get call.id = some call)
    (live : call.state.live = true) (dead : state.live = false) : Balanced (b.release call state refusal) := by
  obtain ⟨run, known⟩ := balanced.run_of_live found live
  have weighty : call.reserved.tokens ≠ 0 := Nat.pos_iff_ne_zero.mp (balanced.unsettled _ call found live).2
  simp only [Books.release, known, if_neg weighty]
  refine balanced.ended found live known rfl rfl rfl dead rfl rfl (fun m => ?_) fun m => ?_
  · simp [Run.release]
  · simp [Run.release]

theorem Balanced.settle (balanced : Balanced b) {amount : Amount Nat}
    (found : b.calls.get call.id = some call) (live : call.state.live = true) (dead : state.live = false) :
    Balanced (b.settle call amount state refusal) := by
  obtain ⟨run, known⟩ := balanced.run_of_live found live
  simp only [Books.settle, known]
  refine balanced.ended found live known rfl rfl rfl dead rfl rfl (fun m => ?_) fun m => ?_
  · simp [Run.settle]
  · simp [Run.settle]

theorem newCall_quiet (b : Books) (t : Thread) (code : Code) (m : Measure) :
    (newCall b t .refused (some code)).held m = 0 ∧ (newCall b t .refused (some code)).spent m = 0 :=
  ⟨rfl, by cases m <;> rfl⟩

theorem change_none (new : b.calls.get call.id = none) (m : Measure) :
    call.change weight (b.calls.get call.id) m = weight call m := by
  rw [new]
  simp [Call.change]

theorem Balanced.refused (balanced : Balanced b) (new : b.calls.get t.request.callId = none) (code : Code) :
    Balanced { b with calls := b.calls.put (newCall b t .refused (some code)) } := by
  have fresh : b.calls.get (newCall b t .refused (some code)).id = none := new
  have held :
      ∀ m, (newCall b t .refused (some code)).change Call.held
      (b.calls.get (newCall b t .refused (some code)).id) m = 0 :=
    fun m => by rw [change_none fresh, (newCall_quiet b t code m).1]; rfl
  have spent :
      ∀ m, (newCall b t .refused (some code)).change Call.spent
      (b.calls.get (newCall b t .refused (some code)).id) m = 0 :=
    fun m => by rw [change_none fresh, (newCall_quiet b t code m).2]; rfl
  refine balanced.put (fun old known => ?_) ?_ (fun wrong => nomatch wrong)
    (fun _ => ⟨rfl, rfl, rfl⟩) (fun run _ m cap _ _ bound => ?_)
  · rw [fresh] at known
    contradiction
  · rw [funext held, funext spent]
    exact .still b.runs _
  · rw [held, spent]
    simpa using bound

theorem quote_spec (quoted : quote b t = .ok q) :
    b.runs.get t.request.runId = some q.run ∧ 0 < q.amount.tokens ∧ ∀ m, q.run.fits q.amount m = true := by
  simp only [quote, bind_ok, demand_ok, require_ok] at quoted
  obtain ⟨run, known, _, _, _, _, price, _, _, _, provider, _, _, _, _, tokens, _, nano, done⟩ := quoted
  cases done
  refine ⟨known, by simp only [worstCase]; omega, fun m => ?_⟩
  cases m
  · exact tokens
  · exact nano

theorem Balanced.reserved' (balanced : Balanced b) (new : b.calls.get t.request.callId = none)
    (quoted : quote b t = .ok q) :
    Balanced { b with runs := b.runs.put (q.run.reserve q.amount), calls := b.calls.put (reservedCall b t q) } := by
  obtain ⟨known, weighty, fits⟩ := quote_spec quoted
  have fresh : b.calls.get (reservedCall b t q).id = none := new
  have key : q.run.id = t.request.runId := Table.get_key known
  have held : ∀ m, (reservedCall b t q).change Call.held (b.calls.get (reservedCall b t q).id) m = q.amount.of m :=
    fun m => by rw [change_none fresh]; rfl
  have spent : ∀ m, (reservedCall b t q).change Call.spent (b.calls.get (reservedCall b t q).id) m = 0 :=
    fun m => by rw [change_none fresh]; rfl
  refine balanced.put (fun old there => ?_) ?_ (fun _ => ⟨rfl, weighty⟩) (fun gone => ?_)
    (fun run there m cap limited _ bound => ?_)
  · rw [fresh] at there
    contradiction
  · have before : b.runs.get (q.run.reserve q.amount).id = some q.run := key.symm ▸ known
    rw [funext held, funext spent, show (reservedCall b t q).runId = (q.run.reserve q.amount).id from key.symm]
    exact .put before rfl (fun m => by simp [Run.reserve]) fun m => by simp [Run.reserve]
  · have kept : (b.runs.put (q.run.reserve q.amount)).get (reservedCall b t q).runId =
        some (q.run.reserve q.amount) := by
      rw [show (reservedCall b t q).runId = Keyed.key (q.run.reserve q.amount) from key.symm]
      exact Table.get_put_self _ _
    rw [kept] at gone
    contradiction
  · cases known.symm.trans there
    rw [held, spent]
    have room := fits m
    simp only [Run.fits, limited, Option.all_some, decide_eq_true_eq] at room
    omega

theorem reserveCall_balanced (balanced : Balanced b) (new : b.calls.get t.request.callId = none) :
    Balanced (reserveCall b t).1 := by
  unfold reserveCall
  split
  · exact balanced.refused new _
  case h_2 q quoted => exact balanced.reserved' new quoted

theorem cap_nonneg {limits : Limits} (valid : validLimits limits = true) {m : Measure} {cap : Int}
    (limited : limits.cap m = some cap) :
    0 ≤ cap := by
  cases m with
  | tokens =>
    obtain ⟨tokens, _, rfl⟩ := Option.map_eq_some_iff.mp limited
    exact Int.natCast_nonneg tokens
  | nano =>
    obtain ⟨usd, known, rfl⟩ := Option.map_eq_some_iff.mp limited
    simp only [validLimits, known, Option.all_some, Bool.and_eq_true, decide_eq_true_eq] at valid
    exact Rat.le_floor_iff.mpr (Rat.mul_nonneg (Rat.le_of_lt valid.2.1) (by decide))

theorem Balanced.pinned (balanced : Balanced b) (valid : validLimits pins.limits = true)
    (new : b.runs.get id = none) : Balanced { b with runs := b.runs.put (newRun id pins) } := by
  have get : ∀ other, (b.runs.put (newRun id pins)).get other = if other = id
      then some (newRun id pins) else b.runs.get other :=
    fun other => Table.get_put _ _ other
  have empty : ∀ (weight : Call → Measure → Nat) (m : Measure),
      (∀ call : Call, call.state.live = false → call.reserved = .none →
      call.settled = .none → weight call m = 0) →
        (b.calls.total fun call => if call.runId = id then weight call m else 0) = 0 := by
    intro weight m light
    refine Table.total_eq_zero fun call member => ?_
    split
    case isTrue named =>
        obtain ⟨dead, reserved, settled⟩ := balanced.orphan call.id call (Table.get_of_mem member) (named ▸ new)
        exact light call dead reserved settled
    case isFalse => rfl
  have zero : ∀ m, (⟨0, 0⟩ : Amount Int).of m = 0 := fun m => by cases m <;> rfl
  exact
  { balanced with
    reserved := fun other run found m => by
      rw [get] at found
      split at found
      case isTrue here =>
          cases found
          subst here
          exact (zero m).trans
            (congrArg Int.ofNat (empty Call.held m fun call dead _ _ => by simp [Call.held, dead])).symm
      case isFalse => exact balanced.reserved other run found m
    settled := fun other run found m => by
      rw [get] at found
      split at found
      case isTrue here =>
          cases found
          subst here
          exact (zero m).trans (congrArg Int.ofNat (empty Call.spent m fun call _ _ settled =>
            by simp [Call.spent, settled])).symm
      case isFalse => exact balanced.settled other run found m
    capped := fun other run found m cap limited within => by
      rw [get] at found
      split at found
      case isTrue =>
          cases found
          have room := cap_nonneg valid limited
          rw [show (newRun id pins).settled = ⟨0, 0⟩ from rfl,
            show (newRun id pins).reserved = ⟨0, 0⟩ from rfl, zero]
          exact room
      case isFalse => exact balanced.capped other run found m cap limited within
    orphan := fun other call found gone => by
      rw [get] at gone
      split at gone
      · contradiction
      · exact balanced.orphan other call found gone }

theorem pinRun_balanced (balanced : Balanced b) {after : Books} (done : pinRun b id pins = .ok (some after)) :
    Balanced after := by
  simp only [pinRun, bind_ok, require_ok] at done
  obtain ⟨_, valid, _, _, done⟩ := done
  split at done
  · obtain ⟨_, _, done⟩ := bind_ok.mp done
    cases done
  case h_2 new =>
      cases done
      exact balanced.pinned valid new

end ProxyPilot.Ledger
