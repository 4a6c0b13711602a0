import ProxyPilot.Artifacts.Store
import ProxyPilot.Transition.System

namespace ProxyPilot.Artifacts

open Data Transition

/-- A call is one transaction: it is refused and leaves the state, or it is done. -/
inductive Method where
  | reserveAsset (actor project : String) (bytes : Bytes) (id : String)
  | reserveAttempt (actor : String) (scope : Scope) (v : Request) (id : String)
  | reserveScreenshotDerivative (actor : String) (scope : Scope) (v : Request) (id : String)
  | reserveClipboardImport (actor : String) (scope : Scope) (bytes : Bytes) (id : String)
  | reserveInputDraft (actor : String) (scope : Scope) (bytes : Bytes) (target snapshot : Pin) (purpose id : String)
  | reserveObservation (actor : String) (scope : Scope) (bytes : Bytes) (snapshot : Pin)
      (origin url : Option String) (id : String)
  | claim (actor project id : String) (scope : Option Scope) (token : String)
  | checkWrite (actor : String) (l : WriteLease)
  | sealBytes (actor : String) (l : WriteLease) (proof : Written)
  | releaseWrite (l : WriteLease)
  | reviewAsset (project id : String) (approve : Bool)
  | reviewRelease (scope : Scope) (id : String) (purpose : Purpose) (approve : Bool)
  | reviewAssetModel (project id : String) (approve : Bool)
  | openRead (actor : String) (scope : Scope) (id : String) (purpose : ReadPurpose) (leaseId : String)
  | openAssetRead (actor project id : String) (purpose : ReadPurpose) (leaseId : String)
  | checkRead (actor : String) (l : Reading)
  | closeRead (l : Reading)
  | approveInputDraft (scope : Scope) (v : InputApproval)
  | cancel (project id : String) (scope : Option Scope)
  | cancelAttempt (scope : Scope) (clipboardOnly : Bool)
  | maintenanceApply (id : String) (removed : Option Outcome)

def perform (w : World) (answers : Answers) (s : State) : Method → Except Refusal State
  | .reserveAsset actor project bytes id => Prod.snd <$> reserveAsset w answers s actor project bytes id
  | .reserveAttempt actor scope v id => Prod.snd <$> reserveAttempt w answers s actor scope v id
  | .reserveScreenshotDerivative actor scope v id =>
    Prod.snd <$> reserveScreenshotDerivative w answers s actor scope v id
  | .reserveClipboardImport actor scope bytes id =>
    Prod.snd <$> reserveClipboardImport w answers s actor scope bytes id
  | .reserveInputDraft actor scope bytes target snapshot purpose id =>
    Prod.snd <$> reserveInputDraft w answers s actor scope bytes target snapshot purpose id
  | .reserveObservation actor scope bytes snapshot origin url id =>
    Prod.snd <$> reserveObservation w answers s actor scope bytes snapshot origin url id
  | .claim actor project id scope token => Prod.snd <$> claim answers s actor project id scope token
  | .checkWrite actor l => (fun _ => s) <$> checkWrite w answers s actor l
  | .sealBytes actor l proof => sealBytes w answers s actor l proof
  | .releaseWrite l => .ok (releaseWrite s l)
  | .reviewAsset project id approve => reviewAsset answers s project id approve
  | .reviewRelease scope id purpose approve => reviewRelease answers s scope id purpose approve
  | .reviewAssetModel project id approve => reviewAssetModel answers s project id approve
  | .openRead actor scope id purpose leaseId => Prod.snd <$> openRead w answers s actor scope id purpose leaseId
  | .openAssetRead actor project id purpose leaseId =>
    Prod.snd <$> openAssetRead answers s actor project id purpose leaseId
  | .checkRead actor l => (fun _ => s) <$> checkRead w answers s actor l
  | .closeRead l => .ok (closeRead s l)
  | .approveInputDraft scope v => approveInputDraft answers s scope v
  | .cancel project id scope => cancel answers s project id scope
  | .cancelAttempt scope clipboardOnly => .ok (cancelAttempt s scope clipboardOnly)
  | .maintenanceApply id removed => maintenanceApply s id removed

inductive Label where
  | tick (ms : Nat)
  | call (answers : Answers) (method : Method)

def step (w : World) (s : State) : Label → State
  | .tick ms => { s with now := s.now + ms }
  | .call answers method =>
    match perform w answers s method with
    | .ok after => after
    | .error _ => s

def State.start : State := ⟨0, ∅, ∅, ∅, ∅, ∅, ∅, ∅⟩

def machine (w : World) : System State Label where
  initial := (· = .start)
  step := fun s label => some (step w s label)

section

variable {w : World} {answers : Answers} {s after : State} {now : Nat} {a a' a'' : Artifact} {id : String}

/-- The columns that never change (`ops_browser_artifact_identity`). -/
def Artifact.identity (a : Artifact) : Artifact :=
  { a with state := .reserved, chargedBytes := 0, fileState := .allocated, busy := none }

/-- A row that is neither reserved anew nor removed. -/
structure Artifact.Follows (now : Nat) (a a' : Artifact) : Prop where
  identity : a'.identity = a.identity
  charge : a'.chargedBytes = a.chargedBytes
  active : a'.active now = true → a.active now = true
  final : a.state.final = true → a'.state = a.state
  lapsed : a.lapsed now = true → a'.lapsed now = true
  gone : a.fileState.gone = true → a.lapsed now = true → a'.fileState = a.fileState
  there : a.fileState.gone = false → a'.fileState.gone = false

theorem Artifact.Follows.refl (a : Artifact) : a.Follows now a :=
  ⟨rfl, rfl, fun active => active, fun _ => rfl, fun lapsed => lapsed, fun _ _ => rfl, fun there => there⟩

theorem Artifact.Follows.trans (first : a.Follows now a') (second : a'.Follows now a'') : a.Follows now a'' where
  identity := second.identity.trans first.identity
  charge := second.charge.trans first.charge
  active := fun active => first.active (second.active active)
  final := fun final => (second.final (by rwa [first.final final])).trans (first.final final)
  lapsed := fun lapsed => second.lapsed (first.lapsed lapsed)
  gone := fun gone lapsed =>
    (second.gone (by rwa [first.gone gone lapsed]) (first.lapsed lapsed)).trans (first.gone gone lapsed)
  there := fun there => second.there (first.there there)

/-- A reservation that passed every limit. -/
structure Admitted (w : World) (s : State) (a : Artifact) : Prop where
  fresh : s.artifacts.get a.id = none
  account : activeWhere s (·.actorId == a.actorId) < 2
  project : activeWhere s (·.projectId == a.projectId) < 4
  slots : activeWhere s (fun _ => true) < 8
  installation : usedWhere s (fun _ => true) + a.chargedBytes ≤ w.installationBytes.val
  accountBytes : usedWhere s (·.actorId == a.actorId) + a.chargedBytes ≤ w.accountBytes.val
  projectBytes : usedWhere s (·.projectId == a.projectId) + a.chargedBytes ≤ w.projectBytes.val
  budget : ∀ scope, a.scope = some scope →
    attemptBytes s scope + a.byteCount ≤ (w.configuration scope).maxArtifactBytes
  charged : a.chargedBytes = a.byteCount
  allocated : a.fileState = .allocated

inductive Moves (w : World) (s : State) : State → Prop
  | tick (ms : Nat) : Moves w s { s with now := s.now + ms }
  | kept {after : State} (time : after.now = s.now) (deletions : after.deletions = s.deletions)
      (rows : Table.Rowwise (Artifact.Follows s.now) s.artifacts after.artifacts) : Moves w s after
  | reserved {after : State} {a : Artifact} (time : after.now = s.now)
      (deletions : after.deletions = s.deletions) (admitted : Admitted w s a)
      (rows : after.artifacts = s.artifacts.put a) : Moves w s after
  | removed {a : Artifact} (outcome : Outcome) (found : s.artifacts.get a.id = some a)
      (candidate : cleanupCandidate s a = true)
      (unrecorded : s.deletions.get a.id = none) :
      Moves w s { s.update a.id (Artifact.removed outcome) with
        deletions := s.deletions.put ⟨a.id, s.now, outcome⟩ }

theorem Moves.unchanged (time : after.now = s.now) (deletions : after.deletions = s.deletions)
    (rows : after.artifacts = s.artifacts) :
    Moves w s after :=
  .kept time deletions (rows ▸ .refl Artifact.Follows.refl _)

theorem update_follows {change : Artifact → Artifact} (found : s.artifacts.get id = some a)
    (follows : a.Follows s.now { change a with id := a.id }) :
    Table.Rowwise (Artifact.Follows s.now) s.artifacts (s.update id change).artifacts := by
  refine .map _ (Artifact.changeIf_id id change) fun row member => ?_
  unfold Artifact.changeIf
  split
  case isTrue same =>
      have one : row = a := Table.key_injective member (Table.get_mem found) (same.trans (Table.get_key found).symm)
      exact one ▸ follows
  case isFalse => exact .refl row

end

variable {w : World} {answers : Answers} {s after : State} {a : Artifact}
  {id project actor : String} {scope : Scope}
  {maybeScope : Option Scope} {intent : Intent} {proof : AttemptProof}

theorem row_spec (found : row s project id = .ok a) : s.artifacts.get id = some a ∧ a.projectId = project := by
  obtain ⟨stored, same⟩ := Option.filter_eq_some_iff.mp (demand_ok.mp found)
  exact ⟨stored, beq_iff_eq.mp same⟩

theorem scopedArtifact_spec (found : scopedArtifact answers s scope id intent = .ok (a, proof)) :
    s.artifacts.get id = some a ∧ a.projectId = scope.projectId ∧ a.scope = some scope := by
  simp only [scopedArtifact, bind_ok, require_ok] at found
  obtain ⟨_, _, b, stored, _, same, found⟩ := found
  cases found
  exact ⟨(row_spec stored).1, (row_spec stored).2, beq_iff_eq.mp same⟩

theorem asset_spec {action : Access} {owner : Bool} (found : asset answers s project id action = .ok (a, owner)) :
    s.artifacts.get id = some a ∧ a.kind = .uploadAsset := by
  simp only [asset, bind_ok, require_ok] at found
  obtain ⟨_, _, b, stored, _, same, found⟩ := found
  cases found
  exact ⟨(row_spec stored).1, beq_iff_eq.mp same⟩

theorem named_spec (found : named answers s project maybeScope id intent = .ok a) :
    s.artifacts.get id = some a := by
  unfold named at found
  split at found
  · obtain ⟨⟨_, _⟩, stored, rfl⟩ := map_ok.mp found
    exact (scopedArtifact_spec stored).1
  · obtain ⟨⟨_, _⟩, stored, rfl⟩ := map_ok.mp found
    exact (asset_spec stored).1

/-- Neither expired nor ended. -/
def Artifact.alive (now : Nat) (a : Artifact) : Prop := now < a.expiresAt ∧ a.state.final = false

theorem live_ok : live s a = .ok () ↔ a.alive s.now := by
  simp [live, Artifact.alive]

theorem sealed_spec (passed : sealed s a = .ok ()) : a.alive s.now ∧ a.isSealed = true := by
  simp only [sealed, bind_ok, require_ok] at passed
  obtain ⟨_, alive, whole⟩ := passed
  exact ⟨live_ok.mp alive, whole⟩

variable {v : Request} {approve : Bool} {purpose : ReadPurpose} {reading : Reading}

theorem reserveNew_spec (done : reserveNew w s actor project maybeScope v intent id = .ok (a, after)) :
    Admitted w s a ∧ after = { s with artifacts := s.artifacts.put a } := by
  simp only [reserveNew, bind_ok, require_ok, Bool.and_eq_true, decide_eq_true_eq,
    Option.isNone_iff_eq_none] at done
  obtain ⟨parent, _, _, ⟨⟨account, among⟩, slots⟩, _, installation, _, accountBytes, _,
      projectBytes, _, budget, _, fresh, done⟩ := done
  cases done
  refine ⟨⟨fresh, account, among, slots, installation, accountBytes, projectBytes,
    fun scope named => ?_, rfl, rfl⟩, rfl⟩
  rw [show maybeScope = some scope from named] at budget
  exact decide_eq_true_eq.mp budget

theorem reserve_spec (done : reserve w s actor project maybeScope v intent id = .ok (a, after)) :
    after = s ∨ (Admitted w s a ∧ after = { s with artifacts := s.artifacts.put a }) := by
  unfold reserve at done
  split at done
  · simp only [bind_ok] at done
    obtain ⟨_, _, _, _, done⟩ := done
    cases done
    exact .inl rfl
  · exact .inr (reserveNew_spec done)

/-- The tables besides the artifacts and deletions are nothing a quota looks at. -/
theorem reserve_moves {other : State} (done : reserve w s actor project maybeScope v intent id = .ok (a, after))
    (time : other.now = after.now) (deletions : other.deletions = after.deletions)
    (rows : other.artifacts = after.artifacts) :
    Moves w s other := by
  rcases reserve_spec done with rfl | ⟨admitted, rfl⟩
  · exact .unchanged time deletions rows
  · exact .reserved time deletions admitted rows

theorem reserveScoped_done {writeIntent : Intent}
    (done : reserveScoped w answers s actor scope v intent writeIntent id = .ok (a, after)) :
    reserve w s actor scope.projectId (some scope) v writeIntent id = .ok (a, after) := by
  simp only [reserveScoped, bind_ok] at done
  obtain ⟨_, _, done⟩ := done
  exact done

theorem bindDraft_frame {draft : Draft} (done : bindDraft s draft = .ok after) :
    after.now = s.now ∧ after.deletions = s.deletions ∧ after.artifacts = s.artifacts := by
  unfold bindDraft at done
  split at done
  · simp only [bind_ok] at done
    obtain ⟨_, _, done⟩ := done
    cases done
    exact ⟨rfl, rfl, rfl⟩
  · cases done
    exact ⟨rfl, rfl, rfl⟩

theorem bindSource_frame {source : ObservationSource} (done : bindSource s source = .ok after) :
    after.now = s.now ∧ after.deletions = s.deletions ∧ after.artifacts = s.artifacts := by
  unfold bindSource at done
  split at done
  · simp only [bind_ok] at done
    obtain ⟨_, _, done⟩ := done
    cases done
    exact ⟨rfl, rfl, rfl⟩
  · cases done
    exact ⟨rfl, rfl, rfl⟩

variable {bytes : Bytes} {now : Nat} {l : WriteLease} {leaseId : String}

theorem reserveInputDraft_moves {target snapshot : Pin} {purpose : String}
    (done : reserveInputDraft w answers s actor scope bytes target snapshot purpose id =
    .ok (a, after)) : Moves w s after := by
  simp only [reserveInputDraft, bind_ok] at done
  obtain ⟨⟨b, middle⟩, reserved, last, bound, done⟩ := done
  cases done
  obtain ⟨time, deletions, rows⟩ := bindDraft_frame bound
  exact reserve_moves (reserveScoped_done reserved) time deletions rows

theorem reserveObservation_moves {snapshot : Pin} {origin url : Option String}
    (done : reserveObservation w answers s actor scope bytes snapshot origin url id =
    .ok (a, after)) : Moves w s after := by
  simp only [reserveObservation, bind_ok] at done
  obtain ⟨_, _, _, _, _, _, ⟨b, middle⟩, reserved, last, bound, done⟩ := done
  cases done
  obtain ⟨time, deletions, rows⟩ := bindSource_frame bound
  exact reserve_moves reserved time deletions rows

theorem active_of_reserved (reserved : a.reservedAt now = true) : a.active now = true := by
  simp [Artifact.active, reserved]

theorem lapsed_eq_false (alive : a.alive now)
    (waiting : a.state = .reserved → now < a.reservationUntil) : a.lapsed now = false := by
  simp only [Artifact.lapsed, alive.2, Bool.false_or, Bool.or_eq_false_iff, Bool.and_eq_false_iff,
    decide_eq_false_iff_not, beq_eq_false_iff_ne]
  refine ⟨Nat.not_le.mpr alive.1, ?_⟩
  by_cases reserved : a.state = .reserved
  · exact .inr (Nat.not_le.mpr (waiting reserved))
  · exact .inl reserved

theorem claim_moves {token : String} {leased : Option WriteLease}
    (done : claim answers s actor project id maybeScope token = .ok (leased, after)) :
    Moves w s after := by
  simp only [claim, bind_ok] at done
  obtain ⟨a, claimed, done⟩ := done
  simp only [claimable, bind_ok] at claimed
  obtain ⟨_, _, b, found, _, _, _, alive, same⟩ := claimed
  cases same
  split at done
  case isTrue reserved =>
      simp only [bind_ok, require_ok, decide_eq_true_eq] at done
      obtain ⟨_, waiting, _, _, done⟩ := done
      cases done
      refine .kept rfl rfl (update_follows (named_spec found) ⟨rfl, rfl, fun _ => ?_, fun _ => rfl,
        fun lapsed => lapsed, fun _ _ => rfl, fun there => there⟩)
      exact active_of_reserved (by simp [Artifact.reservedAt, reserved, waiting])
  case isFalse =>
      obtain ⟨_, _, done⟩ := bind_ok.mp done
      cases done
      exact .unchanged rfl rfl rfl

theorem checkWrite_spec (passed : checkWrite w answers s actor l = .ok a) :
    s.artifacts.get l.id = some a ∧ a.alive s.now ∧ a.reservedAt s.now = true ∧
      (∃ busy, a.busy = some busy ∧ busy.token = l.token) := by
  simp only [checkWrite, bind_ok, require_ok, Bool.and_eq_true] at passed
  obtain ⟨b, found, _, alive, _, ⟨⟨⟨_, reserved⟩, _⟩, token⟩, passed⟩ := passed
  have same : b = a := by
    split at passed
    · obtain ⟨_, _, passed⟩ := bind_ok.mp passed
      exact Except.ok.inj passed
    · exact Except.ok.inj passed
  subst same
  obtain ⟨busy, there, named⟩ := (Option.any_eq_true ..).mp token
  exact ⟨named_spec found, live_ok.mp alive, reserved, busy, there, beq_iff_eq.mp named⟩

theorem sealBytes_moves {written : Written}
    (done : sealBytes w answers s actor l written = .ok after) : Moves w s after := by
  simp only [sealBytes, bind_ok] at done
  obtain ⟨a, checked, _, _, done⟩ := done
  cases done
  obtain ⟨found, alive, reserved, _⟩ := checkWrite_spec checked
  have key : a.id = l.id := Table.get_key found
  have waiting : s.now < a.reservationUntil := by
    simp only [Artifact.reservedAt, Bool.and_eq_true, decide_eq_true_eq] at reserved
    exact reserved.2
  refine .kept rfl rfl (update_follows (key ▸ found) ⟨rfl, rfl,
    fun _ => active_of_reserved reserved, fun final => ?_, fun lapsed => ?_, fun _ lapsed => ?_, fun _ => rfl⟩)
  · rw [alive.2] at final
    contradiction
  all_goals
    rw [lapsed_eq_false alive fun _ => waiting] at lapsed
    contradiction

theorem released_follows (token : String) (a : Artifact) (now : Nat) :
    a.Follows now { a.released token with id := a.id } := by
  unfold Artifact.released
  split
  · refine ⟨rfl, rfl, fun active => ?_, fun _ => rfl, fun lapsed => lapsed, fun _ _ => rfl, fun there => there⟩
    simp only [Artifact.active, Artifact.busyAt, Option.any_none, Bool.or_false] at active
    exact active_of_reserved active
  · exact .refl a

theorem update_follows_all {change : Artifact → Artifact}
    (follows : ∀ a : Artifact, a.Follows s.now { change a with id := a.id }) (id : String) :
    Table.Rowwise (Artifact.Follows s.now) s.artifacts (s.update id change).artifacts := by
  refine .map _ (Artifact.changeIf_id id change) fun row _ => ?_
  unfold Artifact.changeIf
  split
  · exact follows row
  · exact .refl row

theorem reviewAsset_moves (done : reviewAsset answers s project id approve = .ok after) : Moves w s after := by
  simp only [reviewAsset, bind_ok] at done
  obtain ⟨⟨a, _⟩, found, _, whole, _, _, done⟩ := done
  cases done
  obtain ⟨alive, whole⟩ := sealed_spec whole
  have file : a.fileState = .sealed ∧ a.state ≠ .reserved := by
    simp only [Artifact.isSealed, Bool.and_eq_true, Bool.or_eq_true, beq_iff_eq] at whole
    refine ⟨whole.1, fun reserved => ?_⟩
    rw [reserved] at whole
    simp at whole
  refine .kept rfl rfl (update_follows (s := record s _) (asset_spec found).1
    ⟨rfl, rfl, fun active => ?_, fun final => ?_, fun lapsed => ?_, fun gone => ?_, fun there => there⟩)
  · simp only [Artifact.active, Artifact.reservedAt, Artifact.busyAt] at active ⊢
    cases approve <;> simp_all
  · rw [alive.2] at final
    contradiction
  · have past : a.lapsed s.now = true := lapsed
    rw [lapsed_eq_false alive fun reserved => absurd reserved file.2] at past
    contradiction
  · rw [file.1] at gone
    contradiction

theorem cancelled_follows (a : Artifact) (now : Nat) : a.Follows now { a.cancelled with id := a.id } := by
  unfold Artifact.cancelled
  split
  · exact .refl a
  case isFalse going =>
      refine ⟨rfl, rfl, fun active => ?_, fun final => absurd final going, fun _ => ?_,
        fun _ _ => rfl, fun there => there⟩
      case refine_2 => simp [Artifact.lapsed, ArtifactState.final]
      simp only [Artifact.active, Artifact.reservedAt, Artifact.busyAt, Bool.or_eq_true] at active ⊢
      exact active.imp_left fun wrong => by simp at wrong

theorem reviewRelease_moves {purpose : Purpose}
    (done : reviewRelease answers s scope id purpose approve = .ok after) :
    Moves w s after := by
  simp only [reviewRelease, bind_ok] at done
  obtain ⟨_, _, ⟨a, _⟩, _, _, _, _, _, _, _, _, _, _, _, _, _, done⟩ := done
  cases done
  exact .unchanged rfl rfl rfl

theorem reviewAssetModel_moves (done : reviewAssetModel answers s project id approve = .ok after) :
    Moves w s after := by
  simp only [reviewAssetModel, bind_ok] at done
  obtain ⟨⟨a, _⟩, _, _, _, _, _, _, _, done⟩ := done
  cases done
  exact .unchanged rfl rfl rfl

theorem lease_moves (done : lease s actor a purpose id = .ok (reading, after)) : Moves w s after := by
  obtain ⟨_, _, done⟩ := bind_ok.mp done
  cases done
  exact .unchanged rfl rfl rfl

theorem openRead_moves
    (done : openRead w answers s actor scope id purpose leaseId = .ok (reading, after)) : Moves w s after := by
  simp only [openRead, bind_ok] at done
  obtain ⟨_, _, _, _, done⟩ := done
  exact lease_moves done

theorem openAssetRead_moves
    (done : openAssetRead answers s actor project id purpose leaseId = .ok (reading, after)) : Moves w s after := by
  simp only [openAssetRead, bind_ok] at done
  obtain ⟨_, _, _, _, done⟩ := done
  exact lease_moves done

theorem approveInputDraft_moves {v : InputApproval}
    (done : approveInputDraft answers s scope v = .ok after) : Moves w s after := by
  simp only [approveInputDraft, bind_ok] at done
  obtain ⟨⟨a, _⟩, _, _, _, _, _, done⟩ := done
  split at done
  · obtain ⟨_, _, done⟩ := bind_ok.mp done
    cases done
    exact .unchanged rfl rfl rfl
  · obtain ⟨_, _, done⟩ := bind_ok.mp done
    cases done
    exact .unchanged rfl rfl rfl

theorem cancel_moves (done : cancel answers s project id maybeScope = .ok after) : Moves w s after := by
  simp only [cancel, bind_ok] at done
  obtain ⟨a, found, done⟩ := done
  cases done
  exact .kept rfl rfl (update_follows (named_spec found) (cancelled_follows a s.now))

theorem cancel_all_moves (ids : List String) (s : State) :
    (ids.foldl (fun s id => (s.update id Artifact.cancelled).dropLeases id) s).now = s.now ∧
      (ids.foldl (fun s id => (s.update id Artifact.cancelled).dropLeases id) s).deletions = s.deletions ∧
      Table.Rowwise (Artifact.Follows s.now) s.artifacts
        (ids.foldl (fun s id => (s.update id Artifact.cancelled).dropLeases id) s).artifacts := by
  induction ids generalizing s with
  | nil => exact ⟨rfl, rfl, .refl Artifact.Follows.refl _⟩
  | cons id rest ih =>
    obtain ⟨time, deletions, rows⟩ := ih ((s.update id Artifact.cancelled).dropLeases id)
    have first := update_follows_all (s := s) (fun a => cancelled_follows a s.now) id
    exact ⟨time, deletions, first.trans Artifact.Follows.trans rows⟩

theorem cancelAttempt_moves (s : State) (scope : Scope) (clipboardOnly : Bool) :
    Moves w s (cancelAttempt s scope clipboardOnly) := by
  obtain ⟨time, deletions, rows⟩ :=
    cancel_all_moves ((s.artifacts.rows.filter (ofAttempt scope clipboardOnly)).map Artifact.id) s
  exact .kept time deletions rows

theorem maintenanceApply_moves {removed : Option Outcome}
    (done : maintenanceApply s id removed = .ok after) : Moves w s after := by
  unfold maintenanceApply at done
  split at done
  case h_1 a unrecorded found =>
      obtain ⟨outcome, _, done⟩ := bind_ok.mp done
      cases done
      obtain ⟨stored, candidate⟩ := Option.filter_eq_some_iff.mp found
      have key : a.id = id := Table.get_key stored
      subst key
      exact .removed outcome stored candidate unrecorded
  case h_2 =>
      cases done
      exact .unchanged rfl rfl rfl

theorem perform_moves {method : Method} (done : perform w answers s method = .ok after) : Moves w s after := by
  cases method with
  | reserveAsset actor project bytes id =>
    obtain ⟨⟨_, _⟩, reserved, rfl⟩ := map_ok.mp done
    obtain ⟨_, _, reserved⟩ := bind_ok.mp reserved
    exact reserve_moves reserved rfl rfl rfl
  | reserveAttempt actor scope v id =>
    obtain ⟨⟨_, _⟩, reserved, rfl⟩ := map_ok.mp done
    obtain ⟨_, _, reserved⟩ := bind_ok.mp reserved
    exact reserve_moves (reserveScoped_done reserved) rfl rfl rfl
  | reserveScreenshotDerivative actor scope v id =>
    obtain ⟨⟨_, _⟩, reserved, rfl⟩ := map_ok.mp done
    obtain ⟨_, _, reserved⟩ := bind_ok.mp reserved
    exact reserve_moves (reserveScoped_done reserved) rfl rfl rfl
  | reserveClipboardImport actor scope bytes id =>
    obtain ⟨⟨_, _⟩, reserved, rfl⟩ := map_ok.mp done
    exact reserve_moves (reserveScoped_done reserved) rfl rfl rfl
  | reserveInputDraft actor scope bytes target snapshot purpose id =>
    obtain ⟨⟨_, _⟩, reserved, rfl⟩ := map_ok.mp done
    exact reserveInputDraft_moves reserved
  | reserveObservation actor scope bytes snapshot origin url id =>
    obtain ⟨⟨_, _⟩, reserved, rfl⟩ := map_ok.mp done
    exact reserveObservation_moves reserved
  | claim actor project id scope token =>
    obtain ⟨⟨_, _⟩, claimed, rfl⟩ := map_ok.mp done
    exact claim_moves claimed
  | checkWrite actor l =>
    obtain ⟨_, _, rfl⟩ := map_ok.mp done
    exact .unchanged rfl rfl rfl
  | sealBytes actor l written => exact sealBytes_moves done
  | releaseWrite l =>
    cases done
    exact .kept rfl rfl (update_follows_all (fun a => released_follows l.token a s.now) l.id)
  | reviewAsset project id approve => exact reviewAsset_moves done
  | reviewRelease scope id purpose approve => exact reviewRelease_moves done
  | reviewAssetModel project id approve => exact reviewAssetModel_moves done
  | openRead actor scope id purpose leaseId =>
    obtain ⟨⟨_, _⟩, opened, rfl⟩ := map_ok.mp done
    exact openRead_moves opened
  | openAssetRead actor project id purpose leaseId =>
    obtain ⟨⟨_, _⟩, opened, rfl⟩ := map_ok.mp done
    exact openAssetRead_moves opened
  | checkRead actor l =>
    obtain ⟨_, _, rfl⟩ := map_ok.mp done
    exact .unchanged rfl rfl rfl
  | closeRead l =>
    cases done
    exact .unchanged rfl rfl rfl
  | approveInputDraft scope v => exact approveInputDraft_moves done
  | cancel project id scope => exact cancel_moves done
  | cancelAttempt scope clipboardOnly =>
    cases done
    exact cancelAttempt_moves s scope clipboardOnly
  | maintenanceApply id removed => exact maintenanceApply_moves done

theorem step_moves (w : World) (s : State) (label : Label) : Moves w s (step w s label) := by
  cases label with
  | tick ms => exact .tick ms
  | call answers method =>
    simp only [step]
    split
    case h_1 after done => exact perform_moves done
    case h_2 => exact .unchanged rfl rfl rfl

theorem readAuthorized_spec (passed : readAuthorized w answers s scope id purpose = .ok a) :
    s.artifacts.get id = some a ∧ a.alive s.now ∧ a.isSealed = true := by
  simp only [readAuthorized, bind_ok] at passed
  obtain ⟨⟨b, _⟩, found, _, whole, _, _, passed⟩ := passed
  cases passed
  exact ⟨(scopedArtifact_spec found).1, sealed_spec whole⟩

theorem assetReadAuthorized_spec (passed : assetReadAuthorized answers s project id purpose = .ok a) :
    s.artifacts.get id = some a ∧ a.alive s.now ∧ a.isSealed = true := by
  simp only [assetReadAuthorized, bind_ok] at passed
  obtain ⟨⟨b, _⟩, found, _, whole, _, _, passed⟩ := passed
  cases passed
  exact ⟨(asset_spec found).1, sealed_spec whole⟩

theorem checkRead_spec {l : Reading} (passed : checkRead w answers s actor l = .ok a) :
    s.artifacts.get l.artifactId = some a ∧ a.alive s.now ∧ a.isSealed = true := by
  simp only [checkRead, bind_ok] at passed
  obtain ⟨b, found, _, _, passed⟩ := passed
  cases passed
  unfold reauthorized at found
  split at found
  · exact readAuthorized_spec found
  · exact assetReadAuthorized_spec found

end ProxyPilot.Artifacts
