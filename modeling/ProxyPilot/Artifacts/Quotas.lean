import ProxyPilot.Artifacts.Machine

namespace ProxyPilot.Artifacts

open Data Transition

variable {w : World} {s after : State} {a a' : Artifact} {id : String}

/-- Charged in full until its removal is recorded, and then gone. -/
def Charged (s : State) (a : Artifact) : Prop :=
  match s.deletions.get a.id with
  | none => a.chargedBytes = a.byteCount ∧ a.fileState.gone = false
  | some deletion => a.chargedBytes = 0 ∧ a.fileState = .removed deletion.outcome ∧ a.lapsed s.now = true

structure Sound (w : World) (s : State) : Prop where
  charged : ∀ a ∈ s.artifacts.rows, Charged s a
  recorded : ∀ id, (s.deletions.get id).isSome = true → (s.artifacts.get id).isSome = true
  installation : usedWhere s (fun _ => true) ≤ w.installationBytes.val
  account : ∀ actor, usedWhere s (·.actorId == actor) ≤ w.accountBytes.val
  project : ∀ project, usedWhere s (·.projectId == project) ≤ w.projectBytes.val
  budget : ∀ scope, attemptBytes s scope ≤ (w.configuration scope).maxArtifactBytes
  accountSlots : ∀ actor, activeWhere s (·.actorId == actor) ≤ 2
  projectSlots : ∀ project, activeWhere s (·.projectId == project) ≤ 4
  slots : activeWhere s (fun _ => true) ≤ 8

theorem Sound.start (w : World) : Sound w .start := by
  have used : ∀ chosen, usedWhere .start chosen = 0 := fun _ => rfl
  have none : ∀ chosen, activeWhere .start chosen = 0 := fun _ => rfl
  have bytes : ∀ scope, attemptBytes .start scope = 0 := fun _ => rfl
  exact
  { charged := fun _ member => nomatch member
    recorded := fun _ wrong => nomatch wrong
    installation := used _ ▸ Nat.zero_le _
    account := fun _ => used _ ▸ Nat.zero_le _
    project := fun _ => used _ ▸ Nat.zero_le _
    budget := fun _ => bytes _ ▸ Nat.zero_le _
    accountSlots := fun _ => none _ ▸ Nat.zero_le _
    projectSlots := fun _ => none _ ▸ Nat.zero_le _
    slots := none _ ▸ Nat.zero_le _ }

variable {now : Nat} {chosen : Artifact → Bool}

theorem lapsed_later (ms : Nat) (lapsed : a.lapsed now = true) : a.lapsed (now + ms) = true := by
  simp only [Artifact.lapsed, Bool.or_eq_true, Bool.and_eq_true, decide_eq_true_eq] at lapsed ⊢
  rcases lapsed with (final | expired) | ⟨reserved, gone⟩
  · exact .inl (.inl final)
  · exact .inl (.inr (by omega))
  · exact .inr ⟨reserved, by omega⟩

theorem active_earlier (ms : Nat) (active : a.active (now + ms) = true) : a.active now = true := by
  simp only [Artifact.active, Artifact.reservedAt, Artifact.busyAt, Bool.or_eq_true,
    Bool.and_eq_true, Option.any_eq_true,
    decide_eq_true_eq] at active ⊢
  rcases active with ⟨reserved, waiting⟩ | ⟨busy, there, waiting⟩
  · exact .inl ⟨reserved, by omega⟩
  · exact .inr ⟨busy, there, by omega⟩

theorem activeWhere_later (chosen : Artifact → Bool) (ms : Nat) :
    activeWhere { s with now := s.now + ms } chosen ≤ activeWhere s chosen := by
  have fewer : ∀ a : Artifact, (chosen a && a.active (s.now + ms)) = true →
      (chosen a && a.active s.now) = true := by
    intro a
    simp only [Bool.and_eq_true]
    exact And.imp_right (active_earlier ms)
  exact List.countP_mono_left fun a _ => fewer a

theorem Sound.tick (sound : Sound w s) (ms : Nat) : Sound w { s with now := s.now + ms } :=
  { sound with
    charged := fun a member => by
      have charged := sound.charged a member
      simp only [Charged] at charged ⊢
      split at charged
      · exact charged
      · exact ⟨charged.1, charged.2.1, lapsed_later ms charged.2.2⟩
    accountSlots := fun actor => Nat.le_trans (activeWhere_later _ ms) (sound.accountSlots actor)
    projectSlots := fun project => Nat.le_trans (activeWhere_later _ ms) (sound.projectSlots project)
    slots := Nat.le_trans (activeWhere_later _ ms) sound.slots }

/-- A row that may also have been removed. -/
structure Artifact.Trails (now : Nat) (a a' : Artifact) : Prop where
  identity : a'.identity = a.identity
  active : a'.active now = true → a.active now = true
  charge : a'.chargedBytes ≤ a.chargedBytes

theorem Artifact.Follows.trails (follows : a.Follows now a') : a.Trails now a' :=
  ⟨follows.identity, follows.active, Nat.le_of_eq follows.charge⟩

theorem same_columns (same : a'.identity = a.identity) :
    a'.id = a.id ∧ a'.actorId = a.actorId ∧ a'.projectId = a.projectId ∧ a'.scope = a.scope ∧
      a'.byteCount = a.byteCount := by
  have columns : ∀ a : Artifact, (a.identity.id, a.identity.actorId, a.identity.projectId,
      a.identity.scope, a.identity.byteCount) =
      (a.id, a.actorId, a.projectId, a.scope, a.byteCount) := fun _ => rfl
  have both := columns a'
  rw [same, columns a] at both
  simpa [eq_comm] using both

theorem usedWhere_trails (same : ∀ a a' : Artifact, a'.identity = a.identity → chosen a' = chosen a)
    (trails : Table.Rowwise (Artifact.Trails s.now) s.artifacts after.artifacts) :
    usedWhere after chosen ≤ usedWhere s chosen := by
  refine Table.Rowwise.total_le (fun a a' inside => ?_) trails
  rw [same a a' inside.identity]
  split
  · exact inside.charge
  · exact Nat.le_refl _

theorem activeWhere_trails (time : after.now = s.now)
    (same : ∀ a a' : Artifact, a'.identity = a.identity → chosen a' = chosen a)
    (trails : Table.Rowwise (Artifact.Trails s.now) s.artifacts after.artifacts) :
    activeWhere after chosen ≤ activeWhere s chosen := by
  unfold activeWhere
  rw [time]
  refine Table.Rowwise.count_le (fun a a' inside counted => ?_) trails
  rw [same a a' inside.identity] at counted
  simp only [Bool.and_eq_true] at counted ⊢
  exact counted.imp_right inside.active

theorem attemptBytes_trails (scope : Scope)
    (trails : Table.Rowwise (Artifact.Trails s.now) s.artifacts after.artifacts) :
    attemptBytes after scope ≤ attemptBytes s scope := by
  refine Table.Rowwise.total_le (fun a a' inside => ?_) trails
  obtain ⟨_, _, _, scope', bytes⟩ := same_columns inside.identity
  exact Nat.le_of_eq (by rw [scope', bytes])

/-- What holds of every limit when rows only trail. -/
theorem Sound.trailed (sound : Sound w s) (time : after.now = s.now)
    (charged : ∀ a ∈ after.artifacts.rows, Charged after a)
    (recorded : ∀ id, (after.deletions.get id).isSome = true → (after.artifacts.get id).isSome = true)
    (trails : Table.Rowwise (Artifact.Trails s.now) s.artifacts after.artifacts) : Sound w after := by
  have actor : ∀ actor : String, ∀ a a' : Artifact, a'.identity = a.identity →
      (a'.actorId == actor) = (a.actorId == actor) :=
    fun _ _ _ same => by rw [(same_columns same).2.1]
  have project : ∀ project : String, ∀ a a' : Artifact, a'.identity = a.identity →
      (a'.projectId == project) = (a.projectId == project) :=
    fun _ _ _ same => by rw [(same_columns same).2.2.1]
  exact
  { charged := charged
    recorded := recorded
    installation := Nat.le_trans (usedWhere_trails (fun _ _ _ => rfl) trails) sound.installation
    account := fun name => Nat.le_trans (usedWhere_trails (actor name) trails) (sound.account name)
    project := fun name => Nat.le_trans (usedWhere_trails (project name) trails) (sound.project name)
    budget := fun scope => Nat.le_trans (attemptBytes_trails scope trails) (sound.budget scope)
    accountSlots := fun name => Nat.le_trans (activeWhere_trails time (actor name) trails) (sound.accountSlots name)
    projectSlots := fun name =>
      Nat.le_trans (activeWhere_trails time (project name) trails) (sound.projectSlots name)
    slots := Nat.le_trans (activeWhere_trails time (fun _ _ _ => rfl) trails) sound.slots }

theorem Charged.follows (charged : Charged s a) (time : after.now = s.now)
    (deletions : after.deletions = s.deletions)
    (follows : a.Follows s.now a') : Charged after a' := by
  obtain ⟨id, _, _, _, bytes⟩ := same_columns follows.identity
  unfold Charged at charged ⊢
  rw [deletions, id, time]
  split at charged
  · exact ⟨follows.charge.trans (charged.1.trans bytes.symm), follows.there charged.2⟩
  case h_2 deletion recorded =>
      obtain ⟨none, gone, lapsed⟩ := charged
      exact ⟨follows.charge.trans none, (follows.gone (by rw [gone]; rfl) lapsed).trans gone, follows.lapsed lapsed⟩

theorem Sound.kept (sound : Sound w s) (time : after.now = s.now) (deletions : after.deletions = s.deletions)
    (rows : Table.Rowwise (Artifact.Follows s.now) s.artifacts after.artifacts) : Sound w after := by
  have keys : ∀ a a' : Artifact, a.Follows s.now a' → a'.id = a.id :=
    fun _ _ follows => (same_columns follows.identity).1
  refine sound.trailed time (fun a' member => ?_) (fun id known => ?_) (rows.imp fun _ _ => Artifact.Follows.trails)
  · obtain ⟨a, stored, follows⟩ := rows.mem member
    exact (sound.charged a stored).follows time deletions follows
  · rw [deletions] at known
    obtain ⟨a, found⟩ := Option.isSome_iff_exists.mp (sound.recorded id known)
    obtain ⟨a', found', _⟩ := rows.forth keys found
    rw [found']
    rfl

theorem usedWhere_put (chosen : Artifact → Bool) (rows : after.artifacts = s.artifacts.put a)
    (fresh : s.artifacts.get a.id = none) :
    usedWhere after chosen = usedWhere s chosen + if chosen a = true then a.chargedBytes else 0 := by
  unfold usedWhere
  rw [rows]
  exact Table.total_put_new _ fresh

theorem activeWhere_put (chosen : Artifact → Bool) (time : after.now = s.now)
    (rows : after.artifacts = s.artifacts.put a)
    (fresh : s.artifacts.get a.id = none) :
    activeWhere after chosen ≤ activeWhere s chosen + if chosen a = true then 1 else 0 := by
  unfold activeWhere
  rw [rows, time, Table.count_put_new _ fresh]
  refine Nat.add_le_add_left ?_ _
  by_cases counted : chosen a = true
  · simp only [counted, Bool.true_and, if_true]
    split <;> omega
  · simp [counted]

theorem attemptBytes_put (scope : Scope) (rows : after.artifacts = s.artifacts.put a)
    (fresh : s.artifacts.get a.id = none) :
    attemptBytes after scope = attemptBytes s scope + if a.scope.any scope.sameAttempt = true
      then a.byteCount else 0 := by
  unfold attemptBytes
  rw [rows]
  exact Table.total_put_new _ fresh

/-- Scopes of one attempt have one budget and count the same files. -/
theorem sameAttempt_eq {scope other : Scope} (same : scope.sameAttempt other = true) :
    other = { scope with fence := other.fence } := by
  simp only [Scope.sameAttempt, Bool.and_eq_true, beq_iff_eq] at same
  obtain ⟨⟨project, run⟩, attempt⟩ := same
  cases scope
  cases other
  simp_all

theorem within_one {used limit bytes : Nat} {p : Bool} (kept : used ≤ limit)
    (room : p = true → used + bytes ≤ limit) :
    used + (if p = true then bytes else 0) ≤ limit := by
  by_cases counted : p = true
  · rw [if_pos counted]
    exact room counted
  · rwa [if_neg counted]

theorem Sound.reserved (sound : Sound w s) (time : after.now = s.now)
    (deletions : after.deletions = s.deletions) (admitted : Admitted w s a)
    (rows : after.artifacts = s.artifacts.put a) : Sound w after where
  charged := by
    rw [rows]
    refine Table.all_put (fun other member => ?_) ?_
    · exact (sound.charged other member).follows time deletions (.refl other)
    · have unrecorded : s.deletions.get a.id = none := by
        cases known : s.deletions.get a.id with
        | none => rfl
        | some deletion =>
          have there := sound.recorded a.id (known ▸ rfl)
          rw [admitted.fresh] at there
          contradiction
      unfold Charged
      rw [deletions, unrecorded]
      exact ⟨admitted.charged, by rw [admitted.allocated]; rfl⟩
  recorded := fun id known => by
    rw [deletions] at known
    rw [rows, Table.get_put]
    split
    · rfl
    · exact sound.recorded id known
  installation := by
    rw [usedWhere_put _ rows admitted.fresh]
    exact admitted.installation
  account := fun actor => by
    rw [usedWhere_put _ rows admitted.fresh]
    refine within_one (sound.account actor) fun here => ?_
    rw [← beq_iff_eq.mp here]
    exact admitted.accountBytes
  project := fun project => by
    rw [usedWhere_put _ rows admitted.fresh]
    refine within_one (sound.project project) fun here => ?_
    rw [← beq_iff_eq.mp here]
    exact admitted.projectBytes
  budget := fun scope => by
    rw [attemptBytes_put scope rows admitted.fresh]
    refine within_one (sound.budget scope) fun here => ?_
    obtain ⟨other, named, same⟩ := (Option.any_eq_true ..).mp here
    have budget := admitted.budget other named
    rw [sameAttempt_eq same, w.pinned] at budget
    exact budget
  accountSlots := fun actor => by
    refine Nat.le_trans (activeWhere_put _ time rows admitted.fresh)
      (within_one (sound.accountSlots actor) fun here => ?_)
    rw [← beq_iff_eq.mp here]
    exact admitted.account
  projectSlots := fun project => by
    refine Nat.le_trans (activeWhere_put _ time rows admitted.fresh)
      (within_one (sound.projectSlots project) fun here => ?_)
    rw [← beq_iff_eq.mp here]
    exact admitted.project
  slots :=
    Nat.le_trans (activeWhere_put _ time rows admitted.fresh) (within_one sound.slots fun _ => admitted.slots)

theorem Sound.removed (sound : Sound w s) (outcome : Outcome)
    (found : s.artifacts.get a.id = some a) (candidate : cleanupCandidate s a = true) :
    Sound w { s.update a.id (Artifact.removed outcome) with
      deletions := s.deletions.put ⟨a.id, s.now, outcome⟩ } := by
  simp only [cleanupCandidate, Bool.and_eq_true] at candidate
  have keys := Artifact.changeIf_id a.id (Artifact.removed outcome)
  refine sound.trailed rfl (Table.all_map _ keys fun row member => ?_) (fun id known => ?_)
    (.map _ keys fun row _ => ?_)
  · by_cases same : row.id = a.id
    · have one : row = a := Table.key_injective member (Table.get_mem found) same
      subst one
      rw [show row.changeIf row.id (Artifact.removed outcome) = row.removed outcome from if_pos rfl]
      have recorded : (s.deletions.put ⟨row.id, s.now, outcome⟩).get (row.removed outcome).id =
          some ⟨row.id, s.now, outcome⟩ :=
        Table.get_put_self _ _
      simp only [Charged, recorded]
      exact ⟨rfl, rfl, candidate.2⟩
    · rw [show row.changeIf a.id (Artifact.removed outcome) = row from if_neg same]
      simp only [Charged]
      rw [Table.get_put_other _ same]
      exact sound.charged row member
  · refine (congrArg Option.isSome (Table.get_map s.artifacts _ keys id)).trans ?_
    rw [Option.isSome_map]
    rw [Table.get_put] at known
    split at known
    case isTrue here =>
        rw [show id = a.id from here, found]
        rfl
    case isFalse => exact sound.recorded id known
  · unfold Artifact.changeIf
    split
    · refine ⟨rfl, fun active => ?_, Nat.zero_le _⟩
      have reserved : (row.reservedAt s.now || false) = true := active
      exact active_of_reserved (by simpa using reserved)
    · exact (Artifact.Follows.refl row).trails

theorem Sound.moved (sound : Sound w s) (moves : Moves w s after) : Sound w after := by
  cases moves with
  | tick ms => exact sound.tick ms
  | kept time deletions rows => exact sound.kept time deletions rows
  | reserved time deletions admitted rows => exact sound.reserved time deletions admitted rows
  | removed outcome found candidate _ => exact sound.removed outcome found candidate

theorem reachable_sound (reached : (machine w).Reachable s) : Sound w s := by
  refine System.Reachable.invariant (Sound w) (fun s start => ?_) (fun sound moved => ?_) reached
  · exact start ▸ .start w
  · cases moved
    exact sound.moved (step_moves w _ _)

/-- No reader passes with a lease of this artifact, whatever its attempt proves. -/
def Unreadable (w : World) (s : State) (id : String) : Prop :=
  ∀ answers actor l a, l.artifactId = id → checkRead w answers s actor l ≠ .ok a

theorem unreadable_of (closed : ∀ a, s.artifacts.get id = some a → a.alive s.now →
    a.isSealed = false) : Unreadable w s id := by
  intro answers actor l a named passed
  obtain ⟨found, alive, whole⟩ := checkRead_spec passed
  rw [closed a (named ▸ found) alive] at whole
  contradiction

theorem unreadable_lapsed (found : s.artifacts.get id = some a) (lapsed : a.lapsed s.now = true) :
    Unreadable w s id := by
  refine unreadable_of fun other found' alive => Bool.eq_false_iff.mpr fun whole => ?_
  cases found.symm.trans found'
  have unreserved : a.state = .reserved → s.now < a.reservationUntil := fun reserved => by
    rw [Artifact.isSealed, reserved] at whole
    simp at whole
  rw [lapsed_eq_false alive unreserved] at lapsed
  contradiction

def Lapsed (id : String) (s : State) : Prop := ∃ a, s.artifacts.get id = some a ∧ a.lapsed s.now = true

theorem Moves.lapsed (moves : Moves w s after) (lapsed : Lapsed id s) : Lapsed id after := by
  obtain ⟨a, found, past⟩ := lapsed
  cases moves with
  | tick ms => exact ⟨a, found, lapsed_later ms past⟩
  | kept time _ rows =>
    obtain ⟨a', found', follows⟩ := rows.forth (fun _ _ follows => (same_columns follows.identity).1) found
    exact ⟨a', found', time ▸ follows.lapsed past⟩
  | @reserved _ new time _ admitted put =>
    have other : id ≠ new.id := fun same => by
      rw [same, admitted.fresh] at found
      contradiction
    exact ⟨a, by rw [put, Table.get_put_other _ other, found], time ▸ past⟩
  | @removed dropped outcome _ _ _ =>
    refine ⟨_,
      (Table.get_map s.artifacts _ (Artifact.changeIf_id dropped.id (Artifact.removed outcome))
      id).trans (by rw [found]; rfl), ?_⟩
    unfold Artifact.changeIf
    split <;> exact past

theorem Lapsed.exec {labels : List Label} (lapsed : Lapsed id s)
    (ran : (machine w).exec s labels = some after) : Unreadable w after id := by
  have kept : Lapsed id after := by
    refine (machine w).exec_preserves (Lapsed id) (fun {s label after} lapsed moved => ?_) lapsed ran
    cases moved
    exact (step_moves w s label).lapsed lapsed
  obtain ⟨a, found, past⟩ := kept
  exact unreadable_lapsed found past

theorem Moves.unrecorded (moves : Moves w s after) (new : after.deletions.get id ≠ s.deletions.get id) :
    s.deletions.get id = none ∧ ∃ a, s.artifacts.get id = some a ∧ cleanupCandidate s a = true := by
  cases moves with
  | tick ms => exact absurd rfl new
  | kept _ deletions _ => exact absurd (by rw [deletions]) new
  | reserved _ deletions _ _ => exact absurd (by rw [deletions]) new
  | @removed gone outcome found candidate unrecorded =>
    have here : id = gone.id := by
      by_contra other
      exact new (Table.get_put_other _ other)
    exact here ▸ ⟨unrecorded, gone, found, candidate⟩

theorem Moves.charge (moves : Moves w s after) (found : s.artifacts.get id = some a)
    (found' : after.artifacts.get id = some a')
    (dropped : a'.chargedBytes ≠ a.chargedBytes) :
    s.deletions.get id = none ∧ (after.deletions.get id).isSome = true := by
  cases moves with
  | tick ms =>
    cases found.symm.trans found'
    exact absurd rfl dropped
  | kept _ _ rows =>
    obtain ⟨b, there, follows⟩ := rows.forth (fun _ _ follows => (same_columns follows.identity).1) found
    cases found'.symm.trans there
    exact absurd follows.charge dropped
  | @reserved _ new _ _ admitted put =>
    have other : id ≠ new.id := fun same => by
      rw [same, admitted.fresh] at found
      contradiction
    rw [put, Table.get_put_other _ other, found] at found'
    cases found'
    exact absurd rfl dropped
  | @removed gone outcome _ _ unrecorded =>
    have there :=
      (Table.get_map s.artifacts _ (Artifact.changeIf_id gone.id (Artifact.removed outcome)) id).symm.trans found'
    rw [found] at there
    cases there
    by_cases here : a.id = gone.id
    · have same : id = gone.id := (Table.get_key found).symm.trans here
      subst same
      have recorded : (s.deletions.put ⟨gone.id, s.now, outcome⟩).get gone.id =
          some ⟨gone.id, s.now, outcome⟩ := Table.get_put_self _ _
      exact ⟨unrecorded, recorded ▸ rfl⟩
    · rw [Artifact.changeIf, if_neg here] at dropped
      exact absurd rfl dropped

/-- What the store keeps in a state that calls have led to. -/
structure Kept (w : World) (s : State) : Prop where
  installation : usedWhere s (fun _ => true) ≤ w.installationBytes.val
  account : ∀ actor, usedWhere s (·.actorId == actor) ≤ w.accountBytes.val
  project : ∀ project, usedWhere s (·.projectId == project) ≤ w.projectBytes.val
  budget : ∀ scope, attemptBytes s scope ≤ (w.configuration scope).maxArtifactBytes
  accountSlots : ∀ actor, activeWhere s (·.actorId == actor) ≤ 2
  projectSlots : ∀ project, activeWhere s (·.projectId == project) ≤ 4
  slots : activeWhere s (fun _ => true) ≤ 8
  charged : ∀ a ∈ s.artifacts.rows, s.deletions.get a.id = none → a.chargedBytes = a.byteCount
  dropped : ∀ label id a a', s.artifacts.get id = some a →
    (step w s label).artifacts.get id = some a' → a'.chargedBytes ≠ a.chargedBytes →
    s.deletions.get id = none ∧ ((step w s label).deletions.get id).isSome = true
  deleted : ∀ label id, (step w s label).deletions.get id ≠ s.deletions.get id → ∃ a, s.artifacts.get id = some a ∧
    a.busyAt s.now = false ∧ leased s id = false ∧
      ∀ labels after, (machine w).exec s labels = some after → Unreadable w after id
  written : ∀ answers answers' actor actor' l l' a a', l.id = l'.id → checkWrite w answers s actor l = .ok a →
    checkWrite w answers' s actor' l' = .ok a' → l.token = l'.token
  ended : ∀ id a, s.artifacts.get id = some a → a.state = .cancelled ∨ a.state = .rejected → ∀ labels after,
    (machine w).exec s labels = some after → Unreadable w after id

theorem Sound.keeps (sound : Sound w s) : Kept w s where
  installation := sound.installation
  account := sound.account
  project := sound.project
  budget := sound.budget
  accountSlots := sound.accountSlots
  projectSlots := sound.projectSlots
  slots := sound.slots
  charged := fun a member unrecorded => by
    have charged := sound.charged a member
    simp only [Charged, unrecorded] at charged
    exact charged.1
  dropped := fun label _ _ _ found found' dropped => (step_moves w s label).charge found found' dropped
  deleted := fun label id new => by
    obtain ⟨_, a, found, candidate⟩ := (step_moves w s label).unrecorded new
    simp only [cleanupCandidate, Bool.and_eq_true, Bool.not_eq_true'] at candidate
    obtain ⟨⟨⟨_, idle⟩, unleased⟩, lapsed⟩ := candidate
    have named : a.id = id := Table.get_key found
    exact ⟨a, found, idle, named ▸ unleased, fun labels after ran => Lapsed.exec ⟨a, found, lapsed⟩ ran⟩
  written := fun answers answers' actor actor' l l' a a' same passed passed' => by
    obtain ⟨found, _, _, busy, there, token⟩ := checkWrite_spec passed
    obtain ⟨found', _, _, busy', there', token'⟩ := checkWrite_spec passed'
    rw [same] at found
    cases found.symm.trans found'
    cases there.symm.trans there'
    exact token.symm.trans token'
  ended := fun id a found ended labels after ran => by
    have final : a.state.final = true := by rcases ended with state | state <;> rw [state] <;> rfl
    exact Lapsed.exec ⟨a, found, by simp [Artifact.lapsed, final]⟩ ran

/-- The quotas, limits, leases and removals of the store, in every state that calls lead to. -/
theorem artifacts_kept (reached : (machine w).Reachable s) : Kept w s := (reachable_sound reached).keeps

def wholeQuota : Quota := ⟨maxBytes, by decide⟩

def plainConfiguration : Configuration := ⟨1000, 3600, 7, 1000, 1000, [.plain], fun _ => true, []⟩

def plainWorld : World :=
  ⟨wholeQuota, wholeQuota, wholeQuota, ⟨14, by decide⟩, false, fun _ => plainConfiguration, fun _ _ => rfl⟩

def granted : Answers := ⟨fun _ => .ok true, fun _ => .ok ⟨false, true⟩, true, true⟩

def noteBytes : Bytes := ⟨"key", 5, .plain, "digest", by decide, by decide⟩

def noteLabels : List Label :=
  [.call granted (.reserveAsset "ada" "p" noteBytes "file"), .call granted (.claim "ada" "p" "file" none "token"),
    .call granted (.sealBytes "ada" ⟨"file", "p", none, .asset, "token"⟩ ⟨"digest", 5, .plain⟩),
      .call granted (.reviewAsset "p" "file" true),
    .call granted (.openAssetRead "ada" "p" "file" .upload "lease"), .call granted (.cancel "p" "file" none),
    .call granted (.maintenanceApply "file" (some .deleted))]

theorem artifacts_kept_note : ∃ s, (machine plainWorld).exec .start noteLabels = some s ∧
    (s.deletions.get "file").isSome = true ∧ usedWhere s (fun _ => true) = 0 ∧ Kept plainWorld s :=
  ⟨_, rfl, by rfl, by rfl, artifacts_kept ⟨.start, noteLabels, rfl, rfl⟩⟩

end ProxyPilot.Artifacts
