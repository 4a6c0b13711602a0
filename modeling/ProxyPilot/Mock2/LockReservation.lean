import ProxyPilot.Mock2.LockEffects

namespace ProxyPilot.Mock2

open Data Transition

/-- The project's row is reserved under this token. -/
def ReservedBy (table : LockTable) (projectId : Nat) (token : String) : Prop :=
  ∃ row, table.get projectId = some row ∧ row.holderOperationId = some token

/-- A row names a person or a cycle, never both. -/
def LockRow.SingleHolder (row : LockRow) : Prop := row.holderUserId = none ∨ row.holderCycleId = none

namespace ReservedBy

variable {table after : LockTable} {projectId : Nat} {token : String}

variable {row : LockRow} {other : Nat}

theorem put (reserved : ReservedBy table projectId token)
    (kept : row.projectId = projectId → row.holderOperationId = some token) :
    ReservedBy (table.put row) projectId token := by
  obtain ⟨old, found, held⟩ := reserved
  by_cases same : row.projectId = projectId
  · exact ⟨row, by rw [← same]; exact table.get_put_self row, kept same⟩
  · exact ⟨old, by rw [table.get_put_other (Ne.symm same)]; exact found, held⟩

theorem erase (reserved : ReservedBy table projectId token) {erased : Nat}
    (different : erased ≠ projectId) : ReservedBy (table.erase erased) projectId token := by
  obtain ⟨old, found, held⟩ := reserved
  exact ⟨old, by rw [table.get_erase, if_neg different.symm]; exact found, held⟩

/-- The row stored under a reserved project carries the token. -/
theorem row_token (reserved : ReservedBy table projectId token)
    (found : table.get other = some row) (same : row.projectId = projectId) :
    row.holderOperationId = some token := by
  obtain ⟨old, stored, held⟩ := reserved
  have key : other = projectId := (Table.get_key found).symm.trans same
  rw [key, stored] at found
  exact Option.some.inj found ▸ held

theorem not_unreserved (reserved : ReservedBy table projectId token)
    (found : table.get projectId = some row) : row.holderOperationId ≠ none := by
  rw [reserved.row_token found (Table.get_key found)]
  exact Option.some_ne_none token

/-- Rewriting a stored row without its operation column. -/
theorem rewrite (reserved : ReservedBy table projectId token) {old row : LockRow}
    (found : table.get other = some old) (project : row.projectId = old.projectId)
    (operation : row.holderOperationId = old.holderOperationId) :
    ReservedBy (table.put row) projectId token := by
  refine reserved.put fun same => ?_
  rw [operation]
  exact reserved.row_token found (project ▸ same)

/-- Only a settlement with the token itself ends a reservation. -/
theorem effect (reserved : ReservedBy table projectId token) {call : LockCall}
    (effect : LockEffect table call after) (unsettled : ∀ now, call ≠ .settle projectId token now) :
    ReservedBy after projectId token := by
  cases effect with
  | unchanged => exact reserved
  | acquired call unreserved =>
    refine reserved.put fun same => ?_
    obtain ⟨row, found, held⟩ := reserved
    have none := unreserved row (by rw [show call.projectId = projectId from same]; exact found)
    rw [none] at held
    contradiction
  | touched found _ => exact reserved.rewrite found rfl rfl
  | detached found _ => exact reserved.rewrite found rfl rfl
  | released found unreserved =>
    refine reserved.erase fun same => ?_
    exact reserved.not_unreserved (same ▸ found) unreserved
  | @attached call row found unreserved _ _ =>
    refine reserved.put fun same => ?_
    have held := reserved.row_token found (show row.projectId = projectId from same)
    rw [unreserved] at held
    contradiction
  | @leased call free =>
    refine reserved.put fun same => ?_
    obtain ⟨row, found, held⟩ := reserved
    rw [show call.projectId = projectId from same, found, lockHolder_reserved held] at free
    contradiction
  | marked found => exact reserved.rewrite found rfl rfl
  | @settled other own now row found held _ =>
    refine reserved.put fun same => ?_
    have key : other = projectId := (Table.get_key found).symm.trans same
    have token := reserved.row_token found (show row.projectId = projectId from same)
    rw [held] at token
    cases token
    exact absurd (key ▸ rfl) (unsettled now)
  | @dropped other own now row found held =>
    refine reserved.erase fun key => ?_
    have token := reserved.row_token found ((Table.get_key found).trans key)
    rw [held] at token
    cases token
    exact absurd (key ▸ rfl) (unsettled now)
  | asked found => exact reserved.rewrite found rfl rfl

end ReservedBy

variable {state after : LockState} {call : LockCall} {projectId : Nat} {token : String}

theorem lockStep_reserved
    (reserved : ReservedBy state.locks projectId token) (moved : lockStep state call = some after)
    (unsettled : ∀ now, call ≠ .settle projectId token now) :
    ReservedBy after.locks projectId token :=
  lockStep_preserves (ReservedBy · projectId token)
    (fun held effect => held.effect effect unsettled)
    (fun _ held effect => held.effect effect fun _ => LockCall.noConfusion) reserved moved

theorem SingleHolder.effect {table after : LockTable}
    (single : ∀ row ∈ table.rows, row.SingleHolder) (effect : LockEffect table call after) :
    ∀ row ∈ after.rows, row.SingleHolder := by
  have put : ∀ {row : LockRow}, row.SingleHolder → ∀ other ∈ (table.put row).rows, other.SingleHolder := by
    intro row written other member
    rcases Table.mem_put.mp member with rfl | ⟨stored, _⟩
    · exact written
    · exact single other stored
  have erase : ∀ projectId, ∀ row ∈ (table.erase projectId).rows, row.SingleHolder :=
    fun _ row member => single row (List.mem_of_mem_filter member)
  have old : ∀ {projectId row}, table.get projectId = some row → row.SingleHolder :=
    fun found => single _ (Table.get_mem found)
  cases effect with
  | unchanged => exact single
  | acquired call _ =>
    refine put ?_
    cases requester : call.requester <;> simp [LockRow.SingleHolder, AcquireCall.row, requester]
  | touched found _ =>
    have stored := old found
    exact put stored
  | detached _ _ => exact put (Or.inr rfl)
  | released _ _ => exact erase _
  | attached found _ _ _ =>
    have stored := old found
    exact put stored
  | leased _ => exact put (Or.inl rfl)
  | marked found =>
    have stored := old found
    exact put stored
  | settled found _ _ =>
    have stored := old found
    exact put stored
  | dropped _ _ => exact erase _
  | asked found =>
    have stored := old found
    exact put stored

theorem reachable_singleHolder {state : LockState} (reached : lockSystem.Reachable state) :
    ∀ row ∈ state.locks.rows, row.SingleHolder := by
  refine reached.invariant (fun state => ∀ row ∈ state.locks.rows, row.SingleHolder) ?_ ?_
  · intro state initial row member
    cases initial
    cases member
  · intro state call after single moved
    exact lockStep_preserves (fun table => ∀ row ∈ table.rows, row.SingleHolder)
      (fun held effect => SingleHolder.effect held effect)
      (fun _ held effect => SingleHolder.effect held effect) single moved

theorem exec_reserved {calls : List LockCall}
    (reserved : ReservedBy state.locks projectId token)
    (ran : lockSystem.exec state calls = some after)
    (unsettled : ∀ call ∈ calls, ∀ now, call ≠ .settle projectId token now) :
    ReservedBy after.locks projectId token :=
  lockSystem.exec_preserves_along (fun _ call => ∀ now, call ≠ .settle projectId token now)
    (fun state => ReservedBy state.locks projectId token)
    (fun held unsettled moved => lockStep_reserved held moved unsettled)
    (System.along_of_forall unsettled) reserved ran

/-- A granted reservation stays until it is settled with its own token.  Until
then no acquisition, forced or not, and no other lease of the project succeeds. -/
theorem reservation_released_only_by_token {state : LockState} (reached : lockSystem.Reachable state) :
    (∀ row ∈ state.locks.rows, row.SingleHolder) ∧
    ∀ (lease : LeaseCall) (token : String),
      (acquireCheckoutOperationLease state.locks lease).2 = .granted token →
      ∀ (calls : List LockCall) (after : LockState),
        lockSystem.exec state (.lease lease :: calls) = some after →
        (∀ call ∈ calls, ∀ now, call ≠ .settle lease.projectId token now) →
        ReservedBy after.locks lease.projectId token ∧
        (∀ acquire : AcquireCall, acquire.projectId = lease.projectId →
          (acquireLock after.locks acquire).2.ok = false) ∧
        (∀ other : LeaseCall, other.projectId = lease.projectId →
          ∃ reason, (acquireCheckoutOperationLease after.locks other).2 = .refused reason) := by
  refine ⟨reachable_singleHolder reached, fun lease token granted calls after ran unsettled => ?_⟩
  obtain ⟨next, moved, ran⟩ := System.exec_cons.mp ran
  have reserved : ReservedBy after.locks lease.projectId token := by
    refine exec_reserved ?_ ran unsettled
    cases moved
    rcases acquireCheckoutOperationLease_effect state.locks lease with ⟨_, _, refused⟩ | ⟨_, own, held⟩
    · rw [refused] at granted
      contradiction
    · rw [own] at granted
      cases granted
      exact held
  obtain ⟨row, found, held⟩ := reserved
  refine ⟨⟨row, found, held⟩, fun acquire same => ?_, fun other same => ?_⟩
  · rw [acquireLock_refused (same ▸ found) held]
    rfl
  · obtain ⟨reason, refused⟩ := acquireCheckoutOperationLease_refused (same ▸ found) held
    exact ⟨reason, by rw [refused]⟩

def attachedLease : LeaseCall :=
  { projectId := 1, kind := some .taskContinuity, cycleId := some 7, token := "a", now := 20 }

/-- Cycle 7 reserves its own checkout, is force-released and times out; the
reservation outlives it. -/
theorem reservation_released_only_by_token_attachedLease :
    ∃ after, lockSystem.exec .start
        [.acquire ⟨1, .cycle 7, none, false, 100, 10, 10⟩, .lease attachedLease,
          .release 1 (some (.cycle 7)), .release 1 none, .beginSweep (some 900) 100 false,
          .acquire ⟨1, .user "u", some .admin, true, 100, 900, 900⟩] = some after ∧
      ReservedBy after.locks 1 "a" ∧
      (∀ acquire : AcquireCall, acquire.projectId = 1 → (acquireLock after.locks acquire).2.ok = false) := by
  let held := (acquireLock ∅ ⟨1, .cycle 7, none, false, 100, 10, 10⟩).1
  have reached : lockSystem.Reachable ⟨held, ∅, 0⟩ :=
    ⟨.start, [.acquire ⟨1, .cycle 7, none, false, 100, 10, 10⟩], rfl, rfl⟩
  obtain ⟨reserved, refused, _⟩ := (reservation_released_only_by_token reached).2 attachedLease "a" rfl
    [.release 1 (some (.cycle 7)), .release 1 none, .beginSweep (some 900) 100 false,
      .acquire ⟨1, .user "u", some .admin, true, 100, 900, 900⟩] _ rfl (by simp)
  exact ⟨_, rfl, reserved, refused⟩

end ProxyPilot.Mock2
