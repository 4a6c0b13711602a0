import ProxyPilot.Mock2.Locks

namespace ProxyPilot.Mock2

open Data Transition

/-- Every call leaves the table alone or writes one row.  The cases below carry the
guards the code passed, so that invariants never unfold the calls. -/
inductive LockEffect (table : LockTable) : LockCall → LockTable → Prop where
  | unchanged {call} : LockEffect table call table
  | acquired (call : AcquireCall)
      (unreserved : ∀ row, table.get call.projectId = some row → row.holderOperationId = none) :
      LockEffect table (.acquire call) (table.put (call.row (table.get call.projectId)))
  | touched {projectId holder now row} (found : table.get projectId = some row)
      (unreserved : row.holderOperationId = none) :
      LockEffect table (.touch projectId holder now) (table.put { row with lastWriteAt := some now })
  | detached {projectId holder row} (found : table.get projectId = some row)
      (reserved : row.holderOperationId.isSome = true) :
      LockEffect table (.release projectId holder)
        (table.put { row with holderCycleId := none, holderOperationState := some .uncertain })
  | released {projectId holder row} (found : table.get projectId = some row)
      (unreserved : row.holderOperationId = none) :
      LockEffect table (.release projectId holder) (table.erase projectId)
  | attached {call : LeaseCall} {row} (found : table.get call.projectId = some row)
      (unreserved : row.holderOperationId = none) (held : row.holderCycleId.isSome = true)
      (single : row.holderUserId = none) :
      LockEffect table (.lease call)
        (table.put { row with holderOperationId := some call.token
                              holderOperationState := some .active, holderOperationKind := call.kind })
  | leased {call : LeaseCall} (free : lockHolder (table.get call.projectId) = none) :
      LockEffect table (.lease call) (table.put (acquireCheckoutOperationLease.fresh call))
  | marked {projectId token row} (found : table.get projectId = some row) :
      LockEffect table (.markUncertain projectId token)
        (table.put { row with holderOperationState := some .uncertain })
  | settled {projectId token now row} (found : table.get projectId = some row)
      (own : row.holderOperationId = some token)
      (kept : row.holderCycleId.isSome = true ∨ row.holderUserId.isSome = true) :
      LockEffect table (.settle projectId token now)
        (table.put { row with holderOperationId := none, holderOperationState := none
                              holderOperationKind := none, lastWriteAt := some now })
  | dropped {projectId token now row} (found : table.get projectId = some row)
      (own : row.holderOperationId = some token) :
      LockEffect table (.settle projectId token now) (table.erase projectId)
  | asked {projectId userId now row} (found : table.get projectId = some row) :
      LockEffect table (.takeover projectId userId now)
        (table.put { row with takeoverRequestedBy := userId, takeoverRequestedAt := some (some now) })

variable {row : LockRow} {table : LockTable}

theorem not_reserved_iff : row.reserved = false ↔ row.holderOperationId = none := by
  simp [LockRow.reserved]

/-- The holder a requester names is never an operation. -/
theorem unreserved_of_holder {requester : Requester}
    (held : lockHolder (some row) = some requester.holder) : row.holderOperationId = none := by
  cases reserved : row.holderOperationId with
  | none => rfl
  | some token =>
    rw [lockHolder_reserved reserved] at held
    cases requester <;> simp [Requester.holder] at held

theorem acquireLock_refused {call : AcquireCall} {token : String}
    (found : table.get call.projectId = some row) (reserved : row.holderOperationId = some token) :
    acquireLock table call = (table, operationBusy row) := by
  simp [acquireLock, found, LockRow.reserved, reserved, Option.filter]

theorem acquireLock_effect (table : LockTable) (call : AcquireCall) :
    (∃ result, acquireLock table call = (table, result) ∧ result.ok = false) ∨
      ((∀ row, table.get call.projectId = some row → row.holderOperationId = none) ∧
        ∃ result, acquireLock table call = (table.put (call.row (table.get call.projectId)), result) ∧
          result.ok = true) := by
  unfold acquireLock
  dsimp only
  cases reserved : (table.get call.projectId).filter LockRow.reserved with
  | some row => exact Or.inl ⟨_, rfl, rfl⟩
  | none =>
    dsimp only
    split
    · exact Or.inl ⟨_, rfl, rfl⟩
    · refine Or.inr ⟨fun row found => ?_, _, rfl, rfl⟩
      cases held : row.holderOperationId with
      | none => rfl
      | some token => simp [found, LockRow.reserved, held, Option.filter] at reserved

theorem touchLock_effect (table : LockTable) (projectId : Nat) (holder : Option Requester) (now : Int) :
    touchLock table projectId holder now = (table, false) ∨
      ∃ row, table.get projectId = some row ∧ row.holderOperationId = none ∧
        touchLock table projectId holder now = (table.put { row with lastWriteAt := some now }, true) := by
  unfold touchLock
  cases found : table.get projectId with
  | none => exact Or.inl rfl
  | some row =>
    cases holder with
    | none => exact Or.inl rfl
    | some holder =>
      by_cases held : lockHolder (some row) = some holder.holder
      · exact Or.inr ⟨row, rfl, unreserved_of_holder held, by simp [held]⟩
      · exact Or.inl (by simp [held])

theorem releaseLock_effect (table : LockTable) (projectId : Nat) (holder : Option Requester) :
    LockEffect table (.release projectId holder) (releaseLock table projectId holder).1 := by
  unfold releaseLock
  cases found : table.get projectId with
  | none => exact .unchanged
  | some row =>
    simp only
    split
    case isTrue reserved =>
      split
      · split
        · exact .detached found reserved
        · exact .unchanged
      · exact .unchanged
    case isFalse reserved =>
      have unreserved := not_reserved_iff.mp (Bool.not_eq_true _ ▸ reserved)
      split
      · exact .released found unreserved
      · split
        · exact .released found unreserved
        · exact .unchanged

theorem acquireCheckoutOperationLease_refused {call : LeaseCall}
    {token : String} (found : table.get call.projectId = some row)
    (reserved : row.holderOperationId = some token) :
    ∃ reason, acquireCheckoutOperationLease table call = (table, .refused reason) := by
  have holder := lockHolder_reserved reserved
  have free : call.attached (some row) = false := by
    cases cycle : call.cycleId <;> simp [LeaseCall.attached, cycle, holder]
  unfold acquireCheckoutOperationLease
  split
  · exact ⟨_, rfl⟩
  · simp only [found, free, holder, Option.isSome_some, if_true, Bool.false_eq_true, if_false]
    split <;> exact ⟨_, rfl⟩

theorem acquireCheckoutOperationLease_effect (table : LockTable) (call : LeaseCall) :
    ((acquireCheckoutOperationLease table call).1 = table ∧
        ∃ reason, (acquireCheckoutOperationLease table call).2 = .refused reason) ∨
      (LockEffect table (.lease call) (acquireCheckoutOperationLease table call).1 ∧
        (acquireCheckoutOperationLease table call).2 = .granted call.token ∧
        ∃ row, (acquireCheckoutOperationLease table call).1.get call.projectId = some row ∧
          row.holderOperationId = some call.token) := by
  unfold acquireCheckoutOperationLease
  split
  case isTrue => exact Or.inl ⟨rfl, _, rfl⟩
  case isFalse =>
    dsimp only
    split
    case isTrue => exact Or.inl ⟨rfl, _, rfl⟩
    case isFalse =>
      cases found : table.get call.projectId with
      | none =>
        exact Or.inr ⟨.leased (by simp [found, lockHolder]), rfl,
          acquireCheckoutOperationLease.fresh call, table.get_put_self _, rfl⟩
      | some row =>
        dsimp only
        split
        case isTrue attached =>
          split
          case isTrue clause =>
            have key : call.projectId = row.projectId := (Table.get_key found).symm
            have held : row.holderCycleId.isSome = true := by
              cases cycle : call.cycleId with
              | none => simp [LeaseCall.attached, cycle] at attached
              | some id => rw [clause.1, cycle]; rfl
            refine Or.inr ⟨.attached found clause.2.2 held clause.2.1, rfl,
              { row with holderOperationId := some call.token, holderOperationState := some .active
                         holderOperationKind := call.kind }, ?_, rfl⟩
            rw [key]
            exact table.get_put_self _
          case isFalse => exact Or.inl ⟨rfl, _, rfl⟩
        case isFalse =>
          split
          case isTrue => exact Or.inl ⟨rfl, _, rfl⟩
          case isFalse free =>
            have free : lockHolder (table.get call.projectId) = none := by
              simpa [found] using free
            exact Or.inr ⟨.leased free, rfl, acquireCheckoutOperationLease.fresh call,
              table.get_put_self _, rfl⟩

/-- Every call does one of the listed things. -/
theorem LockCall.effect (call : LockCall) (table : LockTable) :
    LockEffect table call (call.table table) := by
  cases call with
  | acquire call =>
    rcases acquireLock_effect table call with ⟨_, same, _⟩ | ⟨unreserved, _, written, _⟩
    · simp only [LockCall.table, same]; exact .unchanged
    · simp only [LockCall.table, written]; exact .acquired call unreserved
  | touch projectId holder now =>
    rcases touchLock_effect table projectId holder now with same | ⟨row, found, unreserved, written⟩
    · simp only [LockCall.table, same]; exact .unchanged
    · simp only [LockCall.table, written]; exact .touched found unreserved
  | release projectId holder => exact releaseLock_effect table projectId holder
  | takeover projectId userId now =>
    simp only [LockCall.table, requestTakeover]
    cases found : table.get projectId with
    | none => exact .unchanged
    | some row =>
      dsimp only
      split
      · exact .unchanged
      · split
        · exact .unchanged
        · exact .asked found
  | lease call =>
    rcases acquireCheckoutOperationLease_effect table call with ⟨same, _⟩ | ⟨effect, _⟩
    · simp only [LockCall.table, same]; exact .unchanged
    · exact effect
  | markUncertain projectId token =>
    simp only [LockCall.table, markTaskContinuityLeaseUncertain]
    cases found : table.get projectId with
    | none => exact .unchanged
    | some row =>
      dsimp only
      split
      · exact .marked found
      · exact .unchanged
  | settle projectId token now =>
    simp only [LockCall.table, settleTaskContinuityLease]
    cases found : table.get projectId with
    | none => exact .unchanged
    | some row =>
      dsimp only
      split
      case isTrue own =>
        split
        case isTrue kept => exact .settled found own.2 kept
        case isFalse => exact .dropped found own.2
      case isFalse => exact .unchanged
  | beginSweep now idleMs checkpoints => exact .unchanged
  | resumeSweep id answer => exact .unchanged

@[simp] theorem advanceSweep_locks (state : LockState) (id : Nat) (now : Stamp) (idleMs : Int)
    (rows : List LockRow) : (advanceSweep state id now idleMs rows).locks = state.locks := by
  unfold advanceSweep
  split <;> rfl

theorem releaseIdle_preserves {holds : LockTable → Prop}
    (preserves : ∀ {table} projectId, holds table → holds (releaseLock table projectId none).1)
    (now : Stamp) (idleMs : Int) (before : holds table) (rows : List LockRow) :
    holds (releaseIdle now idleMs table rows) := by
  induction rows generalizing table with
  | nil => exact before
  | cons row rest ih =>
    refine ih ?_
    split
    · exact preserves row.projectId before
    · exact before

/-- A step is the call's own effect, or releases of the sweep, which name no holder. -/
theorem lockStep_preserves (holds : LockTable → Prop) {call : LockCall}
    (own : ∀ {table after}, holds table → LockEffect table call after → holds after)
    (swept : ∀ {table after} projectId, holds table →
      LockEffect table (.release projectId none) after → holds after)
    {state after : LockState} (before : holds state.locks) (moved : lockStep state call = some after) :
    holds after.locks := by
  have releases : ∀ {table} projectId, holds table → holds (releaseLock table projectId none).1 :=
    fun projectId held => swept projectId held (releaseLock_effect _ projectId none)
  cases call with
  | beginSweep now idleMs checkpoints =>
    cases moved
    unfold beginSweep
    split
    · simpa using before
    · exact releaseIdle_preserves releases now idleMs before _
  | resumeSweep id answer =>
    simp only [lockStep, Option.map_eq_some_iff] at moved
    obtain ⟨sweep, _, rfl⟩ := moved
    simp only [resumeSweep, advanceSweep_locks]
    split
    · exact releases _ before
    · exact before
    · exact before
  | _ => cases moved; exact own before (LockCall.effect _ _)

end ProxyPilot.Mock2
