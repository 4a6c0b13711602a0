import ProxyPilot.Mock2.BuildQueue
import ProxyPilot.Data.History
import Mathlib.Data.List.Count

namespace ProxyPilot.Mock2

open Data Transition

/-! # What the build queue hands over

The entry a drain has selected is safe as long as nobody cancels it and no second
drain selects it.
-/

def starts (log : List QueueEvent) (id : Nat) : Nat := log.count (.started id)

def requeues (log : List QueueEvent) (id : Nat) : Nat := log.count (.requeued id)

def marked (row : QueueRow) : Nat := if row.error = some ORPHAN_REQUEUED_MARKER then 1 else 0

/-- The starts and requeues of an entry, by its status. -/
def Counted (log : List QueueEvent) (row : QueueRow) : Prop :=
  match row.status with
  | .queued => starts log row.id = requeues log row.id ∧ requeues log row.id = marked row
  | .started => starts log row.id = 1 + requeues log row.id ∧ requeues log row.id = marked row
  | .cancelled | .failed => True

/-- An entry is handed over only when it was not cancelled before. -/
def HandedUncancelled (before : List QueueEvent) (event : QueueEvent) : Prop :=
  ∀ entry, event = .handed entry → .cancelled entry.id ∉ before

/-- What a pending drain relies on. -/
structure Selected (queue : Table QueueRow) (id : Nat) : Prop where
  idle : ∀ row ∈ queue.rows, row.status ≠ .started
  queued : ∃ row, queue.get id = some row ∧ row.status = .queued
  first : ∀ row ∈ queue.rows, row.status = .queued → id ≤ row.id

structure QueueInv (state : QueueState) : Prop where
  fresh : ∀ row ∈ state.queue.rows, row.id < state.next
  silent : ∀ id, state.next ≤ id → starts state.log id = 0 ∧ requeues state.log id = 0
  counted : ∀ row ∈ state.queue.rows, Counted state.log row
  bounded : ∀ id, starts state.log id ≤ 1 + requeues state.log id ∧ requeues state.log id ≤ 1
  single : ∀ drain ∈ state.drains.rows, ∀ other ∈ state.drains.rows, drain = other
  selected : ∀ drain ∈ state.drains.rows, Selected state.queue drain.entry.id
  cancelled : ∀ id, .cancelled id ∈ state.log → ∃ row, state.queue.get id = some row ∧ row.status = .cancelled
  handed : Obeys HandedUncancelled state.log

/-- The step does not cancel an entry a pending drain has selected, and starts no
drain while one is pending. -/
def drainsAlone (state : QueueState) : QueueLabel → Bool
  | .cancel id _ => state.drains.rows.all (·.entry.id ≠ id)
  | .drain _ => state.draining || state.drains.rows.isEmpty
  | _ => true

def DrainsAlone (state : QueueState) (label : QueueLabel) : Prop := drainsAlone state label = true

instance (state : QueueState) (label : QueueLabel) : Decidable (DrainsAlone state label) :=
  inferInstanceAs (Decidable (_ = true))

section

variable {log : List QueueEvent} {id : Nat}

theorem starts_append (log events : List QueueEvent) (id : Nat) :
    starts (log ++ events) id = starts log id + starts events id :=
  List.count_append

theorem requeues_append (log events : List QueueEvent) (id : Nat) :
    requeues (log ++ events) id = requeues log id + requeues events id := List.count_append

/-- A row counts the same under a history that agrees about it. -/
theorem Counted.congr {before after : List QueueEvent} {row : QueueRow} (counted : Counted before row)
    (sameStarts : starts after row.id = starts before row.id)
    (sameRequeues : requeues after row.id = requeues before row.id) : Counted after row := by
  unfold Counted at counted ⊢
  rwa [sameStarts, sameRequeues]

end

theorem nextQueued_selected {queue : Table QueueRow} {entry : QueueRow} (next : nextQueued queue = some entry)
    (idle : queue.rows.any (·.status = .started) = false) : Selected queue entry.id := by
  unfold nextQueued at next
  obtain ⟨rest, sorted⟩ : ∃ rest,
      (queue.rows.filter (·.status = .queued)).insertionSort (·.id ≤ ·.id) = entry :: rest := by
    cases list : (queue.rows.filter (·.status = .queued)).insertionSort (·.id ≤ ·.id) with
    | nil => rw [list] at next; contradiction
    | cons first rest =>
      rw [list] at next
      exact ⟨rest, by rw [Option.some.inj next]⟩
  have members : ∀ row, row ∈ entry :: rest ↔ row ∈ queue.rows ∧ row.status = .queued := by
    intro row
    rw [← sorted, (List.perm_insertionSort _ _).mem_iff]
    simp
  have entryMember := (members entry).mp List.mem_cons_self
  refine ⟨fun row member started => ?_, ⟨entry, Table.get_of_mem entryMember.1, entryMember.2⟩,
    fun row member queued => ?_⟩
  · have busy : queue.rows.any (·.status = .started) = true :=
      List.any_eq_true.mpr ⟨row, member, decide_eq_true started⟩
    rw [idle] at busy
    contradiction
  · have ordered : (entry :: rest).Pairwise (·.id ≤ ·.id) := by
      rw [← sorted]
      exact List.pairwise_insertionSort _ _
    cases List.mem_cons.mp ((members row).mpr ⟨member, queued⟩) with
    | inl same => exact same ▸ le_refl _
    | inr later => exact (List.pairwise_cons.mp ordered).1 row later

namespace Selected

variable {queue after : Table QueueRow} {id : Nat}

theorem settle (selected : Selected queue id) (world : World) : Selected (settleStartedBuilds world queue) id where
  idle := fun row member => selected.idle row (List.mem_of_mem_filter member)
  queued := by
    obtain ⟨row, found, queued⟩ := selected.queued
    refine ⟨row, ?_, queued⟩
    unfold settleStartedBuilds
    rw [Table.get_filter, found]
    simp [QueueRow.finished, queued]
  first := fun row member => selected.first row (List.mem_of_mem_filter member)

/-- Without a started row nothing is orphaned. -/
theorem requeue (selected : Selected queue id) (world : World) (now graceMs : Int) :
    ∀ row ∈ queue.rows, row.orphaned world now graceMs = false := by
  intro row member
  have idle := selected.idle row member
  simp [QueueRow.orphaned, idle]

theorem put (selected : Selected queue id) {row : QueueRow} (notStarted : row.status ≠ .started)
    (other : row.id ≠ id) (later : row.status = .queued → id ≤ row.id) : Selected (queue.put row) id where
  idle := Table.all_put selected.idle notStarted
  queued := by
    obtain ⟨stored, found, queued⟩ := selected.queued
    exact ⟨stored, (Table.get_put_other _ (Ne.symm other)).trans found, queued⟩
  first := Table.all_put selected.first later

end Selected

namespace QueueInv

variable {state : QueueState}

theorem initial : QueueInv .initial where
  fresh := fun _ member =>
    absurd member (by simp [QueueState.initial, EmptyCollection.emptyCollection, Table.empty])
  silent := fun _ _ => ⟨rfl, rfl⟩
  counted := fun _ member =>
    absurd member (by simp [QueueState.initial, EmptyCollection.emptyCollection, Table.empty])
  bounded := fun _ => ⟨Nat.zero_le _, Nat.zero_le _⟩
  single := fun _ member =>
    absurd member (by simp [QueueState.initial, EmptyCollection.emptyCollection, Table.empty])
  selected := fun _ member =>
    absurd member (by simp [QueueState.initial, EmptyCollection.emptyCollection, Table.empty])
  cancelled := fun _ member => absurd member (by simp [QueueState.initial])
  handed := .nil

variable {token : Nat} {drains : Table Drain} {draining : Bool}

/-- The drains may change to fewer, or to one that has selected its entry. -/
theorem withDrains (inv : QueueInv state)
    (single : ∀ drain ∈ drains.rows, ∀ other ∈ drains.rows, drain = other)
    (selected : ∀ drain ∈ drains.rows, Selected state.queue drain.entry.id) :
    QueueInv { state with drains, draining, token } :=
  { inv with single, selected }

theorem leave (inv : QueueInv state) (token : Nat) : QueueInv (state.leave token) :=
  inv.withDrains
    (fun drain member other stored =>
      inv.single drain (List.mem_of_mem_filter member) other (List.mem_of_mem_filter stored))
    fun drain member => inv.selected drain (List.mem_of_mem_filter member)

theorem settle (inv : QueueInv state) (world : World) :
    QueueInv { state with queue := settleStartedBuilds world state.queue } :=
  { inv with
    fresh := fun row member => inv.fresh row (List.mem_of_mem_filter member)
    counted := fun row member => inv.counted row (List.mem_of_mem_filter member)
    selected := fun drain member => (inv.selected drain member).settle world
    cancelled := by
      intro id event
      obtain ⟨row, found, cancelled⟩ := inv.cancelled id event
      refine ⟨row, ?_, cancelled⟩
      unfold settleStartedBuilds
      rw [Table.get_filter, found]
      simp [QueueRow.finished, cancelled] }

/-- A stored row is rewritten, with events about it alone. -/
theorem rewrite (inv : QueueInv state) {old row : QueueRow} {events : List QueueEvent}
    (found : state.queue.get row.id = some old)
    (stands : old.status = .cancelled → row.status = .cancelled)
    (quiet : ∀ id, id ≠ row.id → starts events id = 0 ∧ requeues events id = 0)
    (counted : Counted (state.log ++ events) row)
    (bounded : starts (state.log ++ events) row.id ≤ 1 + requeues (state.log ++ events) row.id ∧
      requeues (state.log ++ events) row.id ≤ 1)
    (cancels : ∀ id, .cancelled id ∈ events → id = row.id ∧ row.status = .cancelled)
    (single : ∀ drain ∈ drains.rows, ∀ other ∈ drains.rows, drain = other)
    (selected : ∀ drain ∈ drains.rows, Selected (state.queue.put row) drain.entry.id)
    (handed : Obeys HandedUncancelled (state.log ++ events)) :
    QueueInv { state with queue := state.queue.put row, drains, draining, log := state.log ++ events } where
  fresh := Table.all_put inv.fresh (inv.fresh old (Table.get_mem found) |> (Table.get_key found ▸ ·))
  silent := by
    intro id later
    have later : state.next ≤ id := later
    have below : row.id < state.next := (Table.get_key found) ▸ inv.fresh old (Table.get_mem found)
    have other : id ≠ row.id := by omega
    rw [starts_append, requeues_append, (quiet id other).1, (quiet id other).2]
    exact inv.silent id later
  counted := by
    intro other member
    cases Table.mem_put.mp member with
    | inl same => exact same ▸ counted
    | inr kept =>
      refine (inv.counted other kept.1).congr ?_ ?_
      · rw [starts_append, (quiet other.id kept.2).1, Nat.add_zero]
      · rw [requeues_append, (quiet other.id kept.2).2, Nat.add_zero]
  bounded := by
    intro id
    by_cases same : id = row.id
    · exact same ▸ bounded
    · rw [starts_append, requeues_append, (quiet id same).1, (quiet id same).2]
      exact inv.bounded id
  single := single
  selected := selected
  cancelled := by
    intro id event
    by_cases same : id = row.id
    · refine ⟨row, same ▸ Table.get_put_self _ _, ?_⟩
      cases List.mem_append.mp event with
      | inr new => exact (cancels id new).2
      | inl logged =>
        obtain ⟨stored, is, cancelled⟩ := inv.cancelled id logged
        rw [same, found] at is
        cases is
        exact stands cancelled
    · have logged : .cancelled id ∈ state.log :=
        (List.mem_append.mp event).resolve_right fun new => same (cancels id new).1
      obtain ⟨stored, is, cancelled⟩ := inv.cancelled id logged
      exact ⟨stored, (Table.get_put_other _ same).trans is, cancelled⟩
  handed := handed

theorem enqueue (inv : QueueInv state) (instruction buildMode : String) (label initiatedBy : Option String)
    (origin : String) (now : Int) :
    QueueInv (enqueueBuild state instruction buildMode label initiatedBy origin now) where
  fresh := by
    refine Table.all_put (fun row member => ?_) (Nat.lt_succ_self _)
    have below := inv.fresh row member
    show row.id < state.next + 1
    omega
  silent := fun id later => inv.silent id (by
    have later : state.next + 1 ≤ id := later
    omega)
  counted := by
    refine Table.all_put inv.counted ?_
    obtain ⟨noStart, noRequeue⟩ := inv.silent state.next le_rfl
    exact ⟨noStart.trans noRequeue.symm, noRequeue⟩
  bounded := inv.bounded
  single := inv.single
  selected := by
    intro drain member
    have selected := inv.selected drain member
    obtain ⟨row, found, _⟩ := selected.queued
    have below : drain.entry.id < state.next := (Table.get_key found) ▸ inv.fresh row (Table.get_mem found)
    refine selected.put (by simp) (fun same => ?_) fun _ => ?_
    · have same : state.next = drain.entry.id := same
      omega
    · show drain.entry.id ≤ state.next
      omega
  cancelled := by
    intro id event
    obtain ⟨row, found, cancelled⟩ := inv.cancelled id event
    refine ⟨row, (Table.get_put_other _ fun same => ?_).trans found, cancelled⟩
    have below : id < state.next := (Table.get_key found) ▸ inv.fresh row (Table.get_mem found)
    have same : id = state.next := same
    omega
  handed := inv.handed

theorem cancel (inv : QueueInv state) {id : Nat} (unselected : ∀ drain ∈ state.drains.rows, drain.entry.id ≠ id)
    (now : Int) : QueueInv (cancelQueuedBuild state id now) := by
  unfold cancelQueuedBuild
  cases found : state.queue.get id with
  | none => exact inv
  | some row =>
    have named : row.id = id := Table.get_key found
    by_cases queued : row.status = .queued
    · simp only [if_pos queued]
      have stored :
          state.queue.get ({ row with status := .cancelled, updatedAt := now } : QueueRow).id = some row :=
        named ▸ found
      refine inv.rewrite stored (fun _ => rfl) (fun _ _ => ⟨rfl, rfl⟩) trivial ?_
        (fun other event => ?_) inv.single (fun drain member => ?_)
        (inv.handed.snoc fun entry same => by contradiction)
      · rw [starts_append, requeues_append]
        exact inv.bounded row.id
      · rw [List.mem_singleton] at event
        exact ⟨(QueueEvent.cancelled.inj event).trans named.symm, rfl⟩
      · refine (inv.selected drain member).put (by simp) (fun same => unselected drain member ?_) (by simp)
        exact same.symm.trans named
    · simp only [if_neg queued]
      exact inv

theorem mem_requeuedIds (world : World) (now graceMs : Int) {queue : Table QueueRow} {row : QueueRow}
    (member : row ∈ queue.rows) :
    row.id ∈ requeuedIds world now graceMs queue ↔
      row.orphaned world now graceMs = true ∧ row.error ≠ some ORPHAN_REQUEUED_MARKER := by
  unfold requeuedIds
  simp only [List.mem_map, List.mem_filter, Bool.and_eq_true, decide_eq_true_eq]
  constructor
  · rintro ⟨other, ⟨stored, orphaned⟩, same⟩
    exact Table.key_injective stored member same ▸ orphaned
  · exact fun orphaned => ⟨row, ⟨member, orphaned⟩, rfl⟩

theorem requeuedIds_count (world : World) (now graceMs : Int) (queue : Table QueueRow) (id : Nat) :
    requeues ((requeuedIds world now graceMs queue).map QueueEvent.requeued) id =
      if id ∈ requeuedIds world now graceMs queue then 1 else 0 := by
  have distinct : (requeuedIds world now graceMs queue).Nodup :=
    queue.distinct.sublist (List.filter_sublist.map _)
  unfold requeues
  rw [List.count_map_of_injective _ _ fun _ _ same => QueueEvent.requeued.inj same]
  by_cases member : id ∈ requeuedIds world now graceMs queue
  · rw [if_pos member, List.count_eq_one_of_mem distinct member]
  · rw [if_neg member, List.count_eq_zero_of_not_mem member]

theorem requeuedIds_starts (world : World) (now graceMs : Int) (queue : Table QueueRow) (id : Nat) :
    starts ((requeuedIds world now graceMs queue).map QueueEvent.requeued) id = 0 := by
  unfold starts
  exact List.count_eq_zero_of_not_mem (by simp)

theorem requeueSettled (inv : QueueInv state) (world : World) (now graceMs : Int) :
    QueueInv { state with
      queue := state.queue.map (QueueRow.requeue world now graceMs) (QueueRow.requeue_id world now graceMs),
      log := state.log ++ (requeuedIds world now graceMs state.queue).map QueueEvent.requeued } where
  fresh := Table.all_map (QueueRow.requeue world now graceMs) (QueueRow.requeue_id world now
    graceMs) fun row member => (QueueRow.requeue_id world now graceMs row) ▸ inv.fresh row member
  silent := by
    intro id later
    have later : state.next ≤ id := later
    have absent : id ∉ requeuedIds world now graceMs state.queue := by
      intro member
      obtain ⟨row, stored, rfl⟩ := List.mem_map.mp member
      have below := inv.fresh row (List.mem_of_mem_filter stored)
      omega
    rw [starts_append, requeues_append, requeuedIds_starts, requeuedIds_count, if_neg absent]
    exact inv.silent id later
  counted := by
    refine Table.all_map (QueueRow.requeue world now graceMs)
      (QueueRow.requeue_id world now graceMs) fun row member => ?_
    have counted := inv.counted row member
    have listed := mem_requeuedIds world now graceMs member
    unfold QueueRow.requeue
    by_cases orphaned : row.orphaned world now graceMs = true
    · rw [if_pos orphaned]
      by_cases marker : row.error = some ORPHAN_REQUEUED_MARKER
      · rw [if_pos marker]
        trivial
      · rw [if_neg marker]
        have started : row.status = .started := by
          unfold QueueRow.orphaned at orphaned
          simp at orphaned
          exact orphaned.1.1
        unfold Counted at counted ⊢
        rw [started] at counted
        obtain ⟨once, unmarked⟩ := counted
        have noMark : marked row = 0 := by simp [marked, marker]
        simp only [starts_append, requeues_append, requeuedIds_starts, requeuedIds_count,
          if_pos (listed.mpr ⟨orphaned, marker⟩)]
        refine ⟨?_, ?_⟩
        · omega
        · rw [unmarked, noMark]
          rfl
    · rw [if_neg orphaned]
      have absent : row.id ∉ requeuedIds world now graceMs state.queue :=
        fun member => orphaned (listed.mp member).1
      refine counted.congr ?_ ?_
      · rw [starts_append, requeuedIds_starts, Nat.add_zero]
      · rw [requeues_append, requeuedIds_count, if_neg absent, Nat.add_zero]
  bounded := by
    intro id
    have before := inv.bounded id
    rw [starts_append, requeues_append, requeuedIds_starts, requeuedIds_count]
    by_cases member : id ∈ requeuedIds world now graceMs state.queue
    · rw [if_pos member]
      obtain ⟨row, kept, rfl⟩ := List.mem_map.mp member
      have stored := List.mem_of_mem_filter kept
      obtain ⟨orphaned, marker⟩ := (mem_requeuedIds world now graceMs stored).mp member
      have counted := inv.counted row stored
      have started : row.status = .started := by
        unfold QueueRow.orphaned at orphaned
        simp at orphaned
        exact orphaned.1.1
      unfold Counted at counted
      rw [started] at counted
      have noMark : marked row = 0 := by simp [marked, marker]
      obtain ⟨once, unmarked⟩ := counted
      omega
    · rw [if_neg member]
      omega
  single := inv.single
  selected := by
    intro drain member
    have selected := inv.selected drain member
    have same : ∀ row ∈ state.queue.rows, row.requeue world now graceMs = row := fun row stored => by
      unfold QueueRow.requeue
      rw [selected.requeue world now graceMs row stored]
      rfl
    obtain ⟨row, found, queued⟩ := selected.queued
    refine ⟨?_, ⟨row, ?_, queued⟩, ?_⟩
    · refine Table.all_map (QueueRow.requeue world now graceMs) (QueueRow.requeue_id world now graceMs)
        fun row stored => ?_
      rw [same row stored]
      exact selected.idle row stored
    · rw [Table.get_map, found, Option.map_some, same row (Table.get_mem found)]
    · refine Table.all_map (QueueRow.requeue world now graceMs) (QueueRow.requeue_id world now graceMs)
        fun row stored => ?_
      rw [same row stored]
      exact selected.first row stored
  cancelled := by
    intro id event
    have logged : .cancelled id ∈ state.log := (List.mem_append.mp event).resolve_right (by simp)
    obtain ⟨row, found, cancelled⟩ := inv.cancelled id logged
    refine ⟨row, ?_, cancelled⟩
    rw [Table.get_map, found]
    simp [QueueRow.requeue, QueueRow.orphaned, cancelled]
  handed := inv.handed.append fun event member before entry same => by
    obtain ⟨id, _, rfl⟩ := List.mem_map.mp member
    contradiction

theorem drain (inv : QueueInv state) (world : World) (alone : state.draining = true ∨ state.drains.rows = []) :
    QueueInv (drainBuildQueue state world) := by
  unfold drainBuildQueue
  by_cases draining : state.draining = true
  · rw [if_pos draining]
    exact inv
  · rw [if_neg draining]
    have settled := inv.settle world
    have none := alone.resolve_left draining
    dsimp only
    split
    · exact settled
    case isFalse idle =>
        cases next : nextQueued (settleStartedBuilds world state.queue) with
        | none => exact settled
        | some entry =>
          dsimp only
          split
          · have only : ∀ drain ∈ (state.drains.put ⟨state.token, entry, .importing⟩).rows,
                drain = ⟨state.token, entry, .importing⟩ := by
              refine Table.all_put (fun drain member => ?_) rfl
              rw [none] at member
              contradiction
            have selected := nextQueued_selected next (Bool.not_eq_true _ ▸ idle)
            exact settled.withDrains (fun drain member other stored =>
              (only drain member).trans (only other stored).symm)
              fun drain member => only drain member ▸ selected
          · exact settled

theorem at_mem {stage : DrainStage} {drain : Drain} (stands : state.at_ token stage = some drain) :
    drain ∈ state.drains.rows ∧ drain.token = token := by
  obtain ⟨found, _⟩ := Option.filter_eq_some_iff.mp stands
  exact ⟨Table.get_mem found, Table.get_key found⟩

theorem importedStep (inv : QueueInv state) {drain : Drain} (stands : state.at_ token .importing = some drain) :
    QueueInv { state with
      drains := state.drains.put { drain with stage := .starting }, log :=
        state.log ++ [.handed drain.entry] } := by
  obtain ⟨member, _⟩ := at_mem stands
  have only : ∀ other ∈ (state.drains.put { drain with stage := .starting }).rows,
      other = { drain with stage := .starting } := by
    intro other stored
    refine (Table.mem_put.mp stored).resolve_right fun kept => kept.2 ?_
    rw [inv.single other kept.1 drain member]
    rfl
  have selected := inv.selected drain member
  have same (id : Nat) : starts (state.log ++ [.handed drain.entry]) id = starts state.log id ∧
      requeues (state.log ++ [.handed drain.entry]) id = requeues state.log id := by
    rw [starts_append, requeues_append]
    exact ⟨rfl, rfl⟩
  exact
    { fresh := inv.fresh
      silent := fun id later => by rw [(same id).1, (same id).2]; exact inv.silent id later
      counted := fun row stored => (inv.counted row stored).congr (same row.id).1 (same row.id).2
      bounded := fun id => by rw [(same id).1, (same id).2]; exact inv.bounded id
      single := fun first stored second stored' => (only first stored).trans (only second stored').symm
      selected := fun other stored => by rw [only other stored]; exact selected
      cancelled := fun id event =>
        inv.cancelled id ((List.mem_append.mp event).resolve_right (by simp))
      handed := inv.handed.snoc fun entry is logged => by
        cases is
        obtain ⟨row, found, cancelled⟩ := inv.cancelled drain.entry.id logged
        obtain ⟨stored, found', queued⟩ := selected.queued
        rw [found] at found'
        cases found'
        rw [cancelled] at queued
        contradiction }

/-- The only drain is gone once it has left. -/
theorem leave_empty (inv : QueueInv state) {drain : Drain} (member : drain ∈ state.drains.rows) :
    (state.leave drain.token).drains.rows = [] := by
  refine List.filter_eq_nil_iff.mpr fun other stored => ?_
  rw [inv.single other stored drain member]
  simp [Keyed.key]

theorem answeredStep (inv : QueueInv state) {drain : Drain} (stands : state.at_ token .starting = some drain)
    (answer : StartAnswer) (world : World) (now : Int) : QueueInv (answered state drain answer world now) := by
  obtain ⟨member, _⟩ := at_mem stands
  obtain ⟨row, found, queued⟩ := (inv.selected drain member).queued
  have named : row.id = drain.entry.id := Table.get_key found
  have empty := inv.leave_empty member
  have none (other : Drain) : other ∉ (state.leave drain.token).drains.rows := by simp [empty]
  have counted := inv.counted row (Table.get_mem found)
  unfold Counted at counted
  rw [queued] at counted
  have bound := inv.bounded row.id
  cases answer with
  | thrown => exact inv.leave drain.token
  | started requestId =>
    unfold answered markQueueRow
    rw [found]
    have stored : state.queue.get ({ row with status := .started, requestId, updatedAt := now } : QueueRow).id =
        some row := named ▸ found
    have once : starts (state.log ++ [.started drain.entry.id]) row.id = starts state.log row.id + 1 := by
      rw [starts_append, named]
      simp [starts]
    have same : requeues (state.log ++ [.started drain.entry.id]) row.id = requeues state.log row.id := by
      rw [requeues_append]
      rfl
    refine inv.rewrite stored (fun cancelled => ?_) (fun id other => ⟨?_, rfl⟩) ?_ ?_ (fun id event => ?_)
      (fun other member => (none other member).elim) (fun other member => (none other member).elim)
      (inv.handed.snoc fun entry is => by contradiction)
    · rw [queued] at cancelled
      contradiction
    · exact List.count_eq_zero_of_not_mem fun inside =>
        other ((QueueEvent.started.inj (List.mem_singleton.mp inside)).trans named.symm)
    · show starts _ row.id = 1 + requeues _ row.id ∧ requeues _ row.id = marked row
      rw [once, same]
      omega
    · show starts _ row.id ≤ 1 + requeues _ row.id ∧ requeues _ row.id ≤ 1
      rw [once, same]
      omega
    · rw [List.mem_singleton] at event
      contradiction
  | refused error =>
    unfold answered
    dsimp only
    generalize reason :
      (some (String.ofList (sliceUnits 500 (if error = "" then "build did not start" else error).toList))) =
      shown
    have failed : (markQueueRow state.queue drain.entry.id fun row =>
        { row with status := .failed, error := shown, updatedAt := now }) =
        state.queue.put { row with status := .failed, error := shown, updatedAt := now } := by
      unfold markQueueRow
      rw [found]
    have stored : state.queue.get ({ row with status := .failed, error := shown, updatedAt := now } : QueueRow).id =
        some row := named ▸ found
    have rewritten : QueueInv { state.leave drain.token with
        queue := state.queue.put { row with status := .failed, error := shown, updatedAt := now },
        log := state.log ++ [] } :=
      (inv.leave drain.token).rewrite stored
        (fun cancelled => by rw [queued] at cancelled; contradiction) (fun _ _ => ⟨rfl, rfl⟩)
      trivial (by rw [List.append_nil]; exact bound) (by simp) (fun other member => (none other member).elim)
      (fun other member => (none other member).elim) (by rw [List.append_nil]; exact inv.handed)
    rw [List.append_nil] at rewritten
    split
    · exact inv.leave drain.token
    · rw [failed]
      refine (rewritten.drain world (.inr empty)).withDrains ?_ ?_
      · exact (rewritten.drain world (.inr empty)).single
      · exact (rewritten.drain world (.inr empty)).selected

theorem step {label : QueueLabel} {after : QueueState} (inv : QueueInv state) (alone : DrainsAlone state label)
    (moved : queueStep state label = some after) : QueueInv after := by
  unfold DrainsAlone drainsAlone at alone
  cases label with
  | enqueue instruction buildMode label initiatedBy origin now =>
    cases moved
    exact inv.enqueue instruction buildMode label initiatedBy origin now
  | cancel id now =>
    cases moved
    refine inv.cancel (fun drain member => ?_) now
    simpa using List.all_eq_true.mp alone drain member
  | settle world =>
    cases moved
    exact inv.settle world
  | requeueOrphaned world now graceMs =>
    cases moved
    exact (inv.settle world).requeueSettled world now graceMs
  | drain world =>
    cases moved
    refine inv.drain world ?_
    simpa using alone
  | imported token =>
    obtain ⟨drain, stands, rfl⟩ := Option.map_eq_some_iff.mp moved
    exact inv.importedStep stands
  | importFailed token =>
    obtain ⟨drain, _, rfl⟩ := Option.map_eq_some_iff.mp moved
    exact inv.leave token
  | answered token answer world now =>
    obtain ⟨drain, stands, rfl⟩ := Option.map_eq_some_iff.mp moved
    exact inv.answeredStep stands answer world now
  | crash =>
    cases moved
    exact inv.withDrains (fun _ member => absurd member List.not_mem_nil) fun _ member =>
      absurd member List.not_mem_nil

end QueueInv

/-- Where no drain overlaps another and nobody cancels a selected entry: an entry
starts once, and once more after it was requeued; a drain hands over the first
queued entry while nothing else is pending or started; and a cancelled entry is
not handed over and stays cancelled. -/
theorem queue_hands_over_once {labels : List QueueLabel} {state : QueueState}
    (along : buildQueue.Along DrainsAlone .initial labels) (ran : buildQueue.exec .initial labels = some state) :
    (∀ id, starts state.log id ≤ 1 + requeues state.log id ∧ requeues state.log id ≤ 1) ∧
    (∀ token after, queueStep state (.imported token) = some after →
      ∃ drain row, after.log = state.log ++ [.handed drain.entry] ∧ (∀ other ∈ state.drains.rows, other = drain) ∧
        (∀ other ∈ state.queue.rows, other.status ≠ .started) ∧ state.queue.get drain.entry.id = some row ∧
        row.status = .queued ∧ ∀ other ∈ state.queue.rows, other.status = .queued → row.id ≤ other.id) ∧
    (∀ before id after, state.log = before ++ .cancelled id :: after →
      ∀ entry, .handed entry ∈ after → entry.id ≠ id) ∧
    ∀ id, .cancelled id ∈ state.log → ∃ row, state.queue.get id = some row ∧ row.status = .cancelled := by
  have inv : QueueInv state := buildQueue.exec_preserves_along DrainsAlone QueueInv
    (fun inv alone moved => inv.step alone moved) along .initial ran
  refine ⟨inv.bounded, fun token after moved => ?_, fun before id after split entry handed same =>
    ?_, inv.cancelled⟩
  · obtain ⟨drain, stands, rfl⟩ := Option.map_eq_some_iff.mp moved
    obtain ⟨member, _⟩ := QueueInv.at_mem stands
    have selected := inv.selected drain member
    obtain ⟨row, found, queued⟩ := selected.queued
    refine ⟨drain, row, rfl, fun other stored => inv.single other stored drain member,
      selected.idle, found, queued, ?_⟩
    rw [show row.id = drain.entry.id from Table.get_key found]
    exact selected.first
  · obtain ⟨first, last, rfl⟩ := List.append_of_mem handed
    have earlier : .cancelled entry.id ∈ before ++ .cancelled id :: first := by simp [same]
    exact inv.handed (before ++ .cancelled id :: first) (.handed entry) last (by simpa using split)
      entry rfl earlier

/-- Every project is online and no build has ended. -/
def quietWorld : World := ⟨fun _ => none, fun _ => none, fun _ => false, some "active"⟩

/-- An entry is cancelled while `startBuild` is awaited. -/
def cancelledWhileStarting : List QueueLabel :=
  [.enqueue "add a page" "quick" none none "operator" 0, .drain quietWorld, .imported 0, .cancel 1 1,
    .answered 0 (.started (some 7)) quietWorld 2]

/-- An entry is cancelled while the builder is imported. -/
def cancelledWhileImporting : List QueueLabel :=
  [.enqueue "add a page" "quick" none none "operator" 0, .drain quietWorld, .cancel 1 1, .imported 0]

/-- A start fails, the drain goes on with the next entry, and another drain begins. -/
def overlappingDrains : List QueueLabel :=
  [.enqueue "add a page" "quick" none none "operator" 0, .enqueue "add a form" "quick" none none "operator" 0,
    .drain quietWorld, .imported 0, .answered 0 (.refused "no confirmed rules") quietWorld 1, .drain quietWorld,
    .imported 1, .imported 2, .answered 1 (.started (some 7)) quietWorld 2,
      .answered 2 (.started (some 8)) quietWorld 2]

/-- A cancelled entry is started, one is handed over after its cancel, and one that
was never requeued starts twice. -/
theorem queue_starts_cancelled :
    (∃ state, buildQueue.exec .initial cancelledWhileStarting = some state ∧ .cancelled 1 ∈ state.log ∧
      (state.queue.get 1).map QueueRow.status = some .started) ∧
    (∃ state before entry, buildQueue.exec .initial cancelledWhileImporting = some state ∧
      state.log = before ++ [.cancelled 1, .handed entry] ∧ entry.id = 1) ∧
    ∃ state, buildQueue.exec .initial overlappingDrains = some state ∧ starts state.log 2 = 2 ∧
      requeues state.log 2 = 0 := by
  refine ⟨⟨_, rfl, ?_, ?_⟩, ⟨_, [], _, rfl, rfl, rfl⟩, _, rfl, ?_, ?_⟩
  · decide
  · rfl
  · decide
  · decide

/-- A build is started, lost and requeued, and starts again. -/
def requeuedBuild : List QueueLabel :=
  [.enqueue "add a page" "quick" none none "operator" 0, .drain quietWorld, .imported 0,
    .answered 0 (.started none) quietWorld 1, .requeueOrphaned quietWorld 10 5, .drain quietWorld, .imported 1,
    .answered 1 (.started none) quietWorld 11]

theorem queue_hands_over_once_requeuedBuild :
    ∃ state, buildQueue.exec .initial requeuedBuild = some state ∧ starts state.log 1 = 2 ∧
      starts state.log 1 ≤ 1 + requeues state.log 1 ∧ requeues state.log 1 ≤ 1 := by
  have along : buildQueue.Along DrainsAlone .initial requeuedBuild := by decide
  exact ⟨_, rfl, by decide, (queue_hands_over_once along rfl).1 1⟩

end ProxyPilot.Mock2
