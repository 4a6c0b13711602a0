import ProxyPilot.Data.Ranges
import ProxyPilot.Data.Stable

namespace ProxyPilot.Routes

open Data

/-! # Reserved UDP ports (`l4-reserved-ports.js`, `config-logic.js`)

The reconciler and the setup engine both write the ports that the kernel keeps out of its
ephemeral pool.
-/

/-- A row of `service_l4_forwards`. -/
structure ForwardRow where
  proto : String
  listenPort : Nat
  listenPortEnd : Option Nat
  enabled : Option Nat

/-- `listen_port_end`, where it counts as true. -/
def ForwardRow.truthyEnd (row : ForwardRow) : Option Nat := row.listenPortEnd.filter (· ≠ 0)

/-- The range that a row adds to the reserved ones. -/
def ForwardRow.reserved (row : ForwardRow) : Option Range :=
  if row.enabled = some 0 then none
  else if row.proto ≠ "udp" then none
  else match row.truthyEnd with
    | none => none
    | some last => if last = row.listenPort then none else some ⟨row.listenPort, last⟩

/-- The ranges that `buildReservedPortsValue` lists. -/
def mergedRanges (rows : List ForwardRow) : List Range :=
  Range.coalesceAll ((rows.filterMap ForwardRow.reserved).mergeSort fun range other => range.first ≤ other.first)

def rangeText (range : Range) : String := toString range.first ++ "-" ++ toString range.last

def listText (ranges : List Range) : String := ",".intercalate (ranges.map rangeText)

def buildReservedPortsValue (rows : List ForwardRow) : String := listText (mergedRanges rows)

def RESERVED_PORTS_HEADER : String := "\n".intercalate [
  "# Managed by ProxyPilot. Do not edit.",
  "#",
  "# Reserves the listen ranges of every UDP L4 forward in",
  "# service_l4_forwards so the kernel refuses to assign ephemeral",
  "# ports inside them. Without this, an ephemeral allocation made",
  "# during early boot can collide with a port inside the range and",
  "# block Incus from binding the proxy device for the whole range —",
  "# WebRTC media goes dark and only a manual re-reconcile recovers.",
  ""]

def reservedPortsBody (value : String) : String :=
  if value = "" then "" else RESERVED_PORTS_HEADER ++ "net.ipv4.ip_local_reserved_ports = " ++ value ++ "\n"

/-- What is written: the kernel value and the body of the drop-in. -/
structure ReservedPlan where
  value : String
  body : String

/-- `WHERE enabled = 1` -/
def enabledForwards (table : List ForwardRow) : List ForwardRow := table.filter fun row => row.enabled = some 1

/-- What `reconcileReservedPorts` computes from the table. -/
def reconcileReservedPorts (table : List ForwardRow) : ReservedPlan :=
  let value := buildReservedPortsValue (enabledForwards table)
  ⟨value, reservedPortsBody value⟩

def reservedRangesFromRows (rows : List ForwardRow) : List (Nat × Nat) :=
  rows.filterMap fun row =>
    if row.enabled = some 0 ∨ row.proto ≠ "udp" then none
    else match row.truthyEnd with
      | none => none
      | some last => if row.listenPort < last then some (row.listenPort, last) else none

def reservedPlan (reserved : List (Nat × Nat)) : ReservedPlan :=
  let value := buildReservedPortsValue (reserved.map fun range => ⟨"udp", range.1, some range.2, some 1⟩)
  ⟨value, reservedPortsBody value⟩

/-- `store.reservedRanges` -/
def reservedRanges (table : List ForwardRow) : List (Nat × Nat) := reservedRangesFromRows (enabledForwards table)

/-- A range does not end before it starts. -/
def ForwardRow.Ordered (row : ForwardRow) : Prop := ∀ last, row.listenPortEnd = some last → row.listenPort ≤ last

/-- An enabled UDP row with a range of ports, and one of them. -/
def ForwardRow.Reserves (row : ForwardRow) (port : Nat) : Prop :=
  row.enabled ≠ some 0 ∧ row.proto = "udp" ∧ ∃ last, row.listenPortEnd = some last ∧
    row.listenPort < last ∧ row.listenPort ≤ port ∧ port ≤ last

section Rows

variable {row : ForwardRow} {rows others : List ForwardRow} {range : Range}

theorem truthyEnd_eq {last : Nat} : row.truthyEnd = some last ↔ row.listenPortEnd = some last ∧ last ≠ 0 := by
  simp [ForwardRow.truthyEnd, Option.filter_eq_some_iff]

theorem reserved_eq (ordered : row.Ordered) : row.reserved = some range ↔
    row.enabled ≠ some 0 ∧ row.proto = "udp" ∧ row.listenPortEnd = some range.last ∧
      row.listenPort = range.first ∧ range.first < range.last := by
  obtain ⟨first, last⟩ := range
  cases ends : row.truthyEnd with
  | none =>
    have absent : ∀ n, row.listenPortEnd = some n → n = 0 := by
      intro n same
      refine Decidable.byContradiction fun some => ?_
      rw [truthyEnd_eq.mpr ⟨same, some⟩] at ends
      cases ends
    simp only [ForwardRow.reserved, ends, ite_self, reduceCtorEq, false_iff]
    rintro ⟨_, _, same, _, less⟩
    have zero := absent last same
    omega
  | some n =>
    obtain ⟨same, positive⟩ := truthyEnd_eq.mp ends
    have le := ordered n same
    simp only [ForwardRow.reserved, ends, same, Option.some.injEq]
    by_cases off : row.enabled = some 0
    · simp [off]
    · by_cases other : row.proto = "udp"
      · by_cases single : n = row.listenPort
        · simp only [off, other, single, ne_eq, not_true_eq_false, if_true, if_false, reduceCtorEq,
            false_iff, not_false_eq_true, true_and]
          omega
        · simp only [off, other, single, ne_eq, not_true_eq_false, if_false, Option.some.injEq,
            Range.mk.injEq, not_false_eq_true, true_and]
          omega
      · simp [off, other]

theorem mem_reserved (ordered : ∀ row ∈ rows, row.Ordered)
    (member : range ∈ rows.filterMap ForwardRow.reserved) : range.first ≤ range.last := by
  obtain ⟨row, inside, reserved⟩ := List.mem_filterMap.mp member
  exact Nat.le_of_lt ((reserved_eq (ordered row inside)).mp reserved).2.2.2.2

theorem covers_reserved (ordered : ∀ row ∈ rows, row.Ordered) (port : Nat) :
    Range.Covers (rows.filterMap ForwardRow.reserved) port ↔ ∃ row ∈ rows, row.Reserves port := by
  constructor
  · rintro ⟨range, member, lower, upper⟩
    obtain ⟨row, inside, reserved⟩ := List.mem_filterMap.mp member
    obtain ⟨on, udp, ends, begins, less⟩ := (reserved_eq (ordered row inside)).mp reserved
    exact ⟨row, inside, on, udp, range.last, ends, by omega, by omega, upper⟩
  · rintro ⟨row, inside, on, udp, last, ends, less, lower, upper⟩
    refine ⟨⟨row.listenPort, last⟩, List.mem_filterMap.mpr ⟨row, inside, ?_⟩, lower, upper⟩
    exact (reserved_eq (ordered row inside)).mpr ⟨on, udp, ends, rfl, less⟩

theorem mergedRanges_tidy (ordered : ∀ row ∈ rows, row.Ordered) :
    Range.Tidy (mergedRanges rows) ∧ ∀ port, Range.Covers (mergedRanges rows) port ↔
      ∃ row ∈ rows, row.Reserves port := by
  have same := List.mergeSort_perm (rows.filterMap ForwardRow.reserved) fun range other => range.first ≤ other.first
  have sorted : ((rows.filterMap ForwardRow.reserved).mergeSort fun range other => range.first ≤
      other.first).Pairwise fun range other => range.first ≤ other.first :=
    sorted_sortBy Range.first _
  obtain ⟨tidy, covers⟩ :=
    Range.coalesceAll_tidy (fun range member => mem_reserved ordered (same.mem_iff.mp member)) sorted
  exact ⟨tidy, fun port => by rw [mergedRanges, covers, Range.covers_perm same, covers_reserved ordered]⟩

/-- Rows that reserve the same ports are listed alike. -/
theorem mergedRanges_congr (ordered : ∀ row ∈ rows, row.Ordered) (ordered' : ∀ row ∈ others, row.Ordered)
    (same : ∀ port, (∃ row ∈ rows, row.Reserves port) ↔ ∃ row ∈ others, row.Reserves port) :
    mergedRanges rows = mergedRanges others := by
  obtain ⟨tidy, covers⟩ := mergedRanges_tidy ordered
  obtain ⟨tidy', covers'⟩ := mergedRanges_tidy ordered'
  exact tidy.unique tidy' fun port => by rw [covers, covers', same]

theorem mem_reservedRangesFromRows {first last : Nat} : (first, last) ∈ reservedRangesFromRows rows ↔
    ∃ row ∈ rows, row.enabled ≠ some 0 ∧ row.proto = "udp" ∧ row.listenPortEnd = some last ∧
      row.listenPort = first ∧ first < last := by
  simp only [reservedRangesFromRows, List.mem_filterMap]
  refine exists_congr fun row => and_congr_right fun _ => ?_
  by_cases skipped : row.enabled = some 0 ∨ row.proto ≠ "udp"
  · simp only [skipped, if_true, reduceCtorEq, false_iff]
    rintro ⟨on, udp, _⟩
    exact skipped.elim on fun other => other udp
  · simp only [skipped, if_false]
    simp only [not_or, ne_eq, Decidable.not_not] at skipped
    cases ends : row.truthyEnd with
    | none =>
      simp only [reduceCtorEq, false_iff]
      rintro ⟨_, _, same, _, less⟩
      rw [truthyEnd_eq.mpr ⟨same, by omega⟩] at ends
      cases ends
    | some n =>
      obtain ⟨same, _⟩ := truthyEnd_eq.mp ends
      simp only [skipped, same, Option.some.injEq, Option.ite_none_right_eq_some, Prod.mk.injEq,
        ne_eq, not_false_eq_true, true_and]
      omega

/-- The setup engine lists what the reconciler lists, in whatever order it reads the rows. -/
theorem reservedPlan_perm (ordered : ∀ row ∈ rows, row.Ordered) (same : rows.Perm others) :
    reservedPlan (reservedRangesFromRows others) =
      ⟨buildReservedPortsValue rows, reservedPortsBody (buildReservedPortsValue rows)⟩ := by
  have equal :
      mergedRanges ((reservedRangesFromRows others).map fun range =>
      ⟨"udp", range.1, some range.2, some 1⟩) = mergedRanges rows := by
    refine mergedRanges_congr ?_ ordered fun port => ?_
    · intro row member
      obtain ⟨⟨first, last⟩, listed, rfl⟩ := List.mem_map.mp member
      obtain ⟨_, _, _, _, _, _, less⟩ := mem_reservedRangesFromRows.mp listed
      intro last' ends
      cases ends
      exact Nat.le_of_lt less
    · constructor
      · rintro ⟨_, member, _, _, last, ends, less, lower, upper⟩
        obtain ⟨⟨first, last'⟩, listed, rfl⟩ := List.mem_map.mp member
        cases ends
        obtain ⟨row, inside, on, udp, ends, rfl, _⟩ := mem_reservedRangesFromRows.mp listed
        exact ⟨row, same.mem_iff.mpr inside, on, udp, _, ends, less, lower, upper⟩
      · rintro ⟨row, inside, on, udp, last, ends, less, lower, upper⟩
        have listed : (row.listenPort, last) ∈ reservedRangesFromRows others :=
          mem_reservedRangesFromRows.mpr ⟨row, same.mem_iff.mp inside, on, udp, ends, rfl, less⟩
        exact ⟨_, List.mem_map.mpr ⟨_, listed, rfl⟩, by simp, rfl, last, rfl, less, lower, upper⟩
  simp only [reservedPlan, buildReservedPortsValue, equal]

end Rows

/-- The reserved ranges stand in order, no two of them touch, and they hold the ports of the
enabled UDP rows with a range; the setup engine and the reconciler write the same bytes. -/
theorem reserved_ports_agree (rows : List ForwardRow)
    (ordered : ∀ row ∈ rows, ∀ last, row.listenPortEnd = some last → row.listenPort ≤ last) :
    (∃ ranges, buildReservedPortsValue rows = listText ranges ∧ (∀ range ∈ ranges, range.first ≤ range.last) ∧
      ranges.Pairwise (fun range other => range.last + 1 < other.first) ∧
      ∀ port, (∃ range ∈ ranges, range.first ≤ port ∧ port ≤ range.last) ↔ ∃ row ∈ rows, row.Reserves port) ∧
    ∀ others, rows.Perm others →
      reservedPlan (reservedRangesFromRows others) =
        ⟨buildReservedPortsValue rows, reservedPortsBody (buildReservedPortsValue rows)⟩ ∧
      reservedPlan (reservedRanges others) = reconcileReservedPorts rows := by
  obtain ⟨tidy, covers⟩ := mergedRanges_tidy ordered
  refine ⟨⟨mergedRanges rows, rfl, tidy.ordered, tidy.apart, covers⟩,
    fun others same => ⟨reservedPlan_perm ordered same, ?_⟩⟩
  exact reservedPlan_perm (fun row member => ordered row ((List.mem_filter.mp member).1)) (same.filter _)

theorem reserved_ports_agree_media :
    reservedPlan (reservedRanges [⟨"udp", 1, some 6, some 1⟩, ⟨"udp", 7, some 9, some 1⟩]) =
    reconcileReservedPorts [⟨"udp", 7, some 9, some 1⟩, ⟨"udp", 1, some 6, some 1⟩] :=
  ((reserved_ports_agree [⟨"udp", 7, some 9, some 1⟩, ⟨"udp", 1, some 6, some 1⟩] (by simp)).2 _
    (List.Perm.swap _ _ _)).2

end ProxyPilot.Routes
