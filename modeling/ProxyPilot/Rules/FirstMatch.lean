import Mathlib.Data.List.Basic
import Mathlib.Data.List.Perm.Basic

namespace ProxyPilot.Rules

/-! # First-match rule lists

A packet filter chain is a list of rules.  A rule either decides a packet or
lets evaluation continue, and the first deciding rule wins.  Rules, packets and
verdicts are arbitrary; a chain assembled from blocks behaves as a chain whose
rules are the blocks.
-/

variable {ρ β π ν : Type*}

/-- The verdict of the first rule that decides the packet. -/
def firstMatch (decides : ρ → π → Option ν) (rules : List ρ) (packet : π) : Option ν :=
  rules.findSome? (decides · packet)

/-- A chain's verdict, with the chain policy for packets no rule decides. -/
def evaluate (decides : ρ → π → Option ν) (policy : ν) (rules : List ρ) (packet : π) : ν :=
  (firstMatch decides rules packet).getD policy

@[simp] theorem firstMatch_nil (decides : ρ → π → Option ν) (packet : π) :
    firstMatch decides [] packet = none := rfl

@[simp] theorem firstMatch_cons (decides : ρ → π → Option ν) (rule : ρ) (rules : List ρ)
    (packet : π) :
    firstMatch decides (rule :: rules) packet =
      (decides rule packet).or (firstMatch decides rules packet) := by
  cases decided : decides rule packet <;> simp [firstMatch, decided]

theorem firstMatch_append (decides : ρ → π → Option ν) (first second : List ρ) (packet : π) :
    firstMatch decides (first ++ second) packet =
      (firstMatch decides first packet).or (firstMatch decides second packet) := by
  induction first with
  | nil => rfl
  | cons rule rest ih => rw [List.cons_append, firstMatch_cons, firstMatch_cons, ih, Option.or_assoc]

/-- A chain of blocks decides as its blocks do, taken as rules of their own. -/
theorem firstMatch_flatMap (decides : ρ → π → Option ν) (block : β → List ρ) (blocks : List β)
    (packet : π) :
    firstMatch decides (blocks.flatMap block) packet =
      firstMatch (fun source => firstMatch decides (block source)) blocks packet := by
  induction blocks with
  | nil => rfl
  | cons source rest ih => rw [List.flatMap_cons, firstMatch_append, firstMatch_cons, ih]

variable {decides : ρ → π → Option ν} {packet : π} {rule : ρ}

theorem firstMatch_cons_silent
    (silent : decides rule packet = none) (rules : List ρ) :
    firstMatch decides (rule :: rules) packet = firstMatch decides rules packet := by
  rw [firstMatch_cons, silent, Option.none_or]

variable {verdict : ν} {rules : List ρ}

theorem firstMatch_cons_decided
    (decided : decides rule packet = some verdict) (rules : List ρ) :
    firstMatch decides (rule :: rules) packet = some verdict := by
  rw [firstMatch_cons, decided, Option.some_or]

/-- A rule that decides a packet can be moved to the front of the chain. -/
theorem exists_perm_firstMatch
    (member : rule ∈ rules)
    (decided : decides rule packet = some verdict) :
    ∃ reordered, reordered.Perm rules ∧ firstMatch decides reordered packet = some verdict := by
  obtain ⟨before, after, rfl⟩ := List.append_of_mem member
  exact ⟨rule :: (before ++ after), List.perm_middle.symm, firstMatch_cons_decided decided _⟩

/-- Two rules that decide one packet differently make the chain's order matter. -/
theorem firstMatch_order_matters {left right : ρ}
    {first second : ν} (leftMember : left ∈ rules) (rightMember : right ∈ rules)
    (leftDecides : decides left packet = some first)
    (rightDecides : decides right packet = some second) (different : first ≠ second) :
    ∃ reordered, reordered.Perm rules ∧
      ∃ verdict, firstMatch decides reordered packet = some verdict ∧
        firstMatch decides rules packet ≠ some verdict := by
  obtain ⟨leftOrder, leftPerm, leftFirst⟩ := exists_perm_firstMatch leftMember leftDecides
  obtain ⟨rightOrder, rightPerm, rightFirst⟩ := exists_perm_firstMatch rightMember rightDecides
  by_cases chosen : firstMatch decides rules packet = some first
  · refine ⟨rightOrder, rightPerm, second, rightFirst, ?_⟩
    rw [chosen]
    exact fun same => different (Option.some.inj same)
  · exact ⟨leftOrder, leftPerm, first, leftFirst, chosen⟩

end ProxyPilot.Rules
