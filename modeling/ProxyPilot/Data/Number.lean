import Mathlib.Algebra.GroupWithZero.Nat

namespace ProxyPilot.Data

/-! # Whole numbers in double precision

A double keeps the leading binary digits of a whole number.  What does not fit is rounded
to the nearest number that does, and to the even one of two that are equally near.
-/

section Rounding

variable {precision m n : Nat}

/-- How many binary digits of `n` stand below its leading `precision` ones. -/
def excess (precision n : Nat) : Nat := n.log2 + 1 - precision

/-- The distance between neighbours of the size of `n`. -/
def spacing (precision n : Nat) : Nat := 2 ^ excess precision n

def roundsUp (quotient remainder spacing : Nat) : Bool :=
  decide (spacing < 2 * remainder) || (2 * remainder == spacing && quotient % 2 == 1)

def nearest (precision n : Nat) : Nat :=
  let distance := spacing precision n
  (n / distance + (roundsUp (n / distance) (n % distance) distance).toNat) * distance

theorem spacing_pos (precision n : Nat) : 0 < spacing precision n := Nat.two_pow_pos _

theorem log2_mono (le : m ≤ n) : m.log2 ≤ n.log2 := by
  by_cases zero : m = 0
  · simp [zero]
  · exact (Nat.le_log2 (by omega)).mpr (Nat.le_trans (Nat.log2_self_le zero) le)

theorem excess_mono (precision : Nat) (le : m ≤ n) : excess precision m ≤ excess precision n := by
  have := log2_mono le
  unfold excess
  omega

theorem lower_le_nearest (precision n : Nat) :
    n / spacing precision n * spacing precision n ≤ nearest precision n :=
  Nat.mul_le_mul_right _ (Nat.le_add_right _ _)

theorem nearest_le_upper (precision n : Nat) :
    nearest precision n ≤ (n / spacing precision n + 1) * spacing precision n := by
  apply Nat.mul_le_mul_right
  have : ∀ b : Bool, b.toNat ≤ 1 := Bool.toNat_le
  exact Nat.add_le_add_left (this _) _

/-- The rounded number does not leave the binary digits of the number. -/
theorem nearest_le_pow (positive : 0 < precision) (n : Nat) : nearest precision n ≤ 2 ^ (n.log2 + 1) := by
  apply Nat.le_trans (nearest_le_upper precision n)
  obtain ⟨rest, split⟩ : ∃ rest, n.log2 + 1 = rest + excess precision n :=
    ⟨n.log2 + 1 - excess precision n, by unfold excess; omega⟩
  have below : n < 2 ^ rest * spacing precision n := by
    rw [spacing, ← Nat.pow_add, ← split]
    exact Nat.lt_log2_self
  rw [split, Nat.pow_add]
  exact Nat.mul_le_mul_right _ ((Nat.div_lt_iff_lt_mul (spacing_pos _ _)).mpr below)

theorem pow_le_nearest (positive : 0 < precision) (some : n ≠ 0) : 2 ^ n.log2 ≤ nearest precision n := by
  apply Nat.le_trans _ (lower_le_nearest precision n)
  obtain ⟨rest, split⟩ : ∃ rest, n.log2 = rest + excess precision n :=
    ⟨n.log2 - excess precision n, by unfold excess; omega⟩
  have above : 2 ^ rest * spacing precision n ≤ n := by
    rw [spacing, ← Nat.pow_add, ← split]
    exact Nat.log2_self_le some
  rw [split, Nat.pow_add]
  exact Nat.mul_le_mul_right _ ((Nat.le_div_iff_mul_le (spacing_pos _ _)).mpr above)

theorem roundsUp_mono {quotient less more distance : Nat} (le : less ≤ more)
    (up : roundsUp quotient less distance = true) :
    roundsUp quotient more distance = true := by
  simp only [roundsUp, Bool.or_eq_true, Bool.and_eq_true, decide_eq_true_eq, beq_iff_eq] at up ⊢
  omega

theorem nearest_mono_same (le : m ≤ n) (same : excess precision m = excess precision n) :
    nearest precision m ≤ nearest precision n := by
  have distances : spacing precision m = spacing precision n := by simp [spacing, same]
  have quotients : m / spacing precision n ≤ n / spacing precision n := Nat.div_le_div_right le
  rcases Nat.lt_or_eq_of_le quotients with less | equal
  · calc nearest precision m
        ≤ (m / spacing precision n + 1) * spacing precision n := distances ▸ nearest_le_upper precision m
      _ ≤ n / spacing precision n * spacing precision n := Nat.mul_le_mul_right _ less
      _ ≤ nearest precision n := lower_le_nearest precision n
  · have remainders : m % spacing precision n ≤ n % spacing precision n := by
      have left := Nat.div_add_mod m (spacing precision n)
      have right := Nat.div_add_mod n (spacing precision n)
      rw [equal] at left
      omega
    simp only [nearest, distances, equal]
    apply Nat.mul_le_mul_right
    apply Nat.add_le_add_left
    cases up : roundsUp (n / spacing precision n) (m % spacing precision n) (spacing precision n) with
    | false => exact Nat.zero_le _
    | true => simp [roundsUp_mono remainders up]

theorem nearest_mono (positive : 0 < precision) (le : m ≤ n) : nearest precision m ≤ nearest precision n := by
  rcases Nat.lt_or_eq_of_le (excess_mono precision le) with less | same
  · -- the larger number has more binary digits
    have longer : m.log2 + 1 ≤ n.log2 := by
      unfold excess at less
      omega
    have some : n ≠ 0 := by
      rintro rfl
      simp at longer
    calc nearest precision m
        ≤ 2 ^ (m.log2 + 1) := nearest_le_pow positive m
      _ ≤ 2 ^ n.log2 := Nat.pow_le_pow_right (by decide) longer
      _ ≤ nearest precision n := pow_le_nearest positive some
  · exact nearest_mono_same le same

theorem nearest_of_dvd (fits : spacing precision n ∣ n) : nearest precision n = n := by
  have exact : n % spacing precision n = 0 := Nat.mod_eq_zero_of_dvd fits
  have apart := spacing_pos precision n
  have stays : roundsUp (n / spacing precision n) 0 (spacing precision n) = false := by
    simp only [roundsUp, Bool.or_eq_false_iff, decide_eq_false_iff_not, Bool.and_eq_false_iff, beq_eq_false_iff_ne]
    omega
  simp only [nearest, exact, stays, Bool.toNat_false, Nat.add_zero]
  exact Nat.div_mul_cancel fits

theorem nearest_of_small (small : n < 2 ^ precision) : nearest precision n = n := by
  apply nearest_of_dvd
  by_cases zero : n = 0
  · simp [zero]
  · have within := (Nat.log2_lt zero).mpr small
    have none : excess precision n = 0 := by
      unfold excess
      omega
    simp [spacing, none]

theorem spacing_dvd_nearest (positive : 0 < precision) (n : Nat) :
    spacing precision (nearest precision n) ∣ nearest precision n := by
  rcases Nat.lt_or_eq_of_le (nearest_le_pow positive n) with less | equal
  · have shorter : (nearest precision n).log2 ≤ n.log2 := by
      by_cases zero : nearest precision n = 0
      · simp [zero]
      · exact Nat.le_of_lt_succ ((Nat.log2_lt zero).mpr less)
    have finer : excess precision (nearest precision n) ≤ excess precision n := by
      unfold excess
      omega
    exact Nat.dvd_trans (Nat.pow_dvd_pow 2 finer) (Nat.dvd_mul_left _ _)
  · have digits : excess precision (nearest precision n) ≤ n.log2 + 1 := by
      rw [equal]
      simp only [excess, Nat.log2_two_pow]
      omega
    have divides := Nat.pow_dvd_pow 2 digits
    rwa [← equal] at divides

@[simp] theorem nearest_nearest (positive : 0 < precision) (n : Nat) :
    nearest precision (nearest precision n) = nearest precision n :=
  nearest_of_dvd (spacing_dvd_nearest positive n)

end Rounding

def nearestInt (n : Int) : Int := if n < 0 then -(nearest 53 n.natAbs : Int) else nearest 53 n.natAbs

/-- The first power of two beyond the largest double. -/
@[irreducible] def overflow : Nat := 2 ^ 1024

/-- A whole number that a double can be. -/
def Fits (n : Int) : Prop := nearestInt n = n ∧ n.natAbs < overflow

instance (n : Int) : Decidable (Fits n) := inferInstanceAs (Decidable (_ ∧ _))

/-- A double that is no fraction.  The two zeros are one. -/
inductive Number where
  | nan
  | infinity
  | minusInfinity
  | whole (n : Int) (fits : Fits n)
deriving DecidableEq

theorem nearestInt_mono {m n : Int} (le : m ≤ n) : nearestInt m ≤ nearestInt n := by
  have natural : ∀ {a b : Nat}, a ≤ b → nearest 53 a ≤ nearest 53 b := nearest_mono (by decide)
  unfold nearestInt
  split <;> split
  · have := natural (a := n.natAbs) (b := m.natAbs) (by omega)
    omega
  · omega
  · omega
  · have := natural (a := m.natAbs) (b := n.natAbs) (by omega)
    omega

theorem nearestInt_nearestInt (n : Int) : nearestInt (nearestInt n) = nearestInt n := by
  have again := @nearest_nearest 53 (by decide) n.natAbs
  have zero : nearest 53 0 = 0 := rfl
  unfold nearestInt
  split
  · by_cases none : nearest 53 n.natAbs = 0
    · simp [none, zero]
    · rw [if_pos (by omega), Int.natAbs_neg, Int.natAbs_natCast, again]
  · rw [if_neg (by omega), Int.natAbs_natCast, again]

theorem nearestInt_of_small {n : Int} (small : n.natAbs < 2 ^ 53) : nearestInt n = n := by
  unfold nearestInt
  rw [nearest_of_small small]
  split <;> omega

theorem pow_lt_overflow {k : Nat} (less : k < 1024) : 2 ^ k < overflow := by
  unfold overflow
  generalize 1024 = most at less ⊢
  exact Nat.pow_lt_pow_right (by decide) less

theorem fits_of_small {n : Int} (small : n.natAbs < 2 ^ 53) : Fits n :=
  ⟨nearestInt_of_small small, Nat.lt_trans small (pow_lt_overflow (by decide))⟩

namespace Number

def ofInt (n : Int) : Number :=
  if small : (nearestInt n).natAbs < overflow then .whole (nearestInt n) ⟨nearestInt_nearestInt n, small⟩
  else if n < 0 then .minusInfinity else .infinity

def add : Number → Number → Number
  | .nan, _ => .nan
  | _, .nan => .nan
  | .infinity, .minusInfinity => .nan
  | .minusInfinity, .infinity => .nan
  | .infinity, _ => .infinity
  | _, .infinity => .infinity
  | .minusInfinity, _ => .minusInfinity
  | _, .minusInfinity => .minusInfinity
  | .whole m _, .whole n _ => ofInt (m + n)

/-- `<=` -/
def le : Number → Number → Bool
  | .nan, _ => false
  | _, .nan => false
  | .minusInfinity, _ => true
  | _, .infinity => true
  | .whole m _, .whole n _ => decide (m ≤ n)
  | _, _ => false

/-- `===` -/
def same (a b : Number) : Bool := a ≠ .nan && a == b

section

-- every proof below asks for these equations: here they are made once
attribute [local simp] ofInt add le

end

variable {a b c step : Number} {m n : Int}

theorem ofInt_of_fits (fits : Fits n) : ofInt n = .whole n fits := by
  unfold ofInt
  rw [dif_pos (by rw [fits.1]; exact fits.2)]
  simp [fits.1]

theorem ofInt_of_small (small : n.natAbs < 2 ^ 53) : ofInt n = .whole n (fits_of_small small) :=
  ofInt_of_fits (fits_of_small small)

theorem ofInt_ne_nan (n : Int) : ofInt n ≠ .nan := by
  unfold ofInt
  split
  · simp
  · split <;> simp

@[simp] theorem le_refl (number : a ≠ .nan) : le a a = true := by
  cases a <;> simp_all [le]

theorem ne_nan_of_le (below : le a b = true) : a ≠ .nan ∧ b ≠ .nan := by
  cases a <;> cases b <;> simp_all [le]

theorem le_trans (first : le a b = true) (second : le b c = true) : le a c = true := by
  cases a <;> cases b <;> cases c <;> simp_all [le]
  omega

theorem nearestInt_sign (n : Int) : (0 ≤ n → 0 ≤ nearestInt n) ∧ (n ≤ 0 → nearestInt n ≤ 0) := by
  have zero : nearestInt 0 = 0 := rfl
  constructor
  · intro nonnegative
    simpa [zero] using nearestInt_mono nonnegative
  · intro nonpositive
    simpa [zero] using nearestInt_mono nonpositive

theorem minusInfinity_le (number : a ≠ .nan) : le .minusInfinity a = true := by
  cases a <;> first | rfl | contradiction

theorem le_infinity (number : a ≠ .nan) : le a .infinity = true := by
  cases a <;> first | rfl | contradiction

theorem ofInt_mono (below : m ≤ n) : le (ofInt m) (ofInt n) = true := by
  have rounded := nearestInt_mono below
  have left := nearestInt_sign m
  have right := nearestInt_sign n
  by_cases negative : m < 0 ∧ overflow ≤ (nearestInt m).natAbs
  · rw [ofInt, dif_neg (by omega), if_pos negative.1]
    exact minusInfinity_le (ofInt_ne_nan n)
  · by_cases large : ¬n < 0 ∧ overflow ≤ (nearestInt n).natAbs
    · rw [ofInt.eq_def n, dif_neg (by omega), if_neg large.1]
      exact le_infinity (ofInt_ne_nan m)
    · have smallLeft : (nearestInt m).natAbs < overflow := by omega
      have smallRight : (nearestInt n).natAbs < overflow := by omega
      simpa [ofInt, smallLeft, smallRight, le] using rounded

theorem add_mono (below : le a b = true) (left : a.add step ≠ .nan) (right : b.add step ≠ .nan) :
    le (a.add step) (b.add step) = true := by
  cases a with
  | nan => contradiction
  | minusInfinity =>
    cases step with
    | infinity => contradiction
    | nan => contradiction
    | minusInfinity => exact minusInfinity_le right
    | whole s fits => exact minusInfinity_le right
  | infinity =>
    cases b with
    | infinity => exact le_refl left
    | nan => contradiction
    | minusInfinity => contradiction
    | whole n fits => contradiction
  | whole m fits =>
    cases b with
    | nan => contradiction
    | minusInfinity => contradiction
    | infinity =>
      cases step with
      | nan => contradiction
      | minusInfinity => contradiction
      | infinity => rfl
      | whole s fits => exact le_infinity left
    | whole n fits =>
      cases step with
      | nan => contradiction
      | minusInfinity => rfl
      | infinity => rfl
      | whole s fits => exact ofInt_mono (by simpa [le] using below)

def positive : Number → Bool
  | .infinity => true
  | .whole n _ => decide (0 < n)
  | _ => false

def negative : Number → Bool
  | .minusInfinity => true
  | .whole n _ => decide (n < 0)
  | _ => false

def walk (start step : Number) : Nat → Number
  | 0 => start
  | k + 1 => (walk start step k).add step

theorem walk_succ (start step : Number) (k : Nat) : walk start step (k + 1) = walk (start.add step) step k := by
  induction k with
  | zero => rfl
  | succ k ih => exact congrArg (add · step) ih

theorem le_add_of_positive (up : positive step = true) (number : a ≠ .nan)
    (result : a.add step ≠ .nan) : le a (a.add step) = true := by
  cases a with
  | nan => contradiction
  | minusInfinity => exact minusInfinity_le result
  | infinity =>
    cases step <;> first | rfl | contradiction
  | whole n fits =>
    cases step with
    | nan => contradiction
    | minusInfinity => contradiction
    | infinity => rfl
    | whole s _ =>
      have up : 0 < s := by simpa [positive] using up
      have grows := ofInt_mono (m := n) (n := n + s) (by omega)
      rwa [ofInt_of_fits fits] at grows

theorem add_le_of_negative (down : negative step = true) (number : a ≠ .nan)
    (result : a.add step ≠ .nan) : le (a.add step) a = true := by
  cases a with
  | nan => contradiction
  | infinity => exact le_infinity result
  | minusInfinity =>
    cases step <;> first | rfl | contradiction
  | whole n fits =>
    cases step with
    | nan => contradiction
    | infinity => contradiction
    | minusInfinity => rfl
    | whole s _ =>
      have down : s < 0 := by simpa [negative] using down
      have falls := ofInt_mono (m := n + s) (n := n) (by omega)
      rwa [ofInt_of_fits fits] at falls

/-- Counting up from a number above minus infinity, no value is undefined. -/
theorem add_ne_nan_of_positive (up : positive step = true) (low : le a .minusInfinity = false)
    (number : a ≠ .nan) : a.add step ≠ .nan := by
  cases a <;> cases step <;> first | contradiction | exact ofInt_ne_nan _ | exact Number.noConfusion

theorem add_step_ne_nan (down : negative step = true) (result : a.add step ≠ .nan) :
    (a.add step).add step ≠ .nan := by
  cases step with
  | nan => contradiction
  | infinity => contradiction
  | minusInfinity =>
    cases a <;> first | contradiction | exact Number.noConfusion
  | whole s fits =>
    generalize a.add (.whole s fits) = b at result
    cases b <;> first | contradiction | exact ofInt_ne_nan _ | exact Number.noConfusion

section Up

variable {start : Number} (up : positive step = true) (number : start ≠ .nan)
  (low : le start .minusInfinity = false)

include up number low

theorem le_walk (k : Nat) : le start (walk start step k) = true := by
  induction k with
  | zero => exact le_refl number
  | succ k ih =>
    have value := (ne_nan_of_le ih).2
    have high : le (walk start step k) .minusInfinity = false := by
      cases below : le (walk start step k) .minusInfinity with
      | false => rfl
      | true => simp [le_trans ih below] at low
    exact le_trans ih (le_add_of_positive up value (add_ne_nan_of_positive up high value))

theorem walk_le_later (k more : Nat) : le (walk start step k) (walk start step (k + more)) = true := by
  induction more with
  | zero => exact le_refl (ne_nan_of_le (le_walk up number low k)).2
  | succ more ih =>
    have next := (ne_nan_of_le (le_walk up number low (k + more + 1))).2
    exact le_trans ih (le_add_of_positive up (ne_nan_of_le ih).2 next)

/-- A number that the step does not move is never passed. -/
theorem walk_le_of_stuck {v : Number} (stuck : v.add step = v) (above : le start v = true)
    (k : Nat) : le (walk start step k) v = true := by
  induction k with
  | zero => exact above
  | succ k ih =>
    have next := (ne_nan_of_le (le_walk up number low (k + 1))).2
    have value := (ne_nan_of_le above).2
    have moved := add_mono ih next (by rwa [stuck])
    rwa [stuck] at moved

end Up

/-- Where the step moves every number of the range, the range is left. -/
theorem walk_leaves {start : Number} (up : positive step = true) (number : start ≠ .nan)
    (low : le start .minusInfinity = false) {last : Int}
    {fits : Fits last} (room : Nat)
    (moves : ∀ v, le start v = true → le v (.whole last fits) = true → v.add step ≠ v)
    (bound : ∀ n exact, start = .whole n exact → last - n < room) :
    ∃ k, le (walk start step k) (.whole last fits) = false := by
  induction room generalizing start with
  | zero =>
    refine ⟨0, ?_⟩
    cases start with
    | nan => contradiction
    | minusInfinity => contradiction
    | infinity => rfl
    | whole n exact =>
      have := bound n exact rfl
      simp only [walk, le, decide_eq_false_iff_not]
      omega
  | succ room ih =>
    cases inside : le start (.whole last fits) with
    | false => exact ⟨0, inside⟩
    | true =>
      have next := add_ne_nan_of_positive up low number
      have grows := le_add_of_positive up number next
      have moved := moves start (le_refl number) inside
      have high : le (start.add step) .minusInfinity = false := by
        cases below : le (start.add step) .minusInfinity with
        | false => rfl
        | true => simp [le_trans grows below] at low
      obtain ⟨k, left⟩ := ih next high (fun v above => moves v (le_trans grows above)) (by
        intro n exact same
        cases start with
        | nan => contradiction
        | minusInfinity => contradiction
        | infinity => cases inside
        | whole before exactBefore =>
          have := bound before exactBefore rfl
          rw [same] at grows moved
          simp only [le, decide_eq_true_eq, ne_eq, whole.injEq] at grows moved
          omega)
      exact ⟨k + 1, by rwa [walk_succ]⟩

theorem walk_down {start : Number} (down : negative step = true) (number : start ≠ .nan)
    (result : start.add step ≠ .nan) (k : Nat) :
    le (walk start step k) start = true ∧ (walk start step k).add step ≠ .nan := by
  induction k with
  | zero => exact ⟨le_refl number, result⟩
  | succ k ih =>
    obtain ⟨below, next⟩ := ih
    exact ⟨le_trans (add_le_of_negative down (ne_nan_of_le below).1 next) below, add_step_ne_nan down next⟩

end Number

end ProxyPilot.Data
