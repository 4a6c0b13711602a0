import Mathlib.Algebra.GroupWithZero.Nat
import Mathlib.Data.List.Induction

namespace ProxyPilot.Data

def bigEndian (bytes : List UInt8) : Nat := bytes.foldl (fun n byte => 256 * n + byte.toNat) 0

/-- A number in a field of fixed width. -/
def toBytes : Nat → Nat → List UInt8
  | 0, _ => []
  | width + 1, n => toBytes width (n / 256) ++ [UInt8.ofNat n]

@[simp] theorem length_toBytes (width n : Nat) : (toBytes width n).length = width := by
  induction width generalizing n with
  | zero => rfl
  | succ width ih => simp [toBytes, ih]

@[simp] theorem bigEndian_append_one (bytes : List UInt8) (byte : UInt8) :
    bigEndian (bytes ++ [byte]) = 256 * bigEndian bytes + byte.toNat := by
  simp [bigEndian]

theorem bigEndian_toBytes {width n : Nat} (fits : n < 256 ^ width) : bigEndian (toBytes width n) = n := by
  induction width generalizing n with
  | zero =>
    have zero : n = 0 := by simpa using fits
    simp [toBytes, bigEndian, zero]
  | succ width ih =>
    have high : n / 256 < 256 ^ width := Nat.div_lt_of_lt_mul (by rwa [Nat.pow_succ'] at fits)
    rw [toBytes, bigEndian_append_one, ih high, UInt8.toNat_ofNat']
    exact Nat.div_add_mod n 256

theorem bigEndian_lt (bytes : List UInt8) : bigEndian bytes < 256 ^ bytes.length := by
  induction bytes using List.reverseRecOn with
  | nil => simp [bigEndian]
  | append_singleton bytes byte ih =>
    have small := byte.toNat_lt
    rw [bigEndian_append_one, List.length_append, List.length_singleton, Nat.pow_succ]
    omega

theorem toBytes_bigEndian (bytes : List UInt8) : toBytes bytes.length (bigEndian bytes) = bytes := by
  induction bytes using List.reverseRecOn with
  | nil => rfl
  | append_singleton bytes byte ih =>
    have small := byte.toNat_lt
    have high : (256 * bigEndian bytes + byte.toNat) / 256 = bigEndian bytes := by omega
    have low : UInt8.ofNat (256 * bigEndian bytes + byte.toNat) = byte := by
      apply UInt8.toNat_inj.mp
      rw [UInt8.toNat_ofNat']
      omega
    rw [List.length_append, List.length_singleton, toBytes, bigEndian_append_one, high, low, ih]

end ProxyPilot.Data
