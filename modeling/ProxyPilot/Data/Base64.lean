namespace ProxyPilot.Data

/-! # Base64

The standard alphabet with padding. A decoder passes over characters outside the
alphabet and ends at the padding.
-/

namespace Base64

def padding : UInt8 := 61

/-- The character of a number below 64. -/
def letter (n : Nat) : UInt8 :=
  if n < 26 then .ofNat (n + 65)
  else if n < 52 then .ofNat (n + 71)
  else if n < 62 then .ofNat (n - 4)
  else if n = 62 then 43 else 47

def sextet (c : UInt8) : Option Nat := (List.range 64).find? fun n => letter n == c

def encode : List UInt8 → List UInt8
  | [] => []
  | [a] => [letter (a.toNat / 4), letter (a.toNat % 4 * 16), padding, padding]
  | [a, b] => [letter (a.toNat / 4), letter (a.toNat % 4 * 16 + b.toNat / 16), letter (b.toNat % 16 * 4), padding]
  | a :: b :: c :: rest =>
    letter (a.toNat / 4) :: letter (a.toNat % 4 * 16 + b.toNat / 16) :: letter (b.toNat % 16 * 4 + c.toNat / 64) ::
      letter (c.toNat % 64) :: encode rest

def sextets : List UInt8 → List Nat
  | [] => []
  | c :: rest => if c = padding then [] else (sextet c).toList ++ sextets rest

/-- The bytes of whole and cut groups of four. -/
def ofSextets : List Nat → List UInt8
  | a :: b :: c :: d :: rest =>
    .ofNat (a * 4 + b / 16) :: .ofNat (b % 16 * 16 + c / 4) :: .ofNat (c % 4 * 64 + d) :: ofSextets rest
  | [a, b, c] => [.ofNat (a * 4 + b / 16), .ofNat (b % 16 * 16 + c / 4)]
  | [a, b] => [.ofNat (a * 4 + b / 16)]
  | _ => []

def decode (text : List UInt8) : List UInt8 := ofSextets (sextets text)

section

-- the proofs below ask for these equations: here they are made once
attribute [local simp] encode sextets ofSextets

end

theorem sextet_letter : ∀ n < 64, sextet (letter n) = some n ∧ letter n ≠ padding := by decide +kernel

theorem sextets_letter {n : Nat} (small : n < 64) (rest : List UInt8) :
    sextets (letter n :: rest) = n :: sextets rest := by
  obtain ⟨found, letter⟩ := sextet_letter n small
  rw [sextets, if_neg letter, found]
  rfl

theorem sextets_padding (rest : List UInt8) : sextets (padding :: rest) = [] := rfl

theorem ofNat_eq (byte : UInt8) {n : Nat} (same : n = byte.toNat) : UInt8.ofNat n = byte := by
  rw [same]
  exact UInt8.ofNat_toNat

/-- Decoding gives back what was encoded. -/
theorem decode_encode (bytes : List UInt8) : decode (encode bytes) = bytes := by
  unfold decode
  induction bytes using encode.induct with
  | case1 => rfl
  | case2 a =>
    have small : a.toNat < 256 := a.toNat_lt
    rw [encode, sextets_letter (by omega), sextets_letter (by omega), sextets_padding, ofSextets,
      ofNat_eq a (by omega)]
  | case3 a b =>
    have small : a.toNat < 256 := a.toNat_lt
    have small' : b.toNat < 256 := b.toNat_lt
    rw [encode, sextets_letter (by omega), sextets_letter (by omega), sextets_letter (by omega),
      sextets_padding, ofSextets,
      ofNat_eq a (by omega), ofNat_eq b (by omega)]
  | case4 a b c rest ih =>
    have small : a.toNat < 256 := a.toNat_lt
    have small' : b.toNat < 256 := b.toNat_lt
    have small'' : c.toNat < 256 := c.toNat_lt
    rw [encode, sextets_letter (by omega), sextets_letter (by omega), sextets_letter (by omega),
      sextets_letter (by omega), ofSextets, ih,
      ofNat_eq a (by omega), ofNat_eq b (by omega), ofNat_eq c (by omega)]

theorem letter_ascii : ∀ n < 64, (letter n).toNat < 128 := by decide +kernel

theorem encode_ascii (bytes : List UInt8) : ∀ c ∈ encode bytes, c.toNat < 128 := by
  have pad : padding.toNat < 128 := by decide
  induction bytes using encode.induct with
  | case1 =>
    intro c member
    cases member
  | case2 a =>
    have small : a.toNat < 256 := a.toNat_lt
    simp only [encode, List.forall_mem_cons]
    exact ⟨letter_ascii _ (by omega), letter_ascii _ (by omega), pad, pad,
      fun c none => absurd none List.not_mem_nil⟩
  | case3 a b =>
    have small : a.toNat < 256 := a.toNat_lt
    have small' : b.toNat < 256 := b.toNat_lt
    simp only [encode, List.forall_mem_cons]
    exact ⟨letter_ascii _ (by omega), letter_ascii _ (by omega), letter_ascii _ (by omega), pad,
      fun c none => absurd none List.not_mem_nil⟩
  | case4 a b c rest ih =>
    have small : a.toNat < 256 := a.toNat_lt
    have small' : b.toNat < 256 := b.toNat_lt
    have small'' : c.toNat < 256 := c.toNat_lt
    simp only [encode, List.forall_mem_cons]
    exact ⟨letter_ascii _ (by omega), letter_ascii _ (by omega), letter_ascii _ (by omega),
      letter_ascii _ (by omega), ih⟩

end Base64

end ProxyPilot.Data
