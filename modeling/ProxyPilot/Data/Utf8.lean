namespace ProxyPilot.Data

/-! # UTF-8

The decoder reads one byte after the other and replaces what is not UTF-8; it gives
back every text that was encoded.
-/

namespace Utf8

def encodeChar (c : Char) : List UInt8 :=
  if c.toNat < 0x80 then [.ofNat c.toNat]
  else if c.toNat < 0x800 then [.ofNat (0xC0 + c.toNat / 64), .ofNat (0x80 + c.toNat % 64)]
  else if c.toNat < 0x10000 then
    [.ofNat (0xE0 + c.toNat / 4096), .ofNat (0x80 + c.toNat / 64 % 64), .ofNat (0x80 + c.toNat % 64)]
  else
    [.ofNat (0xF0 + c.toNat / 262144), .ofNat (0x80 + c.toNat / 4096 % 64), .ofNat (0x80 + c.toNat / 64 % 64),
      .ofNat (0x80 + c.toNat % 64)]

def encode (text : List Char) : List UInt8 := text.flatMap encodeChar

def byteLength (text : List Char) : Nat := (encode text).length

/-- A character of which bytes are still owed, and the range of the next one. -/
structure Pending where
  owed : Nat
  code : Nat
  low : Nat
  high : Nat

def replacement : Char := Char.ofNat 0xFFFD

/-- The first byte of a character. -/
def lead (b : Nat) : List Char × Option Pending :=
  if b < 0x80 then ([Char.ofNat b], none)
  else if 0xC2 ≤ b ∧ b ≤ 0xDF then ([], some ⟨1, b - 0xC0, 0x80, 0xBF⟩)
  else if 0xE0 ≤ b ∧ b ≤ 0xEF then
    ([], some ⟨2, b - 0xE0, if b = 0xE0 then 0xA0 else 0x80, if b = 0xED then 0x9F else 0xBF⟩)
  else if 0xF0 ≤ b ∧ b ≤ 0xF4 then
    ([], some ⟨3, b - 0xF0, if b = 0xF0 then 0x90 else 0x80, if b = 0xF4 then 0x8F else 0xBF⟩)
  else ([replacement], none)

def step : Option Pending → Nat → List Char × Option Pending
  | none, b => lead b
  | some pending, b =>
    if pending.low ≤ b ∧ b ≤ pending.high then
      if pending.owed = 1 then ([Char.ofNat (pending.code * 64 + (b - 0x80))], none)
      else ([], some ⟨pending.owed - 1, pending.code * 64 + (b - 0x80), 0x80, 0xBF⟩)
    -- the byte starts anew behind the broken character
    else (replacement :: (lead b).1, (lead b).2)

def decodeFrom : Option Pending → List UInt8 → List Char
  | none, [] => []
  | some _, [] => [replacement]
  | state, b :: rest => (step state b.toNat).1 ++ decodeFrom (step state b.toNat).2 rest

def decode (bytes : List UInt8) : List Char := decodeFrom none bytes

theorem decodeFrom_ofNat {state : Option Pending} {n : Nat} (small : n < 256) (rest : List UInt8) :
    decodeFrom state (.ofNat n :: rest) = (step state n).1 ++ decodeFrom (step state n).2 rest := by
  have same : (UInt8.ofNat n).toNat = n := UInt8.toNat_ofNat_of_lt' small
  cases state with
  | none => rw [decodeFrom, same]
  | some pending => rw [decodeFrom, same]

variable {b : Nat} {pending : Pending} {bytes : List UInt8} {text : List Char}

theorem lead_one (small : b < 0x80) : lead b = ([Char.ofNat b], none) := if_pos small

theorem lead_two (low : 0xC2 ≤ b) (high : b ≤ 0xDF) : lead b = ([], some ⟨1, b - 0xC0, 0x80, 0xBF⟩) := by
  unfold lead
  rw [if_neg (by omega), if_pos ⟨low, high⟩]

theorem lead_three (low : 0xE0 ≤ b) (high : b ≤ 0xEF) :
    lead b = ([], some ⟨2, b - 0xE0, if b = 0xE0 then 0xA0 else 0x80, if b = 0xED then 0x9F else 0xBF⟩) := by
  unfold lead
  rw [if_neg (by omega), if_neg (by omega), if_pos ⟨low, high⟩]

theorem lead_four (low : 0xF0 ≤ b) (high : b ≤ 0xF4) :
    lead b = ([], some ⟨3, b - 0xF0, if b = 0xF0 then 0x90 else 0x80, if b = 0xF4 then 0x8F else 0xBF⟩) := by
  unfold lead
  rw [if_neg (by omega), if_neg (by omega), if_neg (by omega), if_pos ⟨low, high⟩]

theorem step_more (low : pending.low ≤ b) (high : b ≤ pending.high) (more : pending.owed ≠ 1) :
    step (some pending) b = ([], some ⟨pending.owed - 1, pending.code * 64 + (b - 0x80), 0x80, 0xBF⟩) := by
  rw [step, if_pos ⟨low, high⟩, if_neg more]

theorem step_last (low : pending.low ≤ b) (high : b ≤ pending.high) (last : pending.owed = 1) :
    step (some pending) b = ([Char.ofNat (pending.code * 64 + (b - 0x80))], none) := by
  rw [step, if_pos ⟨low, high⟩, if_pos last]

theorem decodeFrom_encodeChar (c : Char) (rest : List UInt8) :
    decodeFrom none (encodeChar c ++ rest) = c :: decodeFrom none rest := by
  have valid : c.toNat < 0xD800 ∨ 0xDFFF < c.toNat ∧ c.toNat < 0x110000 := c.valid
  have same : ∀ n, n = c.toNat → Char.ofNat n = c := by
    rintro n rfl
    exact Char.ofNat_toNat c
  unfold encodeChar
  split
  · next small =>
      rw [List.cons_append, List.nil_append, decodeFrom_ofNat (by omega), step, lead_one small, same _ rfl]
      rfl
  · split
    · next large small =>
        simp only [List.cons_append, List.nil_append]
        rw [decodeFrom_ofNat (by omega), step, lead_two (by omega) (by omega), decodeFrom_ofNat (by omega),
          step_last (by simp only; omega) (by simp only; omega) rfl, same _ (by simp only; omega)]
        rfl
    · split
      · next large small =>
          simp only [List.cons_append, List.nil_append]
          rw [decodeFrom_ofNat (by omega), step, lead_three (by omega) (by omega), decodeFrom_ofNat (by omega),
            step_more (by simp only; split <;> omega) (by simp only; split <;> omega) (by simp),
              decodeFrom_ofNat (by omega),
            step_last (by simp only; omega) (by simp only; omega) rfl, same _ (by simp only; omega)]
          rfl
      · next large =>
          simp only [List.cons_append, List.nil_append]
          rw [decodeFrom_ofNat (by omega), step, lead_four (by omega) (by omega), decodeFrom_ofNat (by omega),
            step_more (by simp only; split <;> omega) (by simp only; split <;> omega) (by simp),
              decodeFrom_ofNat (by omega),
            step_more (by simp only; omega) (by simp only; omega) (by simp), decodeFrom_ofNat (by omega),
            step_last (by simp only; omega) (by simp only; omega) rfl, same _ (by simp only; omega)]
          rfl

theorem encode_cons (c : Char) (text : List Char) : encode (c :: text) = encodeChar c ++ encode text := rfl

theorem encode_append (text more : List Char) : encode (text ++ more) = encode text ++ encode more := by
  unfold encode
  rw [List.flatMap_append]

/-- Behind an encoded text the decoder goes on afresh. -/
theorem decode_encode_append (text : List Char) (rest : List UInt8) :
    decode (encode text ++ rest) = text ++ decode rest := by
  unfold decode
  induction text with
  | nil => rfl
  | cons c text ih =>
    rw [encode_cons, List.append_assoc, decodeFrom_encodeChar, ih]
    rfl

theorem decode_encode (text : List Char) : decode (encode text) = text := by
  have whole := decode_encode_append text []
  rw [List.append_nil] at whole
  rw [whole]
  exact List.append_nil text

theorem encode_injective {text other : List Char} (same : encode text = encode other) : text = other := by
  rw [← decode_encode text, same, decode_encode]

theorem decode_ascii {b : UInt8} (ascii : b.toNat < 0x80) (rest : List UInt8) :
    decode (b :: rest) = Char.ofNat b.toNat :: decode rest := by
  unfold decode
  rw [decodeFrom, step, lead_one ascii]
  rfl

theorem encode_decode_ascii (ascii : ∀ b ∈ bytes, b.toNat < 0x80) : encode (decode bytes) = bytes := by
  induction bytes with
  | nil => rfl
  | cons b bytes ih =>
    have small := ascii b List.mem_cons_self
    have code : (Char.ofNat b.toNat).toNat = b.toNat := by
      rw [Char.ofNat, dif_pos (Or.inl (Nat.lt_trans small (by decide)))]
      rfl
    have first : encodeChar (Char.ofNat b.toNat) = [b] := by
      unfold encodeChar
      rw [code, if_pos small, UInt8.ofNat_toNat]
    rw [decode_ascii small, encode_cons, first, ih fun other member => ascii other (List.mem_cons_of_mem _ member)]
    rfl

/-- The strict decoder refuses what is not UTF-8. -/
def decodeStrict (bytes : List UInt8) : Option (List Char) :=
  let text := decode bytes
  if encode text = bytes then some text else none

theorem decodeStrict_eq_some : decodeStrict bytes = some text ↔ bytes = encode text := by
  simp only [decodeStrict, Option.ite_none_right_eq_some, Option.some.injEq]
  constructor
  · intro ⟨whole, same⟩
    rw [← same, whole]
  · intro same
    rw [same, decode_encode]
    exact ⟨rfl, rfl⟩

theorem byteLength_append (text more : List Char) :
    byteLength (text ++ more) = byteLength text + byteLength more := by
  unfold byteLength
  rw [encode_append, List.length_append]

theorem one_le_encodeChar (c : Char) : 1 ≤ (encodeChar c).length := by
  unfold encodeChar
  repeat' split
  all_goals simp

theorem length_le_byteLength (text : List Char) : text.length ≤ byteLength text := by
  induction text with
  | nil => exact Nat.zero_le 0
  | cons c text ih =>
    have first := one_le_encodeChar c
    unfold byteLength at ih ⊢
    rw [encode_cons, List.length_append, List.length_cons]
    omega

theorem encodeChar_ascii {c : Char} (ascii : c.toNat < 0x80) : encodeChar c = [.ofNat c.toNat] := if_pos ascii

theorem byteLength_ascii (ascii : ∀ c ∈ text, c.toNat < 0x80) : byteLength text = text.length := by
  induction text with
  | nil => rfl
  | cons c text ih =>
    have rest := ih fun other member => ascii other (List.mem_cons_of_mem _ member)
    unfold byteLength at rest ⊢
    rw [encode_cons, encodeChar_ascii (ascii c List.mem_cons_self), List.length_append, rest, List.length_cons]
    exact Nat.add_comm 1 text.length

end Utf8

end ProxyPilot.Data
