namespace ProxyPilot.Data

/-! # Strings as UTF-16 code units

A string is a list of code units, of which surrogates may stand alone.  `JSON.stringify`
quotes it: what is no printable character or a surrogate without its partner is escaped.
-/

abbrev Units := List UInt16

namespace Utf16

def encodeChar (c : Char) : Units :=
  if c.toNat < 0x10000 then [UInt16.ofNat c.toNat]
  else [UInt16.ofNat (0xD800 + (c.toNat - 0x10000) / 1024), UInt16.ofNat (0xDC00 + (c.toNat - 0x10000) % 1024)]

def encode (text : List Char) : Units := text.flatMap encodeChar

def quotationMark : UInt16 := 34

def backslash : UInt16 := 92

def isHigh (u : UInt16) : Bool := decide (0xD800 ≤ u.toNat ∧ u.toNat < 0xDC00)

def isLow (u : UInt16) : Bool := decide (0xDC00 ≤ u.toNat ∧ u.toNat < 0xE000)

/-- The escapes of one letter, by the unit that they stand for. -/
def letters : List (UInt16 × UInt16) := [(8, 98), (9, 116), (10, 110), (12, 102), (13, 114), (34, 34), (92, 92)]

def hexUnit (n : Nat) : UInt16 := UInt16.ofNat (if n < 10 then 48 + n else 87 + n)

def hexDigits (n : Nat) : Units :=
  [hexUnit (n / 4096), hexUnit (n / 256 % 16), hexUnit (n / 16 % 16), hexUnit (n % 16)]

def hexEscape (u : UInt16) : Units := [backslash, 117] ++ hexDigits u.toNat

def escaped : Units → Units
  | [] => []
  | [u] => alone u
  | u :: next :: rest =>
    if isHigh u && isLow next then u :: next :: escaped rest
    else alone u ++ escaped (next :: rest)
where
  alone (u : UInt16) : Units :=
    match letters.lookup u with
    | some letter => [backslash, letter]
    | none => if u.toNat < 32 || isHigh u || isLow u then hexEscape u else [u]

def quote (s : Units) : Units := quotationMark :: (escaped s ++ [quotationMark])

/-- The ways in which a unit stands in a quoted string. -/
inductive Token (u : UInt16) : Units → Prop
  | plain (notQuote : u ≠ quotationMark) (notEscape : u ≠ backslash) : Token u [u]
  | letter {l : UInt16} (known : (u, l) ∈ letters) : Token u [backslash, l]
  | hex : Token u (hexEscape u)

theorem token_alone (u : UInt16) : Token u (escaped.alone u) := by
  unfold escaped.alone
  split
  · next l found =>
      obtain ⟨front, back, same, _⟩ := List.lookup_eq_some_iff.mp found
      exact .letter (by rw [same]; simp)
  · next none =>
      split
      · exact .hex
      · refine .plain ?_ ?_
        · rintro rfl
          exact absurd none (by decide)
        · rintro rfl
          exact absurd none (by decide)

theorem token_surrogate {u : UInt16} (surrogate : isHigh u = true ∨ isLow u = true) : Token u [u] := by
  refine .plain ?_ ?_
  · rintro rfl
    revert surrogate
    decide
  · rintro rfl
    revert surrogate
    decide

/-- A string as what is written for each of its units. -/
inductive Tokens : Units → Units → Prop
  | nil : Tokens [] []
  | cons {u : UInt16} {s written rest : Units} (token : Token u written) (tokens : Tokens s rest) :
      Tokens (u :: s) (written ++ rest)

theorem tokens_escaped (s : Units) : Tokens s (escaped s) := by
  induction s using escaped.induct with
  | case1 => exact .nil
  | case2 u => simpa [escaped] using Tokens.cons (token_alone u) .nil
  | case3 u next rest pair ih =>
    have surrogates : isHigh u = true ∧ isLow next = true := by simpa using pair
    rw [escaped, if_pos pair]
    exact .cons (token_surrogate (Or.inl surrogates.1)) (.cons (token_surrogate (Or.inr surrogates.2)) ih)
  | case4 u next rest single ih =>
    rw [escaped, if_neg single]
    exact .cons (token_alone u) ih

theorem letters_injective {a b : UInt16 × UInt16} (left : a ∈ letters) (right : b ∈ letters)
    (same : a.2 = b.2) : a.1 = b.1 := by
  have all : (letters.all fun a => letters.all fun b => a.2 != b.2 || a.1 == b.1) = true := by decide
  have known := List.all_eq_true.mp (List.all_eq_true.mp all a left) b right
  simpa [same] using known

theorem letters_not_hex {a : UInt16 × UInt16} (member : a ∈ letters) : a.2 ≠ 117 := by
  have all : (letters.all fun a => a.2 != 117) = true := by decide
  simpa using List.all_eq_true.mp all a member

theorem hexUnit_injective {m n : Nat} (left : m < 16) (right : n < 16) (same : hexUnit m = hexUnit n) : m = n := by
  have all : ∀ m < 16, ∀ n < 16, hexUnit m = hexUnit n → m = n := by decide
  exact all m left n right same

theorem hexDigits_injective {u v : UInt16} {r q : Units}
    (same : hexDigits u.toNat ++ r = hexDigits v.toNat ++ q) : u = v ∧ r = q := by
  have small := u.toNat_lt
  have smallToo := v.toNat_lt
  simp only [hexDigits, List.cons_append, List.nil_append, List.cons.injEq] at same
  obtain ⟨first, second, third, fourth, rest⟩ := same
  have first := hexUnit_injective (by omega) (by omega) first
  have second := hexUnit_injective (by omega) (by omega) second
  have third := hexUnit_injective (by omega) (by omega) third
  have fourth := hexUnit_injective (by omega) (by omega) fourth
  exact ⟨UInt16.toNat_inj.mp (by omega), rest⟩

theorem token_unique {u v : UInt16} {w x r q : Units} (left : Token u w) (right : Token v x)
    (same : w ++ r = x ++ q) : u = v ∧ r = q := by
  cases left with
  | plain notQuote notEscape =>
    cases right with
    | plain _ _ => exact List.cons.inj same
    | letter _ => exact absurd (List.cons.inj same).1 notEscape
    | hex => exact absurd (List.cons.inj same).1 notEscape
  | letter known =>
    cases right with
    | plain _ notEscape => exact absurd (List.cons.inj same).1.symm notEscape
    | letter knownToo =>
      simp only [List.cons_append, List.nil_append, List.cons.injEq, true_and] at same
      exact ⟨letters_injective known knownToo same.1, same.2⟩
    | hex =>
      simp only [hexEscape, List.cons_append, List.nil_append, List.cons.injEq, true_and] at same
      exact absurd same.1 (letters_not_hex known)
  | hex =>
    cases right with
    | plain _ notEscape => exact absurd (List.cons.inj same).1.symm notEscape
    | letter known =>
      simp only [hexEscape, List.cons_append, List.nil_append, List.cons.injEq, true_and] at same
      exact absurd same.1.symm (letters_not_hex known)
    | hex =>
      simp only [hexEscape, List.cons_append, List.nil_append, List.cons.injEq, true_and] at same
      exact hexDigits_injective same

theorem token_head {u : UInt16} {w : Units} (token : Token u w) : ∃ first rest, w = first :: rest ∧
    first ≠ quotationMark := by
  cases token with
  | plain notQuote _ => exact ⟨u, [], rfl, notQuote⟩
  | letter _ => exact ⟨backslash, _, rfl, by decide⟩
  | hex => exact ⟨backslash, _, rfl, by decide⟩

theorem tokens_unique {s t w x r q : Units} (left : Tokens s w) (right : Tokens t x)
    (same : w ++ quotationMark :: r = x ++ quotationMark :: q) : s = t ∧ r = q := by
  induction left generalizing t x with
  | nil =>
    cases right with
    | nil => exact ⟨rfl, (List.cons.inj same).2⟩
    | cons token _ =>
      obtain ⟨first, rest, rfl, other⟩ := token_head token
      exact absurd (List.cons.inj same).1.symm other
  | cons token tokens ih =>
    cases right with
    | nil =>
      obtain ⟨first, rest, rfl, other⟩ := token_head token
      exact absurd (List.cons.inj same).1 other
    | cons tokenToo tokensToo =>
      rw [List.append_assoc, List.append_assoc] at same
      obtain ⟨rfl, rest⟩ := token_unique token tokenToo same
      obtain ⟨rfl, ends⟩ := ih tokensToo rest
      exact ⟨rfl, ends⟩

/-- A quoted string ends where its quotation marks do, and says what it quotes. -/
theorem quote_injective {s t r q : Units} (same : quote s ++ r = quote t ++ q) : s = t ∧ r = q := by
  simp only [quote, List.cons_append, List.append_assoc, List.nil_append, List.cons.injEq, true_and] at same
  exact tokens_unique (tokens_escaped s) (tokens_escaped t) same

end Utf16

end ProxyPilot.Data
