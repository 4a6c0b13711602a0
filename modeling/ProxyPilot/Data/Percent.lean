import Mathlib.Data.List.Basic
import ProxyPilot.Data.Text
import ProxyPilot.Data.Utf8

namespace ProxyPilot.Data.Percent

/-! # Percent escapes

A percent sign and two hexadecimal digits stand for a byte.  The reader puts the bytes
in place of the escapes of each run of ASCII characters and decodes the run as UTF-8.
-/

abbrev Text := List Char

def hexValue (c : Char) : Nat :=
  if c.isDigit then c.toNat - 48 else if 'a' ≤ c then c.toNat - 87 else c.toNat - 55

/-- The text begins with two hexadecimal digits. -/
def twoHex : Text → Bool
  | a :: b :: _ => hexChar a && hexChar b
  | _ => false

/-- A percent sign stands without its two digits. -/
def badEscape : Text → Bool
  | [] => false
  | c :: rest => c == '%' && !twoHex rest || badEscape rest

def escape (c a b : Char) : Option UInt8 :=
  if c = '%' ∧ hexChar a = true ∧ hexChar b = true then some (.ofNat (hexValue a * 16 + hexValue b)) else none

def unquoteBytes : Text → List UInt8
  | c :: a :: b :: rest =>
    match escape c a b with
    | some byte => byte :: unquoteBytes rest
    | none => .ofNat c.toNat :: unquoteBytes (a :: b :: rest)
  | [c, a] => [.ofNat c.toNat, .ofNat a.toNat]
  | [c] => [.ofNat c.toNat]
  | [] => []

/-- `run` is the run of ASCII characters read so far, the last one first. -/
def unquoteFrom (run : Text) : Text → Option Text
  | [] => Utf8.decodeStrict (unquoteBytes run.reverse)
  | c :: rest =>
    if c.toNat < 0x80 then unquoteFrom (c :: run) rest
    else do
      let front ← Utf8.decodeStrict (unquoteBytes run.reverse)
      let back ← unquoteFrom [] rest
      some (front ++ c :: back)

def unquote (text : Text) : Option Text := if '%' ∈ text then unquoteFrom [] text else some text

def Ascii (text : Text) : Prop := ∀ c ∈ text, c.toNat < 0x80

theorem ascii_append {front back : Text} : Ascii (front ++ back) ↔ Ascii front ∧ Ascii back :=
  List.forall_mem_append

variable {text : Text} {c : Char}

theorem ascii_cons : Ascii (c :: text) ↔ c.toNat < 0x80 ∧ Ascii text := List.forall_mem_cons

theorem hexChar_ascii (digit : hexChar c = true) : c.toNat < 0x80 := by
  simp only [hexChar, Char.isDigit, Bool.or_eq_true, Bool.and_eq_true, decide_eq_true_eq,
    Char.le_def, UInt32.le_iff_toNat_le] at digit
  change (48 ≤ c.toNat ∧ c.toNat ≤ 57 ∨ 97 ≤ c.toNat ∧ c.toNat ≤ 102) ∨ 65 ≤ c.toNat ∧ c.toNat ≤ 70 at digit
  omega

theorem badEscape_append_free {front : Text} (free : '%' ∉ front) (back : Text) :
    badEscape (front ++ back) = badEscape back := by
  induction front with
  | nil => rfl
  | cons c front ih =>
    simp only [List.mem_cons, not_or] at free
    simp [badEscape, Ne.symm free.1, ih free.2]

/-- A character that is no digit ends the escapes in front of it. -/
theorem badEscape_append_mark {mark : Char} (digit : hexChar mark = false) (front back : Text) :
    badEscape (front ++ mark :: back) = (badEscape front || badEscape (mark :: back)) := by
  induction front with
  | nil => simp [badEscape]
  | cons c front ih =>
    have same : twoHex (front ++ mark :: back) = twoHex front := by
      match front with
      | [] => cases back <;> simp [twoHex, digit]
      | [a] => simp [twoHex, digit]
      | a :: b :: _ => rfl
    simp only [List.cons_append, badEscape, same] at ih ⊢
    rw [ih, Bool.or_assoc]

theorem unquoteBytes_cons (plain : c ≠ '%') (rest : Text) :
    unquoteBytes (c :: rest) = .ofNat c.toNat :: unquoteBytes rest := by
  match rest with
  | [] => rfl
  | [_] => rfl
  | a :: b :: rest => simp [unquoteBytes, escape, plain]

theorem unquoteBytes_escape {a b : Char} (left : hexChar a = true) (right : hexChar b = true) (rest : Text) :
    unquoteBytes ('%' :: a :: b :: rest) = .ofNat (hexValue a * 16 + hexValue b) :: unquoteBytes rest := by
  simp [unquoteBytes, escape, left, right]

theorem unquoteBytes_free (free : '%' ∉ text) (ascii : Ascii text) : unquoteBytes text = Utf8.encode text := by
  induction text with
  | nil => rfl
  | cons c text ih =>
    simp only [List.mem_cons, not_or] at free
    obtain ⟨small, ascii⟩ := ascii_cons.mp ascii
    rw [unquoteBytes_cons (Ne.symm free.1), ih free.2 ascii, Utf8.encode_cons, Utf8.encodeChar_ascii small]
    rfl

theorem unquoteFrom_ascii (ascii : Ascii text) (run : Text) :
    unquoteFrom run text = Utf8.decodeStrict (unquoteBytes (run.reverse ++ text)) := by
  induction text generalizing run with
  | nil => simp [unquoteFrom]
  | cons c text ih =>
    obtain ⟨small, ascii⟩ := ascii_cons.mp ascii
    rw [unquoteFrom, if_pos small, ih ascii]
    simp

theorem unquote_eq_some {text decoded : Text} (ascii : Ascii text) :
    unquote text = some decoded ↔ unquoteBytes text = Utf8.encode decoded := by
  rw [unquote]
  split
  · rw [unquoteFrom_ascii ascii, List.reverse_nil, List.nil_append, Utf8.decodeStrict_eq_some]
  · next free =>
      rw [unquoteBytes_free free ascii, Option.some.injEq]
      exact ⟨congrArg Utf8.encode, Utf8.encode_injective⟩

/-- Every percent sign has its digits. -/
inductive Escaped : Text → Prop where
  | nil : Escaped []
  | plain {c : Char} {rest : Text} (plain : c ≠ '%') (tail : Escaped rest) : Escaped (c :: rest)
  | escape {a b : Char} {rest : Text} (left : hexChar a = true) (right : hexChar b = true) (tail : Escaped rest) :
      Escaped ('%' :: a :: b :: rest)

theorem escaped_of_badEscape (good : badEscape text = false) : Escaped text := by
  fun_induction unquoteBytes text with
  | case1 c a b rest byte read ih =>
    simp only [escape, Option.ite_none_right_eq_some] at read
    obtain ⟨⟨rfl, left, right⟩, -⟩ := read
    simp only [badEscape, Bool.or_eq_false_iff] at good
    exact .escape left right (ih good.2.2.2)
  | case2 c a b rest read ih =>
    rw [badEscape, Bool.or_eq_false_iff] at good
    refine .plain ?_ (ih good.2)
    rintro rfl
    simp only [twoHex, beq_self_eq_true, Bool.true_and, Bool.not_eq_false', Bool.and_eq_true] at good
    simp [escape, good.1.1, good.1.2] at read
  | case3 c a =>
    simp only [badEscape, twoHex, Bool.not_false, Bool.and_true, Bool.or_false,
      Bool.or_eq_false_iff, beq_eq_false_iff_ne] at good
    exact .plain good.1 (.plain good.2 .nil)
  | case4 c =>
    simp only [badEscape, twoHex, Bool.not_false, Bool.and_true, Bool.or_false, beq_eq_false_iff_ne] at good
    exact .plain good .nil
  | case5 => exact .nil

/-- An ASCII byte was written as the character or as an escape. -/
theorem byte_of_mem {n : Nat} (escaped : Escaped text) (ascii : Ascii text) (small : n < 0x80)
    (member : UInt8.ofNat n ∈ unquoteBytes text) :
    (∃ c ∈ text, c ≠ '%' ∧ c.toNat = n) ∨
      ∃ front a b back, text = front ++ '%' :: a :: b :: back ∧ hexChar a = true ∧ hexChar b = true ∧
        UInt8.ofNat (hexValue a * 16 + hexValue b) = UInt8.ofNat n := by
  induction escaped with
  | nil => cases member
  | @plain c rest plain tail ih =>
    obtain ⟨first, ascii⟩ := ascii_cons.mp ascii
    rw [unquoteBytes_cons plain] at member
    rcases List.mem_cons.mp member with same | member
    · have equal := congrArg UInt8.toNat same
      rw [UInt8.toNat_ofNat_of_lt' (Nat.lt_trans small (by decide)),
        UInt8.toNat_ofNat_of_lt' (Nat.lt_trans first (by decide))] at equal
      exact .inl ⟨c, List.mem_cons_self, plain, equal.symm⟩
    · rcases ih ascii member with ⟨d, inside, written⟩ | ⟨front, a, b, back, whole, written⟩
      · exact .inl ⟨d, List.mem_cons_of_mem _ inside, written⟩
      · exact .inr ⟨c :: front, a, b, back, by rw [whole]; rfl, written⟩
  | @escape a b rest left right tail ih =>
    have ascii : Ascii rest := fun c inside => ascii c (by simp [inside])
    rw [unquoteBytes_escape left right] at member
    rcases List.mem_cons.mp member with same | member
    · exact .inr ⟨[], a, b, rest, rfl, left, right, same.symm⟩
    · rcases ih ascii member with ⟨d, inside, written⟩ | ⟨front, a', b', back, whole, written⟩
      · exact .inl ⟨d, by simp [inside], written⟩
      · exact .inr ⟨'%' :: a :: b :: front, a', b', back, by rw [whole]; rfl, written⟩

end ProxyPilot.Data.Percent
