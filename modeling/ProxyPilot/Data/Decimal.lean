import Mathlib.Algebra.GroupWithZero.Nat

namespace ProxyPilot.Data

/-- Of the decimals that read back as a double, `Number.prototype.toString` writes the shortest.
A finite number is represented by that decimal: `digits * 10 ^ (point - length of digits)`,
with no zero at the end of the digits. -/
inductive Decimal where
  | zero
  | nonzero (negative : Bool) (digits : Nat) (point : Int) (proper : digits % 10 ≠ 0)

namespace Decimal

def digitsOf (n : Nat) : List Char := Nat.toDigits 10 n

def zeros (n : Nat) : List Char := List.replicate n '0'

/-- The exponent of the scientific form. -/
def exponentText (e : Int) : List Char := 'e' :: (if e < 0 then '-' else '+') :: digitsOf e.natAbs

/-- The digits with the point set into them, or in scientific form. -/
def place (digits : Nat) (point : Int) : List Char :=
  let ds := digitsOf digits
  if ds.length ≤ point ∧ point ≤ 21 then ds ++ zeros (point - ds.length).toNat
  else if 0 < point ∧ point ≤ 21 then ds.take point.toNat ++ '.' :: ds.drop point.toNat
  else if -6 < point ∧ point ≤ 0 then '0' :: '.' :: (zeros (-point).toNat ++ ds)
  else if ds.length = 1 then ds ++ exponentText (point - 1)
  else ds.take 1 ++ '.' :: (ds.drop 1 ++ exponentText (point - 1))

/-- `Number::toString` -/
def text : Decimal → List Char
  | zero => ['0']
  | nonzero negative digits point _ => (if negative then ['-'] else []) ++ place digits point

def readExponent : List Char → Int
  | '+' :: rest => Nat.ofDigitChars 10 rest 0
  | '-' :: rest => -(Nat.ofDigitChars 10 rest 0 : Int)
  | _ => 0

/-- The digits before the exponent without their point, and the power of ten that they are multiplied by. -/
def read (text : List Char) : Nat × Int :=
  let mantissa := text.takeWhile (· ≠ 'e')
  let whole := mantissa.takeWhile (· ≠ '.')
  let fraction := (mantissa.dropWhile (· ≠ '.')).drop 1
  (Nat.ofDigitChars 10 (whole ++ fraction) 0, readExponent ((text.dropWhile (· ≠ 'e')).drop 1) - fraction.length)

theorem digit_of_mem {n : Nat} {c : Char} (member : c ∈ digitsOf n) : c.isDigit = true :=
  Nat.isDigit_of_mem_toDigits (by decide) (by decide) member

theorem ofDigits_digitsOf (n : Nat) : Nat.ofDigitChars 10 (digitsOf n) 0 = n :=
  Nat.ofDigitChars_toDigits (by decide) (by decide)

theorem ne_of_digit {c d : Char} (digit : c.isDigit = true) (other : d.isDigit = false) : c ≠ d := by
  rintro rfl
  simp [digit] at other

/-- The text up to a mark that does not occur before. -/
theorem cut {mark : Char} {front back : List Char} (clear : ∀ c ∈ front, c ≠ mark)
    (stops : back = [] ∨ ∃ rest, back = mark :: rest) :
    (front ++ back).takeWhile (· ≠ mark) = front ∧ (front ++ back).dropWhile (· ≠ mark) = back := by
  induction front with
  | nil =>
    rcases stops with rfl | ⟨rest, rfl⟩
    · exact ⟨rfl, rfl⟩
    · simp
  | cons c front ih =>
    obtain ⟨taken, dropped⟩ := ih fun d member => clear d (List.mem_cons_of_mem _ member)
    have other : c ≠ mark := clear c List.mem_cons_self
    simpa [other] using And.intro taken dropped

def assemble (whole : List Char) (fraction : Option (List Char)) (e : Option Int) : List Char :=
  whole ++ (fraction.elim [] ('.' :: ·) ++ e.elim [] exponentText)

theorem readExponent_exponentText (e : Int) : readExponent ((exponentText e).drop 1) = e := by
  have value := ofDigits_digitsOf e.natAbs
  unfold exponentText
  split
  · simp only [List.drop_succ_cons, List.drop_zero, readExponent, value]
    omega
  · simp only [List.drop_succ_cons, List.drop_zero, readExponent, value]
    omega

theorem read_assemble {whole : List Char} {fraction : Option (List Char)} {e : Option Int}
    (wholeDigits : ∀ c ∈ whole, c.isDigit = true)
    (fractionDigits : ∀ c ∈ fraction.getD [], c.isDigit = true) :
    read (assemble whole fraction e) = (Nat.ofDigitChars 10 (whole ++ fraction.getD []) 0,
      e.getD 0 - (fraction.getD []).length) := by
  have beforeExponent : ∀ c ∈ whole ++ fraction.elim [] ('.' :: ·), c ≠ 'e' := by
    intro c member
    rcases List.mem_append.mp member with inWhole | after
    · exact ne_of_digit (wholeDigits c inWhole) (by decide)
    · cases fraction with
      | none => cases after
      | some fraction =>
        rcases List.mem_cons.mp after with rfl | inFraction
        · decide
        · exact ne_of_digit (fractionDigits c inFraction) (by decide)
  have exponent : e.elim [] exponentText = [] ∨ ∃ rest, e.elim [] exponentText = 'e' :: rest := by
    cases e with
    | none => exact Or.inl rfl
    | some e => exact Or.inr ⟨_, rfl⟩
  have point : fraction.elim [] ('.' :: ·) = [] ∨ ∃ rest, fraction.elim [] ('.' :: ·) = '.' :: rest := by
    cases fraction with
    | none => exact Or.inl rfl
    | some fraction => exact Or.inr ⟨fraction, rfl⟩
  obtain ⟨mantissa, behind⟩ := cut beforeExponent exponent
  obtain ⟨front, rest⟩ := cut (fun c member => ne_of_digit (wholeDigits c member) (by decide)) point
  have value : readExponent ((e.elim [] exponentText).drop 1) = e.getD 0 := by
    cases e with
    | none => rfl
    | some e => exact readExponent_exponentText e
  have digits : (fraction.elim [] ('.' :: ·)).drop 1 = fraction.getD [] := by cases fraction <;> rfl
  simp only [read, assemble, ← List.append_assoc, mantissa, behind, front, rest, value, digits]

/-- How the digits are laid out: what is multiplied by a power of ten, and the power. -/
def shift (digits : Nat) (point : Int) : Nat :=
  if (digitsOf digits).length ≤ point ∧ point ≤ 21 then (point - (digitsOf digits).length).toNat else 0

theorem digits_zeros (n m : Nat) : ∀ c ∈ zeros m ++ digitsOf n, c.isDigit = true := by
  intro c member
  rcases List.mem_append.mp member with zero | digit
  · rw [List.eq_of_mem_replicate zero]
    rfl
  · exact digit_of_mem digit

theorem read_place (digits : Nat) (point : Int) :
    read (place digits point) = (digits * 10 ^ shift digits point,
      point - (digitsOf digits).length - shift digits point) := by
  have all : ∀ c ∈ digitsOf digits, c.isDigit = true := fun _ => digit_of_mem
  have value := ofDigits_digitsOf digits
  unfold place shift
  simp only []
  split
  · next fits =>
      have layout : digitsOf digits ++ zeros (point - (digitsOf digits).length).toNat =
          assemble (digitsOf digits ++ zeros (point - (digitsOf digits).length).toNat) none none :=
            by simp [assemble]
      rw [layout, read_assemble]
      · simp [Nat.ofDigitChars_append, value, zeros, Nat.ofDigitChars_replicate_zero, Nat.mul_comm]
        omega
      · intro c member
        exact digits_zeros digits (point - (digitsOf digits).length).toNat c (by simpa [or_comm] using member)
      · simp
  · split
    · next _ inside =>
        have layout : (digitsOf digits).take point.toNat ++ '.' :: (digitsOf digits).drop point.toNat =
            assemble ((digitsOf digits).take point.toNat)
              (some ((digitsOf digits).drop point.toNat)) none := by simp [assemble]
        rw [layout, read_assemble]
        · simp only [Option.getD_some, Option.getD_none, List.take_append_drop, value,
            List.length_drop, Prod.mk.injEq]
          omega
        · exact fun c member => all c (List.mem_of_mem_take member)
        · exact fun c member => all c (List.mem_of_mem_drop member)
    · split
      · next small =>
          have layout : '0' :: '.' :: (zeros (-point).toNat ++ digitsOf digits) =
              assemble ['0'] (some (zeros (-point).toNat ++ digitsOf digits)) none := by simp [assemble]
          rw [layout, read_assemble]
          · have leading : Nat.ofDigitChars 10 (['0'] ++ (zeros (-point).toNat ++ digitsOf digits)) 0 = digits := by
              have zero : Nat.ofDigitChars 10 ['0'] 0 = 0 := rfl
              rw [Nat.ofDigitChars_append, Nat.ofDigitChars_append, zero, zeros,
                Nat.ofDigitChars_replicate_zero, Nat.mul_zero, value]
            rw [Option.getD_some, leading]
            simp only [Option.getD_none, zeros, List.length_append, List.length_replicate, Prod.mk.injEq]
            omega
          · simp
          · exact digits_zeros digits _
      · split
        · next one =>
            have layout : digitsOf digits ++ exponentText (point - 1) =
                assemble (digitsOf digits) none (some (point - 1)) := by simp [assemble]
            rw [layout, read_assemble all (by simp)]
            simp [value, one]
        · next more =>
            have layout : (digitsOf digits).take 1 ++ '.' ::
                ((digitsOf digits).drop 1 ++ exponentText (point - 1)) =
                assemble ((digitsOf digits).take 1) (some ((digitsOf digits).drop 1))
                  (some (point - 1)) := by simp [assemble]
            rw [layout, read_assemble]
            · have some : 0 < (digitsOf digits).length := Nat.length_toDigits_pos
              simp only [Option.getD_some, List.take_append_drop, value, List.length_drop, Prod.mk.injEq]
              omega
            · exact fun c member => all c (List.mem_of_mem_take member)
            · exact fun c member => all c (List.mem_of_mem_drop member)

/-- A number without a zero at its end is not a multiple of ten. -/
theorem shift_unique {s t a b : Nat} (left : s % 10 ≠ 0) (right : t % 10 ≠ 0)
    (same : s * 10 ^ a = t * 10 ^ b) : s = t ∧ a = b := by
  have not_less : ∀ {s t a b : Nat}, s % 10 ≠ 0 → s * 10 ^ a = t * 10 ^ b → ¬a < b := by
    intro s t a b proper same less
    obtain ⟨more, rfl⟩ : ∃ more, b = a + (more + 1) := ⟨b - a - 1, by omega⟩
    have regroup : ∀ x y : Nat, t * (x * (y * 10)) = t * y * 10 * x := by intro x y; ac_rfl
    have reduced : s = t * 10 ^ more * 10 := by
      apply Nat.eq_of_mul_eq_mul_right (Nat.pow_pos (n := a) (by decide : 0 < 10))
      rw [same, Nat.pow_add, Nat.pow_succ]
      exact regroup _ _
    omega
  have equal : a = b := by
    have := not_less left same
    have := not_less right same.symm
    omega
  subst equal
  exact ⟨Nat.eq_of_mul_eq_mul_right (Nat.pow_pos (by decide)) same, rfl⟩

theorem place_injective {s t : Nat} {m n : Int} (left : s % 10 ≠ 0) (right : t % 10 ≠ 0)
    (same : place s m = place t n) : s = t ∧ m = n := by
  have readings := congrArg read same
  rw [read_place, read_place] at readings
  obtain ⟨values, powers⟩ := Prod.mk.inj readings
  obtain ⟨rfl, shifts⟩ := shift_unique left right values
  refine ⟨rfl, ?_⟩
  omega

theorem place_head (digits : Nat) (point : Int) : ∃ c rest, place digits point = c :: rest ∧ c.isDigit = true := by
  have some : 0 < (digitsOf digits).length := Nat.length_toDigits_pos
  obtain ⟨first, rest, shape⟩ := List.exists_cons_of_length_pos some
  have digit : first.isDigit = true := digit_of_mem (by rw [shape]; exact List.mem_cons_self)
  unfold place
  simp only [shape]
  split
  · exact ⟨first, _, rfl, digit⟩
  · split
    · next inside =>
        obtain ⟨before, same⟩ : ∃ before, point.toNat = before + 1 := ⟨point.toNat - 1, by omega⟩
        rw [same]
        exact ⟨first, _, rfl, digit⟩
    · split
      · exact ⟨'0', _, rfl, rfl⟩
      · split
        · exact ⟨first, _, rfl, digit⟩
        · exact ⟨first, _, rfl, digit⟩

/-- Numbers that print alike are alike. -/
theorem text_injective {a b : Decimal} (same : a.text = b.text) : a = b := by
  have zero_read : read ['0'] = (0, 0) := by decide
  have not_zero : ∀ {s : Nat} {m : Int}, s % 10 ≠ 0 → place s m ≠ ['0'] := by
    intro s m proper same
    have values := (Prod.mk.inj ((read_place s m).symm.trans ((congrArg read same).trans zero_read))).1
    have : s = 0 := by
      rcases Nat.mul_eq_zero.mp values with none | power
      · exact none
      · exact absurd power (Nat.ne_of_gt (Nat.pow_pos (by decide)))
    omega
  have not_minus : ∀ {s : Nat} {m : Int} {rest : List Char}, place s m ≠ '-' :: rest := by
    intro s m rest same
    obtain ⟨c, after, shape, digit⟩ := place_head s m
    rw [shape] at same
    cases same
    cases digit
  cases a with
  | zero =>
    cases b with
    | zero => rfl
    | nonzero negative t n proper =>
      cases negative
      · exact absurd same.symm (not_zero proper)
      · cases same
  | nonzero negative s m proper =>
    cases b with
    | zero =>
      cases negative
      · exact absurd same (not_zero proper)
      · cases same
    | nonzero other t n otherProper =>
      cases negative <;> cases other
      · obtain ⟨rfl, rfl⟩ := place_injective proper otherProper same
        rfl
      · exact absurd same not_minus
      · exact absurd same.symm not_minus
      · obtain ⟨rfl, rfl⟩ := place_injective proper otherProper (List.cons.inj same).2
        rfl

/-- The characters that a number may be written with. -/
def numeral (c : Char) : Bool := c.isDigit || ['+', '-', '.', 'e'].contains c

theorem numeral_of_digit {c : Char} (digit : c.isDigit = true) : numeral c = true := by simp [numeral, digit]

theorem numeral_exponentText (e : Int) : (exponentText e).all numeral = true := by
  have digits : (digitsOf e.natAbs).all numeral = true := List.all_eq_true.mpr fun c member =>
      numeral_of_digit (digit_of_mem member)
  unfold exponentText
  split <;> simp [digits] <;> decide

theorem numeral_place (digits : Nat) (point : Int) : (place digits point).all numeral = true := by
  have written : ∀ c ∈ digitsOf digits, numeral c = true := fun c member => numeral_of_digit (digit_of_mem member)
  have ds : (digitsOf digits).all numeral = true := List.all_eq_true.mpr written
  have front : ∀ n, ((digitsOf digits).take n).all numeral = true :=
    fun n => List.all_eq_true.mpr fun c member => written c (List.mem_of_mem_take member)
  have back : ∀ n, ((digitsOf digits).drop n).all numeral = true :=
    fun n => List.all_eq_true.mpr fun c member => written c (List.mem_of_mem_drop member)
  have zero : numeral '0' = true := by decide
  have point : numeral '.' = true := by decide
  have noughts : ∀ n, (zeros n).all numeral = true := fun n => by simp [zeros, zero]
  unfold place
  simp only []
  split
  · simp only [List.all_append, ds, noughts, Bool.and_self]
  · split
    · simp only [List.all_append, List.all_cons, front, back, point, Bool.and_self]
    · split
      · simp only [List.all_append, List.all_cons, zero, point, noughts, ds, Bool.and_self]
      · split
        · simp only [List.all_append, ds, numeral_exponentText, Bool.and_self]
        · simp only [List.all_append, List.all_cons, front, back, point, numeral_exponentText, Bool.and_self]

theorem numeral_text (d : Decimal) : d.text.all numeral = true := by
  cases d with
  | zero => decide
  | nonzero negative digits point proper =>
    have minus : numeral '-' = true := by decide
    cases negative <;> simp [text, numeral_place, minus]

/-- A number begins with a digit or a minus sign. -/
theorem text_head (d : Decimal) : ∃ c rest, d.text = c :: rest ∧ (c.isDigit = true ∨ c = '-') := by
  cases d with
  | zero => exact ⟨'0', [], rfl, Or.inl rfl⟩
  | nonzero negative digits point proper =>
    obtain ⟨c, rest, shape, digit⟩ := place_head digits point
    cases negative
    · exact ⟨c, rest, shape, Or.inl digit⟩
    · exact ⟨'-', place digits point, rfl, Or.inr rfl⟩

/-- The number without the zeros at its end. -/
def strip : Nat → Nat → Nat
  | 0, n => n
  | fuel + 1, n => if n % 10 = 0 then strip fuel (n / 10) else n

theorem strip_proper {fuel n : Nat} (positive : 0 < n) (enough : n ≤ fuel) : strip fuel n % 10 ≠ 0 := by
  induction fuel generalizing n with
  | zero => omega
  | succ fuel ih =>
    unfold strip
    split
    · exact ih (by omega) (by omega)
    · assumption

def ofNat (n : Nat) : Decimal :=
  if positive :
    0 < n then nonzero false (strip n n) (digitsOf n).length (strip_proper positive (Nat.le_refl n)) else zero

example : (ofNat 21600000).text = "21600000".toList := by decide +kernel

end Decimal

end ProxyPilot.Data
