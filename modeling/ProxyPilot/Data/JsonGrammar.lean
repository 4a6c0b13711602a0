import ProxyPilot.Data.Json
import ProxyPilot.Data.Text
import ProxyPilot.Data.Utf16

namespace ProxyPilot.Data

/-! # The grammar of JSON

What a text is read as, as a relation between a text, the value in front and the
text behind it, and a parser that decides it.
-/

namespace JsonGrammar

open Json (space skip fourHex simpleEscape)

/-- A JSON value. A number is its numeral, an object the list of its members. -/
inductive Tree where
  | null
  | bool (value : Bool)
  | number (numeral : List Char)
  | text (units : Units)
  | array (items : List Tree)
  | object (members : List (Units × Tree))

def Digits (text : List Char) : Prop := ∀ c ∈ text, c.isDigit = true

def Sign (text : List Char) : Prop := text = [] ∨ text = ['-']

def Whole (text : List Char) : Prop := text = ['0'] ∨ (text ≠ [] ∧ text.head? ≠ some '0' ∧ Digits text)

def Fraction (text : List Char) : Prop := text = [] ∨ ∃ digits, text = '.' :: digits ∧ digits ≠ [] ∧ Digits digits

def Exponent (text : List Char) : Prop :=
  text = [] ∨ ∃ e sign digits, text = e :: (sign ++ digits) ∧ (e = 'e' ∨ e = 'E') ∧
    (sign = [] ∨ sign = ['+'] ∨ sign = ['-']) ∧ digits ≠ [] ∧ Digits digits

def Numeral (text : List Char) : Prop :=
  ∃ sign whole fraction exponent, text = sign ++ (whole ++ (fraction ++ exponent)) ∧ Sign sign ∧ Whole whole ∧
    Fraction fraction ∧ Exponent exponent

/-- The code units of a string behind its opening quote, up to the text behind the closing one. -/
inductive Letters : List Char → Units → List Char → Prop
  | close {rest} : Letters ('"' :: rest) [] rest
  | plain {c text units rest} (notQuote : c ≠ '"') (notEscape : c ≠ '\\') (printable : 32 ≤ c.toNat)
      (more : Letters text units rest) : Letters (c :: text) (Utf16.encodeChar c ++ units) rest
  | simple {e c text units rest} (escape : simpleEscape e = some c) (more : Letters text units rest) :
      Letters ('\\' :: e :: text) (Utf16.encodeChar c ++ units) rest
  | hex {a b c d code text units rest} (escape : fourHex a b c d = some code) (more : Letters text units rest) :
      Letters ('\\' :: 'u' :: a :: b :: c :: d :: text) (UInt16.ofNat code :: units) rest

inductive Blank : List Char → List Char → Prop
  | none {text} : Blank text text
  | more {c text rest} (white : space c = true) (blank : Blank text rest) : Blank (c :: text) rest

mutual

inductive Value : List Char → Tree → List Char → Prop
  | null {rest} : Value ('n' :: 'u' :: 'l' :: 'l' :: rest) .null rest
  | true {rest} : Value ('t' :: 'r' :: 'u' :: 'e' :: rest) (.bool true) rest
  | false {rest} : Value ('f' :: 'a' :: 'l' :: 's' :: 'e' :: rest) (.bool false) rest
  | number {numeral rest} (written : Numeral numeral) : Value (numeral ++ rest) (.number numeral) rest
  | text {body units rest} (letters : Letters body units rest) : Value ('"' :: body) (.text units) rest
  | noItems {inside rest} (blank : Blank inside (']' :: rest)) : Value ('[' :: inside) (.array []) rest
  | array {inside items rest} (read : Items inside items rest) : Value ('[' :: inside) (.array items) rest
  | noMembers {inside rest} (blank : Blank inside ('\x7d' :: rest)) : Value ('\x7b' :: inside) (.object []) rest
  | object {inside members rest} (read : Members inside members rest) :
      Value ('\x7b' :: inside) (.object members) rest

inductive Items : List Char → List Tree → List Char → Prop
  | last {inside text item after rest} (before : Blank inside text) (value : Value text item after)
      (behind : Blank after (']' :: rest)) : Items inside [item] rest
  | more {inside text item after others items rest} (before : Blank inside text) (value : Value text item after)
      (behind : Blank after (',' :: others)) (read : Items others items rest) : Items inside (item :: items) rest

inductive Member : List Char → Units × Tree → List Char → Prop
  | mk {inside body name named text next value rest} (before : Blank inside ('"' :: body))
      (letters : Letters body name named)
      (colon : Blank named (':' :: text)) (blank : Blank text next) (read : Value next value rest) :
      Member inside (name, value) rest

inductive Members : List Char → List (Units × Tree) → List Char → Prop
  | last {inside member after rest} (first : Member inside member after) (behind : Blank after ('\x7d' :: rest)) :
      Members inside [member] rest
  | more {inside member after others members rest} (first : Member inside member after)
      (behind : Blank after (',' :: others)) (read : Members others members rest) :
      Members inside (member :: members) rest

end

/-- A whole text that is one value. -/
def Text (text : List Char) (value : Tree) : Prop :=
  ∃ inside behind, Blank text inside ∧ Value inside value behind ∧ Blank behind []

/-- The front of the text that passes, unless it is empty. -/
def digits (text : List Char) : Option (List Char × List Char) :=
  if text.takeWhile Char.isDigit = [] then none else some (text.takeWhile Char.isDigit, text.dropWhile Char.isDigit)

def sign : List Char → List Char × List Char
  | '-' :: rest => (['-'], rest)
  | text => ([], text)

def whole : List Char → Option (List Char × List Char)
  | '0' :: rest => some (['0'], rest)
  | text => digits text

def fraction : List Char → List Char × List Char
  | '.' :: rest =>
    match digits rest with
    | some (run, rest) => ('.' :: run, rest)
    | none => ([], '.' :: rest)
  | text => ([], text)

def exponentSign : List Char → List Char × List Char
  | '+' :: rest => (['+'], rest)
  | '-' :: rest => (['-'], rest)
  | text => ([], text)

def exponent : List Char → List Char × List Char
  | c :: rest =>
    if c = 'e' ∨ c = 'E' then
      match digits (exponentSign rest).2 with
      | some (run, after) => (c :: ((exponentSign rest).1 ++ run), after)
      | none => ([], c :: rest)
    else ([], c :: rest)
  | [] => ([], [])

/-- The longest numeral in front of a text. -/
def numeral (text : List Char) : Option (List Char × List Char) :=
  (whole (sign text).2).map fun (digits, rest) =>
    ((sign text).1 ++ (digits ++ ((fraction rest).1 ++ (exponent (fraction rest).2).1)),
      (exponent (fraction rest).2).2)

def letters : List Char → Option (Units × List Char)
  | [] => none
  | '"' :: rest => some ([], rest)
  | '\\' :: 'u' :: a :: b :: c :: d :: rest =>
    (fourHex a b c d).bind fun code => (letters rest).map fun (units, after) => (UInt16.ofNat code :: units, after)
  | '\\' :: e :: rest =>
    (simpleEscape e).bind fun c => (letters rest).map fun (units, after) => (Utf16.encodeChar c ++ units, after)
  | c :: rest =>
    if c = '\\' ∨ c.toNat < 32 then none
    else (letters rest).map fun (units, after) => (Utf16.encodeChar c ++ units, after)

def scalar : List Char → Option (Tree × List Char)
  | 'n' :: 'u' :: 'l' :: 'l' :: rest => some (.null, rest)
  | 't' :: 'r' :: 'u' :: 'e' :: rest => some (.bool true, rest)
  | 'f' :: 'a' :: 'l' :: 's' :: 'e' :: rest => some (.bool false, rest)
  | text => (numeral text).map fun (numeral, rest) => (.number numeral, rest)

mutual

def value : Nat → List Char → Option (Tree × List Char)
  | 0, _ => none
  | fuel + 1, text =>
    match skip text with
    | '\x7b' :: inside =>
      match skip inside with
      | '\x7d' :: rest => some (.object [], rest)
      | _ => (members fuel inside).map fun (members, rest) => (.object members, rest)
    | '[' :: inside =>
      match skip inside with
      | ']' :: rest => some (.array [], rest)
      | _ => (items fuel inside).map fun (items, rest) => (.array items, rest)
    | '"' :: body => (letters body).map fun (units, rest) => (.text units, rest)
    | other => scalar other

def items : Nat → List Char → Option (List Tree × List Char)
  | 0, _ => none
  | fuel + 1, text =>
    (value fuel text).bind fun (item, after) =>
      match skip after with
      | ']' :: rest => some ([item], rest)
      | ',' :: others => (items fuel others).map fun (items, rest) => (item :: items, rest)
      | _ => none

def members : Nat → List Char → Option (List (Units × Tree) × List Char)
  | 0, _ => none
  | fuel + 1, text =>
    match skip text with
    | '"' :: body =>
      (letters body).bind fun (name, named) =>
        match skip named with
        | ':' :: inside =>
          (value fuel inside).bind fun (item, after) =>
            match skip after with
            | '\x7d' :: rest => some ([(name, item)], rest)
            | ',' :: others => (members fuel others).map fun (members, rest) => ((name, item) :: members, rest)
            | _ => none
        | _ => none
    | _ => none

end

/-- `JSON.parse` -/
def parse (text : List Char) : Option Tree :=
  match value (2 * text.length + 1) text with
  | some (value, rest) => if skip rest = [] then some value else none
  | none => none

section

-- the proofs below ask for the equations of the parser: here they are made once
attribute [local simp] digits sign whole fraction exponentSign exponent numeral letters scalar value items members

end

section Steps

variable {fuel : Nat} {text inside rest body : List Char}

theorem value_noMembers (front : skip text = '\x7b' :: inside) (empty : skip inside = '\x7d' :: rest) :
    value (fuel + 1) text = some (.object [], rest) := by
  simp [value, front, empty]

theorem value_members (front : skip text = '\x7b' :: inside) (other : ∀ rest, skip inside ≠ '\x7d' :: rest) :
    value (fuel + 1) text = (members fuel inside).map fun (members, rest) => (.object members, rest) := by
  simp only [value, front]

theorem value_noItems (front : skip text = '[' :: inside) (empty : skip inside = ']' :: rest) :
    value (fuel + 1) text = some (.array [], rest) := by
  simp [value, front, empty]

theorem value_items (front : skip text = '[' :: inside) (other : ∀ rest, skip inside ≠ ']' :: rest) :
    value (fuel + 1) text = (items fuel inside).map fun (items, rest) => (.array items, rest) := by
  simp only [value, front]

theorem value_text (front : skip text = '"' :: body) :
    value (fuel + 1) text = (letters body).map fun (units, rest) => (.text units, rest) := by
  simp only [value, front]

theorem value_scalar (object : ∀ inside, skip text ≠ '\x7b' :: inside) (array : ∀ inside, skip text ≠ '[' :: inside)
    (string : ∀ body, skip text ≠ '"' :: body) : value (fuel + 1) text = scalar (skip text) := by
  rw [value]
  split
  · exact absurd ‹_› (object _)
  · exact absurd ‹_› (array _)
  · exact absurd ‹_› (string _)
  · rfl

theorem members_name (front : skip text = '"' :: body) : members (fuel + 1) text =
    (letters body).bind fun (name, named) =>
      match skip named with
      | ':' :: inside =>
        (value fuel inside).bind fun (item, after) =>
          match skip after with
          | '\x7d' :: rest => some ([(name, item)], rest)
          | ',' :: others => (members fuel others).map fun (members, rest) => ((name, item) :: members, rest)
          | _ => none
      | _ => none := by
  simp only [members, front]

theorem members_none (other : ∀ body, skip text ≠ '"' :: body) : members (fuel + 1) text = none := by
  rw [members]
  split
  · exact absurd ‹_› (other _)
  · rfl

end Steps

theorem digits_sound {text run rest : List Char} (read : digits text = some (run, rest)) :
    text = run ++ rest ∧ run ≠ [] ∧ Digits run := by
  simp only [digits] at read
  split at read
  · contradiction
  · next some_digit =>
      cases read
      exact ⟨List.takeWhile_append_dropWhile.symm, some_digit, fun c member => mem_takeWhile member⟩

theorem digits_complete {run rest : List Char} (all : Digits run) (some_digit : run ≠ [])
    (stops : Stops Char.isDigit rest) :
    digits (run ++ rest) = some (run, rest) := by
  simp [digits, takeWhile_run all stops, dropWhile_run all stops, some_digit]

theorem sign_sound (text : List Char) : text = (sign text).1 ++ (sign text).2 ∧ Sign (sign text).1 := by
  unfold sign
  split
  · exact ⟨rfl, .inr rfl⟩
  · exact ⟨rfl, .inl rfl⟩

theorem whole_sound {text run rest : List Char} (read : whole text = some (run, rest)) :
    text = run ++ rest ∧ Whole run := by
  unfold whole at read
  split at read
  · cases read
    exact ⟨rfl, .inl rfl⟩
  · next other =>
      obtain ⟨rfl, some_digit, all⟩ := digits_sound read
      refine ⟨rfl, .inr ⟨some_digit, fun zero => ?_, all⟩⟩
      cases run with
      | nil => exact some_digit rfl
      | cons c run =>
        cases Option.some.inj zero
        exact other (run ++ rest) rfl

theorem fraction_sound (text : List Char) : text = (fraction text).1 ++ (fraction text).2 ∧
    Fraction (fraction text).1 := by
  unfold fraction
  split
  · next rest =>
      cases read : digits rest with
      | none => exact ⟨rfl, .inl rfl⟩
      | some pair =>
        obtain ⟨rfl, some_digit, all⟩ := digits_sound read
        exact ⟨rfl, .inr ⟨pair.1, rfl, some_digit, all⟩⟩
  · exact ⟨rfl, .inl rfl⟩

theorem exponentSign_sound (text : List Char) : text = (exponentSign text).1 ++ (exponentSign text).2 ∧
    ((exponentSign text).1 = [] ∨ (exponentSign text).1 = ['+'] ∨ (exponentSign text).1 = ['-']) := by
  unfold exponentSign
  split <;> simp

theorem exponent_sound (text : List Char) : text = (exponent text).1 ++ (exponent text).2 ∧
    Exponent (exponent text).1 := by
  cases text with
  | nil => exact ⟨rfl, .inl rfl⟩
  | cons c rest =>
    obtain ⟨whole_rest, signed⟩ := exponentSign_sound rest
    simp only [exponent]
    split
    case isFalse => exact ⟨rfl, .inl rfl⟩
    case isTrue marks =>
      cases read : digits (exponentSign rest).2 with
      | none => exact ⟨rfl, .inl rfl⟩
      | some pair =>
        obtain ⟨after, some_digit, all⟩ := digits_sound read
        refine ⟨?_, .inr ⟨c, _, pair.1, rfl, marks, signed, some_digit, all⟩⟩
        rw [List.cons_append, List.append_assoc, ← after, ← whole_rest]

theorem numeral_sound {text run rest : List Char} (read : numeral text = some (run, rest)) :
    text = run ++ rest ∧ Numeral run := by
  obtain ⟨⟨digits, after⟩, isWhole, read⟩ := Option.map_eq_some_iff.mp read
  cases read
  obtain ⟨signed, isSign⟩ := sign_sound text
  obtain ⟨wholly, isWhole⟩ := whole_sound isWhole
  obtain ⟨fractional, isFraction⟩ := fraction_sound after
  obtain ⟨raised, isExponent⟩ := exponent_sound (fraction after).2
  refine ⟨?_, _, _, _, _, rfl, isSign, isWhole, isFraction, isExponent⟩
  calc text = (sign text).1 ++ (digits ++
    ((fraction after).1 ++ (fraction after).2)) := by rw [← fractional, ← wholly, ← signed]
    _ = _ := by simp only [List.append_assoc, ← raised]

/-- What goes on with a numeral. -/
def numeralChar (c : Char) : Bool := c.isDigit || c == '.' || c == 'e' || c == 'E'

theorem whole_complete {run rest : List Char} (isWhole : Whole run) (stops : Stops Char.isDigit rest) :
    whole (run ++ rest) = some (run, rest) := by
  rcases isWhole with rfl | ⟨some_digit, notZero, all⟩
  · rfl
  · have read := digits_complete all some_digit stops
    cases run with
    | nil => exact absurd rfl some_digit
    | cons c run =>
      have other : c ≠ '0' := by simpa using notZero
      simpa [whole, other] using read

theorem fraction_complete {run rest : List Char} (isFraction : Fraction run)
    (stops : Stops (fun c => c.isDigit || c == '.') rest) : fraction (run ++ rest) = (run, rest) := by
  rcases isFraction with rfl | ⟨digits, rfl, some_digit, all⟩
  · cases rest with
    | nil => rfl
    | cons c rest =>
      have other : c ≠ '.' := by have := stops_cons.mp stops; simp_all
      simp [fraction, other]
  · have read : JsonGrammar.digits (_ ++ rest) = _ := digits_complete all some_digit fun c member => by
      have := stops c member
      simp_all
    simp [fraction, read]

theorem exponentSign_complete {sign run rest : List Char} (isSign : sign = [] ∨ sign = ['+'] ∨ sign = ['-'])
    (some_digit : run ≠ []) (all : Digits run) : exponentSign (sign ++ (run ++ rest)) = (sign, run ++ rest) := by
  rcases isSign with rfl | rfl | rfl
  · cases run with
    | nil => exact absurd rfl some_digit
    | cons c run =>
      have digit := all c List.mem_cons_self
      have plus : c ≠ '+' := by rintro rfl; exact absurd digit (by decide)
      have minus : c ≠ '-' := by rintro rfl; exact absurd digit (by decide)
      simp [exponentSign, plus, minus]
  · rfl
  · rfl

theorem exponent_complete {run rest : List Char} (isExponent : Exponent run) (stops : Stops numeralChar rest) :
    exponent (run ++ rest) = (run, rest) := by
  rcases isExponent with rfl | ⟨e, sign, digits, rfl, marks, isSign, some_digit, all⟩
  · cases rest with
    | nil => rfl
    | cons c rest =>
      have other : ¬ (c = 'e' ∨ c = 'E') := by have := stops_cons.mp stops; simp_all [numeralChar]
      simp [exponent, other]
  · have read : JsonGrammar.digits (_ ++ rest) = _ := digits_complete all some_digit fun c member => by
      have := stops c member
      simp_all [numeralChar]
    simp [exponent, marks, exponentSign_complete isSign some_digit all, read]

theorem stops_exponent {run rest : List Char} (isExponent : Exponent run) (stops : Stops numeralChar rest) :
    Stops (fun c => c.isDigit || c == '.') (run ++ rest) := by
  rcases isExponent with rfl | ⟨e, sign, digits, rfl, rfl | rfl, -⟩
  · intro c member
    have := stops c member
    simp_all [numeralChar]
  · exact stops_cons.mpr (by decide)
  · exact stops_cons.mpr (by decide)

theorem stops_fraction {run rest : List Char} (isFraction : Fraction run)
    (stops : Stops (fun c => c.isDigit || c == '.') rest) : Stops Char.isDigit (run ++ rest) := by
  rcases isFraction with rfl | ⟨digits, rfl, -⟩
  · intro c member
    have := stops c member
    simp_all
  · exact stops_cons.mpr (by decide)

variable {run : List Char} {text rest : List Char} {units : Units} {read : Tree}

theorem whole_head (isWhole : Whole run) : ∃ c rest, run = c :: rest ∧ c.isDigit = true := by
  rcases isWhole with rfl | ⟨some_digit, -, all⟩
  · exact ⟨'0', [], rfl, by decide⟩
  · cases run with
    | nil => exact absurd rfl some_digit
    | cons c rest => exact ⟨c, rest, rfl, all c List.mem_cons_self⟩

theorem sign_complete {run rest : List Char} (isSign : Sign run)
    (digit : ∃ c after, rest = c :: after ∧ c.isDigit = true) :
    sign (run ++ rest) = (run, rest) := by
  rcases isSign with rfl | rfl
  · obtain ⟨c, after, rfl, digit⟩ := digit
    have minus : c ≠ '-' := by rintro rfl; exact absurd digit (by decide)
    simp [sign, minus]
  · rfl

/-- A numeral is read to its end where the text does not go on with it. -/
theorem numeral_complete {run rest : List Char} (isNumeral : Numeral run) (stops : Stops numeralChar rest) :
    numeral (run ++ rest) = some (run, rest) := by
  obtain ⟨signed, digits, fractional, raised, rfl, isSign, isWhole, isFraction, isExponent⟩ := isNumeral
  have behind := stops_exponent isExponent stops
  have first : sign (signed ++ (digits ++ (fractional ++ (raised ++ rest)))) =
      (signed, digits ++ (fractional ++ (raised ++ rest))) := by
    obtain ⟨c, after, rfl, digit⟩ := whole_head isWhole
    exact sign_complete isSign ⟨c, _, rfl, digit⟩
  simp only [numeral, List.append_assoc, first, whole_complete isWhole (stops_fraction isFraction behind),
    Option.map_some, fraction_complete isFraction behind, exponent_complete isExponent stops]

theorem letters_sound (read : letters text = some (units, rest)) :
    Letters text units rest := by
  fun_induction letters text generalizing units rest with
  | case1 => contradiction
  | case2 => cases read; exact .close
  | case3 a b c d text ih =>
    obtain ⟨code, escape, read⟩ := Option.bind_eq_some_iff.mp read
    obtain ⟨⟨more, after⟩, read, same⟩ := Option.map_eq_some_iff.mp read
    cases same
    exact .hex escape (ih read)
  | case4 e text other ih =>
    obtain ⟨c, escape, read⟩ := Option.bind_eq_some_iff.mp read
    obtain ⟨⟨more, after⟩, read, same⟩ := Option.map_eq_some_iff.mp read
    cases same
    exact .simple escape (ih read)
  | case5 => contradiction
  | case6 c text notQuote notHex notEscape allowed ih =>
    obtain ⟨⟨more, after⟩, read, same⟩ := Option.map_eq_some_iff.mp read
    cases same
    rw [not_or] at allowed
    exact .plain (fun quote => notQuote quote) allowed.1 (by omega) (ih read)

theorem letters_complete (written : Letters text units rest) :
    letters text = some (units, rest) := by
  induction written with
  | close => simp [letters]
  | plain _ notEscape printable _ ih =>
    have low : ¬ _ < 32 := Nat.not_lt.mpr printable
    simp [letters, notEscape, low, ih]
  | @simple e _ _ _ _ escape _ ih =>
    have notHex : e ≠ 'u' := by rintro rfl; simp [simpleEscape] at escape
    simp [letters, notHex, escape, ih]
  | hex escape _ ih => simp [letters, escape, ih]

theorem blank_skip (text : List Char) : Blank text (skip text) := by
  induction text with
  | nil => exact .none
  | cons c text ih =>
    by_cases white : space c = true
    · simpa [skip, white] using Blank.more white ih
    · simpa [skip, white] using Blank.none

/-- What is no blank ends the blanks. -/
theorem skip_of_blank (blank : Blank text rest) (stops : Stops space rest) : skip text = rest := by
  induction blank with
  | @none text =>
    cases text with
    | nil => rfl
    | cons c text => simp [skip, stops_cons.mp stops]
  | more white _ ih => simpa [skip, white] using ih stops

theorem blank_length (blank : Blank text rest) : rest.length ≤ text.length := by
  induction blank with
  | none => exact Nat.le_refl _
  | more _ _ ih => simp only [List.length_cons]; omega

/-- Behind blanks and a sign of structure no numeral goes on. -/
theorem stops_of_blank {c : Char} (blank : Blank text (c :: rest)) (ends : numeralChar c = false) :
    Stops numeralChar text := by
  generalize same : c :: rest = behind at blank
  cases blank with
  | none => exact same ▸ stops_cons.mpr ends
  | @more first _ _ white _ =>
    refine stops_cons.mpr ?_
    have whites : first = ' ' ∨ first = '\n' ∨ first = '\r' ∨ first = '\t' := by simpa [space, or_assoc] using white
    rcases whites with rfl | rfl | rfl | rfl <;> decide

theorem scalar_sound (parsed : scalar text = some (read, rest)) : Value text read rest := by
  unfold scalar at parsed
  split at parsed
  · cases parsed; exact .null
  · cases parsed; exact .true
  · cases parsed; exact .false
  · obtain ⟨⟨run, after⟩, found, same⟩ := Option.map_eq_some_iff.mp parsed
    cases same
    obtain ⟨rfl, isNumeral⟩ := numeral_sound found
    exact .number isNumeral

mutual

theorem value_sound {fuel : Nat} {text rest : List Char} {read : Tree}
    (parsed : value fuel text = some (read, rest)) :
    ∃ inside, Blank text inside ∧ Value inside read rest := by
  cases fuel with
  | zero => contradiction
  | succ fuel =>
    refine ⟨skip text, blank_skip text, ?_⟩
    unfold value at parsed
    split at parsed
    · next inside shape =>
        have blank := blank_skip inside
        split at parsed
        · next empty =>
            cases parsed
            rw [shape]
            exact .noMembers (empty ▸ blank)
        · obtain ⟨⟨members, after⟩, found, same⟩ := Option.map_eq_some_iff.mp parsed
          cases same
          exact shape ▸ .object (members_sound found)
    · next inside shape =>
        have blank := blank_skip inside
        split at parsed
        · next empty =>
            cases parsed
            rw [shape]
            exact .noItems (empty ▸ blank)
        · obtain ⟨⟨items, after⟩, found, same⟩ := Option.map_eq_some_iff.mp parsed
          cases same
          exact shape ▸ .array (items_sound found)
    · next body shape =>
        obtain ⟨⟨units, after⟩, found, same⟩ := Option.map_eq_some_iff.mp parsed
        cases same
        exact shape ▸ .text (letters_sound found)
    · exact scalar_sound parsed

theorem items_sound {fuel : Nat} {text rest : List Char} {read : List Tree}
    (parsed : items fuel text = some (read, rest)) :
    Items text read rest := by
  cases fuel with
  | zero => contradiction
  | succ fuel =>
    unfold items at parsed
    obtain ⟨⟨item, after⟩, found, parsed⟩ := Option.bind_eq_some_iff.mp parsed
    obtain ⟨inside, before, value⟩ := value_sound found
    have behind := blank_skip after
    dsimp only at parsed
    split at parsed
    · next shape =>
        cases parsed
        exact .last before value (shape ▸ behind)
    · next others shape =>
        obtain ⟨⟨items, left⟩, found, same⟩ := Option.map_eq_some_iff.mp parsed
        cases same
        exact .more before value (shape ▸ behind) (items_sound found)
    · contradiction

theorem members_sound {fuel : Nat} {text rest : List Char} {read : List (Units × Tree)}
    (parsed : members fuel text = some (read, rest)) : Members text read rest := by
  cases fuel with
  | zero => contradiction
  | succ fuel =>
    have before := blank_skip text
    unfold members at parsed
    split at parsed
    case h_2 => contradiction
    next body shape =>
    obtain ⟨⟨name, named⟩, letters, parsed⟩ := Option.bind_eq_some_iff.mp parsed
    have colon := blank_skip named
    dsimp only at parsed
    split at parsed
    case h_2 => contradiction
    next inside colon_shape =>
    obtain ⟨⟨item, after⟩, found, parsed⟩ := Option.bind_eq_some_iff.mp parsed
    obtain ⟨next, blank, value⟩ := value_sound found
    have behind := blank_skip after
    have first : Member text (name, item) after :=
      .mk (shape ▸ before) (letters_sound letters) (colon_shape ▸ colon) blank value
    dsimp only at parsed
    split at parsed
    · next shape =>
        cases parsed
        exact .last first (shape ▸ behind)
    · next others shape =>
        obtain ⟨⟨members, left⟩, found, same⟩ := Option.map_eq_some_iff.mp parsed
        cases same
        exact .more first (shape ▸ behind) (members_sound found)
    · contradiction

end

theorem letters_length (written : Letters text units rest) : rest.length < text.length := by
  induction written <;> simp only [List.length_cons] <;> omega

theorem numeral_length (isNumeral : Numeral run) : 0 < run.length := by
  obtain ⟨signed, digits, fractional, raised, rfl, -, isWhole, -⟩ := isNumeral
  obtain ⟨c, more, rfl, -⟩ := whole_head isWhole
  simp only [List.length_append, List.length_cons]
  omega

mutual

theorem value_length {text rest : List Char} {read : Tree} : Value text read rest → rest.length < text.length
  | .null => by simp only [List.length_cons]; omega
  | .true => by simp only [List.length_cons]; omega
  | .false => by simp only [List.length_cons]; omega
  | .number written => by have := numeral_length written; simp only [List.length_append]; omega
  | .text written => by have := letters_length written; simp only [List.length_cons]; omega
  | .noItems blank => by have := blank_length blank; simp only [List.length_cons] at *; omega
  | .array read => by have := items_length read; simp only [List.length_cons]; omega
  | .noMembers blank => by have := blank_length blank; simp only [List.length_cons] at *; omega
  | .object read => by have := members_length read; simp only [List.length_cons]; omega

theorem items_length {text rest : List Char} {read : List Tree} : Items text read rest → rest.length < text.length
  | .last before value behind => by
    have := blank_length before; have := value_length value; have := blank_length behind
    simp only [List.length_cons] at *
    omega
  | .more before value behind read => by
    have := blank_length before; have := value_length value; have := blank_length behind; have := items_length read
    simp only [List.length_cons] at *
    omega

theorem member_length {text rest : List Char} {read : Units × Tree} :
    Member text read rest → rest.length < text.length
  | .mk before letters colon blank read => by
    have := blank_length before; have := letters_length letters; have := blank_length colon
    have := blank_length blank; have := value_length read
    simp only [List.length_cons] at *
    omega

theorem members_length {text rest : List Char} {read : List (Units × Tree)} :
    Members text read rest → rest.length < text.length
  | .last first behind => by
    have := member_length first; have := blank_length behind
    simp only [List.length_cons] at *
    omega
  | .more first behind read => by
    have := member_length first; have := blank_length behind; have := members_length read
    simp only [List.length_cons] at *
    omega

end

/-- What a value may begin with. -/
def opens (c : Char) : Bool := c.isDigit || ['-', '"', '[', '\x7b', 'n', 't', 'f'].contains c

theorem opens_dark {c : Char} (first : opens c = true) : space c = false := by
  rw [Bool.eq_false_iff]
  intro white
  have whites : c = ' ' ∨ c = '\n' ∨ c = '\r' ∨ c = '\t' := by simpa [space, or_assoc] using white
  rcases whites with rfl | rfl | rfl | rfl <;> exact absurd first (by decide)

theorem numeral_head (isNumeral : Numeral run) : ∃ c rest, run = c :: rest ∧ (c.isDigit = true ∨ c = '-') := by
  obtain ⟨signed, digits, fractional, raised, rfl, isSign, isWhole, -⟩ := isNumeral
  obtain ⟨c, more, rfl, digit⟩ := whole_head isWhole
  rcases isSign with rfl | rfl
  · exact ⟨c, _, rfl, .inl digit⟩
  · exact ⟨'-', _, rfl, .inr rfl⟩

theorem value_head (written : Value text read rest) :
    ∃ c more, text = c :: more ∧ opens c = true := by
  cases written with
  | number isNumeral =>
    obtain ⟨c, more, rfl, digit | rfl⟩ := numeral_head isNumeral
    · exact ⟨c, _, rfl, by simp [opens, digit]⟩
    · exact ⟨'-', _, rfl, by decide⟩
  | _ => exact ⟨_, _, rfl, by decide⟩

theorem skip_value {text inside rest : List Char} (blank : Blank text inside) (written : Value inside read rest) :
    skip text = inside := by
  obtain ⟨c, more, rfl, first⟩ := value_head written
  exact skip_of_blank blank (stops_cons.mpr (opens_dark first))

/-- Items do not begin like an empty array. -/
theorem items_head {read : List Tree} (written : Items text read rest) :
    ∃ c more, skip text = c :: more ∧ c ≠ ']' := by
  have first : ∃ inside item after, Blank text inside ∧ Value inside item after := by
    cases written with
    | last before value => exact ⟨_, _, _, before, value⟩
    | more before value => exact ⟨_, _, _, before, value⟩
  obtain ⟨inside, item, after, blank, value⟩ := first
  obtain ⟨c, more, shape, opening⟩ := value_head value
  exact ⟨c, more, (skip_value blank value).trans shape, by rintro rfl; exact absurd opening (by decide)⟩

theorem members_head {read : List (Units × Tree)} (written : Members text read rest) :
    ∃ more, skip text = '"' :: more := by
  have first : ∃ member after, Member text member after := by
    cases written with
    | last first => exact ⟨_, _, first⟩
    | more first => exact ⟨_, _, first⟩
  obtain ⟨member, after, ⟨before, -⟩⟩ := first
  exact ⟨_, skip_of_blank before (stops_cons.mpr (by decide))⟩

theorem value_number {fuel : Nat} {text run rest : List Char} (skipped : skip text = run ++ rest)
    (isNumeral : Numeral run)
    (stops : Stops numeralChar rest) : value (fuel + 1) text = some (.number run, rest) := by
  have read := numeral_complete isNumeral stops
  obtain ⟨c, more, rfl, first⟩ := numeral_head isNumeral
  have other (letter : Char) (different : letter.isDigit = false ∧ letter ≠ '-') : c ≠ letter := by
    rintro rfl
    simp [different] at first
  rw [List.cons_append] at skipped read
  unfold value
  rw [skipped]
  simp [scalar, other '\x7b' (by decide), other '[' (by decide), other '"' (by decide),
    other 'n' (by decide), other 't' (by decide),
    other 'f' (by decide), read]

mutual

theorem value_complete {text rest unread : List Char} {read : Tree} {fuel : Nat} :
    Value text read rest → Stops numeralChar rest → Blank unread text → 2 * text.length ≤ fuel →
      value fuel unread = some (read, rest)
  | written, stops, blank, enough => by
    have skipped := skip_value blank written
    have some_text := value_length written
    obtain ⟨fuel, rfl⟩ : ∃ more, fuel = more + 1 := ⟨fuel - 1, by omega⟩
    match written with
    | .null => simp [value, skipped, scalar]
    | .true => simp [value, skipped, scalar]
    | .false => simp [value, skipped, scalar]
    | .number isNumeral => exact value_number skipped isNumeral stops
    | .text letters => simp [value, skipped, letters_complete letters]
    | .noItems empty => simp [value, skipped, skip_of_blank empty (stops_cons.mpr (by decide))]
    | .array items =>
      obtain ⟨c, more, shape, other⟩ := items_head items
      have found : JsonGrammar.items fuel _ = _ :=
        items_complete items (by simp only [List.length_cons] at enough; omega)
      simp [value, skipped, shape, other, found]
    | .noMembers empty => simp [value, skipped, skip_of_blank empty (stops_cons.mpr (by decide))]
    | .object members =>
      obtain ⟨more, shape⟩ := members_head members
      have found : JsonGrammar.members fuel _ = _ :=
        members_complete members (by simp only [List.length_cons] at enough; omega)
      simp [value, skipped, shape, found]

theorem items_complete {text rest : List Char} {read : List Tree} {fuel : Nat} :
    Items text read rest → 2 * text.length + 1 ≤ fuel → items fuel text = some (read, rest)
  | .last before value behind, enough => by
    obtain ⟨fuel, rfl⟩ : ∃ more, fuel = more + 1 := ⟨fuel - 1, by omega⟩
    have shorter := blank_length before
    have found : JsonGrammar.value fuel _ = _ :=
      value_complete value (stops_of_blank behind (by decide)) before (by omega)
    simp [items, found, skip_of_blank behind (stops_cons.mpr (by decide))]
  | .more before value behind others, enough => by
    obtain ⟨fuel, rfl⟩ : ∃ more, fuel = more + 1 := ⟨fuel - 1, by omega⟩
    have shorter := blank_length before
    have found : JsonGrammar.value fuel _ = _ :=
      value_complete value (stops_of_blank behind (by decide)) before (by omega)
    have less := value_length value
    have least := blank_length behind
    rw [List.length_cons] at least
    have more : JsonGrammar.items fuel _ = _ := items_complete others (by omega)
    simp [items, found, skip_of_blank behind (stops_cons.mpr (by decide)), more]

theorem members_complete {text rest : List Char} {read : List (Units × Tree)} {fuel : Nat} :
    Members text read rest → 2 * text.length + 1 ≤ fuel → members fuel text = some (read, rest)
  | .last (.mk before letters colon blank value) behind, enough => by
    obtain ⟨fuel, rfl⟩ : ∃ more, fuel = more + 1 := ⟨fuel - 1, by omega⟩
    have first := blank_length before
    have second := letters_length letters
    have third := blank_length colon
    have fourth := blank_length blank
    simp only [List.length_cons] at first third
    have found : JsonGrammar.value fuel _ = _ :=
      value_complete value (stops_of_blank behind (by decide)) blank (by omega)
    simp [members, skip_of_blank before (stops_cons.mpr (by decide)), letters_complete letters,
      skip_of_blank colon (stops_cons.mpr (by decide)), found, skip_of_blank behind (stops_cons.mpr (by decide))]
  | .more (.mk before letters colon blank value) behind others, enough => by
    obtain ⟨fuel, rfl⟩ : ∃ more, fuel = more + 1 := ⟨fuel - 1, by omega⟩
    have first := blank_length before
    have second := letters_length letters
    have third := blank_length colon
    have fourth := blank_length blank
    have fifth := value_length value
    have sixth := blank_length behind
    simp only [List.length_cons] at first third sixth
    have found : JsonGrammar.value fuel _ = _ :=
      value_complete value (stops_of_blank behind (by decide)) blank (by omega)
    have more : JsonGrammar.members fuel _ = _ := members_complete others (by omega)
    simp [members, skip_of_blank before (stops_cons.mpr (by decide)), letters_complete letters,
      skip_of_blank colon (stops_cons.mpr (by decide)), found,
        skip_of_blank behind (stops_cons.mpr (by decide)), more]

end

/-- The parser reads the texts of the grammar and no others. -/
theorem parse_iff {text : List Char} : parse text = some read ↔ Text text read := by
  constructor
  · intro parsed
    unfold parse at parsed
    split at parsed
    case h_2 => contradiction
    next rest found =>
    split at parsed
    case isFalse => contradiction
    next ends =>
    cases parsed
    obtain ⟨inside, blank, value⟩ := value_sound found
    exact ⟨inside, rest, blank, value, ends ▸ blank_skip rest⟩
  · rintro ⟨inside, rest, blank, value, ends⟩
    have stops : Stops numeralChar rest := by
      generalize same : ([] : List Char) = nothing at ends
      cases ends with
      | none => exact same ▸ stops_nil
      | @more c _ _ white _ =>
        refine stops_cons.mpr ?_
        have whites : c = ' ' ∨ c = '\n' ∨ c = '\r' ∨ c = '\t' := by simpa [space, or_assoc] using white
        rcases whites with rfl | rfl | rfl | rfl <;> decide
    have shorter := blank_length blank
    have found : JsonGrammar.value (2 * text.length + 1) text = _ := value_complete value stops blank (by omega)
    simp [parse, found, skip_of_blank ends stops_nil]

end JsonGrammar

end ProxyPilot.Data
