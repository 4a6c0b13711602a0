import Mathlib.Algebra.GroupWithZero.Nat

namespace ProxyPilot.Data

/-! # Runs and lines of a text

A run is what passes a test at the front of a list, up to the first element that fails it.

A file is written as lines that each end in a line feed.  Reading it back at the
line feeds gives the same lines, followed by the empty rest after the last one.
-/

section

variable {α : Type u} {p : α → Bool} {run rest : List α} {a : α}

/-- The list does not go on with an element that passes. -/
def Stops (p : α → Bool) (rest : List α) : Prop := ∀ a ∈ rest.head?, p a = false

@[simp] theorem stops_nil : Stops p [] := fun _ member => by cases member

@[simp] theorem stops_cons : Stops p (a :: rest) ↔ p a = false := by simp [Stops]

theorem stops_dropWhile (p : α → Bool) (list : List α) : Stops p (list.dropWhile p) := by
  induction list with
  | nil => exact stops_nil
  | cons a rest ih =>
    rw [List.dropWhile_cons]
    split
    · exact ih
    · next fails => exact stops_cons.mpr (Bool.eq_false_iff.mpr fails)

theorem takeWhile_run (all : ∀ a ∈ run, p a = true) (stops : Stops p rest) : (run ++ rest).takeWhile p = run := by
  induction run with
  | nil =>
    cases rest with
    | nil => rfl
    | cons a rest => simp [stops_cons.mp stops]
  | cons a run ih =>
    obtain ⟨first, all⟩ := List.forall_mem_cons.mp all
    simp [first, ih all]

theorem dropWhile_run (all : ∀ a ∈ run, p a = true) (stops : Stops p rest) : (run ++ rest).dropWhile p = rest := by
  have whole := List.takeWhile_append_dropWhile (p := p) (l := run ++ rest)
  rw [takeWhile_run all stops] at whole
  exact List.append_cancel_left whole

theorem mem_takeWhile {list : List α} (member : a ∈ list.takeWhile p) : p a = true := by
  induction list with
  | nil => cases member
  | cons first rest ih =>
    rw [List.takeWhile_cons] at member
    split at member
    · next passes =>
        rcases List.mem_cons.mp member with rfl | member
        · exact passes
        · exact ih member
    · cases member

end

def newline : Char := '\n'

/-- The text of lines: each one ended by a line feed. -/
def unlines (lines : List (List Char)) : List Char := lines.flatMap fun line => line ++ [newline]

def linesOf : List Char → List (List Char)
  | [] => [[]]
  | c :: rest =>
    if c = newline then [] :: linesOf rest
    else match linesOf rest with
      | [] => [[c]]
      | line :: lines => (c :: line) :: lines

theorem linesOf_append {line : List Char} (single : newline ∉ line) (rest : List Char) :
    linesOf (line ++ newline :: rest) = line :: linesOf rest := by
  induction line with
  | nil => simp [linesOf]
  | cons c line ih =>
    simp only [List.mem_cons, not_or] at single
    have other : c ≠ newline := fun same => single.1 same.symm
    rw [List.cons_append, linesOf, if_neg other, ih single.2]

theorem linesOf_unlines {lines : List (List Char)} (single : ∀ line ∈ lines, newline ∉ line) :
    linesOf (unlines lines) = lines ++ [[]] := by
  induction lines with
  | nil => rfl
  | cons line lines ih =>
    have rest := ih fun other member => single other (List.mem_cons_of_mem _ member)
    have first := linesOf_append (single line List.mem_cons_self) (unlines lines)
    simp only [unlines, List.flatMap_cons, List.append_assoc, List.singleton_append] at first ⊢
    rw [first]
    simpa [unlines] using rest

/-- `\s`. -/
def whiteSpace (c : Char) : Bool :=
  [9, 10, 11, 12, 13, 32, 160, 0x1680, 0x2028, 0x2029, 0x202f, 0x205f, 0x3000, 0xfeff].contains c.toNat ||
    decide (0x2000 ≤ c.toNat ∧ c.toNat ≤ 0x200a)

/-- `\w`. -/
def wordChar (c : Char) : Bool := c.isAlphanum || c == '_'

/-- `[A-Za-z0-9._-]`. -/
def nameChar (c : Char) : Bool := c.isAlphanum || c == '.' || c == '_' || c == '-'

/-- `[A-Za-z0-9-]`. -/
def labelChar (c : Char) : Bool := c.isAlphanum || c == '-'

/-- `[A-Za-z]`. -/
def letterChar (c : Char) : Bool := ('a' ≤ c && c ≤ 'z') || ('A' ≤ c && c ≤ 'Z')

/-- `[0-7]`. -/
def octalChar (c : Char) : Bool := '0' ≤ c && c ≤ '7'

/-- `[0-9a-f]`. -/
def lowerHexChar (c : Char) : Bool := c.isDigit || ('a' ≤ c && c ≤ 'f')

/-- `[0-9a-fA-F]`. -/
def hexChar (c : Char) : Bool := c.isDigit || ('a' ≤ c && c ≤ 'f') || ('A' ≤ c && c ≤ 'F')

/-- An ASCII control character. -/
def controlChar (c : Char) : Bool := c.toNat < 0x20 || c.toNat == 0x7f

def dropEnd (drops : Char → Bool) (text : List Char) : List Char := (text.reverse.dropWhile drops).reverse

def trim (text : List Char) : List Char := dropEnd whiteSpace (text.dropWhile whiteSpace)

/-- `slice(0, units)`: of a character cut in two, a lone surrogate stays, which is written as U+FFFD. -/
def sliceUnits : Nat → List Char → List Char
  | 0, _ => []
  | _ + 1, [] => []
  | units + 1, c :: rest =>
    if c.toNat < 0x10000 then c :: sliceUnits units rest
    else if units = 0 then [Char.ofNat 0xFFFD]
    else c :: sliceUnits (units - 1) rest

/-- Runs of white space become one space. -/
def oneSpace : List Char → List Char
  | [] => []
  | c :: rest =>
    if whiteSpace c then
      match oneSpace rest with
      | ' ' :: later => ' ' :: later
      | later => ' ' :: later
    else c :: oneSpace rest

/-- What follows a word at the front, where the word matches whatever its case. -/
def afterWord (word text : List Char) : Option (List Char) :=
  if (text.take word.length).map Char.toLower = word then some (text.drop word.length) else none

def startsWord : List Char → Bool
  | c :: _ => wordChar c
  | [] => false

/-- `afterWord`, up to a word boundary. -/
def afterWholeWord (word text : List Char) : Option (List Char) :=
  (afterWord word text).filter fun rest => !startsWord rest

/-- Some phrase stands in the text between word boundaries. -/
def containsPhrase (phrases : List (List Char)) (text : List Char) (inWord : Bool) : Bool :=
  (!inWord && phrases.any fun phrase => (afterWholeWord phrase text).isSome) ||
    match text with
    | [] => false
    | c :: rest => containsPhrase phrases rest (wordChar c)

/-- `word` stands somewhere in the text, as it is written. -/
def mentions (word : List Char) : List Char → Bool
  | [] => word.isEmpty
  | c :: rest => word.isPrefixOf (c :: rest) || mentions word rest

/-- Length in UTF-16 code units. -/
def codeUnits (text : List Char) : Nat := (text.map fun c => if 0x10000 ≤ c.toNat then 2 else 1).sum

theorem alphanum_iff {c : Char} : c.isAlphanum = true ↔
    48 ≤ c.toNat ∧ c.toNat ≤ 57 ∨ 65 ≤ c.toNat ∧ c.toNat ≤ 90 ∨ 97 ≤ c.toNat ∧ c.toNat ≤ 122 := by
  have spelled : c.isAlphanum =
      (decide (65 ≤ c.toNat ∧ c.toNat ≤ 90) || (decide (97 ≤ c.toNat) && decide (c.toNat ≤ 122)) ||
      (decide (48 ≤ c.toNat) && decide (c.toNat ≤ 57))) := rfl
  simp only [spelled, Bool.or_eq_true, Bool.and_eq_true, decide_eq_true_eq]
  omega

end ProxyPilot.Data
