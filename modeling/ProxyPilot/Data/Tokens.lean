import Mathlib.Data.List.Induction
import ProxyPilot.Data.Text

namespace ProxyPilot.Data

/-! # Lines of tokens

Lines end at a line feed and tokens at a blank.  A token that begins with a quote runs to the next
quote without a backslash in front of it, and a brace on its own opens or closes a block.
-/

structure Blanks where
  blank : Char → Bool
  space : blank ' ' = true
  printable : ∀ c : Char, 0x21 ≤ c.toNat → c.toNat ≤ 0x7E → blank c = false

namespace Tokens

abbrev Text := List Char

inductive Item where
  | token (text : Text)
  | lineEnd

/-- Where the lexer stands; what it has seen of a token is kept in reverse. -/
inductive State where
  | between
  | bare (seen : Text)
  | quoted (seen : Text)

variable (b : Blanks)

def lexFrom : State → Text → List Item
  | .between, [] => []
  | .bare seen, [] => [.token seen.reverse]
  | .quoted seen, [] => [.token seen.reverse]
  | .between, c :: rest =>
    if c = '\n' then .lineEnd :: lexFrom .between rest
    else if b.blank c then lexFrom .between rest
    else if c = '"' then lexFrom (.quoted ['"']) rest
    else lexFrom (.bare [c]) rest
  | .bare seen, c :: rest =>
    if c = '\n' then .token seen.reverse :: .lineEnd :: lexFrom .between rest
    else if b.blank c then .token seen.reverse :: lexFrom .between rest
    else lexFrom (.bare (c :: seen)) rest
  | .quoted seen, c :: rest =>
    if c = '"' ∧ seen.head? ≠ some '\\' then .token (c :: seen).reverse :: lexFrom .between rest
    else lexFrom (.quoted (c :: seen)) rest

/-- The tokens of each line, after those of the current line. -/
def linesFrom : List Text → List Item → List (List Text)
  | [], [] => []
  | current, [] => [current]
  | current, .lineEnd :: rest => current :: linesFrom [] rest
  | current, .token text :: rest => linesFrom (current ++ [text]) rest

def lexLines (text : Text) : List (List Text) := linesFrom [] (lexFrom b .between text)

section

-- the proofs below ask for these equations: here they are made once
attribute [local simp] lexFrom linesFrom

end

theorem between_newline (rest : Text) :
    lexFrom b .between ('\n' :: rest) = .lineEnd :: lexFrom b .between rest := by
  rw [lexFrom, if_pos rfl]

theorem between_space (rest : Text) : lexFrom b .between (' ' :: rest) = lexFrom b .between rest := by
  rw [lexFrom, if_neg (by decide), if_pos b.space]

theorem between_spaces (n : Nat) (rest : Text) :
    lexFrom b .between (List.replicate n ' ' ++ rest) = lexFrom b .between rest := by
  induction n with
  | zero => rfl
  | succ n ih => rw [List.replicate_succ, List.cons_append, between_space, ih]

/-- What follows a token on its line. -/
def Follows (c : Char) : Prop := c = ' ' ∨ c = '\n'

/-- A text that is one token wherever it stands. -/
def Stands (text : Text) : Prop := ∀ c rest, Follows c →
  lexFrom b .between (text ++ c :: rest) = .token text :: lexFrom b .between (c :: rest)

/-- A text that is read as another token. -/
def Breaks (text : Text) : Prop := ∀ c rest, Follows c →
  ∃ other more, lexFrom b .between (text ++ c :: rest) = .token other :: more ∧ other ≠ text

/-- A character of a bare token. -/
def Dark (c : Char) : Prop := c ≠ '\n' ∧ b.blank c = false

theorem bare_dark {text : Text} (dark : ∀ c ∈ text, Dark b c) (seen rest : Text) :
    lexFrom b (.bare seen) (text ++ rest) = lexFrom b (.bare (text.reverse ++ seen)) rest := by
  induction text generalizing seen with
  | nil => rfl
  | cons c text ih =>
    have first := dark c List.mem_cons_self
    rw [List.cons_append, lexFrom, if_neg first.1, if_neg (by simp [first.2]),
      ih fun other member => dark other (List.mem_cons_of_mem _ member)]
    simp

variable {first : Char} {pieces : List Text}

theorem between_dark {text : Text} (start : Dark b first) (notQuote : first ≠ '"')
    (dark : ∀ c ∈ text, Dark b c) (rest : Text) :
    lexFrom b .between (first :: text ++ rest) = lexFrom b (.bare (first :: text).reverse) rest := by
  rw [List.cons_append, lexFrom, if_neg start.1, if_neg (by simp [start.2]), if_neg notQuote, bare_dark b dark,
    List.reverse_cons]

theorem stands_bare {text : Text} (start : Dark b first) (notQuote : first ≠ '"')
    (dark : ∀ c ∈ text, Dark b c) : Stands b (first :: text) := by
  intro c rest follows
  rw [between_dark b start notQuote dark]
  rcases follows with rfl | rfl
  · simp [lexFrom, b.space]
  · simp [lexFrom]

theorem bare_light {text : Text} (light : ∃ c ∈ text, ¬Dark b c) (seen rest : Text) :
    ∃ front back more, text = front ++ back ∧ back ≠ [] ∧
      lexFrom b (.bare seen) (text ++ rest) = .token (seen.reverse ++ front) :: more := by
  induction text generalizing seen with
  | nil =>
    obtain ⟨c, member, -⟩ := light
    cases member
  | cons d text ih =>
    by_cases line : d = '\n'
    · exact ⟨[], d :: text, _, rfl, by simp, by rw [List.cons_append, lexFrom, if_pos line, List.append_nil]⟩
    · by_cases gap : b.blank d = true
      · exact ⟨[], d :: text, _, rfl,
          by simp, by rw [List.cons_append, lexFrom, if_neg line, if_pos gap, List.append_nil]⟩
      · obtain ⟨c, member, light⟩ := light
        rcases List.mem_cons.mp member with same | later
        · exact absurd ⟨same ▸ line, by simpa [same] using gap⟩ light
        · obtain ⟨front, back, more, split, some, lexed⟩ := ih ⟨c, later, light⟩ (d :: seen)
          refine ⟨d :: front, back, more, by rw [split, List.cons_append], some, ?_⟩
          rw [List.cons_append, lexFrom, if_neg line, if_neg gap, lexed, List.reverse_cons, List.append_assoc,
            List.singleton_append]

/-- A bare text with a blank or a line feed in it breaks there. -/
theorem breaks_bare {text : Text} (start : Dark b first) (notQuote : first ≠ '"')
    (light : ∃ c ∈ text, ¬Dark b c) : Breaks b (first :: text) := by
  intro c rest _
  obtain ⟨front, back, more, split, some, lexed⟩ := bare_light b light [first] (c :: rest)
  refine ⟨first :: front, more, ?_, ?_⟩
  · rw [List.cons_append, lexFrom, if_neg start.1, if_neg (by simp [start.2]), if_neg notQuote, lexed]
    rfl
  · intro same
    have front_eq := (List.cons.inj same).2
    rw [split] at front_eq
    exact some (List.self_eq_append_right.mp front_eq)

def escapeChar (c : Char) : Text := if c = '\\' then ['\\', '\\'] else if c = '"' then ['\\', '"'] else [c]

def escaped (text : Text) : Text := text.flatMap escapeChar

def quoted (text : Text) : Text := '"' :: (escaped text ++ ['"'])

theorem getLast_escaped (text : Text) : (escaped text).getLast? = text.getLast? := by
  induction text using List.reverseRecOn with
  | nil => rfl
  | append_singleton text c =>
    rw [escaped, List.flatMap_append, List.flatMap_singleton, List.getLast?_append, List.getLast?_append]
    unfold escapeChar
    split
    · next slash => simp [slash]
    · split
      · next quote => simp [quote]
      · simp

theorem quoted_escaped (text seen rest : Text) :
    lexFrom b (.quoted seen) (escaped text ++ rest) =
      lexFrom b (.quoted ((escaped text).reverse ++ seen)) rest := by
  induction text generalizing seen with
  | nil => rfl
  | cons c text ih =>
    rw [escaped, List.flatMap_cons, ← escaped, List.append_assoc]
    have one : lexFrom b (.quoted seen) (escapeChar c ++ (escaped text ++ rest)) =
        lexFrom b (.quoted ((escapeChar c).reverse ++ seen)) (escaped text ++ rest) := by
      unfold escapeChar
      split
      · simp [lexFrom]
      · split
        · simp [lexFrom]
        · next quote => simp [lexFrom, quote]
    rw [one, ih, List.reverse_append, List.append_assoc]

theorem between_quote (rest : Text) : lexFrom b .between ('"' :: rest) = lexFrom b (.quoted ['"']) rest := by
  have dark := b.printable '"' (by decide) (by decide)
  rw [lexFrom, if_neg (by decide), if_neg (by simp [dark]), if_pos rfl]

theorem head_seen (text : Text) : ((escaped text).reverse ++ ['"']).head? = text.getLast?.or (some '"') := by
  rw [List.head?_append, List.head?_reverse, getLast_escaped]
  rfl

theorem quoted_close {seen : Text} (ends : seen.head? ≠ some '\\') (rest : Text) :
    lexFrom b (.quoted seen) ('"' :: rest) = .token ('"' :: seen).reverse :: lexFrom b .between rest := by
  rw [lexFrom, if_pos ⟨rfl, ends⟩]

theorem quoted_more {seen : Text} {c : Char} (more : c ≠ '"' ∨ seen.head? = some '\\') (rest : Text) :
    lexFrom b (.quoted seen) (c :: rest) = lexFrom b (.quoted (c :: seen)) rest := by
  rw [lexFrom, if_neg]
  rcases more with other | slash
  · exact fun closes => other closes.1
  · exact fun closes => closes.2 slash

theorem stands_quoted {text : Text} (ends : text.getLast? ≠ some '\\') : Stands b (quoted text) := by
  intro c rest _
  have closes : ((escaped text).reverse ++ ['"']).head? ≠ some '\\' := by
    rw [head_seen]
    cases last : text.getLast? with
    | none => simp
    | some d => simpa [last] using ends
  rw [quoted, List.cons_append, between_quote, List.append_assoc, quoted_escaped, List.singleton_append,
    quoted_close b closes]
  simp

/-- A token under way is at least what has been seen of it. -/
theorem quoted_longer (seen rest : Text) :
    ∃ text more, lexFrom b (.quoted seen) rest = .token text :: more ∧ seen.length ≤ text.length := by
  induction rest generalizing seen with
  | nil => exact ⟨_, _, by rw [lexFrom], by simp⟩
  | cons c rest ih =>
    rw [lexFrom]
    split
    · exact ⟨_, _, rfl, by simp⟩
    · obtain ⟨text, more, lexed, longer⟩ := ih (c :: seen)
      exact ⟨text, more, lexed, by simp at longer; omega⟩

/-- A text that ends in a backslash does not close its quotes. -/
theorem breaks_quoted {text : Text} (ends : text.getLast? = some '\\') : Breaks b (quoted text) := by
  intro c rest follows
  have slash : ((escaped text).reverse ++ ['"']).head? = some '\\' := by
    rw [head_seen, ends]
    rfl
  have other : c ≠ '"' := by rcases follows with rfl | rfl <;> decide
  obtain ⟨token, more, lexed, longer⟩ := quoted_longer b (c :: '"' :: ((escaped text).reverse ++ ['"'])) rest
  refine ⟨token, more, ?_, ?_⟩
  · rw [quoted, List.cons_append, between_quote, List.append_assoc, quoted_escaped, List.singleton_append,
      quoted_more b (.inr slash), quoted_more b (.inl other), lexed]
  · intro same
    rw [same] at longer
    simp only [quoted, List.length_cons, List.length_append, List.length_reverse, List.length_nil] at longer
    omega

def words (pieces : List Text) : Text := [' '].intercalate pieces

structure Line where
  indent : Nat
  pieces : List Text

def Line.text (line : Line) : Text := List.replicate line.indent ' ' ++ words line.pieces

theorem words_cons (piece : Text) (some : pieces ≠ []) :
    words (piece :: pieces) = piece ++ ' ' :: words pieces := by
  obtain ⟨next, more, rfl⟩ := List.exists_cons_of_ne_nil some
  rw [words, List.intercalate_cons_cons, List.append_assoc]
  rfl

theorem words_single (piece : Text) : words [piece] = piece := List.intercalate_singleton

theorem lex_words (some : pieces ≠ []) (stand : ∀ piece ∈ pieces, Stands b piece) (rest : Text) :
    lexFrom b .between (words pieces ++ '\n' :: rest) = pieces.map .token ++ .lineEnd ::
      lexFrom b .between rest := by
  induction pieces with
  | nil => contradiction
  | cons piece pieces ih =>
    have first := stand piece List.mem_cons_self
    by_cases last : pieces = []
    · subst last
      rw [words_single, first '\n' rest (.inr rfl), between_newline]
      rfl
    · rw [words_cons piece last, List.append_assoc, List.cons_append, first ' ' _ (.inl rfl), between_space,
        ih last fun other member => stand other (List.mem_cons_of_mem _ member)]
      rfl

theorem lex_line {line : Line} (some : line.pieces ≠ [])
    (stand : ∀ piece ∈ line.pieces, Stands b piece) (rest : Text) :
    lexFrom b .between (line.text ++ '\n' :: rest) = line.pieces.map .token ++ .lineEnd ::
      lexFrom b .between rest := by
  rw [Line.text, List.append_assoc, between_spaces, lex_words b some stand]

theorem linesFrom_tokens (current tokens : List Text) (rest : List Item) :
    linesFrom current (tokens.map .token ++ .lineEnd :: rest) = (current ++ tokens) :: linesFrom [] rest := by
  induction tokens generalizing current with
  | nil => cases current <;> simp [linesFrom]
  | cons token tokens ih =>
    rw [List.map_cons, List.cons_append, linesFrom, ih, List.append_assoc, List.singleton_append]

/-- Lines of tokens that stand are read back line by line. -/
theorem lexLines_stands {lines : List Line}
    (stand : ∀ line ∈ lines, line.pieces ≠ [] ∧ ∀ piece ∈ line.pieces, Stands b piece) :
    lexLines b (unlines (lines.map Line.text)) = lines.map Line.pieces := by
  induction lines with
  | nil => simp [lexLines, unlines, lexFrom, linesFrom]
  | cons line lines ih =>
    have first := stand line List.mem_cons_self
    have rest := ih fun other member => stand other (List.mem_cons_of_mem _ member)
    rw [lexLines] at rest ⊢
    rw [List.map_cons, unlines, List.flatMap_cons, ← unlines, List.append_assoc, List.singleton_append, newline,
      lex_line b first.1 first.2, linesFrom_tokens, rest]
    rfl

def tokensOf (items : List Item) : List Text := items.filterMap fun
  | .token text => some text
  | .lineEnd => none

theorem flatten_linesFrom (current : List Text) (items : List Item) :
    (linesFrom current items).flatten = current ++ tokensOf items := by
  induction items generalizing current with
  | nil => cases current <;> simp [linesFrom, tokensOf]
  | cons item items ih =>
    cases item with
    | token text =>
      rw [linesFrom, ih, tokensOf, tokensOf, List.filterMap_cons_some (by rfl), List.append_assoc]
      rfl
    | lineEnd =>
      rw [linesFrom, List.flatten_cons, ih, tokensOf, tokensOf, List.filterMap_cons_none (by rfl)]
      · rfl

theorem words_breaks (each : ∀ piece ∈ pieces, Stands b piece ∨ Breaks b piece)
    (broken : ∃ piece ∈ pieces, Breaks b piece) (rest : Text) (more : List Text) :
    tokensOf (lexFrom b .between (words pieces ++ '\n' :: rest)) ≠ pieces ++ more := by
  induction pieces with
  | nil =>
    obtain ⟨piece, member, -⟩ := broken
    cases member
  | cons piece pieces ih =>
    by_cases breaks : Breaks b piece
    · obtain ⟨c, behind, follows, split⟩ : ∃ c behind, Follows c ∧
          words (piece :: pieces) ++ '\n' :: rest = piece ++ c :: behind := by
        by_cases last : pieces = []
        · exact ⟨'\n', rest, .inr rfl, by rw [last, words_single]⟩
        · exact ⟨' ', _, .inl rfl, by rw [words_cons piece last, List.append_assoc, List.cons_append]⟩
      obtain ⟨other, items, lexed, different⟩ := breaks c behind follows
      rw [split, lexed, tokensOf, List.filterMap_cons_some (by rfl), List.cons_append]
      exact fun same => different (List.cons.inj same).1
    · have stands := (each piece List.mem_cons_self).resolve_right breaks
      obtain ⟨bad, member, worse⟩ := broken
      have later : bad ∈ pieces := (List.mem_cons.mp member).resolve_left fun same => breaks (same ▸ worse)
      rw [words_cons piece (List.ne_nil_of_mem later), List.append_assoc, List.cons_append, stands ' ' _ (.inl rfl),
        between_space, tokensOf, List.filterMap_cons_some (by rfl), List.cons_append, ← tokensOf]
      intro same
      exact ih (fun other member => each other (List.mem_cons_of_mem _ member)) ⟨bad, later,
        worse⟩ (List.cons.inj same).2

theorem tokensOf_append (front back : List Item) : tokensOf (front ++ back) = tokensOf front ++ tokensOf back :=
  List.filterMap_append

theorem tokensOf_tokens (tokens : List Text) : tokensOf (tokens.map .token) = tokens := by
  induction tokens with
  | nil => rfl
  | cons token tokens ih => rw [List.map_cons, tokensOf, List.filterMap_cons_some (by rfl), ← tokensOf, ih]

/-- With a token that breaks, the lines are read otherwise. -/
theorem lexLines_breaks {lines : List Line}
    (each : ∀ line ∈ lines, line.pieces ≠ [] ∧ ∀ piece ∈ line.pieces, Stands b piece ∨ Breaks b piece)
    (broken : ∃ line ∈ lines, ∃ piece ∈ line.pieces, Breaks b piece) :
    lexLines b (unlines (lines.map Line.text)) ≠ lines.map Line.pieces := by
  have differ : tokensOf (lexFrom b .between (unlines (lines.map Line.text))) ≠
      (lines.map Line.pieces).flatten := by
    induction lines with
    | nil =>
      obtain ⟨line, member, -⟩ := broken
      cases member
    | cons line lines ih =>
      have first := each line List.mem_cons_self
      rw [List.map_cons, unlines, List.flatMap_cons, ← unlines, List.append_assoc, List.singleton_append, newline,
        List.map_cons, List.flatten_cons]
      by_cases here : ∃ piece ∈ line.pieces, Breaks b piece
      · rw [Line.text, List.append_assoc, between_spaces]
        exact words_breaks b first.2 here _ _
      · obtain ⟨bad, member, piece, inside, worse⟩ := broken
        have later : bad ∈ lines := (List.mem_cons.mp member).resolve_left fun same =>
            here ⟨piece, same ▸ inside, worse⟩
        have stand : ∀ piece ∈ line.pieces, Stands b piece := fun piece member =>
          (first.2 piece member).resolve_right fun breaks => here ⟨piece, member, breaks⟩
        rw [lex_line b first.1 stand, tokensOf_append, tokensOf_tokens]
        intro same
        exact ih (fun other member => each other (List.mem_cons_of_mem _ member)) ⟨bad, later, piece, inside, worse⟩
          (List.append_cancel_left same)
  intro same
  apply differ
  rw [← same, lexLines, flatten_linesFrom, List.nil_append]

end Tokens

end ProxyPilot.Data
