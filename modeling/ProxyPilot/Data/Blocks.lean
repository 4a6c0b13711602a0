import ProxyPilot.Data.Tokens

namespace ProxyPilot.Data

namespace Tokens

inductive Directive where
  | line (tokens : List Text)
  | block (head : List Text) (body : List Directive)

def opening : Text := ['\x7b']
def closing : Text := ['\x7d']

mutual

def Directive.lines : Directive → List (List Text)
  | .line tokens => [tokens]
  | .block head body => (head ++ [opening]) :: (linesOfAll body ++ [[closing]])

def linesOfAll : List Directive → List (List Text)
  | [] => []
  | first :: rest => first.lines ++ linesOfAll rest

end

/-- A block that is open: its head, and what stood before it, in reverse. -/
structure Open where
  head : List Text
  before : List Directive

def lone (token : Text) : Bool := token == opening || token == closing

/-- One more line, with the blocks that are open and what is in the innermost of them. -/
def readLine (state : List Open × List Directive) (tokens : List Text) : Option (List Open × List Directive) :=
  if tokens = [] then some state
  else if tokens = [closing] then
    match state.1 with
    | [] => none
    | top :: blocks => some (blocks, .block top.head state.2.reverse :: top.before)
  else if tokens.getLast? = some opening then
    if tokens.dropLast.any lone then none else some (⟨tokens.dropLast, state.2⟩ :: state.1, [])
  else if tokens.any lone then none
  else some (state.1, .line tokens :: state.2)

/-- The directives of lines with balanced blocks. -/
def readBlocks (lines : List (List Text)) : Option (List Directive) :=
  match lines.foldlM readLine ([], []) with
  | some ([], body) => some body.reverse
  | _ => none

mutual

/-- No token but the braces of the blocks stands for a brace. -/
def Directive.Plain : Directive → Prop
  | .line tokens => tokens ≠ [] ∧ tokens.any lone = false
  | .block head body => head.any lone = false ∧ PlainAll body

def PlainAll : List Directive → Prop
  | [] => True
  | first :: rest => first.Plain ∧ PlainAll rest

end

theorem readLine_line {tokens : List Text} (some : tokens ≠ []) (plain : tokens.any lone = false)
    (blocks : List Open)
    (body : List Directive) : readLine (blocks, body) tokens = Option.some (blocks, .line tokens :: body) := by
  have notClosing : tokens ≠ [closing] := by
    intro same
    rw [same] at plain
    exact absurd plain (by decide)
  have notOpening : tokens.getLast? ≠ Option.some opening := by
    intro last
    have member := List.mem_of_getLast? last
    have alone := List.any_eq_false.mp plain opening member
    exact absurd alone (by decide)
  rw [readLine, if_neg some, if_neg notClosing, if_neg notOpening, if_neg (by simp only [plain]; decide)]

theorem readLine_open {head : List Text} (plain : head.any lone = false) (blocks : List Open)
    (body : List Directive) :
    readLine (blocks, body) (head ++ [opening]) = some (⟨head, body⟩ :: blocks, []) := by
  have filled : head ++ [opening] ≠ [] := by simp
  have notClosing : head ++ [opening] ≠ [closing] := by
    intro same
    have last := congrArg List.getLast? same
    simp [opening, closing] at last
  have opens : (head ++ [opening]).getLast? = some opening := by simp
  have drops : (head ++ [opening]).dropLast = head := by simp
  rw [readLine, if_neg filled, if_neg notClosing, if_pos opens, drops, if_neg (by simp only [plain]; decide)]

theorem readLine_close (top : Open) (blocks : List Open) (body : List Directive) :
    readLine (top :: blocks, body) [closing] = some (blocks, .block top.head body.reverse :: top.before) := by
  rw [readLine, if_neg (by decide), if_pos rfl]

mutual

theorem foldlM_directive (blocks : List Open) (body : List Directive) (directive : Directive)
    (plain : directive.Plain) :
    directive.lines.foldlM readLine (blocks, body) = some (blocks, directive :: body) := by
  match directive with
  | .line tokens =>
    rw [Directive.Plain] at plain
    rw [Directive.lines, List.foldlM_cons, readLine_line plain.1 plain.2]
    rfl
  | .block head inner =>
    rw [Directive.Plain] at plain
    rw [Directive.lines, List.foldlM_cons, readLine_open plain.1, Option.bind_eq_bind,
      Option.bind_some, List.foldlM_append,
      foldlM_directives _ [] inner plain.2, Option.bind_eq_bind, Option.bind_some, List.foldlM_cons, readLine_close]
    simp

theorem foldlM_directives (blocks : List Open) (body directives : List Directive) (plain : PlainAll directives) :
    (linesOfAll directives).foldlM readLine (blocks, body) = some (blocks, directives.reverse ++ body) := by
  match directives with
  | [] => rfl
  | first :: rest =>
    rw [PlainAll] at plain
    rw [linesOfAll, List.foldlM_append, foldlM_directive blocks body first plain.1,
      Option.bind_eq_bind, Option.bind_some,
      foldlM_directives blocks (first :: body) rest plain.2]
    simp

end

/-- The lines of directives are read back as these directives. -/
theorem readBlocks_lines {directives : List Directive} (plain : PlainAll directives) :
    readBlocks (linesOfAll directives) = some directives := by
  rw [readBlocks, foldlM_directives [] [] directives plain]
  simp

variable {left right : List Directive} {P : Text → Prop}

theorem plainAll_append : PlainAll (left ++ right) ↔ PlainAll left ∧ PlainAll right := by
  induction left with
  | nil => simp [PlainAll]
  | cons first rest ih => simp [PlainAll, ih, and_assoc]

mutual

def Directive.Each (P : Text → Prop) : Directive → Prop
  | .line tokens => tokens ≠ [] ∧ ∀ token ∈ tokens, P token
  | .block head body => (∀ token ∈ head, P token) ∧ EachOf P body

def EachOf (P : Text → Prop) : List Directive → Prop
  | [] => True
  | first :: rest => first.Each P ∧ EachOf P rest

end

theorem eachOf_append :
    EachOf P (left ++ right) ↔ EachOf P left ∧ EachOf P right := by
  induction left with
  | nil => simp [EachOf]
  | cons first rest ih => simp [EachOf, ih, and_assoc]

theorem eachOf_map {items : List α} {f : α → Directive} (each : ∀ item ∈ items, (f item).Each P) :
    EachOf P (items.map f) := by
  induction items with
  | nil => simp [EachOf]
  | cons item items ih =>
    rw [List.map_cons, EachOf]
    exact ⟨each item List.mem_cons_self, ih fun other member => each other (List.mem_cons_of_mem _ member)⟩

section

variable {P : Text → Prop}

mutual

theorem plain_of_each (unbraced : ∀ token, P token → lone token = false) (directive : Directive)
    (each : directive.Each P) : directive.Plain := by
  match directive with
  | .line tokens =>
    rw [Directive.Each] at each
    rw [Directive.Plain]
    exact ⟨each.1, List.any_eq_false.mpr fun token member => by simp [unbraced token (each.2 token member)]⟩
  | .block head body =>
    rw [Directive.Each] at each
    rw [Directive.Plain]
    exact ⟨List.any_eq_false.mpr fun token member => by simp [unbraced token (each.1 token member)],
      plainAll_of_each unbraced body each.2⟩

theorem plainAll_of_each (unbraced : ∀ token, P token → lone token = false) (directives : List Directive)
    (each : EachOf P directives) : PlainAll directives := by
  match directives with
  | [] => rw [PlainAll]; trivial
  | first :: rest =>
    rw [EachOf] at each
    rw [PlainAll]
    exact ⟨plain_of_each unbraced first each.1, plainAll_of_each unbraced rest each.2⟩

end

mutual

theorem token_of_line (directive : Directive) (each : directive.Each P) :
    ∀ tokens ∈ directive.lines, tokens ≠ [] ∧ ∀ token ∈ tokens, P token ∨ token = opening ∨ token = closing := by
  match directive with
  | .line tokens =>
    rw [Directive.Each] at each
    rw [Directive.lines, List.forall_mem_singleton]
    exact ⟨each.1, fun token member => .inl (each.2 token member)⟩
  | .block head body =>
    rw [Directive.Each] at each
    have opens : ∀ token ∈ head ++ [opening], P token ∨ token = opening ∨ token = closing := by
      intro token member
      rcases List.mem_append.mp member with inside | brace
      · exact .inl (each.1 token inside)
      · exact .inr (.inl (List.mem_singleton.mp brace))
    have inner := token_of_lines body each.2
    intro tokens member
    rw [Directive.lines, List.mem_cons, List.mem_append, List.mem_singleton] at member
    rcases member with rfl | inside | rfl
    · exact ⟨by simp, opens⟩
    · exact inner tokens inside
    · exact ⟨by simp, fun token brace => .inr (.inr (List.mem_singleton.mp brace))⟩

theorem token_of_lines (directives : List Directive) (each : EachOf P directives) :
    ∀ tokens ∈ linesOfAll directives, tokens ≠ [] ∧ ∀ token ∈ tokens, P token ∨ token = opening ∨
      token = closing := by
  match directives with
  | [] =>
    rw [linesOfAll]
    simp
  | first :: rest =>
    rw [EachOf] at each
    rw [linesOfAll, List.forall_mem_append]
    exact ⟨token_of_line first each.1, token_of_lines rest each.2⟩

end

end

end Tokens

end ProxyPilot.Data
