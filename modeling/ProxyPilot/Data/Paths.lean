import Mathlib.Data.List.Infix

namespace ProxyPilot.Data

/-! # POSIX paths as texts

`normalize` is the one of Node's `path.posix`.  An absolute path is rendered from the
segments between its slashes.
-/

def isAbsolute (path : List Char) : Bool := path.head? == some '/'

def parentDir : List Char := ['.', '.']

/-- One segment of a path: the stack holds the segments so far, the last one first. -/
def pushSegment (aboveRoot : Bool) (stack : List (List Char)) (segment : List Char) : List (List Char) :=
  if segment = [] ∨ segment = ['.'] then stack
  else if segment = parentDir then
    match stack with
    | top :: rest => if top = parentDir then (if aboveRoot then segment :: stack else stack) else rest
    | [] => if aboveRoot then [segment] else []
  else segment :: stack

/-- The segments of the normalized path. -/
def segments (path : List Char) : List (List Char) :=
  ((path.splitOn '/').foldl (pushSegment (!isAbsolute path)) []).reverse

def normalize (path : List Char) : List Char :=
  if path = [] then ['.']
  else
    let body := ['/'].intercalate (segments path)
    let trailing := path.getLast? == some '/'
    if body = [] then (if isAbsolute path then ['/'] else if trailing then ['.', '/'] else ['.'])
    else (if isAbsolute path then ['/'] else []) ++ body ++ (if trailing then ['/'] else [])

/-- The absolute path with these segments. -/
def render (names : List (List Char)) : List Char := names.flatMap fun name => '/' :: name

/-- A segment that stands for itself. -/
structure PlainSegment (name : List Char) : Prop where
  nonempty : name ≠ []
  single : '/' ∉ name
  notSelf : name ≠ ['.']
  notParent : name ≠ parentDir

@[simp] theorem render_nil : render [] = [] := rfl

@[simp] theorem render_cons (name : List Char) (names : List (List Char)) :
    render (name :: names) = '/' :: (name ++ render names) := rfl

theorem render_append (front back : List (List Char)) :
    render (front ++ back) = render front ++ render back := List.flatMap_append

theorem intercalate_eq_render (names : List (List Char)) : ['/'].intercalate ([] :: names) = render names := by
  induction names with
  | nil => rfl
  | cons name rest ih =>
    rw [List.intercalate_cons_cons, List.nil_append, render_cons]
    cases rest with
    | nil => simp
    | cons other more =>
      rw [List.intercalate_cons_cons, List.nil_append] at ih
      rw [List.intercalate_cons_cons, ← ih, List.singleton_append, List.singleton_append]
      simp

variable {names : List (List Char)} {path : List Char}

theorem intercalate_cons_nil (some : names ≠ []) :
    ['/'].intercalate ([] :: names) = ['/'] ++ ['/'].intercalate names := by
  cases names with
  | nil => exact absurd rfl some
  | cons name rest => rw [List.intercalate_cons_cons, List.nil_append]

theorem splitOn_render (single : ∀ name ∈ names, '/' ∉ name) : (render names).splitOn '/' = [] :: names := by
  rw [← intercalate_eq_render]
  apply List.splitOn_intercalate
  · intro name member
    rcases List.mem_cons.mp member with rfl | member
    · simp
    · exact single name member
  · simp

theorem render_injective {left right : List (List Char)} (leftSingle : ∀ name ∈ left, '/' ∉ name)
    (rightSingle : ∀ name ∈ right, '/' ∉ name)
    (same : render left = render right) : left = right := by
  have pieces := splitOn_render leftSingle
  rw [same, splitOn_render rightSingle] at pieces
  exact (List.cons.inj pieces).2.symm

theorem not_mem_of_mem_splitOn {separator : Char} {path piece : List Char}
    (member : piece ∈ path.splitOn separator) : separator ∉ piece := by
  induction path generalizing piece with
  | nil =>
    rw [List.splitOn_nil, List.mem_singleton] at member
    simp [member]
  | cons c rest ih =>
    rw [List.splitOn_cons_eq_if_modifyHead] at member
    split at member
    · rcases List.mem_cons.mp member with rfl | member
      · simp
      · exact ih member
    · next other =>
        cases pieces : rest.splitOn separator with
        | nil => exact absurd pieces (List.splitOn_ne_nil _ _)
        | cons first more =>
          rw [pieces] at member ih
          rcases List.mem_cons.mp member with rfl | member
          · have rest := ih List.mem_cons_self
            simp only [beq_iff_eq] at other
            simp [rest, Ne.symm other]
          · exact ih (List.mem_cons_of_mem _ member)

theorem mem_of_mem_splitOn {separator : Char} {path piece : List Char} {c : Char}
    (member : piece ∈ path.splitOn separator)
    (inside : c ∈ piece) : c ∈ path := by
  induction path generalizing piece with
  | nil =>
    rw [List.splitOn_nil, List.mem_singleton] at member
    simp [member] at inside
  | cons first rest ih =>
    rw [List.splitOn_cons_eq_if_modifyHead] at member
    split at member
    · rcases List.mem_cons.mp member with rfl | member
      · cases inside
      · exact List.mem_cons_of_mem _ (ih member inside)
    · cases pieces : rest.splitOn separator with
      | nil => exact absurd pieces (List.splitOn_ne_nil _ _)
      | cons front more =>
        rw [pieces] at member ih
        rcases List.mem_cons.mp member with rfl | member
        · rcases List.mem_cons.mp inside with rfl | inside
          · exact List.mem_cons_self
          · exact List.mem_cons_of_mem _ (ih List.mem_cons_self inside)
        · exact List.mem_cons_of_mem _ (ih (List.mem_cons_of_mem _ member) inside)

theorem mem_piece_of_mem (separator : Char) {c : Char} (member : c ∈ path) :
    c = separator ∨ ∃ piece ∈ path.splitOn separator, c ∈ piece := by
  induction path with
  | nil => cases member
  | cons first rest ih =>
    rw [List.splitOn_cons_eq_if_modifyHead]
    split
    · next same =>
        rcases List.mem_cons.mp member with rfl | later
        · exact Or.inl (by simpa using same)
        · rcases ih later with rfl | ⟨piece, listed, inside⟩
          · exact Or.inl rfl
          · exact Or.inr ⟨piece, List.mem_cons_of_mem _ listed, inside⟩
    · cases pieces : rest.splitOn separator with
      | nil => exact absurd pieces (List.splitOn_ne_nil _ _)
      | cons front more =>
        rw [pieces] at ih
        rcases List.mem_cons.mp member with rfl | later
        · exact Or.inr ⟨c :: front, List.mem_cons_self, List.mem_cons_self⟩
        · rcases ih later with rfl | ⟨piece, listed, inside⟩
          · exact Or.inl rfl
          · rcases List.mem_cons.mp listed with rfl | deeper
            · exact Or.inr ⟨first :: piece, List.mem_cons_self, List.mem_cons_of_mem _ inside⟩
            · exact Or.inr ⟨piece, List.mem_cons_of_mem _ deeper, inside⟩

/-- Above the root there is nothing, so an absolute path has no parent segments. -/
theorem pushSegment_plain {stack : List (List Char)} {piece : List Char} (single : '/' ∉ piece)
    (plain : ∀ name ∈ stack, PlainSegment name) :
    ∀ name ∈ pushSegment false stack piece, PlainSegment name := by
  unfold pushSegment
  split
  · exact plain
  · next visible =>
      split
      · split
        · split
          · simpa using plain
          · exact fun name member => plain name (List.mem_cons_of_mem _ member)
        · simp
      · next notParent =>
          intro name member
          rcases List.mem_cons.mp member with rfl | member
          · exact ⟨fun empty => visible (Or.inl empty), single, fun self => visible (Or.inr self), notParent⟩
          · exact plain name member

theorem segments_plain (absolute : isAbsolute path = true) : ∀ name ∈ segments path, PlainSegment name := by
  have folded : ∀ (pieces stack : List (List Char)), (∀ piece ∈ pieces, '/' ∉ piece) →
      (∀ name ∈ stack, PlainSegment name) →
      ∀ name ∈ pieces.foldl (pushSegment false) stack, PlainSegment name := by
    intro pieces
    induction pieces with
    | nil => exact fun stack _ plain => plain
    | cons piece rest ih =>
      intro stack single plain
      exact ih _ (fun other member => single other (List.mem_cons_of_mem _ member))
        (pushSegment_plain (single piece List.mem_cons_self) plain)
  intro name member
  rw [segments, absolute, List.mem_reverse] at member
  exact folded _ [] (fun piece member => not_mem_of_mem_splitOn member) (by simp) name member

/-- The segments of a rendered path are its names, without the empty ones. -/
theorem segments_render (single : ∀ name ∈ names, '/' ∉ name)
    (visible : ∀ name ∈ names, name ≠ ['.'] ∧ name ≠ parentDir) :
    segments (render names) = names.filter fun name => !name.isEmpty := by
  have folded : ∀ (aboveRoot : Bool) (pieces stack : List (List Char)),
      (∀ piece ∈ pieces, piece ≠ ['.'] ∧ piece ≠ parentDir) →
      pieces.foldl (pushSegment aboveRoot) stack = (pieces.filter fun name => !name.isEmpty).reverse ++ stack := by
    intro aboveRoot pieces
    induction pieces with
    | nil => simp
    | cons piece rest ih =>
      intro stack seen
      have later := fun other (member : other ∈ rest) => seen other (List.mem_cons_of_mem _ member)
      obtain ⟨notSelf, notParent⟩ := seen piece List.mem_cons_self
      rw [List.foldl_cons, ih _ later, List.filter_cons]
      cases piece with
      | nil => simp [pushSegment]
      | cons c more => simp [pushSegment, notSelf, notParent]
  rw [segments, splitOn_render single, folded _ _ [] (by
    intro piece member
    rcases List.mem_cons.mp member with rfl | member
    · simp [parentDir]
    · exact visible piece member)]
  simp

theorem segments_render_plain (plain : ∀ name ∈ names, PlainSegment name) : segments (render names) = names := by
  rw [segments_render (fun name member => (plain name member).single) fun name member =>
    ⟨(plain name member).notSelf, (plain name member).notParent⟩]
  exact List.filter_eq_self.mpr fun name member => by simp [(plain name member).nonempty]

/-- A normalized absolute path below the root is its segments, perhaps with a slash after them. -/
theorem eq_render_of_normalized (absolute : isAbsolute path = true) (normal : normalize path = path)
    (below : path ≠ ['/']) :
    segments path ≠ [] ∧ path = render (segments path) ++ (if path.getLast? == some '/' then ['/'] else []) := by
  have nonempty : path ≠ [] := by
    rintro rfl
    cases absolute
  have names : segments path ≠ [] := by
    intro empty
    rw [normalize, if_neg nonempty, empty] at normal
    simp only [absolute, List.intercalate_nil, if_true] at normal
    exact below normal.symm
  refine ⟨names, ?_⟩
  have body : ['/'].intercalate (segments path) ≠ [] := by
    cases pieces : segments path with
    | nil => exact absurd pieces names
    | cons first rest =>
      have plain := segments_plain absolute first (by simp [pieces])
      intro empty
      have rendered := congrArg (['/'] ++ ·) empty
      cases rest with
      | nil => exact plain.nonempty (by simpa using empty)
      | cons other more =>
        rw [List.intercalate_cons_cons] at empty
        exact plain.nonempty (List.append_eq_nil_iff.mp (List.append_eq_nil_iff.mp empty).1).1
  rw [normalize, if_neg nonempty] at normal
  simp only [if_neg body, absolute, if_true] at normal
  rw [← intercalate_eq_render, intercalate_cons_nil names]
  exact normal.symm

/-- A text with a slash after it begins a rendered path exactly where it renders some of the first segments. -/
theorem prefix_render {dir : List Char} (single : ∀ name ∈ names, '/' ∉ name)
    (below : dir ++ ['/'] <+: render names) :
    ∃ front, front <+: names ∧ front ≠ names ∧ dir = render front := by
  induction names generalizing dir with
  | nil =>
    have empty := List.prefix_nil.mp below
    simp at empty
  | cons name rest ih =>
    cases dir with
    | nil => exact ⟨[], List.nil_prefix, (List.cons_ne_nil _ _).symm, rfl⟩
    | cons c dir =>
      rw [List.cons_append, render_cons, List.cons_prefix_cons] at below
      obtain ⟨rfl, below⟩ := below
      have longer : name <+: dir := by
        rcases List.prefix_or_prefix_of_prefix (List.prefix_append name (render rest)) below with shorter | inside
        · rcases List.prefix_concat_iff.mp shorter with whole | shorter
          · exact absurd (whole ▸ List.mem_append_right _ List.mem_cons_self) (single name List.mem_cons_self)
          · exact shorter
        · exact absurd (inside.subset (List.mem_append_right _ List.mem_cons_self)) (single name List.mem_cons_self)
      obtain ⟨dir, rfl⟩ := longer
      rw [List.append_assoc] at below
      obtain ⟨front, inside, different, same⟩ :=
        ih (fun other member => single other (List.mem_cons_of_mem _ member))
          ((List.prefix_append_right_inj name).mp below)
      exact ⟨name :: front, List.cons_prefix_cons.mpr ⟨rfl, inside⟩,
        fun same => different (List.cons.inj same).2, by simp [same]⟩

theorem render_prefix_of {front names : List (List Char)} (inside : front <+: names) (different : front ≠ names) :
    render front ++ ['/'] <+: render names := by
  obtain ⟨more, rfl⟩ := inside
  cases more with
  | nil => exact absurd (List.append_nil front).symm different
  | cons name rest =>
    rw [render_append, render_cons]
    exact (List.prefix_append_right_inj _).mpr (List.cons_prefix_cons.mpr ⟨rfl, List.nil_prefix⟩)

end ProxyPilot.Data
