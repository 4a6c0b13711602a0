import ProxyPilot.AppStorage.Selection

namespace ProxyPilot.AppStorage

open Data

/-! # What a cleanup can reach

A path and a protected path are compared by their segments, so that every spelling of a
protected path stands for the same place.
-/

/-- The one exception: a cache directly under the store of a home that is itself protected. -/
def Exempt (item : Item) (target : Target) (p q : Text) : Prop :=
  item.category = .caches ∧ ∃ h ∈ homesOf target, segments h = segments q ∧
    ∃ name, segments p = segments h ++ [".npm".toList, name] ∨ segments p = segments h ++ [".cache".toList, name]

/-- A path that a cleanup may remove. -/
structure OutOfReach (item : Item) (target : Target) (roots : List Text) (p : Text) : Prop where
  absolute : isAbsolute p = true
  normal : normalize p = p
  below : ∃ root ∈ roots, segments root <+: segments p ∧ segments root ≠ segments p
  spares : ∀ q ∈ protectedPaths target item, segments q <+: segments p ∨ segments p <+: segments q →
    Exempt item target p q

/-- The segments a protected path is written with: at most one slash too many, at the end or before
the last name. -/
structure Spelled (q : Text) (front rest : List Text) : Prop where
  text : q = render (front ++ rest)
  some : front ≠ []
  plain : ∀ name ∈ front, PlainSegment name
  tail : rest = [] ∨ rest = [[]] ∨ ∃ name, PlainSegment name ∧ rest = [[], name]

theorem spelled_of_own {q : Text} (own : isOwnPath q = true) :
    ∃ front rest, Spelled q front rest ∧ (rest = [] ∨ rest = [[]]) := by
  simp only [isOwnPath, Bool.and_eq_true, beq_iff_eq, bne_iff_ne] at own
  obtain ⟨⟨absolute, normal⟩, below⟩ := own
  obtain ⟨some, text⟩ := eq_render_of_normalized absolute normal below
  split at text
  · refine ⟨segments q, [[]], ⟨?_, some, segments_plain absolute, Or.inr (Or.inl rfl)⟩, Or.inr rfl⟩
    rw [render_append]
    exact text
  · refine ⟨segments q, [], ⟨?_, some, segments_plain absolute, Or.inl rfl⟩, Or.inl rfl⟩
    rw [List.append_nil]
    simpa using text

theorem spelled_child {dir : Text} (own : isOwnPath dir = true) {name : Text} (plain : PlainSegment name) :
    ∃ front rest, Spelled (dir ++ '/' :: name) front rest := by
  obtain ⟨front, rest, spelled, last⟩ := spelled_of_own own
  rcases last with rfl | rfl
  · refine ⟨front ++ [name], [], ?_, by simp, ?_, Or.inl rfl⟩
    · rw [spelled.text, List.append_nil, List.append_nil, render_append]
      simp
    · intro other member
      rcases List.mem_append.mp member with member | member
      · exact spelled.plain other member
      · exact List.mem_singleton.mp member ▸ plain
  · refine ⟨front, [[], name], ?_, spelled.some, spelled.plain, Or.inr (Or.inr ⟨name, plain, rfl⟩)⟩
    rw [spelled.text, render_append, render_append]
    simp

theorem own_of_profilePath (p : ProfilePath) : isOwnPath p.text = true := by
  have valid := p.valid
  simp only [profilePath, Bool.and_eq_true, decide_eq_true_eq, beq_iff_eq] at valid
  obtain ⟨⟨⟨absolute, long⟩, _⟩, normal⟩ := valid
  simp only [isOwnPath, Bool.and_eq_true, beq_iff_eq, bne_iff_ne]
  refine ⟨⟨absolute, normal⟩, fun same => ?_⟩
  rw [same] at long
  exact absurd long (by decide)

theorem own_appDir (appDir : Option Text) : isOwnPath (appDirOf appDir) = true := by
  unfold appDirOf
  cases found : appDir.filter isOwnPath with
  | none => decide
  | some dir => exact (Option.filter_eq_some_iff.mp found).2

variable {target : Target} {item : Item} {names : List Text}

theorem protected_spelled {q : Text} (member : q ∈ protectedPaths target item) :
    ∃ front rest, Spelled q front rest := by
  have own : isOwnPath q = true → ∃ front rest, Spelled q front rest := by
    intro own
    obtain ⟨front, rest, spelled, _⟩ := spelled_of_own own
    exact ⟨front, rest, spelled⟩
  have databases : ∀ dir ∈ databaseDirs, isOwnPath dir = true := by decide
  rcases List.mem_append.mp member with database | declared
  · exact own (databases q database)
  · cases kind : target.kind with
    | application id profile =>
      rw [kind] at declared
      rcases List.mem_append.mp declared with listed | source
      · obtain ⟨x, _, rfl⟩ := List.mem_map.mp listed
        have valid := own_of_profilePath x
        have normal : normalize x.text = x.text := by
          simp only [isOwnPath, Bool.and_eq_true, beq_iff_eq] at valid
          exact valid.1.2
        rw [normal]
        obtain ⟨front, rest, spelled, _⟩ := spelled_of_own valid
        exact ⟨front, rest, spelled⟩
      · split at source
        · cases source
        · obtain ⟨dir, _, rfl⟩ := Option.map_eq_some_iff.mp (Option.mem_toList.mp source)
          exact own (own_of_profilePath dir)
    | project appDir repoMount =>
      rw [kind] at declared
      simp only [List.mem_cons, List.not_mem_nil, or_false] at declared
      rcases declared with rfl | rfl | rfl
      · exact spelled_child (own_appDir appDir)
          (show PlainSegment "state".toList from ⟨by decide, by decide, by decide, by decide⟩)
      · exact spelled_child (own_appDir appDir)
          (show PlainSegment "data".toList from ⟨by decide, by decide, by decide, by decide⟩)
      · cases repoMount with
        | none => exact own (by decide)
        | some dir => exact own (own_of_profilePath dir)

section Spelling

variable {q : Text} {front rest : List Text} (spelled : Spelled q front rest)

include spelled

theorem Spelled.single : ∀ name ∈ front ++ rest, '/' ∉ name := by
  intro name member
  rcases List.mem_append.mp member with member | member
  · exact (spelled.plain name member).single
  · rcases spelled.tail with rfl | rfl | ⟨last, plain, rfl⟩
    · cases member
    · simp [List.mem_singleton.mp member]
    · simp only [List.mem_cons, List.not_mem_nil, or_false] at member
      rcases member with rfl | rfl
      · simp
      · exact plain.single

theorem Spelled.segments : segments q = front ++ rest.filter fun name => !name.isEmpty := by
  rw [spelled.text, segments_render spelled.single, List.filter_append]
  · congr 1
    exact List.filter_eq_self.mpr fun name member => by simp [(spelled.plain name member).nonempty]
  · intro name member
    rcases List.mem_append.mp member with member | member
    · exact ⟨(spelled.plain name member).notSelf, (spelled.plain name member).notParent⟩
    · rcases spelled.tail with rfl | rfl | ⟨last, plain, rfl⟩
      · cases member
      · rw [List.mem_singleton.mp member]
        decide
      · simp only [List.mem_cons, List.not_mem_nil, or_false] at member
        rcases member with rfl | rfl
        · decide
        · exact ⟨plain.notSelf, plain.notParent⟩

/-- Of the segments in front of the last one, none is missing from the spelling. -/
theorem Spelled.prefix_or_whole {b : List Text} (inside : b <+: Data.segments q) :
    b <+: front ∨ b = Data.segments q := by
  rw [spelled.segments] at inside ⊢
  rcases spelled.tail with rfl | rfl | ⟨name, plain, rfl⟩
  · exact Or.inl (by simpa using inside)
  · exact Or.inl (by simpa using inside)
  · simp only [List.filter_cons, List.isEmpty_nil, List.isEmpty_eq_false_iff.mpr plain.nonempty,
      Bool.not_true, Bool.not_false, if_true,
      Bool.false_eq_true, if_false, List.filter_nil] at inside ⊢
    rcases List.prefix_concat_iff.mp inside with whole | shorter
    · exact Or.inr whole
    · exact Or.inl shorter

theorem Spelled.not_plain (extra : rest ≠ []) : q ≠ render (Data.segments q) := by
  intro same
  have plainNames : ∀ name ∈ Data.segments q, name ≠ [] := by
    intro name member
    rw [spelled.segments, List.mem_append, List.mem_filter] at member
    rcases member with member | member
    · exact (spelled.plain name member).nonempty
    · simpa using member.2
  have singles : ∀ name ∈ Data.segments q, '/' ∉ name := by
    intro name member
    rw [spelled.segments, List.mem_append, List.mem_filter] at member
    exact spelled.single name (List.mem_append.mpr (member.imp id And.left))
  have lists := render_injective spelled.single singles (spelled.text.symm.trans same)
  have hole : [] ∈ front ++ rest := by
    rcases spelled.tail with rfl | rfl | ⟨name, _, rfl⟩
    · exact absurd rfl extra
    · simp
    · simp
  rw [lists] at hole
  exact plainNames [] hole rfl

end Spelling

theorem usable_render {p : Text} (ok : usable p = true) :
    isAbsolute p = true ∧ normalize p = p ∧ segments p ≠ [] ∧ p = render (segments p) := by
  simp only [usable, Bool.and_eq_true, beq_iff_eq, bne_iff_ne, Bool.not_eq_true'] at ok
  obtain ⟨⟨⟨⟨absolute, normal⟩, below⟩, closed⟩, _⟩ := ok
  obtain ⟨some, text⟩ := eq_render_of_normalized absolute normal below
  rw [if_neg (by simpa using closed), List.append_nil] at text
  exact ⟨absolute, normal, some, text⟩

theorem render_ne_slash (plain : ∀ name ∈ names, PlainSegment name) : render names ≠ slash := by
  cases names with
  | nil => decide
  | cons name rest =>
    intro same
    rw [render_cons] at same
    exact (plain name List.mem_cons_self).nonempty (List.append_eq_nil_iff.mp (List.cons.inj same).2).1

theorem inside_of_prefix {front names : List Text} (plain : ∀ name ∈ front, PlainSegment name)
    (isPrefix : front <+: names) :
    inside (render front) (render names) = true := by
  unfold inside
  rw [if_neg (render_ne_slash plain), Bool.or_eq_true]
  by_cases same : front = names
  · exact Or.inl (by simp [same])
  · exact Or.inr (List.isPrefixOf_iff_prefix.mpr (render_prefix_of isPrefix same))

/-- Whatever the spelling of the root: a plain path inside it has its segments in front. -/
theorem segments_of_inside {root : Text} (plain : ∀ name ∈ names, PlainSegment name)
    (below : inside root (render names) = true) :
    segments root <+: names ∧ (root = slash ∨ root = render (segments root)) := by
  unfold inside at below
  rw [Bool.or_eq_true] at below
  rcases below with same | deeper
  · have root := (beq_iff_eq.mp same).symm
    subst root
    rw [segments_render_plain plain]
    exact ⟨List.prefix_rfl, Or.inr rfl⟩
  · split at deeper
    · next top =>
        subst top
        exact ⟨by rw [show segments slash = [] by decide]; exact List.nil_prefix, Or.inl rfl⟩
    · obtain ⟨front, isPrefix, _, rfl⟩ :=
        prefix_render (fun name member => (plain name member).single) (List.isPrefixOf_iff_prefix.mp deeper)
      have frontPlain : ∀ name ∈ front, PlainSegment name := fun name member => plain name (isPrefix.subset member)
      rw [segments_render_plain frontPlain]
      exact ⟨isPrefix, Or.inr rfl⟩

theorem pathAllowed_ok {roots : List Text} (allowed : pathAllowed item target = .ok roots) :
    roots = ((removalRules item target).map RemovalRule.dir).eraseDups ∧
      ∀ path ∈ coveredPaths item, ∃ p, path = some p ∧ usable p = true ∧
        (∃ r ∈ removalRules item target, r.covers p = true) ∧
        ∀ q ∈ protectedPaths target item, protectedProblem p item target q = none := by
  unfold pathAllowed at allowed
  simp only [] at allowed
  split at allowed
  · cases allowed
  · split at allowed
    · cases allowed
    · split at allowed
      · cases allowed
      · next clear =>
          cases allowed
          refine ⟨rfl, fun path member => ?_⟩
          have one := List.findSome?_eq_none_iff.mp clear path member
          unfold onePathAllowed at one
          split at one
          · cases one
          · next p found =>
              obtain ⟨same, ok⟩ := Option.filter_eq_some_iff.mp found
              split at one
              · cases one
              · next covered =>
                  simp only [Bool.not_eq_true', Bool.not_eq_false, List.any_eq_true] at covered
                  exact ⟨p, same, ok, covered, List.findSome?_eq_none_iff.mp one⟩

theorem protectedProblem_none {p q : Text} (none : protectedProblem p item target q = none) :
    (inside q p = true → item.category = .caches ∧ q ∈ homesOf target) ∧ inside p q = false := by
  unfold protectedProblem at none
  split at none
  · cases none
  · next outside =>
      split at none
      · cases none
      · next notAbove =>
          refine ⟨fun within => ?_, by simpa using notAbove⟩
          simpa [within] using outside

theorem below_root {p : Text} (plain : ∀ name ∈ names, PlainSegment name) (text : p = render names)
    {r : RemovalRule}
    (covers : r.covers p = true) : segments r.dir <+: names ∧ segments r.dir ≠ names := by
  subst text
  unfold RemovalRule.covers at covers
  split at covers
  · cases covers
  · next placed =>
      simp only [Bool.or_eq_true, Bool.not_eq_true', not_or, Bool.not_eq_false, beq_iff_eq] at placed
      obtain ⟨different, within⟩ := placed
      obtain ⟨isPrefix, spelling⟩ := segments_of_inside plain within
      refine ⟨isPrefix, fun same => ?_⟩
      rcases spelling with top | written
      · rw [top] at within same
        have empty : names = [] := same.symm.trans (by decide)
        subst empty
        exact absurd within (by decide)
      · exact different (by rw [written, same])

/-- Whether the spelling of `q` hides what lies in it, or `q` is a home that caches may be removed from. -/
def Overlooked (item : Item) (target : Target) (q : Text) : Prop :=
  q ≠ render (segments q) ∨ (item.category = .caches ∧ q ∈ homesOf target)

/-- An accepted item reaches no protected data exactly when none of its paths lies in an overlooked
protected path. -/
theorem cleanup_spares_protected {item : Item} {target : Target} {roots : List Text}
    (allowed : pathAllowed item target = .ok roots) :
    (∀ path ∈ coveredPaths item, ∃ p, path = some p ∧ OutOfReach item target roots p) ↔
      ∀ p, some p ∈ coveredPaths item → ∀ q ∈ protectedPaths target item, Overlooked item target q →
        segments q <+: segments p → Exempt item target p q := by
  obtain ⟨rootsAre, accepted⟩ := pathAllowed_ok allowed
  constructor
  · intro reached p member q listed _ within
    obtain ⟨p', same, out⟩ := reached (some p) member
    cases same
    exact out.spares q listed (Or.inl within)
  · intro spared path member
    obtain ⟨p, rfl, ok, ⟨r, ruleMember, covers⟩, clear⟩ := accepted path member
    obtain ⟨absolute, normal, some, text⟩ := usable_render ok
    have plain := segments_plain absolute
    refine ⟨p, rfl, absolute, normal, ⟨r.dir, ?_, below_root plain text covers⟩, ?_⟩
    · rw [rootsAre, List.mem_eraseDups]
      exact List.mem_map_of_mem ruleMember
    · intro q listed near
      obtain ⟨front, rest, spelled⟩ := protected_spelled listed
      obtain ⟨exception, notAbove⟩ := protectedProblem_none (clear q listed)
      -- a plain path at or above the written segments of `q` is refused
      have free : ∀ b, b = segments p → ¬ b <+: front := by
        rintro b rfl up
        have above := inside_of_prefix plain (up.trans (List.prefix_append front rest))
        rw [← text, ← spelled.text, notAbove] at above
        cases above
      rcases near with within | up
      · by_cases extra : rest = []
        · subst extra
          have whole := spelled.segments
          rw [List.filter_nil, List.append_nil] at whole
          have written := spelled.text
          rw [List.append_nil] at written
          have held := inside_of_prefix spelled.plain (whole ▸ within)
          rw [← text, ← written] at held
          exact spared p member q listed (Or.inr (exception held)) within
        · exact spared p member q listed (Or.inl (spelled.not_plain extra)) within
      · rcases spelled.prefix_or_whole up with front | whole
        · exact absurd front (free _ rfl)
        · by_cases extra : rest = []
          · subst extra
            have segs := spelled.segments
            rw [List.filter_nil, List.append_nil] at segs
            exact absurd (whole.trans segs ▸ List.prefix_rfl) (free _ rfl)
          · exact spared p member q listed (Or.inl (spelled.not_plain extra)) (whole ▸ List.prefix_rfl)

def shopLogs : ProfilePath := ⟨"/var/log/shop/".toList, by decide⟩

def shopTarget : Target where
  kind := .application 7 { sourceDir := none, releaseRoot := none, preservePaths := [shopLogs], envFiles := [] }
  serviceHome := none
  serviceUserHome := none
  homes := []

def singleItem (category : Category) (path : String) : Item where
  category := category
  onHost := false
  removesRelease := false
  isGroup := false
  path := some path.toList
  members := []

theorem cleanup_spares_protected_upload :
    ∃ roots, pathAllowed (singleItem .temp "/tmp/upload-1") shopTarget = .ok roots ∧
      ∀ path ∈ coveredPaths (singleItem .temp "/tmp/upload-1"), ∃ p, path = some p ∧
        OutOfReach (singleItem .temp "/tmp/upload-1") shopTarget roots p := by
  have allowed : pathAllowed (singleItem .temp "/tmp/upload-1") shopTarget =
      .ok ["/tmp".toList, "/var/tmp".toList] := by decide +kernel
  refine ⟨_, allowed, (cleanup_spares_protected allowed).mpr ?_⟩
  have apart : ∀ q ∈ protectedPaths shopTarget (singleItem .temp "/tmp/upload-1"),
      ¬ segments q <+: segments "/tmp/upload-1".toList := by decide +kernel
  intro p member q listed _ within
  cases List.mem_singleton.mp member
  exact absurd within (apart q listed)

/-- A log inside a preserved directory that is written with a closing slash is accepted. -/
theorem log_of_preserved_directory :
    ¬ ∀ (item : Item) (target : Target) (roots : List Text), pathAllowed item target = .ok roots →
      ∀ path ∈ coveredPaths item, ∃ p, path = some p ∧ OutOfReach item target roots p := by
  intro spares
  have facts : pathAllowed (singleItem .logs "/var/log/shop/a.log") shopTarget = .ok ["/var/log".toList] ∧
      shopLogs.text ∈ protectedPaths shopTarget (singleItem .logs "/var/log/shop/a.log") ∧
      segments shopLogs.text <+: segments "/var/log/shop/a.log".toList := by decide +kernel
  obtain ⟨allowed, listed, within⟩ := facts
  obtain ⟨p, same, out⟩ := spares _ _ _ allowed _ List.mem_cons_self
  cases same
  exact absurd (out.spares _ listed (Or.inl within)).1 (by decide)

end ProxyPilot.AppStorage
