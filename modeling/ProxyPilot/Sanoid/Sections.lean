import ProxyPilot.Sanoid.Policy

namespace ProxyPilot.Sanoid

/-! # The sections that a dataset can take

The three loops of `renderSanoidConf` write each name at most once.  A name has the section
of the first loop that has one for it.
-/

def Rendered.find (r : Rendered) (name : Text) : Option Section := r.sections.find? fun s => s.name == name

/-- `written` is the set of the names that have a section. -/
def Rendered.Tracks (r : Rendered) : Prop := ∀ name, name ∈ r.written ↔ (r.find name).isSome

def Section.named (name : Text) (s : Section) : Option Section := if s.name = name then some s else none

theorem Section.named_bind {given : Option Section} {name : Text} :
    (given.bind (Section.named name)).isSome ↔ ∃ s, given = some s ∧ s.name = name := by
  cases given with
  | none => simp
  | some s => by_cases same : s.name = name <;> simp [Section.named, same]

theorem Rendered.find_push (r : Rendered) (s : Section) (name : Text) :
    (r.push s).find name = (r.find name).or (s.named name) := by
  by_cases same : s.name = name
  · simp [Rendered.find, Rendered.push, Section.named, List.find?_append, same]
  · simp [Rendered.find, Rendered.push, Section.named, List.find?_append, same]

variable {r : Rendered} {step : Rendered → α → Rendered} {gives : α → Option Section}

theorem Rendered.push_tracks (tracks : r.Tracks) (s : Section) : (r.push s).Tracks := by
  intro name
  rw [Rendered.find_push]
  by_cases same : s.name = name
  · simp [Rendered.push, Section.named, same]
  · have other : name ≠ s.name := fun h => same h.symm
    simpa [Rendered.push, Section.named, same, other] using tracks name

/-- A turn writes the section of its entry, unless the name has one. -/
structure Writes (step : Rendered → α → Rendered) (gives : α → Option Section) (r : Rendered) (x : α) : Prop where
  tracks : (step r x).Tracks
  find : ∀ name, (step r x).find name = (r.find name).or ((gives x).bind (Section.named name))
  sections : ∀ s ∈ (step r x).sections, s ∈ r.sections ∨ gives x = some s

theorem Writes.foldl (each : ∀ r x, r.Tracks → Writes step gives r x) (xs : List α) :
    ∀ r : Rendered, r.Tracks → (xs.foldl step r).Tracks ∧
      (∀ name, (xs.foldl step r).find name =
        (r.find name).or (xs.findSome? fun x => (gives x).bind (Section.named name))) ∧
      ∀ s ∈ (xs.foldl step r).sections, s ∈ r.sections ∨ ∃ x ∈ xs, gives x = some s := by
  induction xs with
  | nil => exact fun r tracks => ⟨tracks, by simp, fun s mem => Or.inl mem⟩
  | cons x rest induction =>
    intro r tracks
    have turn := each r x tracks
    have ⟨later, found, sections⟩ := induction (step r x) turn.tracks
    refine ⟨later, fun name => ?_, fun s mem => ?_⟩
    · rw [List.foldl_cons, found name, turn.find name, List.findSome?_cons]
      cases (gives x).bind (Section.named name) <;> simp
    · rcases sections s mem with old | ⟨y, ymem, gave⟩
      · rcases turn.sections s old with old | gave
        · exact Or.inl old
        · exact Or.inr ⟨x, List.mem_cons_self, gave⟩
      · exact Or.inr ⟨y, List.mem_cons_of_mem x ymem, gave⟩

variable {s : Section} {x : α} {key : Key} {front : Body}

theorem Writes.push (tracks : r.Tracks)
    (gave : gives x = some s) (wrote : step r x = r.push s) : Writes step gives r x := by
  refine ⟨wrote ▸ Rendered.push_tracks tracks s, fun name => ?_, fun t mem => ?_⟩
  · rw [wrote, Rendered.find_push, gave, Option.bind_some]
  · rw [wrote] at mem
    rcases List.mem_append.mp mem with old | new
    · exact Or.inl old
    · rw [List.mem_singleton.mp new]
      exact Or.inr gave

theorem Writes.skip (tracks : r.Tracks)
    (kept : step r x = r) (known : ∀ s, gives x = some s → s.name ∈ r.written) : Writes step gives r x := by
  refine ⟨by rwa [kept], fun name => ?_, fun t mem => Or.inl (by rwa [kept] at mem)⟩
  rw [kept]
  cases found : r.find name with
  | some s => simp
  | none =>
    rw [Option.none_or, eq_comm, ← Option.not_isSome_iff_eq_none, Section.named_bind]
    rintro ⟨s, gave, rfl⟩
    have written := (tracks s.name).mp (known s gave)
    rw [found] at written
    simp at written

section

variable (policy : Policy) (managed : Managed) (guestDatasets : List GuestDataset)

@[simp] theorem rootSection_name (cls : PolicyClass) (ds : Text) : (rootSection policy cls ds).name = ds := rfl

@[simp] theorem guestSection_name (ov : Option GuestOverride) (dataset : Text) :
    (guestSection ov dataset).name = dataset := rfl

@[simp] theorem datasetSection_name (ds : Text) (ov : DatasetOverride) :
    (datasetSection policy managed ds ov).name = ds := rfl

@[simp] theorem rootSection_recursive (cls : PolicyClass) (ds : Text) :
    (rootSection policy cls ds).recursive = (cls == .guests) := by
  cases cls <;> rfl

@[simp] theorem guestSection_recursive (ov : Option GuestOverride) (dataset : Text) :
    (guestSection ov dataset).recursive = false := rfl

@[simp] theorem datasetSection_recursive (ds : Text) (ov : DatasetOverride) :
    (datasetSection policy managed ds ov).recursive = false := rfl

/-- What is found first for a guest that lives on the dataset. -/
def guestOverride (name : Text) : Option (Option GuestOverride) :=
  guestDatasets.findSome? fun g => if g.dataset = name then policy.guest g.guest else none

variable {s : Section} {name : Text}

/-- The section from above: that of the Incus root. -/
def inherited (name : Text) : Option Section :=
  ((managed.root .guests).filter (below · name)).map (rootSection policy .guests)

end

/-- The lines of a section that say nothing of snapshots. -/
def Plumbing (front : Body) : Prop :=
  ∀ entry ∈ front, entry.1 = .useTemplate ∨ entry.1 = .recursive ∨ entry.1 = .processChildrenOnly

theorem Plumbing.lookup (plumbing : Plumbing front) (other : key ≠ .useTemplate) (also : key ≠ .recursive)
    (more : key ≠ .processChildrenOnly) (rest : Body) : (front ++ rest).lookup key = rest.lookup key := by
  rw [List.lookup_append]
  have missing : front.lookup key = none := by
    rw [List.lookup_eq_none_iff]
    intro entry mem
    rcases plumbing entry mem with template | recursive | children
    · simpa [template] using other
    · simpa [recursive] using also
    · simpa [children] using more
  rw [missing, Option.none_or]

end ProxyPilot.Sanoid
