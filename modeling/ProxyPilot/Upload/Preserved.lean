import ProxyPilot.Upload.Apply

namespace ProxyPilot.Upload

open Data

variable {path : FilePath} {tree next : Tree} {c c' : Commit} {entries : List Entry}

theorem oldPath_eq (named : path ≠ []) : oldPath path = path.dropLast ++ [path.getLast named ++ ".old".toList] := by
  induction path with
  | nil => exact absurd rfl named
  | cons name rest ih =>
    cases rest with
    | nil => rfl
    | cons other more =>
      have deeper := ih (List.cons_ne_nil other more)
      rw [oldPath, deeper]
      · rfl
      · exact List.cons_ne_nil other more

theorem prefix_oldPath {path front : FilePath} (named : path ≠ []) (inside : front <+: oldPath path) :
    front = oldPath path ∨ front <+: path := by
  rw [oldPath_eq named] at inside ⊢
  rcases List.prefix_concat_iff.mp inside with same | shorter
  · exact Or.inl same
  · exact Or.inr (shorter.trans (List.dropLast_prefix path))

theorem length_oldPath (named : path ≠ []) : (oldPath path).length = path.length := by
  rw [oldPath_eq named, List.length_append, List.length_dropLast, List.length_singleton]
  have := List.length_pos_of_ne_nil named
  omega

theorem oldPath_ne (named : path ≠ []) : oldPath path ≠ path := by
  intro same
  rw [oldPath_eq named] at same
  have last := congrArg List.getLast? same
  rw [List.getLast?_concat, List.getLast?_eq_some_getLast named] at last
  have lengths := congrArg List.length (Option.some.inj last)
  rw [List.length_append] at lengths
  have suffix : ".old".toList.length = 4 := by decide
  omega

theorem oldPath_injective {left right : FilePath} (leftNamed : left ≠ []) (rightNamed : right ≠ [])
    (same : oldPath left = oldPath right) :
    left = right := by
  rw [oldPath_eq leftNamed, oldPath_eq rightNamed] at same
  obtain ⟨fronts, lasts⟩ := List.append_inj' same rfl
  have names := List.append_cancel_right (List.singleton_inj.mp lasts)
  rw [← List.dropLast_concat_getLast leftNamed, ← List.dropLast_concat_getLast rightNamed, fronts, names]

theorem not_oldPath_below (named : path ≠ []) (below : FilePath) : ¬ oldPath path <+: path ++ below := by
  intro inside
  refine oldPath_ne named (List.prefix_of_prefix_length_le inside (List.prefix_append path below) ?_
    |>.eq_of_length (length_oldPath named))
  exact (length_oldPath named).le

theorem setAside_frame {relPath path : FilePath} (ran : setAside tree relPath = .ok next)
    (outside : ¬ relPath <+: path)
    (notOld : ¬ oldPath relPath <+: path) : next.node path = tree.node path := by
  unfold setAside at ran
  split at ran
  · cases ran
  · split at ran
    · cases ran
      rfl
    · rw [FileTree.rename_frame (host_ok.mp ran) notOld outside, FileTree.node_remove _ notOld]

theorem setAside_moves {relPath : FilePath} (ran : setAside tree relPath = .ok next)
    (present : (tree.node relPath).isSome)
    (below : FilePath) : next.node (oldPath relPath ++ below) = tree.node (relPath ++ below) := by
  unfold setAside at ran
  split at ran
  · cases ran
  · next named =>
      split at ran
      · next vacant => simp [Option.isNone_iff_eq_none.mp vacant] at present
      · rw [FileTree.rename_moves (host_ok.mp ran), FileTree.node_remove _ (not_oldPath_below named below)]

theorem setAside_run_frame {conflicts : List FilePath} (ran : conflicts.foldlM setAside tree = .ok next)
    (outside : ∀ p ∈ conflicts, ¬ p <+: path ∧ ¬ oldPath p <+: path) : next.node path = tree.node path := by
  refine foldlM_keeps (fun s : Tree => s.node path = tree.node path) ran ?_ rfl
  intro p member s s' step same
  rw [setAside_frame step (outside p member).1 (outside p member).2, same]

section Extraction

variable {data : EntryData} {limits : ZipLimits} {s s' : Staging} {e : Entry} {path : FilePath}

/-- What extracting one entry does. -/
theorem extractEntry_ok (ran : extractEntry data limits s e = .ok s') :
    (e.isDirectory = true ∧ s.tree.mkdirp e.path = .ok s'.tree) ∨
      (e.isDirectory = false ∧ ∃ made bytes, s.tree.mkdirp e.path.dropLast = .ok made ∧
        made.writeFile e.path bytes = .ok s'.tree) := by
  unfold extractEntry at ran
  split at ran
  · next directory =>
      obtain ⟨tree, made, same⟩ := bind_ok.mp ran
      cases same
      exact Or.inl ⟨directory, host_ok.mp made⟩
  · next file =>
      split at ran
      · cases ran
      · next bytes _ =>
          obtain ⟨_, ran⟩ := require_bind_ok.mp ran
          obtain ⟨made, making, ran⟩ := bind_ok.mp ran
          obtain ⟨tree, writing, same⟩ := bind_ok.mp ran
          cases same
          exact Or.inr ⟨by simpa using file, made, bytes, host_ok.mp making, host_ok.mp writing⟩

theorem mkdirp_keeps_directory {tree next : Tree} {made : FilePath} (ran : tree.mkdirp made = .ok next)
    (directory : tree.node path = some .directory) : next.node path = some .directory := by
  rw [(FileTree.mkdirp_ok ran).2]
  split
  · rfl
  · exact directory

theorem mkdirp_keeps_file {tree next : Tree} {made : FilePath} (ran : tree.mkdirp made = .ok next)
    (file : tree.isFile path = true) :
    next.isFile path = true := by
  have outside : ¬ path <+: made := by
    intro inside
    rw [(FileTree.mkdirp_ok ran).1 path inside] at file
    cases file
  rw [FileTree.isFile_iff] at file ⊢
  rwa [FileTree.mkdirp_frame ran outside]

theorem extractEntry_keeps_directory (ran : extractEntry data limits s e = .ok s')
    (directory : s.tree.node path = some .directory) :
    s'.tree.node path = some .directory := by
  rcases extractEntry_ok ran with ⟨_, making⟩ | ⟨_, made, bytes, making, writing⟩
  · exact mkdirp_keeps_directory making directory
  · have kept := mkdirp_keeps_directory making directory
    have elsewhere : path ≠ e.path := by
      rintro rfl
      exact (FileTree.writeFile_ok writing).1 kept
    rw [FileTree.writeFile_frame writing elsewhere, kept]

theorem extractEntry_keeps_file (ran : extractEntry data limits s e = .ok s') (file : s.tree.isFile path = true) :
    s'.tree.isFile path = true := by
  rcases extractEntry_ok ran with ⟨_, making⟩ | ⟨_, made, bytes, making, writing⟩
  · exact mkdirp_keeps_file making file
  · have kept := mkdirp_keeps_file making file
    rw [FileTree.isFile_iff] at kept ⊢
    rw [(FileTree.writeFile_ok writing).2]
    split
    · exact ⟨bytes, rfl⟩
    · exact kept

theorem extractEntry_writes (ran : extractEntry data limits s e = .ok s')
    (file : e.isDirectory = false) : s'.tree.isFile e.path = true := by
  rcases extractEntry_ok ran with ⟨directory, _⟩ | ⟨_, made, bytes, _, writing⟩
  · rw [file] at directory
    cases directory
  · rw [FileTree.isFile_iff, (FileTree.writeFile_ok writing).2, if_pos rfl]
    exact ⟨bytes, rfl⟩

theorem extractEntry_above (ran : extractEntry data limits s e = .ok s') (inside : path <+: e.path)
    (above : path ≠ e.path) :
    s'.tree.node path = some .directory := by
  rcases extractEntry_ok ran with ⟨_, making⟩ | ⟨_, made, bytes, making, writing⟩
  · exact FileTree.mkdirp_directory making inside
  · have parent : path <+: e.path.dropLast := by
      rcases List.eq_nil_or_concat e.path with empty | ⟨front, name, same⟩
      · rw [empty] at inside above
        exact absurd (List.prefix_nil.mp inside) above
      · rw [same] at inside above ⊢
        rw [List.concat_eq_append] at inside above
        rw [List.concat_eq_append, List.dropLast_concat]
        rcases List.prefix_concat_iff.mp inside with own | shorter
        · exact absurd own above
        · exact shorter
    rw [FileTree.writeFile_frame writing above]
    exact FileTree.mkdirp_directory making parent

/-- A staged archive has no file entry above another entry. -/
theorem extracted_apart {entries : List Entry} {start : Staging}
    (ran : entries.foldlM (extractEntry data limits) start = .ok s') {file : Entry}
    (fileMember : file ∈ entries) (isFile : file.isDirectory = false) (member : e ∈ entries)
    (inside : file.path <+: e.path) :
    file.path = e.path := by
  by_contra above
  have written : s'.tree.isFile file.path = true :=
    foldlM_reaches (fun s => s.tree.isFile file.path = true) ran
      (fun _ _ _ _ step => extractEntry_keeps_file step) fileMember
      fun _ _ step => extractEntry_writes step isFile
  have directory : s'.tree.node file.path = some .directory :=
    foldlM_reaches (fun s => s.tree.node file.path = some .directory) ran
      (fun _ _ _ _ step => extractEntry_keeps_directory step) member
      fun _ _ step => extractEntry_above step inside above
  obtain ⟨content, file⟩ := FileTree.isFile_iff.mp written
  rw [directory] at file
  cases file

end Extraction

theorem placeEntry_frame {e : Entry} (ran : placeEntry c e = .ok c') (outside : ¬ path <+: e.path) :
    c'.target.node path = c.target.node path := by
  unfold placeEntry at ran
  split at ran
  · obtain ⟨target, making, same⟩ := bind_ok.mp ran
    cases same
    exact FileTree.mkdirp_frame (host_ok.mp making) outside
  · split at ran
    · cases ran
    · obtain ⟨made, making, ran⟩ := bind_ok.mp ran
      have parent : ¬ path <+: e.path.dropLast := fun inside => outside (inside.trans (List.dropLast_prefix e.path))
      split at ran
      · obtain ⟨target, writing, same⟩ := bind_ok.mp ran
        cases same
        rw [FileTree.writeFile_frame (host_ok.mp writing) fun same => outside (same ▸ List.prefix_rfl),
          FileTree.mkdirp_frame (host_ok.mp making) parent]
      · cases ran
      · cases ran

theorem place_run_frame (ran : entries.foldlM placeEntry c = .ok c')
    (outside : ∀ e ∈ entries, ¬ path <+: e.path) : c'.target.node path = c.target.node path := by
  refine foldlM_keeps (fun s : Commit => s.target.node path = c.target.node path) ran ?_ rfl
  intro e member s s' step same
  rw [placeEntry_frame step (outside e member), same]

/-- Nothing is placed where the target is a file itself. -/
theorem place_run_root (ran : entries.foldlM placeEntry c = .ok c') (some : entries ≠ []) :
    c.target.isFile [] = false := by
  cases entries with
  | nil => exact absurd rfl some
  | cons e rest =>
    rw [List.foldlM_cons] at ran
    obtain ⟨_, first, _⟩ := bind_ok.mp ran
    unfold placeEntry at first
    split at first
    · obtain ⟨_, making, _⟩ := bind_ok.mp first
      exact (FileTree.mkdirp_ok (host_ok.mp making)).1 [] List.nil_prefix
    · split at first
      · cases first
      · obtain ⟨_, making, _⟩ := bind_ok.mp first
        exact (FileTree.mkdirp_ok (host_ok.mp making)).1 [] List.nil_prefix

theorem mem_neededDirs {e : Entry} (named : e.path ≠ []) :
    path ∈ neededDirs e ↔ path ≠ [] ∧ path <+: e.path ∧ (path = e.path → e.isDirectory = true) := by
  simp only [neededDirs, List.mem_map, List.mem_range]
  constructor
  · rintro ⟨i, bound, rfl⟩
    refine ⟨?_, List.take_prefix _ _, ?_⟩
    · intro empty
      rcases List.take_eq_nil_iff.mp empty with zero | nothing
      · exact absurd zero (by omega)
      · exact named nothing
    · intro whole
      by_contra file
      rw [if_neg file] at bound
      have lengths := congrArg List.length whole
      rw [List.length_take] at lengths
      omega
  · rintro ⟨nonempty, inside, directory⟩
    have positive := List.length_pos_of_ne_nil nonempty
    have bounded := inside.length_le
    refine ⟨path.length - 1, ?_, ?_⟩
    · split
      · omega
      · next file =>
          have shorter : path.length ≠ e.path.length := fun same => file (directory (inside.eq_of_length same))
          omega
    · rw [Nat.sub_add_cancel positive]
      exact (List.prefix_iff_eq_take.mp inside).symm

theorem mem_findConflicts {kind : FilePath → Option Kind} :
    path ∈ findConflicts entries kind ↔
      (∃ e ∈ entries, e.isDirectory = false ∧ e.path = path ∧ (kind path).isSome) ∨
        ∃ e ∈ entries, path ∈ neededDirs e ∧ kind path = some .file := by
  unfold findConflicts
  rw [List.mem_insertionSort, List.mem_dedup, List.mem_append, List.mem_filter, List.mem_filter,
    List.mem_map, List.mem_flatMap]
  simp only [List.mem_filter, Bool.not_eq_true', beq_iff_eq]
  constructor
  · rintro (⟨⟨e, ⟨member, file⟩, same⟩, present⟩ | ⟨⟨e, member, needed⟩, found⟩)
    · exact Or.inl ⟨e, member, file, same, present⟩
    · exact Or.inr ⟨e, member, needed, found⟩
  · rintro (⟨e, member, file, same, present⟩ | ⟨e, member, needed, found⟩)
    · exact Or.inl ⟨⟨e, ⟨member, file⟩, same⟩, present⟩
    · exact Or.inr ⟨⟨e, member, needed⟩, found⟩

theorem nodup_findConflicts (entries : List Entry) (kind : FilePath → Option Kind) :
    (findConflicts entries kind).Nodup :=
  (List.perm_insertionSort sortsBefore _).nodup_iff.mpr (List.nodup_dedup _)

theorem kind_file {tree : Tree} : fsExistsKind tree path = some .file ↔ tree.isFile path = true := by
  unfold fsExistsKind FileTree.isFile
  cases tree.node path with
  | none => simp
  | some node => cases node <;> simp

theorem kind_present {tree : Tree} : (fsExistsKind tree path).isSome = (tree.node path).isSome := by
  unfold fsExistsKind
  cases tree.node path with
  | none => rfl
  | some node => cases node <;> rfl

section Reported

variable {entries : List Entry} {target : Tree} (paths : ∀ e ∈ entries, e.path ≠ [])

include paths

theorem reported_facts {p : FilePath} (reported : p ∈ findConflicts entries (fsExistsKind target)) :
    p ≠ [] ∧ (target.node p).isSome ∧ ∃ e ∈ entries, p <+: e.path := by
  rcases mem_findConflicts.mp reported with ⟨e, member, _, rfl, present⟩ | ⟨e, member, needed, file⟩
  · exact ⟨paths e member, kind_present ▸ present, e, member, List.prefix_rfl⟩
  · have facts := (mem_neededDirs (paths e member)).mp needed
    refine ⟨facts.1, ?_, e, member, facts.2.1⟩
    rw [← kind_present, file]
    rfl

/-- Of a staged archive, no conflict lies above another one. -/
theorem reported_apart {data : EntryData} {limits : ZipLimits} {s start : Staging}
    (extracted : entries.foldlM (extractEntry data limits) start = .ok s) {p q : FilePath}
    (pReported : p ∈ findConflicts entries (fsExistsKind target))
    (qReported : q ∈ findConflicts entries (fsExistsKind target))
    (inside : q <+: p) : q = p := by
  obtain ⟨_, present, e, member, within⟩ := reported_facts paths pReported
  rcases mem_findConflicts.mp qReported with ⟨f, fMember, file, rfl, _⟩ | ⟨f, fMember, needed, file⟩
  · have whole := extracted_apart extracted fMember file member (inside.trans within)
    rw [← whole] at within
    exact (List.prefix_of_prefix_length_le inside List.prefix_rfl inside.length_le).eq_of_length
      (Nat.le_antisymm inside.length_le within.length_le)
  · obtain ⟨below, rfl⟩ := inside
    by_contra different
    have deeper : below ≠ [] := by
      rintro rfl
      exact different (List.append_nil q).symm
    obtain ⟨content, found⟩ := FileTree.isFile_iff.mp (kind_file.mp file)
    rw [FileTree.directory_of_below target deeper present] at found
    cases found

/-- A live file that an entry's path runs through is reported. -/
theorem reported_of_named {path : FilePath} (file : target.isFile path = true) {e : Entry}
    (member : e ∈ entries) (nonempty : path ≠ [])
    (inside : path <+: e.path) : path ∈ findConflicts entries (fsExistsKind target) := by
  rw [mem_findConflicts]
  by_cases own : path = e.path ∧ e.isDirectory = false
  · refine Or.inl ⟨e, member, own.2, own.1.symm, ?_⟩
    rw [kind_file.mpr file]
    rfl
  · refine Or.inr ⟨e, member,
      (mem_neededDirs (paths e member)).mpr ⟨nonempty, inside, fun same => ?_⟩, kind_file.mpr file⟩
    simpa [same] using own

/-- Nothing in the archive or among the reports stands at or below `<p>.old`, and no report's `.old`
name is at or above `p`. -/
structure Spared (entries : List Entry) (target : Tree) (p : FilePath) : Prop where
  unnamed : ∀ e ∈ entries, ¬ oldPath p <+: e.path
  apart : ∀ q ∈ findConflicts entries (fsExistsKind target), ¬ oldPath q <+: p

variable {data : EntryData} {limits : ZipLimits} {s start : Staging} {p q : FilePath}

/-- Setting another object aside touches neither the live object nor the one under its `.old` name. -/
theorem spared_untouched (extracted : entries.foldlM (extractEntry data limits) start = .ok s)
    (pReported : p ∈ findConflicts entries (fsExistsKind target))
    (qReported : q ∈ findConflicts entries (fsExistsKind target))
    (different : q ≠ p) (spared : Spared entries target p) (below : FilePath) :
    (¬ q <+: p ++ below ∧ ¬ oldPath q <+: p ++ below) ∧
      (¬ q <+: oldPath p ++ below ∧ ¬ oldPath q <+: oldPath p ++ below) := by
  obtain ⟨pNamed, _, _⟩ := reported_facts paths pReported
  obtain ⟨qNamed, _, e, member, within⟩ := reported_facts paths qReported
  have notAbove : ¬ q <+: p := fun inside => different (reported_apart paths extracted pReported qReported inside)
  have notBelow : ¬ p <+: q :=
    fun inside => different (reported_apart paths extracted qReported pReported inside).symm
  have oldUnnamed : ¬ oldPath p <+: q := fun inside => spared.unnamed e member (inside.trans within)
  refine ⟨⟨fun inside => ?_, fun inside => ?_⟩, fun inside => ?_, fun inside => ?_⟩
  · rcases List.prefix_or_prefix_of_prefix inside (List.prefix_append p below) with up | down
    · exact notAbove up
    · exact notBelow down
  · rcases List.prefix_or_prefix_of_prefix inside (List.prefix_append p below) with up | down
    · exact spared.apart q qReported up
    · rcases prefix_oldPath qNamed down with same | front
      · exact spared.apart q qReported (same ▸ List.prefix_rfl)
      · exact notBelow front
  · rcases List.prefix_or_prefix_of_prefix inside (List.prefix_append (oldPath p) below) with up | down
    · rcases prefix_oldPath pNamed up with same | front
      · exact oldUnnamed (same ▸ List.prefix_rfl)
      · exact notAbove front
    · exact oldUnnamed down
  · rcases List.prefix_or_prefix_of_prefix inside (List.prefix_append (oldPath p) below) with up | down
    · rcases prefix_oldPath pNamed up with same | front
      · exact different (oldPath_injective qNamed pNamed same)
      · exact spared.apart q qReported front
    · rcases prefix_oldPath qNamed down with same | front
      · exact different (oldPath_injective qNamed pNamed same.symm)
      · exact oldUnnamed front

theorem setAside_run_moves {aside : Tree} (extracted : entries.foldlM (extractEntry data limits) start = .ok s)
    (ran : (findConflicts entries (fsExistsKind target)).foldlM setAside target = .ok aside)
    (reported : p ∈ findConflicts entries (fsExistsKind target)) (spared : Spared entries target p)
    (below : FilePath) :
    aside.node (oldPath p ++ below) = target.node (p ++ below) := by
  obtain ⟨_, present, _⟩ := reported_facts paths reported
  have others := fun q qReported different =>
      spared_untouched paths (q := q) extracted reported qReported different spared
  have distinct := nodup_findConflicts entries (fsExistsKind target)
  obtain ⟨before, after, split⟩ := List.append_of_mem reported
  rw [split] at ran distinct others
  have apart : p ∉ before ∧ p ∉ after := by
    simp only [List.nodup_append, List.nodup_cons, List.mem_cons, ne_eq] at distinct
    exact ⟨fun member => distinct.2.2 p member p (Or.inl rfl) rfl, distinct.2.1.1⟩
  rw [List.foldlM_append] at ran
  obtain ⟨first, ranBefore, ran⟩ := bind_ok.mp ran
  rw [List.foldlM_cons] at ran
  obtain ⟨second, step, ranAfter⟩ := bind_ok.mp ran
  have untilThen : ∀ below, first.node (p ++ below) = target.node (p ++ below) := fun below =>
    setAside_run_frame ranBefore fun q member =>
      (others q (List.mem_append_left _ member) (fun same => apart.1 (same ▸ member)) below).1
  have still : (first.node p).isSome := by
    have same := untilThen []
    rw [List.append_nil] at same
    rwa [same]
  rw [setAside_run_frame ranAfter fun q member =>
      (others q (List.mem_append_right _ (List.mem_cons_of_mem _ member))
        (fun same => apart.2 (same ▸ member)) below).2,
    setAside_moves step still, untilThen]

end Reported

theorem upload_ok {data : EntryData} {limits : ZipLimits} {target final : Tree}
    (completed : upload data limits entries target = .ok final) :
    ∃ s aside c, entries.foldlM (extractEntry data limits) ⟨FileTree.root, 0⟩ = .ok s ∧
      (findConflicts entries (fsExistsKind target)).foldlM setAside target = .ok aside ∧
      entries.foldlM placeEntry ⟨s.tree, aside⟩ = .ok c ∧ c.target = final := by
  unfold upload applyStagingToTarget extractToStaging at completed
  obtain ⟨s, extracted, completed⟩ := bind_ok.mp completed
  obtain ⟨aside, ran, completed⟩ := bind_ok.mp completed
  obtain ⟨c, placed, same⟩ := bind_ok.mp completed
  exact ⟨s, aside, c, extracted, ran, placed, Except.ok.inj same⟩

/-- A reported object is found under its `.old` name, and no other live file changes but the stale `.old` ones. -/
theorem upload_keeps_live_files {limits : ZipLimits} {records : List Record}
    {parsed entries : List Entry} {doStrip : Bool} {data : EntryData}
    {target final : Tree} (accepted : parseZip limits records = .ok parsed)
    (effective : effectiveEntries parsed doStrip = .ok entries)
    (completed : upload data limits entries target = .ok final) :
    (∀ p ∈ findConflicts entries (fsExistsKind target), Spared entries target p →
      ∀ below, final.node (oldPath p ++ below) = target.node (p ++ below)) ∧
    ∀ path, target.isFile path = true →
      (∀ p ∈ findConflicts entries (fsExistsKind target), ¬ p <+: path ∧ ¬ oldPath p <+: path) →
      final.node path = target.node path := by
  obtain ⟨s, aside, c, extracted, ran, placed, rfl⟩ := upload_ok completed
  have paths : ∀ e ∈ entries, e.path ≠ [] :=
    effectiveEntries_paths (fun e member => parseZip_paths accepted member) effective
  constructor
  · intro p reported spared below
    rw [place_run_frame placed fun e member inside =>
      spared.unnamed e member ((List.prefix_append _ _).trans inside)]
    exact setAside_run_moves paths extracted ran reported spared below
  · intro path file elsewhere
    have aside : aside.node path = target.node path := setAside_run_frame ran elsewhere
    have outside : ∀ e ∈ entries, ¬ path <+: e.path := by
      intro e member inside
      by_cases named : path = []
      · subst named
        have free := place_run_root placed (List.ne_nil_of_mem member)
        rw [FileTree.isFile, aside] at free
        exact absurd file (by rw [FileTree.isFile, free]; decide)
      · exact (elsewhere path (reported_of_named paths file member named inside)).1 List.prefix_rfl
    rw [place_run_frame placed outside, aside]

private def withFile (tree : Tree) (path : FilePath) (content : Bytes) : Tree :=
  match tree.mkdirp path.dropLast with
  | .ok made =>
    match made.writeFile path content with
    | .ok next => next
    | .error _ => tree
  | .error _ => tree

private def page : FilePath := ["index.html".toList]

private def olderPage : FilePath := ["index.html.old".toList]

private def site : Tree := withFile FileTree.root page [1]

private def siteWithBackup : Tree := withFile site olderPage [2]

private def fileRecord (name : String) : Record where
  versionMadeBy := 0
  gpFlags := 0
  method := 0
  compressedSize := 1
  uncompressedSize := 1
  externalAttrs := 0
  localHeaderOffset := 0
  rawName := name.toList

private def pageRecord : Record := fileRecord "index.html"

private def fileEntry (name : String) : Entry := ⟨[name.toList], false, 0, 0, 1, 1, 0⟩

private def pageEntry : Entry := fileEntry "index.html"

private def generous : ZipLimits := ⟨1000, 10⟩

private def newPage : EntryData := fun _ => .ok [3]

private def logo : FilePath := ["logo.png".toList]

/-- Beside the page there are a directory with a logo and some notes. -/
private def fullSite : Tree := withFile (withFile site ("img".toList :: logo) [5]) ["notes.txt".toList] [7]

private def newEntries : List Entry := [pageEntry, fileEntry "img", fileEntry "about.html"]

/-- A page, a file in the place of the directory, and a file that is new. -/
theorem upload_keeps_live_files_page : ∃ final, upload newPage generous newEntries fullSite = .ok final ∧
    (final.node olderPage = some (.file [1]) ∧ final.node page = some (.file [3])) ∧
    (final.node ("img.old".toList :: logo) = some (.file [5]) ∧ final.node ["img".toList] = some (.file [3])) ∧
    final.node ["notes.txt".toList] = some (.file [7]) ∧
    (∀ p ∈ findConflicts newEntries (fsExistsKind fullSite), Spared newEntries fullSite p →
      ∀ below, final.node (oldPath p ++ below) = fullSite.node (p ++ below)) ∧
    ∀ path, fullSite.isFile path = true →
      (∀ p ∈ findConflicts newEntries (fsExistsKind fullSite), ¬ p <+: path ∧ ¬ oldPath p <+: path) →
        final.node path = fullSite.node path := by
  have evaluated : parseZip generous (["index.html", "img", "about.html"].map fileRecord) = .ok newEntries ∧
      ((upload newPage generous newEntries fullSite).toOption.map fun final =>
        [olderPage, page, "img.old".toList :: logo, ["img".toList], ["notes.txt".toList]].map final.node) =
        some ([[1], [3], [5], [3], [7]].map fun content => some (.file content)) := by
    constructor
    · rfl
    · decide +kernel
  cases completed : upload newPage generous newEntries fullSite with
  | error failure =>
    rw [completed] at evaluated
    cases evaluated.2
  | ok final =>
    rw [completed] at evaluated
    have nodes := Option.some.inj evaluated.2
    simp only [List.map_cons, List.map_nil, List.cons.injEq, and_true] at nodes
    obtain ⟨older, newer, moved, placed, notes⟩ := nodes
    exact ⟨final, rfl, ⟨older, newer⟩, ⟨moved, placed⟩, notes,
      upload_keeps_live_files evaluated.1 (show effectiveEntries newEntries false =
        .ok newEntries from rfl) completed⟩

/-- An older copy that the archive does not name is gone. -/
theorem stale_copy_replaced :
    ¬ ∀ (limits : ZipLimits) (records : List Record) (entries : List Entry) (data : EntryData) (target final : Tree),
    parseZip limits records = .ok entries → upload data limits entries target = .ok final →
      (∀ p ∈ findConflicts entries (fsExistsKind target), ∃ n, ∀ below,
        final.node (oldPath^[n + 1] p ++ below) = target.node (p ++ below)) ∧
      ∀ path, target.isFile path = true → (∀ p ∈ findConflicts entries (fsExistsKind target), ¬ p <+: path) →
        (∀ e ∈ entries, e.path ≠ path) → final.node path = target.node path := by
  intro always
  have evaluated : parseZip generous [pageRecord] = .ok [pageEntry] ∧
      ((upload newPage generous [pageEntry] siteWithBackup).toOption.map fun final =>
        final.node olderPage) = some (some (.file [1])) ∧
      siteWithBackup.node olderPage = some (.file [2]) ∧
      (∀ p ∈ findConflicts [pageEntry] (fsExistsKind siteWithBackup), ¬ p <+: olderPage) ∧
        pageEntry.path ≠ olderPage := by
    constructor
    · rfl
    · decide +kernel
  obtain ⟨parsed, ran, before, notReported, notNamed⟩ := evaluated
  cases completed : upload newPage generous [pageEntry] siteWithBackup with
  | error failure =>
    rw [completed] at ran
    cases ran
  | ok final =>
    rw [completed] at ran
    have kept :=
      (always generous [pageRecord] [pageEntry] newPage siteWithBackup final parsed completed).2 olderPage
      (FileTree.isFile_iff.mpr ⟨_, before⟩) notReported (fun e member => List.mem_singleton.mp member ▸ notNamed)
    rw [before, show final.node olderPage = _ from Option.some.inj ran] at kept
    cases kept

end ProxyPilot.Upload
