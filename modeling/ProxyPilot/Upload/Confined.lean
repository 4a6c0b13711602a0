import ProxyPilot.Data.Paths
import ProxyPilot.Upload.Buffer

namespace ProxyPilot.Upload.Buffer

open Data

/-- A name that stands for itself in a path. -/
structure SafeSegment (seg : Text) : Prop where
  nonempty : seg ≠ []
  notDot : seg ≠ ['.']
  notDotDot : seg ≠ ['.', '.']
  noSlash : '/' ∉ seg
  noBackslash : '\\' ∉ seg
  noControl : ∀ c ∈ seg, controlChar c = false

structure SafePath (path : FilePath) : Prop where
  nonempty : path ≠ []
  segments : ∀ seg ∈ path, SafeSegment seg

/-- What the parser promises of the entries, for a limit on the size of the files. -/
structure SafeEntries (maxExtractedBytes : Nat) (entries : List Entry) : Prop where
  paths : ∀ e ∈ entries, SafePath e.path
  distinct : ((files entries).map Entry.path).Nodup
  links : ∀ e ∈ entries, fileType e.mode ≠ 0xa000
  declared : declaredBytes entries ≤ maxExtractedBytes

theorem dropEnd_mem {drops : Char → Bool} {text : Text} {c : Char}
    (member : c ∈ dropEnd drops text) : c ∈ text := by
  simp only [dropEnd, List.mem_reverse] at member
  exact List.mem_reverse.mp ((List.dropWhile_sublist _).mem member)

theorem validateEntryName_safe {rawName : Text} {path : FilePath}
    (valid : validateEntryName rawName = .ok path) : SafePath path := by
  have nonempty := validateEntryName_ne_nil valid
  unfold validateEntryName at valid
  obtain ⟨_, valid⟩ := require_bind_ok.mp valid
  obtain ⟨_, valid⟩ := require_bind_ok.mp valid
  obtain ⟨printable, valid⟩ := require_bind_ok.mp valid
  obtain ⟨plain, valid⟩ := require_bind_ok.mp valid
  obtain ⟨_, valid⟩ := require_bind_ok.mp valid
  obtain ⟨_, valid⟩ := require_bind_ok.mp valid
  obtain ⟨_, valid⟩ := require_bind_ok.mp valid
  obtain ⟨safe, valid⟩ := require_bind_ok.mp valid
  cases valid
  refine ⟨nonempty, fun seg member => ?_⟩
  have fromName : ∀ c ∈ seg, c ∈ rawName := fun c inside => dropEnd_mem (mem_of_mem_splitOn member inside)
  have allowed : isUnsafeSegment seg = false := by simpa using List.any_eq_false.mp (by simpa using safe) seg member
  simp only [isUnsafeSegment, Bool.or_eq_false_iff] at allowed
  exact {
    nonempty := by simpa using allowed.1.1
    notDot := by simpa using allowed.1.2
    notDotDot := by simpa using allowed.2
    noSlash := not_mem_of_mem_splitOn member
    noBackslash := fun inside => by simp [fromName _ inside] at plain
    noControl := fun c inside => by
      simp only [Bool.not_eq_true', List.any_eq_false] at printable
      simpa using printable c (fromName c inside) }

/-- The computation throws no `RangeError`. -/
def InBounds (ran : Except Thrown α) : Prop := ∀ offset, ran ≠ .error (.range offset)

theorem inBounds_bind {α β : Type} {ran : Except Thrown α} {next : α → Except Thrown β} (first : InBounds ran)
    (later : ∀ a, ran = .ok a → InBounds (next a)) : InBounds (ran >>= next) := by
  intro offset failed
  rcases bind_error.mp failed with failed | ⟨a, done, failed⟩
  · exact first offset failed
  · exact later a done offset failed

theorem inBounds_ok (a : α) : InBounds (.ok a : Except Thrown α) := fun _ failed => nomatch failed

theorem inBounds_pure {α : Type} (a : α) : InBounds (pure a : Except Thrown α) := inBounds_ok a

variable {error : ZipError} {ran : Except ZipError α} {n off : Nat} {wrapper : FilePath} {max : Nat}

theorem inBounds_require {holds : Bool} : InBounds (require holds (.zip error)) := by
  intro offset failed
  cases (require_error.mp failed).2

theorem inBounds_demand {found : Option α} : InBounds (demand found (.zip error)) := by
  intro offset failed
  cases (demand_error.mp failed).2

theorem inBounds_zip : InBounds (zip ran) := by
  intro offset failed
  cases ran <;> cases failed

variable {buf : Bytes} {limits : Limits} {inflate : Inflate} {e : Entry} {entries : List Entry}
  {outcome : Except Stopped Unit} {s next : Staged} {start : Tree} {root : FilePath}

theorem inBounds_read {width offset : Nat} (fits : offset + width ≤ buf.length) :
    InBounds (readUInt width buf offset) := by
  rw [readUInt, if_pos fits]
  exact inBounds_ok _

theorem findEocd_inBounds {scanFloor i : Nat} (fits : i + 4 ≤ buf.length) :
    InBounds (findEocd buf scanFloor i) := by
  induction i with
  | zero =>
    unfold findEocd
    split
    · exact inBounds_ok _
    · exact inBounds_bind (inBounds_read fits) fun _ _ => inBounds_pure _
  | succ i ih =>
    unfold findEocd
    split
    · exact inBounds_ok _
    · apply inBounds_bind (inBounds_read fits)
      intro signature _
      split
      · exact inBounds_ok _
      · exact ih (by omega)

theorem findEocd_le {scanFloor i eocd : Nat} (found : findEocd buf scanFloor i = .ok (some eocd)) : eocd ≤ i := by
  induction i with
  | zero =>
    unfold findEocd at found
    split at found
    · cases found
    · obtain ⟨signature, _, found⟩ := bind_ok.mp found
      split at found
      · cases found
        exact Nat.le_refl _
      · cases found
  | succ i ih =>
    unfold findEocd at found
    split at found
    · cases found
    · obtain ⟨signature, _, found⟩ := bind_ok.mp found
      split at found
      · cases found
        exact Nat.le_refl _
      · exact Nat.le_succ_of_le (ih found)

theorem readRecord_inBounds {off : Nat} (fits : off + 46 ≤ buf.length) : InBounds (readRecord buf off) := by
  have field : ∀ at' width, at' + width ≤ 46 → InBounds (readUInt width buf (off + at')) := by
    intro at' width small
    exact inBounds_read (by omega)
  unfold readRecord
  refine inBounds_bind (field 4 2 (by omega)) fun _ _ => ?_
  refine inBounds_bind (field 8 2 (by omega)) fun _ _ => ?_
  refine inBounds_bind (field 10 2 (by omega)) fun _ _ => ?_
  refine inBounds_bind (field 20 4 (by omega)) fun _ _ => ?_
  refine inBounds_bind (field 24 4 (by omega)) fun _ _ => ?_
  refine inBounds_bind (field 28 2 (by omega)) fun _ _ => ?_
  refine inBounds_bind (field 30 2 (by omega)) fun _ _ => ?_
  refine inBounds_bind (field 32 2 (by omega)) fun _ _ => ?_
  refine inBounds_bind (field 38 4 (by omega)) fun _ _ => ?_
  refine inBounds_bind (field 42 4 (by omega)) fun _ _ => ?_
  exact inBounds_pure _

theorem readEntries_inBounds : InBounds (readEntries buf n off) := by
  induction n generalizing off with
  | zero => exact inBounds_ok _
  | succ n ih =>
    unfold readEntries
    apply inBounds_bind inBounds_require
    intro _ fits
    have room : off + 46 ≤ buf.length := by simpa using require_ok.mp fits
    refine inBounds_bind (inBounds_read (by omega)) fun _ _ => ?_
    refine inBounds_bind inBounds_require fun _ _ => ?_
    refine inBounds_bind (readRecord_inBounds room) fun _ _ => ?_
    refine inBounds_bind inBounds_zip fun _ _ => ?_
    exact inBounds_bind ih fun _ _ => inBounds_pure _

theorem parseZip_inBounds : InBounds (parseZip limits buf) := by
  unfold parseZip
  apply inBounds_bind inBounds_require
  intro _ large
  have room : 22 ≤ buf.length := by simpa using require_ok.mp large
  refine inBounds_bind inBounds_require fun _ _ => ?_
  apply inBounds_bind (findEocd_inBounds (by omega))
  intro found searched
  apply inBounds_bind inBounds_demand
  intro eocd given
  have inside : eocd ≤ buf.length - 22 := findEocd_le (by rw [searched, demand_ok.mp given])
  refine inBounds_bind (inBounds_read (by omega)) fun _ _ => ?_
  refine inBounds_bind (inBounds_read (by omega)) fun _ _ => ?_
  refine inBounds_bind (inBounds_read (by omega)) fun _ _ => ?_
  refine inBounds_bind inBounds_require fun _ _ => ?_
  refine inBounds_bind inBounds_require fun _ _ => ?_
  refine inBounds_bind inBounds_require fun _ _ => ?_
  refine inBounds_bind readEntries_inBounds fun _ _ => ?_
  exact inBounds_bind inBounds_zip fun _ _ => inBounds_pure _

theorem unpack_inBounds {raw : Bytes} : InBounds (unpack inflate limits raw e) := by
  unfold unpack
  intro offset failed
  split at failed
  · cases failed
  · split at failed <;> cases failed

theorem extractEntryData_inBounds :
    InBounds (extractEntryData inflate limits buf e) := by
  unfold extractEntryData
  apply inBounds_bind inBounds_require
  intro _ fits
  have room : e.localHeaderOffset + 30 ≤ buf.length := by simpa using require_ok.mp fits
  refine inBounds_bind (inBounds_read (by omega)) fun _ _ => ?_
  refine inBounds_bind inBounds_require fun _ _ => ?_
  refine inBounds_bind (inBounds_read (by omega)) fun _ _ => ?_
  refine inBounds_bind (inBounds_read (by omega)) fun _ _ => ?_
  refine inBounds_bind inBounds_require fun _ _ => ?_
  refine inBounds_bind unpack_inBounds fun _ _ => ?_
  exact inBounds_bind inBounds_require fun _ _ => inBounds_pure _

theorem readEntry_safe {record : Record} (read : readEntry record = .ok e) :
    SafePath e.path ∧ fileType e.mode ≠ 0xa000 := by
  unfold readEntry at read
  obtain ⟨_, read⟩ := require_bind_ok.mp read
  obtain ⟨_, read⟩ := require_bind_ok.mp read
  obtain ⟨_, read⟩ := require_bind_ok.mp read
  obtain ⟨path, valid, read⟩ := bind_ok.mp read
  obtain ⟨noLink, read⟩ := require_bind_ok.mp read
  cases read
  exact ⟨validateEntryName_safe valid, by simpa using noLink⟩

theorem zip_ok {a : α} : zip ran = .ok a ↔ ran = .ok a := by
  cases ran <;> simp [zip]

theorem readEntries_safe (read : readEntries buf n off = .ok entries) :
    ∀ e ∈ entries, SafePath e.path ∧ fileType e.mode ≠ 0xa000 := by
  induction n generalizing off entries with
  | zero =>
    cases read
    simp
  | succ n ih =>
    simp only [readEntries, bind_ok, zip_ok] at read
    obtain ⟨_, _, _, _, _, _, ⟨record, next⟩, _, e, first, rest, later, same⟩ := read
    cases same
    exact List.forall_mem_cons.mpr ⟨readEntry_safe first, ih later⟩

theorem repeated_none {seen paths : List FilePath} (none : repeated seen paths = none) :
    paths.Nodup ∧ ∀ path ∈ paths, path ∉ seen := by
  induction paths generalizing seen with
  | nil => simp
  | cons path rest ih =>
    unfold repeated at none
    split at none
    · cases none
    · next new =>
        obtain ⟨distinct, others⟩ := ih none
        refine ⟨List.nodup_cons.mpr ⟨fun again => ?_, distinct⟩,
          List.forall_mem_cons.mpr ⟨by simpa using new, fun later member => ?_⟩⟩
        · exact others path again List.mem_cons_self
        · exact fun inside => others later member (List.mem_cons_of_mem _ inside)

theorem parseZip_safe {total : Nat} (parsed : parseZip limits buf = .ok (entries, total)) :
    SafeEntries limits.maxExtractedBytes entries ∧ total = declaredBytes entries := by
  simp only [parseZip, bind_ok, zip_ok] at parsed
  obtain ⟨_, _, _, _, _, _, _, _, _, _, _, _, _, _, _, _, _, _, _, _, all, read, _, checked, same⟩ := parsed
  cases same
  have each := readEntries_safe read
  unfold checkEntries at checked
  obtain ⟨declared, checked⟩ := require_bind_ok.mp checked
  obtain ⟨_, checked⟩ := require_bind_ok.mp checked
  split at checked
  · cases checked
  · next none =>
      exact ⟨{
        paths := fun e member => (each e member).1
        distinct := (repeated_none none).1
        links := fun e member => (each e member).2
        declared := by simpa using declared }, rfl⟩

theorem sum_filter_le {keeps : Entry → Bool} :
    ((entries.filter keeps).map Entry.uncompressedSize).sum ≤ (entries.map Entry.uncompressedSize).sum := by
  induction entries with
  | nil => simp
  | cons e rest ih =>
    rw [List.filter_cons]
    split <;> simp <;> omega

/-- The files among the stripped entries. -/
theorem files_below (wrapper : FilePath) (entries : List Entry) :
    files ((entries.filter (·.path ≠ wrapper)).map (·.below wrapper)) =
      ((files entries).filter (·.path ≠ wrapper)).map (·.below wrapper) := by
  have kinds : (fun e : Entry => !e.isDirectory) ∘ (fun e : Entry => e.below wrapper) = fun e =>
      !e.isDirectory := rfl
  simp only [files, List.filter_map, List.filter_filter, kinds, Bool.and_comm]

theorem below_path (inside : wrapper <+: e.path) : wrapper ++ (e.below wrapper).path = e.path := by
  obtain ⟨rest, same⟩ := inside
  simp [Entry.below, ← same]

theorem stripWrapper_safe {entries stripped : List Entry} (safe : SafeEntries max entries)
    (ran : stripWrapper wrapper entries = .ok stripped) : SafeEntries max stripped := by
  obtain ⟨rfl, inside⟩ := stripWrapper_ok ran
  have kept : ∀ e ∈ entries.filter (·.path ≠ wrapper), e ∈ entries ∧ e.path ≠ wrapper ∧
      wrapper ++ (e.below wrapper).path = e.path := by
    intro e member
    obtain ⟨listed, other⟩ := List.mem_filter.mp member
    have different : e.path ≠ wrapper := by simpa using other
    exact ⟨listed, different, below_path (inside e listed different)⟩
  constructor
  case paths =>
    intro e member
    obtain ⟨before, beforeMember, rfl⟩ := List.mem_map.mp member
    obtain ⟨listed, different, whole⟩ := kept before beforeMember
    have original := safe.paths before listed
    refine ⟨fun empty => different (by rw [← whole, empty, List.append_nil]),
      fun seg segMember => original.segments seg ?_⟩
    rw [← whole]
    exact List.mem_append_right _ segMember
  case distinct =>
    rw [files_below, List.map_map, List.Nodup, List.pairwise_map]
    have apart : ((files entries).filter (·.path ≠ wrapper)).Pairwise fun a b => a.path ≠ b.path :=
      (List.pairwise_map.mp safe.distinct).sublist List.filter_sublist
    refine apart.imp_of_mem fun {a b} aMember bMember different same => different ?_
    have member : ∀ e ∈ (files entries).filter (·.path ≠ wrapper), e ∈ entries.filter (·.path ≠ wrapper) := by
      intro e listed
      obtain ⟨file, other⟩ := List.mem_filter.mp listed
      exact List.mem_filter.mpr ⟨(List.mem_filter.mp file).1, other⟩
    rw [← (kept a (member a aMember)).2.2, ← (kept b (member b bMember)).2.2]
    exact congrArg (wrapper ++ ·) same
  case links =>
    intro e member
    obtain ⟨before, beforeMember, rfl⟩ := List.mem_map.mp member
    exact safe.links before (kept before beforeMember).1
  case declared =>
    rw [declaredBytes, files_below, List.map_map]
    exact Nat.le_trans sum_filter_le safe.declared

theorem effectiveEntries_safe {entries chosen : List Entry} {doStrip : Bool} (safe : SafeEntries max entries)
    (effective : effectiveEntries entries doStrip = .ok chosen) : SafeEntries max chosen := by
  unfold effectiveEntries at effective
  split at effective
  · exact stripWrapper_safe safe effective
  · cases effective
    exact safe

theorem resolve_safe {root path : FilePath} (safe : SafePath path) : resolve root path = root ++ path := by
  have folded : ∀ (segments : FilePath) (base : FilePath), (∀ seg ∈ segments, SafeSegment seg) →
      segments.foldl (fun base seg => if seg = [] ∨ seg = ['.'] then base else if seg = ['.', '.']
        then base.dropLast else base ++ [seg]) base =
        base ++ segments := by
    intro segments
    induction segments with
    | nil => simp
    | cons seg rest ih =>
      intro base plain
      have own := plain seg List.mem_cons_self
      rw [List.foldl_cons, if_neg (by simp [own.nonempty, own.notDot]), if_neg own.notDotDot,
        ih _ fun other member => plain other (List.mem_cons_of_mem _ member)]
      simp
  have relative : ¬(path.head? = some [] ∧ path.length ≠ 1) := by
    rintro ⟨absolute, _⟩
    exact (safe.segments [] (List.mem_of_mem_head? absolute)).nonempty rfl
  rw [resolve, if_neg relative, folded path root safe.segments]

/-- How far the extraction got: everything lies below the root, and within the limit. -/
structure Within (max : Nat) (root : FilePath) (start : Tree) (s : Staged) : Prop where
  below : ∀ write ∈ s.writes, ∃ path, path ≠ [] ∧ write.1 = root ++ path
  counted : (s.writes.map fun write => write.2.length).sum ≤ s.written
  bounded : (s.writes.map fun write => write.2.length).sum ≤ max
  rooted : s.tree.node root = some .directory
  frame : ∀ path, ¬root <+: path → s.tree.node path = start.node path

theorem mkdirp_below {tree made : Tree} {root path : FilePath} (directory : tree.node root = some .directory)
    (ran : tree.mkdirp (root ++ path) = .ok made) :
    made.node root = some .directory ∧ ∀ other, ¬root <+: other → made.node other = tree.node other := by
  refine ⟨FileTree.mkdirp_directory ran (List.prefix_append _ _), fun other outside => ?_⟩
  by_cases above : other <+: root ++ path
  · -- an ancestor of the root is a directory already
    rw [FileTree.mkdirp_directory ran above]
    have shorter : other <+: root := by
      rcases List.prefix_or_prefix_of_prefix above (List.prefix_append root path) with inside | reverse
      · exact inside
      · exact absurd reverse outside
    obtain ⟨rest, rfl⟩ := shorter
    have deeper : rest ≠ [] := by
      rintro rfl
      exact outside (by simp)
    exact (tree.directory_of_below deeper (by simp [directory])).symm
  · exact FileTree.mkdirp_frame ran above

theorem stageFile_within {root path : FilePath} {data : Bytes}
    (nonempty : path ≠ []) (within : Within limits.maxExtractedBytes root start s)
    (ran : stageFile limits (root ++ path) data s = (outcome, next)) :
    Within limits.maxExtractedBytes root start next := by
  have counted : Within limits.maxExtractedBytes root start { s with written := s.written + data.length } :=
    { within with counted := Nat.le_add_right_of_le within.counted }
  unfold stageFile at ran
  simp only at ran
  split at ran
  · cases ran
    exact counted
  · next room =>
      have parent : (root ++ path).dropLast = root ++ path.dropLast := List.dropLast_append_of_ne_nil nonempty
      rw [parent] at ran
      split at ran
      · cases ran
        exact counted
      · next made making =>
          obtain ⟨rooted, kept⟩ := mkdirp_below within.rooted making
          have begun : Within limits.maxExtractedBytes root start
              ⟨made, s.written + data.length, s.writes ++ [(root ++ path, data)]⟩ := {
            below := List.forall_mem_append.mpr ⟨within.below, List.forall_mem_singleton.mpr ⟨path, nonempty, rfl⟩⟩
            counted := by simpa using within.counted
            bounded := by
              have := within.counted
              simp only [List.map_append, List.sum_append, List.map_cons, List.map_nil, List.sum_cons, List.sum_nil]
              omega
            rooted := rooted
            frame := fun other outside => (kept other outside).trans (within.frame other outside) }
          split at ran
          · cases ran
            exact begun
          · next tree writing =>
              cases ran
              have elsewhere : ∀ other, other ≠ root ++ path → tree.node other = made.node other :=
                fun other different =>
                FileTree.writeFile_frame writing different
              exact { begun with
                rooted := by rw [elsewhere root (by simpa using nonempty)]; exact rooted
                frame := fun other outside => by
                  rw [elsewhere other fun same => outside (same ▸ List.prefix_append _ _)]
                  exact begun.frame other outside }

theorem stageEntry_within
    (safe : SafePath e.path) (within : Within limits.maxExtractedBytes root start s)
    (ran : stageEntry inflate limits buf root e s = (outcome, next)) :
    Within limits.maxExtractedBytes root start next := by
  unfold stageEntry at ran
  rw [resolve_safe safe] at ran
  simp only [stop] at ran
  split at ran
  · cases ran
    exact within
  · split at ran
    · split at ran
      · cases ran
        exact within
      · next tree making =>
          cases ran
          obtain ⟨rooted, kept⟩ := mkdirp_below within.rooted making
          exact { within with
            rooted := rooted
            frame := fun other outside => (kept other outside).trans (within.frame other outside) }
    · split at ran
      · cases ran
        exact within
      · exact stageFile_within safe.nonempty within ran

theorem stageEntries_within
    {s final : Staged} {outcome : Except Stopped Nat} (safe : ∀ e ∈ entries, SafePath e.path)
    (within : Within limits.maxExtractedBytes root start s)
    (ran : stageEntries inflate limits buf root entries s = (outcome, final)) :
    Within limits.maxExtractedBytes root start final := by
  induction entries generalizing s with
  | nil =>
    cases ran
    exact within
  | cons e rest ih =>
    have step : Within limits.maxExtractedBytes root start (stageEntry inflate limits buf root e s).2 :=
      stageEntry_within (safe e List.mem_cons_self) within rfl
    unfold stageEntries at ran
    split at ran
    · next stopped next reached =>
        cases ran
        rwa [reached] at step
    · next next reached =>
        rw [reached] at step
        exact ih (fun other member => safe other (List.mem_cons_of_mem _ member)) step ran

theorem stageEntry_inBounds
    (ran : stageEntry inflate limits buf root e s = (outcome, next)) (offset : Nat) :
    outcome ≠ .error (.thrown (.range offset)) := by
  rintro rfl
  simp only [stageEntry, stageFile, stop] at ran
  split at ran
  · cases ran
  · split at ran
    · split at ran <;> cases ran
    · split at ran
      · next failed =>
          cases ran
          exact extractEntryData_inBounds offset failed
      · split at ran
        · cases ran
        · split at ran
          · cases ran
          · split at ran <;> cases ran

theorem stageEntries_inBounds
    {s final : Staged} {outcome : Except Stopped Nat}
    (ran : stageEntries inflate limits buf root entries s = (outcome, final))
    (offset : Nat) : outcome ≠ .error (.thrown (.range offset)) := by
  induction entries generalizing s with
  | nil =>
    cases ran
    simp
  | cons e rest ih =>
    unfold stageEntries at ran
    split at ran
    · next stopped next reached =>
        cases ran
        intro same
        cases same
        exact stageEntry_inBounds reached offset rfl
    · exact ih ran

/-- Where an extraction wrote and how much, whether it came to its end or stopped. -/
structure Confined (max : Nat) (root : FilePath) (before : Tree) (outcome : Except Stopped Nat)
    (s : Staged) : Prop where
  reads : ∀ offset, outcome ≠ .error (.thrown (.range offset))
  below : ∀ write ∈ s.writes, ∃ path, path ≠ [] ∧ write.1 = root ++ path
  bounded : (s.writes.map fun write => write.2.length).sum ≤ max
  /-- Elsewhere nothing changes but the directories that lead to the root. -/
  frame : ∀ path, ¬root <+: path → s.tree.node path = before.node path ∨
    (path <+: root ∧ s.tree.node path = some .directory)

theorem extractToStaging_confined {tree : Tree}
    {outcome : Except Stopped Nat} {s : Staged} (safe : ∀ e ∈ entries, SafePath e.path)
    (ran : extractToStaging inflate limits buf entries root tree = (outcome, s)) :
    Confined limits.maxExtractedBytes root tree outcome s := by
  unfold extractToStaging at ran
  split at ran
  · cases ran
    exact ⟨by simp, by simp, by simp, fun _ _ => Or.inl rfl⟩
  · next made making =>
      have start : Within limits.maxExtractedBytes root made ⟨made, 0, []⟩ :=
        ⟨by simp, by simp, by simp, FileTree.mkdirp_directory making (List.prefix_rfl), fun _ _ => rfl⟩
      have within := stageEntries_within safe start ran
      refine ⟨stageEntries_inBounds ran, within.below, within.bounded, fun path outside => ?_⟩
      rw [within.frame path outside]
      by_cases above : path <+: root
      · exact Or.inr ⟨above, FileTree.mkdirp_directory making above⟩
      · exact Or.inl (FileTree.mkdirp_frame making above)

/-- Whatever the bytes are: the parser fails with a `ZipError` or gives safe entries, stripping keeps
them safe, and extracting them stays below the staging root and within the limit. -/
theorem archive_confined (limits : Limits) (buf : Bytes) :
    (∀ thrown, parseZip limits buf = .error thrown → ∃ error, thrown = .zip error) ∧
      (∀ entries total, parseZip limits buf = .ok (entries, total) →
        SafeEntries limits.maxExtractedBytes entries ∧ total = declaredBytes entries) ∧
      ∀ max entries, SafeEntries max entries →
        (∀ wrapper stripped, stripWrapper wrapper entries = .ok stripped → SafeEntries max stripped) ∧
        (∀ doStrip chosen, effectiveEntries entries doStrip = .ok chosen → SafeEntries max chosen) ∧
        ∀ inflate extraction root tree outcome s,
          extractToStaging inflate extraction buf entries root tree = (outcome, s) →
          Confined extraction.maxExtractedBytes root tree outcome s := by
  refine ⟨fun thrown failed => ?_, fun entries total parsed => parseZip_safe parsed,
    fun max entries safe => ⟨?_, ?_, ?_⟩⟩
  · cases thrown with
    | zip error => exact ⟨error, rfl⟩
    | range offset => exact absurd failed (parseZip_inBounds offset)
  · exact fun wrapper stripped ran => stripWrapper_safe safe ran
  · exact fun doStrip chosen effective => effectiveEntries_safe safe effective
  · exact fun inflate extraction root tree outcome s ran => extractToStaging_confined safe.paths ran

/-- One stored file `a` of one byte. -/
def onePage : Bytes :=
  [80, 75, 3, 4, 20, 0, 0, 0, 0, 0, 0, 0, 33, 0, 131, 22, 220, 140, 1, 0,
    0, 0, 1, 0, 0, 0, 1, 0, 0, 0, 97, 120,
    80, 75, 1, 2, 20, 3, 20, 0, 0, 0, 0, 0, 0, 0, 33, 0, 131, 22, 220, 140, 1, 0, 0, 0,
    1, 0, 0, 0, 1, 0, 0, 0, 0, 0, 0, 0, 0, 0, 0, 0, 164, 1, 0, 0, 0, 0, 97,
    80, 75, 5, 6, 0, 0, 0, 0, 1, 0, 1, 0, 47, 0, 0, 0, 32, 0, 0, 0, 0, 0]

def pageEntry : Entry := ⟨[['a']], false, 420, 0, 1, 1, 0⟩

theorem archive_confined_page : SafeEntries 10 [pageEntry] := by
  have parsed : parseZip ⟨1000, 10, 10⟩ onePage = .ok ([pageEntry], 1) := by decide +kernel
  exact ((archive_confined ⟨1000, 10, 10⟩ onePage).2.1 [pageEntry] 1 parsed).1

end ProxyPilot.Upload.Buffer
