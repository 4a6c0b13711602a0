import ProxyPilot.Mock2.SeedTarHeaders

namespace ProxyPilot.Mock2.SeedTar

open Data

theorem length_padTo (body : Bytes) : (padTo body BLOCK).length = padded body.length := by
  rw [padded]
  by_cases full : body.length % 512 = 0
  · rw [padTo, BLOCK, if_pos full]
    omega
  · rw [padTo, BLOCK, if_neg full, List.length_append, List.length_replicate]
    omega

theorem padTo_prefix (body : Bytes) : ∃ zeros, padTo body BLOCK = body ++ zeros := by
  by_cases full : body.length % BLOCK = 0
  · exact ⟨[], by rw [padTo, if_pos full, List.append_nil]⟩
  · exact ⟨_, by rw [padTo, if_neg full]⟩

theorem readTar_block {block rest : Bytes} {head : Head} (long : block.length = BLOCK)
    (magic : field block 257 6 = ascii "ustar" ++ [0]) (reads : readHeader block = some head) :
    readTar (block ++ rest) = if rest.length < padded head.size then none
      else (readTar (rest.drop (padded head.size))).map (⟨head.path, rest.take head.size, head.mode⟩ :: ·) := by
  have front : (block ++ rest).take BLOCK = block := by rw [List.take_left' long]
  have back : (block ++ rest).drop BLOCK = rest := by rw [List.drop_left' long]
  have filled : (block ++ rest).take (BLOCK * 2) ≠ List.replicate (BLOCK * 2) 0 := by
    intro zeros
    have first := congrArg (List.take BLOCK) zeros
    rw [List.take_take, Nat.min_eq_left (by decide), front, List.take_replicate] at first
    rw [first, field_replicate 0 (by decide)] at magic
    exact absurd magic (by decide)
  rw [readTar, if_neg filled, dif_pos (by rw [List.length_append]; omega), front, reads]
  simp only [← List.drop_drop, back]

/-- The file as a reader should find it. -/
def File.entry (f : File) : Entry := ⟨Utf8.encode f.path, Utf8.encode f.content, f.mode.getD 0o644⟩

/-- A relative path without a NUL and without empty segments. -/
def Proper (path : List Char) : Prop :=
  path.head? ≠ some '/' ∧ (∀ c ∈ path, c.toNat ≠ 0) ∧ [] ∉ path.splitOn '/'

/-- A file whose path, mode and size fit their fields. -/
def File.Fits (f : File) : Prop :=
  Whole f.path ∧ f.mode.getD 0o644 < 8 ^ 7 ∧ (Utf8.encode f.content).length < 8 ^ 11

theorem stringField_le (value : List Char) (length : Nat) :
    (stringField value length).length ≤ Utf8.byteLength value := by
  by_cases fits : Utf8.byteLength value ≤ length - 1
  · rw [stringField_whole fits, Utf8.byteLength]
  · have most := length_stringField value length
    omega

theorem encode_slash (dir name : List Char) :
    Utf8.encode (dir ++ '/' :: name) = Utf8.encode dir ++ 47 :: Utf8.encode name := by
  rw [Utf8.encode_append, Utf8.encode_cons]
  rfl

variable {path : List Char} {split : Split} {files : List File}

/-- The path comes back when name and directory are stored whole, and only then. -/
theorem storedPath_iff (proper : Proper path) (found : splitPath path = some split) :
    storedPath split = Utf8.encode path ↔ Whole path := by
  rw [whole_iff found]
  constructor
  · intro same
    have total := congrArg List.length same
    have name := length_stringField split.name 100
    have dir := length_stringField split.dir 155
    have name_le := stringField_le split.name 100
    have dir_le := stringField_le split.dir 155
    rcases splitPath_some found with ⟨short, rfl⟩ | ⟨-, around, -, -⟩
    · have stored : (stringField path 100).length = Utf8.byteLength path := total
      simp only at name
      exact ⟨by simp only; omega, Nat.zero_le 154⟩
    · rw [around, encode_slash, List.length_append, List.length_cons] at total
      rw [Utf8.byteLength] at name_le dir_le ⊢
      rw [Utf8.byteLength]
      simp only [storedPath] at total
      split at total
      · omega
      · rw [List.length_append, List.length_cons] at total
        omega
  · intro whole
    have name : stringField split.name 100 = Utf8.encode split.name := stringField_whole whole.1
    have dir : stringField split.dir 155 = Utf8.encode split.dir := stringField_whole whole.2
    rw [storedPath, name, dir]
    rcases splitPath_some found with ⟨-, rfl⟩ | ⟨-, around, -, -⟩
    · rfl
    · have below : Utf8.encode split.dir ≠ [] := by
        intro empty
        cases start : split.dir with
        | nil =>
          rw [start, List.nil_append] at around
          exact proper.1 (by rw [around]; rfl)
        | cons c rest =>
          have one := Utf8.one_le_encodeChar c
          rw [start, Utf8.encode_cons] at empty
          rw [List.append_eq_nil_iff.mp empty |>.1] at one
          contradiction
      rw [if_neg below, around, encode_slash]

theorem mem_of_split (found : splitPath path = some split) :
    (∀ c ∈ split.name, c ∈ path) ∧ ∀ c ∈ split.dir, c ∈ path := by
  rcases splitPath_some found with ⟨-, rfl⟩ | ⟨-, around, -, -⟩
  · exact ⟨fun c member => member, fun c member => absurd member List.not_mem_nil⟩
  · rw [around]
    exact ⟨fun c member => by simp [member], fun c member => by simp [member]⟩

theorem octalValue_mode {mode : Nat} : octalValue mode 8 = mode ↔ mode < 8 ^ 7 := by
  constructor
  · intro same
    have less := octalValue_lt mode 8
    rwa [same] at less
  · exact fun fits => octalValue_whole (by decide) fits

theorem octalValue_size {size : Nat} : octalValue size 12 = size ↔ size < 8 ^ 11 := by
  constructor
  · intro same
    have less := octalValue_lt size 12
    rwa [same] at less
  · exact fun fits => octalValue_whole (by decide) fits

/-- The chunks of a file read back as its entry exactly when they fit. -/
theorem readTar_chunks {f : File} {chunk rest : Bytes} {tail : List Entry} (proper : Proper f.path)
    (packed : chunksOf f = some chunk) :
    readTar (chunk ++ rest) = some (f.entry :: tail) ↔ f.Fits ∧ readTar rest = some tail := by
  obtain ⟨split, found, rfl⟩ : ∃ split, splitPath f.path = some split ∧
      headerBlock split (Utf8.encode f.content).length (f.mode.getD 0o644) ++
        padTo (Utf8.encode f.content) BLOCK = chunk := by
    simp only [chunksOf, header, Option.map_map, Option.map_eq_some_iff] at packed
    exact packed
  have plain := mem_of_split found
  have reads := readHeader_headerBlock split (Utf8.encode f.content).length (f.mode.getD 0o644)
    (fun c member => proper.2.1 c (plain.1 c member)) (fun c member => proper.2.1 c (plain.2 c member))
  obtain ⟨zeros, body⟩ := padTo_prefix (Utf8.encode f.content)
  have long := length_padTo (Utf8.encode f.content)
  rw [List.append_assoc, readTar_block (length_headerBlock _ _ _) (headerBlock_magic _ _ _) reads]
  simp only [File.Fits, ← storedPath_iff proper found]
  constructor
  · intro came
    split at came
    · cases came
    · obtain ⟨entries, others, whole⟩ := Option.map_eq_some_iff.mp came
      obtain ⟨first, rfl⟩ := List.cons.inj whole
      simp only [File.entry, Entry.mk.injEq] at first
      obtain ⟨path, content, mode⟩ := first
      have size : (Utf8.encode f.content).length < 8 ^ 11 := by
        have shown := congrArg List.length content
        have less := octalValue_lt (Utf8.encode f.content).length 12
        rw [List.length_take] at shown
        exact Nat.lt_of_le_of_lt (Nat.le_trans (Nat.le_of_eq shown.symm) (Nat.min_le_left _ _)) less
      refine ⟨⟨path, octalValue_mode.mp mode, size⟩, ?_⟩
      rwa [octalValue_size.mpr size, List.drop_left' long] at others
  · intro ⟨⟨path, mode, size⟩, others⟩
    rw [octalValue_size.mpr size, octalValue_mode.mpr mode, path, List.drop_left' long, others,
      if_neg (by rw [List.length_append]; omega), body, List.append_assoc, List.take_left]
    rfl

theorem readTar_end : readTar (List.replicate (BLOCK * 2) 0) = some [] := by
  rw [readTar, if_pos (by rw [List.take_replicate, Nat.min_self])]

/-- A path that a file of a template may have. -/
def Accepted (path : List Char) : Prop := Proper path ∧ (splitPath path).isSome

theorem mapM_chunks (accepted : ∀ f ∈ files, Accepted f.path) :
    ∃ chunks, files.mapM chunksOf = some chunks := by
  induction files with
  | nil => exact ⟨[], rfl⟩
  | cons f rest ih =>
    obtain ⟨split, found⟩ := Option.isSome_iff_exists.mp (accepted f List.mem_cons_self).2
    obtain ⟨chunks, packed⟩ := ih fun g member => accepted g (List.mem_cons_of_mem _ member)
    exact ⟨_, by rw [List.mapM_cons, chunksOf, header, found, packed]; rfl⟩

theorem readTar_archive {chunks : List Bytes} (accepted : ∀ f ∈ files, Accepted f.path)
    (packed : files.mapM chunksOf = some chunks) :
    readTar (chunks.flatten ++ List.replicate (BLOCK * 2) 0) = some (files.map File.entry) ↔
      ∀ f ∈ files, f.Fits := by
  induction files generalizing chunks with
  | nil =>
    cases packed
    simpa using readTar_end
  | cons f rest ih =>
    rw [List.mapM_cons] at packed
    simp only [Option.bind_eq_bind, Option.bind_eq_some_iff, Option.pure_def, Option.some.injEq] at packed
    obtain ⟨chunk, first, others, behind, rfl⟩ := packed
    have more := ih (fun g member => accepted g (List.mem_cons_of_mem _ member)) behind
    rw [List.flatten_cons, List.append_assoc, List.map_cons,
      readTar_chunks (accepted f List.mem_cons_self).1 first, more,
      List.forall_mem_cons]

/-- A seed archive reads back as its files exactly when every file fits its header. -/
theorem seed_tar_round_trip (files : List File) (accepted : ∀ f ∈ files, Accepted f.path) :
    ∃ archive, buildSeedTar files = some archive ∧
      (readTar archive = some (files.map File.entry) ↔ ∀ f ∈ files, f.Fits) := by
  obtain ⟨chunks, packed⟩ := mapM_chunks accepted
  exact ⟨_, by rw [buildSeedTar, packed]; rfl, readTar_archive accepted packed⟩

theorem accepted_short (short : Utf8.byteLength path ≤ 100) (single : '/' ∉ path) (some : path ≠ [])
    (plain : ∀ c ∈ path, c.toNat ≠ 0) : Accepted path := by
  refine ⟨⟨fun first => ?_, plain, ?_⟩, by rw [splitPath, if_pos short]; rfl⟩
  · exact single (List.mem_of_mem_head? first)
  · rw [List.splitOn_eq_singleton single, List.mem_singleton]
    exact fun empty => some empty.symm

theorem seed_tar_round_trip_readme :
    ∃ archive, buildSeedTar [⟨"README".toList, "text".toList, none⟩] = some archive ∧
      (readTar archive = some [⟨Utf8.encode "README".toList, Utf8.encode "text".toList, 0o644⟩] ↔
        ∀ f ∈ [(⟨"README".toList, "text".toList, none⟩ : File)], f.Fits) :=
  seed_tar_round_trip [⟨"README".toList, "text".toList, none⟩] (by
    simp only [List.forall_mem_singleton]
    exact accepted_short (by decide) (by decide) (by decide) (by simp))

theorem byteLength_replicate (n : Nat) : Utf8.byteLength (List.replicate n 'a') = n := by
  rw [Utf8.byteLength_ascii, List.length_replicate]
  intro c member
  rw [List.eq_of_mem_replicate member]
  decide

/-- A name of one hundred bytes is accepted and loses its last one. -/
theorem seed_tar_name_cut :
    Accepted (List.replicate 100 'a') ∧
      ∃ archive, buildSeedTar [⟨List.replicate 100 'a', [], none⟩] = some archive ∧
        readTar archive ≠ some [⟨Utf8.encode (List.replicate 100 'a'), [], 0o644⟩] := by
  have accepted : Accepted (List.replicate 100 'a') := by
    apply accepted_short
    · rw [byteLength_replicate]
    · intro member
      exact absurd (List.eq_of_mem_replicate member) (by decide)
    · simp
    · intro c member
      rw [List.eq_of_mem_replicate member]
      decide
  have each : ∀ f ∈ [(⟨List.replicate 100 'a', [], none⟩ : File)], Accepted f.path := by
    simpa only [List.forall_mem_singleton] using accepted
  obtain ⟨chunks, packed⟩ := mapM_chunks each
  refine ⟨accepted, _, by rw [buildSeedTar, packed]; rfl, fun reads => ?_⟩
  have fits := (readTar_archive each packed).mp reads _ List.mem_cons_self
  rcases fits.1 with short | ⟨long, -⟩
  · rw [byteLength_replicate] at short
    omega
  · rw [byteLength_replicate] at long
    omega

end ProxyPilot.Mock2.SeedTar
