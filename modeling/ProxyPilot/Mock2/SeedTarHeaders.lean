import ProxyPilot.Mock2.SeedTar

namespace ProxyPilot.Mock2.SeedTar

open Data

theorem intercalate_append {left right : List (List Char)} (front : left ≠ []) (back : right ≠ []) :
    ['/'].intercalate (left ++ right) = ['/'].intercalate left ++ '/' :: ['/'].intercalate right := by
  induction left with
  | nil => contradiction
  | cons first rest ih =>
    cases rest with
    | nil =>
      obtain ⟨next, more, rfl⟩ := List.exists_cons_of_ne_nil back
      simp [List.intercalate_cons_cons]
    | cons second more =>
      rw [List.cons_append, List.cons_append, List.intercalate_cons_cons, ← List.cons_append, ih (by simp),
        List.intercalate_cons_cons]
      simp

/-- The split of a path at one of its slashes is the split of its parts at a place between them. -/
theorem slash_iff (path dir name : List Char) :
    path = dir ++ '/' :: name ↔ ∃ i, 1 ≤ i ∧ i < (path.splitOn '/').length ∧
      dir = ['/'].intercalate ((path.splitOn '/').take i) ∧
        name = ['/'].intercalate ((path.splitOn '/').drop i) := by
  constructor
  · rintro rfl
    have parts := List.splitOn_append_cons_self (a := '/') dir name
    have front : 1 ≤ (dir.splitOn '/').length := List.length_pos_iff.mpr (List.splitOn_ne_nil _ _)
    have back : 1 ≤ (name.splitOn '/').length := List.length_pos_iff.mpr (List.splitOn_ne_nil _ _)
    refine ⟨(dir.splitOn '/').length, front, ?_, ?_, ?_⟩
    · rw [parts, List.length_append]
      omega
    · rw [parts, List.take_left, List.intercalate_splitOn]
    · rw [parts, List.drop_left, List.intercalate_splitOn]
  · intro ⟨i, first, last, before, behind⟩
    have front : (path.splitOn '/').take i ≠ [] := by
      intro empty
      have count := congrArg List.length empty
      simp only [List.length_take, List.length_nil] at count
      omega
    have back : (path.splitOn '/').drop i ≠ [] := by
      intro empty
      have count := congrArg List.length empty
      simp only [List.length_drop, List.length_nil] at count
      omega
    rw [before, behind, ← intercalate_append front back, List.take_append_drop, List.intercalate_splitOn]

/-- A split that fits the two fields. -/
def Fits (dir name : List Char) : Prop := Utf8.byteLength name ≤ 100 ∧ Utf8.byteLength dir ≤ 155

variable {parts : List (List Char)} {split : Split}

theorem splitAt_some {i : Nat} (found : splitAt parts i = some split) :
    split.dir = ['/'].intercalate (parts.take i) ∧ split.name = ['/'].intercalate (parts.drop i) ∧
      Fits split.dir split.name := by
  simp only [splitAt, Option.ite_none_right_eq_some, Option.some.injEq] at found
  obtain ⟨fits, rfl⟩ := found
  exact ⟨rfl, rfl, fits⟩

theorem splitAt_none {i : Nat} (refused : splitAt parts i = none) :
    ¬Fits (['/'].intercalate (parts.take i)) (['/'].intercalate (parts.drop i)) := by
  intro fits
  have found : splitAt parts i = some _ := if_pos fits
  rw [refused] at found
  contradiction

theorem length_intercalate_take {i j : Nat} (less : i < j) (inside : j ≤ parts.length)
    (first : 1 ≤ i) :
    (['/'].intercalate (parts.take i)).length < (['/'].intercalate (parts.take j)).length := by
  have cut : parts.take j = parts.take i ++ (parts.drop i).take (j - i) := by
    rw [← List.take_add, Nat.add_sub_cancel' (Nat.le_of_lt less)]
  have front : parts.take i ≠ [] := by
    intro empty
    have count := congrArg List.length empty
    simp only [List.length_take, List.length_nil] at count
    omega
  have back : (parts.drop i).take (j - i) ≠ [] := by
    intro empty
    have count := congrArg List.length empty
    simp only [List.length_take, List.length_drop, List.length_nil] at count
    omega
  rw [cut, intercalate_append front back, List.length_append, List.length_cons]
  omega

/-- What `splitPath` gives: the path itself, or its parts around the first slash where both fit. -/
theorem splitPath_some {path : List Char} (found : splitPath path = some split) :
    Utf8.byteLength path ≤ 100 ∧ split = ⟨path, []⟩ ∨
      100 < Utf8.byteLength path ∧ path = split.dir ++ '/' :: split.name ∧ Fits split.dir split.name ∧
        ∀ dir name, path = dir ++ '/' :: name → dir.length < split.dir.length → ¬Fits dir name := by
  rw [splitPath] at found
  split at found
  · next short => exact .inl ⟨short, (Option.some.inj found).symm⟩
  · next long =>
    obtain ⟨before, i, after, places, here, earlier⟩ := List.findSome?_eq_some_iff.mp found
    obtain ⟨dir, name, fits⟩ := splitAt_some here
    have listed : i ∈ List.range' 1 ((path.splitOn '/').length - 1) := by rw [places]; simp
    have range := List.mem_range'_1.mp listed
    have around := (slash_iff path split.dir split.name).mpr ⟨i, range.1, by omega, dir, name⟩
    refine .inr ⟨by omega, around, fits, fun dir' name' other shorter => ?_⟩
    obtain ⟨j, low, high, dir'_eq, name'_eq⟩ := (slash_iff path dir' name').mp other
    have less : j < i := by
      by_contra later
      rcases Nat.lt_or_eq_of_le (Nat.le_of_not_lt later) with more | same
      · have longer := length_intercalate_take more (Nat.le_of_lt high) range.1
        rw [← dir, ← dir'_eq] at longer
        omega
      · rw [← same, ← dir] at dir'_eq
        rw [dir'_eq] at shorter
        omega
    have member : j ∈ before := by
      have inside : j ∈ List.range' 1 ((path.splitOn '/').length - 1) := List.mem_range'_1.mpr ⟨low, by omega⟩
      have ordered : (List.range' 1 ((path.splitOn '/').length - 1)).Pairwise (· < ·) := List.pairwise_lt_range'
      rw [places] at inside ordered
      have behind := (List.pairwise_cons.mp (List.pairwise_append.mp ordered).2.1).1
      rcases List.mem_append.mp inside with early | late
      · exact early
      · rcases List.mem_cons.mp late with same | later
        · omega
        · have more := behind j later
          omega
    rw [dir'_eq, name'_eq]
    exact splitAt_none (earlier j member)

/-- A path of which name and directory are stored whole: it is short, or the first slash with at most 100
bytes behind it leaves less than that, and less than 155 before. -/
def Whole (path : List Char) : Prop :=
  Utf8.byteLength path ≤ 99 ∨ 100 < Utf8.byteLength path ∧ ∃ dir name, path = dir ++ '/' :: name ∧
    Utf8.byteLength name ≤ 99 ∧ Utf8.byteLength dir ≤ 154 ∧
    ∀ dir' name', path = dir' ++ '/' :: name' → dir'.length < dir.length → 100 < Utf8.byteLength name'

theorem byteLength_le_of_shorter {dir name dir' name' : List Char}
    (same : dir ++ '/' :: name = dir' ++ '/' :: name')
    (shorter : dir'.length ≤ dir.length) : Utf8.byteLength dir' ≤ Utf8.byteLength dir := by
  obtain ⟨rest, whole⟩ := List.prefix_of_prefix_length_le ⟨'/' :: name', same.symm⟩ ⟨'/' :: name, rfl⟩ shorter
  rw [← whole, Utf8.byteLength_append]
  omega

theorem whole_iff {path : List Char} (found : splitPath path = some split) :
    Whole path ↔ Utf8.byteLength split.name ≤ 99 ∧ Utf8.byteLength split.dir ≤ 154 := by
  rcases splitPath_some found with ⟨short, rfl⟩ | ⟨long, around, fits, first⟩
  · constructor
    · rintro (whole | ⟨long, -⟩)
      · exact ⟨whole, Nat.zero_le 154⟩
      · omega
    · exact fun whole => .inl whole.1
  · constructor
    · rintro (short | ⟨-, dir, name, other, narrow, low, earlier⟩)
      · omega
      · have same : dir.length = split.dir.length := by
          rcases Nat.lt_trichotomy dir.length split.dir.length with less | same | more
          · exact absurd ⟨by omega, by omega⟩ (first dir name other less)
          · exact same
          · have wide := earlier split.dir split.name around more
            have narrow := fits.1
            omega
        obtain ⟨rfl, tail⟩ := List.append_inj (other.symm.trans around) same
        rw [List.cons.inj tail |>.2] at narrow
        exact ⟨narrow, low⟩
    · intro whole
      refine .inr ⟨long, split.dir, split.name, around, whole.1, whole.2, fun dir' name' other shorter => ?_⟩
      have low := byteLength_le_of_shorter (around.symm.trans other) (Nat.le_of_lt shorter)
      by_contra narrow
      exact first dir' name' other shorter ⟨by omega, by omega⟩

section

variable (split : Split) (size mode : Nat)

theorem headerWrites_within : ∀ write ∈ headerWrites split size mode,
    Within (List.replicate BLOCK (0 : UInt8)).length write := by
  have name := length_stringField split.name 100
  have dir := length_stringField split.dir 155
  have root := length_stringField "root".toList 32
  simp only [headerWrites, writeString, writeOctal, List.forall_mem_cons, Within, List.length_replicate, BLOCK,
    length_octalField, ascii, List.length_map, List.not_mem_nil, false_imp_iff, implies_true, and_true]
  refine ⟨by omega, by omega, by omega, by omega, by omega, by omega, by decide, by decide, by decide, by decide,
    by omega, by omega, by omega⟩

/-- The block before its checksum is set. -/
def unsummed : Bytes := writeAll (List.replicate BLOCK 0) (headerWrites split size mode)

theorem length_unsummed : (unsummed split size mode).length = 512 := by
  rw [unsummed, length_writeAll (headerWrites_within split size mode), List.length_replicate, BLOCK]

theorem unsummed_field {offset width : Nat} {items : Bytes} (k : Nat)
    (stands : (headerWrites split size mode)[k]? = some (offset, items)) (wide : items.length ≤ width)
    (inside : offset + width ≤ BLOCK)
    (apart : ∀ write ∈ (headerWrites split size mode).eraseIdx k, Apart offset width write) :
    field (unsummed split size mode) offset width = items ++ List.replicate (width - items.length) 0 := by
  rw [unsummed, field_writeAll_at k stands (headerWrites_within split size mode) wide apart, field_replicate]
  omega

/-- The writes of a header keep out of each other's fields. -/
theorem headerWrites_apart (k offset width : Nat)
    (places : (k, offset, width) ∈ [(0, 0, 100), (1, 100, 8), (4, 124, 12), (6, 148, 8),
    (7, 156, 1), (8, 257, 6), (12, 345, 155)]) :
    ∀ write ∈ (headerWrites split size mode).eraseIdx k, Apart offset width write := by
  have name := length_stringField split.name 100
  have dir := length_stringField split.dir 155
  have root := length_stringField "root".toList 32
  have sums : (ascii "        ").length = 8 ∧ (ascii "0").length = 1 ∧ (ascii "ustar").length = 5 ∧
      (ascii "00").length = 2 := by
    decide
  simp only [List.mem_cons, Prod.mk.injEq, List.not_mem_nil, or_false] at places
  rcases places with ⟨rfl, rfl, rfl⟩ | ⟨rfl, rfl, rfl⟩ | ⟨rfl, rfl, rfl⟩ | ⟨rfl, rfl, rfl⟩ | ⟨rfl,
    rfl, rfl⟩ | ⟨rfl, rfl, rfl⟩ |
    ⟨rfl, rfl, rfl⟩ <;>
  · simp only [headerWrites, writeString, writeOctal, List.eraseIdx_cons_succ,
      List.eraseIdx_cons_zero, List.forall_mem_cons,
      Apart, length_octalField, List.length_append, List.length_singleton, List.not_mem_nil,
        false_imp_iff, implies_true, and_true]
    omega

theorem unsummed_name : field (unsummed split size mode) 0 100 =
    stringField split.name 100 ++ List.replicate (100 - (stringField split.name 100).length) 0 := by
  have narrow := length_stringField split.name 100
  exact unsummed_field split size mode 0 rfl (by omega) (by decide)
    (headerWrites_apart split size mode 0 0 100 (by simp))

theorem unsummed_octal (value k offset length : Nat) (positive : 0 < length) (inside : offset + length ≤ BLOCK)
    (stands : (headerWrites split size mode)[k]? = some (writeOctal value offset length))
    (apart : ∀ write ∈ (headerWrites split size mode).eraseIdx k, Apart offset length write) :
    field (unsummed split size mode) offset length = octalField value length ++ [0] := by
  have whole := length_octalField value length
  have last : length - (length - 1) = 1 := by omega
  rw [unsummed_field split size mode k stands (by omega) inside apart, whole, last]
  rfl

theorem unsummed_spaces : field (unsummed split size mode) 148 8 = List.replicate 8 32 :=
  unsummed_field split size mode 6 rfl (by decide) (by decide)
    (headerWrites_apart split size mode 6 148 8 (by simp))

theorem byteSum_le (bytes : Bytes) : byteSum bytes ≤ 255 * bytes.length := by
  induction bytes with
  | nil => exact Nat.le_refl _
  | cons byte rest ih =>
    have small := byte.toNat_lt
    simp only [byteSum, List.map_cons, List.sum_cons, List.length_cons] at ih ⊢
    omega

theorem headerBlock_eq : headerBlock split size mode =
    writeAt (unsummed split size mode) 148 (octalField (byteSum (unsummed split size mode)) 7 ++ [0]) := by
  have six := length_octalField (byteSum (unsummed split size mode)) 7
  have long := length_unsummed split size mode
  have joined := @writeAt_next _ (unsummed split size mode) (octalField (byteSum (unsummed split size mode)) 7) 148
    (by omega) [0] (by simp; omega)
  rw [six] at joined
  exact joined

theorem length_headerBlock : (headerBlock split size mode).length = 512 := by
  have six := length_octalField (byteSum (unsummed split size mode)) 7
  have long := length_unsummed split size mode
  rw [headerBlock_eq, length_writeAt (by simp; omega), long]

theorem headerBlock_field {offset width : Nat} (apart : offset + width ≤ 148 ∨ 155 ≤ offset) :
    field (headerBlock split size mode) offset width = field (unsummed split size mode) offset width := by
  have six := length_octalField (byteSum (unsummed split size mode)) 7
  have long := length_unsummed split size mode
  rw [headerBlock_eq, field_writeAt_apart (by simp; omega)]
  simp only [List.length_append, List.length_singleton, six]
  omega

theorem headerBlock_checksum : checksumOf (headerBlock split size mode) = byteSum (unsummed split size mode) := by
  have six := length_octalField (byteSum (unsummed split size mode)) 7
  have long := length_unsummed split size mode
  rw [checksumOf, headerBlock_eq,
    writeAt_writeAt (by simp; omega) (by simp; omega) (by simp; omega), ← unsummed_spaces,
    writeAt_field (by omega)]

theorem headerBlock_sum : octalOf (field (headerBlock split size mode) 148 8) =
    some (byteSum (unsummed split size mode)) := by
  have six := length_octalField (byteSum (unsummed split size mode)) 7
  have long := length_unsummed split size mode
  have most := byteSum_le (unsummed split size mode)
  rw [headerBlock_eq, field_writeAt (by simp; omega) (by simp; omega), List.append_assoc, List.singleton_append,
    octalOf_octalField, octalValue_whole (by decide) (by omega)]

/-- The path that a header gives back. -/
def storedPath : Bytes :=
  if stringField split.dir 155 = [] then stringField split.name 100
  else stringField split.dir 155 ++ 47 :: stringField split.name 100

theorem headerBlock_path (name : ∀ c ∈ split.name, c.toNat ≠ 0) (dir : ∀ c ∈ split.dir, c.toNat ≠ 0) :
    pathOf (headerBlock split size mode) = storedPath split := by
  have narrow := length_stringField split.dir 155
  have stands : field (unsummed split size mode) 345 155 =
      stringField split.dir 155 ++ List.replicate (155 - (stringField split.dir 155).length) 0 :=
    unsummed_field split size mode 12 rfl (by omega) (by decide)
      (headerWrites_apart split size mode 12 345 155 (by simp))
  rw [pathOf, headerBlock_field split size mode (by decide), headerBlock_field split size mode (by decide), stands,
    unsummed_name, textOf_padded (stringField_plain dir), textOf_padded (stringField_plain name), storedPath]

theorem headerBlock_magic : field (headerBlock split size mode) 257 6 = ascii "ustar" ++ [0] := by
  have stands : field (unsummed split size mode) 257 6 = (ascii "ustar" ++ [0]) ++ List.replicate 0 0 :=
    unsummed_field split size mode 8 rfl (by decide) (by decide)
      (headerWrites_apart split size mode 8 257 6 (by simp))
  rw [headerBlock_field split size mode (by decide), stands, List.replicate_zero, List.append_nil]

theorem readHeader_headerBlock (name : ∀ c ∈ split.name, c.toNat ≠ 0) (dir : ∀ c ∈ split.dir, c.toNat ≠ 0) :
    readHeader (headerBlock split size mode) = some ⟨storedPath split, octalValue size 12, octalValue mode 8⟩ := by
  have flag : field (headerBlock split size mode) 156 1 = ascii "0" := by
    rw [headerBlock_field split size mode (by decide)]
    exact unsummed_field split size mode 7 rfl (by decide) (by decide)
      (headerWrites_apart split size mode 7 156 1 (by simp))
  have sizes : octalOf (field (headerBlock split size mode) 124 12) = some (octalValue size 12) := by
    rw [headerBlock_field split size mode (by decide),
      unsummed_octal split size mode size 4 124 12 (by decide) (by decide) rfl
      (headerWrites_apart split size mode 4 124 12 (by simp)), octalOf_octalField]
  have modes : octalOf (field (headerBlock split size mode) 100 8) = some (octalValue mode 8) := by
    rw [headerBlock_field split size mode (by decide),
      unsummed_octal split size mode mode 1 100 8 (by decide) (by decide) rfl
      (headerWrites_apart split size mode 1 100 8 (by simp)), octalOf_octalField]
  have valid : octalOf (field (headerBlock split size mode) 148 8) =
      some (checksumOf (headerBlock split size mode)) := by
    rw [headerBlock_sum, headerBlock_checksum]
  rw [readHeader, if_pos ⟨valid, headerBlock_magic split size mode, flag⟩, sizes, modes]
  simp only [headerBlock_path split size mode name dir]

end

end ProxyPilot.Mock2.SeedTar
