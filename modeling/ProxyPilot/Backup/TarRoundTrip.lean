import ProxyPilot.Backup.Tar
import ProxyPilot.Data.Checks
import Mathlib.Data.List.Basic

namespace ProxyPilot.Backup

open Data

variable {c : Char} {n width : Nat} {t : Text} {fullName : Text} {header : Bytes} {entry : Entry}
  {mtime : Nat} {entries : List Entry} {chunks : List Bytes}

theorem toDigits_octal : ∀ {n : Nat}, c ∈ Nat.toDigits 8 n → octalChar c = true := by
  intro n
  induction n using Nat.strongRecOn with
  | ind n ih =>
    intro member
    have digits : ∀ m < 8, octalChar (Nat.digitChar m) = true := by decide
    by_cases small : n < 8
    · rw [Nat.toDigits_of_lt_base small] at member
      rw [List.mem_singleton.mp member]
      exact digits n small
    · rw [Nat.toDigits_of_base_le (by decide) (by omega)] at member
      rcases List.mem_append.mp member with front | last
      · exact ih (n / 8) (by omega) front
      · rw [List.mem_singleton.mp last]
        exact digits (n % 8) (by omega)

theorem octalChar_ascii (octal : octalChar c = true) : c.toNat < 128 := by
  simp only [octalChar, Bool.and_eq_true, decide_eq_true_eq] at octal
  have high : c.toNat ≤ '7'.toNat := octal.2
  exact Nat.lt_of_le_of_lt high (by decide)

theorem padStart_octal : ∀ c ∈ padStart width '0' (Nat.toDigits 8 n), octalChar c = true := by
  intro c member
  rcases List.mem_append.mp member with zero | digit
  · rw [List.eq_of_mem_replicate zero]
    decide
  · exact toDigits_octal digit

theorem padStart_length {width : Nat} (fits : t.length ≤ width) : (padStart width c t).length = width := by
  unfold padStart
  rw [List.length_append, List.length_replicate]
  omega

theorem encode_octal (octal : ∀ c ∈ t, octalChar c = true) :
    (Utf8.encode t).length = t.length ∧ asciiText (Utf8.encode t) = t := by
  refine ⟨Utf8.byteLength_ascii fun c member => octalChar_ascii (octal c member), ?_⟩
  induction t with
  | nil => rfl
  | cons c t ih =>
    have ascii := octalChar_ascii (octal c List.mem_cons_self)
    have back : (UInt8.ofNat c.toNat).toNat % 128 = c.toNat := by
      rw [UInt8.toNat_ofNat_of_lt' (Nat.lt_trans ascii (by decide)), Nat.mod_eq_of_lt ascii]
    have rest := ih fun other member => octal other (List.mem_cons_of_mem _ member)
    unfold asciiText at rest ⊢
    rw [Utf8.encode_cons, Utf8.encodeChar_ascii ascii, List.map_append, rest, List.map_singleton,
      back, Char.ofNat_toNat]
    rfl

theorem octal_ok (wide : 2 ≤ width) {field : Bytes} :
    octal n width = .ok field ↔ n < 8 ^ (width - 1) ∧
      field = Utf8.encode (padStart (width - 1) '0' (Nat.toDigits 8 n)) ++ [0] := by
  have fits := Nat.length_toDigits_le_iff (n := n) (show 1 < 8 by decide) (show 0 < width - 1 by omega)
  unfold octal
  simp only []
  split
  · next long =>
      constructor
      · intro failed
        cases failed
      · intro ⟨small, _⟩
        exact absurd (fits.mpr small) (Nat.not_le_of_lt long)
  · next short =>
      constructor
      · intro same
        exact ⟨fits.mp (Nat.le_of_not_lt short), (Except.ok.inj same).symm⟩
      · rintro ⟨_, rfl⟩
        rfl

/-- A number that was written into a field is read back from it. -/
theorem octal_field (wide : 2 ≤ width) {field : Bytes} (written : octal n width = .ok field) :
    field.length = width ∧ fieldNumber field = some n := by
  obtain ⟨small, rfl⟩ := (octal_ok wide).mp written
  have digits : ∀ c ∈ padStart (width - 1) '0' (Nat.toDigits 8 n), octalChar c = true := padStart_octal
  have short : (Nat.toDigits 8 n).length ≤ width - 1 :=
    (Nat.length_toDigits_le_iff (by decide) (by omega)).mpr small
  obtain ⟨length, back⟩ := encode_octal digits
  refine ⟨by rw [List.length_append, length, padStart_length short, List.length_singleton]; omega, ?_⟩
  have kept : (asciiText (Utf8.encode (padStart (width - 1) '0' (Nat.toDigits 8 n)) ++ [0])).filter octalChar =
      padStart (width - 1) '0' (Nat.toDigits 8 n) := by
    have last : (asciiText [0]).filter octalChar = [] := by decide
    unfold asciiText at back last ⊢
    rw [List.map_append, back, List.filter_append, List.filter_eq_self.mpr digits, last, List.append_nil]
  have some : padStart (width - 1) '0' (Nat.toDigits 8 n) ≠ [] := by
    unfold padStart
    exact List.append_ne_nil_of_right_ne_nil _ Nat.toDigits_ne_nil
  unfold fieldNumber
  simp only [kept]
  rw [if_neg some]
  unfold padStart
  rw [Nat.ofDigitChars_append, Nat.ofDigitChars_replicate_zero, Nat.mul_zero,
    Nat.ofDigitChars_toDigits (by decide) (by decide)]

theorem asciiPad_length (t : Text) (width : Nat) : (asciiPad t width).length = width := by
  unfold asciiPad zeros
  rw [List.length_append, List.length_replicate, List.length_take]
  omega

theorem decode_zeros (n : Nat) : Utf8.decode (zeros n) = List.replicate n (Char.ofNat 0) := by
  induction n with
  | zero => rfl
  | succ n ih =>
    unfold zeros Utf8.decode at ih ⊢
    rw [List.replicate_succ, List.replicate_succ, ← ih]
    rfl

theorem dropEnd_replicate {drops : Char → Bool} (kept : ∀ c ∈ t, drops c = false)
    (dropped : drops c = true) (n : Nat) :
    dropEnd drops (t ++ List.replicate n c) = t := by
  have all : ∀ d ∈ (List.replicate n c).reverse, drops d = true := by
    intro d member
    rw [List.reverse_replicate] at member
    rw [List.eq_of_mem_replicate member, dropped]
  unfold dropEnd
  rw [List.reverse_append, List.dropWhile_append_of_pos all]
  have stays : t.reverse.dropWhile drops = t.reverse := by
    cases back : t.reverse with
    | nil => rfl
    | cons d rest =>
      have member : d ∈ t := List.mem_reverse.mp (back ▸ List.mem_cons_self)
      rw [List.dropWhile_cons_of_neg (by rw [kept d member]; decide)]
  rw [stays, List.reverse_reverse]

theorem fieldText_asciiPad {width : Nat} (fits : Utf8.byteLength t ≤ width) (plain : ∀ c ∈ t, c.toNat ≠ 0) :
    fieldText (asciiPad t width) = t := by
  have whole : (Utf8.encode t).take width = Utf8.encode t := List.take_of_length_le fits
  unfold fieldText asciiPad
  simp only [whole]
  rw [Utf8.decode_encode_append, decode_zeros]
  exact dropEnd_replicate (fun c member => by simpa using plain c member) (by decide) _

/-- A name that a header can hold. -/
structure Representable (name : Text) : Prop where
  short : Utf8.byteLength name ≤ 256
  split : Utf8.byteLength name ≤ 100 ∨ ∃ dir last, name = dir ++ '/' :: last ∧
    Utf8.byteLength dir ≤ 155 ∧ Utf8.byteLength last ≤ 100
  plain : ∀ c ∈ name, c.toNat ≠ 0
  relative : name.head? ≠ some '/'
  own : name ≠ "__proto__".toList

/-- The two halves of a name in a header. -/
structure Halves (fullName dir name : Text) : Prop where
  dirFits : Utf8.byteLength dir ≤ 155
  nameFits : Utf8.byteLength name ≤ 100
  joined : (if dir = [] then name else dir ++ '/' :: name) = fullName

theorem Halves.plain {fullName dir name : Text} (halves : Halves fullName dir name)
    (plain : ∀ c ∈ fullName, c.toNat ≠ 0) :
    (∀ c ∈ dir, c.toNat ≠ 0) ∧ ∀ c ∈ name, c.toNat ≠ 0 := by
  have joined := halves.joined
  split at joined
  · next empty =>
      subst empty joined
      exact ⟨fun c member => absurd member List.not_mem_nil, plain⟩
  · subst joined
    exact ⟨fun c member => plain c (List.mem_append_left _ member),
      fun c member => plain c (List.mem_append_right _ (List.mem_cons_of_mem _ member))⟩

theorem splitTarPath_representable (representable : Representable fullName) :
    ∃ dir name, splitTarPath fullName = .ok (dir, name) ∧ Halves fullName dir name := by
  unfold splitTarPath
  split
  · next short => exact ⟨[], fullName, rfl, Nat.zero_le _, short, if_pos rfl⟩
  · next long =>
      rw [if_neg (Nat.not_lt_of_le representable.short)]
      cases found : splitAt? fullName with
      | none =>
        unfold splitAt? at found
        obtain short | ⟨dir, last, rfl, dirFits, lastFits⟩ := representable.split
        · exact absurd short long
        · have here := List.find?_eq_none.mp found dir.length
          rw [List.mem_reverse, List.mem_range] at here
          refine absurd ?_ (here (by simp))
          simp [dirFits, lastFits]
      | some i =>
        unfold splitAt? at found
        have holds := List.find?_some found
        simp only [Bool.and_eq_true, beq_iff_eq, decide_eq_true_eq] at holds
        obtain ⟨⟨slash, nameFits⟩, dirFits⟩ := holds
        refine ⟨_, _, rfl, dirFits, nameFits, ?_⟩
        obtain ⟨inside, isSlash⟩ := List.getElem?_eq_some_iff.mp slash
        have positive : fullName.take i ≠ [] := by
          intro empty
          rcases List.take_eq_nil_iff.mp empty with rfl | none
          · exact representable.relative (by rw [List.head?_eq_getElem?, slash])
          · rw [none] at inside
            cases inside
        rw [if_neg positive, ← isSlash, List.getElem_cons_drop, List.take_append_drop]

/-- What the reader needs of a header. -/
structure HeaderOf (header : Bytes) (fullName : Text) (size : Nat) : Prop where
  length : header.length = 512
  typeflag : header.getD 156 0 = 0x30
  name : (if fieldText (slice 345 500 header) = [] then fieldText (slice 0 100 header)
    else fieldText (slice 345 500 header) ++ '/' :: fieldText (slice 0 100 header)) = fullName
  size : fieldNumber (slice 124 136 header) = some size

theorem HeaderOf.nonzero {size : Nat} (is : HeaderOf header fullName size) :
    header.all (· == 0) = false := by
  have long := is.length
  have flag := is.typeflag
  rw [List.getD_eq_getElem?_getD, List.getElem?_eq_getElem (by omega), Option.getD_some] at flag
  refine List.all_eq_false.mpr ⟨header[156], List.getElem_mem _, ?_⟩
  rw [flag]
  decide

theorem slice_mid {before field after : Bytes} {start stop : Nat} (starts : before.length = start)
    (stops : start + field.length = stop) :
    slice start stop (before ++ (field ++ after)) = field := by
  subst starts stops
  unfold slice
  rw [← List.append_assoc, ← List.length_append, List.take_left, List.drop_left]

section Block

variable {name mode uid gid size mtime check dir : Bytes} {typeflag : UInt8}
  (nameLength : name.length = 100) (modeLength : mode.length = 8) (uidLength : uid.length = 8)
    (gidLength : gid.length = 8)
  (sizeLength : size.length = 12) (mtimeLength : mtime.length = 12) (checkLength : check.length = 8)

include nameLength modeLength uidLength gidLength sizeLength

theorem headerBlock_size : slice 124 136 (headerBlock name mode uid gid size mtime check typeflag dir) = size := by
  have parts : headerBlock name mode uid gid size mtime check typeflag dir =
      (name ++ (mode ++ (uid ++ gid))) ++ (size ++
      (mtime ++
        (check ++
        ([typeflag] ++ (zeros 100 ++ (Utf8.encode "ustar".toList ++ [0] ++ (Utf8.encode "00".toList ++ (zeros 80 ++
        (dir ++ zeros 12))))))))) := by
    unfold headerBlock
    simp only [List.append_assoc]
  rw [parts]
  refine slice_mid ?_ (by rw [sizeLength])
  simp only [List.length_append, nameLength, modeLength, uidLength, gidLength]

include mtimeLength checkLength

theorem headerBlock_typeflag :
    (headerBlock name mode uid gid size mtime check typeflag dir).getD 156 0 = typeflag := by
  have parts : headerBlock name mode uid gid size mtime check typeflag dir =
      (name ++ (mode ++ (uid ++ (gid ++ (size ++ (mtime ++ check)))))) ++
        (typeflag :: (zeros 100 ++ (Utf8.encode "ustar".toList ++ [0] ++
        (Utf8.encode "00".toList ++ (zeros 80 ++ (dir ++ zeros 12)))))) := by
    unfold headerBlock
    simp only [List.append_assoc, List.singleton_append]
  have before : (name ++ (mode ++ (uid ++ (gid ++ (size ++ (mtime ++ check)))))).length = 156 := by
    simp only [List.length_append, nameLength, modeLength, uidLength, gidLength, sizeLength,
      mtimeLength, checkLength]
  rw [parts, List.getD_eq_getElem?_getD, List.getElem?_append_right (by omega), before]
  rfl

theorem headerBlock_dir (dirLength : dir.length = 155) :
    slice 345 500 (headerBlock name mode uid gid size mtime check typeflag dir) = dir := by
  have parts : headerBlock name mode uid gid size mtime check typeflag dir =
      (name ++
        (mode ++
        (uid ++ (gid ++
        (size ++ (mtime ++ (check ++ ([typeflag] ++ (zeros 100 ++ (Utf8.encode "ustar".toList ++ [0] ++
        (Utf8.encode "00".toList ++ zeros 80))))))))))) ++ (dir ++ zeros 12) := by
    unfold headerBlock
    simp only [List.append_assoc]
  have words : (Utf8.encode "ustar".toList).length = 5 ∧ (Utf8.encode "00".toList).length = 2 := by decide
  rw [parts]
  refine slice_mid ?_ (by rw [dirLength])
  simp only [zeros, List.length_append, List.length_replicate, List.length_singleton, nameLength,
    modeLength, uidLength, gidLength, sizeLength,
    mtimeLength, checkLength, words]

theorem headerBlock_length (dirLength : dir.length = 155) :
    (headerBlock name mode uid gid size mtime check typeflag dir).length = 512 := by
  have words : (Utf8.encode "ustar".toList).length = 5 ∧ (Utf8.encode "00".toList).length = 2 := by decide
  unfold headerBlock zeros
  simp only [List.length_append, List.length_replicate, List.length_singleton, nameLength,
    modeLength, uidLength, gidLength, sizeLength,
    mtimeLength, checkLength, dirLength, words]

theorem headerBlock_headerOf {fullName dirText nameText : Text} {n : Nat}
    (halves : Halves fullName dirText nameText)
    (plain : ∀ c ∈ fullName, c.toNat ≠ 0) (nameIs : name = asciiPad nameText 100)
    (dirIs : dir = asciiPad dirText 155)
    (sizeRead : fieldNumber size = some n) :
    HeaderOf (headerBlock name mode uid gid size mtime check 0x30 dir) fullName n := by
  obtain ⟨dirPlain, namePlain⟩ := halves.plain plain
  have dirLength : dir.length = 155 := dirIs ▸ asciiPad_length dirText 155
  have nameRead : slice 0 100 (headerBlock name mode uid gid size mtime check 0x30 dir) = name := by
    unfold slice headerBlock
    rw [List.drop_zero, ← nameLength, List.take_left]
  refine ⟨?_, ?_, ?_, ?_⟩
  · exact headerBlock_length nameLength modeLength uidLength gidLength sizeLength mtimeLength checkLength dirLength
  · exact headerBlock_typeflag nameLength modeLength uidLength gidLength sizeLength mtimeLength checkLength
  · rw [nameRead, headerBlock_dir nameLength modeLength uidLength gidLength sizeLength mtimeLength
      checkLength dirLength, nameIs, dirIs,
      fieldText_asciiPad halves.dirFits dirPlain, fieldText_asciiPad halves.nameFits namePlain]
    exact halves.joined
  · rw [headerBlock_size nameLength modeLength uidLength gidLength sizeLength, sizeRead]

end Block

theorem byteSum_le (bytes : Bytes) : byteSum bytes ≤ 255 * bytes.length := by
  unfold byteSum
  induction bytes with
  | nil => exact Nat.zero_le _
  | cons b bytes ih =>
    have small : b.toNat < 256 := b.toNat_lt
    rw [List.map_cons, List.sum_cons, List.length_cons]
    omega

theorem octal_fixed : ∃ mode zero, octal 0o644 8 = .ok mode ∧ octal 0 8 = .ok zero ∧
    mode.length = 8 ∧ zero.length = 8 := by
  have mode : octal 0o644 8 = .ok (Utf8.encode (padStart 7 '0' (Nat.toDigits 8 0o644)) ++ [0]) :=
    (octal_ok (by decide)).mpr ⟨by decide, rfl⟩
  have zero : octal 0 8 = .ok (Utf8.encode (padStart 7 '0' (Nat.toDigits 8 0)) ++ [0]) :=
    (octal_ok (by decide)).mpr ⟨by decide, rfl⟩
  exact ⟨_, _, mode, zero, (octal_field (by decide) mode).1, (octal_field (by decide) zero).1⟩

/-- The sum of a block has at most six octal digits. -/
theorem check_length {block : Bytes} (whole : block.length = 512) :
    (Utf8.encode (padStart 6 '0' (Nat.toDigits 8 (byteSum block))) ++ [0, 0x20]).length = 8 := by
  have small := byteSum_le block
  have digits : (Nat.toDigits 8 (byteSum block)).length ≤ 6 :=
    (Nat.length_toDigits_le_iff (by decide) (by decide)).mpr (by omega)
  rw [List.length_append, (encode_octal padStart_octal).1, padStart_length digits]
  rfl

/-- What a number in a header may be. -/
def maxOctal : Nat := 8589934592

theorem makeTarHeader_representable (representable : Representable fullName) {size mtime : Nat}
    (sized : size < maxOctal)
    (timed : mtime / 1000 < maxOctal) : ∃ header, makeTarHeader fullName size mtime = .ok header ∧
    HeaderOf header fullName size := by
  obtain ⟨dir, name, split, halves⟩ := splitTarPath_representable representable
  obtain ⟨mode, zero, modeWritten, zeroWritten, modeLength, zeroLength⟩ := octal_fixed
  have sizeWritten : octal size 12 = .ok _ := (octal_ok (by decide)).mpr ⟨sized, rfl⟩
  have mtimeWritten : octal (mtime / 1000) 12 = .ok _ := (octal_ok (by decide)).mpr ⟨timed, rfl⟩
  obtain ⟨sizeLength, sizeRead⟩ := octal_field (by decide) sizeWritten
  obtain ⟨mtimeLength, _⟩ := octal_field (by decide) mtimeWritten
  have dirField : (if dir = [] then zeros 155 else asciiPad dir 155) = asciiPad dir 155 := by
    split
    · next empty =>
        subst empty
        rfl
    · rfl
  have nameLength := asciiPad_length name 100
  have dirLength := asciiPad_length dir 155
  have blank :
      (headerBlock (asciiPad name 100) mode zero zero _ _ (List.replicate 8 0x20) 0x30
      (asciiPad dir 155)).length = 512 :=
    headerBlock_length nameLength modeLength zeroLength zeroLength sizeLength mtimeLength
      List.length_replicate dirLength
  unfold makeTarHeader
  rw [split, modeWritten, zeroWritten, sizeWritten, mtimeWritten]
  refine ⟨_, rfl, ?_⟩
  rw [dirField]
  exact headerBlock_headerOf nameLength modeLength zeroLength zeroLength sizeLength mtimeLength
    (check_length blank) halves representable.plain
    rfl rfl sizeRead

/-- A header is written only for a size and a time that fit. -/
theorem makeTarHeader_sized {size mtime : Nat} (written : makeTarHeader fullName size mtime = .ok header) :
    size < maxOctal ∧ mtime / 1000 < maxOctal := by
  unfold makeTarHeader at written
  obtain ⟨halves, _, written⟩ := bind_ok.mp written
  obtain ⟨mode, _, written⟩ := bind_ok.mp written
  obtain ⟨uid, _, written⟩ := bind_ok.mp written
  obtain ⟨gid, _, written⟩ := bind_ok.mp written
  obtain ⟨sizeField, sizeWritten, written⟩ := bind_ok.mp written
  obtain ⟨mtimeField, mtimeWritten, _⟩ := bind_ok.mp written
  exact ⟨((octal_ok (by decide)).mp sizeWritten).1, ((octal_ok (by decide)).mp mtimeWritten).1⟩

/-- An entry that can be written at a time. -/
structure Fits (mtime : Nat) (entry : Entry) : Prop where
  sized : entry.2.length < maxOctal
  timed : mtime / 1000 < maxOctal

/-- The chunk of an entry and what the reader makes of it. -/
structure ChunkOf (chunk : Bytes) (entry : Entry) : Prop where
  long : 512 ≤ chunk.length
  read : ∀ fuel rest out, readTarFrom (fuel + 1) (chunk ++ rest) out =
    readTarFrom fuel rest (record out entry.1 entry.2)

theorem readTarFrom_entry (is : HeaderOf header entry.1 entry.2.length) (fuel : Nat) (rest : Bytes)
    (out : List Entry) :
    readTarFrom (fuel + 1) (header ++ (entry.2 ++ zeros (padding entry.2.length)) ++ rest) out =
      readTarFrom fuel rest (record out entry.1 entry.2) := by
  have whole : header ++ (entry.2 ++ zeros (padding entry.2.length)) ++ rest = header ++
      (entry.2 ++ (zeros (padding entry.2.length) ++ rest)) := by
    simp only [List.append_assoc]
  have first : (header ++ (entry.2 ++ (zeros (padding entry.2.length) ++ rest))).take 512 = header := by
    rw [← is.length, List.take_left]
  have behind : (header ++ (entry.2 ++ (zeros (padding entry.2.length) ++ rest))).drop 512 =
      entry.2 ++ (zeros (padding entry.2.length) ++ rest) := by
    rw [← is.length, List.drop_left]
  have after : (header ++ (entry.2 ++ (zeros (padding entry.2.length) ++ rest))).drop (512 +
      (entry.2.length + padding entry.2.length)) = rest := by
    rw [← List.drop_drop, behind, ← List.drop_drop, List.drop_left]
    exact List.drop_left' List.length_replicate
  rw [whole, readTarFrom]
  simp only [first, behind, after, is.size, is.typeflag, is.name, Option.getD_some, true_or,
    if_true, List.take_left]
  rw [if_neg]
  rintro (short | zero)
  · rw [List.length_append, is.length] at short
    omega
  · rw [is.nonzero] at zero
    cases zero

theorem tarEntry_ok (representable : Representable entry.1) (fits : Fits mtime entry) :
    ∃ chunk, tarEntry mtime entry = .ok chunk ∧ ChunkOf chunk entry := by
  obtain ⟨header, written, is⟩ := makeTarHeader_representable representable fits.sized fits.timed
  unfold tarEntry
  rw [written]
  refine ⟨_, rfl, ?_, readTarFrom_entry is⟩
  rw [List.length_append, is.length]
  exact Nat.le_add_right 512 _

theorem tarEntry_fits {chunk : Bytes} (written : tarEntry mtime entry = .ok chunk) : Fits mtime entry := by
  unfold tarEntry at written
  obtain ⟨header, made, _⟩ := bind_ok.mp written
  obtain ⟨sized, timed⟩ := makeTarHeader_sized made
  exact ⟨sized, timed⟩

theorem chunks_ok (representable : ∀ e ∈ entries, Representable e.1) (fits : ∀ e ∈ entries, Fits mtime e) :
    ∃ chunks, entries.mapM (tarEntry mtime) = .ok chunks ∧ List.Forall₂ ChunkOf chunks entries := by
  induction entries with
  | nil => exact ⟨[], rfl, .nil⟩
  | cons entry entries ih =>
    obtain ⟨chunk, made, is⟩ := tarEntry_ok (representable entry List.mem_cons_self) (fits entry List.mem_cons_self)
    obtain ⟨chunks, rest, are⟩ := ih (fun e member => representable e (List.mem_cons_of_mem _ member))
      fun e member => fits e (List.mem_cons_of_mem _ member)
    refine ⟨chunk :: chunks, ?_, .cons is are⟩
    rw [List.mapM_cons, made, rest]
    rfl

theorem chunks_fit (written : entries.mapM (tarEntry mtime) = .ok chunks) :
    ∀ e ∈ entries, Fits mtime e := by
  intro e member
  obtain ⟨chunk, made⟩ := mapM_ok_each written member
  exact tarEntry_fits made

/-- The end of an archive stops the reader. -/
theorem readTarFrom_end (fuel : Nat) (out : List Entry) : readTarFrom fuel (zeros 512 ++ zeros 512) out = out := by
  cases fuel with
  | zero => rfl
  | succ fuel =>
    have blank : ((zeros 512 ++ zeros 512).take 512).all (· == 0) = true := by decide +kernel
    rw [readTarFrom]
    simp only [blank, or_true, if_true]

theorem readTarFrom_chunks (are : List.Forall₂ ChunkOf chunks entries) (fuel : Nat)
    (enough : chunks.length ≤ fuel) (out : List Entry) :
    readTarFrom fuel (chunks.flatten ++ (zeros 512 ++ zeros 512)) out =
      entries.foldl (fun out e => record out e.1 e.2) out := by
  induction are generalizing fuel out with
  | nil => exact readTarFrom_end fuel out
  | cons is rest ih =>
    obtain ⟨more, rfl⟩ : ∃ more, fuel = more + 1 := ⟨fuel - 1, by rw [List.length_cons] at enough; omega⟩
    rw [List.flatten_cons, List.append_assoc, is.read,
      ih more (by rw [List.length_cons] at enough; omega), List.foldl_cons]

theorem chunks_length (are : List.Forall₂ ChunkOf chunks entries) :
    chunks.length ≤ chunks.flatten.length := by
  induction are with
  | nil => exact Nat.le_refl 0
  | cons is rest ih =>
    have long := is.long
    rw [List.flatten_cons, List.length_append, List.length_cons]
    omega

theorem assign_fresh {α : Type} {o : List (Text × α)} {name : Text} (fresh : name ∉ o.map Prod.fst) (value : α) :
    assign o name value = o ++ [(name, value)] := by
  unfold assign
  rw [if_neg]
  simp only [List.any_eq_true, beq_iff_eq, not_exists, not_and]
  rintro e member rfl
  exact fresh (List.mem_map_of_mem member)

theorem record_all (distinct : (entries.map Prod.fst).Nodup) (own : ∀ e ∈ entries, e.1 ≠ "__proto__".toList)
    (out : List Entry) (fresh : ∀ e ∈ entries, e.1 ∉ out.map Prod.fst) :
    entries.foldl (fun out e => record out e.1 e.2) out = out ++ entries := by
  induction entries generalizing out with
  | nil => rw [List.foldl_nil, List.append_nil]
  | cons entry entries ih =>
    have next : record out entry.1 entry.2 = out ++ [entry] := by
      unfold record
      rw [if_neg (own entry List.mem_cons_self), assign_fresh (fresh entry List.mem_cons_self)]
    rw [List.map_cons, List.nodup_cons] at distinct
    rw [List.foldl_cons, next,
      ih distinct.2 (fun e member => own e (List.mem_cons_of_mem _ member)), List.append_assoc]
    · rfl
    · intro e member
      rw [List.map_append, List.mem_append, not_or]
      refine ⟨fresh e (List.mem_cons_of_mem _ member), fun same => distinct.1 ?_⟩
      rw [List.map_singleton, List.mem_singleton] at same
      exact same ▸ List.mem_map_of_mem member

theorem ownEntries_perm (o : List (Text × α)) : (ownEntries o).Perm o := by
  unfold ownEntries
  exact ((List.perm_insertionSort _ _).append_right _).trans (List.filter_append_perm _ o)

/-- An archive is written only of entries that fit. -/
theorem tarPack_fits {tar : Bytes} (written : tarPack entries mtime = .ok tar) :
    ∀ e ∈ entries, Fits mtime e := by
  unfold tarPack at written
  obtain ⟨chunks, made, _⟩ := bind_ok.mp written
  intro e member
  exact chunks_fit made e ((ownEntries_perm entries).mem_iff.mpr member)

/-- An archive of entries that fit is written, and read back whole. -/
theorem readTar_tarPack (representable : ∀ e ∈ entries, Representable e.1)
    (distinct : (entries.map Prod.fst).Nodup) (fits : ∀ e ∈ entries, Fits mtime e) :
    ∃ tar, tarPack entries mtime = .ok tar ∧ readTar tar = ownEntries entries := by
  have same := ownEntries_perm entries
  obtain ⟨chunks, made, are⟩ :=
    chunks_ok (fun e member => representable e (same.mem_iff.mp member)) fun e member =>
    fits e (same.mem_iff.mp member)
  have long := chunks_length are
  unfold tarPack
  rw [made]
  refine ⟨_, rfl, ?_⟩
  unfold readTar
  rw [readTarFrom_chunks are _ (by rw [List.length_append]; omega)]
  exact record_all ((same.map Prod.fst).nodup_iff.mpr distinct)
    (fun e member => (representable e (same.mem_iff.mp member)).own) []
    fun e _ => List.not_mem_nil

end ProxyPilot.Backup
