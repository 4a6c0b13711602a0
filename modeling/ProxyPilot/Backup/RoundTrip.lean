import ProxyPilot.Backup.TarRoundTrip
import ProxyPilot.Backup.Tar
import ProxyPilot.Data.Values

namespace ProxyPilot.Backup

open Data

theorem writeUInt32BE_ok {n : Nat} {field : Bytes} (written : writeUInt32BE n = .ok field) (rest : Bytes) :
    field.length = 4 ∧ readUInt32BE (field ++ rest) = n := by
  unfold writeUInt32BE at written
  split at written
  · next small =>
      cases written
      refine ⟨rfl, ?_⟩
      simp only [List.cons_append, readUInt32BE]
      rw [UInt8.toNat_ofNat_of_lt' (show n / 16777216 < 256 by omega),
        UInt8.toNat_ofNat_of_lt' (show n / 65536 % 256 < 256 by omega),
        UInt8.toNat_ofNat_of_lt' (show n / 256 % 256 < 256 by omega),
          UInt8.toNat_ofNat_of_lt' (show n % 256 < 256 by omega)]
      omega
  · cases written

theorem spread_fresh {α : Type} {more : List (Text × α)} : ∀ {o : List (Text × α)}, (more.map Prod.fst).Nodup →
    (∀ name ∈ more.map Prod.fst, name ∉ o.map Prod.fst) → spread o more = o ++ more := by
  induction more with
  | nil =>
    intro o _ _
    exact (List.append_nil o).symm
  | cons e more ih =>
    intro o distinct fresh
    rw [List.map_cons, List.nodup_cons] at distinct
    unfold spread at ih ⊢
    rw [List.foldl_cons, assign_fresh (fresh e.1 List.mem_cons_self), ih distinct.2, List.append_assoc]
    · rfl
    · intro name member
      rw [List.map_append, List.mem_append, not_or]
      refine ⟨fresh name (List.mem_cons_of_mem _ member), fun same => distinct.1 ?_⟩
      rw [List.map_singleton, List.mem_singleton] at same
      exact same ▸ member

/-- What the header is read with, whatever a caller added. -/
theorem header_field (draw : Draw) (kdf : Kdf) (plaintextSize archiveSize : Nat) (more : HeaderMeta)
    {name : Text} (own : name ∈ headerNames) :
    (Json.object (spread (headerFields draw kdf plaintextSize archiveSize) more.fields)).field name =
      (headerFields draw kdf plaintextSize archiveSize).reverse.lookup name := by
  have names : (headerFields draw kdf plaintextSize archiveSize).map Prod.fst = headerNames := rfl
  rw [spread_fresh more.distinct fun other member => names ▸ (more.added other member).1]
  unfold Json.field
  simp only [List.reverse_append]
  have absent : more.fields.reverse.lookup name = none := by
    rw [List.lookup_eq_none_iff]
    intro e member
    rw [bne_iff_ne]
    rintro rfl
    exact (more.added e.1 (List.mem_map_of_mem (List.mem_reverse.mp member))).1 own
  rw [List.lookup_append, absent, Option.none_or]

theorem base64Bytes_base64Text (bytes : Bytes) : base64Bytes (some (.text (base64Text bytes))) = .ok bytes := by
  unfold base64Bytes base64Text
  simp only [Utf8.encode_decode_ascii (Base64.encode_ascii bytes), Base64.decode_encode]

section Header

variable (draw : Draw) (kdf : Kdf) (plaintextSize archiveSize : Nat)

theorem headerFields_lookup :
    let own := (headerFields draw kdf plaintextSize archiveSize).reverse
    own.lookup "magic".toList = some (.text "PPBACKUP".toList) ∧
      own.lookup "cipher".toList = some (.text "aes-256-gcm".toList) ∧
      own.lookup "body_compression".toList = some (.text "gzip".toList) ∧
        own.lookup "tag_position".toList = some (.text "trailing".toList) ∧
      own.lookup "salt_b64".toList = some (.text (base64Text draw.salt)) ∧
        own.lookup "iv_b64".toList = some (.text (base64Text draw.iv)) ∧
      own.lookup "kdf".toList = some (.text kdf.name) ∧ own.lookup "kdf_params".toList = some kdf.params := by
  refine ⟨rfl, rfl, rfl, rfl, rfl, rfl, rfl, rfl⟩

end Header

/-- The header as JSON: its own fields, and what a caller adds behind them. -/
def headerText (draw : Draw) (kdf : Kdf) (plaintextSize archiveSize : Nat) (more : HeaderMeta) : Text :=
  Json.stringify 0 (.object (spread (headerFields draw kdf plaintextSize archiveSize) more.fields))

def ownText (draw : Draw) (kdf : Kdf) (plaintextSize archiveSize : Nat) : Text :=
  Json.stringify 0 (.object (headerFields draw kdf plaintextSize archiveSize))

/-- The added fields as they stand in the header, each behind its comma. -/
def metaText (more : HeaderMeta) : Text := Json.writeFields 0 1 more.fields

theorem headerText_length (draw : Draw) (kdf : Kdf) (plaintextSize archiveSize : Nat) (more : HeaderMeta) :
    Utf8.byteLength (headerText draw kdf plaintextSize archiveSize more) =
      Utf8.byteLength (ownText draw kdf plaintextSize archiveSize) + Utf8.byteLength (metaText more) := by
  have names : (headerFields draw kdf plaintextSize archiveSize).map Prod.fst = headerNames := rfl
  have joined := spread_fresh more.distinct fun other member => names ▸ (more.added other member).1
  obtain ⟨front, back, own, whole⟩ := Json.write_object_append 0 0 ("magic".toList, .text "PPBACKUP".toList)
    (headerFields draw kdf plaintextSize archiveSize).tail more.fields
  have ownIs : ownText draw kdf plaintextSize archiveSize = front ++ back := own
  have wholeIs : headerText draw kdf plaintextSize archiveSize more = front ++ (metaText more ++ back) := by
    unfold headerText
    rw [joined]
    exact whole
  rw [ownIs, wholeIs, Utf8.byteLength_append, Utf8.byteLength_append, Utf8.byteLength_append]
  omega

section Parts

variable {platform : Platform} {draw : Draw} {kdf : Kdf} {entries : List Entry} {passphrase : Text}
  {more : HeaderMeta}

theorem pack_parts {buffer : Bytes} : pack platform draw kdf entries passphrase more = .ok buffer ↔
    passphrase ≠ [] ∧ ∃ tar key size, tarPack (archived platform draw entries) draw.clock = .ok tar ∧
      deriveKey platform (some (.text kdf.name)) kdf.params passphrase draw.salt = .ok key ∧
      writeUInt32BE (Utf8.byteLength (headerText draw kdf (platform.gzip tar).length tar.length more)) = .ok size ∧
      buffer = size ++ (Utf8.encode (headerText draw kdf (platform.gzip tar).length tar.length more) ++
        ((platform.encrypt key draw.iv (platform.gzip tar)).1 ++
          (platform.encrypt key draw.iv (platform.gzip tar)).2)) := by
  unfold pack
  constructor
  · intro packed
    obtain ⟨_, known, packed⟩ := bind_ok.mp packed
    obtain ⟨tar, archive, packed⟩ := bind_ok.mp packed
    obtain ⟨key, derived, packed⟩ := bind_ok.mp packed
    obtain ⟨size, written, packed⟩ := bind_ok.mp packed
    refine ⟨?_, tar, key, size, archive, derived, written, (Except.ok.inj packed).symm⟩
    rintro rfl
    exact absurd (require_ok.mp known) (by decide)
  · rintro ⟨given, tar, key, size, archive, derived, written, rfl⟩
    have known : (!passphrase.isEmpty) = true := by simpa using given
    rw [known, archive]
    simp only [require, if_true, bind, Except.bind]
    rw [derived]
    simp only []
    unfold Utf8.byteLength headerText at written
    rw [written]
    rfl

theorem headerText_some (plaintextSize archiveSize : Nat) :
    0 < Utf8.byteLength (headerText draw kdf plaintextSize archiveSize more) := by
  rw [headerText_length]
  have own : 0 < (ownText draw kdf plaintextSize archiveSize).length := by
    obtain ⟨c, rest, written, _⟩ := Json.write_head 0 0 (.object (headerFields draw kdf plaintextSize archiveSize))
    unfold ownText Json.stringify
    rw [written]
    exact Nat.succ_pos _
  exact Nat.add_pos_left (Nat.lt_of_lt_of_le own (Utf8.length_le_byteLength _)) _

section File

variable {size cipher tag : Bytes} {plaintextSize archiveSize : Nat}
  (written : writeUInt32BE (Utf8.byteLength (headerText draw kdf plaintextSize archiveSize more)) = .ok size)

include written

theorem parseHeader_small {parsed : Parsed}
    (read : parseHeader (size ++
    (Utf8.encode (headerText draw kdf plaintextSize archiveSize more) ++ (cipher ++ tag))) = .ok parsed) :
    Utf8.byteLength (headerText draw kdf plaintextSize archiveSize more) ≤ 64 * 1024 := by
  unfold parseHeader at read
  obtain ⟨_, _, read⟩ := bind_ok.mp read
  obtain ⟨_, bounded, _⟩ := bind_ok.mp read
  have bound := of_decide_eq_true (require_ok.mp bounded)
  rw [(writeUInt32BE_ok written _).2] at bound
  exact bound.2

/-- A header of at most 64 KiB is found again in the file. -/
theorem parseHeader_packed
    (small : Utf8.byteLength (headerText draw kdf plaintextSize archiveSize more) ≤ 64 * 1024)
    (tagLength : tag.length = 16) :
    parseHeader (size ++
      (Utf8.encode (headerText draw kdf plaintextSize archiveSize more) ++ (cipher ++ tag))) = .ok {
      header := .object (spread (headerFields draw kdf plaintextSize archiveSize) more.fields)
      ciphertextStart := 4 + Utf8.byteLength (headerText draw kdf plaintextSize archiveSize more)
      ciphertextEnd := 4 + Utf8.byteLength (headerText draw kdf plaintextSize archiveSize more) +
        cipher.length } := by
  obtain ⟨sizeLength, sizeRead⟩ := writeUInt32BE_ok written
    (Utf8.encode (headerText draw kdf plaintextSize archiveSize more) ++ (cipher ++ tag))
  have some : 0 < Utf8.byteLength (headerText draw kdf plaintextSize archiveSize more) :=
    headerText_some plaintextSize archiveSize
  have length :
      (size ++ (Utf8.encode (headerText draw kdf plaintextSize archiveSize more) ++ (cipher ++ tag))).length =
      4 + Utf8.byteLength (headerText draw kdf plaintextSize archiveSize more) + cipher.length + 16 := by
    simp only [List.length_append, sizeLength, tagLength, Utf8.byteLength]
    omega
  have text : slice 4 (4 + Utf8.byteLength (headerText draw kdf plaintextSize archiveSize more))
      (size ++ (Utf8.encode (headerText draw kdf plaintextSize archiveSize more) ++ (cipher ++ tag))) =
        Utf8.encode (headerText draw kdf plaintextSize archiveSize more) := slice_mid sizeLength rfl
  have back : Json.parse (Utf8.decode (Utf8.encode (headerText draw kdf plaintextSize archiveSize more))) =
      .some (.object (spread (headerFields draw kdf plaintextSize archiveSize) more.fields)) := by
    rw [Utf8.decode_encode]
    exact Json.parse_stringify 0 _
  have magic := header_field draw kdf plaintextSize archiveSize more (show "magic".toList ∈ headerNames by decide)
  rw [(headerFields_lookup draw kdf plaintextSize archiveSize).1] at magic
  have isMagic : isText "PPBACKUP" (.some (.text "PPBACKUP".toList)) = true := by decide
  unfold parseHeader
  rw [length, sizeRead]
  simp only [require, bind, Except.bind, demand, text, back, magic, isMagic]
  rw [if_pos (by simp only [decide_eq_true_eq]; omega),
    if_pos (by simp only [decide_eq_true_eq]; omega), if_pos (by simp only [decide_eq_true_eq]; omega)]
  rfl

/-- The same passphrase opens the file. -/
theorem decrypt_packed (exact : platform.Exact) (given : passphrase ≠ []) {key plain : Bytes}
    (derived : deriveKey platform (some (.text kdf.name)) kdf.params passphrase draw.salt = .ok key)
    (encrypted : platform.encrypt key draw.iv (platform.gzip plain) = (cipher, tag))
    (small : Utf8.byteLength (headerText draw kdf plaintextSize archiveSize more) ≤ 64 * 1024) :
    decrypt platform (size ++ (Utf8.encode (headerText draw kdf plaintextSize archiveSize more) ++
      (cipher ++ tag))) passphrase = .ok plain := by
  have sizeLength := (writeUInt32BE_ok written []).1
  have tagLength := exact.tag_length key draw.iv (platform.gzip plain)
  have opened := exact.decrypt_encrypt key draw.iv (platform.gzip plain)
  rw [encrypted] at tagLength opened
  have parsed :
      parseHeader (size ++ (Utf8.encode (headerText draw kdf plaintextSize archiveSize more) ++
      (cipher ++ tag))) = .ok _ :=
    parseHeader_packed written small tagLength
  have front : (size ++ Utf8.encode (headerText draw kdf plaintextSize archiveSize more)).length =
      4 + Utf8.byteLength (headerText draw kdf plaintextSize archiveSize more) := by
    rw [List.length_append, sizeLength]
    rfl
  have ct : slice (4 + Utf8.byteLength (headerText draw kdf plaintextSize archiveSize more))
      (4 + Utf8.byteLength (headerText draw kdf plaintextSize archiveSize more) + cipher.length)
      (size ++ (Utf8.encode (headerText draw kdf plaintextSize archiveSize more) ++ (cipher ++ tag))) = cipher := by
    rw [← List.append_assoc]
    exact slice_mid front rfl
  have last : (size ++ (Utf8.encode (headerText draw kdf plaintextSize archiveSize more) ++ (cipher ++ tag))).drop
      (4 + Utf8.byteLength (headerText draw kdf plaintextSize archiveSize more) + cipher.length) = tag := by
    rw [← List.append_assoc, ← List.append_assoc]
    exact List.drop_left' (by rw [List.length_append, front])
  obtain ⟨_, isCipher, isCompression, isPosition, saltIs, ivIs, kdfIs, paramsIs⟩ :=
    headerFields_lookup draw kdf plaintextSize archiveSize
  have field := fun (name : Text) (own : name ∈ headerNames) =>
      header_field draw kdf plaintextSize archiveSize more own
  have texts : isText "aes-256-gcm" (some (.text "aes-256-gcm".toList)) = true ∧
      isText "gzip" (some (.text "gzip".toList)) = true ∧
      isText "trailing" (some (.text "trailing".toList)) = true := by decide
  have known : (!passphrase.isEmpty) = true := by simpa using given
  unfold decrypt
  simp only [known, parsed, require, bind, Except.bind, if_true]
  rw [field "cipher".toList (by decide), isCipher, texts.1,
    field "body_compression".toList (by decide), isCompression, texts.2.1,
    field "tag_position".toList (by decide), isPosition, texts.2.2,
      field "salt_b64".toList (by decide), saltIs, base64Bytes_base64Text,
    field "iv_b64".toList (by decide), ivIs, base64Bytes_base64Text, field "kdf".toList (by decide), kdfIs,
    field "kdf_params".toList (by decide), paramsIs]
  simp only [if_true, Option.getD_some, derived, ct, last, opened, demand]
  exact exact.gunzip_gzip plain

end File

theorem declare_all {files : List Declared} (distinct : (files.map Declared.path).Nodup) :
    files.foldl declare [] = files.map fun f => (f.path, f) := by
  have folded : files.foldl declare [] = spread [] (files.map fun f => (f.path, f)) := by
    unfold spread
    rw [List.foldl_map]
    rfl
  rw [folded, spread_fresh, List.nil_append]
  · rw [List.map_map]
    exact distinct
  · exact fun name _ => List.not_mem_nil

/-- What the manifest says of an entry. -/
def Entry.declared (platform : Platform) (entry : Entry) : Declared :=
  ⟨entry.1, some (.number entry.2.length), some (.text (platform.sha256 entry.2))⟩

theorem matchesFile_declared (entry : Entry) : matchesFile platform (entry.declared platform) entry.2 = true := by
  unfold matchesFile Entry.declared isNumber isTextOf
  simp

theorem manifestFiles_buildManifest (createdAt : Text) :
    (manifestFiles (buildManifest platform createdAt entries)).filterMap declaredFile =
      (ownEntries entries).map (Entry.declared platform) := by
  have files : manifestFiles (buildManifest platform createdAt entries) =
      (ownEntries entries).map (Entry.file platform) := rfl
  rw [files, List.filterMap_map, ← List.filterMap_eq_map]
  rfl

/-- The manifest of a backup agrees with what is read back. -/
theorem verifyManifest_packed {read : List Entry} (distinct : (entries.map Prod.fst).Nodup)
    (fresh : ∀ e ∈ entries, e.1 ≠ manifestName)
    (whole : read.Perm ((manifestName, manifestBytes platform draw entries) :: entries)) :
    verifyManifest platform read = .ok {
      ok := true, fileCount := entries.length, mismatches := [], missing := [], extra := [] } := by
  have own := ownEntries_perm entries
  have allDistinct : (read.map Prod.fst).Nodup := by
    refine (whole.map Prod.fst).nodup_iff.mpr (List.nodup_cons.mpr ⟨?_, distinct⟩)
    intro member
    obtain ⟨e, listed, same⟩ := List.mem_map.mp member
    exact fresh e listed same
  have manifest : read.lookup manifestName = some (manifestBytes platform draw entries) :=
    lookup_of_mem allDistinct (whole.mem_iff.mpr List.mem_cons_self)
  have entry : ∀ e ∈ entries, read.lookup e.1 = some e.2 := fun e member =>
    lookup_of_mem allDistinct (whole.mem_iff.mpr (List.mem_cons_of_mem _ member))
  have parsed : Json.parse (Utf8.decode (manifestBytes platform draw entries)) =
      some (buildManifest platform draw.manifestTime entries) := by
    unfold manifestBytes
    rw [Utf8.decode_encode]
    exact Json.parse_stringify 2 _
  have declared :
      ((manifestFiles (buildManifest platform draw.manifestTime entries)).filterMap declaredFile).foldl declare [] =
      (ownEntries entries).map fun e => (e.1, Entry.declared platform e) := by
    have paths : ((ownEntries entries).map (Entry.declared platform)).map Declared.path =
        (ownEntries entries).map Prod.fst := List.map_map
    rw [manifestFiles_buildManifest,
      declare_all (by rw [paths]; exact (own.map Prod.fst).nodup_iff.mpr distinct), List.map_map]
    rfl
  have of_declared : ∀ d ∈ (ownEntries entries).map (fun e => (e.1, Entry.declared platform e)),
      ∃ e ∈ entries, d = (e.1, Entry.declared platform e) := by
    intro d member
    obtain ⟨e, listed, rfl⟩ := List.mem_map.mp member
    exact ⟨e, own.mem_iff.mp listed, rfl⟩
  have missing : ((ownEntries entries).map fun e => (e.1, Entry.declared platform e)).filter
      (fun d => (read.lookup d.1).isNone) = [] := by
    rw [List.filter_eq_nil_iff]
    intro d member
    obtain ⟨e, listed, rfl⟩ := of_declared d member
    rw [entry e listed]
    exact Bool.false_ne_true
  have mismatches : ((ownEntries entries).map fun e => (e.1, Entry.declared platform e)).filter
      (fun d => (read.lookup d.1).any fun present => !matchesFile platform d.2 present) = [] := by
    rw [List.filter_eq_nil_iff]
    intro d member
    obtain ⟨e, listed, rfl⟩ := of_declared d member
    rw [entry e listed, Option.any_some, matchesFile_declared]
    decide
  have extra :
      read.filter (fun e => e.1 != manifestName &&
      !((ownEntries entries).map fun e => (e.1, Entry.declared platform e)).any fun d => d.1 == e.1) = [] := by
    rw [List.filter_eq_nil_iff]
    intro e member
    rcases List.mem_cons.mp (whole.mem_iff.mp member) with rfl | listed
    · simp
    · have known :
          (((ownEntries entries).map fun e => (e.1, Entry.declared platform e)).any fun d => d.1 == e.1) = true :=
        List.any_eq_true.mpr ⟨(e.1, Entry.declared platform e),
          List.mem_map_of_mem (own.mem_iff.mpr listed), beq_self_eq_true _⟩
      rw [known]
      simp
  unfold verifyManifest
  rw [manifest]
  simp only [demand, bind, Except.bind, parsed, declared, missing, mismatches, extra,
    List.length_map, own.length_eq]
  rfl

end Parts

section Whole

variable (platform : Platform) (draw : Draw) (kdf : Kdf) (entries : List Entry) (passphrase : Text)
  (more : HeaderMeta)

/-- The backup is written, opened with its passphrase and read back whole, and its manifest is confirmed. -/
structure Restored (buffer tar : Bytes) : Prop where
  packed : pack platform draw kdf entries passphrase more = .ok buffer
  parsed : ∃ parsed, parseHeader buffer = .ok parsed
  opened : decrypt platform buffer passphrase = .ok tar
  whole : (readTar tar).Perm ((manifestName, manifestBytes platform draw entries) :: entries)
  verified : verifyManifest platform (readTar tar) =
    .ok { ok := true, fileCount := entries.length, mismatches := [], missing := [], extra := [] }

/-- What a backup has room for. -/
structure WithinLimits : Prop where
  clock : draw.clock / 1000 < maxOctal
  bodies : ∀ e ∈ entries, e.2.length < maxOctal
  manifest : (manifestBytes platform draw entries).length < maxOctal
  /-- Beside the header's own fields there is room for what the caller adds. -/
  added : ∀ tar, tarPack (archived platform draw entries) draw.clock = .ok tar →
    Utf8.byteLength (ownText draw kdf (platform.gzip tar).length tar.length) +
      Utf8.byteLength (metaText more) ≤ 64 * 1024

variable {platform draw kdf entries passphrase more}

theorem archived_eq (distinct : (entries.map Prod.fst).Nodup) (fresh : ∀ e ∈ entries, e.1 ≠ manifestName) :
    archived platform draw entries = (manifestName, manifestBytes platform draw entries) :: entries := by
  unfold archived
  rw [spread_fresh distinct]
  · rfl
  · intro name member single
    obtain ⟨e, listed, rfl⟩ := List.mem_map.mp member
    exact fresh e listed (List.mem_singleton.mp single)

theorem plain_of_all {name : Text} (all : name.all (fun c => c.toNat != 0) = true) : ∀ c ∈ name, c.toNat ≠ 0 := by
  intro c member
  simpa using List.all_eq_true.mp all c member

theorem manifestName_representable : Representable manifestName :=
  ⟨by decide, Or.inl (by decide), plain_of_all (by decide), by decide, by decide⟩

/-- What was restored was within the limits of the format. -/
theorem restored_within (distinct : (entries.map Prod.fst).Nodup)
    (fresh : ∀ e ∈ entries, e.1 ≠ manifestName) {buffer tar : Bytes}
    (restored : Restored platform draw kdf entries passphrase more buffer tar) :
    WithinLimits platform draw kdf entries more := by
  have all : archived platform draw entries = (manifestName, manifestBytes platform draw entries) ::
      entries := archived_eq distinct fresh
  obtain ⟨_, packed, key, size, archive, _, written, rfl⟩ := pack_parts.mp restored.packed
  obtain ⟨parsed, read⟩ := restored.parsed
  have small := parseHeader_small written read
  have fits := tarPack_fits archive
  rw [all] at fits
  refine ⟨(fits _ List.mem_cons_self).timed, fun e member =>
    (fits e (List.mem_cons_of_mem _ member)).sized, (fits _ List.mem_cons_self).sized, ?_⟩
  intro other same
  cases archive.symm.trans same
  rw [← headerText_length]
  exact small

/-- A backup comes back whole exactly when it is within the limits of its format. -/
theorem pack_restored_iff (exact : platform.Exact) (given : passphrase ≠ [])
    (representable : ∀ e ∈ entries, Representable e.1)
    (distinct : (entries.map Prod.fst).Nodup) (fresh : ∀ e ∈ entries, e.1 ≠ manifestName) :
    (∃ buffer tar, Restored platform draw kdf entries passphrase more buffer tar) ↔
      WithinLimits platform draw kdf entries more := by
  have all : archived platform draw entries = (manifestName, manifestBytes platform draw entries) ::
      entries := archived_eq distinct fresh
  have saltSome : draw.salt ≠ [] := by
    intro empty
    have length := draw.saltLength
    rw [empty] at length
    cases length
  constructor
  · rintro ⟨buffer, tar, restored⟩
    exact restored_within distinct fresh restored
  · intro limits
    have fits : ∀ e ∈ archived platform draw entries, Fits draw.clock e := by
      rw [all]
      intro e member
      rcases List.mem_cons.mp member with rfl | listed
      · exact ⟨limits.manifest, limits.clock⟩
      · exact ⟨limits.bodies e listed, limits.clock⟩
    have names : ∀ e ∈ archived platform draw entries, Representable e.1 := by
      rw [all]
      intro e member
      rcases List.mem_cons.mp member with rfl | listed
      · exact manifestName_representable
      · exact representable e listed
    have allDistinct : ((archived platform draw entries).map Prod.fst).Nodup := by
      rw [all]
      refine List.nodup_cons.mpr ⟨fun member => ?_, distinct⟩
      obtain ⟨e, listed, same⟩ := List.mem_map.mp member
      exact fresh e listed same
    obtain ⟨tar, archive, read⟩ := readTar_tarPack names allDistinct fits
    obtain ⟨key, derived⟩ := exact.derives kdf passphrase draw.salt given saltSome
    have small : Utf8.byteLength (headerText draw kdf (platform.gzip tar).length tar.length more) ≤ 64 * 1024 := by
      rw [headerText_length]
      exact limits.added tar archive
    obtain ⟨size, written⟩ :
        ∃ size, writeUInt32BE
        (Utf8.byteLength (headerText draw kdf (platform.gzip tar).length tar.length more)) = .ok size :=
      ⟨_, if_pos (Nat.lt_of_le_of_lt small (by decide))⟩
    have whole : (readTar tar).Perm ((manifestName, manifestBytes platform draw entries) :: entries) := by
      rw [read, ← all]
      exact ownEntries_perm _
    exact ⟨_, tar, pack_parts.mpr ⟨given, tar, key, size, archive, derived, written, rfl⟩,
      ⟨_, parseHeader_packed written small (exact.tag_length _ _ _)⟩,
        decrypt_packed written exact given derived rfl small, whole,
      verifyManifest_packed distinct fresh whole⟩

end Whole

def noMeta : HeaderMeta := ⟨[], List.nodup_nil, fun _ none => absurd none List.not_mem_nil⟩

/-- The one entry `.env`, with the text `PORT=3000`. -/
def envEntries : List Entry := [(".env".toList, Utf8.encode "PORT=3000\n".toList)]

def envDraw : Draw where
  salt := [0, 1, 2, 3, 4, 5, 6, 7, 8, 9, 10, 11, 12, 13, 14, 15]
  iv := [0, 1, 2, 3, 4, 5, 6, 7, 8, 9, 10, 11]
  clock := 1767225600000
  manifestTime := "2026-01-01T00:00:00.000Z".toList
  headerTime := "2026-01-01T00:00:00.000Z".toList
  saltLength := rfl
  ivLength := rfl

/-- The compressed archive of `.env`. -/
def envCompressed : Bytes :=
  [31, 139, 8, 0, 0, 0, 0, 0, 2, 3, 237, 147, 205, 74, 3, 49, 20, 133, 103, 61, 79, 113, 201, 218,
    150, 147, 223, 118, 6, 124, 6, 69, 186, 82, 164,
    36, 77, 134, 142, 212, 25, 233, 196, 130, 150, 190, 187, 36, 27, 127, 54, 174, 90, 4, 243, 17,
      114, 201, 225, 38, 231, 66, 56, 207, 118, 232,
    187, 48, 197, 249, 211, 52, 14, 213, 121, 0, 0, 163, 84, 174, 0, 126, 86, 72, 195, 43, 174, 185,
      208, 82, 42, 149, 116, 14, 13, 81, 17, 170,
    11, 240, 58, 69, 187, 175, 112, 17, 175, 63, 200, 177, 38, 98, 135, 176, 159, 250, 113, 96, 45,
      241, 171, 116, 222, 236, 131, 141, 193, 175,
    109, 100, 45, 49, 1, 97, 102, 224, 51, 240, 21, 208, 230, 53, 7, 112, 207, 114, 111, 215, 239,
      194, 196, 90, 122, 168, 137, 136, 142, 121, 39,
    98, 47, 54, 110, 211, 229, 121, 24, 14, 185, 49, 171, 83, 255, 30, 146, 11, 62, 149, 173, 21,
      218, 164, 206, 102, 209, 185, 206, 109, 140, 179,
    11, 227, 180, 132, 119, 206, 11, 141, 198, 120, 195, 59, 39, 13, 15, 155, 166, 241, 202, 75, 44,
      157, 20, 157, 183, 82, 163, 81, 138, 123, 39,
    185, 145, 75, 205, 242, 147, 167, 154, 232, 49, 15, 22, 199, 104, 119, 235, 228, 184, 118, 111,
      49, 207, 200, 81, 159, 170, 194, 87, 210, 255,
    156, 219, 227, 183, 252, 131, 139, 239, 249, 135, 209, 70, 150, 252, 95, 130, 219, 155, 187,
      213, 181, 4, 80, 151, 44, 20, 10, 133, 194, 127,
    226, 3, 143, 113, 53, 74, 0, 12, 0, 0]

/-- The key of the passphrase `secret`. -/
def envKey : Bytes :=
  [239, 83, 43, 80, 187, 250, 98, 230, 76, 175, 238, 83, 150, 172, 218, 40, 102, 250, 95, 138, 217,
    18, 205, 63, 229, 203, 196, 149, 38, 65, 175,
    107]

def envCipher : Bytes :=
  [77, 103, 150, 221, 140, 88, 140, 165, 200, 157, 252, 146, 218, 25, 27, 254, 48, 109, 179, 121,
    132, 163, 109, 111, 8, 155, 80, 165, 116, 45, 42,
    105, 65, 130, 8, 136, 19, 114, 152, 198, 82, 158, 181, 5, 30, 162, 213, 34, 170, 86, 118, 216,
      252, 189, 122, 114, 200, 163, 133, 157, 158,
    119, 71, 109, 66, 67, 130, 126, 236, 113, 40, 96, 18, 41, 183, 175, 161, 66, 136, 58, 242, 36,
      202, 184, 244, 112, 34, 228, 117, 47, 198, 57,
    150, 102, 36, 234, 238, 63, 199, 123, 92, 55, 48, 188, 228, 25, 1, 24, 177, 35, 110, 14, 14, 41,
      230, 156, 246, 19, 60, 15, 90, 49, 109, 113,
    119, 51, 115, 31, 78, 91, 243, 183, 134, 24, 65, 1, 212, 238, 107, 82, 4, 185, 193, 251, 119,
      82, 64, 211, 181, 149, 100, 172, 110, 214, 83,
    217, 45, 208, 197, 183, 129, 206, 99, 177, 26, 226, 190, 60, 124, 56, 131, 175, 158, 132, 43,
      64, 66, 222, 23, 19, 192, 96, 87, 43, 163, 57,
    86, 158, 57, 73, 11, 200, 6, 199, 121, 29, 226, 223, 185, 174, 217, 28, 188, 249, 59, 128, 11,
      50, 112, 32, 46, 88, 66, 154, 184, 77, 55, 254,
    45, 195, 230, 206, 85, 157, 128, 234, 122, 32, 125, 238, 151, 48, 194, 145, 75, 240, 241, 130,
      57, 62, 11, 166, 181, 50, 26, 61, 144, 32, 161,
    3, 193, 159, 255, 241, 18, 98, 88, 132, 144, 199, 36, 169, 179, 121, 122, 74, 104, 247, 83, 0,
      86, 31, 77, 69, 152, 248, 11, 218, 38, 168, 211,
    217, 166, 166, 99, 215, 252, 26, 3, 172, 93]

def envTag : Bytes := [67, 242, 254, 146, 218, 228, 107, 45, 112, 115, 220, 140, 65, 186, 255, 181]

/-- The platform on the backup of `.env`; elsewhere some format that can be undone. -/
def envPlatformFor (tar : Bytes) : Platform where
  gzip bytes := if bytes = tar then envCompressed else 0 :: bytes
  gunzip bytes := .ok (if bytes = envCompressed then tar else bytes.drop 1)
  scrypt passphrase salt _ _ _ _ := .ok (if passphrase = "secret".toList ∧ salt = envDraw.salt then envKey else [])
  argon2id _ _ _ _ _ _ := .ok []
  encrypt key iv bytes := if key = envKey ∧ iv = envDraw.iv ∧ bytes = envCompressed
    then (envCipher, envTag) else (bytes, zeros 16)
  decrypt key iv cipher tag :=
    if key = envKey ∧ iv = envDraw.iv ∧ cipher = envCipher ∧ tag = envTag then some envCompressed else some cipher
  sha256 bytes :=
    if bytes = Utf8.encode "PORT=3000\n".toList
      then "97fbfbc6ba76b530dbbd25096d61fb361ec99d4d308b32fda3509441db316385".toList else []

/-- The archive of `.env` and its manifest. -/
def envTar : Bytes := (tarPack (archived (envPlatformFor []) envDraw envEntries) envDraw.clock).toOption.getD []

def envPlatform : Platform := envPlatformFor envTar

theorem envPlatform_exact (tar : Bytes) : (envPlatformFor tar).Exact := by
  refine ⟨?_, ?_, ?_, ?_⟩
  · intro bytes
    unfold envPlatformFor
    simp only []
    have apart : 0 :: bytes ≠ envCompressed := by
      intro same
      have heads := congrArg List.head? same
      rw [List.head?_cons, show envCompressed.head? = some 31 by decide] at heads
      exact absurd (Option.some.inj heads) (by decide)
    by_cases same : bytes = tar
    · rw [if_pos same, if_pos rfl, same]
    · rw [if_neg same, if_neg apart]
      rfl
  · intro kdf passphrase salt given some
    have texts : isText "scrypt" (.some (.text "scrypt".toList)) = true ∧
        isText "scrypt" (.some (.text "argon2id".toList)) = false ∧
        isText "argon2id" (.some (.text "argon2id".toList)) = true := by decide
    have known : (!passphrase.isEmpty) = true ∧ (!salt.isEmpty) = true :=
      ⟨by simpa using given, by simpa using some⟩
    unfold deriveKey
    simp only [known, require, if_true, bind, Except.bind]
    cases kdf with
    | scrypt =>
      rw [show Kdf.scrypt.name = "scrypt".toList from rfl, if_pos texts.1]
      exact ⟨_, rfl⟩
    | argon2id =>
      rw [show Kdf.argon2id.name = "argon2id".toList from rfl, if_neg (by rw [texts.2.1]; decide), if_pos texts.2.2]
      exact ⟨_, rfl⟩
  · intro key iv bytes
    have other : envTag ≠ zeros 16 := by decide
    unfold envPlatformFor
    simp only []
    split
    · next same => rw [if_pos ⟨same.1, same.2.1, rfl, rfl⟩, same.2.2]
    · rw [if_neg fun same => other same.2.2.2.symm]
  · intro key iv bytes
    unfold envPlatformFor
    simp only []
    split
    · rfl
    · exact List.length_replicate

theorem pack_restored_iff_env :
    ∃ buffer tar, Restored envPlatform envDraw .scrypt envEntries "secret".toList
      (tierMeta "config".toList noMeta) buffer tar := by
  have facts : (match tarPack (archived envPlatform envDraw envEntries) envDraw.clock with
      | .ok tar => decide (Utf8.byteLength (ownText envDraw .scrypt (envPlatform.gzip tar).length tar.length) +
          Utf8.byteLength (metaText (tierMeta "config".toList noMeta)) ≤ 64 * 1024)
      | .error _ => false) = true ∧ (manifestBytes envPlatform envDraw envEntries).length < maxOctal ∧
      (∀ e ∈ envEntries, e.2.length < maxOctal) ∧ envDraw.clock / 1000 < maxOctal ∧
      (∀ e ∈ envEntries, Utf8.byteLength e.1 ≤ 100 ∧ e.1.all (fun c => c.toNat != 0) = true ∧
        e.1.head? ≠ some '/' ∧ e.1 ≠ "__proto__".toList) ∧
      (envEntries.map Prod.fst).Nodup ∧ (∀ e ∈ envEntries, e.1 ≠ manifestName) := by decide +kernel
  obtain ⟨header, manifest, bodies, clock, names, distinct, fresh⟩ := facts
  refine (pack_restored_iff (envPlatform_exact envTar) (by decide) (fun e member => ?_) distinct
    fresh).mpr ⟨clock, bodies, manifest, fun tar archive => ?_⟩
  · obtain ⟨short, plain, relative, own⟩ := names e member
    exact ⟨Nat.le_trans short (by decide), Or.inl short, plain_of_all plain, relative, own⟩
  · rw [show tarPack (archived envPlatform envDraw envEntries) envDraw.clock = .ok tar from archive] at header
    exact of_decide_eq_true header

theorem fullMeta_fields (notes : List Note) :
    (fullMeta noMeta notes).fields =
      [(tierName, .text "full".toList), (notesName, .array (notes.map Note.toJson))] := by
  have fresh : notesName ∉ [tierName] := by decide
  exact assign_fresh (o := [(tierName, Json.text "full".toList)]) fresh _

/-- A note takes at least the length of its error. -/
theorem length_le_metaText (note : Note) :
    note.error.length ≤ Utf8.byteLength (metaText (fullMeta noMeta [note])) := by
  obtain ⟨stage, name, error⟩ := note
  have quoted := Json.length_le_quote error
  refine Nat.le_trans ?_ (Utf8.length_le_byteLength _)
  unfold metaText
  rw [fullMeta_fields]
  cases name with
  | none =>
    simp only [List.map_cons, List.map_nil, Note.toJson, Option.map_none, Option.toList_none,
      List.nil_append, Json.writeFields, Json.write,
      Json.writeItems, List.length_cons, List.length_append]
    omega
  | some name =>
    simp only [List.map_cons, List.map_nil, Note.toJson, Option.map_some, Option.toList_some,
      List.cons_append, List.nil_append,
      Json.writeFields, Json.write, Json.writeItems, List.length_cons, List.length_append]
    omega

/-- A volume whose export fails with a long message. -/
def dataVolume : Collector where
  listStage := "docker-volumes".toList
  itemStage := "docker-volume".toList
  folder := "docker-volumes".toList
  listed := .ok ["data".toList]
  wanted := none
  exported := fun _ => .error (List.replicate 70000 'x')

def noInstances : Collector where
  listStage := "incus-list".toList
  itemStage := "incus-export".toList
  folder := "incus-exports".toList
  listed := .ok []
  wanted := none
  exported := fun _ => .ok []

def longNote : Note := ⟨"docker-volume".toList, some "data".toList, List.replicate 70000 'x'⟩

theorem dataVolume_collected : noInstances.collect (dataVolume.collect ([], [])) = ([], [longNote]) := rfl

/-- A full backup with a long note cannot be opened. -/
theorem long_note_unreadable :
    ¬ ∀ (platform : Platform) (draw : Draw) (kdf : Kdf) (baseEntries entries : List Entry)
      (volumes instances : Collector)
        (notes : List Note) (passphrase : Text) (more : HeaderMeta),
      platform.Exact → passphrase ≠ [] → instances.collect (volumes.collect (baseEntries, [])) = (entries, notes) →
        (∀ e ∈ entries, Representable e.1) → (entries.map Prod.fst).Nodup → (∀ e ∈ entries, e.1 ≠ manifestName) →
          ∃ buffer tar, packFullTier platform draw kdf baseEntries volumes instances passphrase
            more = .ok (buffer, notes) ∧
            Restored platform draw kdf entries passphrase (fullMeta more notes) buffer tar := by
  intro restores
  have none : ∀ e : Entry, e ∉ [] := fun _ => List.not_mem_nil
  obtain ⟨buffer, tar, _, restored⟩ := restores envPlatform envDraw .scrypt [] [] dataVolume noInstances [longNote]
    "secret".toList noMeta (envPlatform_exact envTar) (by decide) dataVolume_collected
    (fun e member => absurd member (none e)) List.nodup_nil fun e member => absurd member (none e)
  have noNames : (([] : List Entry).map Prod.fst).Nodup := List.nodup_nil
  have limits := restored_within noNames (fun e member => absurd member (none e)) restored
  obtain ⟨_, packed, _, _, archive, _⟩ := pack_parts.mp restored.packed
  have room := limits.added packed archive
  have long := length_le_metaText longNote
  have length : longNote.error.length = 70000 := List.length_replicate
  rw [length] at long
  omega

end ProxyPilot.Backup
