import Mathlib.Data.List.Basic
import Mathlib.Data.Nat.Digits.Defs
import ProxyPilot.Data.Fields
import ProxyPilot.Data.Paths
import ProxyPilot.Data.Text
import ProxyPilot.Data.Utf8

namespace ProxyPilot.Mock2.SeedTar

open Data

/-! # The seed archive (`seed-tar.js`)

The files of a template are packed as a `ustar` archive.  A path is a text without lone surrogates, and
a block is written field by field.
-/

abbrev Bytes := List UInt8

def BLOCK : Nat := 512
def MTIME : Nat := 0

structure File where
  path : List Char
  content : List Char
  mode : Option Nat

def padTo (buf : Bytes) (size : Nat) : Bytes :=
  if buf.length % size = 0 then buf else buf ++ List.replicate (size - buf.length % size) 0

def ascii (text : String) : Bytes := text.toList.map fun c => .ofNat c.toNat

/-- What `write` takes of a text into so many bytes: no character in part. -/
def writable : Nat → List Char → Bytes
  | _, [] => []
  | room, c :: rest =>
    if (Utf8.encodeChar c).length ≤ room then
      Utf8.encodeChar c ++ writable (room - (Utf8.encodeChar c).length) rest
    else []

def stringField (value : List Char) (length : Nat) : Bytes := writable (length - 1) (sliceUnits (length - 1) value)

/-- `s.padStart(width, '0').slice(-width)` -/
def lastDigits (digits : List Char) (width : Nat) : List Char :=
  let padded := List.replicate (width - digits.length) '0' ++ digits
  padded.drop (padded.length - width)

def octalField (value length : Nat) : Bytes :=
  (lastDigits (Nat.toDigits 8 value) (length - 1)).map fun c => .ofNat c.toNat

def writeString (value : List Char) (offset length : Nat) : Nat × Bytes := (offset, stringField value length)

def writeOctal (value offset length : Nat) : Nat × Bytes := (offset, octalField value length)

structure Split where
  name : List Char
  dir : List Char

def splitAt (parts : List (List Char)) (i : Nat) : Option Split :=
  let dir := ['/'].intercalate (parts.take i)
  let name := ['/'].intercalate (parts.drop i)
  if Utf8.byteLength name ≤ 100 ∧ Utf8.byteLength dir ≤ 155 then some ⟨name, dir⟩ else none

/-- A path that cannot be split is refused (`none`). -/
def splitPath (path : List Char) : Option Split :=
  if Utf8.byteLength path ≤ 100 then some ⟨path, []⟩
  else
    let parts := path.splitOn '/'
    (List.range' 1 (parts.length - 1)).findSome? (splitAt parts)

/-- The fields of a header in the order of the code, the checksum still as spaces. -/
def headerWrites (split : Split) (size mode : Nat) : List (Nat × Bytes) :=
  [writeString split.name 0 100,
    writeOctal mode 100 8,
    writeOctal 0 108 8,
    writeOctal 0 116 8,
    writeOctal size 124 12,
    writeOctal MTIME 136 12,
    (148, ascii "        "),
    (156, ascii "0"),
    (257, ascii "ustar" ++ [0]),
    (263, ascii "00"),
    writeString "root".toList 265 32,
    writeString "root".toList 297 32,
    writeString split.dir 345 155]

def byteSum (bytes : Bytes) : Nat := (bytes.map UInt8.toNat).sum

def headerBlock (split : Split) (size mode : Nat) : Bytes :=
  let h := writeAll (List.replicate BLOCK 0) (headerWrites split size mode)
  writeAll h [writeOctal (byteSum h) 148 7, (154, [0])]

def header (path : List Char) (size : Nat) (mode : Option Nat) : Option Bytes :=
  (splitPath path).map fun split => headerBlock split size (mode.getD 0o644)

def chunksOf (f : File) : Option Bytes :=
  let body := Utf8.encode f.content
  (header f.path body.length f.mode).map fun head => head ++ padTo body BLOCK

def buildSeedTar (files : List File) : Option Bytes :=
  (files.mapM chunksOf).map fun chunks => chunks.flatten ++ List.replicate (BLOCK * 2) 0

structure Entry where
  path : Bytes
  content : Bytes
  mode : Nat

/-- A text field ends at its first NUL or at its width. -/
def textOf (bytes : Bytes) : Bytes := bytes.takeWhile (· ≠ 0)

def octalDigit (byte : UInt8) : Bool := 48 ≤ byte && byte ≤ 55

/-- The number in a field, up to the first NUL or space. -/
def octalOf (bytes : Bytes) : Option Nat :=
  let digits := bytes.takeWhile fun byte => byte ≠ 0 && byte ≠ 32
  if digits.all octalDigit then some (digits.foldl (fun value byte => 8 * value + (byte.toNat - 48)) 0) else none

/-- The sum over a header with its checksum field read as spaces. -/
def checksumOf (block : Bytes) : Nat := byteSum (writeAt block 148 (List.replicate 8 32))

def pathOf (block : Bytes) : Bytes :=
  let dir := textOf (field block 345 155)
  if dir = [] then textOf (field block 0 100) else dir ++ 47 :: textOf (field block 0 100)

structure Head where
  path : Bytes
  size : Nat
  mode : Nat

def readHeader (block : Bytes) : Option Head :=
  if octalOf (field block 148 8) = some (checksumOf block) ∧ field block 257 6 = ascii "ustar" ++ [0] ∧
      field block 156 1 = ascii "0" then
    match octalOf (field block 124 12), octalOf (field block 100 8) with
    | some size, some mode => some ⟨pathOf block, size, mode⟩
    | _, _ => none
  else none

def padded (size : Nat) : Nat := (size + 511) / 512 * 512

/-- The entries up to the two zero blocks; `none` for what is no archive. -/
def readTar (bytes : Bytes) : Option (List Entry) :=
  if bytes.take (BLOCK * 2) = List.replicate (BLOCK * 2) 0 then some []
  else if _long : BLOCK ≤ bytes.length then
    match readHeader (bytes.take BLOCK) with
    | none => none
    | some head =>
      if (bytes.drop BLOCK).length < padded head.size then none
      else (readTar (bytes.drop (BLOCK + padded head.size))).map
        (⟨head.path, (bytes.drop BLOCK).take head.size, head.mode⟩ :: ·)
  else none
termination_by bytes.length
decreasing_by
  simp only [BLOCK, List.length_drop] at *
  omega

theorem length_writable (room : Nat) (text : List Char) : (writable room text).length ≤ room := by
  induction text generalizing room with
  | nil => simp [writable]
  | cons c rest ih =>
    simp only [writable]
    split
    · have more := ih (room - (Utf8.encodeChar c).length)
      rw [List.length_append]
      omega
    · simp

variable {text : List Char} {c : Char} {digits : List Char}

variable {room : Nat} {units : Nat} {value : List Char} {length : Nat}

theorem writable_whole (fits : Utf8.byteLength text ≤ room) :
    writable room text = Utf8.encode text := by
  induction text generalizing room with
  | nil => rfl
  | cons c rest ih =>
    rw [Utf8.byteLength, Utf8.encode_cons, List.length_append] at fits
    rw [writable, if_pos (by omega), Utf8.encode_cons, ih]
    rw [Utf8.byteLength]
    omega

theorem length_encodeChar_large (large : ¬c.toNat < 0x10000) : (Utf8.encodeChar c).length = 4 := by
  rw [Utf8.encodeChar, if_neg (by omega), if_neg (by omega), if_neg large]
  rfl

theorem sliceUnits_whole (fits : Utf8.byteLength text ≤ units) :
    sliceUnits units text = text := by
  induction text generalizing units with
  | nil => cases units <;> rfl
  | cons c rest ih =>
    have one := Utf8.one_le_encodeChar c
    rw [Utf8.byteLength, Utf8.encode_cons, List.length_append] at fits
    cases units with
    | zero => omega
    | succ units =>
      rw [sliceUnits]
      split
      · rw [ih (by rw [Utf8.byteLength]; omega)]
      · next large =>
        have four := length_encodeChar_large large
        rw [if_neg (by omega), ih (by rw [Utf8.byteLength]; omega)]

theorem length_stringField (value : List Char) (length : Nat) : (stringField value length).length ≤ length - 1 :=
  length_writable _ _

theorem stringField_whole (fits : Utf8.byteLength value ≤ length - 1) :
    stringField value length = Utf8.encode value := by
  rw [stringField, sliceUnits_whole fits, writable_whole fits]

theorem zero_not_mem (codes : List Nat) (some : ∀ n ∈ codes, n % 256 ≠ 0) : 0 ∉ codes.map UInt8.ofNat := by
  intro member
  obtain ⟨n, listed, zero⟩ := List.mem_map.mp member
  have value := congrArg UInt8.toNat zero
  rw [UInt8.toNat_ofNat'] at value
  exact some n listed value

theorem encodeChar_ne_zero (nul : c.toNat ≠ 0) : 0 ∉ Utf8.encodeChar c := by
  have top : c.toNat < 0xD800 ∨ 0xDFFF < c.toNat ∧ c.toNat < 0x110000 := c.valid
  unfold Utf8.encodeChar
  split
  · apply zero_not_mem [_]
    simp only [List.forall_mem_cons, List.not_mem_nil, false_imp_iff, implies_true, and_true]
    omega
  · split
    · apply zero_not_mem [_, _]
      simp only [List.forall_mem_cons, List.not_mem_nil, false_imp_iff, implies_true, and_true]
      omega
    · split
      · apply zero_not_mem [_, _, _]
        simp only [List.forall_mem_cons, List.not_mem_nil, false_imp_iff, implies_true, and_true]
        omega
      · apply zero_not_mem [_, _, _, _]
        simp only [List.forall_mem_cons, List.not_mem_nil, false_imp_iff, implies_true, and_true]
        omega

theorem writable_ne_zero (plain : ∀ c ∈ text, c.toNat ≠ 0) : 0 ∉ writable room text := by
  induction text generalizing room with
  | nil => simp [writable]
  | cons c rest ih =>
    simp only [writable]
    split
    · rw [List.mem_append, not_or]
      exact ⟨encodeChar_ne_zero (plain c List.mem_cons_self),
        ih fun other member => plain other (List.mem_cons_of_mem _ member)⟩
    · simp

theorem sliceUnits_plain (plain : ∀ c ∈ text, c.toNat ≠ 0) :
    ∀ c ∈ sliceUnits units text, c.toNat ≠ 0 := by
  induction text generalizing units with
  | nil => cases units <;> simp [sliceUnits]
  | cons c rest ih =>
    have first := plain c List.mem_cons_self
    have others : ∀ units, ∀ d ∈ sliceUnits units rest, d.toNat ≠ 0 := fun units =>
      ih fun other member => plain other (List.mem_cons_of_mem _ member)
    cases units with
    | zero => simp [sliceUnits]
    | succ units =>
      rw [sliceUnits]
      split
      · exact List.forall_mem_cons.mpr ⟨first, others _⟩
      · split
        · simp only [List.mem_singleton, forall_eq]
          decide
        · exact List.forall_mem_cons.mpr ⟨first, others _⟩

theorem stringField_plain (plain : ∀ c ∈ value, c.toNat ≠ 0) :
    0 ∉ stringField value length := writable_ne_zero (sliceUnits_plain plain)

theorem textOf_padded {text : Bytes} (plain : 0 ∉ text) (n : Nat) : textOf (text ++ List.replicate n 0) = text := by
  have zeros : textOf (List.replicate n 0) = [] := by cases n <;> simp [textOf, List.replicate_succ]
  rw [textOf, List.takeWhile_append_of_pos, ← textOf, zeros, List.append_nil]
  intro byte member
  simpa using fun zero : byte = 0 => plain (zero ▸ member)

theorem digit_of_mem {n : Nat} (member : c ∈ Nat.toDigits 8 n) : '0'.toNat ≤ c.toNat ∧ c.toNat ≤ '7'.toNat := by
  have small : ∀ d < 8, '0'.toNat ≤ (Nat.digitChar d).toNat ∧ (Nat.digitChar d).toNat ≤ '7'.toNat := by decide
  induction n using Nat.strongRecOn with
  | _ n ih =>
    rw [Nat.toDigits_eq_if (by decide)] at member
    split at member
    · next less =>
      rw [List.mem_singleton.mp member]
      exact small n less
    · rcases List.mem_append.mp member with front | last
      · exact ih (n / 8) (Nat.div_lt_self (by omega) (by decide)) front
      · rw [List.mem_singleton.mp last]
        exact small _ (Nat.mod_lt _ (by decide))

theorem length_lastDigits (digits : List Char) (width : Nat) : (lastDigits digits width).length = width := by
  simp [lastDigits]
  omega

theorem lastDigits_whole {width : Nat} (fits : digits.length ≤ width) :
    lastDigits digits width = List.replicate (width - digits.length) '0' ++ digits := by
  have exact : (List.replicate (width - digits.length) '0' ++ digits).length - width = 0 := by simp; omega
  rw [lastDigits, exact, List.drop_zero]

theorem lastDigits_octal {n width : Nat} (member : c ∈ lastDigits (Nat.toDigits 8 n) width) :
    '0'.toNat ≤ c.toNat ∧ c.toNat ≤ '7'.toNat := by
  rcases List.mem_append.mp (List.mem_of_mem_drop member) with zero | digit
  · rw [List.eq_of_mem_replicate zero]
    decide
  · exact digit_of_mem digit

theorem length_octalField (value length : Nat) : (octalField value length).length = length - 1 := by
  rw [octalField, List.length_map, length_lastDigits]

/-- The number that an octal field holds. -/
def octalValue (value length : Nat) : Nat := Nat.ofDigitChars 8 (lastDigits (Nat.toDigits 8 value) (length - 1)) 0

theorem octalValue_whole {value length : Nat} (wide : 1 < length) (fits : value < 8 ^ (length - 1)) :
    octalValue value length = value := by
  have short := (Nat.length_toDigits_le_iff (b := 8) (by decide) (by omega)).mpr fits
  rw [octalValue, lastDigits_whole short, Nat.ofDigitChars_append, Nat.ofDigitChars_replicate_zero, Nat.mul_zero,
    Nat.ofDigitChars_toDigits (by decide) (by decide)]

theorem ofDigitChars_lt (octal : ∀ c ∈ digits, '0'.toNat ≤ c.toNat ∧ c.toNat ≤ '7'.toNat)
    {start bound : Nat} (below : start < bound) :
    Nat.ofDigitChars 8 digits start < 8 ^ digits.length * bound := by
  induction digits generalizing start bound with
  | nil => simpa [Nat.ofDigitChars] using below
  | cons c rest ih =>
    have digit := octal c List.mem_cons_self
    have next : 8 * start + (c.toNat - '0'.toNat) < 8 * bound := by
      simp only [Char.reduceToNat] at digit ⊢
      omega
    have more := ih (fun other member => octal other (List.mem_cons_of_mem _ member)) next
    rw [Nat.ofDigitChars_cons, List.length_cons, Nat.pow_succ, Nat.mul_assoc]
    exact more

theorem octalValue_lt (value length : Nat) : octalValue value length < 8 ^ (length - 1) := by
  have bound : octalValue value length < 8 ^ (lastDigits (Nat.toDigits 8 value) (length - 1)).length * 1 :=
    ofDigitChars_lt (fun c member => lastDigits_octal member) (by decide)
  rwa [length_lastDigits, Nat.mul_one] at bound

theorem octal_byte (digit : '0'.toNat ≤ c.toNat ∧ c.toNat ≤ '7'.toNat) :
    (UInt8.ofNat c.toNat).toNat = c.toNat := UInt8.toNat_ofNat_of_lt' (Nat.lt_of_le_of_lt digit.2 (by decide))

theorem foldl_octal (octal : ∀ c ∈ digits, '0'.toNat ≤ c.toNat ∧ c.toNat ≤ '7'.toNat) (start : Nat) :
    (digits.map fun c => UInt8.ofNat c.toNat).foldl (fun value byte => 8 * value + (byte.toNat - 48)) start =
      Nat.ofDigitChars 8 digits start := by
  induction digits generalizing start with
  | nil => rfl
  | cons c rest ih =>
    rw [List.map_cons, List.foldl_cons, octal_byte (octal c List.mem_cons_self), Nat.ofDigitChars_cons,
      ih fun other member => octal other (List.mem_cons_of_mem _ member)]
    rfl

theorem octalOf_octalField (value length : Nat) (rest : Bytes) :
    octalOf (octalField value length ++ 0 :: rest) = some (octalValue value length) := by
  have octal : ∀ byte ∈ octalField value length, octalDigit byte = true := by
    intro byte member
    obtain ⟨c, digit, rfl⟩ := List.mem_map.mp member
    have range := lastDigits_octal digit
    rw [octalDigit, Bool.and_eq_true, decide_eq_true_eq, decide_eq_true_eq, UInt8.le_iff_toNat_le,
      UInt8.le_iff_toNat_le, octal_byte range]
    exact range
  have digits : (octalField value length ++ 0 :: rest).takeWhile (fun byte => byte ≠ 0 && byte ≠ 32) =
      octalField value length := by
    rw [List.takeWhile_append_of_pos]
    · simp
    · intro byte member
      have digit := octal byte member
      simp only [octalDigit, Bool.and_eq_true, decide_eq_true_eq, UInt8.le_iff_toNat_le] at digit
      simp only [ne_eq, ← UInt8.toNat_inj, decide_not, Bool.and_eq_true, Bool.not_eq_true', decide_eq_false_iff_not]
      constructor <;> intro same <;> rw [same] at digit <;> revert digit <;> decide
  simp only [octalOf, digits]
  rw [if_pos (List.all_eq_true.mpr octal), octalField,
    foldl_octal fun c member => lastDigits_octal member, octalValue]

end ProxyPilot.Mock2.SeedTar
