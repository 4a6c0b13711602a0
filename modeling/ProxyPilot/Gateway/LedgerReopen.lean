import Mathlib.Logic.Relation
import ProxyPilot.Data.Values
import ProxyPilot.Gateway.FileLedger

namespace ProxyPilot.Gateway.FileLedger

open Data (linesOf unlines newline lookup_of_mem linesOf_unlines ChainOf)
open Data.Canonical

section Lines

variable {floats : Floats}

theorem printable_escapeChar (c : Char) : ∀ d ∈ Data.Json.escapeChar c, 32 ≤ d.toNat := by
  have hexadecimal : ∀ n < 32, 32 ≤ (Data.Json.hexDigit (n / 16)).toNat ∧
      32 ≤ (Data.Json.hexDigit (n % 16)).toNat := by decide
  unfold Data.Json.escapeChar
  split
  · simp
  · split
    · simp
    · split
      · simp
      · split
        · simp
        · split
          · simp
          · split
            · simp
            · split
              · simp
              · split
                next small => simp [hexadecimal _ small]
                next large =>
                  intro d member
                  rw [List.mem_singleton.mp member]
                  omega

theorem printable_quote (text : Text) : ∀ c ∈ Data.Json.quote text, 32 ≤ c.toNat := by
  intro c member
  rcases List.mem_cons.mp member with rfl | member
  · decide
  · rcases List.mem_append.mp member with member | member
    · obtain ⟨d, -, member⟩ := List.mem_flatMap.mp member
      exact printable_escapeChar d c member
    · rw [List.mem_singleton.mp member]
      decide

theorem printable_digit {c : Char} (digit : c.isDigit = true) : 32 ≤ c.toNat := by
  have low : 48 ≤ c.toNat := by
    simp only [Char.isDigit, Bool.and_eq_true, decide_eq_true_eq] at digit
    exact UInt32.le_iff_toNat_le.mp digit.1
  omega

theorem printable_numeral {text : Text} (isNumeral : Data.JsonGrammar.Numeral text) : ∀ c ∈ text, 32 ≤ c.toNat := by
  obtain ⟨sign, whole, fraction, exponent, rfl, isSign, isWhole, isFraction, isExponent⟩ := isNumeral
  have signs : ∀ c ∈ sign, 32 ≤ c.toNat := by rcases isSign with rfl | rfl <;> simp
  have wholes : ∀ c ∈ whole, 32 ≤ c.toNat := by
    rcases isWhole with rfl | ⟨-, -, digits⟩
    · simp
    · exact fun c member => printable_digit (digits c member)
  have fractions : ∀ c ∈ fraction, 32 ≤ c.toNat := by
    rcases isFraction with rfl | ⟨digits, rfl, -, all⟩
    · simp
    · exact List.forall_mem_cons.mpr ⟨by decide, fun c member => printable_digit (all c member)⟩
  have exponents : ∀ c ∈ exponent, 32 ≤ c.toNat := by
    rcases isExponent with rfl | ⟨e, sign, digits, rfl, letter, signed, -, all⟩
    · simp
    · have first : 32 ≤ e.toNat := by rcases letter with rfl | rfl <;> decide
      have second : ∀ c ∈ sign, 32 ≤ c.toNat := by rcases signed with rfl | rfl | rfl <;> simp
      exact List.forall_mem_cons.mpr ⟨first,
        List.forall_mem_append.mpr ⟨second, fun c member => printable_digit (all c member)⟩⟩
  exact List.forall_mem_append.mpr ⟨signs,
    List.forall_mem_append.mpr ⟨wholes, List.forall_mem_append.mpr ⟨fractions, exponents⟩⟩⟩

theorem printable_commas {parts : List Text} (each : ∀ part ∈ parts, ∀ c ∈ part, 32 ≤ c.toNat) :
    ∀ c ∈ commas parts, 32 ≤ c.toNat := by
  induction parts with
  | nil => simp [commas]
  | cons part parts ih =>
    obtain ⟨first, each⟩ := List.forall_mem_cons.mp each
    cases parts with
    | nil => simpa [commas] using first
    | cons next parts =>
      rw [commas, List.intercalate_cons_cons]
      exact List.forall_mem_append.mpr ⟨List.forall_mem_append.mpr ⟨first, by simp⟩, ih each⟩

/-- No control character stands in canonical JSON: it is one line. -/
theorem printable_write (value : Value floats.Float) : ∀ c ∈ write floats value, 32 ≤ c.toNat := by
  induction value using every with
  | leaf v notArray notObject =>
    cases v with
    | null => simp [write]
    | bool value => cases value <;> simp [write]
    | int n =>
      intro c member
      exact printable_numeral (numeral_intText n) c member
    | float f => exact printable_numeral (floats.numeral f)
    | text text => exact printable_quote text
    | array items => exact absurd rfl (notArray items)
    | object fields => exact absurd rfl (notObject fields)
  | inArray items each =>
    have inside : ∀ part ∈ items.map (write floats), ∀ c ∈ part, 32 ≤ c.toNat := by
      intro part member
      obtain ⟨item, listed, rfl⟩ := List.mem_map.mp member
      exact each item listed
    rw [write, writeItems_eq]
    exact List.forall_mem_cons.mpr ⟨by decide, List.forall_mem_append.mpr ⟨printable_commas inside, by simp⟩⟩
  | inObject fields each =>
    have inside : ∀ part ∈ (sorted (writeFields floats fields)).map fieldText, ∀ c ∈ part, 32 ≤ c.toNat := by
      intro part member
      obtain ⟨field, listed, rfl⟩ := List.mem_map.mp member
      rw [mem_sorted, writeFields_eq] at listed
      obtain ⟨entry, inFields, rfl⟩ := List.mem_map.mp listed
      exact List.forall_mem_append.mpr ⟨printable_quote _,
        List.forall_mem_cons.mpr ⟨by decide, each entry inFields⟩⟩
    rw [write]
    exact List.forall_mem_cons.mpr ⟨by decide, List.forall_mem_append.mpr ⟨printable_commas inside, by simp⟩⟩

end Lines

section Rows

variable {floats : Floats}

/-- The row as it is read back. -/
def Row.normal {F : Type} (row : Row F) : Row F :=
  ⟨Data.Canonical.normal row.sequence, row.previousSha256, Data.Canonical.normal row.kind,
    Data.Canonical.normal row.data, row.sha256⟩

/-- The four names in order. -/
def Row.ordered {F : Type} (row : Row F) : List (Text × Value F) :=
  [(dataName, row.data), (kindName, row.kind), (previousName, .text row.previousSha256),
    (sequenceName, row.sequence)]

theorem normal_unsigned {F : Type} (row : Row F) : normal row.unsigned = .object row.normal.ordered := rfl

theorem normal_value {F : Type} (row : Row F) :
    normal row.value = .object (row.normal.ordered ++ [(shaName, Value.text row.sha256)]) := rfl

theorem writable_normal {F : Type} (value : Value F) : writable (normal value) = writable value := by
  induction value using every with
  | leaf v notArray notObject =>
    cases v with
    | array items => exact absurd rfl (notArray items)
    | object fields => exact absurd rfl (notObject fields)
    | _ => rfl
  | inArray items each =>
    rw [normal, writable, writable, writableItems_eq, writableItems_eq, normalItems_eq,
      List.all_map, Bool.eq_iff_iff,
      List.all_eq_true, List.all_eq_true]
    exact forall₂_congr fun item member => Eq.congr_left (each item member)
  | inObject fields each =>
    rw [normal, writable, writable, writableFields_eq, writableFields_eq, normalFields_eq,
      (sorted_perm _).all_eq, List.all_map,
      Bool.eq_iff_iff, List.all_eq_true, List.all_eq_true]
    exact forall₂_congr fun entry member => Eq.congr_left (each entry member)

/-- A row that can be written, with names of its own in each object. -/
structure Row.Good {F : Type} (row : Row F) : Prop where
  distinct : Distinct row.value
  writable : writable row.value = true

theorem names_distinct : [sequenceName, previousName, kindName, dataName, shaName].Nodup := by decide

theorem Row.Good.unsigned {F : Type} {row : Row F} (good : row.Good) :
    Distinct row.unsigned ∧ Data.Canonical.writable row.unsigned = true := by
  obtain ⟨⟨names, fields⟩, writes⟩ := good
  rw [distinctFields_iff] at fields
  rw [Row.value, Data.Canonical.writable, writableFields_eq, List.all_append, Bool.and_eq_true] at writes
  refine ⟨⟨names_distinct.sublist (List.sublist_append_left [sequenceName, previousName, kindName,
    dataName] [shaName]), distinctFields_iff.mpr fun field member => ?_⟩, ?_⟩
  · exact fields field (List.mem_append_left _ member)
  · rw [Row.unsigned, Data.Canonical.writable, writableFields_eq]
    exact writes.1

theorem Row.good_iff {F : Type} {row : Row F} : row.Good ↔
    Distinct row.sequence ∧ Distinct row.kind ∧ Distinct row.data ∧
      writable row.sequence = true ∧ writable row.kind = true ∧ writable row.data = true := by
  constructor
  · intro good
    obtain ⟨⟨_, fields⟩, writes⟩ := good
    simp only [Row.signed, List.cons_append, List.nil_append, DistinctFields, Distinct, and_true,
      true_and] at fields
    simp only [Row.value, Row.signed, List.cons_append, List.nil_append, Data.Canonical.writable,
      writableFields, Bool.and_true,
      Bool.true_and, Bool.and_eq_true] at writes
    exact ⟨fields.1, fields.2.1, fields.2.2, writes⟩
  · intro parts
    obtain ⟨sequence, kind, data, writes⟩ := parts
    refine ⟨⟨names_distinct, ?_⟩, ?_⟩
    · simp [Row.signed, Distinct, DistinctFields, sequence, kind, data]
    · simp [Row.value, Row.signed, Data.Canonical.writable, writableFields, writes]

variable {row : Row floats.Float}

theorem Row.Good.normal (good : row.Good) : row.normal.Good := by
  have keeps : ∀ value : Value floats.Float, Distinct value → Data.Canonical.writable value = true →
      Distinct (Data.Canonical.normal value) := by
    intro value distinct writes
    have read : strictJson floats (write floats value ++ []) = some (Data.Canonical.normal value) :=
      strictJson_write distinct writes (by simp)
    exact distinct_of_strictJson read
  obtain ⟨sequence, kind, data, writes⟩ := Row.good_iff.mp good
  refine Row.good_iff.mpr ⟨keeps _ sequence writes.1, keeps _ kind writes.2.1, keeps _ data writes.2.2, ?_⟩
  rw [Row.normal, writable_normal, writable_normal, writable_normal]
  exact writes

/-- Two rows with one body are one row but for the hash. -/
theorem normal_of_body {row other : Row floats.Float} (good : row.Good) (good' : other.Good)
    (same : write floats row.unsigned = write floats other.unsigned) :
    row.normal.ordered = other.normal.ordered := by
  have normals := normal_of_write good.unsigned.1 good'.unsigned.1 good.unsigned.2 good'.unsigned.2 same
  rw [normal_unsigned, normal_unsigned] at normals
  exact Value.object.inj normals

/-- The rows as a chain of hashes. -/
def chain (floats : Floats) (digest : Text → Text) : ChainOf (Row floats.Float) Text Text where
  good row := row.Good
  body row := write floats row.unsigned
  previous row := row.previousSha256
  hash row := row.sha256
  digest := digest
  previous_of_body a b good good' same := by
    have both := normal_of_body good good' same
    simp only [Row.ordered, Row.normal, List.cons.injEq, Prod.mk.injEq, Value.text.injEq] at both
    exact both.2.2.1.2

/-- The line of a row, without its end. -/
def Row.line (row : Row floats.Float) : Text := write floats row.value

theorem write_unsigned_normal (good : row.Good) :
    write floats row.normal.unsigned = write floats row.unsigned := by
  have perm : row.normal.signed.Perm row.normal.ordered := (List.reverse_perm row.normal.signed).symm
  rw [Row.unsigned, write_perm perm good.normal.unsigned.1.1, ← normal_unsigned, write_normal]

theorem line_normal (good : row.Good) : row.normal.line = row.line := by
  have perm : (row.normal.signed ++ [(shaName, Value.text row.sha256)]).Perm (row.normal.ordered ++
      [(shaName, Value.text row.sha256)]) :=
    (List.reverse_perm row.normal.signed).symm.append_right _
  rw [Row.line, show row.normal.value = .object (row.normal.signed ++ [(shaName, Value.text row.sha256)]) from rfl,
    write_perm perm good.normal.distinct.1, ← normal_value, write_normal, Row.line]

end Rows

section Reading

variable {floats : Floats} {digest : Text → Text} {rows : List (Row floats.Float)} {row : Row floats.Float}

/-- The fields of a row's line in some order. -/
def Spells {F : Type} (row : Row F) (fields : List (Text × Value F)) : Prop :=
  fields.Perm (row.signed ++ [(shaName, Value.text row.sha256)])

theorem Spells.once {F : Type} {row : Row F} {fields : List (Text × Value F)}
    (spells : Spells row fields) : (fields.map Prod.fst).Nodup :=
  (spells.map Prod.fst).nodup_iff.mpr names_distinct

theorem Spells.exactRow {F : Type} {row : Row F} {fields : List (Text × Value F)} (spells : Spells row fields) :
    exactRow fields = some row := by
  have found : ∀ entry ∈ row.signed ++ [(shaName, Value.text row.sha256)], fields.lookup entry.1 = some entry.2 :=
    fun entry member => lookup_of_mem spells.once (spells.mem_iff.mpr member)
  simp only [Row.signed, List.cons_append, List.nil_append, List.forall_mem_cons] at found
  have length : fields.length = 5 := spells.length_eq
  simp [FileLedger.exactRow, length, found, textOf]

theorem spells_of_exactRow {F : Type} {row : Row F} {fields : List (Text × Value F)}
    (read : exactRow fields = some row) : Spells row fields := by
  simp only [exactRow, Option.ite_none_right_eq_some, Option.bind_eq_bind, Option.bind_eq_some_iff,
    Option.some.injEq] at read
  obtain ⟨length, sequence, sequenceAt, previous, ⟨previousValue, previousAt, isText⟩, kind, kindAt,
      data, dataAt, sha, ⟨shaValue, shaAt, isSha⟩, rfl⟩ := read
  have texts : ∀ {value : Value F} {text : Text}, textOf value = some text → value = .text text := by
    intro value text found
    cases value <;> cases found
    rfl
  rw [texts isText] at previousAt
  rw [texts isSha] at shaAt
  have inside : ∀ {name : Text} {value : Value F}, fields.lookup name = some value → (name, value) ∈ fields := by
    intro name value found
    obtain ⟨front, back, rfl, -⟩ := List.lookup_eq_some_iff.mp found
    exact List.mem_append_right _ List.mem_cons_self
  have distinct :
      ((Row.signed ⟨sequence, previous, kind, data, sha⟩ ++ [(shaName, Value.text sha)]).map
      Prod.fst).Nodup := names_distinct
  refine (List.Subperm.perm_of_length_le (List.subperm_of_subset distinct.of_map ?_) length.le).symm
  intro entry member
  simp only [Row.signed, List.cons_append, List.nil_append, List.mem_cons, List.not_mem_nil, or_false] at member
  rcases member with rfl | rfl | rfl | rfl | rfl
  · exact inside sequenceAt
  · exact inside previousAt
  · exact inside kindAt
  · exact inside dataAt
  · exact inside shaAt

theorem Spells.unsigned {F : Type} {row : Row F} {fields : List (Text × Value F)} (spells : Spells row fields) :
    (fields.filter fun field => field.1 != shaName).Perm row.signed :=
  spells.filter _

/-- A row that may follow the rows. -/
structure Follows (floats : Floats) (digest : Text → Text) (rows : List (Row floats.Float))
    (row : Row floats.Float) : Prop where
  good : row.Good
  place : isIndex floats (rows.length + 1) row.sequence = true
  previous : row.previousSha256 = lastSha rows
  hash : row.sha256 = digest (write floats row.unsigned)

variable {fields : List (Text × Value floats.Float)} {others : List (Row floats.Float)} {n : Nat}

theorem checkFields_spells (spells : Spells row fields) (follows : Follows floats digest rows row) :
    checkFields floats digest rows fields = some row := by
  have writes : writable (.object (fields.filter fun field => field.1 != shaName)) = true := by
    have unsigned := follows.good.unsigned.2
    rw [Row.unsigned, writable, writableFields_eq] at unsigned
    rw [writable, writableFields_eq, spells.unsigned.all_eq, unsigned]
  have once : ((fields.filter fun field => field.1 != shaName).map Prod.fst).Nodup :=
    spells.once.sublist (List.filter_sublist.map _)
  have same : write floats (.object (fields.filter fun field => field.1 != shaName)) = write floats row.unsigned :=
    write_perm spells.unsigned once
  have kept : isIndex floats (rows.length + 1) row.sequence = true ∧ row.previousSha256 = lastSha rows ∧
      row.sha256 = digest (write floats row.unsigned) := ⟨follows.place, follows.previous, follows.hash⟩
  simp only [checkFields, spells.exactRow, canonical, writes, if_true, same, Option.bind_eq_bind,
    Option.bind_some, if_pos kept]

theorem checkFields_follows (distinct : Distinct (.object fields))
    (read : checkFields floats digest rows fields = some row) :
    Spells row fields ∧ Follows floats digest rows row := by
  simp only [checkFields, canonical, Option.bind_eq_bind, Option.bind_eq_some_iff,
    Option.ite_none_right_eq_some, Option.some.injEq] at read
  obtain ⟨row', exact, text, ⟨writes, rfl⟩, ⟨place, previous, hash⟩, rfl⟩ := read
  have spells := spells_of_exactRow exact
  have once : ((fields.filter fun field => field.1 != shaName).map Prod.fst).Nodup :=
    spells.once.sublist (List.filter_sublist.map _)
  rw [write_perm spells.unsigned once] at hash
  refine ⟨spells, ⟨⟨names_distinct, ?_⟩, ?_⟩, place, previous, hash⟩
  · obtain ⟨-, each⟩ := distinct
    rw [distinctFields_iff] at each ⊢
    exact fun field member => each field (spells.mem_iff.mpr member)
  · rw [writable, writableFields_eq, spells.unsigned.all_eq] at writes
    rw [Row.value, writable, writableFields_eq, List.all_append, writes]
    rfl

theorem checkRow_iff {line : Text} : checkRow floats digest rows line = some row ↔
    ∃ fields, strictJson floats line = some (.object fields) ∧ Spells row fields ∧
      Follows floats digest rows row := by
  have objects : ∀ {value : Value floats.Float} {fields : List (Text × Value floats.Float)},
      fieldsOf value = some fields ↔ value = .object fields := by
    intro value fields
    cases value <;> simp [fieldsOf]
  simp only [checkRow, Option.bind_eq_some_iff, objects]
  constructor
  · intro ⟨fields, ⟨value, read, object⟩, checked⟩
    subst object
    exact ⟨fields, read, checkFields_follows (distinct_of_strictJson read) checked⟩
  · intro ⟨fields, read, spells, follows⟩
    exact ⟨fields, ⟨_, read, rfl⟩, checkFields_spells spells follows⟩

theorem Follows.normal (follows : Follows floats digest rows row) (numbered : row.sequence = .int n)
    (length : others.length = rows.length) (last : lastSha others = lastSha rows) :
    Follows floats digest others row.normal := by
  refine ⟨follows.good.normal, ?_, follows.previous.trans last.symm, ?_⟩
  · rw [length, show row.normal.sequence = row.sequence by rw [Row.normal, numbered]; rfl]
    exact follows.place
  · rw [write_unsigned_normal follows.good]
    exact follows.hash

/-- A line that was written is read as its row, whatever blanks stand behind it. -/
theorem checkRow_line (follows : Follows floats digest rows row) (numbered : row.sequence = .int n)
    (length : others.length = rows.length) (last : lastSha others = lastSha rows) {white : Text}
    (blank : ∀ c ∈ white, Data.Json.space c = true) :
    checkRow floats digest others (row.line ++ white) = some row.normal := by
  have spells : Spells row.normal (row.normal.ordered ++ [(shaName, Value.text row.sha256)]) :=
    (List.reverse_perm row.normal.signed).append_right _
  refine checkRow_iff.mpr ⟨_, ?_, spells, follows.normal numbered length last⟩
  rw [Row.line, strictJson_write follows.good.distinct follows.good.writable blank, normal_value]

end Reading

section Files

variable (floats : Floats) (digest : Text → Text)

/-- The data of a consumed approval. -/
def consumption {F : Type} (approvalId bindingSha256 : Text) : Value F :=
  .object [(approvalIdName, .text approvalId), (bindingName, .text bindingSha256)]

/-- The rows the ledger has written, and the approvals they use up. -/
inductive Written : List (Row floats.Float) → List (Value floats.Float) → Prop
  | start : Written [] []
  | event {rows approvals row} (before : Written rows approvals) (follows : Follows floats digest rows row)
      (numbered : row.sequence = .int (rows.length + 1 : Nat)) (other : isText approvalConsumed row.kind = false) :
      Written (rows ++ [row]) approvals
  | consumed {rows approvals row approvalId bindingSha256} (before : Written rows approvals)
      (follows : Follows floats digest rows row)
      (numbered : row.sequence = .int (rows.length + 1 : Nat)) (kind : row.kind = .text approvalConsumed)
      (data : row.data = consumption approvalId bindingSha256) (fresh : approvals.any (isText approvalId) = false) :
      Written (rows ++ [row]) (approvals ++ [.text approvalId])

/-- The file is the text of the rows. -/
structure Sound (ledger : Ledger floats.Float) : Prop where
  file : ledger.file = Data.Utf8.encode (unlines (ledger.rows.map Row.line))
  written : Written floats digest ledger.rows ledger.approvals

variable {floats digest} {ledger next : Ledger floats.Float} {rows : List (Row floats.Float)}
  {approvals : List (Value floats.Float)}

theorem lastSha_snoc {F : Type} (rows : List (Row F)) (row : Row F) : lastSha (rows ++ [row]) = row.sha256 := by
  rw [lastSha, List.getLast?_concat]
  rfl

theorem readLines_snoc (lines : List Text) (line : Text) :
    readLines floats digest (lines ++ [line]) = (readLines floats digest lines).bind fun opened =>
      readLine floats digest opened line := by
  rw [readLines, List.foldlM_append]
  simp [readLines]

theorem isText_normal {F : Type} (text : Text) (value : Value F) :
    isText text (normal value) = isText text value := by
  cases value <;> rfl

theorem readLine_line {row : Row floats.Float} (follows : Follows floats digest rows row) {n : Nat}
    (numbered : row.sequence = .int n)
    (opened : Opened floats.Float) (length : opened.rows.length = rows.length)
    (last : lastSha opened.rows = lastSha rows)
    {gained : List (Value floats.Float)} (uses : approvalOf row.normal = some gained) :
    readLine floats digest opened row.line = some ⟨opened.rows ++ [row.normal], opened.approvals ++ gained⟩ := by
  have blank : ∀ c ∈ ['\n'], Data.Json.space c = true := by simp [Data.Json.space]
  simp only [readLine, checkRow_line follows numbered length last blank, uses, Option.bind_eq_bind,
    Option.bind_some]

/-- What was written is read back up to the order of names, and written again it is the same. -/
theorem read_written (written : Written floats digest rows approvals) :
    readLines floats digest (rows.map Row.line) = some ⟨rows.map Row.normal, approvals⟩ ∧
      Written floats digest (rows.map Row.normal) approvals ∧ lastSha (rows.map Row.normal) = lastSha rows := by
  induction written with
  | start => exact ⟨rfl, .start, rfl⟩
  | @event rows approvals row before follows numbered other ih =>
    obtain ⟨read, again, last⟩ := ih
    have uses : approvalOf row.normal = some [] := if_neg (by rw [Row.normal, isText_normal, other]; decide)
    have line := readLine_line follows numbered ⟨rows.map Row.normal, approvals⟩ (List.length_map _) last uses
    refine ⟨?_, ?_, ?_⟩
    · rw [List.map_append, List.map_singleton, readLines_snoc, read, Option.bind_some, line,
        List.map_append, List.append_nil]
      rfl
    · rw [List.map_append]
      exact .event again (follows.normal numbered (List.length_map _) last)
        (by rw [Row.normal, numbered, List.length_map]; rfl)
        (by rw [Row.normal, isText_normal, other])
    · rw [List.map_append, List.map_singleton, lastSha_snoc, lastSha_snoc]
      rfl
  | @consumed rows approvals row approvalId _ before follows numbered kind data fresh ih =>
    obtain ⟨read, again, last⟩ := ih
    have uses : approvalOf row.normal = some [.text approvalId] := by
      rw [Row.normal, kind, data]
      rfl
    have line := readLine_line follows numbered ⟨rows.map Row.normal, approvals⟩ (List.length_map _) last uses
    refine ⟨?_, ?_, ?_⟩
    · rw [List.map_append, List.map_singleton, readLines_snoc, read, Option.bind_some, line, List.map_append]
      rfl
    · rw [List.map_append]
      exact .consumed again (follows.normal numbered (List.length_map _) last)
        (by rw [Row.normal, numbered, List.length_map]; rfl)
        (by rw [Row.normal, kind]; rfl) (by rw [Row.normal, data]; rfl) fresh
    · rw [List.map_append, List.map_singleton, lastSha_snoc, lastSha_snoc]
      rfl

theorem newlines_self {text : Text} (single : '\r' ∉ text) : newlines false text = text := by
  induction text with
  | nil => rfl
  | cons c text ih =>
    rw [List.mem_cons, not_or] at single
    rw [newlines, if_neg (Ne.symm single.1), if_neg (by simp), ih single.2]

theorem printable_line (row : Row floats.Float) : ∀ c ∈ row.line, 32 ≤ c.toNat := printable_write row.value

theorem completeLines_unlines {lines : List Text} (printable : ∀ line ∈ lines, ∀ c ∈ line, 32 ≤ c.toNat) :
    completeLines (unlines lines) = some lines := by
  have back : '\r' ∉ unlines lines := by
    intro member
    obtain ⟨line, listed, inside⟩ := List.mem_flatMap.mp member
    rcases List.mem_append.mp inside with inside | inside
    · exact absurd (printable line listed _ inside) (by decide)
    · exact absurd (List.mem_singleton.mp inside) (by decide)
  have single : ∀ line ∈ lines, newline ∉ line := by
    intro line listed inside
    exact absurd (printable line listed _ inside) (by decide)
  simp [completeLines, newlines_self back, linesOf_unlines single]

theorem printable_lines (rows : List (Row floats.Float)) :
    ∀ line ∈ rows.map Row.line, ∀ c ∈ line, 32 ≤ c.toNat := by
  intro line listed
  obtain ⟨row, -, rfl⟩ := List.mem_map.mp listed
  exact printable_line row

/-- The ledger as a reader has it. -/
def Ledger.normal {F : Type} (ledger : Ledger F) : Ledger F :=
  ⟨ledger.file, ledger.rows.map Row.normal, ledger.approvals⟩

theorem good_of_written (written : Written floats digest rows approvals) : ∀ row ∈ rows, row.Good := by
  induction written with
  | start => simp
  | event before follows _ _ ih => exact List.forall_mem_append.mpr ⟨ih, by simpa using follows.good⟩
  | consumed before follows _ _ _ _ ih => exact List.forall_mem_append.mpr ⟨ih, by simpa using follows.good⟩

theorem Sound.again (sound : Sound floats digest ledger) : Sound floats digest ledger.normal := by
  have lines : ledger.normal.rows.map Row.line = ledger.rows.map Row.line := by
    rw [Ledger.normal, List.map_map]
    exact List.map_congr_left fun row member => line_normal (good_of_written sound.written row member)
  exact ⟨by rw [lines]; exact sound.file, (read_written sound.written).2.1⟩

theorem Sound.reopens (sound : Sound floats digest ledger) (small : ledger.file.length ≤ maxFile) :
    openLedger floats digest ledger.file = some ledger.normal := by
  have text := Data.Utf8.decodeStrict_eq_some.mpr sound.file
  rw [openLedger, if_neg (Nat.not_lt.mpr small)]
  simp only [text, completeLines_unlines (printable_lines _), (read_written sound.written).1,
    Option.bind_eq_bind, Option.bind_some]
  rfl

theorem append_eq {kind data : Value floats.Float} (appended : append floats digest ledger kind data = some next)
    (distinct : Distinct kind) (distinct' : Distinct data) :
    ∃ row : Row floats.Float, Follows floats digest ledger.rows row ∧
      row.sequence = .int (ledger.rows.length + 1 : Nat) ∧ row.kind = kind ∧
      row.data = data ∧ next = ⟨ledger.file ++ Data.Utf8.encode (row.line ++ [newline]),
        ledger.rows ++ [row], ledger.approvals⟩ := by
  simp only [append, canonical, Option.bind_eq_some_iff, Option.map_eq_some_iff,
    Option.ite_none_right_eq_some, Option.some.injEq] at appended
  obtain ⟨text, ⟨-, rfl⟩, line, ⟨writes, rfl⟩, rfl⟩ := appended
  refine ⟨_, ⟨?_, ?_, rfl, rfl⟩, rfl, rfl, rfl, rfl⟩
  · have parts := writes
    simp only [Row.value, Row.signed, List.cons_append, List.nil_append, writable, writableFields,
      Bool.and_true, Bool.true_and,
      Bool.and_eq_true] at parts
    exact Row.good_iff.mpr ⟨trivial, distinct, distinct', parts⟩
  · simp [isIndex]

theorem Sound.opened (sound : Sound floats digest ledger)
    (opened : openLedger floats digest ledger.file = some next) : next = ledger.normal := by
  have small : ledger.file.length ≤ maxFile := by
    by_contra large
    rw [openLedger, if_pos (Nat.not_le.mp large)] at opened
    cases opened
  rw [sound.reopens small, Option.some.injEq] at opened
  exact opened.symm

theorem Sound.step (sound : Sound floats digest ledger) (step : Step floats digest ledger next) :
    Sound floats digest next := by
  have grows : ∀ row : Row floats.Float, ledger.file ++ Data.Utf8.encode (row.line ++ [newline]) =
      Data.Utf8.encode (unlines ((ledger.rows ++ [row]).map Row.line)) := by
    intro row
    rw [sound.file, ← Data.Utf8.encode_append, List.map_append, unlines, unlines, List.flatMap_append]
    simp
  cases step with
  | event other distinct appended =>
    obtain ⟨row, follows, numbered, kind, -, rfl⟩ := append_eq appended trivial distinct
    refine ⟨grows row, .event sound.written follows numbered ?_⟩
    rw [kind]
    simpa [isText, textOf] using other
  | consume consumed =>
    simp only [consume, Option.ite_none_left_eq_some, Bool.not_eq_true, Option.map_eq_some_iff] at consumed
    obtain ⟨fresh, after, appended, rfl⟩ := consumed
    have names : [approvalIdName, bindingName].Nodup := by decide
    obtain ⟨row, follows, numbered, kind, data, rfl⟩ :=
      append_eq appended trivial ⟨names, trivial, trivial, trivial⟩
    exact ⟨grows row, .consumed sound.written follows numbered kind data fresh⟩
  | reopen opened =>
    rw [sound.opened opened]
    exact sound.again

theorem Reachable.sound (reachable : Reachable floats digest ledger) : Sound floats digest ledger := by
  induction reachable with
  | start => exact ⟨rfl, .start⟩
  | step before step ih => exact ih.step step

/-- How many rows use an approval up. -/
def uses {F : Type} (approvalId : Text) (rows : List (Row F)) : Nat :=
  rows.countP fun row => (approvalOf row).any (·.any (isText approvalId))

theorem uses_written (written : Written floats digest rows approvals) (approvalId : Text) :
    uses approvalId rows = approvals.countP (isText approvalId) ∧ uses approvalId rows ≤ 1 := by
  induction written with
  | start => exact ⟨rfl, Nat.zero_le 1⟩
  | @event rows approvals row before follows numbered other ih =>
    have gained : approvalOf row = some [] := if_neg (by rw [other]; decide)
    simpa [uses, gained] using ih
  | @consumed rows approvals row id _ before follows numbered kind data fresh ih =>
    have gained : approvalOf row = some [.text id] := by
      rw [approvalOf, kind, data]
      rfl
    obtain ⟨same, once⟩ := ih
    by_cases this : id = approvalId
    · subst this
      have none : approvals.countP (isText id) = 0 := by
        rw [List.countP_eq_zero]
        simpa using fresh
      have one : isText id (.text id : Value floats.Float) = true := by simp [isText, textOf]
      simp only [uses, List.countP_append, List.countP_singleton, gained, Option.any_some,
        List.any_cons, one, Bool.true_or, if_true] at same ⊢
      omega
    · have not : isText approvalId (.text id : Value floats.Float) = false := by simpa [isText, textOf] using this
      simp only [uses, List.countP_append, List.countP_singleton, gained, Option.any_some,
        List.any_cons, List.any_nil, not] at same once ⊢
      simpa [same] using once

theorem step_approvals (sound : Sound floats digest ledger)
    (step : Step floats digest ledger next) : ledger.approvals <+: next.approvals := by
  cases step with
  | event other distinct appended =>
    obtain ⟨row, -, -, -, -, rfl⟩ := append_eq appended trivial distinct
    exact List.prefix_refl _
  | consume consumed =>
    simp only [consume, Option.ite_none_left_eq_some, Option.map_eq_some_iff] at consumed
    obtain ⟨-, after, appended, rfl⟩ := consumed
    have names : [approvalIdName, bindingName].Nodup := by decide
    obtain ⟨row, -, -, -, -, rfl⟩ := append_eq appended trivial ⟨names, trivial, trivial, trivial⟩
    exact List.prefix_append _ _
  | reopen opened =>
    rw [sound.opened opened]
    exact List.prefix_refl _

/-- An approval that was consumed is consumed once and never again, whatever is appended and however
often the file is opened. -/
theorem approval_used_once (reachable : Reachable floats digest ledger) {approvalId bindingSha256 : Text}
    (consumed : consume floats digest ledger approvalId bindingSha256 = some next) {later : Ledger floats.Float}
    (run : Relation.ReflTransGen (Step floats digest) next later) :
    uses approvalId later.rows = 1 ∧ ∀ other, consume floats digest later approvalId other = none := by
  have start : Sound floats digest next := reachable.sound.step (.consume consumed)
  have held : next.approvals.any (isText approvalId) = true := by
    simp only [consume, Option.ite_none_left_eq_some, Option.map_eq_some_iff] at consumed
    obtain ⟨-, after, -, rfl⟩ := consumed
    simp [isText, textOf]
  have kept : Sound floats digest later ∧ later.approvals.any (isText approvalId) = true := by
    induction run with
    | refl => exact ⟨start, held⟩
    | tail _ step ih =>
      obtain ⟨sound, inside⟩ := ih
      obtain ⟨entry, member, isId⟩ := List.any_eq_true.mp inside
      exact ⟨sound.step step, List.any_eq_true.mpr ⟨entry, (step_approvals sound step).subset member, isId⟩⟩
  obtain ⟨sound, inside⟩ := kept
  obtain ⟨same, once⟩ := uses_written sound.written approvalId
  have some := List.countP_pos_iff.mpr (List.any_eq_true.mp inside)
  exact ⟨by omega, fun other => if_pos inside⟩

/-- Rows without floating point numbers. -/
def wholeNumbers : Floats where
  Float := Empty
  repr f := nomatch f
  read _ := none
  isWhole f := nomatch f
  numeral f := nomatch f
  fractional f := nomatch f
  read_repr f := nomatch f

def empty : Ledger wholeNumbers.Float := ⟨[], [], []⟩

def firstSha : Text := "914412823f38d81f03dcb43f28c36c344c1e136e654ba7f54c183f241b2c5b91".toList
def stopSha : Text := "19372e2d8146a684ca569e4841a56ca3d5b0392e2a50c39b5857a42be21c6140".toList
def secondSha : Text := "f6374e12cd290272db19691462c851d8dc7a9b0f106d915484571da62e3a6d92".toList
def forgedSha : Text := "195a65484fb11b50f577a2cb6c7b4d1e78451b8e9c789347817f1b3d2e5d031d".toList

/-- The text of a row without its hash. -/
def bodyText (data kind : String) (previous : Text) (sequence : String) : Text :=
  "\x7b\"data\":".toList ++ data.toList ++ ",\"kind\":\"".toList ++ kind.toList ++
    "\",\"previous_sha256\":\"".toList ++ previous ++ "\",\"sequence\":".toList ++
    sequence.toList ++ "\x7d".toList

/-- SHA-256 at four bodies. -/
def sha256 (text : Text) : Text :=
  if text = bodyText "\x7b\"approval_id\":\"a\",\"binding_sha256\":\"b\"\x7d" "approval_consumed"
    zeros "1" then firstSha
  else if text = bodyText "\x7b\x7d" "attempt_stopped" firstSha "2" then stopSha
  else if text = bodyText "\x7b\"approval_id\":\"c\",\"binding_sha256\":\"d\"\x7d"
    "approval_consumed" stopSha "3" then secondSha
  else if text = bodyText "\x7b\"n\":1\x7d" "attempt_stopped" firstSha "2" then forgedSha
  else zeros

def stopped : Text := "attempt_stopped".toList

def firstUse : Row wholeNumbers.Float :=
  ⟨.int 1, zeros, .text approvalConsumed, consumption ['a'] ['b'], firstSha⟩

def stop : Row wholeNumbers.Float := ⟨.int 2, firstSha, .text stopped, .object [], stopSha⟩

def secondUse : Row wholeNumbers.Float :=
  ⟨.int 3, stopSha, .text approvalConsumed, consumption ['c'] ['d'], secondSha⟩

/-- The ledger with one more row and what the row uses up. -/
def Ledger.add {floats : Floats} (ledger : Ledger floats.Float) (row : Row floats.Float)
    (uses : List (Value floats.Float)) : Ledger floats.Float :=
  ⟨ledger.file ++ Data.Utf8.encode (row.line ++ [newline]), ledger.rows ++ [row],
    ledger.approvals ++ uses⟩

/-- A kind and data that can be written are appended. -/
theorem append_of (row : Row floats.Float) (short : shortInt (ledger.rows.length + 1) = true)
    (sequence : row.sequence = .int (ledger.rows.length + 1))
    (previous : row.previousSha256 = lastSha ledger.rows) (kind : writable row.kind = true)
    (data : writable row.data = true) (hash : digest (write floats row.unsigned) = row.sha256) :
    append floats digest ledger row.kind row.data = some (ledger.add row []) := by
  obtain ⟨number, before, kind', data', sha⟩ := row
  subst sequence previous
  simp only at kind data
  simp only [Row.unsigned, Row.signed] at hash
  simp only [append, canonical, Row.unsigned, Row.value, Row.signed, List.cons_append,
    List.nil_append, writable, writableFields, short, kind, data, Bool.and_self, if_true,
    Option.bind_some, Option.map_some, Ledger.add, List.append_nil, hash]
  rfl

theorem consume_of {row : Row floats.Float} {approvalId bindingSha256 : Text}
    (fresh : ledger.approvals.any (isText approvalId) = false)
    (appended : append floats digest ledger (.text approvalConsumed)
      (consumption approvalId bindingSha256) = some (ledger.add row [])) :
    consume floats digest ledger approvalId bindingSha256 =
      some (ledger.add row [.text approvalId]) := by
  rw [consume, if_neg (by rw [fresh]; decide)]
  rw [consumption] at appended
  rw [appended, Option.map_some, Ledger.add, Ledger.add, List.append_nil]

def afterUse : Ledger wholeNumbers.Float := empty.add firstUse [.text ['a']]

def afterStop : Ledger wholeNumbers.Float := afterUse.add stop []

def bothUsed : Ledger wholeNumbers.Float := afterStop.add secondUse [.text ['c']]

theorem first_consumed : consume wholeNumbers sha256 empty ['a'] ['b'] = some afterUse :=
  consume_of rfl (append_of firstUse (by decide) rfl rfl rfl rfl (by decide +kernel))

theorem stop_appended : append wholeNumbers sha256 afterUse (.text stopped) (.object []) =
    some afterStop :=
  append_of stop (by decide) rfl rfl rfl rfl (by decide +kernel)

theorem then_stopped : Step wholeNumbers sha256 afterUse afterStop := by
  have distinct : Distinct (.object [] : Value wholeNumbers.Float) := ⟨by simp, trivial⟩
  exact .event (by decide) distinct stop_appended

theorem second_consumed : consume wholeNumbers sha256 afterStop ['c'] ['d'] = some bothUsed :=
  consume_of rfl (append_of secondUse (by decide) rfl rfl rfl rfl (by decide +kernel))

theorem then_consumed : Step wholeNumbers sha256 afterStop bothUsed := .consume second_consumed

theorem bothUsed_reachable : Reachable wholeNumbers sha256 bothUsed :=
  .step (.step (.step .start (.consume first_consumed)) then_stopped) then_consumed

theorem bothUsed_small : bothUsed.file.length ≤ maxFile := by
  have short : bothUsed.file.length ≤ 1000 := by decide +kernel
  exact Nat.le_trans short (by decide)

theorem then_reopened : Step wholeNumbers sha256 bothUsed bothUsed.normal :=
  .reopen (bothUsed_reachable.sound.reopens bothUsed_small)

/-- The first approval stays used up after an event, another approval and a reopening. -/
theorem approval_used_once_reopened : uses ['a'] bothUsed.normal.rows = 1 ∧
    ∀ other, consume wholeNumbers sha256 bothUsed.normal ['a'] other = none :=
  approval_used_once .start first_consumed
    (.tail (.tail (.single then_stopped) then_consumed) then_reopened)

end Files

end ProxyPilot.Gateway.FileLedger
