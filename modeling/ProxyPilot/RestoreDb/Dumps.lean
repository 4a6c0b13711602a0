import ProxyPilot.RestoreDb.Texts

namespace ProxyPilot.RestoreDb

/-! # Plain dumps

What `pg_dump` writes for the guard's table: one COPY block, its values escaped.
-/

structure Guard where
  schema : Bytes
  table : Bytes
  secretColumn : Bytes
  nonceColumn : Bytes
  legacyDefault : Option Bytes

/-- The letter after the backslash. -/
def escapeLetter (b : UInt8) : Option UInt8 :=
  if b = 8 then some 98 else if b = 9 then some 116 else if b = 10 then some 110 else if b = 11 then some 118
  else if b = 12 then some 102 else if b = 13 then some 114 else if b = 92 then some 92 else none

def escape (b : UInt8) : Bytes :=
  match escapeLetter b with
  | some letter => [backslash, letter]
  | none => [b]

def copyField : Option Bytes → Bytes
  | none => null
  | some value => value.flatMap escape

def quoteIdentifier (name : Bytes) : Bytes :=
  [34] ++ (name.flatMap fun b => if b = 34 then [34, 34] else [b]) ++ [34]

structure Column where
  name : Bytes
  /-- Whether its spelling needs quotes. -/
  quoted : Bool

def Column.written (column : Column) : Bytes := if column.quoted then quoteIdentifier column.name else column.name

structure Dump where
  before : Bytes
  /-- The block begins on a line of its own. -/
  ended : before = [] ∨ ∃ text, before = text ++ [newline]
  quotedSchema : Bool
  quotedTable : Bool
  columns : List Column
  rows : List (List (Option Bytes))
  widths : ∀ row ∈ rows, row.length = columns.length
  after : Bytes

def copyHeader (guard : Guard) (d : Dump) : Bytes :=
  ascii "COPY " ++ (if d.quotedSchema then quoteIdentifier guard.schema else guard.schema) ++ ascii "." ++
    (if d.quotedTable then quoteIdentifier guard.table else guard.table) ++ ascii " (" ++
    (ascii ", ").intercalate (d.columns.map Column.written) ++ ascii ") FROM stdin;"

def rowLine (row : List (Option Bytes)) : Bytes := [tab].intercalate (row.map copyField)

def blockLines (guard : Guard) (d : Dump) : List Bytes := copyHeader guard d :: (d.rows.map rowLine ++ [terminator])

def Dump.text (guard : Guard) (d : Dump) : Bytes := d.before ++ unlines (blockLines guard d) ++ d.after

def Dump.cell (d : Dump) (name : Bytes) (row : List (Option Bytes)) : Option Bytes :=
  (d.columns.findIdx? (·.name = name)).bind fun i => row[i]?.join

/-- The secret and the nonce of the row, where both are there and not empty. -/
def Dump.protectedRow (guard : Guard) (d : Dump) (row : List (Option Bytes)) : Option Row :=
  match d.cell guard.secretColumn row, d.cell guard.nonceColumn row with
  | some c, some n => if c ≠ [] ∧ n ≠ [] then some { ciphertext := c, nonce := n } else none
  | _, _ => none

/-- The value is written as it is. -/
def Plain (value : Bytes) : Prop := ∀ b ∈ value, escapeLetter b = none

/-- The check finds the block. -/
structure Found (guard : Guard) (d : Dump) : Prop where
  /-- The block is written on whole lines, under the name the check looks for. -/
  oneLine : newline ∉ copyHeader guard d
  named : (copyStart guard.schema guard.table).isPrefixOf (copyHeader guard d) = true
  /-- No line before it begins as its own first line does. -/
  first : ∀ line ∈ records d.before, (copyStart guard.schema guard.table).isPrefixOf line = false

/-- What must hold of the block for the check to see the `i`-th of its rows. -/
structure InView (guard : Guard) (d : Dump) (i : Nat) (row : Row) : Prop extends Found guard d where
  /-- The column list reads as it is, up to the two columns. -/
  columns : ∃ list, copyColumns (copyHeader guard d) = some list ∧
    (columnNames list).idxOf? guard.secretColumn = d.columns.findIdx? (·.name = guard.secretColumn) ∧
    (columnNames list).idxOf? guard.nonceColumn = d.columns.findIdx? (·.name = guard.nonceColumn)
  /-- The row ends before the limit of the extraction. -/
  within : (unlines (copyHeader guard d :: (d.rows.take (i + 1)).map rowLine)).length ≤ extractionLimit
  plain : Plain row.ciphertext ∧ Plain row.nonce

variable {lines : List Bytes} {row : List (Option Bytes)} {si ni : Nat}

theorem splitOn_unlines (whole : ∀ line ∈ lines, newline ∉ line) (rest : Bytes) :
    (unlines lines ++ rest).splitOn newline = lines ++ rest.splitOn newline := by
  induction lines with
  | nil => rfl
  | cons line more ih =>
    obtain ⟨first, others⟩ := List.forall_mem_cons.mp whole
    have split : unlines (line :: more) ++ rest = line ++ newline :: (unlines more ++ rest) := by
      simp [unlines, List.append_assoc]
    rw [split, List.splitOn_append_cons_self_of_not_mem first, ih others, List.cons_append]

theorem unlines_append (one other : List Bytes) :
    unlines (one ++ other) = unlines one ++ unlines other := List.flatMap_append

theorem records_ended (text : Bytes) : records (text ++ [newline]) = text.splitOn newline := by
  have pieces : (text ++ [newline]).splitOn newline = text.splitOn newline ++ [[]] := by
    rw [List.splitOn_append_cons_self, List.splitOn_nil]
  unfold records
  rw [pieces]
  dsimp only
  rw [List.getLast?_concat, if_pos rfl, List.dropLast_concat]

theorem records_append {pieces : List Bytes} {rest : Bytes} {text : Bytes}
    (split : text.splitOn newline = pieces ++ rest.splitOn newline) :
    ∃ tail, records text = pieces ++ tail := by
  unfold records
  rw [split]
  dsimp only
  split
  · exact ⟨_, List.dropLast_append_of_ne_nil (List.splitOn_ne_nil newline rest)⟩
  · exact ⟨_, rfl⟩

/-- The lines of a text that follows another one on a line of its own. -/
theorem splitOn_ended {before : Bytes} (ended : before = [] ∨ ∃ text, before = text ++ [newline]) (rest : Bytes) :
    (before ++ rest).splitOn newline = records before ++ rest.splitOn newline := by
  rcases ended with rfl | ⟨text, rfl⟩
  · rfl
  · rw [records_ended, List.append_assoc, List.singleton_append, List.splitOn_append_cons_self]

theorem upTo_append (last : α → Bool) {items : List α} {x : α}
    (none : ∀ item ∈ items, last item = false) (ends : last x = true) (rest : List α) :
    upTo last (items ++ x :: rest) = items ++ [x] := by
  induction items with
  | nil => rw [List.nil_append, upTo, if_pos ends, List.nil_append]
  | cons item more ih =>
    obtain ⟨first, others⟩ := List.forall_mem_cons.mp none
    rw [List.cons_append, upTo, if_neg (by rw [first]; exact Bool.false_ne_true), ih others, List.cons_append]

theorem escapeLetter_some {b letter : UInt8} (escaped : escapeLetter b = some letter) :
    letter ≠ 46 ∧ letter ≠ tab ∧ letter ≠ newline := by
  unfold escapeLetter at escaped
  repeat' split at escaped
  all_goals cases escaped
  all_goals decide

theorem escapeLetter_none {b : UInt8} (plain : escapeLetter b = none) : b ≠ backslash ∧ b ≠ tab ∧ b ≠ newline := by
  refine ⟨?_, ?_, ?_⟩
  all_goals
    rintro rfl
    cases plain

theorem not_mem_escape {b other : UInt8} (kept : other = tab ∨ other = newline) : other ∉ escape b := by
  unfold escape
  cases escaped : escapeLetter b with
  | some letter =>
    obtain ⟨_, tabs, lines⟩ := escapeLetter_some escaped
    intro member
    rcases List.mem_cons.mp member with same | inside
    · rcases kept with rfl | rfl <;> cases same
    · have same := List.mem_singleton.mp inside
      rcases kept with rfl | rfl
      · exact tabs same.symm
      · exact lines same.symm
  | none =>
    obtain ⟨_, tabs, lines⟩ := escapeLetter_none escaped
    intro member
    have same := List.mem_singleton.mp member
    rcases kept with rfl | rfl
    · exact tabs same.symm
    · exact lines same.symm

theorem not_mem_copyField {field : Option Bytes} {other : UInt8}
    (kept : other = tab ∨ other = newline) : other ∉ copyField field := by
  cases field with
  | none => rcases kept with rfl | rfl <;> decide
  | some value =>
    intro member
    obtain ⟨b, _, inside⟩ := List.mem_flatMap.mp member
    exact not_mem_escape kept inside

theorem copyField_ne_terminator (field : Option Bytes) : copyField field ≠ terminator := by
  cases field with
  | none => decide
  | some value =>
    intro same
    cases value with
    | nil => cases same
    | cons b rest =>
      have same : escape b ++ rest.flatMap escape = terminator := same
      unfold escape at same
      cases escaped : escapeLetter b with
      | some letter =>
        rw [escaped] at same
        have second : letter = 46 := (List.cons.inj (List.cons.inj same).2).1
        exact (escapeLetter_some escaped).1 second
      | none =>
        rw [escaped] at same
        exact (escapeLetter_none escaped).1 (List.cons.inj same).1

theorem plain_field {value : Bytes} (plain : Plain value) : copyField (some value) = value := by
  show value.flatMap escape = value
  induction value with
  | nil => rfl
  | cons b rest ih =>
    obtain ⟨first, others⟩ := List.forall_mem_cons.mp plain
    rw [List.flatMap_cons, ih others]
    unfold escape
    rw [first]
    rfl

theorem mem_intercalate {separator b : UInt8} (member : b ∈ [separator].intercalate lines) :
    b = separator ∨ ∃ line ∈ lines, b ∈ line := by
  induction lines with
  | nil => cases member
  | cons line more ih =>
    cases more with
    | nil =>
      rw [List.intercalate_singleton] at member
      exact .inr ⟨line, List.mem_cons_self, member⟩
    | cons next rest =>
      rw [List.intercalate_cons_cons] at member
      rcases List.mem_append.mp member with front | later
      · rcases List.mem_append.mp front with here | between
        · exact .inr ⟨line, List.mem_cons_self, here⟩
        · exact .inl (List.mem_singleton.mp between)
      · rcases ih later with same | ⟨found, inside, here⟩
        · exact .inl same
        · exact .inr ⟨found, List.mem_cons_of_mem _ inside, here⟩

theorem newline_not_mem_rowLine (row : List (Option Bytes)) : newline ∉ rowLine row := by
  intro member
  rcases mem_intercalate member with same | ⟨field, inside, here⟩
  · cases same
  · obtain ⟨cell, -, rfl⟩ := List.mem_map.mp inside
    exact not_mem_copyField (.inr rfl) here

theorem rowLine_ne_terminator (row : List (Option Bytes)) : rowLine row ≠ terminator := by
  intro same
  cases row with
  | nil => cases same
  | cons field rest =>
    cases rest with
    | nil =>
      unfold rowLine at same
      rw [List.map_singleton, List.intercalate_singleton] at same
      exact copyField_ne_terminator field same
    | cons next more =>
      have inside : tab ∈ rowLine (field :: next :: more) := by
        unfold rowLine
        rw [List.map_cons, List.map_cons, List.intercalate_cons_cons]
        exact List.mem_append_left _ (List.mem_append_right _ List.mem_cons_self)
      rw [same] at inside
      exact absurd inside (by decide)

theorem splitOn_rowLine (some : row ≠ []) : (rowLine row).splitOn tab = row.map copyField := by
  refine List.splitOn_intercalate tab (fun line member => ?_) fun empty => some (List.map_eq_nil_iff.mp empty)
  obtain ⟨cell, -, rfl⟩ := List.mem_map.mp member
  exact not_mem_copyField (.inl rfl)

theorem rowOf_line {c n : Bytes} (secret : row[si]? = some (some c)) (nonce : row[ni]? = some (some n))
    (filled : c ≠ [] ∧ n ≠ []) (plain : Plain c ∧ Plain n) :
    rowOf si ni (rowLine row) = some { ciphertext := c, nonce := n } := by
  have there : row ≠ [] := fun empty => by
    rw [empty] at secret
    cases secret
  have field {i : Nat} {value : Bytes} (cell : row[i]? = some (some value)) (plain : Plain value) :
      (row.map copyField)[i]? = some value := by
    rw [List.getElem?_map, cell, Option.map_some, plain_field plain]
  have usable {value : Bytes} (filled : value ≠ []) (plain : Plain value) : usable value = true := by
    have real : value ≠ null := fun same => (escapeLetter_none (plain backslash (same ▸ List.mem_cons_self))).1 rfl
    unfold RestoreDb.usable
    rw [bne_iff_ne.mpr filled, bne_iff_ne.mpr real]
    rfl
  unfold rowOf
  rw [splitOn_rowLine there, field secret plain.1, field nonce plain.2]
  dsimp only
  rw [usable filled.1 plain.1, usable filled.2 plain.2]
  rfl

theorem rowOf_empty (si ni : Nat) : rowOf si ni [] = none := by
  unfold rowOf
  rw [List.splitOn_nil]
  cases si with
  | zero => cases ni <;> rfl
  | succ si => rfl

theorem mem_copyRows {line : Bytes} {row : Row} (read : rowOf si ni line = some row) (rest : List Bytes) :
    ∀ lines, line ∈ lines → (∀ other ∈ lines, other ≠ terminator) → row ∈ copyRows si ni (lines ++ rest)
  | first :: more, member, whole => by
    obtain ⟨here, others⟩ := List.forall_mem_cons.mp whole
    rw [List.cons_append, copyRows, if_neg here]
    rcases List.mem_cons.mp member with rfl | later
    · have filled : line ≠ [] := fun empty => by
        rw [empty, rowOf_empty] at read
        cases read
      rw [if_neg filled, read]
      exact List.mem_append_left _ (List.mem_singleton.mpr rfl)
    · have inside := mem_copyRows read rest more later others
      split
      · exact inside
      · exact List.mem_append_right _ inside

section Blocks

variable {guard : Guard} {d : Dump} {i : Nat} {row : Row}

theorem blockLines_whole (oneLine : newline ∉ copyHeader guard d) :
    ∀ line ∈ blockLines guard d, newline ∉ line := by
  intro line member
  rcases List.mem_cons.mp member with rfl | inside
  · exact oneLine
  · rcases List.mem_append.mp inside with rows | last
    · obtain ⟨row, -, rfl⟩ := List.mem_map.mp rows
      exact newline_not_mem_rowLine row
    · rw [List.mem_singleton.mp last]
      decide

theorem header_ne_terminator : copyHeader guard d ≠ terminator := by
  intro same
  have first := congrArg List.head? same
  simp [copyHeader, ascii, terminator, backslash] at first

/-- The extraction begins with the block, whole up to its limit. -/
theorem extractBlock_text (view : Found guard d) :
    extractBlock guard.schema guard.table (d.text guard) = (unlines (blockLines guard d)).take extractionLimit := by
  have split : (d.text guard).splitOn newline = (records d.before ++ blockLines guard d) ++
      d.after.splitOn newline := by
    unfold Dump.text
    rw [List.append_assoc, splitOn_ended d.ended, splitOn_unlines (blockLines_whole view.oneLine),
      List.append_assoc]
  obtain ⟨tail, lines⟩ := records_append split
  unfold extractBlock awkBlock
  rw [lines, List.append_assoc, List.dropWhile_append_of_pos fun line member => by rw [view.first line member]; rfl]
  unfold blockLines
  rw [List.cons_append, List.dropWhile_cons_of_neg (by rw [view.named]; exact Bool.false_ne_true),
    ← List.cons_append,
    ← List.cons_append, List.append_assoc, List.singleton_append,
    upTo_append (· == terminator) (fun line member => ?_) BEq.rfl]
  refine beq_eq_false_iff_ne.mpr ?_
  rcases List.mem_cons.mp member with rfl | inside
  · exact header_ne_terminator
  · obtain ⟨row, -, rfl⟩ := List.mem_map.mp inside
    exact rowLine_ne_terminator row

theorem blockLines_take (guard : Guard) (d : Dump) (i : Nat) : ∃ rest,
    blockLines guard d = (copyHeader guard d :: (d.rows.take (i + 1)).map rowLine) ++ rest :=
  ⟨(d.rows.drop (i + 1)).map rowLine ++ [terminator], by
    rw [List.cons_append, ← List.append_assoc, ← List.map_append, List.take_append_drop]
    rfl⟩

/-- The check reads every row in view as it stands in the table. -/
theorem row_seen {cells : List (Option Bytes)} (there : d.rows[i]? = some cells)
    (is : d.protectedRow guard cells = some row) (view : InView guard d i row) :
    (parseCopyRows (extractBlock guard.schema guard.table (d.text guard)) guard.secretColumn
      guard.nonceColumn).found = true ∧
      row ∈ (parseCopyRows (extractBlock guard.schema guard.table (d.text guard)) guard.secretColumn
        guard.nonceColumn).rows := by
  obtain ⟨rest, block⟩ := blockLines_take guard d i
  have extracted : ∃ more, extractBlock guard.schema guard.table (d.text guard) =
      unlines (copyHeader guard d :: (d.rows.take (i + 1)).map rowLine) ++ more := by
    rw [extractBlock_text view.toFound, block, unlines_append, List.take_append, List.take_of_length_le view.within]
    exact ⟨_, rfl⟩
  obtain ⟨more, extracted⟩ := extracted
  have whole : ∀ line ∈ copyHeader guard d :: (d.rows.take (i + 1)).map rowLine, newline ∉ line :=
    fun line member =>
    blockLines_whole view.oneLine line (block ▸ List.mem_append_left _ member)
  have copies : (ascii "COPY ").isPrefixOf (copyHeader guard d) = true := by
    rw [List.isPrefixOf_iff_prefix]
    unfold copyHeader
    simp only [List.append_assoc]
    exact List.prefix_append _ _
  obtain ⟨list, columns, secretIndex, nonceIndex⟩ := view.columns
  have cell {name : Bytes} {value : Bytes} (cell : d.cell name cells = some value) :
      ∃ index, d.columns.findIdx? (·.name = name) = some index ∧ cells[index]? = some (some value) := by
    obtain ⟨index, found, joined⟩ := Option.bind_eq_some_iff.mp cell
    exact ⟨index, found, Option.join_eq_some_iff.mp joined⟩
  unfold Dump.protectedRow at is
  split at is
  case h_2 => cases is
  case h_1 c n secretCell nonceCell =>
    split at is
    case isFalse => cases is
    case isTrue filled =>
      cases is
      obtain ⟨si, secretFound, secretRead⟩ := cell secretCell
      obtain ⟨ni, nonceFound, nonceRead⟩ := cell nonceCell
      have read := rowOf_line secretRead nonceRead filled view.plain
      have inside : rowLine cells ∈ (d.rows.take (i + 1)).map rowLine :=
        List.mem_map.mpr ⟨cells,
          List.mem_of_getElem? (by rw [List.getElem?_take_of_lt (Nat.lt_succ_self i), there]), rfl⟩
      have none : ∀ line ∈ (d.rows.take (i + 1)).map rowLine, line ≠ terminator := by
        intro line member
        obtain ⟨row, -, rfl⟩ := List.mem_map.mp member
        exact rowLine_ne_terminator row
      unfold parseCopyRows
      rw [extracted, splitOn_unlines whole, List.cons_append,
        List.dropWhile_cons_of_neg (by rw [copies]; exact Bool.false_ne_true)]
      dsimp only
      rw [columns]
      dsimp only
      rw [secretIndex, secretFound, nonceIndex, nonceFound]
      exact ⟨rfl, mem_copyRows read _ _ inside none⟩

end Blocks

end ProxyPilot.RestoreDb
