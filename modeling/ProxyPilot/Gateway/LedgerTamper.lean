import Mathlib.Data.List.Induction
import ProxyPilot.Data.Chain
import ProxyPilot.Gateway.LedgerReopen

namespace ProxyPilot.Gateway.FileLedger

open Data (linesOf unlines newline linesOf_unlines ChainOf)
open Data.Canonical

/-! # Files that are not the ledger's

A file that opens is a chain of hashes.  It has the ledger's rows up to some place and none of the
ledger's hashes from there on.
-/

variable {floats : Floats} {digest : Text → Text} {ledger other : Ledger floats.Float}

variable {file : List UInt8} {c : Char} {row row' : Row floats.Float}

theorem opened_lines (opened : openLedger floats digest file = some other) :
    ∃ text lines, file = Data.Utf8.encode text ∧ completeLines text = some lines ∧
      readLines floats digest lines = some ⟨other.rows, other.approvals⟩ := by
  simp only [openLedger, Option.ite_none_left_eq_some, Option.bind_eq_bind, Option.bind_eq_some_iff,
    Option.some.injEq] at opened
  obtain ⟨-, text, decoded, lines, whole, found, read, rfl⟩ := opened
  exact ⟨text, lines, Data.Utf8.decodeStrict_eq_some.mp decoded, whole, read⟩

/-- Each line is a row that may follow the rows in front. -/
inductive Accepted (floats : Floats) (digest : Text → Text) : List Text → List (Row floats.Float) → Prop
  | start : Accepted floats digest [] []
  | line {lines rows text row} (before : Accepted floats digest lines rows)
      (checked : checkRow floats digest rows (text ++ [newline]) = some row) :
        Accepted floats digest (lines ++ [text]) (rows ++ [row])

variable {lines : List Text} {rows : List (Row floats.Float)}
  {approvals : List (Value floats.Float)}

theorem accepted_of_readLines {opened : Opened floats.Float} (read : readLines floats digest lines = some opened) :
    Accepted floats digest lines opened.rows := by
  induction lines using List.reverseRecOn generalizing opened with
  | nil =>
    cases read
    exact .start
  | append_singleton lines line ih =>
    simp only [readLines_snoc, Option.bind_eq_some_iff, readLine, Option.bind_eq_bind, Option.some.injEq] at read
    obtain ⟨front, before, row, checked, gained, -, rfl⟩ := read
    exact .line (ih before) checked

theorem Accepted.length (accepted : Accepted floats digest lines rows) :
    rows.length = lines.length := by
  induction accepted with
  | start => rfl
  | line before checked ih => rw [List.length_append, List.length_append, ih]; rfl

theorem linked_snoc {row : Row floats.Float} (linked : (chain floats digest).Linked zeros rows)
    (follows : Follows floats digest rows row) : (chain floats digest).Linked zeros (rows ++ [row]) :=
  ChainOf.linked_append.mpr ⟨linked, follows.good, follows.previous, follows.hash, trivial⟩

theorem Accepted.linked (accepted : Accepted floats digest lines rows) :
    (chain floats digest).Linked zeros rows := by
  induction accepted with
  | start => trivial
  | line before checked ih =>
    obtain ⟨-, -, -, follows⟩ := checkRow_iff.mp checked
    exact linked_snoc ih follows

theorem Written.linked (written : Written floats digest rows approvals) :
    (chain floats digest).Linked zeros rows := by
  induction written with
  | start => trivial
  | event _ follows _ _ ih => exact linked_snoc ih follows
  | consumed _ follows _ _ _ _ ih => exact linked_snoc ih follows

theorem newlines_snoc (feed : c ≠ '\n') (back : c ≠ '\r') (after : Bool) (text : Text) :
    ∃ front, newlines after (text ++ [c]) = front ++ [c] := by
  induction text generalizing after with
  | nil => exact ⟨[], by simp [newlines, feed, back]⟩
  | cons d text ih =>
    rw [List.cons_append, newlines]
    split
    · obtain ⟨front, same⟩ := ih true
      exact ⟨'\n' :: front, by rw [same]; rfl⟩
    · obtain ⟨front, same⟩ := ih false
      split
      · exact ⟨front, same⟩
      · exact ⟨d :: front, by rw [same]; rfl⟩

theorem linesOf_snoc (feed : c ≠ newline) (text : Text) :
    ∃ front last, linesOf (text ++ [c]) = front ++ [last ++ [c]] := by
  induction text with
  | nil => exact ⟨[], [], by simp [linesOf, feed]⟩
  | cons d text ih =>
    obtain ⟨front, last, same⟩ := ih
    rw [List.cons_append, linesOf, same]
    split
    · exact ⟨[] :: front, last, rfl⟩
    · cases front with
      | nil => exact ⟨[], d :: last, rfl⟩
      | cons line front => exact ⟨(d :: line) :: front, last, rfl⟩

/-- A file that does not end in the end of a line is refused. -/
theorem incomplete_refused {last : UInt8} (ends : file.getLast? = some last) (feed : last ≠ 10) (back : last ≠ 13) :
    openLedger floats digest file = none := by
  rw [Option.eq_none_iff_forall_ne_some]
  intro other opened
  obtain ⟨text, lines, rfl, whole, -⟩ := opened_lines opened
  obtain rfl | ⟨text, c, rfl⟩ := text.eq_nil_or_concat'
  · cases ends
  · have marks : ∀ mark : Char, mark.toNat < 0x80 → c = mark → last = .ofNat mark.toNat := by
      rintro mark ascii rfl
      rw [Data.Utf8.encode_append, show Data.Utf8.encode [c] =
        [.ofNat c.toNat] by simp [Data.Utf8.encode, Data.Utf8.encodeChar_ascii ascii],
        List.getLast?_concat, Option.some.injEq] at ends
      exact ends.symm
    have notFeed : c ≠ '\n' := fun same => feed (marks _ (by decide) same)
    have notBack : c ≠ '\r' := fun same => back (marks _ (by decide) same)
    obtain ⟨front, same⟩ := newlines_snoc notFeed notBack false text
    obtain ⟨front', line, split⟩ := linesOf_snoc notFeed front
    simp [completeLines, same, split] at whole

theorem isIndex_int {n : Nat} {k : Int} (at_place : isIndex floats n (.int k) = true) : k = n :=
  by simpa [isIndex] using at_place

def Numbered (rows : List (Row floats.Float)) : Prop :=
  ChainOf.Placed (fun i row => row.sequence = .int (i + 1 : Nat)) rows

theorem Written.numbered (written : Written floats digest rows approvals) :
    Numbered rows := by
  induction written with
  | start =>
    intro i row found
    cases found
  | event _ _ numbered _ ih => exact ChainOf.placed_snoc ih numbered
  | consumed _ _ numbered _ _ _ ih => exact ChainOf.placed_snoc ih numbered

theorem Accepted.placed
    (accepted : Accepted floats digest lines rows) :
    ChainOf.Placed (fun i row => isIndex floats (i + 1) row.sequence = true) rows := by
  induction accepted with
  | start =>
    intro i row found
    cases found
  | line before checked ih =>
    obtain ⟨-, -, -, follows⟩ := checkRow_iff.mp checked
    exact ChainOf.placed_snoc ih follows.place

/-- The lines of the ledger in another selection or order are accepted only as a front of them. -/
theorem own_lines (written : Written floats digest rows approvals)
    {read : List (Row floats.Float)} (accepted : Accepted floats digest lines read)
    (own : ∀ line ∈ lines, line ∈ rows.map Row.line) : lines <+: rows.map Row.line := by
  induction accepted with
  | start => exact List.nil_prefix
  | @line lines read text row before checked ih =>
    obtain ⟨front, isLast⟩ := List.forall_mem_append.mp own
    obtain ⟨mine, listed, rfl⟩ := List.mem_map.mp (isLast text List.mem_cons_self)
    obtain ⟨i, found⟩ := List.mem_iff_getElem?.mp listed
    -- the line is read as the row it was written for, and its number is its place
    obtain ⟨fields, parsed, spells, follows⟩ := checkRow_iff.mp checked
    have good := good_of_written written mine listed
    have blank : ∀ c ∈ [newline], Data.Json.space c = true := by simp [Data.Json.space, newline]
    rw [Row.line, strictJson_write good.distinct good.writable blank, normal_value,
      Option.some.injEq, Value.object.injEq] at parsed
    have spellsOwn : Spells mine.normal fields := parsed ▸ (List.reverse_perm mine.normal.signed).append_right _
    have same : row = mine.normal := Option.some.inj (spells.exactRow.symm.trans spellsOwn.exactRow)
    have numbered := written.numbered i mine found
    have place := follows.place
    rw [same, show mine.normal.sequence = mine.sequence by rw [Row.normal, numbered]; rfl, numbered] at place
    have here : i = lines.length := by
      have := isIndex_int place
      have := before.length
      omega
    subst here
    rw [List.prefix_iff_eq_take] at ih ⊢
    have next : (rows.map Row.line)[lines.length]? = some mine.line := by rw [List.getElem?_map, found]; rfl
    rw [List.length_append, List.length_singleton, List.take_add_one, next, ← ih front]
    rfl

theorem normal_of_hash (good : row.Good) (good' : row'.Good)
    (hash : row.sha256 = digest (write floats row.unsigned))
    (hash' : row'.sha256 = digest (write floats row'.unsigned))
    (same : write floats row.unsigned = write floats row'.unsigned) : row.normal = row'.normal := by
  have parts := normal_of_body good good' same
  have hashes : row.sha256 = row'.sha256 := by rw [hash, hash', same]
  simp only [Row.ordered, Row.normal, List.cons.injEq, Prod.mk.injEq, Value.text.injEq, true_and, and_true] at parts
  simp only [Row.normal, Row.mk.injEq]
  exact ⟨parts.2.2.2, parts.2.2.1, parts.2.1, parts.1, hashes⟩

/-- A row that says its number has the body of no row accepted at another place. -/
theorem place_of_body (good : row.Good) (good' : row'.Good)
    (same : write floats row.unsigned = write floats row'.unsigned) {i j : Nat}
    (numbered : row.sequence = .int (i + 1 : Nat))
    (placed : isIndex floats (j + 1) row'.sequence = true) : i = j := by
  have parts := normal_of_body good good' same
  simp only [Row.ordered, Row.normal, List.cons.injEq, Prod.mk.injEq, true_and, and_true] at parts
  obtain ⟨-, -, -, sequences⟩ := parts
  rw [numbered] at sequences
  cases found : row'.sequence with
  | int k =>
    rw [found] at placed sequences
    have number : (i + 1 : Nat) = k := Value.int.inj sequences
    have := isIndex_int placed
    omega
  | _ =>
    rw [found] at sequences
    cases sequences

/-- What the ledger's file is safe against, and what it is not: any change that stands is a change
of every hash from there on. -/
theorem ledger_file_binds (reachable : Reachable floats digest ledger) :
    (ledger.file.length ≤ maxFile →
      ∃ again, openLedger floats digest ledger.file = some again ∧ again.file = ledger.file ∧
        again.rows = ledger.rows.map Row.normal ∧ lastSha again.rows = lastSha ledger.rows ∧
        again.approvals = ledger.approvals) ∧
      (∀ file last, file.getLast? = some last → last ≠ 10 → last ≠ 13 →
        openLedger floats digest file = none) ∧
      (∀ lines other, (∀ line ∈ lines, line ∈ ledger.rows.map Row.line) →
        openLedger floats digest (Data.Utf8.encode (unlines lines)) = some other →
        lines <+: ledger.rows.map Row.line) ∧
      ∀ file other, openLedger floats digest file = some other →
        (chain floats digest).NoCollision
          (ledger.rows.map (chain floats digest).body ++ other.rows.map (chain floats digest).body) →
        ∃ k, k ≤ ledger.rows.length ∧ k ≤ other.rows.length ∧
          (∀ j < k, (ledger.rows[j]?).map Row.normal = (other.rows[j]?).map Row.normal) ∧
          ∀ j ≥ k, ∀ row', other.rows[j]? = some row' →
            ∀ row ∈ ledger.rows, row.sha256 ≠ row'.sha256 := by
  have sound := reachable.sound
  refine ⟨fun small => ?_, fun file last ends feed back => incomplete_refused ends feed back,
    fun lines other own opened => ?_, fun file other opened free => ?_⟩
  · exact ⟨_, sound.reopens small, rfl, rfl, (read_written sound.written).2.2, rfl⟩
  · obtain ⟨text, found, encoded, whole, read⟩ := opened_lines opened
    have text_eq := Data.Utf8.encode_injective encoded
    rw [← text_eq, completeLines_unlines fun line listed => printable_lines _ line (own line listed),
      Option.some.injEq] at whole
    exact own_lines sound.written (whole ▸ accepted_of_readLines read) own
  · obtain ⟨text, lines, -, -, read⟩ := opened_lines opened
    have accepted := accepted_of_readLines read
    have linked := sound.written.linked
    have linked' := accepted.linked
    obtain ⟨k, le, le', agree, apart⟩ := ChainOf.agree_then_apart linked linked' free
      sound.written.numbered accepted.placed
      fun i j row row' good good' same => place_of_body good good' same
    refine ⟨k, le, le', fun j less => ?_, apart⟩
    have found : ledger.rows[j]? = some ledger.rows[j] := List.getElem?_eq_getElem (by omega)
    have found' : other.rows[j]? = some other.rows[j] :=
      List.getElem?_eq_getElem (Nat.lt_of_lt_of_le less le')
    have same := agree j less
    rw [found, found', Option.map_some, Option.map_some, Option.some.injEq] at same
    rw [found, found', Option.map_some, Option.map_some,
      normal_of_hash (ChainOf.linked_good linked found) (ChainOf.linked_good linked' found')
        (ChainOf.linked_hash linked found) (ChainOf.linked_hash linked' found') same]

/-- Another second row, with its own hash computed. -/
def forged : Row wholeNumbers.Float :=
  ⟨.int 2, firstSha, .text stopped, .object [("n".toList, .int 1)], forgedSha⟩

def afterForged : Ledger wholeNumbers.Float := afterUse.add forged []

theorem forged_reachable : Reachable wholeNumbers sha256 afterForged := by
  have distinct : Distinct forged.data := ⟨by simp, trivial, trivial⟩
  have appended : append wholeNumbers sha256 afterUse (.text stopped) forged.data = some afterForged :=
    append_of forged (by decide) rfl rfl rfl rfl (by decide +kernel)
  exact .step (.step .start (.consume first_consumed)) (.event (by decide) distinct appended)

theorem forged_opens : openLedger wholeNumbers sha256 afterForged.file = some afterForged.normal := by
  have short : afterForged.file.length ≤ 1000 := by decide +kernel
  exact forged_reachable.sound.reopens (Nat.le_trans short (by decide))

theorem forged_free (rows : List (Row wholeNumbers.Float)) (ours : rows ⊆ [firstUse, stop, secondUse]) :
    (chain wholeNumbers sha256).NoCollision
      (rows.map (chain wholeNumbers sha256).body ++
        afterForged.normal.rows.map (chain wholeNumbers sha256).body) := by
  have apart : ∀ a ∈ [firstUse, stop, secondUse, forged], ∀ b ∈ [firstUse, stop, secondUse, forged],
      sha256 (write wholeNumbers a.unsigned) = sha256 (write wholeNumbers b.unsigned) →
      write wholeNumbers a.unsigned = write wholeNumbers b.unsigned := by decide +kernel
  have bodies : ∀ text ∈ rows.map (chain wholeNumbers sha256).body ++
      afterForged.normal.rows.map (chain wholeNumbers sha256).body,
      ∃ row ∈ [firstUse, stop, secondUse, forged], write wholeNumbers row.unsigned = text := by
    intro text member
    rcases List.mem_append.mp member with member | member
    · obtain ⟨row, listed, rfl⟩ := List.mem_map.mp member
      exact ⟨row, List.mem_append_left [forged] (ours listed), rfl⟩
    · rw [Ledger.normal, List.map_map] at member
      obtain ⟨row, listed, rfl⟩ := List.mem_map.mp member
      have good := good_of_written forged_reachable.sound.written row listed
      have inside : row ∈ [firstUse, forged] := listed
      have front : [firstUse, forged] ⊆ [firstUse, stop, secondUse, forged] :=
        List.cons_subset_cons _ (List.subset_append_right [stop, secondUse] [forged])
      exact ⟨row, front inside, (write_unsigned_normal good).symm⟩
  intro text member text' member' same
  obtain ⟨row, listed, rfl⟩ := bodies text member
  obtain ⟨row', listed', rfl⟩ := bodies text' member'
  exact apart row listed row' listed' same

/-- The second row replaced by another one with a hash of its own: the file opens. -/
theorem replaced_row_opens :
    ¬∀ ledger, Reachable wholeNumbers sha256 ledger → ∀ lines other,
      openLedger wholeNumbers sha256 (Data.Utf8.encode (unlines lines)) = some other →
      (chain wholeNumbers sha256).NoCollision
        (ledger.rows.map (chain wholeNumbers sha256).body ++ other.rows.map (chain wholeNumbers sha256).body) →
      lines <+: ledger.rows.map Row.line := by
  intro binds
  have file : afterForged.file = Data.Utf8.encode (unlines [firstUse.line, forged.line]) := by
    rw [forged_reachable.sound.file]
    rfl
  have reachable : Reachable wholeNumbers sha256 afterStop :=
    .step (.step .start (.consume first_consumed)) then_stopped
  have front :=
    binds _ reachable _ _ (file ▸ forged_opens) (forged_free _ (by simp [afterStop, afterUse, Ledger.add, empty]))
  have lines : forged.line ≠ stop.line := by decide +kernel
  exact lines (List.cons_prefix_cons.mp (List.cons_prefix_cons.mp front).2).1

theorem ledger_file_binds_forged :
    (∃ again, openLedger wholeNumbers sha256 bothUsed.file = some again ∧
        again.rows = bothUsed.rows.map Row.normal ∧ again.approvals = [.text ['a'], .text ['c']]) ∧
      openLedger wholeNumbers sha256 bothUsed.file.dropLast = none ∧
      openLedger wholeNumbers sha256 (Data.Utf8.encode (unlines [firstUse.line, secondUse.line])) = none ∧
      ∃ k ≤ 2, (∀ j < k, (bothUsed.rows[j]?).map Row.normal = (afterForged.normal.rows[j]?).map Row.normal) ∧
        ∀ j ≥ k, ∀ row', afterForged.normal.rows[j]? = some row' →
          ∀ row ∈ bothUsed.rows, row.sha256 ≠ row'.sha256 := by
  obtain ⟨reopened, incomplete, own, any⟩ := ledger_file_binds bothUsed_reachable
  refine ⟨?_, ?_, ?_, ?_⟩
  · obtain ⟨again, opened, -, rows, -, approvals⟩ := reopened bothUsed_small
    exact ⟨again, opened, rows, approvals⟩
  · have ends : bothUsed.file.dropLast.getLast? = some 125 := by decide +kernel
    exact incomplete _ _ ends (by decide) (by decide)
  · rw [Option.eq_none_iff_forall_ne_some]
    intro other opened
    have front := own _ other (by simp [bothUsed, afterStop, afterUse, Ledger.add, empty]) opened
    have lines : secondUse.line ≠ stop.line := by decide +kernel
    exact lines (List.cons_prefix_cons.mp (List.cons_prefix_cons.mp front).2).1
  · obtain ⟨k, -, le, agree, apart⟩ :=
      any _ _ forged_opens (forged_free _ (by simp [bothUsed, afterStop, afterUse, Ledger.add, empty]))
    exact ⟨k, le, agree, apart⟩

end ProxyPilot.Gateway.FileLedger
