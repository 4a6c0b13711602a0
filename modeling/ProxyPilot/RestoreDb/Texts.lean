import ProxyPilot.Data.Base64

namespace ProxyPilot.RestoreDb

/-! # What the restore reads from a dump and an environment file (`restore-logic.js`)

A text is a list of bytes; the code splits it at ASCII characters only, so decoding it
first makes no difference to what the pieces are.
-/

abbrev Bytes := List UInt8

def ascii (word : String) : Bytes := word.toList.map fun c => UInt8.ofNat c.toNat

def newline : UInt8 := 10

def tab : UInt8 := 9

def backslash : UInt8 := 92

def isSpace (b : UInt8) : Bool := (9 ≤ b && b ≤ 13) || b == 32

def isDigit (b : UInt8) : Bool := 48 ≤ b && b ≤ 57

def trimStart (text : Bytes) : Bytes := text.dropWhile isSpace

def trim (text : Bytes) : Bytes := ((trimStart text).reverse.dropWhile isSpace).reverse

/-- What follows a text that begins with `front`. -/
def following (front text : Bytes) : Option Bytes :=
  if front.isPrefixOf text then some (text.drop front.length) else none

def unlines (lines : List Bytes) : Bytes := lines.flatMap (· ++ [newline])

/-- The lines a tool reads: what follows the last newline is one where it is not empty. -/
def records (text : Bytes) : List Bytes :=
  let pieces := text.splitOn newline
  if pieces.getLast? = some [] then pieces.dropLast else pieces

def upTo (last : α → Bool) : List α → List α
  | [] => []
  | x :: rest => if last x then [x] else x :: upTo last rest

/-- `\.` -/
def terminator : Bytes := [backslash, 46]

/-- `\N` -/
def null : Bytes := [backslash, 78]

def copyStart (schema table : Bytes) : Bytes := ascii "COPY " ++ schema ++ ascii "." ++ table ++ ascii " ("

/-- `awk 'BEGIN{p=0} /^COPY …/{p=1} p{print} p&&/^\\\.$/{exit}'` -/
def awkBlock (start : Bytes) (file : Bytes) : Bytes :=
  unlines (upTo (· == terminator) ((records file).dropWhile fun line => !start.isPrefixOf line))

def extractionLimit : Nat := 4194304

/-- The block, as far as `head -c` lets it through. -/
def extractBlock (schema table file : Bytes) : Bytes :=
  (awkBlock (copyStart schema table) file).take extractionLimit

/-- `s/^\(export \)\{0,1\}KEY=//p`. -/
def keyLine (key line : Bytes) : Option Bytes :=
  match following (ascii "export ") line with
  | some rest => (following (key ++ ascii "=") rest) <|> following (key ++ ascii "=") line
  | none => following (key ++ ascii "=") line

def isQuote (b : UInt8) : Bool := b == 34 || b == 39

/-- `s/^["']//; s/["']$//`. -/
def unquote (text : Bytes) : Bytes :=
  let opened := match text with
    | b :: rest => if isQuote b then rest else text
    | [] => []
  match opened.getLast? with
  | some b => if isQuote b then opened.dropLast else opened
  | none => opened

/-- The key of the first line that assigns it. -/
def keyOf (file key : Bytes) : Option Bytes := ((records file).findSome? (keyLine key)).map unquote

def nameStart (b : UInt8) : Bool := (65 ≤ b && b ≤ 90) || (97 ≤ b && b ≤ 122) || b == 95

def nameByte (b : UInt8) : Bool := nameStart b || isDigit b

/-- `NAME\s*=(.*)$`. -/
def assignment (line : Bytes) : Option (Bytes × Bytes) :=
  match line with
  | [] => none
  | b :: rest =>
    if nameStart b then
      match trimStart (rest.dropWhile nameByte) with
      | 61 :: value => if value.contains 13 then none else some (b :: rest.takeWhile nameByte, value)
      | _ => none
    else none

def exported (line : Bytes) : Option Bytes :=
  match following (ascii "export") line with
  | some (b :: rest) => if isSpace b then some (trimStart rest) else none
  | _ => none

def environmentLine (line : Bytes) : Option (Bytes × Bytes) :=
  let text := trimStart line
  ((exported text).bind assignment) <|> assignment text

def pairedQuotes (value : Bytes) : Bool :=
  decide (2 ≤ value.length) && ((value.head? == some 34 && value.getLast? == some 34) ||
    (value.head? == some 39 && value.getLast? == some 39))

def environmentValue (value : Bytes) : Bytes :=
  let value := trim value
  if pairedQuotes value then value.tail.dropLast else value

/-- `parseEnvironmentFile`: a later assignment replaces an earlier one. -/
def environmentKey (file key : Bytes) : Option Bytes :=
  ((file.splitOn newline).filterMap environmentLine).reverse.findSome? fun (name, value) =>
    if name = key then some (environmentValue value) else none

/-- The column list of `COPY name (columns) FROM stdin;`. -/
def copyColumns (line : Bytes) : Option Bytes := do
  let rest ← following (ascii "COPY") line
  let named := trimStart rest
  let listed := trimStart (named.dropWhile fun b => !isSpace b)
  let columns ← following (ascii "(") listed
  let closed ← following (ascii ")") (columns.dropWhile (· != 41))
  let ending := trimStart closed
  if rest.length ≠ named.length ∧ (named.takeWhile fun b => !isSpace b) ≠ [] ∧
    listed.length < (named.dropWhile fun b => !isSpace b).length ∧
      ending.length < closed.length ∧ (ascii "FROM stdin;").isPrefixOf ending then
    some (columns.takeWhile (· != 41))
  else none

/-- `replace(/^"|"$/g, '')`. -/
def stripQuotes (name : Bytes) : Bytes :=
  let opened := match name with
    | 34 :: rest => rest
    | _ => name
  if opened.getLast? = some 34 then opened.dropLast else opened

def columnNames (list : Bytes) : List Bytes := (list.splitOn 44).map fun name => stripQuotes (trim name)

structure Row where
  ciphertext : Bytes
  nonce : Bytes
deriving DecidableEq

def usable (value : Bytes) : Bool := value != [] && value != null

def rowOf (si ni : Nat) (line : Bytes) : Option Row :=
  match (line.splitOn tab)[si]?, (line.splitOn tab)[ni]? with
  | some c, some n => if usable c && usable n then some { ciphertext := c, nonce := n } else none
  | _, _ => none

def copyRows (si ni : Nat) : List Bytes → List Row
  | [] => []
  | line :: rest =>
    if line = terminator then []
    else if line = [] then copyRows si ni rest
    else (rowOf si ni line).toList ++ copyRows si ni rest

structure Parsed where
  rows : List Row
  found : Bool
  reason : String

def parseCopyRows (block secretColumn nonceColumn : Bytes) : Parsed :=
  match (block.splitOn newline).dropWhile fun line => !(ascii "COPY ").isPrefixOf line with
  | [] => { rows := [], found := false, reason := "no COPY block" }
  | head :: lines =>
    match copyColumns head with
    | none => { rows := [], found := false, reason := "COPY line without a column list" }
    | some list =>
      let names := columnNames list
      match names.idxOf? secretColumn, names.idxOf? nonceColumn with
      | some si, some ni =>
        let rows := copyRows si ni lines
        { rows := rows, found := true, reason := s!"{rows.length} protected row(s) in the dump" }
      | _, _ => { rows := [], found := true, reason := "the guard's columns are not in the COPY column list" }

/-- `decryptUnderMaster`, which throws where the key does not open the ciphertext. -/
abbrev Decrypt := Bytes → Bytes → Bytes → Option Bytes

def Row.opens (decrypt : Decrypt) (row : Row) (key : Bytes) : Bool := (decrypt row.ciphertext row.nonce key).isSome

structure Classification where
  total : Nat
  current : Nat
  legacy : Nat
  unknown : Nat

def Classification.empty : Classification := { total := 0, current := 0, legacy := 0, unknown := 0 }

def classifyRow (decrypt : Decrypt) (current : Option Bytes) (legacy : List Bytes)
    (out : Classification) (row : Row) : Classification :=
  if row.ciphertext = [] then out
  else if current.any (row.opens decrypt) then { out with total := out.total + 1, current := out.current + 1 }
  else if legacy.any fun key => key != [] && row.opens decrypt key
    then { out with total := out.total + 1, legacy := out.legacy + 1 }
  else { out with total := out.total + 1, unknown := out.unknown + 1 }

def classifyRows (decrypt : Decrypt) (rows : List Row) (current : Option Bytes)
    (legacy : List Bytes) : Classification :=
  rows.foldl (classifyRow decrypt current legacy) .empty

structure Compatibility where
  established : Bool
  detail : String
  classification : Option Classification

/-- For an app with a guard. -/
def compatibilityVerdict (decrypt : Decrypt) (rows : List Row) (key : Option Bytes)
    (legacy : List Bytes) : Compatibility :=
  if rows = [] then {
    established := true, detail := "the dump carries no protected credential rows",
    classification := some .empty }
  else match key.filter (· ≠ []) with
    | none =>
      { established := false,
        detail :=
        s!"{rows.length} protected row(s) in the dump but no key is configured to read them under",
        classification := none }
    | some key =>
      let c := classifyRows decrypt rows (some key) (legacy.filter (· ≠ []))
      if 0 < c.unknown then
        { established := false,
          detail :=
          s!"{c.unknown} of {c.total} protected row(s) in the dump open under neither the key that will be in force nor a known legacy default: the restored credentials would be unusable", classification := some c }
      else {
        established := true,
        detail := s!"{c.total} protected row(s) open under the key that will be in force ({c.current} current, {c.legacy} legacy)", classification := some c }

/-- The row opens under the key or the legacy default. -/
def Opens (decrypt : Decrypt) (key : Option Bytes) (legacy : Option Bytes) (row : Row) : Prop :=
  (∃ k, key = some k ∧ row.opens decrypt k = true) ∨ ∃ k, legacy = some k ∧ row.opens decrypt k = true

section Classified

variable {decrypt : Decrypt} {current : Option Bytes} {legacy : List Bytes} {rows : List Row} {out : Classification}

theorem classifyRow_unknown (row : Row) : out.unknown ≤ (classifyRow decrypt current legacy out row).unknown := by
  unfold classifyRow
  split
  · exact Nat.le_refl _
  · split
    · exact Nat.le_refl _
    · split
      · exact Nat.le_refl _
      · exact Nat.le_succ _

theorem classifyRow_opens {row : Row} (there : row.ciphertext ≠ [])
    (known : (classifyRow decrypt current legacy out row).unknown = out.unknown) :
    current.any (row.opens decrypt) = true ∨ (legacy.any fun key => key != [] && row.opens decrypt key) = true := by
  unfold classifyRow at known
  rw [if_neg there] at known
  split at known
  case isTrue opens => exact .inl opens
  case isFalse =>
    split at known
    case isTrue opens => exact .inr opens
    case isFalse => exact absurd known (Nat.succ_ne_self _)

theorem foldl_unknown : ∀ (rows : List Row) (out : Classification),
    out.unknown ≤ (rows.foldl (classifyRow decrypt current legacy) out).unknown
  | [], _ => Nat.le_refl _
  | row :: rest, _ => Nat.le_trans (classifyRow_unknown row) (foldl_unknown rest _)

theorem foldl_opens : ∀ (rows : List Row) (out : Classification),
    (rows.foldl (classifyRow decrypt current legacy) out).unknown = out.unknown →
    ∀ row ∈ rows, row.ciphertext ≠ [] →
      current.any (row.opens decrypt) = true ∨ (legacy.any fun key => key != [] && row.opens decrypt key) = true
  | first :: rest, out, known, row, member, there => by
    have step : (classifyRow decrypt current legacy out first).unknown = out.unknown :=
      Nat.le_antisymm (known ▸ foldl_unknown rest _) (classifyRow_unknown first)
    rcases List.mem_cons.mp member with rfl | later
    · exact classifyRow_opens there step
    · exact foldl_opens rest _ (known.trans step.symm) row later there

theorem compatibilityVerdict_opens {key : Option Bytes} {legacyDefault : Option Bytes}
    (established : (compatibilityVerdict decrypt rows key legacyDefault.toList).established = true) :
    ∀ row ∈ rows, row.ciphertext ≠ [] → Opens decrypt key legacyDefault row := by
  intro row member there
  unfold compatibilityVerdict at established
  split at established
  case isTrue none =>
    rw [none] at member
    cases member
  case isFalse =>
    split at established
    case h_1 => cases established
    case h_2 k configured =>
      dsimp only at established
      split at established
      case isTrue => cases established
      case isFalse known =>
        obtain ⟨same, -⟩ := Option.filter_eq_some_iff.mp configured
        rcases foldl_opens rows .empty (Nat.eq_zero_of_not_pos known) row member there with current | legacy
        · exact .inl ⟨k, same, by simpa using current⟩
        · obtain ⟨k', inside, opens⟩ := List.any_eq_true.mp legacy
          have configured : legacyDefault = some k' := Option.mem_toList.mp (List.mem_filter.mp inside).1
          exact .inr ⟨k', configured, by simpa using (Bool.and_eq_true_iff.mp opens).2⟩

end Classified

end ProxyPilot.RestoreDb
