import ProxyPilot.Data.Text

namespace ProxyPilot.Data

/-- Values with natural numbers, the texts that `JSON.stringify` writes for them (compact or
indented), and a parser that reads both back. -/
inductive Json where
  | null
  | bool (value : Bool)
  | number (value : Nat)
  | text (value : List Char)
  | array (items : List Json)
  | object (fields : List (List Char × Json))

namespace Json

/-- A field of an object: of two with one name the later one counts. -/
def field (name : List Char) : Json → Option Json
  | object fields => fields.reverse.lookup name
  | _ => none

def hexDigit (n : Nat) : Char := Nat.digitChar n

def escapeChar (c : Char) : List Char :=
  if c = '"' then ['\\', '"']
  else if c = '\\' then ['\\', '\\']
  else if c.toNat = 8 then ['\\', 'b']
  else if c.toNat = 9 then ['\\', 't']
  else if c.toNat = 10 then ['\\', 'n']
  else if c.toNat = 12 then ['\\', 'f']
  else if c.toNat = 13 then ['\\', 'r']
  else if c.toNat < 32 then ['\\', 'u', '0', '0', hexDigit (c.toNat / 16), hexDigit (c.toNat % 16)]
  else [c]

def quote (text : List Char) : List Char := '"' :: (text.flatMap escapeChar ++ ['"'])

/-- The line break and the indentation in front of a member. -/
def breakLine (gap depth : Nat) : List Char := if gap = 0 then [] else '\n' :: List.replicate (gap * depth) ' '

def colon (gap : Nat) : List Char := if gap = 0 then [':'] else [':', ' ']

mutual

/-- `JSON.stringify(value, null, gap)` at a depth. -/
def write (gap depth : Nat) : Json → List Char
  | null => ['n', 'u', 'l', 'l']
  | bool true => ['t', 'r', 'u', 'e']
  | bool false => ['f', 'a', 'l', 's', 'e']
  | number n => Nat.toDigits 10 n
  | text t => quote t
  | array [] => ['[', ']']
  | array (item :: items) =>
    '[' :: (breakLine gap (depth + 1) ++
      (write gap (depth + 1) item ++ (writeItems gap (depth + 1) items ++ (breakLine gap depth ++ [']']))))
  | object [] => ['\x7b', '\x7d']
  | object ((name, value) :: fields) =>
    '\x7b' :: (breakLine gap (depth + 1) ++ (quote name ++ (colon gap ++ (write gap (depth + 1) value ++
      (writeFields gap (depth + 1) fields ++ (breakLine gap depth ++ ['\x7d']))))))

def writeItems (gap depth : Nat) : List Json → List Char
  | [] => []
  | item :: items => ',' :: (breakLine gap depth ++ (write gap depth item ++ writeItems gap depth items))

def writeFields (gap depth : Nat) : List (List Char × Json) → List Char
  | [] => []
  | (name, value) :: fields =>
    ',' :: (breakLine gap depth ++
      (quote name ++ (colon gap ++ (write gap depth value ++ writeFields gap depth fields))))

end

def stringify (gap : Nat) (value : Json) : List Char := write gap 0 value

def space (c : Char) : Bool := c == ' ' || c == '\n' || c == '\r' || c == '\t'

def skip (text : List Char) : List Char := text.dropWhile space

def hexValue (c : Char) : Option Nat :=
  if c.isDigit then some (c.toNat - 48)
  else if 'a' ≤ c ∧ c ≤ 'f' then some (c.toNat - 87)
  else if 'A' ≤ c ∧ c ≤ 'F' then some (c.toNat - 55)
  else none

def fourHex (a b c d : Char) : Option Nat := do
  let a ← hexValue a
  let b ← hexValue b
  let c ← hexValue c
  let d ← hexValue d
  return a * 4096 + b * 256 + c * 16 + d

def simpleEscape (c : Char) : Option Char :=
  if c = '"' ∨ c = '\\' ∨ c = '/' then some c
  else if c = 'b' then some (Char.ofNat 8)
  else if c = 't' then some (Char.ofNat 9)
  else if c = 'n' then some (Char.ofNat 10)
  else if c = 'f' then some (Char.ofNat 12)
  else if c = 'r' then some (Char.ofNat 13)
  else none

def isSurrogate (code : Nat) : Bool := decide (0xD800 ≤ code ∧ code ≤ 0xDFFF)

/-- The code units of a string behind its opening quote, and the text behind the closing one. -/
def stringUnits : List Char → Option (List Nat × List Char)
  | [] => none
  | '"' :: rest => some ([], rest)
  | '\\' :: 'u' :: a :: b :: c :: d :: rest => do
    let code ← fourHex a b c d
    let (units, after) ← stringUnits rest
    return (code :: units, after)
  | '\\' :: e :: rest => do
    let c ← simpleEscape e
    let (units, after) ← stringUnits rest
    return (c.toNat :: units, after)
  | c :: rest =>
    if c.toNat < 32 then none
    else do
      let (units, after) ← stringUnits rest
      return (c.toNat :: units, after)

/-- Half a surrogate pair is no character. -/
def ofUnits : List Nat → Option (List Char)
  | [] => some []
  | [unit] => if isSurrogate unit then none else some [Char.ofNat unit]
  | high :: low :: rest =>
    if 0xD800 ≤ high ∧ high < 0xDC00 ∧ 0xDC00 ≤ low ∧ low ≤ 0xDFFF then
      (ofUnits rest).map (Char.ofNat (0x10000 + (high - 0xD800) * 1024 + (low - 0xDC00)) :: ·)
    else if isSurrogate high then none
    else (ofUnits (low :: rest)).map (Char.ofNat high :: ·)

def string : List Char → Option (List Char × List Char)
  | '"' :: rest => do
    let (units, after) ← stringUnits rest
    let t ← ofUnits units
    return (t, after)
  | _ => none

/-- A natural number; behind another number no value goes on. -/
def natural (text : List Char) : Option (Json × List Char) :=
  let digits := text.takeWhile Char.isDigit
  if digits = [] ∨ (digits.head? = some '0' ∧ digits.length ≠ 1) then none
  else some (number (Nat.ofDigitChars 10 digits 0), text.dropWhile Char.isDigit)

mutual

def value : Nat → List Char → Option (Json × List Char)
  | 0, _ => none
  | fuel + 1, unread =>
    match skip unread with
    | '"' :: rest => do
      let (t, after) ← string ('"' :: rest)
      return (text t, after)
    | '[' :: rest =>
      if (skip rest).head? = some ']' then some (array [], (skip rest).drop 1)
      else do
        let (first, after) ← value fuel rest
        let (more, after) ← moreItems fuel after
        return (array (first :: more), after)
    | '\x7b' :: rest =>
      if (skip rest).head? = some '\x7d' then some (object [], (skip rest).drop 1)
      else do
        let (first, after) ← member fuel rest
        let (more, after) ← moreFields fuel after
        return (object (first :: more), after)
    | 'n' :: 'u' :: 'l' :: 'l' :: after => some (null, after)
    | 't' :: 'r' :: 'u' :: 'e' :: after => some (bool true, after)
    | 'f' :: 'a' :: 'l' :: 's' :: 'e' :: after => some (bool false, after)
    | other => natural other

def moreItems : Nat → List Char → Option (List Json × List Char)
  | 0, _ => none
  | fuel + 1, unread =>
    match skip unread with
    | ',' :: rest => do
      let (next, after) ← value fuel rest
      let (more, after) ← moreItems fuel after
      return (next :: more, after)
    | ']' :: after => some ([], after)
    | _ => none

def member : Nat → List Char → Option ((List Char × Json) × List Char)
  | 0, _ => none
  | fuel + 1, unread => do
    let (name, after) ← string (skip unread)
    match skip after with
    | ':' :: rest => do
      let (read, after) ← value fuel rest
      return ((name, read), after)
    | _ => none

def moreFields : Nat → List Char → Option (List (List Char × Json) × List Char)
  | 0, _ => none
  | fuel + 1, unread =>
    match skip unread with
    | ',' :: rest => do
      let (next, after) ← member fuel rest
      let (more, after) ← moreFields fuel after
      return (next :: more, after)
    | '\x7d' :: after => some ([], after)
    | _ => none

end

/-- `JSON.parse` -/
def parse (unread : List Char) : Option Json :=
  match value (unread.length + 1) unread with
  | some (read, after) => if skip after = [] then some read else none
  | none => none

section

-- every proof below asks for the equations of the parser: here they are made once
attribute [local simp] stringUnits value moreItems member moreFields write writeItems writeFields

end

theorem hexValue_hexDigit : ∀ n < 16, hexValue (hexDigit n) = some n := by decide

theorem stringUnits_simple {e c : Char} (known : simpleEscape e = some c) (rest : List Char) :
    stringUnits ('\\' :: e :: rest) = (stringUnits rest).map fun (units, after) => (c.toNat :: units, after) := by
  have notHex : simpleEscape 'u' = none := by decide
  rw [stringUnits]
  · rw [known]
    cases stringUnits rest <;> rfl
  · rintro a b c' d rest' rfl
    rw [notHex] at known
    cases known

variable {c : Char} {white : List Char} {unread rest : List Char} {fuel : Nat}

theorem stringUnits_hex (low : c.toNat < 256) (rest : List Char) :
    stringUnits ('\\' :: 'u' :: '0' :: '0' :: hexDigit (c.toNat / 16) :: hexDigit (c.toNat % 16) :: rest) =
      (stringUnits rest).map fun (units, after) => (c.toNat :: units, after) := by
  have code : fourHex '0' '0' (hexDigit (c.toNat / 16)) (hexDigit (c.toNat % 16)) = some c.toNat := by
    have zero : hexValue '0' = some 0 := by decide
    unfold fourHex
    rw [zero, hexValue_hexDigit _ (by omega), hexValue_hexDigit _ (by omega)]
    simp only [Option.bind_eq_bind, Option.bind_some, Option.pure_def, Option.some.injEq]
    omega
  rw [stringUnits, code]
  cases stringUnits rest <;> rfl

theorem stringUnits_plain (notQuote : c ≠ '"') (notEscape : c ≠ '\\') (printable : ¬ c.toNat < 32)
    (rest : List Char) :
    stringUnits (c :: rest) = (stringUnits rest).map fun (units, after) => (c.toNat :: units, after) := by
  rw [stringUnits]
  · rw [if_neg printable]
    cases stringUnits rest <;> rfl
  · exact notQuote
  · intro a b c' d rest' same
    exact absurd same notEscape
  · intro e rest' same
    exact absurd same notEscape

theorem stringUnits_escapeChar (c : Char) (rest : List Char) :
    stringUnits (escapeChar c ++ rest) = (stringUnits rest).map fun (units, after) =>
      (c.toNat :: units, after) := by
  have back : ∀ code, c.toNat = code → Char.ofNat code = c := by
    rintro code rfl
    exact Char.ofNat_toNat c
  unfold escapeChar
  split
  · next same =>
      subst same
      exact stringUnits_simple (by decide) rest
  split
  · next same =>
      subst same
      exact stringUnits_simple (by decide) rest
  split
  · next code => exact stringUnits_simple (by rw [← back 8 code]; decide) rest
  split
  · next code => exact stringUnits_simple (by rw [← back 9 code]; decide) rest
  split
  · next code => exact stringUnits_simple (by rw [← back 10 code]; decide) rest
  split
  · next code => exact stringUnits_simple (by rw [← back 12 code]; decide) rest
  split
  · next code => exact stringUnits_simple (by rw [← back 13 code]; decide) rest
  split
  · next low => exact stringUnits_hex (by omega) rest
  · next notQuote notEscape _ _ _ _ _ printable => exact stringUnits_plain notQuote notEscape printable rest

theorem length_le_quote (t : List Char) : t.length ≤ (quote t).length := by
  have each : ∀ c, 1 ≤ (escapeChar c).length := by
    intro c
    unfold escapeChar
    repeat' split
    all_goals simp
  unfold quote
  rw [List.length_cons, List.length_append]
  induction t with
  | nil => exact Nat.zero_le _
  | cons c t ih =>
    have first := each c
    rw [List.flatMap_cons, List.length_append, List.length_cons]
    omega

theorem stringUnits_escaped (t rest : List Char) :
    stringUnits (t.flatMap escapeChar ++ '"' :: rest) = some (t.map Char.toNat, rest) := by
  induction t with
  | nil => rw [List.flatMap_nil, List.nil_append, stringUnits, List.map_nil]
  | cons c t ih =>
    rw [List.flatMap_cons, List.append_assoc, stringUnits_escapeChar, ih]
    rfl

theorem notSurrogate (c : Char) : isSurrogate c.toNat = false := by
  have valid : c.toNat < 0xD800 ∨ 0xDFFF < c.toNat ∧ c.toNat < 0x110000 := c.valid
  unfold isSurrogate
  rw [decide_eq_false_iff_not]
  omega

theorem ofUnits_toNat (t : List Char) : ofUnits (t.map Char.toNat) = some t := by
  induction t with
  | nil => rfl
  | cons c t ih =>
    have whole := notSurrogate c
    cases t with
    | nil =>
      rw [List.map_cons, List.map_nil, ofUnits, if_neg (by rw [whole]; decide), Char.ofNat_toNat]
    | cons next t =>
      have high : ¬ (0xD800 ≤ c.toNat ∧ c.toNat < 0xDC00 ∧ 0xDC00 ≤ next.toNat ∧ next.toNat ≤ 0xDFFF) := by
        have outside := of_decide_eq_false whole
        omega
      rw [List.map_cons] at ih
      rw [List.map_cons, List.map_cons, ofUnits, if_neg high, if_neg (by rw [whole]; decide), ih, Char.ofNat_toNat]
      rfl

theorem string_quote (t rest : List Char) : string (quote t ++ rest) = some (t, rest) := by
  have body : quote t ++ rest = '"' :: (t.flatMap escapeChar ++ '"' :: rest) := by
    unfold quote
    rw [List.cons_append, List.append_assoc]
    rfl
  rw [body, string, stringUnits_escaped]
  simp only [Option.bind_eq_bind, Option.bind_some, ofUnits_toNat]
  rfl

/-- No digit follows at once. -/
def Ends (rest : List Char) : Prop := ∀ c, rest.head? = some c → c.isDigit = false

theorem toDigits_head {n : Nat} (positive : 0 < n) : (Nat.toDigits 10 n).head? ≠ some '0' := by
  induction n using Nat.strongRecOn with
  | ind n ih =>
    by_cases small : n < 10
    · rw [Nat.toDigits_of_lt_base small]
      have digits : ∀ m < 10, 0 < m → [m.digitChar].head? ≠ some '0' := by decide
      exact digits n small positive
    · rw [Nat.toDigits_of_base_le (by decide) (by omega), List.head?_append, Option.or_of_isSome (by simp)]
      exact ih (n / 10) (by omega) (by omega)

theorem natural_toDigits (n : Nat) {rest : List Char} (ends : Ends rest) :
    natural (Nat.toDigits 10 n ++ rest) = some (number n, rest) := by
  have allDigits : ∀ c ∈ Nat.toDigits 10 n, c.isDigit = true :=
    fun c member => Nat.isDigit_of_mem_toDigits (by decide) (by decide) member
  have taken : (Nat.toDigits 10 n ++ rest).takeWhile Char.isDigit = Nat.toDigits 10 n := by
    rw [List.takeWhile_append_of_pos allDigits]
    cases rest with
    | nil => simp
    | cons c rest => simp [ends c rfl]
  have left : (Nat.toDigits 10 n ++ rest).dropWhile Char.isDigit = rest := by
    rw [List.dropWhile_append_of_pos allDigits]
    cases rest with
    | nil => rfl
    | cons c rest => simp [ends c rfl]
  unfold natural
  simp only [taken, left]
  rw [if_neg, Nat.ofDigitChars_ten_toDigits]
  rintro (empty | ⟨zero, long⟩)
  · exact Nat.toDigits_ne_nil empty
  · rcases Nat.eq_zero_or_pos n with rfl | positive
    · exact long (by decide)
    · exact toDigits_head positive zero

def White (t : List Char) : Prop := ∀ c ∈ t, space c = true

theorem skip_white (isWhite : White white) (dark : space c = false) (rest : List Char) :
    skip (white ++ c :: rest) = c :: rest := by
  unfold skip
  rw [List.dropWhile_append_of_pos isWhite, List.dropWhile_cons_of_neg (by rw [dark]; decide)]

theorem white_nil : White [] := by
  intro c member
  cases member

theorem white_breakLine (gap depth : Nat) : White (breakLine gap depth) := by
  intro c member
  unfold breakLine at member
  split at member
  · cases member
  · rcases List.mem_cons.mp member with rfl | member
    · decide
    · rw [List.eq_of_mem_replicate member]
      decide

theorem ends_cons (notDigit : c.isDigit = false) (rest : List Char) : Ends (c :: rest) := by
  intro first same
  cases same
  exact notDigit

theorem ends_white (isWhite : White white) (notDigit : c.isDigit = false) (rest : List Char) :
    Ends (white ++ c :: rest) := by
  cases white with
  | nil => exact ends_cons notDigit rest
  | cons first more =>
    refine ends_cons ?_ _
    have blank := isWhite first List.mem_cons_self
    simp only [space, Bool.or_eq_true, beq_iff_eq] at blank
    rcases blank with ((rfl | rfl) | rfl) | rfl <;> decide

/-- The first character of a value. -/
theorem write_head (gap depth : Nat) (v : Json) :
    ∃ c rest, write gap depth v = c :: rest ∧ space c = false ∧ c ≠ ']' ∧ c ≠ '\x7d' := by
  cases v with
  | null => exact ⟨'n', _, rfl, by decide, by decide, by decide⟩
  | bool b => cases b <;> exact ⟨_, _, rfl, by decide, by decide, by decide⟩
  | number n =>
    cases digits : Nat.toDigits 10 n with
    | nil => exact absurd digits Nat.toDigits_ne_nil
    | cons c rest =>
      have digit : c.isDigit = true :=
        Nat.isDigit_of_mem_toDigits (by decide) (by decide) (digits ▸ List.mem_cons_self)
      refine ⟨c, rest, digits, ?_, ?_, ?_⟩
      · refine Bool.eq_false_iff.mpr fun blank => ?_
        simp only [space, Bool.or_eq_true, beq_iff_eq] at blank
        rcases blank with ((rfl | rfl) | rfl) | rfl <;> exact absurd digit (by decide)
      · rintro rfl
        exact absurd digit (by decide)
      · rintro rfl
        exact absurd digit (by decide)
  | text t => exact ⟨'"', _, rfl, by decide, by decide, by decide⟩
  | array items => cases items <;> exact ⟨'[', _, rfl, by decide, by decide, by decide⟩
  | object fields =>
    cases fields with
    | nil => exact ⟨'\x7b', _, rfl, by decide, by decide, by decide⟩
    | cons first more => exact ⟨'\x7b', _, rfl, by decide, by decide, by decide⟩

theorem skip_write (isWhite : White white) (gap depth : Nat) (v : Json) (rest : List Char) :
    skip (white ++ (write gap depth v ++ rest)) = write gap depth v ++ rest := by
  obtain ⟨c, more, text, dark, _⟩ := write_head gap depth v
  rw [text, List.cons_append, skip_white isWhite dark]

theorem skip_quote (isWhite : White white) (t rest : List Char) :
    skip (white ++ (quote t ++ rest)) = quote t ++ rest := skip_white isWhite (by decide) _

theorem value_quote (skipped : skip unread = '"' :: rest) :
    value (fuel + 1) unread = (string ('"' :: rest)).map fun (t, after) => (text t, after) := by
  rw [value, skipped]
  simp only []
  cases string ('"' :: rest) <;> rfl

theorem value_digit (skipped : skip unread = c :: rest) (digit : c.isDigit = true) :
    value (fuel + 1) unread = natural (c :: rest) := by
  rw [value, skipped]
  split
  all_goals first
    | rfl
    | next same =>
      cases same
      exact absurd digit (by decide)

theorem skip_head (c : Char) (rest : List Char) (dark : space c = false) :
    skip (c :: rest) = c :: rest := skip_white white_nil dark rest

variable {after : List Char} {left : List Char}

theorem value_array (skipped : skip unread = '[' :: rest) (some : (skip rest).head? ≠ some ']')
    {first : Json} (read : value fuel rest = .some (first, after)) {more : List Json}
    (readMore : moreItems fuel after = .some (more, left)) :
    value (fuel + 1) unread = .some (array (first :: more), left) := by
  rw [value, skipped]
  simp only [if_neg some, read, Option.bind_eq_bind, Option.bind_some, readMore]
  rfl

theorem value_object (skipped : skip unread = '\x7b' :: rest) (some : (skip rest).head? ≠ some '\x7d')
    {first : List Char × Json} (read : member fuel rest = .some (first, after)) {more : List (List Char × Json)}
    (readMore : moreFields fuel after = .some (more, left)) :
    value (fuel + 1) unread = .some (object (first :: more), left) := by
  rw [value, skipped]
  simp only [if_neg some, read, Option.bind_eq_bind, Option.bind_some, readMore]
  rfl

/-- A member, once its value is read back. -/
theorem member_write {fuel gap depth : Nat} (isWhite : White white) {name : List Char} {v : Json} {rest : List Char}
    (read : ∀ white, White white → value fuel (white ++ (write gap depth v ++ rest)) = some (v, rest)) :
    member (fuel + 1) (white ++ (quote name ++ (colon gap ++ (write gap depth v ++ rest)))) =
      some ((name, v), rest) := by
  have separated : ∃ blank, White blank ∧ colon gap ++ (write gap depth v ++ rest) = ':' ::
      (blank ++ (write gap depth v ++ rest)) := by
    unfold colon
    split
    · exact ⟨[], white_nil, rfl⟩
    · refine ⟨[' '], ?_, rfl⟩
      intro c member
      rw [List.mem_singleton.mp member]
      decide
  obtain ⟨blank, isBlank, text⟩ := separated
  rw [member, skip_quote isWhite, string_quote, text]
  simp only [Option.bind_eq_bind, Option.bind_some, skip_head ':' _ (by decide), read blank isBlank]
  rfl

theorem skip_breakLine_write (gap depth inner : Nat) (v : Json) (rest : List Char) :
    (skip (breakLine gap depth ++ (write gap inner v ++ rest))).head? ≠ some ']' ∧
      (skip (breakLine gap depth ++ (write gap inner v ++ rest))).head? ≠ some '\x7d' := by
  obtain ⟨c, more, written, _, notBracket, notBrace⟩ := write_head gap inner v
  rw [skip_write (white_breakLine gap depth), written]
  simp [notBracket, notBrace]

theorem ends_writeItems (gap depth : Nat) (items : List Json) (isWhite : White white) (rest : List Char) :
    Ends (writeItems gap depth items ++ (white ++ ']' :: rest)) := by
  cases items with
  | nil => exact ends_white isWhite (by decide) rest
  | cons item items => exact ends_cons (by decide) _

theorem ends_writeFields (gap depth : Nat) (fields : List (List Char × Json))
    (isWhite : White white) (rest : List Char) :
    Ends (writeFields gap depth fields ++ (white ++ '\x7d' :: rest)) := by
  cases fields with
  | nil => exact ends_white isWhite (by decide) rest
  | cons field fields => exact ends_cons (by decide) _

mutual

theorem value_write (fuel gap depth : Nat) (v : Json) (enough : (write gap depth v).length ≤ fuel)
    (white rest : List Char)
    (isWhite : White white) (ends : Ends rest) :
    value fuel (white ++ (write gap depth v ++ rest)) = some (v, rest) := by
  have skipped := skip_write isWhite gap depth v rest
  cases fuel with
  | zero =>
    obtain ⟨c, more, written, _⟩ := write_head gap depth v
    rw [written] at enough
    cases enough
  | succ fuel =>
    match v with
    | null =>
      rw [value, skipped]
      rfl
    | bool true =>
      rw [value, skipped]
      rfl
    | bool false =>
      rw [value, skipped]
      rfl
    | number n =>
      cases digits : Nat.toDigits 10 n with
      | nil => exact absurd digits Nat.toDigits_ne_nil
      | cons c more =>
        rw [write, digits] at skipped
        have digit : c.isDigit = true :=
          Nat.isDigit_of_mem_toDigits (by decide) (by decide) (digits ▸ List.mem_cons_self)
        have read := natural_toDigits n ends
        rw [digits] at read
        rw [write, digits, value_digit skipped digit]
        exact read
    | text t =>
      rw [value_quote skipped]
      exact congrArg (Option.map fun (t, after) => (text t, after)) (string_quote t rest)
    | array [] =>
      rw [value, skipped]
      rfl
    | array (item :: items) =>
      rw [write] at enough skipped ⊢
      simp only [List.cons_append, List.append_assoc, List.nil_append, List.length_cons,
        List.length_append] at enough skipped ⊢
      have close := white_breakLine gap depth
      exact value_array skipped (skip_breakLine_write gap (depth + 1) (depth + 1) item _).1
        (value_write fuel gap (depth + 1) item (by omega) _ _ (white_breakLine gap (depth + 1))
          (ends_writeItems gap (depth + 1) items close rest))
        (moreItems_write fuel gap (depth + 1) items (by omega) _ rest close)
    | object [] =>
      rw [value, skipped]
      rfl
    | object ((name, v) :: fields) =>
      rw [write] at enough skipped ⊢
      simp only [List.cons_append, List.append_assoc, List.nil_append, List.length_cons,
        List.length_append] at enough skipped ⊢
      have close := white_breakLine gap depth
      have opening : (skip (breakLine gap (depth + 1) ++ (quote name ++ (colon gap ++ (write gap (depth + 1) v ++
          (writeFields gap (depth + 1) fields ++
            (breakLine gap depth ++ '\x7d' :: rest))))))).head? ≠ some '\x7d' := by
        rw [skip_quote (white_breakLine gap (depth + 1))]
        exact fun same => absurd (Option.some.inj same) (by decide)
      have quoted : 2 ≤ (quote name).length := by
        unfold quote
        rw [List.length_cons, List.length_append, List.length_singleton]
        omega
      obtain ⟨more, rfl⟩ : ∃ more, fuel = more + 1 := ⟨fuel - 1, by omega⟩
      refine value_object skipped opening (member_write (white_breakLine gap (depth + 1)) fun blank isBlank => ?_)
        (moreFields_write (more + 1) gap (depth + 1) fields (by omega) _ rest close)
      exact value_write more gap (depth + 1) v (by omega) blank _ isBlank
        (ends_writeFields gap (depth + 1) fields close rest)

theorem moreItems_write (fuel gap depth : Nat) (items : List Json)
    (enough : (writeItems gap depth items).length < fuel)
    (white rest : List Char) (isWhite : White white) :
    moreItems fuel (writeItems gap depth items ++ (white ++ ']' :: rest)) = some (items, rest) := by
  cases fuel with
  | zero => exact absurd enough (Nat.not_lt_zero _)
  | succ fuel =>
    match items with
    | [] =>
      rw [writeItems, List.nil_append, moreItems, skip_white isWhite (by decide)]
      rfl
    | item :: items =>
      rw [writeItems] at enough ⊢
      simp only [List.cons_append, List.append_assoc, List.length_cons, List.length_append] at enough ⊢
      rw [moreItems, skip_head _ _ (by decide)]
      simp only [value_write fuel gap depth item (by omega) _ _ (white_breakLine gap depth)
        (ends_writeItems gap depth items isWhite rest),
        Option.bind_eq_bind, Option.bind_some, moreItems_write fuel gap depth items (by omega) white rest isWhite]
      rfl

theorem moreFields_write (fuel gap depth : Nat) (fields : List (List Char × Json))
    (enough : (writeFields gap depth fields).length < fuel)
    (white rest : List Char) (isWhite : White white) :
    moreFields fuel (writeFields gap depth fields ++ (white ++ '\x7d' :: rest)) = some (fields, rest) := by
  cases fuel with
  | zero => exact absurd enough (Nat.not_lt_zero _)
  | succ fuel =>
    match fields with
    | [] =>
      rw [writeFields, List.nil_append, moreFields, skip_white isWhite (by decide)]
      rfl
    | (name, v) :: fields =>
      rw [writeFields] at enough ⊢
      simp only [List.cons_append, List.append_assoc, List.length_cons, List.length_append] at enough ⊢
      have quoted : 2 ≤ (quote name).length := by
        unfold quote
        rw [List.length_cons, List.length_append, List.length_singleton]
        omega
      obtain ⟨more, rfl⟩ : ∃ more, fuel = more + 1 := ⟨fuel - 1, by omega⟩
      have read := fun blank isBlank =>
        value_write more gap depth v (by omega) blank _ isBlank (ends_writeFields gap depth fields isWhite rest)
      rw [moreFields, skip_head _ _ (by decide)]
      simp only [member_write (white_breakLine gap depth) read, Option.bind_eq_bind, Option.bind_some,
        moreFields_write (more + 1) gap depth fields (by omega) white rest isWhite]
      rfl

end

theorem writeFields_append (gap depth : Nat) (fields more : List (List Char × Json)) :
    writeFields gap depth (fields ++ more) = writeFields gap depth fields ++ writeFields gap depth more := by
  induction fields with
  | nil => rfl
  | cons field fields ih =>
    obtain ⟨name, v⟩ := field
    rw [List.cons_append, writeFields, writeFields, ih]
    simp only [List.cons_append, List.append_assoc]

/-- Further fields stand between what an object has and its closing brace. -/
theorem write_object_append (gap depth : Nat) (field : List Char × Json) (fields more : List (List Char × Json)) :
    ∃ front back, write gap depth (object (field :: fields)) = front ++ back ∧
      write gap depth (object (field :: fields ++ more)) = front ++ (writeFields gap (depth + 1) more ++ back) := by
  obtain ⟨name, v⟩ := field
  refine ⟨'\x7b' :: (breakLine gap (depth + 1) ++
    (quote name ++ (colon gap ++ (write gap (depth + 1) v ++ writeFields gap (depth + 1) fields)))),
    breakLine gap depth ++ ['\x7d'], ?_, ?_⟩
  · rw [write]
    simp only [List.cons_append, List.append_assoc]
  · rw [List.cons_append, write, writeFields_append]
    simp only [List.cons_append, List.append_assoc]

/-- What `stringify` writes parses to the same value. -/
theorem parse_stringify (gap : Nat) (v : Json) : parse (stringify gap v) = some v := by
  have read :=
    value_write ((stringify gap v).length + 1) gap 0 v (Nat.le_succ _) [] [] white_nil (fun c none => by cases none)
  rw [List.nil_append, List.append_nil] at read
  unfold parse
  rw [show value ((stringify gap v).length + 1) (stringify gap v) = some (v, []) from read]
  rfl

end Json

end ProxyPilot.Data
