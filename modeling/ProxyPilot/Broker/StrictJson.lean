import ProxyPilot.Data.JsonGrammar
import ProxyPilot.Data.Utf8

namespace ProxyPilot.Broker

open Data JsonGrammar

/-! # The strict reader (`schema.mjs`)

`parseJson` walks the grammar by hand before it lets `JSON.parse` read the text,
so that no name of an object is read twice.
-/

/-- What rounds to no finite double: the middle between the largest one and the next power of two. -/
def doubleLimit : Nat := 2 ^ 1024 - 2 ^ 970

/-- A numeral is a whole number of digits, shifted by so many places. -/
def finiteNumeral (numeral : List Char) : Bool :=
  let (whole, rest) := ((whole (sign numeral).2).getD ([], []))
  let (fraction, rest) := fraction rest
  let raised := (exponent rest).1.drop 1
  let places := Nat.ofDigitChars 10 (exponentSign raised).2 0
  let digits := Nat.ofDigitChars 10 (whole ++ fraction.drop 1) 0
  let shift : Int :=
    (if (exponentSign raised).1 = ['-'] then -(places : Int) else places) - (fraction.drop 1).length
  if 0 ≤ shift then digits * 10 ^ shift.toNat < doubleLimit else digits < doubleLimit * 10 ^ (-shift).toNat

def withoutMark : List Char → List Char
  | c :: text => if c.toNat = 0xFEFF then text else c :: text
  | [] => []

/-- A string's body up to its closing quote. -/
def scan : List Char → Option (List Char × List Char)
  | [] => none
  | '"' :: rest => some ([], rest)
  | '\\' :: [] => none
  | '\\' :: c :: rest => (scan rest).map fun (body, after) => ('\\' :: c :: body, after)
  | c :: rest => (scan rest).map fun (body, after) => (c :: body, after)

/-- `str`, behind the opening quote. -/
def str (text : List Char) : Option (Units × List Char) :=
  (scan text).bind fun (body, after) =>
    match parse ('"' :: (body ++ ['"'])) with
    | some (.text units) => some (units, after)
    | _ => none

/-- The regular expression of `val`: what it leaves of the text. -/
def literal : List Char → Option (List Char)
  | 'n' :: 'u' :: 'l' :: 'l' :: rest => some rest
  | 't' :: 'r' :: 'u' :: 'e' :: rest => some rest
  | 'f' :: 'a' :: 'l' :: 's' :: 'e' :: rest => some rest
  | text => (numeral text).map Prod.snd

mutual

def val : Nat → List Char → Option (List Char)
  | 0, _ => none
  | fuel + 1, text =>
    match Json.skip text with
    | '\x7b' :: inside =>
      match Json.skip inside with
      | '\x7d' :: rest => some rest
      | _ => valMembers fuel [] inside
    | '[' :: inside =>
      match Json.skip inside with
      | ']' :: rest => some rest
      | _ => valItems fuel inside
    | '"' :: body => (str body).map Prod.snd
    | other => literal other

def valItems : Nat → List Char → Option (List Char)
  | 0, _ => none
  | fuel + 1, text =>
    (val fuel text).bind fun after =>
      match Json.skip after with
      | ']' :: rest => some rest
      | ',' :: others => valItems fuel others
      | _ => none

def valMembers : Nat → List Units → List Char → Option (List Char)
  | 0, _, _ => none
  | fuel + 1, seen, text =>
    match Json.skip text with
    | '"' :: body =>
      (str body).bind fun (name, named) =>
        if seen.contains name then none
        else
          match Json.skip named with
          | ':' :: inside =>
            (val fuel inside).bind fun after =>
              match Json.skip after with
              | '\x7d' :: rest => some rest
              | ',' :: others => valMembers fuel (name :: seen) others
              | _ => none
          | _ => none
    | _ => none

end

mutual

/-- `finite` -/
def finite : Tree → Bool
  | .number numeral => finiteNumeral numeral
  | .array items => finiteItems items
  | .object members => finiteMembers members
  | _ => true

def finiteItems : List Tree → Bool
  | [] => true
  | item :: items => finite item && finiteItems items

def finiteMembers : List (Units × Tree) → Bool
  | [] => true
  | (_, value) :: members => finite value && finiteMembers members

end

/-- The walk needs two turns for every character at most. -/
def parseJson (bytes : List UInt8) : Except String Tree :=
  match (Utf8.decodeStrict bytes).map withoutMark with
  | none => .error "INVALID_REQUEST"
  | some text =>
    match val (2 * text.length + 1) text with
    | none => .error "INVALID_REQUEST"
    | some rest =>
      if Json.skip rest ≠ [] then .error "INVALID_REQUEST"
      else
        match parse text with
        | none => .error "INVALID_REQUEST"
        | some result => if finite result then .ok result else .error "INVALID_REQUEST"

theorem scan_plain {c : Char} (notQuote : c ≠ '"') (notEscape : c ≠ '\\') (text : List Char) :
    scan (c :: text) = (scan text).map fun (body, after) => (c :: body, after) := by
  rw [scan] <;> simp_all

theorem scan_sound {text body rest : List Char} (scanned : scan text = some (body, rest)) :
    text = body ++ '"' :: rest := by
  fun_induction scan text generalizing body rest with
  | case1 => contradiction
  | case2 => cases scanned; rfl
  | case3 => contradiction
  | case4 c text ih =>
    obtain ⟨⟨more, after⟩, scanned, same⟩ := Option.map_eq_some_iff.mp scanned
    cases same
    rw [ih scanned]
    rfl
  | case5 c text _ _ _ ih =>
    obtain ⟨⟨more, after⟩, scanned, same⟩ := Option.map_eq_some_iff.mp scanned
    cases same
    rw [ih scanned]
    rfl

theorem hexValue_plain {c : Char} {n : Nat} (hex : Json.hexValue c = some n) : c ≠ '"' ∧ c ≠ '\\' := by
  constructor <;> rintro rfl <;> exact absurd hex (by simp [Json.hexValue])

theorem fourHex_plain {a b c d : Char} {n : Nat} (hex : Json.fourHex a b c d = some n) :
    (a ≠ '"' ∧ a ≠ '\\') ∧ (b ≠ '"' ∧ b ≠ '\\') ∧ (c ≠ '"' ∧ c ≠ '\\') ∧ d ≠ '"' ∧ d ≠ '\\' := by
  obtain ⟨_, first, hex⟩ := Option.bind_eq_some_iff.mp hex
  obtain ⟨_, second, hex⟩ := Option.bind_eq_some_iff.mp hex
  obtain ⟨_, third, hex⟩ := Option.bind_eq_some_iff.mp hex
  obtain ⟨_, fourth, -⟩ := Option.bind_eq_some_iff.mp hex
  exact ⟨hexValue_plain first, hexValue_plain second, hexValue_plain third, hexValue_plain fourth⟩

variable {text rest : List Char} {units : Units}

/-- The scan of a string stops at its closing quote, and the slice up to there is the string. -/
theorem scan_letters (written : Letters text units rest) :
    ∃ body, scan text = some (body, rest) ∧ Letters (body ++ ['"']) units [] := by
  induction written with
  | close => exact ⟨[], rfl, .close⟩
  | @plain c text units rest notQuote notEscape printable _ ih =>
    obtain ⟨body, scanned, whole⟩ := ih
    exact ⟨c :: body,
      by rw [scan_plain notQuote notEscape, scanned]; rfl, .plain notQuote notEscape printable whole⟩
  | @simple e c text units rest escape _ ih =>
    obtain ⟨body, scanned, whole⟩ := ih
    exact ⟨'\\' :: e :: body, by simp [scan, scanned], .simple escape whole⟩
  | @hex a b c d code text units rest escape _ ih =>
    obtain ⟨body, scanned, whole⟩ := ih
    obtain ⟨first, second, third, fourth⟩ := fourHex_plain escape
    refine ⟨'\\' :: 'u' :: a :: b :: c :: d :: body, ?_, .hex escape whole⟩
    simp [scan, scan_plain first.1 first.2, scan_plain second.1 second.2, scan_plain third.1 third.2,
      scan_plain fourth.1 fourth.2, scanned]

theorem letters_append (written : Letters text units rest) (more : List Char) :
    Letters (text ++ more) units (rest ++ more) := by
  induction written with
  | close => exact .close
  | plain notQuote notEscape printable _ ih => exact .plain notQuote notEscape printable ih
  | simple escape _ ih => exact .simple escape ih
  | hex escape _ ih => exact .hex escape ih

theorem letters_suffix (written : Letters text units rest) : rest <:+ text := by
  induction written with
  | close => exact List.suffix_cons _ _
  | plain _ _ _ _ ih => exact ih.trans (List.suffix_cons _ _)
  | simple _ _ ih => exact ih.trans ((List.suffix_cons _ _).trans (List.suffix_cons _ _))
  | @hex a b c d _ text _ _ _ _ ih => exact ih.trans ⟨['\\', 'u', a, b, c, d], rfl⟩

theorem blank_all {text : List Char} (blank : Blank text []) : ∀ c ∈ text, Json.space c = true := by
  generalize same : ([] : List Char) = rest at blank
  induction blank with
  | none => simp [← same]
  | more white _ ih => exact List.forall_mem_cons.mpr ⟨white, ih same⟩

/-- What `JSON.parse` reads of a quoted slice, it reads up to the slice's end. -/
theorem letters_of_parse {body : List Char} (parsed : parse ('"' :: (body ++ ['"'])) = some (.text units)) :
    Letters (body ++ ['"']) units [] := by
  obtain ⟨inside, behind, blank, value, ends⟩ := parse_iff.mp parsed
  have front : inside = '"' :: (body ++ ['"']) := by
    cases blank with
    | none => rfl
    | more white _ => exact absurd white (by decide)
  subst front
  generalize front : '"' :: (body ++ ['"']) = text at value
  cases value with
  | text letters =>
    cases front
    obtain ⟨before, whole⟩ := letters_suffix letters
    cases behind with
    | nil => exact letters
    | cons c behind =>
      have closing : '"' ∈ c :: behind := by
        refine List.mem_of_getLast? ?_
        have last := congrArg List.getLast? whole
        simpa using last
      exact absurd (blank_all ends '"' closing) (by decide)

theorem str_iff : str text = some (units, rest) ↔ letters text = some (units, rest) := by
  constructor
  · intro read
    obtain ⟨⟨body, after⟩, scanned, read⟩ := Option.bind_eq_some_iff.mp read
    dsimp only at read
    split at read
    case h_2 => contradiction
    next parsed =>
    cases read
    have written := letters_append (letters_of_parse parsed) rest
    rw [scan_sound scanned]
    simpa using letters_complete written
  · intro read
    obtain ⟨body, scanned, whole⟩ := scan_letters (letters_sound read)
    have parsed : parse ('"' :: (body ++ ['"'])) = some (.text units) :=
      parse_iff.mpr ⟨_, [], .none, .text whole, .none⟩
    simp [str, scanned, parsed]

mutual

/-- The value and all values in it. -/
def Everywhere (holds : Tree → Prop) : Tree → Prop
  | .array items => holds (.array items) ∧ EveryItem holds items
  | .object members => holds (.object members) ∧ EveryMember holds members
  | tree => holds tree

def EveryItem (holds : Tree → Prop) : List Tree → Prop
  | [] => True
  | item :: items => Everywhere holds item ∧ EveryItem holds items

def EveryMember (holds : Tree → Prop) : List (Units × Tree) → Prop
  | [] => True
  | (_, value) :: members => Everywhere holds value ∧ EveryMember holds members

end

/-- No two members of an object have one name. -/
def Named : Tree → Prop
  | .object members => (members.map Prod.fst).Nodup
  | _ => True

def Finite : Tree → Prop
  | .number numeral => finiteNumeral numeral = true
  | _ => True

mutual

theorem finite_iff : (tree : Tree) → (finite tree = true ↔ Everywhere Finite tree)
  | .number _ => by simp [finite, Everywhere, Finite]
  | .array items => by simp [finite, Everywhere, Finite, finiteItems_iff items]
  | .object members => by simp [finite, Everywhere, Finite, finiteMembers_iff members]
  | .null | .bool _ | .text _ => by simp [finite, Everywhere, Finite]

theorem finiteItems_iff : (items : List Tree) → (finiteItems items = true ↔ EveryItem Finite items)
  | [] => by simp [finiteItems, EveryItem]
  | item :: items => by simp [finiteItems, EveryItem, finite_iff item, finiteItems_iff items]

theorem finiteMembers_iff : (members : List (Units × Tree)) →
    (finiteMembers members = true ↔ EveryMember Finite members)
  | [] => by simp [finiteMembers, EveryMember]
  | (_, value) :: members => by simp [finiteMembers, EveryMember, finite_iff value, finiteMembers_iff members]

end

section Readings

variable {found : Tree} {after rest : List Char} {holds : Tree → Prop}

theorem reading_iff : (∃ read, some (found, after) = some (read, rest) ∧ holds read) ↔
    after = rest ∧ holds found := by
  simp [and_assoc]

variable {part : Option (α × List Char)}

theorem reading_map {make : α → Tree} :
    (∃ read, (part.map fun (made, rest) => (make made, rest)) = some (read, rest) ∧ holds read) ↔
      ∃ made, part = some (made, rest) ∧ holds (make made) := by
  constructor
  · rintro ⟨_, mapped, held⟩
    obtain ⟨⟨made, after⟩, rfl, same⟩ := Option.map_eq_some_iff.mp mapped
    cases same
    exact ⟨made, rfl, held⟩
  · rintro ⟨made, rfl, held⟩
    exact ⟨make made, rfl, held⟩

theorem snd_iff : part.map Prod.snd = some rest ↔ ∃ made, part = some (made, rest) := by
  simp [Option.map_eq_some_iff]

end Readings

theorem literal_iff :
    literal text = some rest ↔ ∃ read, scalar text = some (read, rest) ∧ Everywhere Named read := by
  unfold literal
  split
  · simp [scalar, and_assoc, Everywhere, Named]
  · simp [scalar, and_assoc, Everywhere, Named]
  · simp [scalar, and_assoc, Everywhere, Named]
  · rw [scalar, reading_map, snd_iff]
    · simp [Everywhere, Named]
    · assumption
    · assumption
    · assumption

mutual

theorem val_iff {fuel : Nat} {text rest : List Char} :
    val fuel text = some rest ↔ ∃ read, value fuel text = some (read, rest) ∧ Everywhere Named read := by
  cases fuel with
  | zero => simp [val, value]
  | succ fuel =>
    rw [val]
    split
    · next inside front =>
        split
        · next empty =>
            rw [value_noMembers front empty, reading_iff]
            simp [Everywhere, EveryMember, Named]
        · next other =>
            rw [value_members front other, reading_map, valMembers_iff]
            simp [Everywhere, Named]
    · next inside front =>
        split
        · next empty =>
            rw [value_noItems front empty, reading_iff]
            simp [Everywhere, EveryItem, Named]
        · next other =>
            rw [value_items front other, reading_map, valItems_iff]
            simp [Everywhere, Named]
    · next body front =>
        rw [value_text front, reading_map, snd_iff]
        simp [str_iff, Everywhere, Named]
    · next object array string =>
        rw [value_scalar object array string, literal_iff]

theorem valItems_iff {fuel : Nat} {text rest : List Char} :
    valItems fuel text = some rest ↔ ∃ read, items fuel text = some (read, rest) ∧ EveryItem Named read := by
  cases fuel with
  | zero => simp [valItems, items]
  | succ fuel =>
    unfold valItems items
    constructor
    · intro walked
      obtain ⟨after, first, walked⟩ := Option.bind_eq_some_iff.mp walked
      obtain ⟨item, found, named⟩ := val_iff.mp first
      split at walked
      · next shape =>
          cases walked
          exact ⟨[item], by simp [found, shape], named, trivial⟩
      · next others shape =>
          obtain ⟨more, read, all⟩ := valItems_iff.mp walked
          exact ⟨item :: more, by simp [found, shape, read], named, all⟩
      · contradiction
    · rintro ⟨read, parsed, all⟩
      obtain ⟨⟨item, after⟩, found, parsed⟩ := Option.bind_eq_some_iff.mp parsed
      dsimp only at parsed
      split at parsed
      · next shape =>
          cases parsed
          simp [val_iff.mpr ⟨item, found, all.1⟩, shape]
      · next others shape =>
          obtain ⟨⟨more, left⟩, others_read, same⟩ := Option.map_eq_some_iff.mp parsed
          cases same
          simp [val_iff.mpr ⟨item, found, all.1⟩, shape, valItems_iff.mpr ⟨more, others_read, all.2⟩]
      · contradiction

theorem valMembers_iff {fuel : Nat} {seen : List Units} {text rest : List Char} :
    valMembers fuel seen text = some rest ↔ ∃ read, members fuel text = some (read, rest) ∧
      (read.map Prod.fst).Nodup ∧ (∀ name ∈ read.map Prod.fst, name ∉ seen) ∧ EveryMember Named read := by
  cases fuel with
  | zero => simp [valMembers, members]
  | succ fuel =>
    rw [valMembers]
    split
    case h_2 other => simp [members_none other]
    next body shape =>
    rw [members_name shape]
    constructor
    · intro walked
      obtain ⟨⟨name, named⟩, letters, walked⟩ := Option.bind_eq_some_iff.mp walked
      rw [str_iff] at letters
      dsimp only at walked
      split at walked
      · contradiction
      next fresh =>
      rw [List.contains_iff_mem] at fresh
      split at walked
      case h_2 => contradiction
      next inside colon =>
      obtain ⟨after, first, walked⟩ := Option.bind_eq_some_iff.mp walked
      obtain ⟨item, found, all⟩ := val_iff.mp first
      split at walked
      · next closing =>
          cases walked
          exact ⟨[(name, item)],
            by simp [letters, colon, found, closing], by simp, by simpa using fresh, all, trivial⟩
      · next others comma =>
          obtain ⟨more, read, unique, unseen, rest_all⟩ := valMembers_iff.mp walked
          refine ⟨(name, item) :: more, by simp [letters, colon, found, comma, read], ?_, ?_, all, rest_all⟩
          · exact List.nodup_cons.mpr ⟨fun again => unseen name again List.mem_cons_self, unique⟩
          · rintro other (_ | ⟨_, again⟩)
            · exact fresh
            · exact fun old => unseen other again (List.mem_cons_of_mem _ old)
      · contradiction
    · rintro ⟨read, parsed, unique, unseen, all⟩
      obtain ⟨⟨name, named⟩, letters, parsed⟩ := Option.bind_eq_some_iff.mp parsed
      dsimp only at parsed
      split at parsed
      case h_2 => contradiction
      next inside colon =>
      obtain ⟨⟨item, after⟩, found, parsed⟩ := Option.bind_eq_some_iff.mp parsed
      dsimp only at parsed
      split at parsed
      · next closing =>
          cases parsed
          have fresh : name ∉ seen := unseen name (by simp)
          simp [str_iff.mpr letters, fresh, colon, val_iff.mpr ⟨item, found, all.1⟩, closing]
      · next others comma =>
          obtain ⟨⟨more, left⟩, others_read, same⟩ := Option.map_eq_some_iff.mp parsed
          cases same
          have fresh : name ∉ seen := unseen name (by simp)
          obtain ⟨own, unique⟩ := List.nodup_cons.mp unique
          have walked : valMembers fuel (name :: seen) others = some left := by
            refine valMembers_iff.mpr ⟨more, others_read, unique, fun other again => ?_, all.2⟩
            rintro (_ | ⟨_, old⟩)
            · exact own again
            · exact unseen other (List.mem_cons_of_mem _ again) old
          simp [str_iff.mpr letters, fresh, colon, val_iff.mpr ⟨item, found, all.1⟩, comma, walked]
      · contradiction

end

/-- The walk comes to the end of the text exactly where `JSON.parse` reads it with names of their own. -/
theorem walk_iff {text : List Char} : (∃ rest, val (2 * text.length + 1) text = some rest ∧ Json.skip rest = []) ↔
    ∃ read, parse text = some read ∧ Everywhere Named read := by
  constructor
  · rintro ⟨rest, walked, ends⟩
    obtain ⟨read, found, named⟩ := val_iff.mp walked
    exact ⟨read, by simp [parse, found, ends], named⟩
  · rintro ⟨read, parsed, named⟩
    unfold parse at parsed
    split at parsed
    case h_2 => contradiction
    next rest found =>
    split at parsed
    case isFalse => contradiction
    next ends =>
    cases parsed
    exact ⟨rest, val_iff.mpr ⟨read, found, named⟩, ends⟩

theorem parseJson_decoded {bytes : List UInt8} {text : List Char} {read : Tree}
    (decoded : Utf8.decodeStrict bytes = some text) :
    parseJson bytes = .ok read ↔
      parse (withoutMark text) = some read ∧ Everywhere Named read ∧ Everywhere Finite read := by
  have walk : (∃ rest, val _ (withoutMark text) = some rest ∧ _) ↔ _ := walk_iff
  simp only [parseJson, decoded, Option.map_some, ← finite_iff]
  cases walked : val (2 * (withoutMark text).length + 1) (withoutMark text) with
  | none =>
    refine iff_of_false (by simp) fun ⟨parsed, named, _⟩ => ?_
    obtain ⟨rest, again, _⟩ := walk.mpr ⟨read, parsed, named⟩
    exact absurd (walked.symm.trans again) (by simp)
  | some rest =>
    by_cases ends : Json.skip rest = []
    · obtain ⟨result, parsed, named⟩ := walk.mp ⟨rest, walked, ends⟩
      cases finitely : finite result with
      | true =>
        simp only [ends, parsed, finitely, ne_eq, not_true_eq_false, if_false, if_true,
          Except.ok.injEq, Option.some.injEq]
        exact ⟨fun same => same ▸ ⟨rfl, named, finitely⟩, And.left⟩
      | false =>
        simp only [ends, parsed, finitely, ne_eq, not_true_eq_false, if_false, Bool.false_eq_true, reduceCtorEq,
          Option.some.injEq, false_iff]
        rintro ⟨rfl, -, finite⟩
        exact absurd (finitely.symm.trans finite) (by simp)
    · simp only [ends, ne_eq, not_false_eq_true, if_true, reduceCtorEq, false_iff]
      rintro ⟨parsed, named, -⟩
      obtain ⟨left, again, ended⟩ := walk.mpr ⟨read, parsed, named⟩
      cases walked.symm.trans again
      exact ends ended

/-- Every refusal has the one code. -/
theorem parseJson_total (bytes : List UInt8) : (∃ read, parseJson bytes = .ok read) ∨
    parseJson bytes = .error "INVALID_REQUEST" := by
  unfold parseJson
  split
  · exact .inr rfl
  · split
    · exact .inr rfl
    · split
      · exact .inr rfl
      · split
        · exact .inr rfl
        · split
          · exact .inl ⟨_, rfl⟩
          · exact .inr rfl

/-- The reader returns what `JSON.parse` reads of valid UTF-8, behind one byte order mark, where no
object at any depth
has two members of one name and every number is a finite double; everything else it refuses. -/
theorem parseJson_iff (bytes : List UInt8) :
    (∀ read, parseJson bytes = .ok read ↔ ∃ text, bytes = Utf8.encode text ∧ Text (withoutMark text) read ∧
      parse (withoutMark text) = some read ∧ Everywhere Named read ∧ Everywhere Finite read) ∧
    ((∀ read, parseJson bytes ≠ .ok read) → parseJson bytes = .error "INVALID_REQUEST") := by
  refine ⟨fun read => ⟨fun read_ok => ?_, ?_⟩, fun refused => ?_⟩
  · cases decoded : Utf8.decodeStrict bytes with
    | none => simp [parseJson, decoded] at read_ok
    | some text =>
      obtain ⟨parsed, kept⟩ := (parseJson_decoded decoded).mp read_ok
      exact ⟨text, Utf8.decodeStrict_eq_some.mp decoded, parse_iff.mp parsed, parsed, kept⟩
  · rintro ⟨text, encoded, -, parsed, kept⟩
    exact (parseJson_decoded (Utf8.decodeStrict_eq_some.mpr encoded)).mpr ⟨parsed, kept⟩
  · rcases parseJson_total bytes with ⟨read, accepted⟩ | error
    · exact absurd accepted (refused read)
    · exact error

end ProxyPilot.Broker
