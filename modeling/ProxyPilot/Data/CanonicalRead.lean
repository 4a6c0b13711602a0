import ProxyPilot.Data.Canonical

namespace ProxyPilot.Data.Canonical

/-! # Reading canonical JSON

`strict_json` reads every JSON text in which no object has a name twice.  What canonical JSON is read
as is the value that was written, with its names in order.
-/

open JsonGrammar (Tree Letters Numeral Items Member Members Blank)

variable {floats : Floats}

def highUnit (u : UInt16) : Bool := 0xD800 ≤ u.toNat && u.toNat < 0xDC00

def lowUnit (u : UInt16) : Bool := 0xDC00 ≤ u.toNat && u.toNat < 0xE000

/-- The characters of code units; a lone surrogate, of which no digest can be taken, is refused. -/
def decodeUnits : Units → Option Text
  | [] => some []
  | [u] => if highUnit u = true ∨ lowUnit u = true then none else some [Char.ofNat u.toNat]
  | u :: v :: rest =>
    if highUnit u = true then
      if lowUnit v = true
        then (decodeUnits rest).map (Char.ofNat (0x10000 + (u.toNat - 0xD800) * 1024 + (v.toNat - 0xDC00)) :: ·)
      else none
    else if lowUnit u = true then none
    else (decodeUnits (v :: rest)).map (Char.ofNat u.toNat :: ·)

def intOf (numeral : Text) : Int :=
  if numeral.head? = some '-' then -(Nat.ofDigitChars 10 (numeral.drop 1) 0 : Int)
    else Nat.ofDigitChars 10 numeral 0

def digitCount (numeral : Text) : Nat := (numeral.filter Char.isDigit).length

/-- A number that is too long or infinite is refused. -/
def ofNumeral (floats : Floats) (numeral : Text) : Option (Value floats.Float) :=
  if wholeNumeral numeral = true then
    if digitCount numeral ≤ maxDigits then some (.int (intOf numeral)) else none
  else (floats.read numeral).map .float

mutual

def ofTree (floats : Floats) : Tree → Option (Value floats.Float)
  | .null => some .null
  | .bool value => some (.bool value)
  | .number numeral => ofNumeral floats numeral
  | .text units => (decodeUnits units).map .text
  | .array items => (ofItems floats items).map .array
  | .object members =>
    (ofMembers floats members).bind fun fields => if (fields.map Prod.fst).Nodup
      then some (.object fields) else none

def ofItems (floats : Floats) : List Tree → Option (List (Value floats.Float))
  | [] => some []
  | item :: items => (ofTree floats item).bind fun value => (ofItems floats items).map (value :: ·)

def ofMembers (floats : Floats) : List (Units × Tree) → Option (List (Text × Value floats.Float))
  | [] => some []
  | (name, item) :: members =>
    (decodeUnits name).bind fun name => (ofTree floats item).bind fun value =>
      (ofMembers floats members).map ((name, value) :: ·)

end

/-- `strict_json` -/
def strictJson (floats : Floats) (text : Text) : Option (Value floats.Float) :=
  (JsonGrammar.parse text).bind (ofTree floats)

theorem decodeUnits_single {u : UInt16} (high : highUnit u = false) (low : lowUnit u = false) (rest : Units) :
    decodeUnits (u :: rest) = (decodeUnits rest).map (Char.ofNat u.toNat :: ·) := by
  cases rest with
  | nil => simp [decodeUnits, high, low]
  | cons v rest => simp [decodeUnits, high, low]

theorem decodeUnits_encodeChar (c : Char) (rest : Units) :
    decodeUnits (Utf16.encodeChar c ++ rest) = (decodeUnits rest).map (c :: ·) := by
  have valid : c.toNat < 0xD800 ∨ 0xDFFF < c.toNat ∧ c.toNat < 0x110000 := c.valid
  have same : ∀ n, n = c.toNat → Char.ofNat n = c := by
    rintro n rfl
    exact Char.ofNat_toNat c
  unfold Utf16.encodeChar
  split
  · next small =>
      have number : (UInt16.ofNat c.toNat).toNat = c.toNat := UInt16.toNat_ofNat_of_lt' small
      have high : highUnit (UInt16.ofNat c.toNat) = false := by
        simp only [highUnit, number, Bool.and_eq_false_iff, decide_eq_false_iff_not]
        omega
      have low : lowUnit (UInt16.ofNat c.toNat) = false := by
        simp only [lowUnit, number, Bool.and_eq_false_iff, decide_eq_false_iff_not]
        omega
      rw [List.cons_append, List.nil_append, decodeUnits_single high low, number, same _ rfl]
  · next large =>
      have first : (UInt16.ofNat (0xD800 + (c.toNat - 0x10000) / 1024)).toNat = 0xD800 +
          (c.toNat - 0x10000) / 1024 :=
        UInt16.toNat_ofNat_of_lt' (by simp only [UInt16.size]; omega)
      have second : (UInt16.ofNat (0xDC00 + (c.toNat - 0x10000) % 1024)).toNat = 0xDC00 +
          (c.toNat - 0x10000) % 1024 :=
        UInt16.toNat_ofNat_of_lt' (by simp only [UInt16.size]; omega)
      have high : highUnit (UInt16.ofNat (0xD800 + (c.toNat - 0x10000) / 1024)) = true := by
        simp only [highUnit, first, Bool.and_eq_true, decide_eq_true_eq]
        omega
      have low : lowUnit (UInt16.ofNat (0xDC00 + (c.toNat - 0x10000) % 1024)) = true := by
        simp only [lowUnit, second, Bool.and_eq_true, decide_eq_true_eq]
        omega
      have code : 0x10000 + (0xD800 + (c.toNat - 0x10000) / 1024 - 0xD800) * 1024 +
          (0xDC00 + (c.toNat - 0x10000) % 1024 - 0xDC00) = c.toNat := by
        omega
      rw [List.cons_append, List.cons_append, List.nil_append, decodeUnits, if_pos high, if_pos low,
        first, second, same _ code]

theorem decodeUnits_encode (text : Text) : decodeUnits (Utf16.encode text) = some text := by
  induction text with
  | nil => rfl
  | cons c text ih =>
    rw [show Utf16.encode (c :: text) = Utf16.encodeChar c ++ Utf16.encode text from rfl,
      decodeUnits_encodeChar, ih]
    rfl

theorem letters_escapeChar (c : Char) {text rest : Text} {units : Units} (more : Letters text units rest) :
    Letters (Json.escapeChar c ++ text) (Utf16.encodeChar c ++ units) rest := by
  have known : ∀ n, c.toNat = n → c = Char.ofNat n := by
    rintro n rfl
    exact (Char.ofNat_toNat c).symm
  unfold Json.escapeChar
  split
  · next same => exact .simple (by rw [same]; rfl) more
  split
  · next same => exact .simple (by rw [same]; rfl) more
  split
  · next code => exact .simple (by rw [known _ code]; rfl) more
  split
  · next code => exact .simple (by rw [known _ code]; rfl) more
  split
  · next code => exact .simple (by rw [known _ code]; rfl) more
  split
  · next code => exact .simple (by rw [known _ code]; rfl) more
  split
  · next code => exact .simple (by rw [known _ code]; rfl) more
  split
  · next small =>
      have encoded : Utf16.encodeChar c = [UInt16.ofNat c.toNat] := if_pos (by omega)
      have hex :
          Json.fourHex '0' '0' (Json.hexDigit (c.toNat / 16)) (Json.hexDigit (c.toNat % 16)) = some c.toNat := by
        have all :
            ∀ n < 32, Json.fourHex '0' '0' (Json.hexDigit (n / 16)) (Json.hexDigit (n % 16)) = some n := by decide
        exact all _ small
      rw [encoded]
      exact .hex hex more
  · next notQuote notEscape _ _ _ _ _ printable => exact .plain notQuote notEscape (by omega) more

theorem letters_quote (text rest : Text) :
    Letters (text.flatMap Json.escapeChar ++ ('"' :: rest)) (Utf16.encode text) rest := by
  induction text with
  | nil => exact .close
  | cons c text ih =>
    rw [List.flatMap_cons, List.append_assoc]
    exact letters_escapeChar c ih

theorem digits_toDigits (n : Nat) : ∀ c ∈ Nat.toDigits 10 n, c.isDigit = true := fun _ member =>
  Nat.isDigit_of_mem_toDigits (by decide) (by decide) member

theorem numeral_intText (n : Int) : Numeral (intText n) := by
  have whole : JsonGrammar.Whole (Nat.toDigits 10 n.natAbs) := by
    by_cases zero : n.natAbs = 0
    · exact .inl (by rw [zero]; rfl)
    · exact .inr ⟨Nat.toDigits_ne_nil, Json.toDigits_head (by omega), digits_toDigits _⟩
  unfold intText
  split
  · exact ⟨['-'], _, [], [], by simp, .inr rfl, whole, .inl rfl, .inl rfl⟩
  · exact ⟨[], _, [], [], by simp, .inl rfl, whole, .inl rfl, .inl rfl⟩

theorem ofNumeral_intText {n : Int} (short : shortInt n = true) : ofNumeral floats (intText n) = some (.int n) := by
  have digits := digits_toDigits n.natAbs
  have all : wholeNumeral (Nat.toDigits 10 n.natAbs) = true := by
    simp only [wholeNumeral, List.all_eq_true]
    intro c member
    simp [digits c member]
  have count : (Nat.toDigits 10 n.natAbs).filter Char.isDigit = Nat.toDigits 10 n.natAbs :=
    List.filter_eq_self.mpr digits
  have few : (Nat.toDigits 10 n.natAbs).length ≤ maxDigits := by simpa [shortInt] using short
  have head : (Nat.toDigits 10 n.natAbs).head? ≠ some '-' := by
    intro minus
    exact absurd (digits _ (List.mem_of_mem_head? minus)) (by decide)
  have value : Nat.ofDigitChars 10 (Nat.toDigits 10 n.natAbs) 0 = n.natAbs := Nat.ofDigitChars_ten_toDigits
  unfold intText
  split
  · next negative =>
      have whole : wholeNumeral ('-' :: Nat.toDigits 10 n.natAbs) = true := by
        rw [wholeNumeral, List.all_cons]
        exact Bool.and_eq_true_iff.mpr ⟨rfl, all⟩
      have short : digitCount ('-' :: Nat.toDigits 10 n.natAbs) ≤ maxDigits := by
        rw [digitCount, List.filter_cons_of_neg (by decide), count]
        exact few
      rw [ofNumeral, if_pos whole, if_pos short, intOf, if_pos List.head?_cons, List.drop_succ_cons,
        List.drop_zero, value]
      congr 2
      omega
  · next positive =>
      rw [ofNumeral, if_pos all, if_pos (by rw [digitCount, count]; exact few), intOf, if_neg head, value]
      congr 2
      omega

mutual

/-- What the parser makes of a written value. -/
def tree (floats : Floats) : Value floats.Float → Tree
  | .null => .null
  | .bool value => .bool value
  | .int n => .number (intText n)
  | .float f => .number (floats.repr f)
  | .text text => .text (Utf16.encode text)
  | .array items => .array (treeItems floats items)
  | .object fields => .object ((sorted (treeFields floats fields)).map fun field => (Utf16.encode field.1, field.2))

def treeItems (floats : Floats) : List (Value floats.Float) → List Tree
  | [] => []
  | item :: items => tree floats item :: treeItems floats items

def treeFields (floats : Floats) : List (Text × Value floats.Float) → List (Text × Tree)
  | [] => []
  | (name, value) :: fields => (name, tree floats value) :: treeFields floats fields

end

theorem treeItems_eq (items : List (Value floats.Float)) : treeItems floats items = items.map (tree floats) := by
  induction items with
  | nil => rfl
  | cons item items ih => rw [treeItems, ih, List.map_cons]

theorem treeFields_eq (fields : List (Text × Value floats.Float)) :
    treeFields floats fields = fields.map fun field => (field.1, tree floats field.2) := by
  induction fields with
  | nil => rfl
  | cons field fields ih => rw [treeFields, ih, List.map_cons]

/-- The text in front is read as the tree, whatever follows. -/
def ReadsAs (text : Text) (read : Tree) : Prop := ∀ rest, JsonGrammar.Value (text ++ rest) read rest

theorem items_commas {α : Type u} (write : α → Text) (tree : α → Tree) (items : List α) (some : items ≠ [])
    (each : ∀ item ∈ items, ReadsAs (write item) (tree item)) (rest : Text) :
    Items (commas (items.map write) ++ (']' :: rest)) (items.map tree) rest := by
  induction items with
  | nil => exact absurd rfl some
  | cons item items ih =>
    obtain ⟨first, each⟩ := List.forall_mem_cons.mp each
    cases items with
    | nil =>
      rw [List.map_singleton, List.map_singleton, commas, List.intercalate_singleton]
      exact .last .none (first _) .none
    | cons next items =>
      have later := ih (List.cons_ne_nil next items) each
      simp only [commas, List.map_cons, List.intercalate_cons_cons, List.append_assoc] at later ⊢
      exact .more .none (first _) .none later

theorem members_commas {α : Type u} (name : α → Text) (write : α → Text) (tree : α → Tree)
    (fields : List α) (some : fields ≠ [])
    (each : ∀ field ∈ fields, ReadsAs (write field) (tree field)) (rest : Text) :
    Members (commas (fields.map fun field => fieldText (name field, write field)) ++ ('\x7d' :: rest))
      (fields.map fun field => (Utf16.encode (name field), tree field)) rest := by
  have member : ∀ field ∈ fields, ∀ rest, Member (fieldText (name field, write field) ++ rest)
      (Utf16.encode (name field), tree field) rest := by
    intro field listed rest
    have quoted : fieldText (name field, write field) ++ rest =
        '"' :: ((name field).flatMap Json.escapeChar ++ ('"' :: (':' :: (write field ++ rest)))) := by
      simp [fieldText, Json.quote]
    rw [quoted]
    exact .mk .none (letters_quote _ _) .none .none (each field listed rest)
  induction fields with
  | nil => exact absurd rfl some
  | cons field fields ih =>
    obtain ⟨first, later⟩ := List.forall_mem_cons.mp member
    cases fields with
    | nil =>
      simp only [commas, List.map_singleton, List.intercalate_singleton]
      exact .last (first _) .none
    | cons next fields =>
      have behind := ih (List.cons_ne_nil next fields) (List.forall_mem_cons.mp each).2 later
      simp only [commas, List.map_cons, List.intercalate_cons_cons, List.append_assoc] at behind ⊢
      exact .more (first _) .none behind

theorem readsAs_write (value : Value floats.Float) : ReadsAs (write floats value) (tree floats value) := by
  induction value using every with
  | leaf v notArray notObject =>
    intro rest
    cases v with
    | null => exact .null
    | bool value =>
      cases value with
      | true => exact .true
      | false => exact .false
    | int n => exact .number (numeral_intText n)
    | float f => exact .number (floats.numeral f)
    | text text =>
      rw [write, tree, Json.quote, List.cons_append, List.append_assoc]
      exact .text (letters_quote text rest)
    | array items => exact absurd rfl (notArray items)
    | object fields => exact absurd rfl (notObject fields)
  | inArray items each =>
    intro rest
    rw [write, tree, writeItems_eq, treeItems_eq, List.cons_append, List.append_assoc]
    cases items with
    | nil => exact .noItems .none
    | cons item items => exact .array (items_commas _ _ _ (List.cons_ne_nil item items) each rest)
  | inObject fields each =>
    intro rest
    rw [write, tree, writeFields_eq, treeFields_eq, sorted_map, sorted_map, List.map_map,
      List.map_map, List.cons_append, List.append_assoc]
    cases order : sorted fields with
    | nil => exact .noMembers .none
    | cons field others =>
      have inside : ∀ entry ∈ sorted fields, ReadsAs (write floats entry.2) (tree floats entry.2) :=
        fun entry member =>
        each entry (mem_sorted.mp member)
      rw [order] at inside
      exact .object (members_commas Prod.fst (fun entry => write floats entry.2) _ _
        (List.cons_ne_nil field others) inside rest)

theorem ofItems_map {α : Type u} (tree : α → Tree) (value : α → Value floats.Float) (items : List α)
    (each : ∀ item ∈ items, ofTree floats (tree item) = some (value item)) :
    ofItems floats (items.map tree) = some (items.map value) := by
  induction items with
  | nil => rfl
  | cons item items ih =>
    obtain ⟨first, each⟩ := List.forall_mem_cons.mp each
    rw [List.map_cons, ofItems, first, ih each]
    rfl

theorem ofMembers_map {α : Type u} (name : α → Text) (tree : α → Tree)
    (value : α → Value floats.Float) (fields : List α)
    (each : ∀ field ∈ fields, ofTree floats (tree field) = some (value field)) :
    ofMembers floats (fields.map fun field => (Utf16.encode (name field), tree field)) =
      some (fields.map fun field => (name field, value field)) := by
  induction fields with
  | nil => rfl
  | cons field fields ih =>
    obtain ⟨first, each⟩ := List.forall_mem_cons.mp each
    rw [List.map_cons, ofMembers, decodeUnits_encode, Option.bind_some, first, ih each]
    rfl

variable {value : Value floats.Float}

theorem ofTree_tree (distinct : Distinct value) (good : writable value = true) :
    ofTree floats (tree floats value) = some (normal value) := by
  induction value using every with
  | leaf v notArray notObject =>
    cases v with
    | null => rfl
    | bool value => rfl
    | int n =>
      rw [tree, ofTree]
      exact ofNumeral_intText good
    | float f => simp [tree, ofTree, ofNumeral, floats.fractional, floats.read_repr, normal]
    | text text => simp [tree, ofTree, decodeUnits_encode, normal]
    | array items => exact absurd rfl (notArray items)
    | object fields => exact absurd rfl (notObject fields)
  | inArray items each =>
    rw [Distinct, distinctItems_iff] at distinct
    rw [writable, writableItems_eq, List.all_eq_true] at good
    rw [tree, ofTree, treeItems_eq, ofItems_map _ normal items fun item member =>
      each item member (distinct item member) (good item member),
      normal, normalItems_eq]
    rfl
  | inObject fields each =>
    rw [Distinct, distinctFields_iff] at distinct
    rw [writable, writableFields_eq, List.all_eq_true] at good
    have read : ∀ field ∈ sorted fields, ofTree floats (tree floats field.2) = some (normal field.2) := by
      intro field listed
      have member := mem_sorted.mp listed
      exact each field member (distinct.2 field member) (good field member)
    have names : ((sorted fields).map fun field => (field.1, normal field.2)).map Prod.fst =
        (sorted fields).map Prod.fst := by
      simp [Function.comp_def]
    have once : ((sorted fields).map Prod.fst).Nodup := ((sorted_perm fields).map Prod.fst).nodup_iff.mpr distinct.1
    rw [tree, ofTree, treeFields_eq, sorted_map, List.map_map]
    simp only [Function.comp_def]
    rw [ofMembers_map Prod.fst _ (fun field => normal field.2) _ read, Option.bind_some, names,
      if_pos once, normal, normalFields_eq, sorted_map]

theorem blank_white {white : Text} (blank : ∀ c ∈ white, Json.space c = true) : Blank white [] := by
  induction white with
  | nil => exact .none
  | cons c white ih =>
    obtain ⟨first, blank⟩ := List.forall_mem_cons.mp blank
    exact .more first (ih blank)

/-- Canonical JSON is read as the value that was written. -/
theorem strictJson_write (distinct : Distinct value) (good : writable value = true) {white : Text}
    (blank : ∀ c ∈ white, Json.space c = true) :
    strictJson floats (write floats value ++ white) = some (normal value) := by
  have parsed : JsonGrammar.parse (write floats value ++ white) = some (tree floats value) :=
    JsonGrammar.parse_iff.mpr ⟨_, white, .none, readsAs_write value white, blank_white blank⟩
  rw [strictJson, parsed, Option.bind_some, ofTree_tree distinct good]

theorem normal_of_write {value other : Value floats.Float} (distinct : Distinct value) (distinct' : Distinct other)
    (good : writable value = true) (good' : writable other = true)
    (same : write floats value = write floats other) : normal value = normal other := by
  have left : strictJson floats (write floats value ++ []) = _ := strictJson_write distinct good (by simp)
  have right : strictJson floats (write floats other ++ []) = _ := strictJson_write distinct' good' (by simp)
  rw [same, right, Option.some.injEq] at left
  exact left.symm

mutual

theorem distinct_of_ofTree :
    ∀ (read : Tree) {value : Value floats.Float}, ofTree floats read = some value → Distinct value
  | .null, _, found => by
    cases found
    trivial
  | .bool _, _, found => by
    cases found
    trivial
  | .number numeral, _, found => by
    simp only [ofTree, ofNumeral] at found
    split at found
    · rw [Option.ite_none_right_eq_some, Option.some.injEq] at found
      rw [← found.2]
      trivial
    · obtain ⟨f, -, rfl⟩ := Option.map_eq_some_iff.mp found
      trivial
  | .text units, _, found => by
    obtain ⟨text, -, rfl⟩ := Option.map_eq_some_iff.mp found
    trivial
  | .array items, _, found => by
    obtain ⟨values, read, rfl⟩ := Option.map_eq_some_iff.mp found
    exact distinctItems_iff.mpr (distinct_of_ofItems items read)
  | .object members, _, found => by
    obtain ⟨fields, read, once⟩ := Option.bind_eq_some_iff.mp found
    rw [Option.ite_none_right_eq_some, Option.some.injEq] at once
    rw [← once.2]
    exact ⟨once.1, distinctFields_iff.mpr (distinct_of_ofMembers members read)⟩

theorem distinct_of_ofItems : ∀ (items : List Tree) {values : List (Value floats.Float)},
    ofItems floats items = some values →
    ∀ value ∈ values, Distinct value
  | [], _, found => by
    cases found
    simp
  | item :: items, _, found => by
    obtain ⟨first, read, rest⟩ := Option.bind_eq_some_iff.mp found
    obtain ⟨values, others, rfl⟩ := Option.map_eq_some_iff.mp rest
    exact List.forall_mem_cons.mpr ⟨distinct_of_ofTree item read, distinct_of_ofItems items others⟩

theorem distinct_of_ofMembers :
    ∀ (members : List (Units × Tree)) {fields : List (Text × Value floats.Float)},
    ofMembers floats members = some fields →
    ∀ field ∈ fields, Distinct field.2
  | [], _, found => by
    cases found
    simp
  | (name, item) :: members, _, found => by
    obtain ⟨text, -, rest⟩ := Option.bind_eq_some_iff.mp found
    obtain ⟨first, read, rest⟩ := Option.bind_eq_some_iff.mp rest
    obtain ⟨fields, others, rfl⟩ := Option.map_eq_some_iff.mp rest
    exact List.forall_mem_cons.mpr ⟨distinct_of_ofTree item read, distinct_of_ofMembers members others⟩

end

theorem distinct_of_strictJson {text : Text} (found : strictJson floats text = some value) : Distinct value := by
  obtain ⟨read, -, found⟩ := Option.bind_eq_some_iff.mp found
  exact distinct_of_ofTree read found

theorem sorted_sorted {α : Type u} (fields : List (Text × α)) : sorted (sorted fields) = sorted fields :=
  List.Pairwise.insertionSort_eq (List.pairwise_insertionSort _ _)

theorem write_normal (value : Value floats.Float) : write floats (normal value) = write floats value := by
  induction value using every with
  | leaf v notArray notObject =>
    cases v with
    | array items => exact absurd rfl (notArray items)
    | object fields => exact absurd rfl (notObject fields)
    | _ => rfl
  | inArray items each =>
    have same : items.map (write floats ∘ normal) = items.map (write floats) := List.map_congr_left each
    rw [normal, write, write, normalItems_eq, writeItems_eq, writeItems_eq, List.map_map, same]
  | inObject fields each =>
    have same : (fields.map fun field => (field.1, write floats (normal field.2))) =
        fields.map fun field => (field.1, write floats field.2) :=
      List.map_congr_left fun field member => by rw [each field member]
    rw [normal, write, write, normalFields_eq, sorted_map, writeFields_eq, writeFields_eq, List.map_map]
    simp only [Function.comp_def]
    rw [← sorted_map fun value => write floats (normal value), same, sorted_sorted]

/-- Fields in another order are another spelling of the same object. -/
theorem write_perm {fields others : List (Text × Value floats.Float)} (perm : fields.Perm others)
    (once : (fields.map Prod.fst).Nodup) :
    write floats (.object fields) = write floats (.object others) := by
  have names : ((fields.map fun field => (field.1, write floats field.2)).map Prod.fst).Nodup :=
    by simpa [Function.comp_def] using once
  rw [write, write, writeFields_eq, writeFields_eq, sorted_eq (perm.map _) names]

end ProxyPilot.Data.Canonical
