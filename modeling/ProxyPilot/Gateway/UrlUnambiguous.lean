import ProxyPilot.Gateway.UrlReread

namespace ProxyPilot.Gateway.Url

open Data UrlSplit

section Unambiguous

variable {unicode : Unicode} {value : Text} {originOnly : Bool} {parts : UrlParts} {split : Split} {wire : Text}

def afterScheme (value : Text) : Text := (value.dropWhile (· != ':')).drop 3

/-- What follows the authority. -/
def tailOf (value : Text) : Text := (afterScheme value).dropWhile authorityChar

def netlocOf (value : Text) : Text := (afterScheme value).takeWhile authorityChar

/-- Of full length, without a path for which the slash is put in, and nothing is left out. -/
def Overlong (value : Text) : Prop :=
  value.length = 2048 ∧ '#' ∉ value ∧ (tailOf value).head? ≠ some '/' ∧ tailOf value ≠ ['?']

/-- The last label is the hexadecimal number without a digit. -/
def Shorthand (value : Text) : Prop := lastLabel (hostinfo (netlocOf value)).1 = ['0', 'x']

variable {queryPart fragmentPart : Text} {c : Char} {a b : Char}

theorem afterScheme_shape (shape : Shape unicode value parts split queryPart fragmentPart) :
    tailOf value = split.path ++ (queryPart ++ fragmentPart) ∧ netlocOf value = split.netloc := by
  have colon := passes_of_free shape.wellFormed.scheme.free
  have after : afterScheme value = split.netloc ++ (split.path ++ (queryPart ++ fragmentPart)) := by
    rw [afterScheme, shape.value, shape.origin, originText_append, dropWhile_run colon (stops_cons.mpr (by simp))]
    rfl
  have stops := stops_tail shape.wellFormed shape.query shape.fragment
  rw [tailOf, netlocOf, after]
  exact ⟨dropWhile_run shape.wellFormed.netloc stops, takeWhile_run shape.wellFormed.netloc stops⟩

theorem hash_shape (known : split.scheme ∈ [http, https])
    (shape : Shape unicode value parts split queryPart fragmentPart) : '#' ∉ value ↔ fragmentPart = [] := by
  constructor
  · intro free
    rcases shape.fragment with ⟨empty, -⟩ | marked
    · exact empty
    · exact absurd (by rw [shape.value, marked]; simp) free
  · intro empty
    have scheme : '#' ∉ split.scheme := by
      rcases List.mem_pair.mp known with same | same <;> (rw [same]; decide)
    have netloc : '#' ∉ split.netloc := fun member => absurd (shape.wellFormed.netloc _ member) (by decide)
    have query : '#' ∉ queryPart := by
      rcases shape.query with ⟨empty, -⟩ | marked
      · simp [empty]
      · rw [marked]
        simp [shape.wellFormed.queryFragment]
    rw [shape.value, shape.origin, originText, empty]
    simp [scheme, netloc, query, shape.wellFormed.pathFragment]

theorem length_url (accepted : Accepted unicode value originOnly parts split) :
    parts.url.length ≤ 2048 ↔ ¬Overlong value := by
  obtain ⟨wire, placed⟩ := placed_of_authority accepted.authority
  obtain ⟨queryPart, fragmentPart, shape⟩ := shape_of_accepted accepted
  have short := (urlText_eq_true.mp accepted.text).high
  have whole := congrArg List.length shape.value
  have url := congrArg List.length (url_of_accepted accepted)
  simp only [List.length_append] at whole url
  rw [Overlong, hash_shape placed.known shape, (afterScheme_shape shape).1]
  have query : (wireQuery split.query).length ≤ queryPart.length ∧
      (queryPart = ['?'] → (wireQuery split.query).length = 0) ∧
        (queryPart ≠ ['?'] → (wireQuery split.query).length = queryPart.length) := by
    rcases shape.query with ⟨empty, none⟩ | marked
    · simp [empty, none, wireQuery]
    · rw [marked]
      cases split.query <;> simp [wireQuery]
  cases path : split.path with
  | nil =>
    have one : (orSlash split.path).length = 1 := by rw [path]; rfl
    rw [path, List.length_nil] at whole
    by_cases bare : queryPart = ['?']
    · have none := query.2.1 bare
      rw [bare] at whole ⊢
      simp only [List.length_cons, List.length_nil] at whole
      constructor
      · rintro - ⟨-, empty, -, other⟩
        simp [empty] at other
      · intro
        omega
    · have same := query.2.2 bare
      constructor
      · rintro le ⟨full, empty, -⟩
        rw [empty, List.length_nil] at whole
        omega
      · intro fine
        by_contra long
        have empty : fragmentPart = [] := List.length_eq_zero_iff.mp (by omega)
        refine fine ⟨by omega, empty, ?_, ?_⟩
        · rcases shape.query with ⟨nothing, -⟩ | marked
          · simp [nothing, empty]
          · simp [marked]
        · simpa [empty] using bare
  | cons c rest =>
    have slash : c = '/' := by simpa [path] using shape.wellFormed.path
    have length : (orSlash split.path).length = split.path.length := by rw [path]; rfl
    constructor
    · rintro - ⟨-, -, other, -⟩
      simp [slash] at other
    · intro
      rw [length] at url
      omega

section Authorities

variable {scheme netloc : Text} {place : Authority} (placed : Placed unicode scheme netloc place wire)

include placed

theorem ascii_netloc : Percent.Ascii netloc := by
  have plain : '%' ∉ wire := fun member => placed.percent (by
    rw [placed.written, authorityText]
    exact List.mem_append_left _ member)
  rw [placed.written, authorityText]
  apply Percent.ascii_append.mpr
  refine ⟨ascii_wire placed.wired plain, ?_⟩
  split
  · apply Percent.ascii_cons.mpr
    exact ⟨by decide, fun c member => Percent.hexChar_ascii (IpAddress.hexDigit_toDigits (by decide)
      (by decide) _ c member)⟩
  · exact fun c member => by cases member

theorem lower_netloc : ∀ c ∈ netloc, c.toLower = c := by
  have same := placed.lower
  rw [unicode.lower_ascii netloc (ascii_netloc placed)] at same
  have fixed : netloc.map Char.toLower = netloc.map id := by rw [← same, List.map_id]
  exact List.map_inj_left.mp fixed

/-- The host of the result stands in the value. -/
theorem host_of_placed : place.host = (hostinfo netloc).1 := by
  have inside : ∀ c ∈ (hostinfo netloc).1, c ∈ netloc := fun c member => mem_of_mem_hostinfo member
  have free : '%' ∉ (hostinfo netloc).1 := fun member => placed.percent (inside _ member)
  have parts := cut_free free
  have whole := List.takeWhile_append_dropWhile (p := (· != '%')) (l := (hostinfo netloc).1)
  have taken : (hostinfo netloc).1.takeWhile (· != '%') = (hostinfo netloc).1 := congrArg Prod.fst parts
  have dropped : (hostinfo netloc).1.dropWhile (· != '%') = [] := by
    rw [taken] at whole
    exact List.append_right_eq_self.mp whole
  have small : Percent.Ascii (hostinfo netloc).1 := fun c member => ascii_netloc placed c (inside c member)
  have fixed : (hostinfo netloc).1.map Char.toLower = (hostinfo netloc).1.map id :=
    List.map_inj_left.mpr fun c member => lower_netloc placed c (inside c member)
  rw [placed.host, hostname, taken, dropped, List.append_nil, unicode.lower_ascii _ small, fixed, List.map_id]

end Authorities

/-- A host that is written as an address, or a name that no browser reads as a number. -/
def Definite (host : Text) : Prop :=
  IpAddress.Canonical host ∨ hostName host = true ∧ HostNames.endsInNumber host = false

theorem definite_iff {host : Text} (wired : hostWire host = some wire) (plain : '%' ∉ host) :
    Definite host ↔ lastLabel host ≠ ['0', 'x'] := by
  rcases hostWire_cases wired with ⟨address, read, written, -⟩ | ⟨unread, named, numeric, -⟩
  · exact iff_of_true (.inl ⟨address, read, written⟩) (lastLabel_address plain written)
  · have number := endsInNumber_name named numeric
    constructor
    · rintro (⟨address, read, -⟩ | ⟨-, clear⟩)
      · rw [unread] at read
        cases read
      · rw [Ne, ← number, clear]
        exact Bool.false_ne_true
    · intro long
      exact .inr ⟨named, Bool.eq_false_iff.mpr fun ends => long (number.mp ends)⟩

theorem hexValue_spec (digit : hexChar c = true) :
    Percent.hexValue c < 16 ∧ (Percent.hexValue c = 2 → c.toLower = '2') ∧
      (Percent.hexValue c = 5 → c.toLower = '5') ∧
      (Percent.hexValue c = 15 → c.toLower = 'f') := by
  have all : ∀ n < 0x80, hexChar (Char.ofNat n) = true →
      Percent.hexValue (Char.ofNat n) < 16 ∧ (Percent.hexValue (Char.ofNat n) = 2 → (Char.ofNat n).toLower = '2') ∧
        (Percent.hexValue (Char.ofNat n) = 5 → (Char.ofNat n).toLower = '5') ∧
        (Percent.hexValue (Char.ofNat n) = 15 → (Char.ofNat n).toLower = 'f') := by decide
  have found := all c.toNat (Percent.hexChar_ascii digit)
  rw [Char.ofNat_toNat] at found
  exact found digit

theorem hiddenEscape_cons {text : Text} (hidden : hiddenEscape text = true) : hiddenEscape (c :: text) = true := by
  match text with
  | [] => cases hidden
  | [_] => cases hidden
  | a :: b :: rest =>
    rw [hiddenEscape, hidden, Bool.or_true]

theorem hiddenEscape_append (listed : [a.toLower, b.toLower] = ['2', '5'] ∨
    [a.toLower, b.toLower] = ['2', 'f']) (front back : Text) :
    hiddenEscape (front ++ '%' :: a :: b :: back) = true := by
  induction front with
  | nil =>
    rw [List.nil_append, hiddenEscape]
    rcases listed with same | same <;> (rw [same]; rfl)
  | cons c front ih => exact hiddenEscape_cons ih

theorem escape_listed {n : Nat} (left : hexChar a = true) (right : hexChar b = true)
    (which : n = 0x25 ∨ n = 0x2f)
    (value : UInt8.ofNat (Percent.hexValue a * 16 + Percent.hexValue b) = UInt8.ofNat n) :
    [a.toLower, b.toLower] = ['2', '5'] ∨ [a.toLower, b.toLower] = ['2', 'f'] := by
  have first := hexValue_spec left
  have second := hexValue_spec right
  have number := congrArg UInt8.toNat value
  rw [UInt8.toNat_ofNat_of_lt' (by simp only [UInt8.size]; omega),
    UInt8.toNat_ofNat_of_lt' (by simp only [UInt8.size]; omega)] at number
  rcases which with rfl | rfl
  · exact .inl (by rw [first.2.1 (by omega), second.2.2.1 (by omega)])
  · exact .inr (by rw [first.2.1 (by omega), second.2.2.2 (by omega)])

theorem percent_free {path decoded : Text} (escaped : Percent.Escaped path)
    (ascii : Percent.Ascii path) (plain : hiddenEscape path = false)
    (read : Percent.unquoteBytes path = Utf8.encode decoded) : '%' ∉ decoded := by
  intro member
  have byte : UInt8.ofNat 0x25 ∈ Percent.unquoteBytes path := by
    rw [read]
    exact List.mem_flatMap.mpr ⟨'%', member, by decide⟩
  rcases Percent.byte_of_mem escaped ascii (by decide) byte
    with ⟨c, -, other, code⟩ | ⟨front, a, b, back, whole, left, right, value⟩
  · exact other (Char.toNat_inj.mp code)
  · rw [whole, hiddenEscape_append (escape_listed left right (.inl rfl) value)] at plain
    cases plain

theorem slash_free {path rest : Text} (escaped : Percent.Escaped path) (ascii : Percent.Ascii path)
    (plain : hiddenEscape path = false)
    (head : path.head? ≠ some '/') (read : Percent.unquoteBytes path = Utf8.encode rest) :
    rest.head? ≠ some '/' := by
  intro slash
  obtain ⟨more, rfl⟩ : ∃ more, rest = '/' :: more := by
    cases rest with
    | nil => cases slash
    | cons c more => exact ⟨more, by rw [Option.some.inj slash]⟩
  rw [Utf8.encode_cons] at read
  cases escaped with
  | nil => cases read
  | @plain c tail other tailEscaped =>
    rw [Percent.unquoteBytes_cons other] at read
    have small := ascii c List.mem_cons_self
    have code := congrArg UInt8.toNat (List.cons.inj read).1
    rw [UInt8.toNat_ofNat_of_lt' (by simp only [UInt8.size]; omega)] at code
    have same : c = '/' := Char.toNat_inj.mp code
    exact head (by rw [same]; rfl)
  | @escape a b tail left right tailEscaped =>
    rw [Percent.unquoteBytes_escape left right] at read
    have hidden :=
      hiddenEscape_append (escape_listed (n := 0x2f) left right (.inr rfl) (List.cons.inj read).1) [] tail
    rw [List.nil_append] at hidden
    rw [hidden] at plain
    cases plain

/-- A path that was read begins with its only slash, and nothing is left to decode. -/
theorem path_clean {path query decoded target : Text} (found : PathRead path query decoded target)
    (escapes : Percent.badEscape path = false) :
    (∃ rest, decoded = '/' :: rest ∧ rest.head? ≠ some '/') ∧ Percent.unquote decoded = some decoded := by
  have ascii := (Percent.ascii_append.mp found.ascii).1
  have bytes := (Percent.unquote_eq_some ascii).mp found.read
  have escaped := Percent.escaped_of_badEscape escapes
  have free := percent_free escaped ascii found.plain bytes
  refine ⟨?_, if_neg free⟩
  obtain ⟨rest, rfl⟩ : ∃ rest, path = '/' :: rest := by
    cases path with
    | nil => cases found.slash
    | cons c rest => exact ⟨rest, by rw [Option.some.inj found.slash]⟩
  have head : rest.head? ≠ some '/' := by
    intro slash
    cases rest with
    | nil => cases slash
    | cons c more => exact found.single (by simp [Option.some.inj slash])
  have plain : hiddenEscape rest = false := by
    cases hidden : hiddenEscape rest with
    | false => rfl
    | true => rw [← hiddenEscape_cons hidden]; exact found.plain
  simp only [Percent.badEscape, show ('/' == '%') = false from rfl, Bool.false_and, Bool.false_or] at escapes
  rw [Percent.unquoteBytes_cons (by decide)] at bytes
  have decoded_eq : decoded = '/' :: Utf8.decode (Percent.unquoteBytes rest) := by
    rw [← Utf8.decode_encode decoded, ← bytes]
    exact Utf8.decode_ascii (by decide) _
  refine ⟨_, decoded_eq, ?_⟩
  rw [decoded_eq, Utf8.encode_cons] at bytes
  exact slash_free (Percent.escaped_of_badEscape escapes) (Percent.ascii_cons.mp ascii).2 plain head
    (List.cons.inj bytes).2

/-- What a reader of an accepted URL may rely on. -/
structure Unambiguous (unicode : Unicode) (value : Text) (parts : UrlParts) : Prop where
  reread : urlParts unicode parts.url false = .ok parts
  /-- Only the fragment is lost; an empty path is written as a slash, and the mark of an empty query goes. -/
  lost : ∃ path query fragment, value = parts.origin ++ (path ++ (query ++ fragment)) ∧
    (fragment = [] ∨ fragment.head? = some '#') ∧
    parts.url = parts.origin ++ (orSlash path ++ if query = ['?'] then [] else query)
  spelled : ∃ again, urlParts unicode parts.origin true = .ok again ∧ again.origin = parts.origin ∧
    again.scheme = parts.scheme ∧
    again.host = parts.host ∧ again.port = parts.port
  only : ∀ other again, urlParts unicode other true = .ok again → again.scheme = parts.scheme →
    again.host = parts.host →
    again.port = parts.port → other = parts.origin
  written : ∃ netloc, parts.origin = originText parts.scheme netloc ∧ parts.url = parts.origin ++ parts.target ∧
    parts.target.head? = some '/' ∧ ∀ c ∈ netloc, c.toLower = c ∧ c ≠ '@'
  chars : ∀ c ∈ parts.url, c.toNat < 0x80 ∧ c ≠ '\\' ∧ controlChar c = false
  host : Definite parts.host
  path : ∃ rest, parts.path = '/' :: rest ∧ rest.head? ≠ some '/'
  segments : ['.'] ∉ parts.path.splitOn '/' ∧ ['.', '.'] ∉ parts.path.splitOn '/'
  decoded : Percent.unquote parts.path = some parts.path

theorem origin_of_accepted (accepted : Accepted unicode value originOnly parts split) :
    ∃ wire, hostWire parts.host = some wire ∧
      parts.origin = originText parts.scheme (authorityText parts.scheme wire parts.port) := by
  obtain ⟨wire, placed⟩ := placed_of_authority accepted.authority
  have origin : parts.origin = originText split.scheme split.netloc := placed.origin
  exact ⟨wire, placed.wired, by rw [origin, placed.written, accepted.scheme]⟩

/-- Scheme, host and port have one origin. -/
theorem origin_unique {other : Text} {again : UrlParts} {only : Bool} {found : Split}
    (accepted : Accepted unicode value originOnly parts split)
    (accepted' : Accepted unicode other only again found) (scheme : again.scheme = parts.scheme)
    (host : again.host = parts.host)
    (port : again.port = parts.port) : again.origin = parts.origin := by
  obtain ⟨wire, wired, origin⟩ := origin_of_accepted accepted
  obtain ⟨wire', wired', origin'⟩ := origin_of_accepted accepted'
  rw [host, wired] at wired'
  rw [origin', origin, scheme, port, Option.some.inj wired']

theorem textOk_origin (accepted : Accepted unicode value originOnly parts split) : TextOk parts.origin := by
  obtain ⟨wire, placed⟩ := placed_of_authority accepted.authority
  obtain ⟨queryPart, fragmentPart, shape⟩ := shape_of_accepted accepted
  have text := urlText_eq_true.mp accepted.text
  have length := congrArg List.length shape.value
  rw [List.length_append] at length
  have high := text.high
  refine ⟨?_, by omega, fun c member => text.chars c (by rw [shape.value]; exact List.mem_append_left _ member), ?_⟩
  · have scheme : 4 ≤ split.scheme.length := by
      rcases List.mem_pair.mp placed.known with same | same <;> (rw [same]; decide)
    have netloc : split.netloc ≠ [] := by
      intro empty
      have written := placed.written
      rw [empty, authorityText] at written
      obtain ⟨c, member⟩ := List.exists_mem_of_ne_nil _ placed.filled
      have inside := mem_wire placed.wired member
      rw [(List.append_eq_nil_iff.mp written.symm).1] at inside
      cases inside
    have some := List.length_pos_iff.mpr netloc
    rw [shape.origin, originText, List.length_append, List.length_cons, List.length_cons, List.length_cons]
    omega
  · have free := Percent.badEscape_append_free (free_origin placed) []
    rw [List.append_nil] at free
    rw [free]
    rfl

theorem urlParts_origin (accepted : Accepted unicode value originOnly parts split) :
    ∃ again, urlParts unicode parts.origin true = .ok again ∧ again.origin = parts.origin ∧
      again.scheme = parts.scheme ∧
      again.host = parts.host ∧ again.port = parts.port := by
  obtain ⟨queryPart, fragmentPart, shape⟩ := shape_of_accepted accepted
  have wellFormed : (⟨split.scheme, split.netloc, [], [], []⟩ : Split).WellFormed unicode :=
    ⟨shape.wellFormed.scheme, shape.wellFormed.netloc, shape.wellFormed.checked, .inl rfl,
      by simp, by simp, by simp⟩
  have slash : pathTarget (orSlash []) [] = .ok (['/'], ['/']) := by decide
  have again :=
    @accepted_of_spelling _ true _ _ _ _ _ _ _ wellFormed (.inl ⟨rfl, rfl⟩) (.inl ⟨rfl, rfl⟩)
    (textOk_origin accepted)
    (by rw [spelling_eq, shape.origin]; simp) accepted.authority (fun _ => rfl) slash
  exact ⟨_, again, rfl, accepted.scheme.symm, rfl, rfl⟩

theorem char_of_url (accepted : Accepted unicode value originOnly parts split) (member : c ∈ parts.url) :
    c.toNat < 0x80 ∧ c ≠ '\\' ∧ controlChar c = false := by
  obtain ⟨wire, placed⟩ := placed_of_authority accepted.authority
  obtain ⟨queryPart, fragmentPart, shape⟩ := shape_of_accepted accepted
  have text := urlText_eq_true.mp accepted.text
  have good : urlChar c = true := by
    rw [url_of_accepted accepted] at member
    rcases List.mem_append.mp member with front | back
    · exact text.chars c (by rw [shape.value]; exact List.mem_append_left _ front)
    · rcases mem_wire_of_parts shape.query back with rfl | inside
      · rfl
      · refine text.chars c ?_
        rw [shape.value, ← List.append_assoc split.path]
        exact List.mem_append_right _ (List.mem_append_left _ inside)
  have ascii : c.toNat < 0x80 := by
    rw [url_of_accepted accepted, shape.origin, originText_append] at member
    rcases List.mem_append.mp member with front | back
    · exact ascii_scheme placed.known c front
    · simp only [List.mem_cons, List.mem_append] at back
      rcases back with rfl | rfl | rfl | front | back
      · decide
      · decide
      · decide
      · exact ascii_netloc placed c front
      · exact (path_of_accepted accepted).ascii c (List.mem_append.mpr back)
  simp only [urlChar, Bool.and_eq_true, bne_iff_ne, Bool.not_eq_true'] at good
  exact ⟨ascii, good.1.2, good.2⟩

theorem badEscape_path (accepted : Accepted unicode value originOnly parts split) :
    Percent.badEscape (orSlash split.path) = false := by
  obtain ⟨wire, placed⟩ := placed_of_authority accepted.authority
  obtain ⟨queryPart, fragmentPart, shape⟩ := shape_of_accepted accepted
  have escapes := (urlText_eq_true.mp accepted.text).escapes
  rw [shape.value, Percent.badEscape_append_free (free_origin placed), ← List.append_assoc] at escapes
  have path := (badEscape_front (by decide) shape.query (badEscape_front (by decide) shape.fragment escapes).1).1
  unfold orSlash
  split
  · rfl
  · exact path

/-- All that holds of every accepted URL, beside the two conditions. -/
theorem unambiguous_of (accepted : Accepted unicode value false parts split)
    (reread : urlParts unicode parts.url false = .ok parts) (host : Definite parts.host) :
    Unambiguous unicode value parts := by
  obtain ⟨wire, placed⟩ := placed_of_authority accepted.authority
  obtain ⟨queryPart, fragmentPart, shape⟩ := shape_of_accepted accepted
  have path := path_of_accepted accepted
  obtain ⟨single, decoded⟩ := path_clean path (badEscape_path accepted)
  have segment : ∀ segment ∈ parts.path.splitOn '/', dotSegment segment = false := by simpa using path.segments
  refine ⟨reread, ⟨split.path, queryPart, fragmentPart, shape.value, ?_, ?_⟩, urlParts_origin accepted, ?_,
    ⟨split.netloc, ?_, accepted.url, ?_, ?_⟩, fun c member => char_of_url accepted member, host,
      single, ⟨?_, ?_⟩, decoded⟩
  · rcases shape.fragment with ⟨empty, -⟩ | marked
    · exact .inl empty
    · exact .inr (by rw [marked]; rfl)
  · rw [url_of_accepted accepted]
    rcases shape.query with ⟨empty, none⟩ | marked
    · simp [empty, none, wireQuery]
    · rw [marked]
      cases split.query <;> simp [wireQuery]
  · intro other again read scheme host port
    obtain ⟨found, accepted'⟩ := urlParts_eq_ok.mp read
    rw [accepted'.only rfl, origin_unique accepted accepted' scheme host port]
  · rw [shape.origin, accepted.scheme]
  · rw [path.target, List.head?_append, path.slash]
    rfl
  · intro c member
    exact ⟨lower_netloc placed c member, fun same => placed.user (same ▸ member)⟩
  · exact fun member => absurd (segment _ member) (by decide)
  · exact fun member => absurd (segment _ member) (by decide)

theorem host_of_accepted (accepted : Accepted unicode value originOnly parts split) :
    (Shorthand value ↔ lastLabel parts.host = ['0', 'x']) ∧ '%' ∉ parts.host := by
  obtain ⟨wire, placed⟩ := placed_of_authority accepted.authority
  obtain ⟨queryPart, fragmentPart, shape⟩ := shape_of_accepted accepted
  have host : parts.host = (hostinfo split.netloc).1 := host_of_placed placed
  rw [Shorthand, (afterScheme_shape shape).2, host]
  exact ⟨Iff.rfl, fun member => placed.percent (mem_of_mem_hostinfo member)⟩

/-- An accepted URL is unambiguous unless it is a slash too long or its last label is the bare hexadecimal
mark; two accepted URLs of different origins never name one machine, port and scheme. -/
theorem url_parts_unambiguous (unicode : Unicode) :
    (∀ value parts, urlParts unicode value false = .ok parts →
      (Unambiguous unicode value parts ↔ ¬Overlong value ∧ ¬Shorthand value)) ∧
      ∀ value parts other others, urlParts unicode value false = .ok parts →
        urlParts unicode other false = .ok others →
        ¬Shorthand value → ¬Shorthand other → parts.scheme = others.scheme → parts.port = others.port →
        HostNames.machine parts.host = HostNames.machine others.host → parts.origin = others.origin := by
  constructor
  · intro value parts read
    obtain ⟨split, accepted⟩ := urlParts_eq_ok.mp read
    obtain ⟨wire, wired, -⟩ := origin_of_accepted accepted
    obtain ⟨short, plain⟩ := host_of_accepted accepted
    have definite := definite_iff wired plain
    have fits := (urlParts_url accepted).trans (length_url accepted)
    rw [Ne, ← short] at definite
    constructor
    · intro clear
      exact ⟨fits.mp clear.reread, definite.mp clear.host⟩
    · intro ⟨fit, long⟩
      exact unambiguous_of accepted (fits.mpr fit) (definite.mpr long)
  · intro value parts other others read read' long long' scheme port same
    obtain ⟨split, accepted⟩ := urlParts_eq_ok.mp read
    obtain ⟨found, accepted'⟩ := urlParts_eq_ok.mp read'
    obtain ⟨wire, wired, -⟩ := origin_of_accepted accepted
    obtain ⟨wire', wired', -⟩ := origin_of_accepted accepted'
    obtain ⟨short, plain⟩ := host_of_accepted accepted
    obtain ⟨short', plain'⟩ := host_of_accepted accepted'
    rw [short] at long
    rw [short'] at long'
    exact origin_unique accepted' accepted scheme (machine_injective wired wired' plain plain' long long' same) port

/-- A Python that knows the ASCII letters. -/
def asciiUnicode : Unicode := ⟨(·.map Char.toLower), fun _ _ => rfl, id⟩

def portal : Text := "http://portal:8080/a".toList

def portalParts : UrlParts :=
  ⟨"http://portal:8080".toList, "portal".toList, 8080, http, "/a".toList, [], "/a".toList, portal⟩

theorem url_parts_unambiguous_portal :
    urlParts asciiUnicode portal false = .ok portalParts ∧
      Unambiguous asciiUnicode portal portalParts ∧ portalParts.origin = portalParts.origin := by
  have read : urlParts asciiUnicode portal false = .ok portalParts := by decide +kernel
  have fit : ¬Overlong portal := by unfold Overlong; decide
  have long : ¬Shorthand portal := by unfold Shorthand; decide
  exact ⟨read, ((url_parts_unambiguous asciiUnicode).1 portal portalParts read).mpr ⟨fit, long⟩,
    (url_parts_unambiguous asciiUnicode).2 portal portalParts portal portalParts read read long long rfl rfl rfl⟩

def zero : Text := "http://0x/".toList

def zeroAddress : Text := "http://0.0.0.0/".toList

def fullLength : Text := "http://".toList ++ List.replicate 2041 'a'

/-- The bare hexadecimal mark is a second spelling of the address of zeros, and a host of full length leaves
no room for the slash. -/
theorem url_parts_shorthand :
    (∃ parts others, urlParts asciiUnicode zero false = .ok parts ∧
      urlParts asciiUnicode zeroAddress false = .ok others ∧
      parts.origin ≠ others.origin ∧ parts.scheme = others.scheme ∧ parts.port = others.port ∧
      HostNames.machine parts.host = HostNames.machine others.host ∧ ¬Unambiguous asciiUnicode zero parts) ∧
      (urlParts asciiUnicode fullLength false).map
        (fun parts => (urlParts asciiUnicode parts.url false).isOk) = .ok false := by
  refine ⟨⟨⟨"http://0x".toList, "0x".toList, 80, http, ['/'], [], ['/'], zero⟩,
    ⟨"http://0.0.0.0".toList, "0.0.0.0".toList, 80, http, ['/'], [], ['/'], zeroAddress⟩,
      by decide +kernel, by decide +kernel,
    by decide, rfl, rfl, by decide, ?_⟩, by decide +kernel⟩
  intro clear
  rcases clear.host with ⟨address, read, -⟩ | ⟨-, number⟩
  · exact absurd (show IpAddress.ipAddress "0x".toList = none by decide) (by rw [read]; exact Option.some_ne_none _)
  · exact absurd number (by decide)

end Unambiguous

end ProxyPilot.Gateway.Url
