import ProxyPilot.Data.IpAddress
import ProxyPilot.Data.Text

namespace ProxyPilot.Data.UrlSplit

/-! # Splitting a URL

`urlsplit` of Python's `urllib.parse` (3.12) and what its result says about host and port.
-/

abbrev Text := List Char

/-- `str.lower` and the normal form NFKC, of which only the ASCII part is fixed. -/
structure Unicode where
  lower : Text → Text
  lower_ascii : ∀ text, Percent.Ascii text → lower text = text.map Char.toLower
  nfkc : Text → Text

structure Split where
  scheme : Text
  netloc : Text
  path : Text
  query : Text
  fragment : Text

/-- `text.partition(mark)` without the mark -/
def cut (mark : Char) (text : Text) : Text × Text :=
  (text.takeWhile (· != mark), (text.dropWhile (· != mark)).drop 1)

/-- `text.rpartition(mark)[2]` -/
def afterLast (mark : Char) (text : Text) : Text := (text.reverse.takeWhile (· != mark)).reverse

def schemeChar (c : Char) : Bool := letterChar c || c.isDigit || ['+', '-', '.'].contains c

def c0OrSpace (c : Char) : Bool := c.toNat ≤ 0x20

def unsafeByte (c : Char) : Bool := ['\t', '\r', '\n'].contains c

/-- The scheme in lower case, and what follows its colon. -/
def takeScheme (url : Text) : Text × Text :=
  let scheme := url.takeWhile (· != ':')
  if ':' ∈ url ∧ scheme.head?.any letterChar = true ∧ scheme.all schemeChar = true then
    (scheme.map Char.toLower, (url.dropWhile (· != ':')).drop 1)
  else ([], url)

/-- No character that ends the authority. -/
def authorityChar (c : Char) : Bool := !(['/', '?', '#'].contains c)

def splitNetloc (url : Text) : Text × Text := (url.takeWhile authorityChar, url.dropWhile authorityChar)

/-- `re.match(r"\Av[a-fA-F0-9]+\..+\Z", hostname)` -/
def futureAddress (hostname : Text) : Bool :=
  let version := (hostname.drop 1).takeWhile hexChar
  let rest := (hostname.drop 1).dropWhile hexChar
  hostname.head? == some 'v' && version != [] && rest.head? == some '.' && 1 < rest.length

def bracketedHost (hostname : Text) : Bool :=
  if hostname.head? = some 'v' then futureAddress hostname
  else match IpAddress.ipAddress hostname with
    | some (.v6 _ _) => true
    | _ => false

/-- `_check_bracketed_netloc`, and the two brackets come together. -/
def bracketsOk (netloc : Text) : Bool :=
  if '[' ∈ netloc ∧ ']' ∈ netloc then
    let hostinfo := afterLast '@' netloc
    if '[' ∈ hostinfo then
      let bracketed := (cut '[' hostinfo).2
      let port := (cut ']' bracketed).2
      (cut '[' hostinfo).1 == [] && (port == [] || port.head? == some ':') && bracketedHost (cut ']' bracketed).1
    else bracketedHost (cut ':' hostinfo).1
  else '[' ∉ netloc ∧ ']' ∉ netloc

/-- `_checknetloc`: no character of another spelling that would end the authority. -/
def netlocOk (unicode : Unicode) (netloc : Text) : Bool :=
  let plain := netloc.filter fun c => !(['@', ':', '#', '?'].contains c)
  let normal := unicode.nfkc plain
  (netloc.all fun c => c.toNat < 0x80) || plain == normal || !(['/', '?', '#', '@', ':'].any normal.contains)

def urlsplit (unicode : Unicode) (url : Text) : Option Split :=
  let url := (url.dropWhile c0OrSpace).filter fun c => !unsafeByte c
  let (scheme, url) := takeScheme url
  let (netloc, url) := if url.take 2 = ['/', '/'] then splitNetloc (url.drop 2) else ([], url)
  let (url, fragment) := cut '#' url
  let (path, query) := cut '?' url
  if bracketsOk netloc = true ∧ netlocOk unicode netloc = true
    then some ⟨scheme, netloc, path, query, fragment⟩ else none

/-- `_hostinfo` -/
def hostinfo (netloc : Text) : Text × Text :=
  let hostinfo := afterLast '@' netloc
  if '[' ∈ hostinfo then
    let (hostname, port) := cut ']' (cut '[' hostinfo).2
    (hostname, (cut ':' port).2)
  else cut ':' hostinfo

/-- `hostname`; the zone of an address keeps its letters. -/
def hostname (unicode : Unicode) (netloc : Text) : Text :=
  let name := (hostinfo netloc).1
  unicode.lower (name.takeWhile (· != '%')) ++ name.dropWhile (· != '%')

/-- `username is not None or password is not None` -/
def hasUserinfo (netloc : Text) : Bool := '@' ∈ netloc

/-- `port`: nothing read is an error, no port is none. -/
def port (netloc : Text) : Option (Option Nat) :=
  let port := (hostinfo netloc).2
  if port = [] then some none
  else if port.all Char.isDigit = true ∧ Nat.ofDigitChars 10 port 0 ≤ 65535
    then some (some (Nat.ofDigitChars 10 port 0))
  else none

section Joining

variable {unicode : Unicode}

variable {mark : Char} {text : Text} {split : Split}

theorem passes_of_free (free : mark ∉ text) : ∀ c ∈ text, (c != mark) = true := by
  intro c member
  simp only [bne_iff_ne]
  rintro rfl
  exact free member

theorem cut_free (free : mark ∉ text) : cut mark text = (text, []) := by
  have all := passes_of_free free
  have taken := takeWhile_run all (stops_nil (p := (· != mark)))
  have dropped := dropWhile_run all (stops_nil (p := (· != mark)))
  rw [List.append_nil] at taken dropped
  rw [cut, taken, dropped]
  rfl

theorem cut_mark {front : Text} (free : mark ∉ front) (back : Text) :
    cut mark (front ++ mark :: back) = (front, back) := by
  have all := passes_of_free free
  have stops : Stops (· != mark) (mark :: back) := stops_cons.mpr (by simp)
  rw [cut, takeWhile_run all stops, dropWhile_run all stops]
  rfl

/-- A text is cut at its first mark, or has none. -/
theorem cut_cases (mark : Char) (text : Text) :
    mark ∉ (cut mark text).1 ∧
      (text = (cut mark text).1 ∧ (cut mark text).2 = [] ∨ text = (cut mark text).1 ++ mark ::
        (cut mark text).2) := by
  have free : mark ∉ text.takeWhile (· != mark) := fun member => by simpa using mem_takeWhile member
  refine ⟨free, ?_⟩
  have whole := List.takeWhile_append_dropWhile (p := (· != mark)) (l := text)
  cases rest : text.dropWhile (· != mark) with
  | nil =>
    rw [rest, List.append_nil] at whole
    exact .inl ⟨whole.symm, by rw [cut, rest]; rfl⟩
  | cons c back =>
    have stops := stops_dropWhile (· != mark) text
    rw [rest, stops_cons] at stops
    have same : c = mark := by simpa using stops
    rw [rest, same] at whole
    exact .inr (by rw [cut, rest]; exact whole.symm)

theorem afterLast_cases (mark : Char) (text : Text) :
    mark ∉ afterLast mark text ∧
      (text = afterLast mark text ∨ ∃ front, text = front ++ mark :: afterLast mark text) := by
  obtain ⟨free, whole⟩ := cut_cases mark text.reverse
  have shape : afterLast mark text = (cut mark text.reverse).1.reverse := rfl
  rw [shape]
  refine ⟨by simpa using free, ?_⟩
  rcases whole with ⟨same, -⟩ | same
  · exact .inl (by rw [← same, List.reverse_reverse])
  · refine .inr ⟨(cut mark text.reverse).2.reverse, ?_⟩
    calc
      text = text.reverse.reverse := text.reverse_reverse.symm
      _ = ((cut mark text.reverse).1 ++ mark :: (cut mark text.reverse).2).reverse := by rw [← same]
      _ = (cut mark text.reverse).2.reverse ++ mark :: (cut mark text.reverse).1.reverse := by simp

theorem getLast_splitOn (mark : Char) (text : Text) :
    (text.splitOn mark).getLast? = some (afterLast mark text) := by
  obtain ⟨free, same | ⟨front, same⟩⟩ := afterLast_cases mark text
  · have whole : afterLast mark text = text := same.symm
    rw [whole] at free ⊢
    rw [List.splitOn_eq_singleton free]
    rfl
  · generalize afterLast mark text = last at *
    rw [same, List.splitOn_append_cons_self, List.splitOn_eq_singleton free]
    simp

theorem mem_of_mem_afterLast {mark c : Char} {text : Text} (member : c ∈ afterLast mark text) : c ∈ text := by
  rw [afterLast, List.mem_reverse] at member
  exact List.mem_reverse.mp ((List.takeWhile_sublist _).subset member)

theorem mem_of_mem_cut {mark c : Char} (member : c ∈ (cut mark text).1 ∨ c ∈ (cut mark text).2) : c ∈ text := by
  rcases member with front | back
  · exact (List.takeWhile_sublist _).subset front
  · exact (List.dropWhile_sublist _).subset (List.mem_of_mem_drop back)

theorem mem_of_mem_hostinfo {c : Char} {netloc : Text} (member : c ∈ (hostinfo netloc).1) : c ∈ netloc := by
  simp only [hostinfo] at member
  split at member
  · exact mem_of_mem_afterLast (mem_of_mem_cut (.inr (mem_of_mem_cut (.inl member))))
  · exact mem_of_mem_afterLast (mem_of_mem_cut (.inl member))

/-- Neither white space in front nor a character that is taken out. -/
def Plain (url : Text) : Prop := ∀ c ∈ url, 0x20 < c.toNat

theorem strip_plain {url : Text} (plain : Plain url) :
    (url.dropWhile c0OrSpace).filter (fun c => !unsafeByte c) = url := by
  have kept : url.dropWhile c0OrSpace = url := by
    cases url with
    | nil => rfl
    | cons c url =>
      have light : c0OrSpace c = false := by simpa [c0OrSpace] using plain c List.mem_cons_self
      rw [List.dropWhile_cons_of_neg (by simp [light])]
  rw [kept, List.filter_eq_self]
  intro c member
  have large := plain c member
  simp only [unsafeByte, Bool.not_eq_true', List.contains_eq_mem, List.mem_cons, List.not_mem_nil,
    or_false, decide_eq_false_iff_not]
  rintro (rfl | rfl | rfl) <;> exact absurd large (by decide)

/-- A scheme as it stands in front of the colon, in lower case. -/
structure SchemeName (scheme : Text) : Prop where
  letter : scheme.head?.any letterChar = true
  chars : scheme.all schemeChar = true
  lower : scheme.map Char.toLower = scheme

variable {scheme : Text} {queryPart fragmentPart : Text}

theorem SchemeName.free (named : SchemeName scheme) : ':' ∉ scheme := fun member =>
  absurd (List.all_eq_true.mp named.chars _ member) (by decide)

theorem takeScheme_name (named : SchemeName scheme) (rest : Text) :
    takeScheme (scheme ++ ':' :: rest) = (scheme, rest) := by
  have parts := cut_mark named.free rest
  simp only [cut, Prod.mk.injEq] at parts
  rw [takeScheme, parts.1, parts.2, named.lower, if_pos ⟨by simp, named.letter, named.chars⟩]

def NetlocOk (unicode : Unicode) (netloc : Text) : Prop := bracketsOk netloc = true ∧ netlocOk unicode netloc = true

/-- The parts are what the splitter can find. -/
structure Split.WellFormed (unicode : Unicode) (split : Split) : Prop where
  scheme : SchemeName split.scheme
  netloc : ∀ c ∈ split.netloc, authorityChar c = true
  checked : NetlocOk unicode split.netloc
  path : split.path = [] ∨ split.path.head? = some '/'
  pathQuery : '?' ∉ split.path
  pathFragment : '#' ∉ split.path
  queryFragment : '#' ∉ split.query

/-- A query stands behind its mark; an empty one may also be left out. -/
def QueryPart (query part : Text) : Prop := part = [] ∧ query = [] ∨ part = '?' :: query

def FragmentPart (fragment part : Text) : Prop := part = [] ∧ fragment = [] ∨ part = '#' :: fragment

def Split.spelling (split : Split) (queryPart fragmentPart : Text) : Text :=
  split.scheme ++ ':' :: '/' :: '/' :: (split.netloc ++ (split.path ++ (queryPart ++ fragmentPart)))

theorem urlsplit_authority {scheme rest : Text} (named : SchemeName scheme)
    (plain : Plain (scheme ++ ':' :: '/' :: '/' :: rest)) :
    urlsplit unicode (scheme ++ ':' :: '/' :: '/' :: rest) =
      let tail := cut '#' (rest.dropWhile authorityChar)
      if bracketsOk (rest.takeWhile authorityChar) = true ∧
        netlocOk unicode (rest.takeWhile authorityChar) = true then
        some ⟨scheme, rest.takeWhile authorityChar, (cut '?' tail.1).1, (cut '?' tail.1).2, tail.2⟩
      else none := by
  simp only [urlsplit, strip_plain plain, takeScheme_name named, List.take_succ_cons,
    List.take_zero, if_true, List.drop_succ_cons,
    List.drop_zero, splitNetloc]

theorem cut_query {query part path : Text} (shape : QueryPart query part) (free : '?' ∉ path) :
    cut '?' (path ++ part) = (path, query) := by
  rcases shape with ⟨rfl, rfl⟩ | rfl
  · rw [List.append_nil, cut_free free]
  · exact cut_mark free query

theorem cut_fragment {fragment part front : Text} (shape : FragmentPart fragment part) (free : '#' ∉ front) :
    cut '#' (front ++ part) = (front, fragment) := by
  rcases shape with ⟨rfl, rfl⟩ | rfl
  · rw [List.append_nil, cut_free free]
  · exact cut_mark free fragment

theorem stops_tail (wellFormed : split.WellFormed unicode)
    (query : QueryPart split.query queryPart) (fragment : FragmentPart split.fragment fragmentPart) :
    Stops authorityChar (split.path ++ (queryPart ++ fragmentPart)) := by
  cases shape : split.path with
  | cons c path =>
    have slash : c = '/' := by simpa [shape] using wellFormed.path
    subst slash
    exact stops_cons.mpr rfl
  | nil =>
    rcases query with ⟨rfl, -⟩ | rfl
    · rcases fragment with ⟨rfl, -⟩ | rfl
      · exact stops_nil
      · exact stops_cons.mpr rfl
    · exact stops_cons.mpr rfl

/-- The splitter finds the parts again that a URL was joined from. -/
theorem urlsplit_spelling (wellFormed : split.WellFormed unicode)
    (query : QueryPart split.query queryPart) (fragment : FragmentPart split.fragment fragmentPart)
    (plain : Plain (split.spelling queryPart fragmentPart)) :
    urlsplit unicode (split.spelling queryPart fragmentPart) = some split := by
  have stops := stops_tail wellFormed query fragment
  have free : '#' ∉ split.path ++ queryPart := by
    rw [List.mem_append, not_or]
    refine ⟨wellFormed.pathFragment, ?_⟩
    rcases query with ⟨rfl, -⟩ | rfl
    · simp
    · simpa using wellFormed.queryFragment
  unfold Split.spelling at plain ⊢
  rw [urlsplit_authority wellFormed.scheme plain, takeWhile_run wellFormed.netloc stops,
    dropWhile_run wellFormed.netloc stops,
    ← List.append_assoc, cut_fragment fragment free]
  dsimp only
  rw [cut_query query wellFormed.pathQuery]
  exact if_pos wellFormed.checked

/-- What was split is the join of parts that are well formed. -/
theorem spelling_of_urlsplit {url rest : Text} (plain : Plain url) (named : SchemeName split.scheme)
    (starts : url = split.scheme ++ ':' :: '/' :: '/' :: rest) (found : urlsplit unicode url = some split) :
    split.WellFormed unicode ∧ ∃ queryPart fragmentPart, QueryPart split.query queryPart ∧
      FragmentPart split.fragment fragmentPart ∧
      url = split.spelling queryPart fragmentPart := by
  subst starts
  rw [urlsplit_authority named plain, Option.ite_none_right_eq_some, Option.some.injEq] at found
  obtain ⟨checked, found⟩ := found
  obtain ⟨freeHash, hash⟩ := cut_cases '#' (rest.dropWhile authorityChar)
  obtain ⟨freeQuery, query⟩ := cut_cases '?' (cut '#' (rest.dropWhile authorityChar)).1
  have inside : ∀ c ∈ rest.takeWhile authorityChar, authorityChar c = true := fun c member => mem_takeWhile member
  have stops := stops_dropWhile authorityChar rest
  have whole := List.takeWhile_append_dropWhile (p := authorityChar) (l := rest)
  obtain ⟨scheme, netloc, path, foundQuery, fragment⟩ := split
  simp only [Split.mk.injEq] at found
  obtain ⟨-, rfl, rfl, rfl, rfl⟩ := found
  generalize rest.takeWhile authorityChar = netloc at *
  generalize rest.dropWhile authorityChar = tail at *
  generalize cut '#' tail = parts at *
  generalize cut '?' parts.1 = front at *
  have queryPart : ∃ part, QueryPart front.2 part ∧ parts.1 = front.1 ++ part := by
    rcases query with ⟨same, empty⟩ | same
    · exact ⟨[], .inl ⟨rfl, empty⟩, by rw [List.append_nil]; exact same⟩
    · exact ⟨_, .inr rfl, same⟩
  have fragmentPart : ∃ part, FragmentPart parts.2 part ∧ tail = parts.1 ++ part := by
    rcases hash with ⟨same, empty⟩ | same
    · exact ⟨[], .inl ⟨rfl, empty⟩, by rw [List.append_nil]; exact same⟩
    · exact ⟨_, .inr rfl, same⟩
  obtain ⟨queryPart, isQuery, queryIs⟩ := queryPart
  obtain ⟨fragmentPart, isFragment, fragmentIs⟩ := fragmentPart
  rw [queryIs, List.mem_append, not_or] at freeHash
  refine ⟨⟨named, inside, checked, ?_, freeQuery, freeHash.1, ?_⟩, queryPart, fragmentPart, isQuery, isFragment, ?_⟩
  · cases shape : front.1 with
    | nil => exact .inl rfl
    | cons c path =>
      rw [shape, List.mem_cons, not_or] at freeQuery freeHash
      rw [fragmentIs, queryIs, shape, List.cons_append, List.cons_append, stops_cons] at stops
      simp only [authorityChar, Bool.not_eq_false', List.contains_eq_mem, List.mem_cons, List.not_mem_nil, or_false,
        decide_eq_true_eq] at stops
      rcases stops with rfl | same | same
      · exact .inr rfl
      · exact absurd same.symm freeQuery.1
      · exact absurd same.symm freeHash.1.1
  · rcases isQuery with ⟨-, empty⟩ | same
    · simp [empty]
    · exact fun member => freeHash.2 (same ▸ List.mem_cons_of_mem _ member)
  · rw [← whole, fragmentIs, queryIs, Split.spelling, List.append_assoc]

end Joining

end ProxyPilot.Data.UrlSplit
