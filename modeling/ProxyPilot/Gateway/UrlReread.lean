import ProxyPilot.Gateway.UrlParts

namespace ProxyPilot.Gateway.Url

open Data UrlSplit

section Reread

variable {unicode : Unicode} {value : Text} {originOnly : Bool} {parts : UrlParts} {split : Split} {wire : Text}

theorem plain_urlChar {c : Char} (good : urlChar c = true) : 0x20 < c.toNat := by
  simp only [urlChar, space, controlChar, Bool.and_eq_true, Bool.not_eq_true', Bool.or_eq_false_iff,
    Bool.and_eq_false_iff,
    decide_eq_false_iff_not] at good
  omega

structure TextOk (value : Text) : Prop where
  low : 8 ≤ value.length
  high : value.length ≤ 2048
  chars : ∀ c ∈ value, urlChar c = true
  escapes : Percent.badEscape value = false

theorem urlText_eq_true : urlText value = true ↔ TextOk value := by
  simp only [urlText, Bool.and_eq_true, decide_eq_true_eq, List.all_eq_true, Bool.not_eq_true']
  exact ⟨fun ⟨⟨⟨low, high⟩, chars⟩, escapes⟩ => ⟨low, high, chars, escapes⟩,
    fun ⟨low, high, chars, escapes⟩ => ⟨⟨⟨low, high⟩, chars⟩, escapes⟩⟩

theorem schemeName {scheme : Text} (known : scheme ∈ [http, https]) : SchemeName scheme := by
  rcases List.mem_pair.mp known with rfl | rfl
  · exact ⟨rfl, by decide, by decide⟩
  · exact ⟨rfl, by decide, by decide⟩

theorem ascii_scheme {scheme : Text} (known : scheme ∈ [http, https]) : Percent.Ascii scheme := by
  rcases List.mem_pair.mp known with rfl | rfl <;> simp [Percent.Ascii, http, https]

/-- An accepted value is put together from its origin, a path, a query and a fragment. -/
structure Shape (unicode : Unicode) (value : Text) (parts : UrlParts) (split : Split)
    (queryPart fragmentPart : Text) : Prop where
  wellFormed : split.WellFormed unicode
  query : QueryPart split.query queryPart
  fragment : FragmentPart split.fragment fragmentPart
  value : value = parts.origin ++ (split.path ++ (queryPart ++ fragmentPart))
  origin : parts.origin = originText split.scheme split.netloc

theorem originText_append (scheme netloc rest : Text) :
    originText scheme netloc ++ rest = scheme ++ ':' :: '/' :: '/' :: (netloc ++ rest) := by
  simp [originText]

theorem spelling_eq (split : Split) (queryPart fragmentPart : Text) :
    split.spelling queryPart fragmentPart = originText split.scheme split.netloc ++
      (split.path ++ (queryPart ++ fragmentPart)) :=
  (originText_append _ _ _).symm

theorem shape_of_accepted (accepted : Accepted unicode value originOnly parts split) :
    ∃ queryPart fragmentPart, Shape unicode value parts split queryPart fragmentPart := by
  obtain ⟨wire, placed⟩ := placed_of_authority accepted.authority
  have text := urlText_eq_true.mp accepted.text
  have plain : Plain value := fun c member => plain_urlChar (text.chars c member)
  obtain ⟨rest, starts⟩ := List.isPrefixOf_iff_prefix.mp accepted.starts
  have whole : value = split.scheme ++ ':' :: '/' :: '/' :: rest := by rw [← starts]; simp
  obtain ⟨wellFormed, queryPart, fragmentPart, query, fragment, spelled⟩ :=
    spelling_of_urlsplit plain (schemeName placed.known) whole accepted.found
  have origin : parts.origin = originText split.scheme split.netloc := placed.origin
  exact ⟨queryPart, fragmentPart, wellFormed, query, fragment, by rw [spelled, spelling_eq, origin], origin⟩

/-- A text put together from an accepted authority and a good path is accepted with that authority. -/
theorem accepted_of_spelling {found : Split} {text decoded target queryPart fragmentPart : Text}
    {place : Authority} (wellFormed : found.WellFormed unicode)
    (query : QueryPart found.query queryPart) (fragment : FragmentPart found.fragment fragmentPart)
    (good : TextOk text)
    (spelled : text = found.spelling queryPart fragmentPart)
    (placed : authority unicode found.scheme found.netloc = some place)
    (only : originOnly = true → text = place.origin)
    (path : pathTarget (orSlash found.path) found.query = .ok (decoded, target)) :
    urlParts unicode text originOnly =
      .ok ⟨place.origin, place.host, place.port, found.scheme, decoded, found.query, target,
        place.origin ++ target⟩ := by
  have plain : Plain text := fun c member => plain_urlChar (good.chars c member)
  have starts : (found.scheme ++ [':', '/', '/']).isPrefixOf text = true := by
    rw [List.isPrefixOf_iff_prefix, spelled, Split.spelling]
    exact ⟨found.netloc ++ (found.path ++ (queryPart ++ fragmentPart)), by simp⟩
  refine urlParts_eq_ok.mpr ⟨found, urlText_eq_true.mpr good, ?_, starts, placed, only, path, rfl, rfl, rfl⟩
  rw [spelled] at plain ⊢
  exact urlsplit_spelling wellFormed query fragment plain

theorem queryPart_wireQuery (query : Text) : QueryPart query (wireQuery query) := by
  unfold wireQuery
  split
  · next empty => exact .inl ⟨rfl, empty⟩
  · exact .inr rfl

theorem orSlash_ne_nil (path : Text) : orSlash path ≠ [] := by
  unfold orSlash
  split
  · simp
  · assumption

theorem orSlash_orSlash (path : Text) : orSlash (orSlash path) = orSlash path := if_neg (orSlash_ne_nil path)

/-- What the URL in the result is split into. -/
def canonical (split : Split) : Split := ⟨split.scheme, split.netloc, orSlash split.path, split.query, []⟩

theorem wellFormed_canonical (wellFormed : split.WellFormed unicode) : (canonical split).WellFormed unicode where
  scheme := wellFormed.scheme
  netloc := wellFormed.netloc
  checked := wellFormed.checked
  path := by
    rcases wellFormed.path with empty | slash
    · exact .inr (by simp [canonical, orSlash, empty])
    · refine .inr ?_
      have some : split.path ≠ [] := fun empty => by simp [empty] at slash
      simp [canonical, orSlash, some, slash]
  pathQuery := by
    simp only [canonical, orSlash]
    split
    · decide
    · exact wellFormed.pathQuery
  pathFragment := by
    simp only [canonical, orSlash]
    split
    · decide
    · exact wellFormed.pathFragment
  queryFragment := wellFormed.queryFragment

theorem path_of_accepted (accepted : Accepted unicode value originOnly parts split) :
    PathRead (orSlash split.path) split.query parts.path parts.target := pathRead_of_pathTarget accepted.path

theorem url_of_accepted (accepted : Accepted unicode value originOnly parts split) :
    parts.url = parts.origin ++ (orSlash split.path ++ wireQuery split.query) := by
  rw [accepted.url, (path_of_accepted accepted).target]

theorem free_origin
    (placed : Placed unicode split.scheme split.netloc ⟨parts.host, parts.port,
    parts.origin⟩ wire) : '%' ∉ parts.origin := by
  have origin : parts.origin = originText split.scheme split.netloc := placed.origin
  have scheme : '%' ∉ split.scheme := by
    rcases List.mem_pair.mp placed.known with same | same <;> (rw [same]; decide)
  simp [origin, originText, scheme, placed.percent]

theorem badEscape_front {mark : Char} (digit : hexChar mark = false) {front text part : Text}
    (shape : part = [] ∧ text = [] ∨ part = mark :: text) (good : Percent.badEscape (front ++ part) = false) :
    Percent.badEscape front = false ∧ Percent.badEscape part = false := by
  rcases shape with ⟨rfl, -⟩ | rfl
  · rw [List.append_nil] at good
    exact ⟨good, rfl⟩
  · rw [Percent.badEscape_append_mark digit, Bool.or_eq_false_iff] at good
    exact good

theorem badEscape_wire {path query : Text} (front : Percent.badEscape path = false)
    (back : Percent.badEscape (wireQuery query) = false) :
    Percent.badEscape (orSlash path ++ wireQuery query) = false := by
  have slash : Percent.badEscape (orSlash path) = false := by
    unfold orSlash
    split
    · rfl
    · exact front
  rcases queryPart_wireQuery query with ⟨empty, -⟩ | marked
  · rwa [empty, List.append_nil]
  · rw [marked] at back ⊢
    rw [Percent.badEscape_append_mark (by decide), slash, back]
    rfl

/-- What is left of the value in the result: nothing is new but the slash of an empty path. -/
theorem mem_wire_of_parts {c : Char} {path query queryPart : Text} (shape : QueryPart query queryPart)
    (member : c ∈ orSlash path ++ wireQuery query) : c = '/' ∨ c ∈ path ++ queryPart := by
  rcases List.mem_append.mp member with front | back
  · unfold orSlash at front
    split at front
    · exact .inl (List.mem_singleton.mp front)
    · exact .inr (List.mem_append_left _ front)
  · unfold wireQuery at back
    split at back
    · cases back
    next some =>
    rcases shape with ⟨-, empty⟩ | rfl
    · exact absurd empty some
    · exact .inr (List.mem_append_right _ back)

theorem textOk_url (accepted : Accepted unicode value originOnly parts split) :
    TextOk parts.url ↔ parts.url.length ≤ 2048 := by
  obtain ⟨wire, placed⟩ := placed_of_authority accepted.authority
  obtain ⟨queryPart, fragmentPart, shape⟩ := shape_of_accepted accepted
  have text := urlText_eq_true.mp accepted.text
  have whole := shape.value
  refine ⟨TextOk.high, fun short => ⟨?_, short, ?_, ?_⟩⟩
  · have scheme : 4 ≤ split.scheme.length := by
      rcases List.mem_pair.mp placed.known with same | same <;> (rw [same]; decide)
    have path := List.length_pos_iff.mpr (orSlash_ne_nil split.path)
    rw [url_of_accepted accepted, shape.origin, originText]
    simp only [List.length_append, List.length_cons]
    omega
  · intro c member
    rw [url_of_accepted accepted] at member
    rcases List.mem_append.mp member with front | back
    · exact text.chars c (by rw [whole]; exact List.mem_append_left _ front)
    · rcases mem_wire_of_parts shape.query back with rfl | inside
      · rfl
      · refine text.chars c ?_
        rw [whole, ← List.append_assoc split.path]
        exact List.mem_append_right _ (List.mem_append_left _ inside)
  · have escapes := text.escapes
    rw [whole, Percent.badEscape_append_free (free_origin placed), ← List.append_assoc] at escapes
    obtain ⟨front, -⟩ := badEscape_front (by decide) shape.fragment escapes
    obtain ⟨path, query⟩ := badEscape_front (by decide) shape.query front
    rw [url_of_accepted accepted, Percent.badEscape_append_free (free_origin placed)]
    refine badEscape_wire path ?_
    rcases shape.query with ⟨-, empty⟩ | marked
    · rw [empty]
      rfl
    · unfold wireQuery
      split
      · rfl
      · rw [← marked]
        exact query

/-- The URL in the result is accepted exactly where it is not too long, and then with the same result. -/
theorem urlParts_url (accepted : Accepted unicode value false parts split) :
    urlParts unicode parts.url false = .ok parts ↔ parts.url.length ≤ 2048 := by
  constructor
  · intro again
    obtain ⟨found, reread⟩ := urlParts_eq_ok.mp again
    exact (urlText_eq_true.mp reread.text).high
  · intro short
    obtain ⟨queryPart, fragmentPart, shape⟩ := shape_of_accepted accepted
    have spelled : parts.url = (canonical split).spelling (wireQuery split.query) [] := by
      rw [spelling_eq, url_of_accepted accepted, shape.origin, List.append_nil]
      rfl
    have again := @accepted_of_spelling _ false _ _ _ _ _ _ _
        (wellFormed_canonical shape.wellFormed) (queryPart_wireQuery split.query) (.inl ⟨rfl, rfl⟩)
      ((textOk_url accepted).mpr short) spelled accepted.authority (fun only => by cases only)
      (by rw [show (canonical split).path = orSlash split.path from rfl, orSlash_orSlash]; exact accepted.path)
    rw [again]
    obtain ⟨origin, host, port, scheme, path, query, target, url⟩ := parts
    have same := accepted.scheme
    have asked := accepted.query
    have joined := accepted.url
    simp only at same asked joined
    rw [same, asked, joined]
    rfl

end Reread

end ProxyPilot.Gateway.Url
