import ProxyPilot.Data.HostNames
import ProxyPilot.Gateway.Policy

namespace ProxyPilot.Gateway.Url

open Data UrlSplit

/-! # `url_parts` (`selected_browser_policy.py`)

A text is a list of characters, without lone surrogates.
-/

structure UrlParts where
  origin : Text
  host : Text
  port : Nat
  scheme : Text
  path : Text
  query : Text
  target : Text
  url : Text
deriving DecidableEq

/-- `\s` of a text pattern -/
def space (c : Char) : Bool :=
  let n := c.toNat
  9 ≤ n && n ≤ 13 || 0x1c ≤ n && n ≤ 0x20 || n == 0x85 || n == 0xa0 || n == 0x1680 || 0x2000 ≤ n && n ≤ 0x200a ||
    n == 0x2028 || n == 0x2029 || n == 0x202f || n == 0x205f || n == 0x3000

def urlChar (c : Char) : Bool := !space c && c != '\\' && !controlChar c

def urlText (value : Text) : Bool :=
  8 ≤ value.length && value.length ≤ 2048 && value.all urlChar && !Percent.badEscape value

def nameChar (c : Char) : Bool := ('a' ≤ c && c ≤ 'z') || c.isDigit

def nameLabel (label : Text) : Bool :=
  label.all (fun c => nameChar c || c == '-') && label.head?.any nameChar && label.getLast?.any nameChar

/-- The pattern of a host name, label by label. -/
def hostName (host : Text) : Bool := (host.splitOn '.').all nameLabel

def lastLabel (host : Text) : Text := afterLast '.' host

/-- `(?:[0-9]+|0x[0-9a-f]+)$` behind a dot or at the start -/
def numericLabel (label : Text) : Bool :=
  (label != [] && label.all Char.isDigit) ||
    (label.take 2 == ['0', 'x'] && 2 < label.length && (label.drop 2).all fun c => c.isDigit ||
      ('a' ≤ c && c ≤ 'f'))

def hostWire (host : Text) : Option Text :=
  match IpAddress.ipAddress host with
  | some address =>
    if address.text ≠ host then none
    else match address with
      | .v6 _ _ => some ('[' :: (host ++ [']']))
      | .v4 _ => some host
  | none => if hostName host = true ∧ numericLabel (lastLabel host) = false then some host else none

def http : Text := ['h', 't', 't', 'p']

def https : Text := ['h', 't', 't', 'p', 's']

def defaultPort (scheme : Text) : Nat := if scheme = https then 443 else 80

/-- `p.port or default` -/
def portOr (scheme : Text) (port : Option Nat) : Nat :=
  match port with
  | some (port + 1) => port + 1
  | _ => defaultPort scheme

def authorityText (scheme wire : Text) (port : Nat) : Text :=
  wire ++ if port ≠ defaultPort scheme then ':' :: Nat.toDigits 10 port else []

def originText (scheme authority : Text) : Text := scheme ++ ':' :: '/' :: '/' :: authority

structure Authority where
  host : Text
  port : Nat
  origin : Text

local instance lawfulText : LawfulBEq (List Char) := inferInstance

def authority (unicode : Unicode) (scheme netloc : Text) : Option Authority :=
  let host := hostname unicode netloc
  if scheme ∉ [http, https] ∨ host = [] ∨ hasUserinfo netloc = true then none
  else (port netloc).bind fun given =>
    let port := portOr scheme given
    if netloc ≠ unicode.lower netloc ∨ host.getLast? = some '.' ∨ '@' ∈ netloc ∨ '%' ∈ netloc ∨
      ¬(1 ≤ port ∧ port ≤ 65535) then none
    else (hostWire host).bind fun wire =>
      if netloc ≠ authorityText scheme wire port then none
      else some ⟨host, port, originText scheme (authorityText scheme wire port)⟩

/-- `%(?:2f|5c|25|00)` in either case -/
def hiddenEscape : Text → Bool
  | c :: a :: b :: rest =>
    (c == '%' && [['2', 'f'], ['5', 'c'], ['2', '5'], ['0', '0']].contains [a.toLower,
      b.toLower]) || hiddenEscape (a :: b :: rest)
  | _ => false

def dotSegment (segment : Text) : Bool := segment == ['.'] || segment == ['.', '.']

def orSlash (path : Text) : Text := if path = [] then ['/'] else path

def wireQuery (query : Text) : Text := if query = [] then [] else '?' :: query

/-- The decoded path and the target. -/
def pathTarget (path query : Text) : Except Code (Text × Text) :=
  match Percent.unquote path with
  | none => .error .urlInvalid
  | some decoded =>
    if path.head? ≠ some '/' ∨ path.take 2 = ['/', '/'] ∨ '\\' ∈ decoded ∨ hiddenEscape path = true ∨
        (decoded.splitOn '/').any dotSegment = true ∨ decoded.any controlChar = true then .error .urlPathInvalid
    -- the fragment is never sent to the origin
    else if (path ++ wireQuery query).all (fun c => c.toNat < 0x80) = true
      then .ok (decoded, path ++ wireQuery query)
    else .error .urlInvalid

def urlParts (unicode : Unicode) (value : Text) (originOnly : Bool) : Except Code UrlParts :=
  if urlText value = false then .error .urlInvalid
  else match urlsplit unicode value with
    | none => .error .urlInvalid
    | some split =>
      if !(split.scheme ++ [':', '/', '/']).isPrefixOf value then .error .urlInvalid
      else match authority unicode split.scheme split.netloc with
        | none => .error .urlInvalid
        | some found =>
          if originOnly = true ∧ value ≠ found.origin then .error .urlInvalid
          else (pathTarget (orSlash split.path) split.query).map fun (decoded, target) =>
            ⟨found.origin, found.host, found.port, split.scheme, decoded, split.query, target,
              found.origin ++ target⟩

section Accepted

variable {unicode : Unicode} {value : Text} {originOnly : Bool} {parts : UrlParts}

/-- The split value, and what each check made of it. -/
structure Accepted (unicode : Unicode) (value : Text) (originOnly : Bool) (parts : UrlParts)
    (split : Split) : Prop where
  text : urlText value = true
  found : urlsplit unicode value = some split
  starts : (split.scheme ++ [':', '/', '/']).isPrefixOf value = true
  authority : authority unicode split.scheme split.netloc = some ⟨parts.host, parts.port, parts.origin⟩
  only : originOnly = true → value = parts.origin
  path : pathTarget (orSlash split.path) split.query = .ok (parts.path, parts.target)
  scheme : parts.scheme = split.scheme
  query : parts.query = split.query
  url : parts.url = parts.origin ++ parts.target

theorem urlParts_eq_ok : urlParts unicode value originOnly = .ok parts ↔
    ∃ split, Accepted unicode value originOnly parts split := by
  constructor
  · intro accepted
    simp only [urlParts] at accepted
    split at accepted
    · cases accepted
    next text =>
    split at accepted
    · cases accepted
    next split found =>
    split at accepted
    · cases accepted
    next starts =>
    split at accepted
    · cases accepted
    next place authority =>
    split at accepted
    · cases accepted
    next only =>
    cases path : pathTarget (orSlash split.path) split.query with
    | error code => rw [path] at accepted; cases accepted
    | ok read =>
      rw [path] at accepted
      cases accepted
      refine ⟨split, by simpa using text, found, by simpa using starts, authority, ?_, path, rfl, rfl, rfl⟩
      intro only'
      exact Decidable.not_not.mp fun other => only ⟨only', other⟩
  · intro ⟨split, accepted⟩
    obtain ⟨text, found, starts, authority, only, path, scheme, query, url⟩ := accepted
    obtain ⟨origin, host, port, _, decoded, _, target, _⟩ := parts
    simp only at scheme query url authority path only
    subst scheme query url
    simpa [urlParts, text, found, starts, authority, path, Except.map] using only

/-- What the host and the authority of an accepted value are. -/
structure Placed (unicode : Unicode) (scheme netloc : Text) (place : Authority) (wire : Text) : Prop where
  known : scheme ∈ [http, https]
  host : place.host = hostname unicode netloc
  filled : place.host ≠ []
  lower : netloc = unicode.lower netloc
  user : '@' ∉ netloc
  percent : '%' ∉ netloc
  wired : hostWire place.host = some wire
  written : netloc = authorityText scheme wire place.port
  origin : place.origin = originText scheme netloc

theorem placed_of_authority {scheme netloc : Text} {place : Authority}
    (found : authority unicode scheme netloc = some place) :
    ∃ wire, Placed unicode scheme netloc place wire := by
  simp only [authority, Option.ite_none_left_eq_some, Option.bind_eq_some_iff, Option.some.injEq,
    not_or, not_not] at found
  obtain ⟨⟨scheme, filled, -⟩, given, -, ⟨lower, -, user, percent, -⟩, wire, wired, netloc, rfl⟩ := found
  exact ⟨wire, scheme, rfl, filled, lower, user, percent, wired, netloc, by rw [← netloc]⟩

/-- What the path of an accepted value is. -/
structure PathRead (path query decoded target : Text) : Prop where
  read : Percent.unquote path = some decoded
  slash : path.head? = some '/'
  single : path.take 2 ≠ ['/', '/']
  plain : hiddenEscape path = false
  segments : (decoded.splitOn '/').any dotSegment = false
  ascii : Percent.Ascii (path ++ wireQuery query)
  target : target = path ++ wireQuery query

theorem pathRead_of_pathTarget {path query decoded target : Text}
    (found : pathTarget path query = .ok (decoded, target)) :
    PathRead path query decoded target := by
  unfold pathTarget at found
  split at found
  · cases found
  next read =>
  split at found
  · cases found
  next good =>
  simp only [not_or, not_not, Bool.not_eq_true] at good
  split at found
  · next ascii =>
      cases found
      exact ⟨read, good.1, good.2.1, good.2.2.2.1, good.2.2.2.2.1,
        fun c member => by simpa using List.all_eq_true.mp ascii c member, rfl⟩
  · cases found

end Accepted

open HostNames hiding Text

section Hosts

variable {host wire : Text}

variable {c : Char}

theorem mem_hostName (named : hostName host = true) (member : c ∈ host) :
    c = '.' ∨ nameChar c = true ∨ c = '-' := by
  rcases @IpAddress.mem_splitOn '.' _ _ member with same | ⟨label, listed, inside⟩
  · exact .inl same
  · have good := List.all_eq_true.mp named label listed
    simp only [nameLabel, Bool.and_eq_true] at good
    exact .inr (by simpa using List.all_eq_true.mp good.1.1 c inside)

theorem nameChar_range (named : c = '.' ∨ nameChar c = true ∨ c = '-') :
    c.toNat = 45 ∨ c.toNat = 46 ∨ 48 ≤ c.toNat ∧ c.toNat ≤ 57 ∨ 97 ≤ c.toNat ∧ c.toNat ≤ 122 := by
  rcases named with rfl | named | rfl
  · exact .inr (.inl rfl)
  · simp only [nameChar, Char.isDigit, Bool.or_eq_true, Bool.and_eq_true, decide_eq_true_eq,
      Char.le_def, UInt32.le_iff_toNat_le] at named
    change 97 ≤ c.toNat ∧ c.toNat ≤ 122 ∨ 48 ≤ c.toNat ∧ c.toNat ≤ 57 at named
    omega
  · exact .inl rfl

theorem not_mem_hostName (named : hostName host = true) (outside : nameChar c = false)
    (dot : c ≠ '.') (dash : c ≠ '-') : c ∉ host := by
  intro member
  rcases mem_hostName named member with same | inside | same
  · exact dot same
  · rw [outside] at inside
    cases inside
  · exact dash same

/-- A host is an address as the writer spells it, or a name. -/
theorem hostWire_cases (wired : hostWire host = some wire) :
    (∃ address, IpAddress.ipAddress host = some address ∧ address.text = host ∧
      (wire = host ∨ wire = '[' :: (host ++ [']']))) ∨
      IpAddress.ipAddress host = none ∧ hostName host = true ∧
        numericLabel (lastLabel host) = false ∧ wire = host := by
  unfold hostWire at wired
  split at wired
  · next address read =>
      rw [Option.ite_none_left_eq_some, Decidable.not_not] at wired
      refine .inl ⟨address, read, wired.1, ?_⟩
      replace wired := wired.2
      split at wired
      · exact .inr (Option.some.inj wired).symm
      · exact .inl (Option.some.inj wired).symm
  · next read =>
      simp only [Option.ite_none_right_eq_some, Option.some.injEq] at wired
      exact .inr ⟨read, wired.1.1, wired.1.2, wired.2.symm⟩

theorem mem_wire (wired : hostWire host = some wire) (member : c ∈ host) : c ∈ wire := by
  rcases hostWire_cases wired with ⟨address, -, -, rfl | rfl⟩ | ⟨-, -, -, rfl⟩
  · exact member
  · simp [member]
  · exact member

theorem ascii_wire (wired : hostWire host = some wire) (plain : '%' ∉ wire) : Percent.Ascii wire := by
  have percent : '%' ∉ host := fun member => plain (mem_wire wired member)
  have small : Percent.Ascii host := by
    intro c member
    rcases hostWire_cases wired with ⟨address, -, rfl, -⟩ | ⟨-, named, -⟩
    · rcases IpAddress.text_chars percent c member with digit | rfl | rfl
      · exact Percent.hexChar_ascii digit
      · decide
      · decide
    · have range := nameChar_range (mem_hostName named member)
      omega
  rcases hostWire_cases wired with ⟨address, -, -, rfl | rfl⟩ | ⟨-, -, -, rfl⟩
  · exact small
  · exact Percent.ascii_cons.mpr ⟨by decide, Percent.ascii_append.mpr ⟨small, by simp [Percent.Ascii]⟩⟩
  · exact small

theorem lastLabel_name (named : hostName host = true) :
    labels host = host.splitOn '.' ∧ lastLabel host ≠ [] ∧ ∀ c ∈ lastLabel host, nameChar c = true ∨ c = '-' := by
  have last := getLast_splitOn '.' host
  have good := List.all_eq_true.mp named _ (List.mem_of_getLast? last)
  simp only [nameLabel, Bool.and_eq_true] at good
  have some : afterLast '.' host ≠ [] := by
    intro empty
    rw [empty] at good
    simp at good
  refine ⟨?_, some, fun c member => by simpa using List.all_eq_true.mp good.1.1 c member⟩
  rw [labels, if_neg]
  rw [last, Option.some.injEq]
  exact fun both => some both.1

theorem hexChar_nameChar (digit : hexChar c = true) (named : nameChar c = true ∨ c = '-') :
    (c.isDigit || ('a' ≤ c && c ≤ 'f')) = true := by
  have range := nameChar_range (.inr named)
  simp only [hexChar, Bool.or_eq_true] at digit
  rcases digit with digit | upper
  · simpa using digit
  · simp only [Bool.and_eq_true, decide_eq_true_eq, Char.le_def, UInt32.le_iff_toNat_le] at upper
    change 65 ≤ c.toNat ∧ c.toNat ≤ 70 at upper
    omega

theorem octalChar_isDigit (digit : octalChar c = true) : c.isDigit = true := by
  simp only [octalChar, Bool.and_eq_true, decide_eq_true_eq, Char.le_def, UInt32.le_iff_toNat_le] at digit
  simp only [Char.isDigit, Bool.and_eq_true, decide_eq_true_eq, ge_iff_le, UInt32.le_iff_toNat_le]
  change 48 ≤ c.toNat ∧ c.toNat ≤ 55 at digit
  change 48 ≤ c.toNat ∧ c.toNat ≤ 57
  omega

theorem ipv4Number_label {label : Text} (some : label ≠ []) (chars : ∀ c ∈ label, nameChar c = true ∨ c = '-')
    (numeric : numericLabel label = false) (number : (ipv4Number label).isSome = true) : label = ['0', 'x'] := by
  simp only [numericLabel, Bool.or_eq_false_iff] at numeric
  have digits : label.all Char.isDigit = false := by simpa [some] using numeric.1
  unfold ipv4Number at number
  rw [if_neg some] at number
  split at number
  · next hex =>
      split at number
      · next all =>
          obtain ⟨a, b, rest, rfl⟩ : ∃ a b rest, label = a :: b :: rest := by
            cases label with
            | nil => exact absurd rfl some
            | cons a tail =>
              cases tail with
              | nil => simp at hex
              | cons b rest => exact ⟨a, b, rest, rfl⟩
          simp only [List.take_succ_cons, List.take_zero, List.cons.injEq, and_true] at hex
          rcases hex with ⟨rfl, rfl⟩ | ⟨rfl, rfl⟩
          · have each : rest.all (fun c => c.isDigit || ('a' ≤ c && c ≤ 'f')) = true := by
              rw [List.all_eq_true] at all ⊢
              exact fun c member => hexChar_nameChar (all c member) (chars c (by simp [member]))
            simp only [List.take_succ_cons, List.take_zero, beq_self_eq_true, List.drop_succ_cons,
              List.drop_zero, each, Bool.true_and,
              Bool.and_true, List.length_cons, decide_eq_false_iff_not, Nat.lt_add_left_iff_pos] at numeric
            rw [List.length_eq_zero_iff.mp (Nat.eq_zero_of_not_pos numeric.2)]
          · exact absurd (chars 'X' (by simp)) (by decide)
      · cases number
  · split at number
    · split at number
      · next all =>
          have decimal : label.all Char.isDigit = true := by
            rw [List.all_eq_true] at all ⊢
            exact fun c member => octalChar_isDigit (all c member)
          rw [decimal] at digits
          cases digits
      · cases number
    · split at number
      · next all =>
          rw [all] at digits
          cases digits
      · cases number

/-- The one number that the pattern of the last label leaves out. -/
theorem endsInNumber_name (named : hostName host = true) (numeric : numericLabel (lastLabel host) = false) :
    endsInNumber host = true ↔ lastLabel host = ['0', 'x'] := by
  obtain ⟨whole, some, chars⟩ := lastLabel_name named
  have last : (labels host).getLast? = Option.some (lastLabel host) := by
    rw [whole]
    exact getLast_splitOn '.' host
  rw [endsInNumber, last, Option.any_some]
  constructor
  · intro number
    rw [Bool.or_eq_true] at number
    rcases number with digits | number
    · simp only [numericLabel, digits, Bool.true_or] at numeric
      cases numeric
    · exact ipv4Number_label some chars numeric number
  · intro same
    rw [same]
    decide

theorem machine_name (named : hostName host = true)
    (numeric : numericLabel (lastLabel host) = false) (long : lastLabel host ≠ ['0', 'x']) :
    machine host = some (.name host) := by
  rw [machine, if_neg (not_mem_hostName named rfl (by decide) (by decide)), if_neg]
  rw [endsInNumber_name named numeric]
  exact long

/-- No address has the last label that the pattern leaves out. -/
theorem lastLabel_address {address : IpAddress.Address} (plain : '%' ∉ host)
    (same : address.text = host) : lastLabel host ≠ ['0', 'x'] := by
  intro short
  have member : 'x' ∈ host := @mem_of_mem_afterLast '.' _ _ (by rw [← lastLabel, short]; simp)
  subst same
  rcases IpAddress.text_chars plain 'x' member with digit | same | same
  · exact absurd digit (by decide)
  · cases same
  · cases same

/-- Two hosts name two machines. -/
theorem machine_injective {other otherWire : Text} (wired : hostWire host = some wire)
    (wired' : hostWire other = some otherWire)
    (plain : '%' ∉ host) (plain' : '%' ∉ other) (long : lastLabel host ≠ ['0', 'x'])
    (long' : lastLabel other ≠ ['0', 'x'])
    (same : machine host = machine other) : host = other := by
  rcases hostWire_cases wired with ⟨address, read, written, -⟩ | ⟨-, named, numeric, -⟩ <;>
    rcases hostWire_cases wired' with ⟨address', read', written', -⟩ | ⟨-, named', numeric', -⟩
  · rw [← written, ← written', machine_address plain plain' read read' same]
  · rw [machine_name named' numeric' long'] at same
    exact absurd same (machine_ne_name plain read)
  · rw [machine_name named numeric long] at same
    exact absurd same.symm (machine_ne_name plain' read')
  · rw [machine_name named numeric long, machine_name named' numeric' long', Option.some.injEq,
      Machine.name.injEq] at same
    exact same

end Hosts

end ProxyPilot.Gateway.Url
