import ProxyPilot.Data.UrlSplit

namespace ProxyPilot.Data.HostNames

/-! # What a host names

The host reader of the URL standard for hosts of lower-case ASCII text.  A host whose last label is a
number is an IPv4 address in one of its old spellings; a host with a colon stood in brackets.
-/

abbrev Text := List Char

inductive Machine where
  | v4 (address : Nat)
  | v6 (hextets : List Nat)
  | name (text : Text)
deriving DecidableEq

/-- A number in decimal, in octal behind a zero, or in hexadecimal behind `0x`, where no digit is zero. -/
def ipv4Number (part : Text) : Option Nat :=
  if part = [] then none
  else if part.take 2 = ['0', 'x'] ∨ part.take 2 = ['0', 'X'] then
    if (part.drop 2).all hexChar = true
      then some ((part.drop 2).foldl (fun value c => value * 16 + Percent.hexValue c) 0) else none
  else if part.head? = some '0' ∧ 1 < part.length then
    if part.all octalChar = true then some (Nat.ofDigitChars 8 part 0) else none
  else if part.all Char.isDigit = true then some (Nat.ofDigitChars 10 part 0)
  else none

/-- The labels; one empty label at the end does not count. -/
def labels (host : Text) : List Text :=
  let parts := host.splitOn '.'
  if parts.getLast? = some [] ∧ 1 < parts.length then parts.dropLast else parts

def endsInNumber (host : Text) : Bool :=
  (labels host).getLast?.any fun last => (last != [] && last.all Char.isDigit) || (ipv4Number last).isSome

/-- The last number fills the octets that are left. -/
def ipv4Value (numbers : List Nat) : Option Nat :=
  match numbers with
  | [a] => if a < 256 ^ 4 then some a else none
  | [a, b] => if a ≤ 255 ∧ b < 256 ^ 3 then some (a * 256 ^ 3 + b) else none
  | [a, b, c] => if a ≤ 255 ∧ b ≤ 255 ∧ c < 256 ^ 2 then some (a * 256 ^ 3 + b * 256 ^ 2 + c) else none
  | [a, b, c, d] =>
    if a ≤ 255 ∧ b ≤ 255 ∧ c ≤ 255 ∧ d < 256 then some (a * 256 ^ 3 + b * 256 ^ 2 + c * 256 + d) else none
  | _ => none

def machine (host : Text) : Option Machine :=
  if ':' ∈ host then (IpAddress.hextetsOf host).map .v6
  else if endsInNumber host = true then (((labels host).mapM ipv4Number).bind ipv4Value).map .v4
  else some (.name host)

example : machine "0x".toList = machine "0.0.0.0".toList := by decide
example : machine "0x7f.1".toList = some (.v4 0x7f000001) := by decide

variable {part : Text} {address : IpAddress.Address}

theorem ipv4Number_of_digits (digits : part.all Char.isDigit = true) (some : part ≠ [])
    (plain : part = ['0'] ∨ part.head? ≠ Option.some '0') :
    ipv4Number part = Option.some (Nat.ofDigitChars 10 part 0) := by
  have free : ∀ mark : Char, mark.isDigit = false → part.take 2 ≠ ['0', mark] := fun mark other same =>
    have member : mark ∈ part := List.mem_of_mem_take (i := 2) (by simp [same])
    absurd (List.all_eq_true.mp digits mark member) (by simp [other])
  have decimal : ¬(part.head? = Option.some '0' ∧ 1 < part.length) := by
    rintro ⟨zero, long⟩
    rcases plain with rfl | other
    · simp at long
    · exact other zero
  rw [ipv4Number, if_neg some, if_neg (not_or.mpr ⟨free 'x' rfl, free 'X' rfl⟩), if_neg decimal, if_pos digits]

theorem number_of_octet {octet : Nat} (read : IpAddress.parseOctet part = some octet) :
    ipv4Number part = some octet ∧ part ≠ [] ∧ part.all Char.isDigit = true ∧ octet ≤ 255 := by
  simp only [IpAddress.parseOctet, Option.ite_none_right_eq_some, Option.some.injEq] at read
  obtain ⟨⟨some, digits, -, plain⟩, small, rfl⟩ := read
  exact ⟨ipv4Number_of_digits digits some plain, some, digits, small⟩

variable {octets : List Nat} {host : Text}

theorem octets_of_mapM {parts : List Text} (read : parts.mapM IpAddress.parseOctet = some octets) :
    parts.mapM ipv4Number = some octets ∧
      (∀ part ∈ parts, part ≠ [] ∧ part.all Char.isDigit = true) ∧ (∀ octet ∈ octets, octet ≤ 255) ∧
      octets.length = parts.length := by
  induction parts generalizing octets with
  | nil =>
    cases read
    simp
  | cons part parts ih =>
    simp only [List.mapM_cons, Option.bind_eq_bind, Option.bind_eq_some_iff, Option.pure_def,
      Option.some.injEq] at read
    obtain ⟨octet, first, rest, others, rfl⟩ := read
    obtain ⟨number, some, digits, small⟩ := number_of_octet first
    obtain ⟨numbers, each, bounded, length⟩ := ih others
    refine ⟨?_, List.forall_mem_cons.mpr ⟨⟨some, digits⟩, each⟩,
      List.forall_mem_cons.mpr ⟨small, bounded⟩, by simp [length]⟩
    simp [List.mapM_cons, number, numbers]

/-- Four octets, the number of the address. -/
def quad (octets : List Nat) : Nat := octets.foldl (fun value octet => value * 256 + octet) 0

theorem ipv4Value_quad (four : octets.length = 4) (small : ∀ octet ∈ octets, octet ≤ 255) :
    ipv4Value octets = some (quad octets) := by
  match octets, four with
  | [a, b, c, d], _ =>
    simp only [List.forall_mem_cons] at small
    rw [ipv4Value, if_pos ⟨small.1, small.2.1, small.2.2.1, by omega⟩]
    simp only [quad, List.foldl_cons, List.foldl_nil, Option.some.injEq]
    omega

theorem quad_injective {octets others : List Nat} (four : octets.length = 4)
    (four' : others.length = 4) (small : ∀ octet ∈ octets, octet ≤ 255)
    (small' : ∀ octet ∈ others, octet ≤ 255) (same : quad octets = quad others) : octets = others := by
  match octets, four, others, four' with
  | [a, b, c, d], _, [a', b', c', d'], _ =>
    simp only [List.forall_mem_cons] at small small'
    simp only [quad, List.foldl_cons, List.foldl_nil] at same
    have first : a = a' := by omega
    have second : b = b' := by omega
    have third : c = c' := by omega
    have fourth : d = d' := by omega
    rw [first, second, third, fourth]

theorem machine_v4 (read : IpAddress.octetsOf host = some octets) :
    machine host = some (.v4 (quad octets)) ∧ octets.length = 4 ∧ ∀ octet ∈ octets, octet ≤ 255 := by
  simp only [IpAddress.octetsOf, Option.ite_none_right_eq_some] at read
  obtain ⟨four, read⟩ := read
  obtain ⟨numbers, each, small, length⟩ := octets_of_mapM read
  have colon : ':' ∉ host := fun member => by
    rcases @IpAddress.mem_splitOn '.' _ _ member with same | ⟨part, listed, inside⟩
    · cases same
    · exact absurd (List.all_eq_true.mp (each part listed).2 _ inside) (by decide)
  obtain ⟨front, last, parts⟩ : ∃ front last, host.splitOn '.' = front ++ [last] := by
    cases shape : (host.splitOn '.').getLast? with
    | none => exact absurd (List.getLast?_eq_none_iff.mp shape) (List.splitOn_ne_nil _ _)
    | some last => exact ⟨_, last, (List.dropLast_append_getLast? last shape).symm⟩
  have filled : last ≠ [] ∧ last.all Char.isDigit = true := each last (by simp [parts])
  have whole : labels host = host.splitOn '.' := by
    rw [labels, if_neg]
    simp [parts, filled.1]
  have number : endsInNumber host = true := by
    simp [endsInNumber, whole, parts, filled]
  rw [machine, if_neg colon, if_pos number, whole, numbers, Option.bind_some,
    ipv4Value_quad (length.trans four) small]
  exact ⟨rfl, length.trans four, small⟩

theorem machine_v6 {hextets : List Nat} {zone : Option Text} (plain : '%' ∉ host)
    (read : IpAddress.parseV6 host = some (.v6 hextets zone)) : machine host = some (.v6 hextets) ∧
    zone = none := by
  rw [IpAddress.parseV6, IpAddress.zoneOf, if_neg plain, Option.bind_some, Option.map_eq_some_iff] at read
  obtain ⟨found, read, same⟩ := read
  cases same
  have colon : ':' ∈ host := by
    by_contra free
    rw [IpAddress.hextetsOf, if_pos (.inr (by rw [List.splitOn_eq_singleton free]; simp))] at read
    cases read
  rw [machine, if_pos colon, read]
  exact ⟨rfl, rfl⟩

theorem ipAddress_cases (read : IpAddress.ipAddress host = some address) :
    (∃ octets, address = .v4 octets ∧ IpAddress.octetsOf host = some octets) ∨
      ∃ hextets zone, address = .v6 hextets zone ∧ IpAddress.parseV6 host = some (.v6 hextets zone) := by
  rw [IpAddress.ipAddress, Option.ite_none_left_eq_some] at read
  replace read := read.2
  split at read
  · next octets found =>
      cases read
      exact .inl ⟨octets, rfl, found⟩
  · have shape := read
    simp only [IpAddress.parseV6, Option.bind_eq_some_iff, Option.map_eq_some_iff] at shape
    obtain ⟨parts, -, hextets, -, rfl⟩ := shape
    exact .inr ⟨hextets, parts.2, rfl, read⟩

/-- Of the hosts that name one address, one is the spelling of the writer. -/
theorem machine_address {host other : Text} {address found : IpAddress.Address} (plain : '%' ∉ host)
    (plain' : '%' ∉ other)
    (read : IpAddress.ipAddress host = some address) (read' : IpAddress.ipAddress other = some found)
    (same : machine host = machine other) : address = found := by
  rcases ipAddress_cases read with ⟨octets, rfl, reads⟩ | ⟨hextets, zone, rfl, reads⟩ <;>
    rcases ipAddress_cases read' with ⟨octets', rfl, reads'⟩ | ⟨hextets', zone', rfl, reads'⟩
  · obtain ⟨named, four, small⟩ := machine_v4 reads
    obtain ⟨named', four', small'⟩ := machine_v4 reads'
    rw [named, named', Option.some.injEq, Machine.v4.injEq] at same
    rw [quad_injective four four' small small' same]
  · rw [(machine_v4 reads).1, (machine_v6 plain' reads').1] at same
    cases same
  · rw [(machine_v6 plain reads).1, (machine_v4 reads').1] at same
    cases same
  · obtain ⟨named, rfl⟩ := machine_v6 plain reads
    obtain ⟨named', rfl⟩ := machine_v6 plain' reads'
    rw [named, named', Option.some.injEq, Machine.v6.injEq] at same
    rw [same]

/-- An address is no name. -/
theorem machine_ne_name {host name : Text} (plain : '%' ∉ host)
    (read : IpAddress.ipAddress host = some address) : machine host ≠ some (.name name) := by
  intro named
  rcases ipAddress_cases read with ⟨octets, rfl, reads⟩ | ⟨hextets, zone, rfl, reads⟩
  · rw [(machine_v4 reads).1] at named
    cases named
  · rw [(machine_v6 plain reads).1] at named
    cases named

end ProxyPilot.Data.HostNames
