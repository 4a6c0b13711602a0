import Mathlib.Data.List.Basic
import ProxyPilot.Data.Percent

namespace ProxyPilot.Data.IpAddress

/-! # IP address literals

The reader and the writer of Python's `ipaddress` (3.12).  An IPv4 address is its four octets, an IPv6
address its eight hextets with the zone behind a percent sign.
-/

abbrev Text := List Char

inductive Address where
  | v4 (octets : List Nat)
  | v6 (hextets : List Nat) (zone : Option Text)

def parseOctet (octet : Text) : Option Nat :=
  if octet ≠ [] ∧ octet.all Char.isDigit = true ∧ octet.length ≤ 3 ∧ (octet = ['0'] ∨ octet.head? ≠ some '0') then
    let value := Nat.ofDigitChars 10 octet 0
    if value ≤ 255 then some value else none
  else none

def octetsOf (text : Text) : Option (List Nat) :=
  let octets := text.splitOn '.'
  if octets.length = 4 then octets.mapM parseOctet else none

def parseHextet (hextet : Text) : Option Nat :=
  if hextet ≠ [] ∧ hextet.all hexChar = true ∧ hextet.length ≤ 4 then
    some (hextet.foldl (fun value c => value * 16 + Percent.hexValue c) 0)
  else none

def lowerHex (n : Nat) : Text := Nat.toDigits 16 n

/-- An IPv4 suffix counts as two hextets. -/
def withSuffix (parts : List Text) : Option (List Text) :=
  match parts.getLast? with
  | some last =>
    if '.' ∈ last then
      match octetsOf last with
      | some [a, b, c, d] => some (parts.dropLast ++ [lowerHex (a * 256 + b), lowerHex (c * 256 + d)])
      | _ => none
    else some parts
  | none => none

/-- The places inside, but not at an end, where nothing stands between two colons. -/
def skips (parts : List Text) : List Nat := (List.range' 1 (parts.length - 2)).filter fun i => parts[i]? == some []

def hextetsOf (text : Text) : Option (List Nat) :=
  if text = [] ∨ (text.splitOn ':').length < 3 then none
  else (withSuffix (text.splitOn ':')).bind fun parts =>
    if 9 < parts.length then none
    else match skips parts with
      | [] =>
        if parts.length = 8 then parts.mapM parseHextet else none
      | [skip] =>
        let front := parts.take skip
        let back := parts.drop (skip + 1)
        -- an empty part at an end needs the other colon beside it
        if front.head? = some [] ∧ front ≠ [[]] ∨ back.getLast? = some [] ∧ back ≠ [[]] then none
        else
          let front := if front = [[]] then [] else front
          let back := if back = [[]] then [] else back
          if front.length + back.length < 8 then do
            let high ← front.mapM parseHextet
            let low ← back.mapM parseHextet
            some (high ++ List.replicate (8 - (front.length + back.length)) 0 ++ low)
          else none
      | _ => none

/-- The address and its zone. -/
def zoneOf (text : Text) : Option (Text × Option Text) :=
  if '%' ∈ text then
    let zone := (text.dropWhile (· != '%')).drop 1
    if zone = [] ∨ '%' ∈ zone then none else some (text.takeWhile (· != '%'), some zone)
  else some (text, none)

def parseV6 (text : Text) : Option Address :=
  (zoneOf text).bind fun (address, zone) => (hextetsOf address).map (.v6 · zone)

/-- `ipaddress.ip_address` -/
def ipAddress (text : Text) : Option Address :=
  if '/' ∈ text then none
  else match octetsOf text with
    | some octets => some (.v4 octets)
    | none => parseV6 text

/-- The best run of zeros so far and the run that is going on, as start and length. -/
structure Zeros where
  best : Nat × Nat
  current : Option (Nat × Nat)

def Zeros.step (zeros : Zeros) (hextet : Text × Nat) : Zeros :=
  if hextet.1 = ['0'] then
    let current := match zeros.current with
      | some (start, length) => (start, length + 1)
      | none => (hextet.2, 1)
    ⟨if zeros.best.2 < current.2 then current else zeros.best, some current⟩
  else ⟨zeros.best, none⟩

def compressHextets (hextets : List Text) : List Text :=
  let (start, length) := (hextets.zipIdx.foldl Zeros.step ⟨(0, 0), none⟩).best
  if 1 < length then
    let behind := if start + length = hextets.length then [[]] else hextets.drop (start + length)
    (if start = 0 then [[]] else hextets.take start) ++ [] :: behind
  else hextets

def Address.text : Address → Text
  | .v4 octets => ['.'].intercalate (octets.map (Nat.toDigits 10))
  | .v6 hextets none => [':'].intercalate (compressHextets (hextets.map lowerHex))
  | .v6 hextets (some zone) => [':'].intercalate (compressHextets (hextets.map lowerHex)) ++ '%' :: zone

theorem mem_intercalate {mark c : Char} {parts : List Text}
    (member : c ∈ [mark].intercalate parts) : c = mark ∨ ∃ part ∈ parts, c ∈ part := by
  induction parts with
  | nil => cases member
  | cons part parts ih =>
    cases parts with
    | nil => exact .inr ⟨part, List.mem_cons_self, by simpa [List.intercalate_singleton] using member⟩
    | cons next parts =>
      rw [List.intercalate_cons_cons, List.mem_append, List.mem_append, List.mem_singleton] at member
      rcases member with (inside | rfl) | later
      · exact .inr ⟨part, List.mem_cons_self, inside⟩
      · exact .inl rfl
      · rcases ih later with same | ⟨other, listed, inside⟩
        · exact .inl same
        · exact .inr ⟨other, List.mem_cons_of_mem _ listed, inside⟩

theorem mem_splitOn {mark c : Char} {text : Text} (member : c ∈ text) :
    c = mark ∨ ∃ part ∈ text.splitOn mark, c ∈ part := by
  apply mem_intercalate
  rwa [List.intercalate_splitOn]

theorem hexDigit_toDigits {base : Nat} (base_gt : 1 < base) (base_le : base ≤ 16) (n : Nat) :
    ∀ c ∈ Nat.toDigits base n, hexChar c = true := by
  have digit : ∀ n < 16, hexChar n.digitChar = true := by decide
  induction n using Nat.strongRecOn with
  | ind n ih =>
    rw [Nat.toDigits_eq_if base_gt]
    split
    · simpa using digit n (by omega)
    · next large =>
        have below := Nat.mod_lt n (show base > 0 by omega)
        intro c member
        rcases List.mem_append.mp member with front | last
        · exact ih _ (Nat.div_lt_self (by omega) base_gt) c front
        · rw [List.mem_singleton.mp last]
          exact digit _ (by omega)

theorem mem_compressHextets {hextets : List Text} {part : Text} (member : part ∈ compressHextets hextets) :
    part = [] ∨ part ∈ hextets := by
  unfold compressHextets at member
  dsimp only at member
  split at member
  · rcases List.mem_append.mp member with front | back
    · split at front
      · simp at front; exact .inl front
      · exact .inr (List.mem_of_mem_take front)
    · rcases List.mem_cons.mp back with rfl | back
      · exact .inl rfl
      · split at back
        · simp at back; exact .inl back
        · exact .inr (List.mem_of_mem_drop back)
  · exact .inr member

theorem text_chars {address : Address} (plain : '%' ∉ address.text) :
    ∀ c ∈ address.text, hexChar c = true ∨ c = '.' ∨ c = ':' := by
  intro c member
  cases address with
  | v4 octets =>
    rcases mem_intercalate member with same | ⟨part, listed, inside⟩
    · exact .inr (.inl same)
    · obtain ⟨octet, -, rfl⟩ := List.mem_map.mp listed
      exact .inl (hexDigit_toDigits (by decide) (by decide) octet c inside)
  | v6 hextets zone =>
    cases zone with
    | none =>
      rcases mem_intercalate member with same | ⟨part, listed, inside⟩
      · exact .inr (.inr same)
      · rcases mem_compressHextets listed with rfl | listed
        · cases inside
        · obtain ⟨hextet, -, rfl⟩ := List.mem_map.mp listed
          exact .inl (hexDigit_toDigits (by decide) (by decide) hextet c inside)
    | some zone => simp [Address.text] at plain

/-- The text names an address and is the spelling the writer gives it. -/
def Canonical (text : Text) : Prop := ∃ address, ipAddress text = some address ∧ address.text = text

example : (ipAddress "fd00:0:0::4".toList).map Address.text = some "fd00::4".toList := by decide
example : (ipAddress "1:0:0:2:0:0:0:3".toList).map Address.text = some "1:0:0:2::3".toList := by decide
example : ipAddress "127.0.0.01".toList = none := by decide

end ProxyPilot.Data.IpAddress
