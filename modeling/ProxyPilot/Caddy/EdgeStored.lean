import Mathlib.Data.List.DropRight
import ProxyPilot.Caddy.EdgeOptions

namespace ProxyPilot.Caddy.Edge

open Data Data.Tokens

/-- What the checks leave of an option's value. -/
structure Accepted (o : Options) : Prop where
  headers : ∀ h, o.headers = some (some h) → ∀ header ∈ h, headerName header.1 = true
  csp : ∀ t, o.csp = some (some t) → trim t = t
  users : ∀ us, o.basic_auth = some (some us) → us ≠ [] ∧ ∀ u ∈ us, userName u.username = true ∧
    bcryptStart u.hash = true
  networks : ∀ l, o.ip_allowlist = some (some l) → l ≠ [] ∧ ∀ s ∈ l, cidr s = true
  limit : ∀ r, o.rate_limit = some (some r) →
    1 ≤ r.events ∧ windowText r.window = true ∧ (r.key = PATH_KEY ∨ r.key = REMOTE_KEY)

theorem dropEnd_prefix (drops : Char → Bool) (text : Text) : ∃ back, text = dropEnd drops text ++ back := by
  refine ⟨(text.reverse.takeWhile drops).reverse, ?_⟩
  rw [dropEnd, ← List.reverse_append, List.takeWhile_append_dropWhile, List.reverse_reverse]

theorem trim_trim (text : Text) : trim (trim text) = trim text := by
  have again : dropEnd whiteSpace (trim text) = trim text := by
    rw [trim, dropEnd, dropEnd, List.reverse_reverse, List.dropWhile_idempotent]
  obtain ⟨back, whole⟩ := dropEnd_prefix whiteSpace (text.dropWhile whiteSpace)
  rw [← trim] at whole
  cases start : trim text with
  | nil => rfl
  | cons c rest =>
    have dark : whiteSpace c = false := by
      have first := List.head?_dropWhile_not whiteSpace text
      rw [whole, start, List.cons_append] at first
      exact first
    rw [start] at again
    rw [trim, List.dropWhile_cons_of_neg (by simp [dark]), again]

variable {check : Json → Except Text (Option α)} {a : α}

theorem given_ok {input : Option Json}
    (ok : given check input = .ok (some (some a))) : ∃ value, input = some value ∧ check value = .ok (some a) := by
  cases input with
  | none => cases ok
  | some value =>
    obtain ⟨checked, first, same⟩ := bind_ok.mp ok
    cases same
    exact ⟨value, rfl, first⟩

variable {value : Json}

theorem headerValue_ok {name : Text} {out : Option Text} (ok : headerValue name value = .ok out) :
    value = valueJson out := by
  cases value with
  | null =>
    cases ok
    rfl
  | text value =>
    rw [headerValue] at ok
    split at ok
    · cases ok
    · cases ok
      rfl
  | bool value => cases ok
  | number value => cases ok
  | array items => cases ok
  | object fields => cases ok

theorem given_some {out : Option (Option α)}
    (ok : given check (some value) = .ok out) : ∃ checked, check value = .ok checked ∧ out = some checked := by
  obtain ⟨checked, first, same⟩ := bind_ok.mp ok
  cases same
  exact ⟨checked, first, rfl⟩

theorem checkHeader_ok {header : Text × Json} {out : Text × Option Text} (ok : checkHeader header = .ok out) :
    headerName out.1 = true ∧ header = (out.1, valueJson out.2) := by
  rw [checkHeader] at ok
  split at ok
  · cases ok
  · next named =>
    split at ok
    · cases ok
    · obtain ⟨value, checked, same⟩ := bind_ok.mp ok
      cases same
      exact ⟨by simpa using named, Prod.ext rfl (headerValue_ok checked)⟩

theorem checkHeaders_ok {h : List (Text × Option Text)} (ok : checkHeaders value = .ok (some h)) :
    ∃ fields, value = .object fields ∧ fields.mapM checkHeader = .ok h := by
  cases value with
  | object fields =>
    obtain ⟨out, mapped, same⟩ := bind_ok.mp ok
    split at same
    · cases same
    · cases same
      exact ⟨fields, rfl, mapped⟩
  | null => cases ok
  | bool value => cases ok
  | number value => cases ok
  | text value => cases ok
  | array items => cases ok

theorem checkCsp_ok {out : Text} (ok : checkCsp value = .ok (some out)) :
    ∃ text, value = .text text ∧ out = trim text := by
  cases value with
  | text text =>
    cases text with
    | nil => cases ok
    | cons c rest =>
      rw [checkCsp] at ok
      · split at ok
        · cases ok
        · cases ok
          exact ⟨_, rfl, rfl⟩
      · simp
  | null => cases ok
  | bool value => cases ok
  | number value => cases ok
  | array items => cases ok
  | object fields => cases ok

theorem checkUser_ok {hasher : Hasher} {u : Json} {user : User} (ok : checkUser hasher u = .ok user) :
    userName user.username = true ∧ bcryptStart user.hash = true ∧
      (bcryptStart (fieldText "password_hash" u) = true ∧ user.hash = fieldText "password_hash" u ∨
        bcryptStart (fieldText "password_hash" u) = false ∧ BcryptHash user.hash) := by
  simp only [checkUser] at ok
  split at ok
  · cases ok
  · next named =>
    split at ok
    · next own =>
      cases ok
      exact ⟨by simpa using named, own, .inl ⟨own, rfl⟩⟩
    · next other =>
      split at ok
      · cases ok
      · cases ok
        have hashed := hasher.bcrypt (fieldText "password" u)
        exact ⟨by simpa using named, hashed.1, .inr ⟨by simpa using other, hashed⟩⟩

theorem checkBasicAuth_ok {bcryptHash : Option Hasher} {users : List User}
    (ok : checkBasicAuth bcryptHash value = .ok (some users)) :
    ∃ hasher items, value = .array items ∧ items ≠ [] ∧ items.mapM (checkUser hasher) = .ok users := by
  cases value with
  | array items =>
    cases items with
    | nil => cases ok
    | cons first rest =>
      cases bcryptHash with
      | none => cases ok
      | some hasher =>
        obtain ⟨out, mapped, same⟩ := bind_ok.mp ok
        cases same
        exact ⟨hasher, _, rfl, by simp, mapped⟩
  | null => cases ok
  | bool value => cases ok
  | number value => cases ok
  | text value => cases ok
  | object fields => cases ok

theorem checkAllowlist_ok {list : List Text} (ok : checkAllowlist value = .ok (some list)) :
    list ≠ [] ∧ ∀ s ∈ list, cidr s = true := by
  cases value with
  | array items =>
    cases items with
    | nil => cases ok
    | cons first rest =>
      simp only [checkAllowlist] at ok
      split at ok
      · cases ok
      · next fine =>
        cases ok
        constructor
        · simp [List.eraseDups_cons]
        · intro s member
          have listed := List.mem_eraseDups.mp member
          have good := List.filter_eq_nil_iff.mp (not_not.mp fine) s listed
          simp only [badNetwork, Bool.or_eq_true, Bool.not_eq_true', not_or] at good
          simpa using good.1.1
  | null => cases ok
  | bool value => cases ok
  | number value => cases ok
  | text value => cases ok
  | object fields => cases ok

theorem checkRateLimit_ok {wholeNumber : Json → Option Nat} {available : Option Bool} {r : RateLimit}
    (ok : checkRateLimit wholeNumber available value = .ok (some r)) :
    1 ≤ r.events ∧ windowText r.window = true ∧ (r.key = PATH_KEY ∨ r.key = REMOTE_KEY) := by
  by_cases null : value = .null
  · subst null
    cases ok
  · rw [checkRateLimit] at ok
    · simp only at ok
      split at ok
      · cases ok
      · next number =>
        split at ok
        · cases ok
        · next window =>
          split at ok
          · cases ok
          · cases ok
            refine ⟨by simp only; omega, by simpa using window, ?_⟩
            simp only
            split
            · split
              · exact .inl rfl
              · exact .inr rfl
            · exact .inr rfl
    · exact null

section

variable {bcryptHash : Option Hasher} {wholeNumber : Json → Option Nat} {available : Option Bool} {input : Input}
  {o : Options} (ok : validateRouteEdgeOptions bcryptHash wholeNumber available input = .ok o)
include ok

theorem validated : given checkHeaders input.headers = .ok o.headers ∧ given checkCsp input.csp = .ok o.csp ∧
    given (checkBasicAuth bcryptHash) input.basic_auth = .ok o.basic_auth ∧
    given checkAllowlist input.ip_allowlist = .ok o.ip_allowlist ∧
    given (checkRateLimit wholeNumber available) input.rate_limit = .ok o.rate_limit := by
  obtain ⟨headers, first, rest⟩ := bind_ok.mp ok
  obtain ⟨csp, second, rest⟩ := bind_ok.mp rest
  obtain ⟨users, third, rest⟩ := bind_ok.mp rest
  obtain ⟨networks, fourth, rest⟩ := bind_ok.mp rest
  obtain ⟨limit, fifth, same⟩ := bind_ok.mp rest
  cases same
  exact ⟨first, second, third, fourth, fifth⟩

theorem accepted_of_validate : Accepted o := by
  obtain ⟨headers, csp, users, networks, limit⟩ := validated ok
  constructor
  · intro h there header member
    obtain ⟨value, -, checked⟩ := given_ok (there ▸ headers)
    obtain ⟨fields, -, mapped⟩ := checkHeaders_ok checked
    obtain ⟨field, -, one⟩ := (mem_mapM_ok mapped).mp member
    exact (checkHeader_ok one).1
  · intro t there
    obtain ⟨value, -, checked⟩ := given_ok (there ▸ csp)
    obtain ⟨text, -, rfl⟩ := checkCsp_ok checked
    exact trim_trim text
  · intro us there
    obtain ⟨value, -, checked⟩ := given_ok (there ▸ users)
    obtain ⟨hasher, items, -, some, mapped⟩ := checkBasicAuth_ok checked
    constructor
    · intro empty
      obtain ⟨u, rest, rfl⟩ := List.exists_cons_of_ne_nil some
      obtain ⟨user, one⟩ := mapM_ok_each mapped List.mem_cons_self
      have member := (mem_mapM_ok mapped).mpr ⟨u, List.mem_cons_self, one⟩
      rw [empty] at member
      cases member
    · intro u member
      obtain ⟨item, -, one⟩ := (mem_mapM_ok mapped).mp member
      have facts := checkUser_ok one
      exact ⟨facts.1, facts.2.1⟩
  · intro l there
    obtain ⟨value, -, checked⟩ := given_ok (there ▸ networks)
    exact checkAllowlist_ok checked
  · intro r there
    obtain ⟨value, -, checked⟩ := given_ok (there ▸ limit)
    exact checkRateLimit_ok checked

end

section

variable (b : Blanks)

/-- Header values and policy do not end in a backslash, and a hash handed in has no blank and no line
feed. -/
structure Input.Plain (input : Input) : Prop where
  headers : ∀ fields, input.headers = some (.object fields) → ∀ name text, (name, .text text) ∈ fields →
    text.getLast? ≠ some '\\'
  csp : ∀ text, input.csp = some (.text text) → (trim text).getLast? ≠ some '\\'
  hashes : ∀ items, input.basic_auth = some (.array items) → ∀ u ∈ items,
    bcryptStart (fieldText "password_hash" u) = true → ∀ c ∈ fieldText "password_hash" u, Dark b c

structure Options.Plain (o : Options) : Prop where
  headers : ∀ h, o.headers = some (some h) → ∀ name text, (name, some text) ∈ h → text.getLast? ≠ some '\\'
  csp : ∀ text, o.csp = some (some text) → text.getLast? ≠ some '\\'
  hashes : ∀ users, o.basic_auth = some (some users) → ∀ u ∈ users, ∀ c ∈ u.hash, Dark b c

theorem dark_of_range {c : Char} (low : 0x21 ≤ c.toNat) (high : c.toNat ≤ 0x7E) : Dark b c := by
  refine ⟨?_, b.printable c low high⟩
  rintro rfl
  exact absurd low (by decide)

theorem alphanum_range {c : Char} (alphanum : c.isAlphanum = true) : 0x30 ≤ c.toNat ∧ c.toNat ≤ 0x7A := by
  have cases := alphanum_iff.mp alphanum
  omega

theorem dark_bcrypt {hash : Text} (hashed : BcryptHash hash) : ∀ c ∈ hash, Dark b c := by
  intro c member
  rcases hashed.2.2 c member with alphanum | rfl | rfl | rfl
  · have range := alphanum_range alphanum
    exact dark_of_range b (by omega) (by omega)
  · exact dark_of_range b (by decide) (by decide)
  · exact dark_of_range b (by decide) (by decide)
  · exact dark_of_range b (by decide) (by decide)

theorem plain_iff {bcryptHash : Option Hasher} {wholeNumber : Json → Option Nat}
    {available : Option Bool} {input : Input}
    {o : Options} (ok : validateRouteEdgeOptions bcryptHash wholeNumber available input = .ok o) :
    o.Plain b ↔ input.Plain b := by
  obtain ⟨headers, csp, users, -, -⟩ := validated ok
  constructor
  · intro plain
    constructor
    · intro fields there name text member
      obtain ⟨checked, first, stored⟩ := given_some (there ▸ headers)
      obtain ⟨h, mapped, same⟩ := bind_ok.mp first
      obtain ⟨out, one⟩ := mapM_ok_each mapped member
      have listed := (mem_mapM_ok mapped).mpr ⟨_, member, one⟩
      have shape := (checkHeader_ok one).2
      rw [if_neg (List.ne_nil_of_mem listed)] at same
      cases same
      refine plain.headers h stored name text ?_
      cases value : out.2 with
      | none => simp [value, valueJson] at shape
      | some kept =>
        simp only [value, valueJson, Prod.mk.injEq, Json.text.injEq] at shape
        rw [shape.1, shape.2, ← value]
        exact listed
    · intro text there
      obtain ⟨checked, first, stored⟩ := given_some (there ▸ csp)
      cases text with
      | nil => simp [trim, dropEnd]
      | cons c rest =>
        simp only [checkCsp] at first
        split at first
        · cases first
        · cases first
          exact plain.csp _ stored
    · intro items there u member own
      obtain ⟨checked, first, stored⟩ := given_some (there ▸ users)
      obtain ⟨front, rest, rfl⟩ := List.exists_cons_of_ne_nil (List.ne_nil_of_mem member)
      cases bcryptHash with
      | none => cases first
      | some hasher =>
        obtain ⟨us, mapped, same⟩ := bind_ok.mp first
        cases same
        obtain ⟨user, one⟩ := mapM_ok_each mapped member
        have listed := (mem_mapM_ok mapped).mpr ⟨u, member, one⟩
        rcases (checkUser_ok one).2.2 with ⟨-, same⟩ | ⟨other, -⟩
        · rw [← same]
          exact plain.hashes us stored user listed
        · rw [own] at other
          contradiction
  · intro plain
    constructor
    · intro h there name text member
      obtain ⟨value, given, checked⟩ := given_ok (there ▸ headers)
      obtain ⟨fields, rfl, mapped⟩ := checkHeaders_ok checked
      obtain ⟨field, listed, one⟩ := (mem_mapM_ok mapped).mp member
      obtain ⟨-, rfl⟩ := checkHeader_ok one
      exact plain.headers fields given name text listed
    · intro text there
      obtain ⟨value, given, checked⟩ := given_ok (there ▸ csp)
      obtain ⟨raw, rfl, rfl⟩ := checkCsp_ok checked
      exact plain.csp raw given
    · intro us there u member
      obtain ⟨value, given, checked⟩ := given_ok (there ▸ users)
      obtain ⟨hasher, items, rfl, -, mapped⟩ := checkBasicAuth_ok checked
      obtain ⟨item, listed, one⟩ := (mem_mapM_ok mapped).mp member
      rcases (checkUser_ok one).2.2 with ⟨own, same⟩ | ⟨-, hashed⟩
      · rw [same]
        exact plain.hashes items given item listed own
      · exact dark_bcrypt b hashed

end

/-- A row without options; the paths of an allowlist may be there. -/
def blankRow (paths : Option Text) : Row := ⟨none, none, none, none, paths, none⟩

theorem stringify_ne_nil (value : Json) : Json.stringify 0 value ≠ [] := by
  intro empty
  have back := Json.parse_stringify 0 value
  rw [empty] at back
  simp [Json.parse, Json.value, Json.skip, Json.natural] at back

theorem parseColumn_column (value : Option (Option Json)) :
    parseColumn (column none value) = value.join := by
  cases value with
  | none => rfl
  | some value =>
    cases value with
    | none => rfl
    | some json =>
      obtain ⟨c, rest, written⟩ := List.exists_cons_of_ne_nil (stringify_ne_nil json)
      have back := Json.parse_stringify 0 json
      rw [column, Option.map_some, written, parseColumn]
      · rw [← written, back]
        rfl
      · simp

/-- The options as a row gives them back. -/
def restored (o : Options) (paths : Option Text) : EdgeOptions :=
  { headers := o.headers.join.map fun headers => headers.map fun header => (header.1, valueJson header.2)
    csp := o.csp.join.filter (· ≠ [])
    basic_auth := o.basic_auth.join.map fun users => users.map userJson
    ip_allowlist := o.ip_allowlist.join.map fun list => list.map .text
    ip_allowlist_paths := o.ip_allowlist.join.bind fun _ => allowedPaths (parseColumn paths)
    rate_limit := o.rate_limit.join.map rateLimitJson }

theorem nonEmptyArray_map {items : Option (List α)} {f : α → Json}
    (some : ∀ list, items = Option.some list → list ≠ []) :
    nonEmptyArray (items.map fun list => Json.array (list.map f)) = items.map fun list => list.map f := by
  cases items with
  | none => rfl
  | some list =>
    obtain ⟨first, rest, rfl⟩ := List.exists_cons_of_ne_nil (some list rfl)
    rfl

theorem join_eq_some {value : Option (Option α)} (there : value.join = some a) : value = some (some a) :=
  Option.join_eq_some_iff.mp there

theorem join_map (value : Option (Option α)) (f : α → β) :
    (value.map fun value => value.map f).join = value.join.map f := by
  cases value with
  | none => rfl
  | some value => rfl

theorem limited_rateLimitJson {limit : RateLimit} (events : 1 ≤ limit.events) :
    limited (rateLimitJson limit) = true := by
  have field : (rateLimitJson limit).field "events".toList = some (.number limit.events) := rfl
  rw [limited, field]
  simp only [truthy, bne_iff_ne]
  omega

theorem readRow_store {o : Options} (accepted : Accepted o) (paths : Option Text) :
    readRow (storeOptions (blankRow paths) o) = restored o paths := by
  have networks := nonEmptyArray_map (f := Json.text) fun list there =>
      (accepted.networks list (join_eq_some there)).1
  have users := nonEmptyArray_map (f := userJson) fun list there => (accepted.users list (join_eq_some there)).1
  have csp : ((o.csp.getD none).map trim).filter (· ≠ []) = o.csp.join.filter (· ≠ []) := by
    cases stored : o.csp with
    | none => rfl
    | some text =>
      cases text with
      | none => rfl
      | some text => simp [accepted.csp text stored]
  have headers : objectFields (o.headers.map fun value => value.map headersJson).join =
      o.headers.join.map fun headers => headers.map fun header => (header.1, valueJson header.2) := by
    rw [join_map]
    cases o.headers.join <;> rfl
  have limit : rateLimitOf (o.rate_limit.map fun value => value.map rateLimitJson).join =
      o.rate_limit.join.map rateLimitJson := by
    rw [join_map]
    cases stored : o.rate_limit.join with
    | none => rfl
    | some limit => exact if_pos (limited_rateLimitJson (accepted.limit limit (join_eq_some stored)).1)
  simp only [readRow, storeOptions, blankRow, parseColumn_column, restored]
  rw [headers, csp, limit, join_map, join_map, networks, users]
  simp only [Option.bind_map, Function.comp_def]

end ProxyPilot.Caddy.Edge
