import ProxyPilot.Data.Blocks
import ProxyPilot.Data.Checks
import ProxyPilot.Data.Json

namespace ProxyPilot.Caddy.Edge

open Data Data.Tokens

/-! # The edge options of a route (`caddy-site-file.js`)

Options are checked, stored as JSON texts in the row of a route, read back, and rendered as lines of
the site file.  The numbers in them are natural numbers; options with other numbers are left out.
-/

mutual

/-- `String(value)` -/
def asText : Json → Text
  | .null => "null".toList
  | .bool value => (toString value).toList
  | .number value => Nat.toDigits 10 value
  | .text value => value
  | .array [] => []
  | .array (first :: rest) => itemText first ++ moreText rest
  | .object _ => "[object Object]".toList

/-- An item as `join` writes it. -/
def itemText : Json → Text
  | .null => []
  | .bool value => (toString value).toList
  | .number value => Nat.toDigits 10 value
  | .text value => value
  | .array [] => []
  | .array (first :: rest) => itemText first ++ moreText rest
  | .object _ => "[object Object]".toList

def moreText : List Json → Text
  | [] => []
  | first :: rest => ',' :: (itemText first ++ moreText rest)

end

@[simp] theorem asText_text (text : Text) : asText (.text text) = text := rfl

def truthy : Json → Bool
  | .null => false
  | .bool value => value
  | .number value => value != 0
  | .text value => value != []
  | .array _ => true
  | .object _ => true

/-- `String(value?.[name] || other)` -/
def fieldOr (name : String) (other : Text) (value : Json) : Text :=
  match value.field name.toList with
  | some found => if truthy found then asText found else other
  | none => other

def fieldText (name : String) (value : Json) : Text := fieldOr name [] value

structure User where
  username : Text
  hash : Text

structure RateLimit where
  events : Nat
  window : Text
  key : Text

/-- What `set_route_options` passes on; an option that is not there is `none`. -/
structure Input where
  headers : Option Json
  csp : Option Json
  basic_auth : Option Json
  ip_allowlist : Option Json
  rate_limit : Option Json

/-- The options to store: of one that is there, `none` removes it. -/
structure Options where
  headers : Option (Option (List (Text × Option Text)))
  csp : Option (Option Text)
  basic_auth : Option (Option (List User))
  ip_allowlist : Option (Option (List Text))
  rate_limit : Option (Option RateLimit)

/-- `HEADER_NAME_RE` -/
def headerName (name : Text) : Bool :=
  decide (1 ≤ name.length ∧ name.length ≤ 80) && name.all fun c => c.isAlphanum || c == '-'

def lowerCase (text : Text) : Text := text.map Char.toLower

def breaksLine (text : Text) : Bool := text.contains '\r' || text.contains '\n'

def headerValue (name : Text) : Json → Except Text (Option Text)
  | .null => .ok none
  | .text value =>
    if codeUnits value > 2000 ∨ breaksLine value then .error (name ++ ": value must be a single-line string".toList)
    else .ok (some value)
  | _ => .error (name ++ ": value must be a single-line string".toList)

def checkHeader (header : Text × Json) : Except Text (Text × Option Text) :=
  if ¬headerName header.1 then .error ("\"".toList ++ header.1 ++ "\" is not a valid header name".toList)
  else if lowerCase header.1 ∈ ["content-security-policy".toList, "set-cookie".toList] then
    .error (header.1 ++ " cannot be set through headers (use csp for the policy)".toList)
  else do
    let value ← headerValue header.1 header.2
    .ok (header.1, value)

def checkHeaders : Json → Except Text (Option (List (Text × Option Text)))
  | .null => .ok none
  | .object fields => do
    let h ← fields.mapM checkHeader
    .ok (if h = [] then none else some h)
  | _ =>
    .error "headers must be an object of \x7b \"Header-Name\": \"value\" \x7d (null value removes the header)".toList

def checkCsp : Json → Except Text (Option Text)
  | .null => .ok none
  | .text [] => .ok none
  | .text value =>
    if codeUnits value > 4000 ∨ breaksLine value ∨ value.contains '"' then
      .error "csp must be a single-line policy string without double quotes".toList
    else .ok (some (trim value))
  | _ => .error "csp must be a single-line policy string without double quotes".toList

/-- `/^[A-Za-z0-9._@-]{1,64}$/` -/
def userName (name : Text) : Bool :=
  decide (1 ≤ name.length ∧ name.length ≤ 64) &&
    name.all fun c => c.isAlphanum || c == '.' || c == '_' || c == '@' || c == '-'

/-- `/^\$2[aby]\$/` -/
def bcryptStart (hash : Text) : Bool :=
  match hash with
  | '$' :: '2' :: c :: '$' :: _ => c == 'a' || c == 'b' || c == 'y'
  | _ => false

/-- A bcrypt hash as a library writes it. -/
def BcryptHash (hash : Text) : Prop :=
  bcryptStart hash = true ∧ hash.length = 60 ∧ ∀ c ∈ hash, c.isAlphanum ∨ c = '$' ∨ c = '.' ∨ c = '/'

instance (hash : Text) : Decidable (BcryptHash hash) :=
  decidable_of_iff (bcryptStart hash = true ∧ hash.length = 60 ∧
    (hash.all fun c => c.isAlphanum || c == '$' || c == '.' || c == '/') = true)
    (by simp [BcryptHash, or_assoc])

structure Hasher where
  hash : Text → Text
  bcrypt : ∀ password, BcryptHash (hash password)

def checkUser (hasher : Hasher) (u : Json) : Except Text User :=
  let name := fieldText "username" u
  if ¬userName name then .error "basic_auth usernames: letters, digits, . _ @ -".toList
  else if bcryptStart (fieldText "password_hash" u) then .ok ⟨name, fieldText "password_hash" u⟩
  else
    let pw := fieldText "password" u
    if codeUnits pw < 8 ∨ codeUnits pw > 256 then
      .error ("basic_auth: ".toList ++ name ++ "'s password must be 8–256 characters".toList)
    else .ok ⟨name, hasher.hash pw⟩

def checkBasicAuth (bcryptHash : Option Hasher) : Json → Except Text (Option (List User))
  | .null => .ok none
  | .array (first :: rest) =>
    match bcryptHash with
    | none => .error "basic_auth needs a password hasher".toList
    | some hasher => do
      let users ← (first :: rest).mapM (checkUser hasher)
      .ok (some users)
  | _ => .error "basic_auth must be an array of \x7b username, password \x7d (or null to remove)".toList

def digitsBetween (least most : Nat) (text : Text) : Bool :=
  decide (least ≤ text.length ∧ text.length ≤ most) && text.all Char.isDigit

def ipv4 (text : Text) : Bool :=
  match text.splitOn '.' with
  | [a, b, c, d] => [a, b, c, d].all (digitsBetween 1 3)
  | _ => false

def ipv6 (text : Text) : Bool :=
  text != [] && text.all fun c => c.isDigit || ('a' ≤ c && c ≤ 'f') || ('A' ≤ c && c ≤ 'F') || c == ':'

/-- `CIDR_RE` -/
def cidr (text : Text) : Bool :=
  match text.splitOn '/' with
  | [address] => ipv4 address || ipv6 address
  | [address, length] => ipv4 address && digitsBetween 1 2 length || ipv6 address && digitsBetween 1 3 length
  | _ => false

def badNetwork (text : Text) : Bool := !cidr text || text == "0.0.0.0/0".toList || text == "::/0".toList

def checkAllowlist : Json → Except Text (Option (List Text))
  | .null => .ok none
  | .array (first :: rest) =>
    let list := (first :: rest).map fun s => trim (asText s)
    let bad := list.filter badNetwork
    if bad ≠ [] then .error ("ip_allowlist: not an IP or CIDR: ".toList ++ [',', ' '].intercalate bad)
    else .ok (some list.eraseDups)
  | _ => .error "ip_allowlist must be a non-empty array of IPs / CIDRs (or null to remove)".toList

/-- `/^\d{1,5}(s|m|h)$/` -/
def windowText (text : Text) : Bool :=
  digitsBetween 1 5 text.dropLast &&
    (text.getLast? == some 's' || text.getLast? == some 'm' || text.getLast? == some 'h')

def PATH_KEY : Text := "\x7bhttp.request.uri.path\x7d".toList
def REMOTE_KEY : Text := "\x7bremote_host\x7d".toList

/-- `wholeNumber`: the integer that `Number` makes of a value, when it makes one of at least 0. -/
def checkRateLimit (wholeNumber : Json → Option Nat) (rateLimitAvailable : Option Bool) :
    Json → Except Text (Option RateLimit)
  | .null => .ok none
  | rl =>
    let events := ((rl.field "events".toList).bind wholeNumber).getD 0
    let window := fieldOr "window" "1m".toList rl
    if events < 1 ∨ events > 1000000 then .error "rate_limit.events must be an integer 1–1000000".toList
    else if ¬windowText window then .error "rate_limit.window must look like 10s, 1m or 1h".toList
    else if rateLimitAvailable = some false then
      .error ("This Caddy build has no http.handlers.rate_limit module. Install caddy-ratelimit " ++
        "(`caddy add-package github.com/mholt/caddy-ratelimit` on the host, then restart caddy) and retry.").toList
    else
      let key := match rl.field "key".toList with
        | some (.text key) => if key = "path".toList then PATH_KEY else REMOTE_KEY
        | _ => REMOTE_KEY
      .ok (some ⟨events, window, key⟩)

def given (check : Json → Except Text (Option α)) : Option Json → Except Text (Option (Option α))
  | none => .ok none
  | some value => do
    let checked ← check value
    .ok (some checked)

def validateRouteEdgeOptions (bcryptHash : Option Hasher) (wholeNumber : Json → Option Nat)
    (rateLimitAvailable : Option Bool) (input : Input) : Except Text Options := do
  let headers ← given checkHeaders input.headers
  let csp ← given checkCsp input.csp
  let basic_auth ← given (checkBasicAuth bcryptHash) input.basic_auth
  let ip_allowlist ← given checkAllowlist input.ip_allowlist
  let rate_limit ← given (checkRateLimit wholeNumber rateLimitAvailable) input.rate_limit
  .ok ⟨headers, csp, basic_auth, ip_allowlist, rate_limit⟩

structure Row where
  extra_headers_json : Option Text
  csp : Option Text
  basic_auth_json : Option Text
  ip_allowlist_json : Option Text
  ip_allowlist_paths_json : Option Text
  rate_limit_json : Option Text

def valueJson : Option Text → Json
  | none => .null
  | some value => .text value

def headersJson (headers : List (Text × Option Text)) : Json :=
  .object (headers.map fun header => (header.1, valueJson header.2))

def userJson (user : User) : Json :=
  .object [("username".toList, .text user.username), ("hash".toList, .text user.hash)]

def rateLimitJson (limit : RateLimit) : Json :=
  .object [("events".toList, .number limit.events), ("window".toList, .text limit.window),
    ("key".toList, .text limit.key)]

def column (old : Option Text) : Option (Option Json) → Option Text
  | none => old
  | some value => value.map (Json.stringify 0)

/-- The columns that `set_route_options` sets. -/
def storeOptions (row : Row) (options : Options) : Row :=
  { row with
    extra_headers_json := column row.extra_headers_json (options.headers.map fun value => value.map headersJson)
    csp := options.csp.getD row.csp
    basic_auth_json :=
      column row.basic_auth_json (options.basic_auth.map fun value => value.map fun users =>
      .array (users.map userJson))
    ip_allowlist_json :=
      column row.ip_allowlist_json (options.ip_allowlist.map fun value => value.map fun list =>
      .array (list.map .text))
    rate_limit_json := column row.rate_limit_json (options.rate_limit.map fun value => value.map rateLimitJson) }

structure EdgeOptions where
  headers : Option (List (Text × Json))
  csp : Option Text
  basic_auth : Option (List Json)
  ip_allowlist : Option (List Json)
  ip_allowlist_paths : Option (List Text)
  rate_limit : Option Json

/-- A column parsed; a text that is no JSON counts as null. -/
def parseColumn : Option Text → Option Json
  | none => none
  | some [] => none
  | some text => Json.parse text

def pathChar (c : Char) : Bool := c.isAlphanum || c == '.' || c == '_' || c == '~' || c == '-'

def isAllowlistPath : Json → Bool
  | .text (first :: rest) =>
    first == '/' && (rest.splitOn '/').all (fun name => name != [] && name.all pathChar) &&
      decide (codeUnits (first :: rest) ≤ 100)
  | _ => false

def nonEmptyArray : Option Json → Option (List Json)
  | some (.array (first :: rest)) => some (first :: rest)
  | _ => none

def allowedPaths (paths : Option Json) : Option (List Text) :=
  match nonEmptyArray paths with
  | some paths => if paths.all isAllowlistPath then some (paths.map asText) else none
  | none => none

def limited (rateLimit : Json) : Bool :=
  match rateLimit.field "events".toList with
  | some events => truthy events
  | none => false

def objectFields : Option Json → Option (List (Text × Json))
  | some (.object fields) => some fields
  | _ => none

def rateLimitOf : Option Json → Option Json
  | some (.object fields) => if limited (.object fields) then some (.object fields) else none
  | _ => none

def readRow (row : Row) : EdgeOptions :=
  let ipAllow := nonEmptyArray (parseColumn row.ip_allowlist_json)
  { headers := objectFields (parseColumn row.extra_headers_json)
    csp := (row.csp.map trim).filter (· ≠ [])
    basic_auth := nonEmptyArray (parseColumn row.basic_auth_json)
    ip_allowlist := ipAllow
    ip_allowlist_paths := ipAllow.bind fun _ => allowedPaths (parseColumn row.ip_allowlist_paths_json)
    rate_limit := rateLimitOf (parseColumn row.rate_limit_json) }

def parseRouteEdgeOptions (row : Row) : Option EdgeOptions :=
  let out := readRow row
  if out.headers.isSome || out.csp.isSome || out.basic_auth.isSome || out.ip_allowlist.isSome ||
      out.ip_allowlist_paths.isSome || out.rate_limit.isSome then some out else none

/-- `q(s)` -/
def q (s : Text) : Text :=
  let slashes := s.flatMap fun c => if c = '\\' then ['\\', '\\'] else [c]
  '"' :: ((slashes.flatMap fun c => if c = '"' then ['\\', '"'] else [c]) ++ ['"'])

/-- A bare token of the platform's own. -/
def PlainToken (token : Text) : Prop :=
  token ≠ [] ∧ token.head? ≠ some '"' ∧ lone token = false ∧ ∀ c ∈ token, 0x21 ≤ c.toNat ∧ c.toNat ≤ 0x7E

instance (token : Text) : Decidable (PlainToken token) :=
  decidable_of_iff (token ≠ [] ∧ token.head? ≠ some '"' ∧ lone token = false ∧
    (token.all fun c => 0x21 ≤ c.toNat && c.toNat ≤ 0x7E) = true)
    (by simp [PlainToken])

/-- The platform's self-check of a route of its own. -/
structure SelfCheck where
  token : Text
  header : Text
  sources : List Text
  extraAllow : List Text
  header_plain : PlainToken header
  sources_plain : sources ≠ [] ∧ ∀ source ∈ sources, PlainToken source

structure Context where
  routeId : Text
  selfCheck : Option SelfCheck
  deniedBody : Text
  -- as the comment at `DENIED_BODY` says
  body_plain : ∀ c ∈ deniedBody, c ≠ '"' ∧ c ≠ '\\' ∧ c ≠ '\n'

/-- `/^[a-f0-9]{48}$/` -/
def checkToken (token : Text) : Bool :=
  decide (token.length = 48) && token.all fun c => c.isDigit || ('a' ≤ c && c ≤ 'f')

/-- `/^\d{1,3}(?:\.\d{1,3}){3}\/32$/` -/
def hostNetwork (text : Text) : Bool :=
  match text.splitOn '/' with
  | [address, length] => ipv4 address && length == "32".toList
  | _ => false

def shown : Option Json → Text
  | none => "undefined".toList
  | some value => asText value

def tok (text : String) : Text := text.toList

def refusal (ctx : Context) (indent : Nat) : List Line :=
  [⟨indent, [tok "header", tok "@pp_denied", tok "Content-Type", q (tok "text/html; charset=utf-8")]⟩,
    ⟨indent, [tok "respond", tok "@pp_denied", q ctx.deniedBody, tok "403"]⟩]

def pathLine (opts : EdgeOptions) (indent : Nat) : Option Line :=
  match opts.ip_allowlist, opts.ip_allowlist_paths with
  | some _, some paths => some ⟨indent + 4, tok "path" :: paths.flatMap fun path => [path, path ++ tok "/*"]⟩
  | _, _ => none

def allowlistLines (opts : EdgeOptions) (indent : Nat) (ctx : Context) : List Line :=
  match opts.ip_allowlist with
  | none => []
  | some list =>
    match ctx.selfCheck.filter fun check => checkToken check.token with
    | some check =>
      let extra := check.extraAllow.filter fun a => hostNetwork a && !(list.map itemText).contains a
      [⟨indent, [tok "@pp_denied", opening]⟩] ++ (pathLine opts indent).toList ++
        [⟨indent + 4, [tok "not", tok "remote_ip"] ++ list.map itemText ++ extra⟩,
          ⟨indent + 4, [tok "not", opening]⟩,
          ⟨indent + 8, tok "remote_ip" :: check.sources⟩,
          ⟨indent + 8, [tok "header", check.header, check.token]⟩,
          ⟨indent + 4, [closing]⟩,
          ⟨indent, [closing]⟩] ++ refusal ctx indent
    | none =>
      match pathLine opts indent with
      | some line =>
        [⟨indent, [tok "@pp_denied", opening]⟩, line,
          ⟨indent + 4, [tok "not", tok "remote_ip"] ++ list.map itemText⟩,
          ⟨indent, [closing]⟩] ++ refusal ctx indent
      | none => ⟨indent, [tok "@pp_denied", tok "not", tok "remote_ip"] ++ list.map itemText⟩ :: refusal ctx indent

def basicAuthLines (opts : EdgeOptions) (indent : Nat) : List Line :=
  match opts.basic_auth with
  | none => []
  | some users =>
    [⟨indent, [tok "basic_auth", opening]⟩] ++
      users.map (fun u => ⟨indent + 4, [shown (u.field "username".toList), shown (u.field "hash".toList)]⟩) ++
      [⟨indent, [closing]⟩]

def headerLine (indent : Nat) : Text × Json → Line
  | (name, .null) => ⟨indent + 4, ['-' :: name]⟩
  | (name, value) => ⟨indent + 4, [name, q (asText value)]⟩

def headerLines (opts : EdgeOptions) (indent : Nat) : List Line :=
  if opts.headers.isSome ∨ opts.csp.isSome then
    [⟨indent, [tok "header", opening]⟩] ++ (opts.headers.getD []).map (headerLine indent) ++
      (opts.csp.toList.map fun csp => ⟨indent + 4, [tok "Content-Security-Policy", q csp]⟩) ++ [⟨indent, [closing]⟩]
  else []

def zoneName (routeId : Text) : Text :=
  let name := (routeId.filter Char.isAlphanum).take 24
  tok "pp_" ++ (if name = [] then ['r'] else name)

def rateLimitLines (opts : EdgeOptions) (indent : Nat) (ctx : Context) : List Line :=
  match opts.rate_limit with
  | none => []
  | some limit =>
    [⟨indent, [tok "rate_limit", opening]⟩,
      ⟨indent + 4, [tok "zone", zoneName ctx.routeId, opening]⟩,
      ⟨indent + 8, [tok "key", fieldOr "key" REMOTE_KEY limit]⟩,
      ⟨indent + 8, [tok "events", shown (limit.field "events".toList)]⟩,
      ⟨indent + 8, [tok "window", shown (limit.field "window".toList)]⟩,
      ⟨indent + 4, [closing]⟩,
      ⟨indent, [closing]⟩]

/-- The lines of the options; their text is that of `routeEdgeOptionLines`. -/
def edgeLines (opts : Option EdgeOptions) (indent : Nat) (ctx : Context) : List Line :=
  match opts with
  | none => []
  | some opts => allowlistLines opts indent ctx ++ basicAuthLines opts indent ++ headerLines opts indent ++
      rateLimitLines opts indent ctx

def routeEdgeOptionLines (opts : Option EdgeOptions) (indent : Nat) (ctx : Context) : List Text :=
  (edgeLines opts indent ctx).map Line.text

def shift (line : Text) : Text := [' ', ' ', ' ', ' '] ++ line

def wrapRouteBody (optionLines bodyLines : List Text) (opts : Option EdgeOptions) (indent : Nat) : List Text :=
  if (opts.bind (·.rate_limit)).isNone then optionLines ++ bodyLines
  else [Line.text ⟨indent, [tok "route", opening]⟩] ++ optionLines.map shift ++ bodyLines.map shift ++
    [Line.text ⟨indent, [closing]⟩]

end ProxyPilot.Caddy.Edge
