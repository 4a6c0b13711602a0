import ProxyPilot.Data.Checks
import ProxyPilot.Data.Table
import ProxyPilot.Data.Text

namespace ProxyPilot.RootRecovery

open Data

/-! # Root recovery (`recovery/plan.js`)

Restoring access for one local administrator in the live users table.  The plan is made from
what the database says now; nothing is written.

The plan's steps run inside one `BEGIN IMMEDIATE` with the audit row; whatever throws there
rolls everything back.
-/

structure User where
  id : String
  username : String
  display_name : Option String
  password_hash : Option String
  totp_secret : Option String
  totp_enabled : Bool
  role : Option String
  password_change_required : Bool
  failed_attempts : Option Nat
  last_failed_at : Option String
  locked_until : Option String
  auth_source : Option String
  is_superadmin : Bool
  created_at : Option String
  updated_at : Option String

instance : Keyed User String := ⟨User.id⟩

structure Session where
  id : String
  user_id : String
  revoked_at : Option String
  sudo_until : Option String

/-- A trusted device or a passkey. -/
structure Owned where
  id : String
  user_id : String

structure McpToken where
  id : Nat
  created_by : Option String
  revoked_at : Option String

inductive Mode where
  | create
  | recover
deriving DecidableEq

/-- `ACTIONS` -/
inductive Action where
  | password
  | totp
  | unlock
  | passkeys
  | revokeMcpKeys
  | promote
  | create
deriving DecidableEq

def Action.name : Action → String
  | .password => "password"
  | .totp => "totp"
  | .unlock => "unlock"
  | .passkeys => "passkeys"
  | .revokeMcpKeys => "revoke-mcp-keys"
  | .promote => "promote"
  | .create => "create"

def ACTIONS : List Action := [.password, .totp, .unlock, .passkeys, .revokeMcpKeys, .promote, .create]

/-- What a recovery wrote about itself; the column holds it as JSON. -/
structure AuditDetails where
  username : String
  mode : Option Mode
  actions : List Action
  applied : List (String × Nat)
  uid : Option Nat
  host : Option String
  tty : Option String

structure AuditRow where
  id : String
  user_id : Option String
  action : String
  resource_type : String
  resource_id : String
  details : AuditDetails
  ip_address : String
  created_at : String

instance : Keyed AuditRow String := ⟨AuditRow.id⟩

/-- The tables a recovery reads and writes; the last three are missing on an old installation. -/
structure Database where
  users : Table User
  sessions : List Session
  audit_log : Table AuditRow
  webauthn_credentials : Option (List Owned)
  authenticated_devices : Option (List Owned)
  mcp_tokens : Option (List McpToken)

def Database.userNamed (db : Database) (username : String) : Option User :=
  db.users.rows.find? (·.username == username)

/-- The facts of a row that are no secret. -/
structure Account where
  id : String
  username : String
  display_name : Option String
  role : Option String
  auth_source : Option String
  has_password : Bool
  has_totp : Bool
  password_change_required : Bool
  failed_attempts : Option Nat
  locked_until : Option String
  is_superadmin : Bool
  created_at : Option String

def filled (text : Option String) : Bool := text.any (· != "")

def accountOf (user : User) : Account where
  id := user.id
  username := user.username
  display_name := user.display_name
  role := user.role
  auth_source := user.auth_source
  has_password := filled user.password_hash
  has_totp := user.totp_enabled && filled user.totp_secret
  password_change_required := user.password_change_required
  failed_attempts := user.failed_attempts
  locked_until := user.locked_until
  is_superadmin := user.is_superadmin
  created_at := user.created_at

def readAccount (db : Database) (username : String) : Option Account := (db.userNamed username).map accountOf

structure Footprint where
  activeSessions : Nat
  sudoGrants : Nat
  trustedDevices : Option Nat
  passkeys : Option Nat
  mcpKeys : Option Nat

def accountFootprint (db : Database) (userId : String) : Footprint where
  activeSessions := db.sessions.countP fun row => row.user_id == userId && row.revoked_at.isNone
  sudoGrants := db.sessions.countP fun row =>
    row.user_id == userId && row.revoked_at.isNone && row.sudo_until.isSome
  trustedDevices := db.authenticated_devices.map (·.countP (·.user_id == userId))
  passkeys := db.webauthn_credentials.map (·.countP (·.user_id == userId))
  mcpKeys := db.mcp_tokens.map (·.countP fun row => row.created_by == some userId && row.revoked_at.isNone)

/-- `account.auth_source || 'local'` -/
def authSource (source : Option String) : String := (source.filter (· != "")).getD "local"

inductive Step where
  | createLocalAdmin (username details : String)
  | setPassword (details : Option String)
  | promote (source : Option String)
  | clearTotp (details : String)
  | unlock (failedAttempts : Nat) (lockedUntil : Option String)
  | deletePasskeys (count : Option Nat)
  | revokeMcpKeys (count : Option Nat)
  | revokeSessions (count sudoGrants : Nat)
  | forgetTrustedDevices (count : Option Nat)

def Step.name : Step → String
  | .createLocalAdmin _ _ => "create-local-admin"
  | .setPassword _ => "set-password"
  | .promote _ => "promote"
  | .clearTotp _ => "clear-totp"
  | .unlock _ _ => "unlock"
  | .deletePasskeys _ => "delete-passkeys"
  | .revokeMcpKeys _ => "revoke-mcp-keys"
  | .revokeSessions _ _ => "revoke-sessions"
  | .forgetTrustedDevices _ => "forget-trusted-devices"

structure Refusal where
  code : String
  message : String

structure Plan where
  ok : Bool
  mode : Option Mode
  username : String
  actions : List Action
  account : Option Account
  footprint : Option Footprint
  refusals : List Refusal
  warnings : List String
  steps : List Step

structure Request where
  username : Option String
  actions : List String

/-- A set in the order of insertion. -/
def insertAction (set : List Action) (action : Action) : List Action :=
  if set.contains action then set else set ++ [action]

def listed (names : List String) : String := ", ".intercalate names

def normalizeActions (actions : List String) : Except String (List Action) :=
  actions.foldlM (fun set name =>
    match ACTIONS.find? (·.name == name) with
    | some action => .ok (insertAction set action)
    | none =>
      .error ("unknown recovery action '" ++ name ++ "' (one of " ++ listed (ACTIONS.map Action.name) ++ ")")) []

def usernameChar (c : Char) : Bool := c.isAlphanum || c == '.' || c == '_' || c == '@' || c == '+' || c == '-'

/-- `USERNAME_PATTERN` -/
def usernamePattern (name : String) : Bool :=
  decide (1 ≤ name.toList.length ∧ name.toList.length ≤ 64) && name.toList.all usernameChar

def refuseIf (holds : Bool) (code message : String) : List Refusal := if holds then [⟨code, message⟩] else []

def warnIf (holds : Bool) (message : String) : List String := if holds then [message] else []

def shownRole (role : Option String) : String := role.getD "null"

def createRefusals (name : String) (wanted : List Action) (account : Option Account) : List Refusal :=
  refuseIf (!usernamePattern name) "username_invalid"
    "a new username is 1–64 characters of letters, digits, . _ @ + -" ++
    (account.toList.map fun found => ⟨"exists", "'" ++ name ++ "' already exists (" ++
      authSource found.auth_source ++ " " ++ shownRole found.role ++
      "); recover it instead of creating it"⟩) ++
    ([Action.promote, .unlock, .totp, .passkeys, .revokeMcpKeys].filter wanted.contains).map fun action =>
      ⟨"create_conflict", "--" ++ action.name ++ " has no meaning with --create: a new account has nothing to " ++
        (if action = .promote then "promote" else "reset")⟩

def localAdmins (db : Database) : List String :=
  ((db.users.rows.filter fun user => user.role == some "admin" &&
    (user.auth_source.isNone || user.auth_source == some "local")).map
    User.username).mergeSort fun left right => decide (left ≤ right)

def recoverRefusals (db : Database) (name : String) (wanted : List Action) : Option Account → List Refusal
  | none => refuseIf (name != "") "unknown_account" ("no account named '" ++ name ++ "'" ++
      (if localAdmins db = [] then " (this installation has no local administrator; --create makes one)"
        else " (local administrators: " ++ listed (localAdmins db) ++ ")"))
  | some account =>
    refuseIf (authSource account.auth_source != "local") "directory_account" ("'" ++ name ++
      "' is a directory-backed (" ++
      authSource account.auth_source ++
      ") account with no local password to restore; recover a local administrator, or create one with --create") ++
    refuseIf (account.role != some "admin" && !wanted.contains .promote) "not_admin" ("'" ++ name ++
      "' has role '" ++
      shownRole account.role ++ "'; recovery restores an administrator — add --promote to make it one")

/-- The steps that recover an account, in their order. -/
def recoverSteps (db : Database) (wanted : List Action) (account : Account) : List Step :=
  let footprint := accountFootprint db account.id
  (if wanted.contains .promote && account.role != some "admin" then [.promote account.role] else []) ++
    (if wanted.contains .password then
      [.setPassword (some (if account.has_password then
          "replaces the current password; a change is required at next login; the lockout is cleared"
        else "sets a password on an account that has none; a change is required at next login"))] else []) ++
    (if wanted.contains .totp then
      [.clearTotp (if account.has_totp then "the next password login enrols a new authenticator"
        else "no second factor is enrolled; the next password login enrols one")] else []) ++
    (if wanted.contains .unlock
      then [.unlock (account.failed_attempts.getD 0) (account.locked_until.filter (· != ""))] else []) ++
    (if wanted.contains .passkeys && db.webauthn_credentials.isSome
      then [.deletePasskeys footprint.passkeys] else []) ++
    (if wanted.contains .revokeMcpKeys && db.mcp_tokens.isSome then [.revokeMcpKeys footprint.mcpKeys] else []) ++
    [.revokeSessions footprint.activeSessions footprint.sudoGrants] ++
    if db.authenticated_devices.isSome then [.forgetTrustedDevices footprint.trustedDevices] else []

def counted (count : Option Nat) : Nat := count.getD 0

/-- `stillLocked` is `Date.parse(until) > Date.now()`. -/
def recoverWarnings (stillLocked : String → Bool) (db : Database) (name : String)
    (wanted : List Action) (account : Account) : List String :=
  let footprint := accountFootprint db account.id
  warnIf (wanted.contains .promote && account.role == some "admin")
      ("'" ++ name ++ "' is already an administrator; --promote changes nothing") ++
    warnIf (!wanted.contains .password && !account.has_password)
      ("'" ++ name ++
        "' has NO password: initial-setup requires a root-issued credential. Use recover bootstrap for a new installation, or add --password to recover locally.") ++
    ((account.locked_until.filter fun till => till != "" && !wanted.contains .unlock &&
      stillLocked till && !wanted.contains .password).toList.map
      fun till => "'" ++ name ++ "' is locked until " ++ till ++
        "; add --unlock (or --password, which clears the lockout too)") ++
    (if wanted.contains .passkeys then
      warnIf db.webauthn_credentials.isNone "this database has no webauthn_credentials table; --passkeys skipped"
    else warnIf (counted footprint.passkeys != 0)
      (toString (counted footprint.passkeys) ++ " passkey(s) stay enrolled (add --passkeys to remove them)")) ++
    if wanted.contains .revokeMcpKeys then
      warnIf db.mcp_tokens.isNone "this database has no mcp_tokens table; --revoke-mcp-keys skipped"
    else warnIf (counted footprint.mcpKeys != 0)
      (toString (counted footprint.mcpKeys) ++
        " MCP key(s) minted by this account stay valid (add --revoke-mcp-keys to revoke them)")

def Plan.refused (name : String) (wanted : List Action) (account : Option Account)
    (refusals : List Refusal) : Plan :=
  ⟨false, none, name, wanted, account, none, refusals, [], []⟩

def planCreate (name : String) (wanted : List Action) : List Refusal → Plan
  | [] => ⟨true, some .create, name, wanted, none, none, [], [],
      [.createLocalAdmin name
        "role admin, auth_source local, password change required at first login, TOTP enrolled at first login",
        .setPassword none]⟩
  | refusals => .refused name wanted none refusals

def planRecover (stillLocked : String → Bool) (db : Database) (name : String) (wanted : List Action) :
    Option Account → List Refusal → Plan
  | some account, [] => ⟨true, some .recover, name, wanted, some account, some (accountFootprint db account.id), [],
      recoverWarnings stillLocked db name wanted account, recoverSteps db wanted account⟩
  | account, refusals => .refused name wanted account refusals

/-- What any plan is refused for. -/
def commonRefusals (name : String) (wanted : List Action) : List Refusal :=
  refuseIf (name == "") "username_required" "name the administrator to recover" ++
    refuseIf wanted.isEmpty "nothing_to_do" ("nothing requested; pass one or more of " ++
      listed (ACTIONS.map Action.name))

def planFor (stillLocked : String → Bool) (missing : List String) (db : Database) (name : String)
    (wanted : List Action) : Plan :=
  let account := if name == "" then none else readAccount db name
  if !missing.isEmpty then
    .refused name wanted none [⟨"schema", "this database is missing " ++ listed missing ++
      "; it is not a ProxyPilot backend database at the current schema"⟩]
  else if wanted.contains .create
    then planCreate name wanted (commonRefusals name wanted ++ createRefusals name wanted account)
  else planRecover stillLocked db name wanted account (commonRefusals name wanted ++
    recoverRefusals db name wanted account)

/-- `missing` is what `inspectSchema` did not find of the tables that every installation has. -/
def planRecovery (stillLocked : String → Bool) (missing : List String) (db : Database)
    (request : Request) : Except String Plan := do
  let wanted ← normalizeActions request.actions
  .ok (planFor stillLocked missing db (String.ofList (trim (request.username.getD "").toList)) wanted)

inductive RecoveryError where
  | planNotAccepted
  | hashRequired
  /-- `RecoveryChangedError` -/
  | changed (message : String)
  | unknownStep (name : String)
  | constraint (column : String)
  | noSuchTable (table : String)
  /-- A statement that the database refused. -/
  | database (message : String)

structure Options where
  passwordHash : Option String
  now : String
  newUserId : Option String
  /-- What `crypto.randomUUID()` gives for a user and for the audit row. -/
  userUuid : String
  auditUuid : String
  uid : Option Nat
  host : Option String
  tty : Option String

/-- Where the database fails during one call: a message for the statement that throws. -/
structure Connection where
  begin' : Option String
  statement : Nat → Option String
  commit : Option String

def succeed (failure : Option String) : Except RecoveryError Unit :=
  match failure with
  | some message => .error (.database message)
  | none => .ok ()

structure Applied where
  step : String
  changes : Nat

def changeUser (users : Table User) (userId : String) (change : User → User)
    (same : ∀ user, (change user).id = user.id) : Table User :=
  users.map (fun user => if user.id = userId then change user else user) fun user => by
    by_cases named : user.id = userId
    · simpa [named, Keyed.key] using (same user).trans named
    · simp [named]

/-- `UPDATE users SET … WHERE id = ?` -/
def updateUser (db : Database) (userId : String) (change : User → User)
    (same : ∀ user, (change user).id = user.id) : Database × Nat :=
  ({ db with users := changeUser db.users userId change same }, db.users.rows.countP (·.id == userId))

def User.promoted (user : User) (now : String) : User := { user with role := some "admin", updated_at := some now }

def User.withPassword (user : User) (hash : Option String) (now : String) : User :=
  { user with
    password_hash := hash
    password_change_required := true
    failed_attempts := some 0
    last_failed_at := none
    locked_until := none
    updated_at := some now }

def User.withoutTotp (user : User) (now : String) : User :=
  { user with totp_secret := some "", totp_enabled := false, updated_at := some now }

def User.unlocked (user : User) (now : String) : User :=
  { user with failed_attempts := some 0, last_failed_at := none, locked_until := none, updated_at := some now }

def McpToken.mintedBy (token : McpToken) (userId : String) : Bool := token.created_by == some userId

def McpToken.revoke (token : McpToken) (userId now : String) : McpToken :=
  if token.mintedBy userId && token.revoked_at.isNone then { token with revoked_at := some now } else token

def Session.live (session : Session) (userId : String) : Bool :=
  session.user_id == userId && session.revoked_at.isNone

def Session.revoke (session : Session) (userId now : String) : Session :=
  if session.live userId then { session with revoked_at := some now, sudo_until := none } else session

/-- `DELETE FROM … WHERE user_id = ?` -/
def deleteOwned (rows : List Owned) (userId : String) : List Owned × Nat :=
  (rows.filter (·.user_id != userId), rows.countP (·.user_id == userId))

/-- One step of a plan that recovers an account, with the rows it changed. -/
def performStep (options : Options) (userId : String) (db : Database) : Step → Except RecoveryError (Database × Nat)
  | .promote _ => .ok (updateUser db userId (·.promoted options.now) fun _ => rfl)
  | .setPassword _ => .ok (updateUser db userId (·.withPassword options.passwordHash options.now) fun _ => rfl)
  | .clearTotp _ => .ok (updateUser db userId (·.withoutTotp options.now) fun _ => rfl)
  | .unlock _ _ => .ok (updateUser db userId (·.unlocked options.now) fun _ => rfl)
  | .deletePasskeys _ =>
    match db.webauthn_credentials with
    | none => .error (.noSuchTable "webauthn_credentials")
    | some rows =>
      .ok ({ db with webauthn_credentials := some (deleteOwned rows userId).1 }, (deleteOwned rows userId).2)
  | .revokeMcpKeys _ =>
    match db.mcp_tokens with
    | none => .error (.noSuchTable "mcp_tokens")
    | some rows => .ok ({ db with mcp_tokens := some (rows.map (·.revoke userId options.now)) },
        rows.countP fun token => token.mintedBy userId && token.revoked_at.isNone)
  | .revokeSessions _ _ =>
    .ok ({ db with sessions := db.sessions.map (·.revoke userId options.now) }, db.sessions.countP (·.live userId))
  | .forgetTrustedDevices _ =>
    match db.authenticated_devices with
    | none => .error (.noSuchTable "authenticated_devices")
    | some rows =>
      .ok ({ db with authenticated_devices := some (deleteOwned rows userId).1 }, (deleteOwned rows userId).2)
  | .createLocalAdmin username details => .error (.unknownStep (Step.createLocalAdmin username details).name)

/-- The loop over the plan's steps; the statements before it are `n` in number. -/
def performSteps (connection : Connection) (options : Options) (userId : String) :
    Nat → List Step → Database → Except RecoveryError (Database × List Applied)
  | _, [], db => .ok (db, [])
  | n, step :: rest, db => do
    succeed (connection.statement n)
    let (next, changes) ← performStep options userId db step
    let (last, applied) ← performSteps connection options userId (n + 1) rest next
    .ok (last, ⟨step.name, changes⟩ :: applied)

def newAdmin (options : Options) (userId username : String) : User where
  id := userId
  username := username
  display_name := some username
  password_hash := options.passwordHash
  totp_secret := some ""
  totp_enabled := false
  role := some "admin"
  password_change_required := true
  failed_attempts := some 0
  last_failed_at := none
  locked_until := none
  auth_source := some "local"
  is_superadmin := false
  created_at := some options.now
  updated_at := some options.now

/-- `INSERT INTO users`, whose `id` and `username` are unique. -/
def insertUser (db : Database) (user : User) : Except RecoveryError Database :=
  if db.users.rows.any (·.id == user.id) then .error (.constraint "users.id")
  else if db.users.rows.any (·.username == user.username) then .error (.constraint "users.username")
  else .ok { db with users := db.users.put user }

def createAccount (connection : Connection) (options : Options) (plan : Plan) (db : Database) :
    Except RecoveryError (Database × String × List Applied) := do
  succeed (connection.statement 0)
  require (db.userNamed plan.username).isNone
    (.changed ("'" ++ plan.username ++ "' was created by someone else since the plan was made"))
  let userId := (options.newUserId.filter (· != "")).getD options.userUuid
  succeed (connection.statement 1)
  let next ← insertUser db (newAdmin options userId plan.username)
  .ok (next, userId, [⟨"create-local-admin", 1⟩, ⟨"set-password", 1⟩])

def recoverAccount (connection : Connection) (options : Options) (plan : Plan) (db : Database) :
    Except RecoveryError (Database × String × List Applied) := do
  succeed (connection.statement 0)
  let gone := "'" ++ plan.username ++ "' is not the account the plan was made for any more"
  let current ← demand (db.userNamed plan.username) (.changed gone)
  require (plan.account.any (·.id == current.id)) (.changed gone)
  require (authSource current.auth_source == "local")
    (.changed ("'" ++ plan.username ++ "' became a directory-backed account since the plan was made"))
  let (next, applied) ← performSteps connection options current.id 1 plan.steps db
  .ok (next, current.id, applied)

structure Done where
  userId : String
  applied : List Applied
  audit : AuditRow

def auditRow (options : Options) (plan : Plan) (userId : String) (applied : List Applied) : AuditRow where
  id := options.auditUuid
  user_id := none
  action := "ROOT_RECOVERY"
  resource_type := "user"
  resource_id := userId
  details :=
    ⟨plan.username, plan.mode, plan.actions, applied.map fun done => (done.step, done.changes),
    options.uid, options.host, options.tty⟩
  ip_address := "console"
  created_at := options.now

def insertAudit (connection : Connection) (n : Nat) (db : Database) (row : AuditRow) :
    Except RecoveryError Database := do
  succeed (connection.statement n)
  require (!db.audit_log.rows.any (·.id == row.id)) (.constraint "audit_log.id")
  .ok { db with audit_log := db.audit_log.put row }

def changeAccount (connection : Connection) (options : Options) (plan : Plan) (db : Database) :
    Except RecoveryError (Database × String × List Applied) :=
  if plan.mode = some .create then createAccount connection options plan db
    else recoverAccount connection options plan db

def recoveryTransaction (connection : Connection) (options : Options) (plan : Plan) (db : Database) :
    Except RecoveryError (Database × Done) := do
  let (next, userId, applied) ← changeAccount connection options plan db
  let row := auditRow options plan userId applied
  let last ← insertAudit connection (plan.steps.length + 1) next row
  .ok (last, ⟨userId, applied, row⟩)

/-- `BEGIN IMMEDIATE`, the body, `COMMIT`; what throws in the body or the commit is rolled back. -/
def transaction (connection : Connection) (body : Database → Except RecoveryError (Database × α)) (db : Database) :
    Except RecoveryError α × Database :=
  match succeed connection.begin' with
  | .error reason => (.error reason, db)
  | .ok () =>
    match body db with
    | .error reason => (.error reason, db)
    | .ok (after, result) =>
      match succeed connection.commit with
      | .error reason => (.error reason, db)
      | .ok () => (.ok result, after)

def needsPassword (plan : Plan) : Bool := plan.steps.any fun step => step.name == "set-password"

def applyRecovery (connection : Connection) (options : Options) (plan : Plan) (db : Database) :
    Except RecoveryError Done × Database :=
  if !plan.ok then (.error .planNotAccepted, db)
  else if needsPassword plan &&
    !options.passwordHash.any (fun hash => "$2".toList.isPrefixOf hash.toList) then (.error .hashRequired, db)
  else transaction connection (recoveryTransaction connection options plan) db

end ProxyPilot.RootRecovery
