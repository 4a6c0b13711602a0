import ProxyPilot.RootRecovery.Plan

namespace ProxyPilot.RootRecovery

open Data

/-- The rows that do not belong to an account. -/
structure Others where
  users : List User
  sessions : List Session
  webauthn_credentials : Option (List Owned)
  authenticated_devices : Option (List Owned)
  mcp_tokens : Option (List McpToken)

def Database.others (db : Database) (userId : String) : Others where
  users := db.users.rows.filter (·.id != userId)
  sessions := db.sessions.filter (·.user_id != userId)
  webauthn_credentials := db.webauthn_credentials.map (·.filter (·.user_id != userId))
  authenticated_devices := db.authenticated_devices.map (·.filter (·.user_id != userId))
  mcp_tokens := db.mcp_tokens.map (·.filter fun token => !token.mintedBy userId)

/-- The account of the plan: the one it was made for, or one that did not exist before. -/
def Planned (plan : Plan) (before : Database) (userId : String) : Prop :=
  if plan.mode = some .create then before.userNamed plan.username = none ∧
    ∀ user ∈ before.users.rows, user.id ≠ userId
  else (plan.account.map (·.id) = some userId) ∧
    ∃ user, before.userNamed plan.username = some user ∧ user.id = userId

/-- Only rows of the planned account changed, and one audit row was added. -/
structure Confined (plan : Plan) (done : Done) (before after : Database) : Prop where
  planned : Planned plan before done.userId
  others : after.others done.userId = before.others done.userId
  audit : after.audit_log.rows = before.audit_log.rows ++ [done.audit]

/-- The steps that give access to the account. -/
def SENSITIVE : List String := ["set-password", "clear-totp", "unlock"]

def Plan.has (plan : Plan) (names : List String) : Prop := ∃ step ∈ plan.steps, step.name ∈ names

/-- An account that is no administrator when the plan is applied is given no access, unless the plan promotes it. -/
def RoleGuarded (plan : Plan) (done : Done) (before : Database) : Prop :=
  ∀ user ∈ before.users.rows, user.id = done.userId → user.role ≠ some "admin" → ¬plan.has ["promote"] →
    ∀ applied ∈ done.applied, applied.step ∉ SENSITIVE

/-- The account is still an administrator, or the plan promotes it or gives no access. -/
def StillAdmin (plan : Plan) (before : Database) : Prop :=
  ∀ user, before.userNamed plan.username = some user → user.role = some "admin" ∨
    plan.has ["promote"] ∨ ¬plan.has SENSITIVE

theorem filter_changed {rows : List α} {change : α → α} {others : α → Bool}
    (same : ∀ row, others row = true → change row = row)
    (stays : ∀ row, others (change row) = others row) : (rows.map change).filter others = rows.filter others := by
  induction rows with
  | nil => rfl
  | cons row rest ih =>
    rw [List.map_cons, List.filter_cons, List.filter_cons, stays, ih]
    split
    · next other => rw [same row other]
    · rfl

theorem updateUser_others (db : Database) (userId : String) (change : User → User)
    (same : ∀ user, (change user).id = user.id) :
    (updateUser db userId change same).1.others userId = db.others userId := by
  have users : (changeUser db.users userId change same).rows.filter (·.id != userId) =
      db.users.rows.filter (·.id != userId) := by
    apply filter_changed
    · intro user other
      have different : user.id ≠ userId := by simpa using other
      rw [if_neg different]
    · intro user
      split
      · next named => rw [same]
      · rfl
  simp only [Database.others, updateUser, users]

theorem revoke_session_others (rows : List Session) (userId now : String) :
    (rows.map (·.revoke userId now)).filter (·.user_id != userId) = rows.filter (·.user_id != userId) := by
  apply filter_changed
  · intro session other
    have different : session.user_id ≠ userId := by simpa using other
    simp [Session.revoke, Session.live, different]
  · intro session
    unfold Session.revoke
    split <;> rfl

theorem revoke_token_others (rows : List McpToken) (userId now : String) :
    (rows.map (·.revoke userId now)).filter (fun token => !token.mintedBy userId) =
      rows.filter fun token => !token.mintedBy userId := by
  apply filter_changed
  · intro token other
    have different : token.mintedBy userId = false := by simpa using other
    simp [McpToken.revoke, different]
  · intro token
    unfold McpToken.revoke
    split <;> rfl

theorem deleteOwned_others (rows : List Owned) (userId : String) :
    (deleteOwned rows userId).1.filter (·.user_id != userId) = rows.filter (·.user_id != userId) := by
  simp [deleteOwned, List.filter_filter]

variable {db after : Database} {options : Options} {userId : String} {connection : Connection}
  {applied : List Applied} {plan : Plan}

theorem performStep_others {step : Step} {changes : Nat}
    (done : performStep options userId db step = .ok (after, changes)) :
    after.others userId = db.others userId ∧ after.audit_log = db.audit_log := by
  cases step with
  | createLocalAdmin => cases done
  | setPassword | promote | clearTotp | unlock =>
    cases done
    exact ⟨updateUser_others _ _ _ _, rfl⟩
  | deletePasskeys =>
    cases found : db.webauthn_credentials with
    | none => simp [performStep, found] at done
    | some rows =>
      simp only [performStep, found, Except.ok.injEq, Prod.mk.injEq] at done
      obtain ⟨rfl, _⟩ := done
      simp [Database.others, found, deleteOwned_others]
  | revokeMcpKeys =>
    cases found : db.mcp_tokens with
    | none => simp [performStep, found] at done
    | some rows =>
      simp only [performStep, found, Except.ok.injEq, Prod.mk.injEq] at done
      obtain ⟨rfl, _⟩ := done
      simp [Database.others, found, revoke_token_others]
  | revokeSessions =>
    cases done
    simp [Database.others, revoke_session_others]
  | forgetTrustedDevices =>
    cases found : db.authenticated_devices with
    | none => simp [performStep, found] at done
    | some rows =>
      simp only [performStep, found, Except.ok.injEq, Prod.mk.injEq] at done
      obtain ⟨rfl, _⟩ := done
      simp [Database.others, found, deleteOwned_others]

theorem performSteps_ok {n : Nat} {steps : List Step}
    (done : performSteps connection options userId n steps db = .ok (after, applied)) :
    after.others userId = db.others userId ∧ after.audit_log = db.audit_log ∧
      applied.map Applied.step = steps.map Step.name := by
  induction steps generalizing n db applied with
  | nil =>
    cases done
    exact ⟨rfl, rfl, rfl⟩
  | cons step rest ih =>
    simp only [performSteps, bind_ok] at done
    obtain ⟨_, _, ⟨next, changes⟩, first, ⟨last, later⟩, remaining, same⟩ := done
    cases same
    obtain ⟨firstOthers, firstAudit⟩ := performStep_others first
    obtain ⟨others, audit, names⟩ := ih remaining
    exact ⟨others.trans firstOthers, audit.trans firstAudit, by simp [names]⟩

theorem insertUser_ok {user : User} (done : insertUser db user = .ok after) :
    after.others user.id = db.others user.id ∧ after.audit_log = db.audit_log ∧
      ∀ other ∈ db.users.rows, other.id ≠ user.id := by
  unfold insertUser at done
  split at done
  · cases done
  · next fresh =>
      split at done
      · cases done
      · cases done
        have absent : ∀ other ∈ db.users.rows, other.id ≠ user.id := by simpa using fresh
        have rows : (db.users.put user).rows = db.users.rows ++ [user] :=
          Table.rows_put_new (Table.get_eq_none_iff.mpr absent)
        exact ⟨by simp [Database.others, rows], rfl, absent⟩

theorem createAccount_ok
    (done : createAccount connection options plan db = .ok (after, userId, applied)) :
    after.others userId = db.others userId ∧ after.audit_log = db.audit_log ∧ db.userNamed plan.username = none ∧
      ∀ user ∈ db.users.rows, user.id ≠ userId := by
  simp only [createAccount, bind_ok, require_ok, Option.isNone_iff_eq_none] at done
  obtain ⟨_, _, _, fresh, _, _, next, inserted, same⟩ := done
  cases same
  obtain ⟨others, audit, absent⟩ := insertUser_ok inserted
  exact ⟨others, audit, fresh, absent⟩

theorem recoverAccount_ok
    (done : recoverAccount connection options plan db = .ok (after, userId, applied)) :
    after.others userId = db.others userId ∧ after.audit_log = db.audit_log ∧
      plan.account.map (·.id) = some userId ∧
      (∃ user, db.userNamed plan.username = some user ∧ user.id = userId) ∧
        applied.map Applied.step = plan.steps.map Step.name := by
  simp only [recoverAccount, bind_ok, require_ok, demand_ok] at done
  obtain ⟨_, _, current, found, _, planned, _, _, ⟨next, performed⟩, ran, same⟩ := done
  cases same
  obtain ⟨others, audit, names⟩ := performSteps_ok ran
  have account : plan.account.map (·.id) = some current.id := by
    cases made : plan.account with
    | none => simp [made] at planned
    | some account => simpa [made] using planned
  exact ⟨others, audit, account, ⟨current, found, rfl⟩, names⟩

theorem insertAudit_ok {n : Nat} {row : AuditRow}
    (done : insertAudit connection n db row = .ok after) :
    after.audit_log.rows = db.audit_log.rows ++ [row] ∧ ∀ userId, after.others userId = db.others userId := by
  simp only [insertAudit, bind_ok, require_ok] at done
  obtain ⟨_, _, _, fresh, same⟩ := done
  cases same
  have absent : ∀ other ∈ db.audit_log.rows, Keyed.key other ≠ Keyed.key row := by simpa [Keyed.key] using fresh
  exact ⟨Table.rows_put_new (Table.get_eq_none_iff.mpr absent), fun _ => rfl⟩

/-- What the body of the transaction did, if it came to its end. -/
theorem recoveryTransaction_ok {done : Done}
    (ran : recoveryTransaction connection options plan db = .ok (after, done)) :
    Confined plan done db after ∧
      (plan.mode ≠ some .create → done.applied.map Applied.step = plan.steps.map Step.name) := by
  simp only [recoveryTransaction, bind_ok] at ran
  obtain ⟨⟨next, userId, applied⟩, performed, last, audited, same⟩ := ran
  cases same
  obtain ⟨audit, kept⟩ := insertAudit_ok audited
  unfold changeAccount at performed
  split at performed
  · next create =>
      obtain ⟨others, log, fresh, absent⟩ := createAccount_ok performed
      have planned : Planned plan db userId := by
        rw [Planned, if_pos create]
        exact ⟨fresh, absent⟩
      exact ⟨⟨planned, (kept userId).trans others, by rw [audit, log]⟩, fun recovers => absurd create recovers⟩
  · next recovers =>
      obtain ⟨others, log, account, found, names⟩ := recoverAccount_ok performed
      have planned : Planned plan db userId := by
        rw [Planned, if_neg recovers]
        exact ⟨account, found⟩
      exact ⟨⟨planned, (kept userId).trans others, by rw [audit, log]⟩, fun _ => names⟩

/-- A transaction is committed as its body left it, or leaves no trace. -/
theorem transaction_atomic {body : Database → Except RecoveryError (Database × α)}
    {outcome : Except RecoveryError α} (ran : transaction connection body db = (outcome, after)) :
    (∀ reason, outcome = .error reason → after = db) ∧ ∀ result, outcome = .ok result →
      body db = .ok (after, result) := by
  unfold transaction at ran
  split at ran
  · cases ran
    exact ⟨fun _ _ => rfl, fun _ same => nomatch same⟩
  · split at ran
    · cases ran
      exact ⟨fun _ _ => rfl, fun _ same => nomatch same⟩
    · next finished =>
        split at ran
        · cases ran
          exact ⟨fun _ _ => rfl, fun _ same => nomatch same⟩
        · cases ran
          constructor
          · intro reason same
            cases same
          · intro result same
            cases same
            exact finished

theorem not_has_iff (names : List String) (same : applied.map Applied.step = plan.steps.map Step.name) :
    ¬plan.has names ↔ ∀ done ∈ applied, done.step ∉ names := by
  have mentioned : plan.has names ↔ ∃ name ∈ plan.steps.map Step.name, name ∈ names := by
    simp [Plan.has]
  rw [mentioned, ← same]
  simp

theorem roleGuarded_iff {done : Done} {before after : Database} (confined : Confined plan done before after)
    (names : plan.mode ≠ some .create → done.applied.map Applied.step = plan.steps.map Step.name) :
    RoleGuarded plan done before ↔ StillAdmin plan before := by
  have planned := confined.planned
  unfold Planned at planned
  split at planned
  · obtain ⟨fresh, absent⟩ := planned
    constructor
    · intro _ user found
      rw [fresh] at found
      cases found
    · intro _ user member named
      exact absurd named (absent user member)
  · next recovers =>
      obtain ⟨_, current, found, named⟩ := planned
      have member := List.mem_of_find?_eq_some found
      have steps := not_has_iff SENSITIVE (names recovers)
      constructor
      · intro guarded user foundUser
        obtain rfl : current = user := Option.some.inj (found.symm.trans foundUser)
        by_cases admin : current.role = some "admin"
        · exact Or.inl admin
        by_cases promotes : plan.has ["promote"]
        · exact Or.inr (Or.inl promotes)
        · exact Or.inr (Or.inr (steps.mpr (guarded current member named admin promotes)))
      · intro still user userMember userNamed notAdmin noPromotion
        obtain rfl : user = current := Table.key_injective userMember member (userNamed.trans named.symm)
        rcases still user found with admin | promotes | harmless
        · exact absurd admin notAdmin
        · exact absurd promotes noPromotion
        · exact steps.mp harmless

/-- Either nothing is changed, or only rows of the planned account and one audit row are; and an
account that is no administrator gets no access exactly when it still is one, is promoted, or the
plan gives none. -/
theorem recovery_confined {connection : Connection} {options : Options} {plan : Plan} {before after : Database}
    {outcome : Except RecoveryError Done} (ran : applyRecovery connection options plan before = (outcome, after)) :
    (∀ reason, outcome = .error reason → after = before) ∧
      ∀ done, outcome = .ok done → Confined plan done before after ∧
        (RoleGuarded plan done before ↔ StillAdmin plan before) := by
  unfold applyRecovery at ran
  split at ran
  · cases ran
    exact ⟨fun _ _ => rfl, fun _ same => nomatch same⟩
  · split at ran
    · cases ran
      exact ⟨fun _ _ => rfl, fun _ same => nomatch same⟩
    · obtain ⟨undone, committed⟩ := transaction_atomic ran
      refine ⟨undone, fun done same => ?_⟩
      obtain ⟨confined, names⟩ := recoveryTransaction_ok (committed done same)
      exact ⟨confined, roleGuarded_iff confined names⟩

def account (id username role : String) : User where
  id := id
  username := username
  display_name := none
  password_hash := some "$2a$old"
  totp_secret := none
  totp_enabled := false
  role := some role
  password_change_required := false
  failed_attempts := none
  last_failed_at := none
  locked_until := none
  auth_source := none
  is_superadmin := false
  created_at := none
  updated_at := none

def alice (role : String) : User := account "u-1" "alice" role

def bob : User := account "u-0" "bob" "admin"

def bobSession : Session := ⟨"s-2", "u-0", none, some "2026-01-01T01:00:00.000Z"⟩

theorem alice_bob_distinct (role : String) : ([bob, alice role].map Keyed.key).Nodup := by
  show ["u-0", "u-1"].Nodup
  decide

def aliceAs (role : String) : Database where
  users := ⟨[bob, alice role], alice_bob_distinct role⟩
  sessions := [⟨"s-1", "u-1", none, none⟩, bobSession]
  audit_log := ∅
  webauthn_credentials := none
  authenticated_devices := none
  mcp_tokens := none

def alicePassword : Plan := planFor (fun _ => false) [] (aliceAs "admin") "alice" [.password]

def noFailure : Connection := ⟨none, fun _ => none, none⟩

def console : Options := ⟨some "$2a$new", "2026-01-01T00:00:00.000Z", none, "u-2", "a-1", none, none, none⟩

def aliceDone : Done :=
  let applied : List Applied := [⟨"set-password", 1⟩, ⟨"revoke-sessions", 1⟩]
  ⟨"u-1", applied, auditRow console alicePassword "u-1" applied⟩

def aliceAfter (role : String) : Database := (applyRecovery noFailure console alicePassword (aliceAs role)).2

theorem alice_recovered (role : String) :
    applyRecovery noFailure console alicePassword (aliceAs role) = (.ok aliceDone, aliceAfter role) := by
  rfl

/-- A password set on an account that lost its role after the plan was made. -/
theorem demoted_account_recovered :
    ¬∀ (stillLocked : String → Bool) (missing : List String) (planned : Database) (request : Request) (plan : Plan),
      planRecovery stillLocked missing planned request = .ok plan → plan.ok = true →
        ∀ (connection : Connection) (options : Options) (before after : Database) (done : Done),
          applyRecovery connection options plan before = (.ok done, after) → RoleGuarded plan done before := by
  intro guarded
  have accepted : planRecovery (fun _ => false) [] (aliceAs "admin") ⟨some "alice", ["password"]⟩ =
      .ok alicePassword := rfl
  have kept := guarded _ _ _ _ _ accepted rfl noFailure console (aliceAs "user") _ _ (alice_recovered "user")
  have steps : alicePassword.steps.map Step.name = ["set-password", "revoke-sessions"] := rfl
  have promotesNot : ¬alicePassword.has ["promote"] := by
    rintro ⟨step, member, named⟩
    have listed : step.name ∈ alicePassword.steps.map Step.name := List.mem_map_of_mem member
    rw [steps] at listed
    simp_all
  exact kept (alice "user") (List.mem_cons_of_mem _ List.mem_cons_self) rfl (by decide) promotesNot
    ⟨"set-password", 1⟩ List.mem_cons_self (by decide)

/-- Her session ends; the other administrator keeps row and session. -/
theorem recovery_confined_alice :
    Confined alicePassword aliceDone (aliceAs "admin") (aliceAfter "admin") ∧
      RoleGuarded alicePassword aliceDone (aliceAs "admin") ∧
      (aliceAfter "admin").others "u-1" = ⟨[bob], [bobSession], none, none, none⟩ := by
  obtain ⟨confined, guarded⟩ := (recovery_confined (alice_recovered "admin")).2 aliceDone rfl
  refine ⟨confined, guarded.mpr fun user found => Or.inl ?_, confined.others⟩
  cases found
  rfl

end ProxyPilot.RootRecovery
