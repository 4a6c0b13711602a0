import ProxyPilot.Setup.Fencing

namespace ProxyPilot.Setup

open Data Transition

/-- What `acquireLock` or `takeoverLock` answered. -/
structure Grant where
  app : String
  owner : String
  epoch : Nat
  job : Option String
deriving DecidableEq

def LockRow.grant (row : LockRow) : Grant := ⟨row.app, row.owner, row.epoch, row.jobId⟩

def Change.granted : Change → Option Grant
  | .lock (.acquireLock _) _ _ (some row) => some row.grant
  | .lock (.takeoverLock _) _ _ (some row) => some row.grant
  | _ => none

/-- The change releases the grant, takes its lock over or clears it. -/
def Change.ends : Change → Grant → Bool
  | .lock (.releaseLock owner epoch) app _ _, grant => grant.app = app && grant.owner = owner && grant.epoch = epoch
  | .lock (.takeoverLock _) app _ _, grant => grant.app = app
  | .lock .clearStaleLock app _ _, grant => grant.app = app
  | _, _ => false

/-- Also a re-assertion, which carries the lock to the acquirer's new job. -/
def Change.replaces : Change → Grant → Bool
  | .lock (.acquireLock _) app (some _) _, grant => grant.app = app
  | change, grant => change.ends grant

def outstandingAfter (ends : Change → Grant → Bool) (grants : List Grant) (change : Change) : List Grant :=
  grants.filter (fun grant => !ends change grant) ++ change.granted.toList

/-- The grants a history leaves outstanding for an app, by what ends one. -/
def outstanding (ends : Change → Grant → Bool) (log : List Change) (app : String) : List Grant :=
  (log.foldl (outstandingAfter ends) []).filter (·.app = app)

/-- The change writes a lock row under the pair. -/
def Change.grantsPair (change : Change) (app owner : String) (epoch : Nat) : Bool :=
  match change with
  | .lock (.acquireLock _) named _ (some row) => named = app && row.owner = owner && row.epoch = epoch
  | .lock (.takeoverLock _) named _ (some row) => named = app && row.owner = owner && row.epoch = epoch
  | .lock .holdStaleLock named _ (some row) => named = app && row.owner = owner && row.epoch = epoch
  | _ => false

theorem outstanding_append (ends : Change → Grant → Bool) (log : List Change) (change : Change) (app : String) :
    outstanding ends (log ++ [change]) app =
      (outstanding ends log app).filter (fun grant => !ends change grant) ++
        change.granted.toList.filter (·.app = app) := by
  unfold outstanding
  rw [List.foldl_append, List.foldl_cons, List.foldl_nil, outstandingAfter, List.filter_append, List.filter_comm]

variable {log : List Change} {app : String} {writer : LockWriter} {old new : Option LockRow}
  {db : Db}

theorem outstanding_app {ends : Change → Grant → Bool} {grant : Grant}
    (member : grant ∈ outstanding ends log app) : grant.app = app := of_decide_eq_true (List.mem_filter.mp member).2

/-- An app has no grant outstanding, or the one its row names. -/
def Single (db : Db) (log : List Change) : Prop :=
  ∀ app, outstanding Change.replaces log app = [] ∨
    ∃ row, db.locks.get app = some row ∧ outstanding Change.replaces log app = [row.grant]

section

variable {db : Db} {log : List Change} {change : Change}

/-- A change that neither ends nor makes a grant of the app. -/
theorem outstanding_quiet {app : String} (keeps : ∀ grant, grant.app = app → change.replaces grant = false)
    (grants : ∀ grant, change.granted = some grant → grant.app ≠ app) :
    outstanding Change.replaces (log ++ [change]) app = outstanding Change.replaces log app := by
  rw [outstanding_append]
  have kept : (outstanding Change.replaces log app).filter (fun grant => !change.replaces grant) =
      outstanding Change.replaces log app :=
    List.filter_eq_self.mpr fun grant member => by rw [keeps grant (outstanding_app member)]; rfl
  rw [kept]
  cases granted : change.granted with
  | none => simp
  | some grant => simp [grants grant granted]

theorem outstanding_replaced {app : String} {grant : Grant}
    (ends : ∀ grant, grant.app = app → change.replaces grant = true)
    (granted : change.granted = some grant) (named : grant.app = app) :
    outstanding Change.replaces (log ++ [change]) app = [grant] := by
  rw [outstanding_append, granted]
  have none : (outstanding Change.replaces log app).filter (fun grant => !change.replaces grant) = [] :=
    List.filter_eq_nil_iff.mpr fun grant member => by simp [ends grant (outstanding_app member)]
  simp [none, named]

end

theorem Change.granted_app {grant : Grant}
    (named : ∀ row, new = some row → row.app = app)
    (granted : (Change.lock writer app old new).granted = some grant) : grant.app = app := by
  unfold Change.granted at granted
  split at granted
  case h_1 row same =>
      cases same
      cases granted
      exact named row rfl
  case h_2 row same =>
      cases same
      cases granted
      exact named row rfl
  case h_3 => contradiction

theorem Change.replaces_app {grant : Grant}
    (different : grant.app ≠ app) : (Change.lock writer app old new).replaces grant = false := by
  cases writer <;> cases old <;> simp [Change.replaces, Change.ends, different]

/-- A change of another app's lock leaves an app's grants. -/
theorem outstanding_other {app named : String}
    (about : ∀ row, new = some row → row.app = named) (different : app ≠ named) :
    outstanding Change.replaces (log ++ [.lock writer named old new]) app = outstanding Change.replaces log app :=
  outstanding_quiet (fun _ same => Change.replaces_app (same ▸ different))
    fun _ granted same => different (same.symm.trans (Change.granted_app about granted))

/-- A row that is rewritten under its pair and job keeps its grant. -/
theorem Single.rewrite (single : Single db log)
    {old new : LockRow} (found : db.locks.get app = some old) (same : new.grant = old.grant)
    (quiet : ∀ grant, (Change.lock writer app (some old) (some new)).replaces grant = false)
    (silent : (Change.lock writer app (some old) (some new)).granted = none) :
    Single { db with locks := db.locks.put new } (log ++ [.lock writer app (some old) (some new)]) := by
  have named : new.app = app := (congrArg Grant.app same).trans (Table.get_key found)
  intro other
  by_cases about : other = app
  · subst about
    rw [outstanding_quiet (fun grant _ => quiet grant) fun grant granted => by simp [silent] at granted]
    refine (single other).imp id fun ⟨row, stored, grants⟩ => ⟨new, ?_, ?_⟩
    · exact named ▸ Table.get_put_self _ _
    · rw [found] at stored
      cases stored
      rw [grants, same]
  · rw [outstanding_other (fun row is => Option.some.inj is ▸ named) about]
    refine (single other).imp id fun ⟨row, stored, grants⟩ => ⟨row, ?_, grants⟩
    exact (Table.get_put_other _ fun same => about (same.trans named)).trans stored

/-- A row that is written under a new grant replaces what was outstanding. -/
theorem Single.grant (single : Single db log)
    {old : Option LockRow} {new : LockRow} (named : new.app = app)
    (ends : old = none ∨ ∀ grant, grant.app = app → (Change.lock writer app old (some new)).replaces grant = true)
    (found : db.locks.get app = old)
    (granted : (Change.lock writer app old (some new)).granted = some new.grant) :
    Single { db with locks := db.locks.put new } (log ++ [.lock writer app old (some new)]) := by
  intro other
  by_cases about : other = app
  · subst about
    refine Or.inr ⟨new, named ▸ Table.get_put_self _ _, ?_⟩
    cases ends with
    | inr ends => exact outstanding_replaced ends granted named
    | inl absent =>
      have none : outstanding Change.replaces log other = [] := by
        refine (single other).resolve_right fun ⟨row, stored, _⟩ => ?_
        rw [found, absent] at stored
        contradiction
      rw [outstanding_append, none, granted]
      simp [LockRow.grant, named]
  · rw [outstanding_other (fun row is => Option.some.inj is ▸ named) about]
    refine (single other).imp id fun ⟨row, stored, grants⟩ => ⟨row, ?_, grants⟩
    exact (Table.get_put_other _ fun same => about (same.trans named)).trans stored

/-- A row that goes takes its grant with it. -/
theorem Single.remove (single : Single db log)
    {old : LockRow} (found : db.locks.get app = some old)
    (ends : (Change.lock writer app (some old) none).replaces old.grant = true)
    (silent : (Change.lock writer app (some old) none).granted = none) :
    Single { db with locks := db.locks.erase app } (log ++ [.lock writer app (some old) none]) := by
  intro other
  by_cases about : other = app
  · subst about
    left
    rw [outstanding_append, silent]
    rcases single other with none | ⟨row, stored, grants⟩
    · simp [none]
    · rw [found] at stored
      cases stored
      simp [grants, ends]
  · rw [outstanding_other (fun row is => by simp at is) about]
    refine (single other).imp id fun ⟨row, stored, grants⟩ => ⟨row, ?_, grants⟩
    dsimp only
    rw [Table.get_erase, if_neg about]
    exact stored

theorem Single.steps {db after : Db} {change : Change} (single : Single db log)
    (stepped : change.Steps db after) : Single after (log ++ [change]) := by
  cases stepped with
  | job found moved =>
    intro app
    rw [outstanding_quiet (fun _ _ => rfl) fun _ granted => by simp [Change.granted] at granted]
    exact single app
  | @lock writer app old new found named moved =>
    cases moved with
    | acquired => exact single.grant named (.inl rfl) found rfl
    | reasserted => exact single.grant named (.inr fun _ same => by simp [Change.replaces, same]) found rfl
    | tookOver =>
      exact single.grant named (.inr fun _ same => by simp [Change.replaces, Change.ends, same]) found rfl
    | renewed => exact single.rewrite found rfl (fun _ => rfl) rfl
    | marked => exact single.rewrite found rfl (fun _ => rfl) rfl
    | held _ stale recorded =>
      intro other
      by_cases about : other = app
      · subst about
        rw [outstanding_quiet (fun _ _ => rfl) fun _ granted => by simp [Change.granted] at granted]
        left
        refine (single other).resolve_right fun ⟨row, stored, _⟩ => ?_
        rw [found] at stored
        contradiction
      · rw [outstanding_other (fun row is => Option.some.inj is ▸ named) about]
        refine (single other).imp id fun ⟨row, stored, grants⟩ => ⟨row, ?_, grants⟩
        exact (Table.get_put_other _ fun same => about (same.trans named)).trans stored
  | @unlock writer app old found moved =>
    have named : old.app = app := Table.get_key found
    cases moved with
    | released => exact single.remove found (by simp [Change.replaces, Change.ends, LockRow.grant, named]) rfl
    | cleared => exact single.remove found (by simp [Change.replaces, Change.ends, LockRow.grant, named]) rfl

/-- The lock row of the app, if any, is not under the pair. -/
def PairGone (app owner : String) (epoch : Nat) (db : Db) : Prop :=
  ∀ row, db.locks.get app = some row → ¬ (row.owner = owner ∧ row.epoch = epoch)

section

variable {app owner : String} {epoch : Nat} {db after : Db} {change : Change}

variable {row : LockRow}

theorem PairGone.put (gone : PairGone app owner epoch db)
    (other : row.app = app → ¬ (row.owner = owner ∧ row.epoch = epoch)) :
    PairGone app owner epoch { db with locks := db.locks.put row } := by
  intro stored found
  dsimp only at found
  rw [Table.get_put] at found
  by_cases same : app = Keyed.key row
  · rw [if_pos same] at found
    cases found
    exact other same.symm
  · rw [if_neg same] at found
    exact gone stored found

theorem PairGone.steps (gone : PairGone app owner epoch db) (granted : change.grantsPair app owner epoch = false)
    (stepped : change.Steps db after) : PairGone app owner epoch after := by
  cases stepped with
  | job => exact gone
  | @unlock writer named old found moved =>
    intro row stored
    dsimp only at stored
    rw [Table.get_erase] at stored
    by_cases same : app = named
    · rw [if_pos same] at stored
      contradiction
    · rw [if_neg same] at stored
      exact gone row stored
  | @lock writer named old new found about moved =>
    have stays {row : LockRow} (found : db.locks.get named = some row) (same : new.app = app) :
        ¬ (row.owner = owner ∧ row.epoch = epoch) := gone row (same ▸ about ▸ found)
    refine gone.put fun same => ?_
    have about' : named = app := about.symm.trans same
    cases moved with
    | acquired => simpa [Change.grantsPair, about'] using granted
    | reasserted => exact (stays found same :)
    | tookOver => simpa [Change.grantsPair, about'] using granted
    | renewed => exact (stays found same :)
    | marked => exact (stays found same :)
    | held => simpa [Change.grantsPair, about'] using granted

/-- What ends a grant takes its pair off the row. -/
theorem PairGone.ended {row : LockRow} {grant : Grant} (found : db.locks.get grant.app = some row)
    (named : row.grant = grant) (ends : change.ends grant = true) (stepped : change.Steps db after) :
    PairGone grant.app grant.owner grant.epoch after := by
  subst named
  have erased {locks : Table LockRow} : PairGone row.grant.app row.grant.owner row.grant.epoch
      { db with locks := locks.erase row.grant.app } := by
    intro stored is
    dsimp only at is
    rw [Table.get_erase, if_pos rfl] at is
    contradiction
  cases stepped with
  | job => simp [Change.ends] at ends
  | @unlock writer named old stored moved =>
    cases moved with
    | released =>
      have same : row.grant.app = named := (by simpa [Change.ends, and_assoc] using ends : _ ∧ _).1
      exact same ▸ erased
    | cleared =>
      have same : row.grant.app = named := by simpa [Change.ends] using ends
      exact same ▸ erased
  | @lock writer named old new stored about moved =>
    have written : (db.locks.put new).get named = some new := about ▸ Table.get_put_self _ _
    cases moved with
    | acquired => simp [Change.ends] at ends
    | reasserted => simp [Change.ends] at ends
    | renewed => simp [Change.ends] at ends
    | marked => simp [Change.ends] at ends
    | held => simp [Change.ends] at ends
    | @tookOver lock =>
      have same : row.grant.app = named := by simpa [Change.ends] using ends
      rw [same] at found
      rw [found] at stored
      cases stored
      intro newer is
      dsimp only at is
      rw [same, written] at is
      cases is
      rintro ⟨_, epoch⟩
      exact absurd epoch (Nat.succ_ne_self _)

theorem renewLock_gone (gone : PairGone app owner epoch db) (leaseMs : Int) (now : Time) :
    renewLock db app owner epoch leaseMs now = (db, []) := by
  unfold renewLock
  cases found : db.locks.get app with
  | none => rfl
  | some lock => exact if_neg (gone lock found)

theorem releaseLock_gone (gone : PairGone app owner epoch db) : releaseLock db app owner epoch = (db, []) := by
  unfold releaseLock
  cases found : db.locks.get app with
  | none => rfl
  | some lock => exact if_neg (gone lock found)

theorem acquireLock_refused (found : db.locks.get app = some row) (other : owner ≠ row.owner)
    (operation : String) (job : Option String) (leaseMs : Int) (now : Time) :
    acquireLock db app owner operation job leaseMs now = (db, []) := by
  have verdict : lockVerdict (some row) owner now = .stale ∨ lockVerdict (some row) owner now = .held := by
    unfold lockVerdict
    dsimp only
    rw [if_neg (Ne.symm other)]
    cases row.leaseExpired now <;> simp
  unfold acquireLock
  rw [found]
  cases verdict with
  | inl stale => rw [stale]
  | inr held => rw [held]

theorem takeoverLock_refused (found : db.locks.get app = some row) {now : Time}
    (live : row.leaseExpired now = false) (taker operation : String) (job : Option String) (leaseMs : Int) :
    takeoverLock db app taker operation job leaseMs now = (db, []) := by
  unfold takeoverLock
  rw [found]
  simp [live]

end

theorem Recorded.single (recorded : Recorded .empty log db) : Single db log :=
  recorded.preserves Single (fun _ => True) (fun before _ stepped => before.steps stepped) [] (fun _ => .inl rfl)
    fun _ _ => trivial

/-- At most one grant of an app is outstanding, where a re-assertion by the owner
replaces the grant; other owners do not acquire, a live lease is not taken over,
and the pair of an ended grant is of no use until a row is written under it. -/
theorem one_grant_outstanding {patterns : Patterns} {labels : List Label} {state : State}
    (ran : (engine patterns).exec .initial labels = some state) (app : String) :
    (outstanding Change.replaces state.log app).length ≤ 1 ∧
    (∀ grant ∈ outstanding Change.replaces state.log app, ∀ owner operation job leaseMs now, owner ≠ grant.owner →
      acquireLock state.db app owner operation job leaseMs now = (state.db, [])) ∧
    (∀ row taker operation job leaseMs now, state.db.locks.get app = some row → row.leaseExpired now = false →
      takeoverLock state.db app taker operation job leaseMs now = (state.db, [])) ∧
    ∀ before change after grant, state.log = before ++ change :: after →
      grant ∈ outstanding Change.replaces before app → change.ends grant = true →
      (∀ later ∈ after, later.grantsPair app grant.owner grant.epoch = false) →
      (∀ leaseMs now, renewLock state.db app grant.owner grant.epoch leaseMs now = (state.db, [])) ∧
        releaseLock state.db app grant.owner grant.epoch = (state.db, []) := by
  have single := (exec_recorded ran).single
  refine ⟨?_, ?_, fun row taker operation job leaseMs now found live =>
    takeoverLock_refused found live taker operation job leaseMs, ?_⟩
  · rcases single app with none | ⟨row, _, grants⟩
    · simp [none]
    · simp [grants]
  · intro grant member owner operation job leaseMs now other
    rcases single app with none | ⟨row, found, grants⟩
    · simp [none] at member
    · rw [grants, List.mem_singleton] at member
      subst member
      exact acquireLock_refused found other operation job leaseMs now
  · intro before change after grant split member ends quiet
    obtain ⟨middle, early, late⟩ := (split ▸ exec_recorded ran).split
    have named := outstanding_app member
    have standing := early.single
    cases late with
    | @change _ next _ _ _ stepped rest =>
      have gone : PairGone app grant.owner grant.epoch next := by
        rcases standing app with none | ⟨row, found, grants⟩
        · simp [none] at member
        · rw [grants, List.mem_singleton] at member
          have ended := PairGone.ended (named ▸ found) member.symm ends stepped
          rwa [named] at ended
      have finally_ := rest.keeps (PairGone app grant.owner grant.epoch)
        (fun change => change.grantsPair app grant.owner grant.epoch = false)
        (fun gone quiet stepped => gone.steps quiet stepped) gone quiet
      exact ⟨fun leaseMs now => renewLock_gone finally_ leaseMs now, releaseLock_gone finally_⟩

/-- Two jobs of one process acquire the same lock. -/
def sharedAcquire : List Label :=
  [.call (.acquireLock "app" "A" "deploy" (some "j1") 1000 0),
    .call (.acquireLock "app" "A" "deploy" (some "j2") 1000 1)]

/-- One process releases its lock and acquires it again. -/
def acquiredAgain : List Label :=
  [.call (.acquireLock "app" "A" "deploy" (some "j1") 1000 0), .call (.releaseLock "app" "A" 1),
    .call (.acquireLock "app" "A" "deploy" (some "j2") 1000 1)]

/-- Both grants are outstanding when only a release, a takeover and a clearing end
one; the pair of a released grant releases the next. -/
theorem reassertion_keeps_two_grants :
    (∃ state, (engine plainText).exec .initial sharedAcquire = some state ∧
      outstanding Change.ends state.log "app" = [⟨"app", "A", 1, some "j1"⟩, ⟨"app", "A", 1, some "j2"⟩] ∧
      ¬ (outstanding Change.ends state.log "app").length ≤ 1) ∧
    ∃ state, (engine plainText).exec .initial acquiredAgain = some state ∧
      outstanding Change.ends state.log "app" = [⟨"app", "A", 1, some "j2"⟩] ∧
      (releaseLock state.db "app" "A" 1).2 ≠ [] :=
  ⟨⟨_, rfl, rfl, by decide⟩, _, rfl, rfl, fun nothing => nomatch (congrArg List.length nothing : 1 = 0)⟩

/-- A lease that expired and was taken over. -/
def takenOver : List Label :=
  [.call (.acquireLock "app" "A" "deploy" (some "j1") 1000 0),
    .call (.takeoverLock "app" "B" "recover_app" (some "j2") 1000 5000)]

theorem one_grant_outstanding_takenOver :
    ∃ state, (engine plainText).exec .initial takenOver = some state ∧
      outstanding Change.replaces state.log "app" = [⟨"app", "B", 2, some "j2"⟩] ∧
      (outstanding Change.replaces state.log "app").length ≤ 1 ∧
      releaseLock state.db "app" "A" 1 = (state.db, []) :=
  have ran : (engine plainText).exec .initial takenOver = some _ := rfl
  have holds := one_grant_outstanding ran "app"
  ⟨_, rfl, rfl, holds.1,
    (holds.2.2.2 [_] _ [] ⟨"app", "A", 1, some "j1"⟩ rfl (by decide) rfl (by simp)).2⟩

end ProxyPilot.Setup
