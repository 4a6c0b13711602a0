import ProxyPilot.Routes.Upstream

namespace ProxyPilot.Routes

open Effects

variable {w : World} {serviceId : String} {host : Host}

/-- No call of the fence has thrown. -/
def Free (log : List Event) : Prop := Event.guard true ∉ log

/-- The last thing that happened is that the fence threw. -/
def Cut (log : List Event) : Prop := ∃ before, log = before ++ [.guard true] ∧ Free before

def Unfenced (progress : Progress) : Prop := Free progress.log

def FencedOff (w : World) (failure : Failure) (progress : Progress) : Prop :=
  Free progress.log ∨ (Cut progress.log ∧ failure = .lease w.lost)

variable {event : Event} {effect : Host → Host} {call : Call} {op : Op} {program : Act Unit}
  {progress : Progress} {ip : Option String}

theorem Free.snoc {log : List Event} (free : Free log) (other : event ≠ .guard true) : Free (log ++ [event]) := by
  intro member
  rcases List.mem_append.mp member with earlier | last
  · exact free earlier
  · exact other (List.mem_singleton.mp last).symm

theorem guard_fenced : Keeps Unfenced (FencedOff w) (guard w) := by
  intro progress free
  unfold Leads guard
  cases thrown : w.fence (progress.log.countP Event.isGuard) with
  | true => exact .inr ⟨⟨progress.log, rfl, free⟩, rfl⟩
  | false => exact Free.snoc free (by simp)

theorem perform_fenced : Keeps Unfenced (FencedOff w) (perform op call effect) := by
  intro progress free
  have next : Free (progress.log ++ [.ran op call]) := free.snoc (by simp)
  unfold Leads perform
  cases call with
  | done => exact next
  | fails effect failure => cases effect <;> exact .inl next

/-- A handler that passes the lost lease on. -/
theorem handled {α : Type} {handler : Failure → Act α}
    (rethrows : ∀ message, handler (.lease message) = throw (.lease message))
    (keeps : ∀ failure, Keeps Unfenced (FencedOff w) (handler failure)) (failure : Failure) (progress : Progress)
    (thrown : FencedOff w failure progress) :
    Leads (handler failure) progress (fun _ after => Unfenced after) (FencedOff w) := by
  rcases thrown with free | ⟨cut, rfl⟩
  · exact keeps failure progress free
  · rw [rethrows]
    exact leads_throw.mpr (.inr ⟨cut, rfl⟩)

theorem throw_fenced {α : Type} (failure : Failure) : Keeps Unfenced (FencedOff w) (throw failure : Act α) :=
  fun _ free => leads_throw.mpr (.inl free)

/-- What is thrown inside cannot come from the fence. -/
theorem swallowed_fenced :
    Keeps Unfenced (FencedOff w) (tryCatch (perform op call effect) fun _ => pure ()) := by
  intro progress free
  refine leads_tryCatch.mpr ?_
  have next : Free (progress.log ++ [.ran op call]) := free.snoc (by simp)
  unfold Leads perform
  cases call with
  | done => exact next
  | fails effect failure => cases effect <;> exact next

theorem restore_fenced (backups : List Backup) : Keeps Unfenced (FencedOff w) (restore w backups) := by
  unfold restore
  refine .bind (.each fun backup _ => .bind guard_fenced fun _ => ?_) fun _ =>
    .bind guard_fenced fun _ => swallowed_fenced
  unfold restoreFile
  split <;> exact swallowed_fenced

theorem failWith_fenced (backups : List Backup) (failure : Failure) (message : String) :
    Keeps Unfenced (FencedOff w) (failWith w backups failure message) := by
  unfold failWith
  split
  · exact throw_fenced failure
  · refine .bind (.tryCatch (restore_fenced backups) (handled (fun _ => rfl) fun inner => ?_))
      fun _ => throw_fenced _
    split
    · exact throw_fenced inner
    · exact .pure

theorem guarded_fenced (keeps : Keeps Unfenced (FencedOff w) program) (backups : List Backup)
    (message : Failure → String) :
    Keeps Unfenced (FencedOff w) (tryCatch program fun failure => failWith w backups failure (message failure)) :=
  .tryCatch keeps (handled (fun _ => rfl) fun failure => failWith_fenced backups failure (message failure))

theorem renderDomains_fenced (domains : List String) :
    Keeps Unfenced (FencedOff w) (renderDomains w serviceId domains) := by
  unfold renderDomains
  simp only
  split
  · exact .pure
  · refine .bind guard_fenced fun _ => .bind .get fun progress => .bind (guarded_fenced ?_ _ _) fun _ =>
      .bind (guarded_fenced ?_ _ _) fun _ => guarded_fenced ?_ _ _
    · exact .each fun domain _ => .bind guard_fenced fun _ => .bind .get fun _ => perform_fenced
    · exact .bind guard_fenced fun _ => perform_fenced
    · exact .bind guard_fenced fun _ => perform_fenced

theorem revertUpstream_fenced (oldIp : Option String) (failure : Failure) :
    Keeps Unfenced (FencedOff w) (revertUpstream w serviceId oldIp failure) := by
  unfold revertUpstream
  split
  · exact .pure
  · refine .tryCatch (.bind guard_fenced fun _ => perform_fenced) (handled (fun _ => rfl) fun inner => ?_)
    split
    · exact throw_fenced inner
    · exact .pure

/-- From the first call of the fence that throws on nothing happens any more. -/
theorem applyServiceUpstream_fenced (ip : Option String) :
    Keeps Unfenced (FencedOff w) (applyServiceUpstream w serviceId ip) := by
  unfold applyServiceUpstream
  refine .bind .get fun progress => ?_
  split
  · exact throw_fenced _
  case h_2 service _ =>
      split
      · exact .pure
      · refine .bind guard_fenced fun _ => .bind perform_fenced fun _ =>
          .bind (.tryCatch (renderDomains_fenced _) (handled (fun _ => rfl) fun failure => ?_)) fun _ => .pure
        exact .bind (revertUpstream_fenced service.targetIp failure) fun _ => throw_fenced failure

theorem guard_leads (progress : Progress) : Leads (guard w) progress
    (fun _ after => after.host = progress.host ∧ after.log = progress.log ++ [.guard false])
    (fun failure after => failure = .lease w.lost ∧ after.host = progress.host) := by
  unfold Leads guard
  cases w.fence (progress.log.countP Event.isGuard) with
  | true => exact ⟨rfl, rfl⟩
  | false => exact ⟨rfl, rfl⟩

theorem perform_leads (op : Op) (call : Call) (effect : Host → Host) (progress : Progress) :
    Leads (perform op call effect) progress
    (fun _ after => call = .done ∧ after = ⟨effect progress.host, progress.log ++ [.ran op .done]⟩)
    (fun _ after => call ≠ .done ∧ after.log = progress.log ++ [.ran op call] ∧
      (after.host = progress.host ∨ after.host = effect progress.host)) := by
  unfold Leads perform
  cases call with
  | done => exact ⟨rfl, rfl⟩
  | fails effect failure => cases effect <;> simp

def Op.restores : Op → Bool
  | .revert | .writeConfig _ | .removeConfig _ => true
  | _ => false

/-- Every write that restores something has succeeded. -/
def Settled (log : List Event) : Prop := ∀ op call, Event.ran op call ∈ log → op.restores = true → call = .done

theorem Settled.earlier {log : List Event} (settled : Settled (log ++ [event])) : Settled log :=
  fun op call member => settled op call (List.mem_append_left _ member)

theorem not_settled {log : List Event} (restores : op.restores = true) (failed : call ≠ .done) :
    ¬ Settled (log ++ [.ran op call]) :=
  fun settled => failed (settled op call (List.mem_append_right _ List.mem_cons_self) restores)

/-- The files a rollback leaves. -/
def restoredFiles (w : World) (host : Host) (targets : List String) (domain : String) : Option String :=
  if domain ∈ targets ∧ w.readable domain = false then none else host.files domain

/-- Only the targets' files may differ. -/
structure Inside (host : Host) (targets : List String) (progress : Progress) : Prop where
  services : progress.host.services = host.services
  files : ∀ domain, domain ∉ targets → progress.host.files domain = host.files domain

variable {targets : List String}

theorem Inside.setFile (inside : Inside host targets progress) {domain : String} (target : domain ∈ targets)
    (text : Option String) (log : List Event) : Inside host targets ⟨progress.host.setFile domain text, log⟩ where
  services := inside.services
  files := fun other outside => by
    have different : other ≠ domain := fun same => outside (same ▸ target)
    exact (if_neg different).trans (inside.files other outside)

theorem Inside.log {progress after : Progress} (inside : Inside host targets progress)
    (same : after.host = progress.host) :
    Inside host targets after := by
  constructor
  · rw [same]
    exact inside.services
  · rw [same]
    exact inside.files

theorem guard_inside : Keeps (Inside host targets) (fun _ => Inside host targets) (guard w) :=
  fun progress inside =>
    (guard_leads progress).mono (fun _ _ kept => inside.log kept.1) fun _ _ kept => inside.log kept.2

theorem perform_inside
    (effects : ∀ progress log, Inside host targets progress → Inside host targets ⟨effect progress.host, log⟩) :
    Keeps (Inside host targets) (fun _ => Inside host targets) (perform op call effect) := by
  intro progress inside
  refine (perform_leads op call effect progress).mono
    (fun _ after done => done.2 ▸ effects progress _ inside) fun _ after failed => ?_
  rcases failed.2.2 with same | effected
  · exact inside.log same
  · exact (effects progress after.log inside).log effected

theorem regenerate_inside {domain : String} (target : domain ∈ targets) :
    Keeps (Inside host targets) (fun _ => Inside host targets) (regenerate w serviceId domain) :=
  .bind .get fun _ => perform_inside fun _ log inside => inside.setFile target _ log

theorem snapshotDomain_domain (domain : String) : (snapshotDomain w host domain).domain = domain := by
  unfold snapshotDomain
  cases host.files domain with
  | none => rfl
  | some text => cases w.readable domain <;> rfl

/-- A backup of the snapshot writes what the rollback leaves. -/
theorem restoreFile_leads {backup : Backup} (member : backup ∈ snapshotDomainConfigs w host targets)
    (progress : Progress) :
    backup.domain ∈ targets ∧ Leads (restoreFile w backup) progress
      (fun _ after => ∃ event, after =
        ⟨progress.host.setFile backup.domain (restoredFiles w host targets backup.domain), progress.log ++ [event]⟩)
      (fun _ after => ¬ Settled after.log ∧
        (after.host = progress.host ∨ ∃ text, after.host = progress.host.setFile backup.domain text)) := by
  obtain ⟨domain, target, rfl⟩ := List.mem_map.mp member
  have runs {op : Op} {call : Call} {text : Option String} (restores : op.restores = true)
      (same : text = restoredFiles w host targets domain) :
      Leads (perform op call (·.setFile domain text)) progress
        (fun _ after => ∃ event, after =
          ⟨progress.host.setFile domain (restoredFiles w host targets domain), progress.log ++ [event]⟩)
        (fun _ after => ¬ Settled after.log ∧
          (after.host = progress.host ∨ ∃ text, after.host = progress.host.setFile domain text)) := by
    refine (perform_leads op call _ progress).mono (fun _ after done => ⟨_, same ▸ done.2⟩) fun _ after failed => ?_
    refine ⟨?_, failed.2.2.imp_right fun effected => ⟨text, effected⟩⟩
    rw [failed.2.1]
    exact not_settled restores failed.1
  rw [snapshotDomain_domain]
  refine ⟨target, ?_⟩
  unfold snapshotDomain
  cases file : host.files domain with
  | none => exact runs rfl (by simp [restoredFiles, file])
  | some text =>
    cases readable : w.readable domain with
    | true =>
      have writes : some text = restoredFiles w host targets domain := by simp [restoredFiles, file, readable]
      exact runs rfl writes
    | false =>
      have removes : none = restoredFiles w host targets domain := by simp [restoredFiles, target, readable]
      exact runs rfl removes

/-- A rollback that is not cut off leaves the files of the snapshot. -/
theorem restore_leads (inside : Inside host targets progress) :
    Leads (restore w (snapshotDomainConfigs w host targets)) progress
      (fun _ after => after.host.services = host.services ∧
        (Settled after.log → after.host.files = restoredFiles w host targets))
      (fun failure _ => failure.isLeaseLost = true) := by
  let during (done : List Backup) (after : Progress) : Prop := Inside host targets after ∧ (Settled after.log →
    ∀ backup ∈ done, after.host.files backup.domain = restoredFiles w host targets backup.domain)
  have loop : Leads (each (snapshotDomainConfigs w host targets) fun backup => do
      guard w
      tryCatch (restoreFile w backup) fun _ => pure ()) progress
      (fun _ after => during (snapshotDomainConfigs w host targets) after)
        (fun failure _ => failure.isLeaseLost = true) := by
    refine leads_each during [] ⟨inside, fun _ _ member => nomatch member⟩
      fun earlier backup later state split held => ?_
    have member : backup ∈ snapshotDomainConfigs w host targets := by
      rw [← List.nil_append (snapshotDomainConfigs w host targets), ← split]
      exact List.mem_append_right _ List.mem_cons_self
    refine leads_bind.mpr ((guard_leads state).mono (fun _ guarded kept => ?_) fun _ _ lost => lost.1 ▸ rfl)
    obtain ⟨target, restored⟩ := restoreFile_leads member guarded
    refine leads_tryCatch.mpr (restored.mono (fun _ after done => ?_) fun _ after failed => leads_pure.mpr ?_)
    · obtain ⟨event, rfl⟩ := done
      refine ⟨(held.1.log kept.1).setFile target _ _, fun settled other among => ?_⟩
      by_cases same : other.domain = backup.domain
      · exact (if_pos same).trans (by rw [same])
      · have before := settled.earlier
        rw [kept.2] at before
        rcases List.mem_append.mp among with old | new
        · refine (if_neg same).trans ?_
          rw [kept.1]
          exact held.2 before.earlier other old
        · exact absurd (congrArg Backup.domain (List.mem_singleton.mp new)) same
    · refine ⟨?_, fun settled => absurd settled failed.1⟩
      rcases failed.2 with same | ⟨text, effected⟩
      · exact (held.1.log kept.1).log same
      · exact ((held.1.log kept.1).setFile target text after.log).log effected
  refine leads_bind.mpr (loop.mono (fun _ looped held => ?_) fun _ _ lost => lost)
  refine leads_bind.mpr ((guard_leads looped).mono (fun _ guarded kept => ?_) fun _ _ lost => lost.1 ▸ rfl)
  have files (settled : Settled looped.log) : looped.host.files = restoredFiles w host targets := by
    funext domain
    by_cases target : domain ∈ targets
    · have named := held.2 settled _ (List.mem_map_of_mem target)
      rwa [snapshotDomain_domain] at named
    · rw [held.1.files domain target, restoredFiles, if_neg fun both => target both.1]
  refine leads_tryCatch.mpr ((perform_leads .restoreReload w.restoreReload id guarded).mono (fun _ after done => ?_)
    fun _ after failed => leads_pure.mpr ?_)
  · obtain ⟨_, rfl⟩ := done
    refine ⟨(congrArg Host.services kept.1).trans held.1.services, fun settled => ?_⟩
    have before := settled.earlier
    rw [kept.2] at before
    exact (congrArg Host.files kept.1).trans (files before.earlier)
  · have same : after.host = looped.host := (failed.2.2.elim id id).trans kept.1
    refine ⟨(congrArg Host.services same).trans held.1.services, fun settled => ?_⟩
    rw [failed.2.1, kept.2] at settled
    exact (congrArg Host.files same).trans (files settled.earlier.earlier)

/-- What a failure that lost no lease leaves. -/
def RolledBack (w : World) (host : Host) (targets : List String) (failure : Failure) (after : Progress) : Prop :=
  failure.isLeaseLost = false → after.host.services = host.services ∧
    (Settled after.log → after.host.files = restoredFiles w host targets)

theorem failWith_leads (inside : Inside host targets progress) (failure : Failure) (message : String) :
    Leads (failWith w (snapshotDomainConfigs w host targets) failure message) progress
      (fun _ _ => False) (RolledBack w host targets) := by
  unfold failWith
  split
  case isTrue lease =>
      refine leads_throw.mpr fun other => ?_
      rw [lease] at other
      contradiction
  · refine leads_bind.mpr
      (leads_tryCatch.mpr ((restore_leads inside).mono (fun _ after restored => ?_) fun inner after lease => ?_))
    · exact leads_throw.mpr fun _ => restored
    · rw [if_pos lease]
      refine leads_throw.mpr fun other => ?_
      rw [lease] at other
      contradiction

/-- A phase that fails is rolled back. -/
theorem phase_leads (inside : Keeps (Inside host targets) (fun _ => Inside host targets) program)
    (message : Failure → String) : Keeps (Inside host targets) (RolledBack w host targets)
      (tryCatch program fun failure =>
        failWith w (snapshotDomainConfigs w host targets) failure (message failure)) :=
  .tryCatch inside fun failure _ kept =>
    (failWith_leads kept failure (message failure)).mono (fun _ _ never => never.elim)
    fun _ _ rolled => rolled

def targetsOf (domains : List String) : List String := (domains.filter (· ≠ "")).eraseDups

theorem renderDomains_leads (domains : List String) (progress : Progress) :
    Leads (renderDomains w serviceId domains) progress
      (fun _ after => Inside progress.host (targetsOf domains) after)
      (RolledBack w progress.host (targetsOf domains)) := by
  have start : Inside progress.host (targetsOf domains) progress := ⟨rfl, fun _ _ => rfl⟩
  unfold renderDomains
  simp only
  split
  · exact leads_pure.mpr start
  · refine leads_bind.mpr ((guard_leads progress).mono (fun _ guarded kept => ?_) fun failure _ lost other => ?_)
    · refine leads_bind.mpr (leads_get.mpr ?_)
      have snapshot : guarded.host = progress.host := kept.1
      rw [snapshot]
      refine Keeps.bind (phase_leads (.each fun domain target => .bind guard_inside fun _ =>
        regenerate_inside target) _)
        (fun _ => .bind (phase_leads (.bind guard_inside fun _ => perform_inside fun _ _ kept => kept.log rfl) _)
          fun _ => phase_leads (.bind guard_inside fun _ => perform_inside fun _ _ kept => kept.log rfl) _)
        guarded (start.log snapshot)
    · rw [lost.1] at other
      contradiction

theorem failWith_never (backups : List Backup) (failure : Failure) (message : String) (progress : Progress) :
    Leads (failWith w backups failure message) progress (fun _ _ => False) (fun _ _ => True) := by
  unfold failWith
  split
  · exact leads_throw.mpr trivial
  · refine leads_bind.mpr (leads_tryCatch.mpr ?_)
    have restored : Keeps (fun _ => True) (fun _ _ => True) (restore w backups) := by
      intro before _
      unfold Leads
      split <;> trivial
    refine (restored progress trivial).mono (fun _ after _ => leads_throw.mpr trivial) fun inner after _ => ?_
    split
    · exact leads_throw.mpr trivial
    · exact leads_pure.mpr (leads_throw.mpr trivial)

/-- A phase that returns has run its program. -/
theorem phase_returns {returns : Progress → Prop} {backups : List Backup}
    {message : Failure → String} (ran : Leads program progress (fun _ after => returns after) (fun _ _ => True)) :
    Leads (tryCatch program fun failure => failWith w backups failure (message failure)) progress
      (fun _ after => returns after) (fun _ _ => True) :=
  leads_tryCatch.mpr (ran.mono (fun _ _ held => held) fun failure after _ =>
    (failWith_never backups failure (message failure) after).mono (fun _ _ never => never.elim)
      fun _ _ thrown => thrown)

/-- A call behind the fence that succeeds. -/
theorem guarded_returns (op : Op) (call : Call) (effect : Host → Host) (progress : Progress) :
    Leads (do guard w; perform op call effect) progress
      (fun _ after => call = .done ∧ after = ⟨effect progress.host, progress.log ++ [.guard false, .ran op .done]⟩)
      (fun _ _ => True) := by
  refine leads_bind.mpr ((guard_leads progress).mono (fun _ guarded kept => ?_) fun _ _ _ => trivial)
  refine (perform_leads op call effect guarded).mono (fun _ after done => ⟨done.1, ?_⟩) fun _ _ _ => trivial
  rw [done.2, kept.1, kept.2, List.append_assoc]
  rfl

/-- The calls of a rendering that succeeds. -/
def renderLog (ip : Option String) (targets : List String) : List Event :=
  if targets = [] then []
  else .guard false :: targets.flatMap (fun domain => [.guard false, .ran (.regenerate domain ip) .done]) ++
    [.guard false, .ran .adapt .done, .guard false, .ran .reload .done]

theorem renderDomains_returns (domains : List String) (progress : Progress) :
    Leads (renderDomains w serviceId domains) progress
      (fun _ after => after.host.services = progress.host.services ∧ (targetsOf domains ≠ [] → w.adapt = .done) ∧
        after.log = progress.log ++ renderLog (progress.host.upstream serviceId) (targetsOf domains))
      (fun _ _ => True) := by
  unfold renderDomains
  simp only
  split
  case isTrue none_ =>
      have empty : targetsOf domains = [] := List.isEmpty_iff.mp none_
      exact leads_pure.mpr ⟨rfl, absurd empty, by simp [renderLog, empty]⟩
  case isFalse some_ =>
      have targets : targetsOf domains ≠ [] := fun empty => some_ (List.isEmpty_iff.mpr empty)
      refine leads_bind.mpr ((guard_leads progress).mono (fun _ guarded kept => ?_) fun _ _ _ => trivial)
      refine leads_bind.mpr (leads_get.mpr ?_)
      let ip := progress.host.upstream serviceId
      let during (done : List String) (after : Progress) : Prop := after.host.services = progress.host.services ∧
        after.log = guarded.log ++ done.flatMap fun domain => [.guard false, .ran (.regenerate domain ip) .done]
      have rendered :
          Leads (each (targetsOf domains) fun domain => do guard w; regenerate w serviceId domain) guarded
          (fun _ after => during (targetsOf domains) after) (fun _ _ => True) := by
        refine leads_each during [] ⟨congrArg Host.services kept.1,
          by simp⟩ fun earlier domain later state _ held => ?_
        refine leads_bind.mpr ((guard_leads state).mono (fun _ middle passed => ?_) fun _ _ _ => trivial)
        refine leads_bind.mpr
          (leads_get.mpr ((perform_leads _ _ _ middle).mono (fun _ after done => ?_) fun _ _ _ => trivial))
        have upstream : middle.host.upstream serviceId = ip := by
          show (middle.host.services serviceId).bind _ = (progress.host.services serviceId).bind _
          rw [passed.1, held.1]
        obtain ⟨_, rfl⟩ := done
        refine ⟨(congrArg Host.services passed.1).trans held.1, ?_⟩
        show middle.log ++ _ = _
        rw [upstream, passed.2, held.2]
        simp
      refine leads_bind.mpr ((phase_returns rendered).mono (fun _ first held => ?_) fun _ _ _ => trivial)
      refine leads_bind.mpr ((phase_returns ((guarded_returns .adapt w.adapt id first).mono (fun _ _ done => done)
        fun _ _ _ => trivial)).mono (fun _ second adapted => ?_) fun _ _ _ => trivial)
      refine (phase_returns ((guarded_returns .reload w.reload id second).mono
        (fun _ _ done => done) fun _ _ _ => trivial)).mono
        (fun _ third reloaded => ?_) fun _ _ _ => trivial
      obtain ⟨valid, rfl⟩ := adapted
      obtain ⟨_, rfl⟩ := reloaded
      refine ⟨held.1, fun _ => valid, ?_⟩
      show (first.log ++ _) ++ _ = _
      rw [held.2, kept.2, renderLog, if_neg targets]
      simp [ip]

/-- The calls of a move that succeeds. -/
def moveLog (ip : Option String) (domains : List String) : List Event :=
  [.guard false, .ran (.setUpstream ip) .done] ++ renderLog ip (targetsOf domains)

theorem revertUpstream_leads {oldIp : Option String} (failure : Failure) (progress : Progress) :
    Leads (revertUpstream w serviceId oldIp failure) progress
      (fun _ after => failure.isLeaseLost = false → Settled after.log →
        Settled progress.log ∧ after.host = progress.host.setService serviceId oldIp)
      (fun inner _ => inner.isLeaseLost = true) := by
  unfold revertUpstream
  split
  case isTrue lease =>
      refine leads_pure.mpr fun other => ?_
      rw [lease] at other
      contradiction
  · refine leads_tryCatch.mpr
      (leads_bind.mpr ((guard_leads progress).mono (fun _ guarded kept => ?_) fun inner after lost => ?_))
    · refine (perform_leads .revert w.revert _ guarded).mono (fun _ after done _ settled => ?_)
        fun inner after failed => ?_
      · rw [done.2] at settled ⊢
        have before := settled.earlier
        rw [kept.2] at before
        exact ⟨before.earlier, by rw [kept.1]⟩
      · split
        case isTrue lease => exact leads_throw.mpr lease
        · refine leads_pure.mpr fun _ settled => ?_
          rw [failed.2.1] at settled
          exact absurd settled (not_settled rfl failed.1)
    · rw [lost.1]
      exact leads_throw.mpr rfl

/-- A call that has an address to move to. -/
def Moves (host : Host) (serviceId : String) (ip : Option String) : Prop :=
  ∃ service, host.services serviceId = some service ∧ ¬ (ip = none ∨ ip = some "" ∨ service.targetIp = ip)

theorem setService_twice {service : Service} (found : host.services serviceId = some service) (ip : Option String) :
    ((host.setService serviceId ip).setService serviceId service.targetIp).services = host.services := by
  funext other
  by_cases same : other = serviceId
  · subst same
    exact (if_pos rfl).trans found.symm
  · exact (if_neg same).trans (if_neg same)

theorem moves_leads (moves : Moves host serviceId ip) :
    Leads (applyServiceUpstream w serviceId ip) ⟨host, []⟩
      (fun applied after => applied.changed = true ∧ after.host.upstream serviceId = ip ∧
        after.log = moveLog ip (domainsForService host serviceId) ∧
          (targetsOf (domainsForService host serviceId) ≠ [] → w.adapt = .done))
      (fun failure after => failure.isLeaseLost = false → Settled after.log → after.host.services = host.services ∧
        after.host.files = restoredFiles w host (targetsOf (domainsForService host serviceId))) := by
  obtain ⟨service, found, moving⟩ := moves
  unfold applyServiceUpstream
  refine leads_bind.mpr (leads_get.mpr ?_)
  simp only [found, if_neg moving]
  refine leads_bind.mpr ((guard_leads _).mono (fun _ guarded kept => ?_) fun failure _ lost other => ?_)
  · refine leads_bind.mpr ((perform_leads _ .done _ guarded).mono (fun _ moved done => ?_)
      fun _ _ failed => absurd rfl failed.1)
    have host_moved : moved.host = host.setService serviceId ip := by rw [done.2, kept.1]
    have upstream : moved.host.upstream serviceId = ip := by
      rw [host_moved]
      exact congrArg (Option.bind · Service.targetIp) (if_pos rfl)
    refine leads_bind.mpr
      (leads_tryCatch.mpr (((renderDomains_leads _ moved).and (renderDomains_returns _ moved)).mono
      (fun _ after both => leads_pure.mpr ?_) fun failure after both => ?_))
    · obtain ⟨_, services, valid, log⟩ := both
      refine ⟨rfl, ?_, ?_, valid⟩
      · exact (congrArg (fun services => (services serviceId).bind Service.targetIp) services).trans upstream
      · rw [log, upstream, done.2, kept.2]
        rfl
    · refine leads_bind.mpr ((revertUpstream_leads failure after).mono (fun _ reverted row => ?_)
        fun inner _ lease other => ?_)
      · refine leads_throw.mpr fun other settled => ?_
        obtain ⟨before, same⟩ := row other settled
        obtain ⟨services, files⟩ := both.1 other
        rw [same]
        refine ⟨?_, (files before).trans (by rw [host_moved]; rfl)⟩
        rw [← setService_twice found ip]
        exact congrArg (fun services other => if other = serviceId then some ⟨service.targetIp⟩ else services other)
          (services.trans (congrArg Host.services host_moved))
      · rw [lease] at other
        contradiction
  · rw [lost.1] at other
    contradiction

/-- A move succeeds in both stores, or leaves both as they were, or stops where the
lease was lost. -/
def Atomic (w : World) (host : Host) (serviceId : String) (ip : Option String) : Prop :=
  Leads (applyServiceUpstream w serviceId ip) ⟨host, []⟩
    (fun applied after => Free after.log ∧ (if applied.changed then
      after.host.upstream serviceId = ip ∧ after.log = moveLog ip (domainsForService host serviceId)
        else after.host = host))
    (fun failure after => (Free after.log ∨ (Cut after.log ∧ failure = .lease w.lost)) ∧
      (failure.isLeaseLost = false → Settled after.log →
        after.host.services = host.services ∧ after.host.files = host.files))

/-- Every site file of the service that is there can be read. -/
def Readable (readable : String → Bool) (host : Host) (serviceId : String) : Prop :=
  ∀ domain ∈ domainsForService host serviceId, (host.files domain).isSome = true → readable domain = true

theorem restoredFiles_readable (readable : Readable w.readable host serviceId) :
    restoredFiles w host (targetsOf (domainsForService host serviceId)) = host.files := by
  funext domain
  unfold restoredFiles
  split
  case isTrue unread =>
      obtain ⟨target, unread⟩ := unread
      have member : domain ∈ domainsForService host serviceId :=
        (List.mem_filter.mp (List.mem_eraseDups.mp target)).1
      cases file : host.files domain with
      | none => rfl
      | some text =>
        have read := readable domain member (by rw [file]; rfl)
        rw [unread] at read
        contradiction
  · rfl

/-- A call without an address to move to changes nothing. -/
theorem idle_leads (idle : ¬ Moves host serviceId ip) :
    Leads (applyServiceUpstream w serviceId ip) ⟨host, []⟩ (fun applied after => applied.changed =
      false ∧ after.host = host)
      (fun _ after => after.host = host) := by
  unfold applyServiceUpstream
  refine leads_bind.mpr (leads_get.mpr ?_)
  cases found : host.services serviceId with
  | none =>
    exact leads_throw.mpr rfl
  | some service =>
    have still : ip = none ∨ ip = some "" ∨ service.targetIp = ip :=
      Decidable.byContradiction fun moving => idle ⟨service, found, moving⟩
    simp only [if_pos still]
    exact leads_pure.mpr ⟨rfl, rfl⟩

theorem atomic_of_readable (readable : Moves host serviceId ip → Readable w.readable host serviceId) :
    Atomic w host serviceId ip := by
  have fenced :
      Leads (applyServiceUpstream w serviceId ip) ⟨host, []⟩ (fun _ after => Unfenced after) (FencedOff w) :=
    applyServiceUpstream_fenced ip _ List.not_mem_nil
  by_cases moves : Moves host serviceId ip
  · refine (fenced.and (moves_leads moves)).mono (fun applied after both => ⟨both.1, ?_⟩)
      fun failure after both => ⟨both.1, fun other settled => ?_⟩
    · rw [if_pos both.2.1]
      exact ⟨both.2.2.1, both.2.2.2.1⟩
    · obtain ⟨services, files⟩ := both.2 other settled
      exact ⟨services, files.trans (restoredFiles_readable (readable moves))⟩
  · refine (fenced.and (idle_leads moves)).mono (fun applied after both => ⟨both.1, ?_⟩)
      fun failure after both => ⟨both.1, fun _ _ => ?_⟩
    · rw [both.2.1]
      exact both.2.2
    · exact ⟨congrArg Host.services both.2, congrArg Host.files both.2⟩

/-- Nothing fails but the validation. -/
def refusing : Pattern where
  fence := fun _ => false
  lost := "LEASE_LOST"
  regenerate := fun _ => .done
  adapt := .fails false (.other "adapt failed")
  reload := .done
  writeConfig := fun _ => .done
  removeConfig := fun _ => .done
  restoreReload := .done
  revert := .done

def Restoring (progress : Progress) : Prop := Settled progress.log

def Refused (failure : Failure) (progress : Progress) : Prop := Settled progress.log ∧ failure.isLeaseLost = false

theorem Settled.snoc {log : List Event} (settled : Settled log)
    (next : ∀ op call, event = .ran op call → op.restores = true → call = .done) : Settled (log ++ [event]) := by
  intro op call member restores
  rcases List.mem_append.mp member with earlier | last
  · exact settled op call earlier restores
  · exact next op call (List.mem_singleton.mp last).symm restores

section Refusing

variable (refuses : w.toPattern = refusing)

include refuses

theorem guard_refused : Keeps Restoring Refused (guard w) := by
  intro progress settled
  have never : w.fence (progress.log.countP Event.isGuard) = false := by rw [refuses]; rfl
  unfold Leads guard
  rw [never]
  exact settled.snoc fun _ _ same => by contradiction

omit refuses in
theorem done_refused {op : Op} {call : Call} {effect : Host → Host} (done : call = .done) :
    Keeps Restoring Refused (perform op call effect) := by
  intro progress settled
  rw [done]
  exact settled.snoc fun _ _ same _ => by cases same; rfl

theorem adapt_refused : Keeps Restoring Refused (perform .adapt w.adapt id) := by
  intro progress settled
  have fails : w.adapt = .fails false (.other "adapt failed") := by rw [refuses]; rfl
  rw [fails]
  exact ⟨settled.snoc fun _ _ same restores => by cases same; contradiction, rfl⟩

theorem restoreFile_refused (backup : Backup) : Keeps Restoring Refused (restoreFile w backup) := by
  unfold restoreFile
  split
  · exact done_refused (by rw [refuses]; rfl)
  · exact done_refused (by rw [refuses]; rfl)

theorem restore_refused (backups : List Backup) : Keeps Restoring Refused (restore w backups) := by
  unfold restore
  refine .bind (.each fun backup _ => .bind (guard_refused refuses) fun _ => ?_) fun _ =>
    .bind (guard_refused refuses) fun _ => ?_
  · exact .tryCatch (restoreFile_refused refuses backup) fun _ _ refused => leads_pure.mpr refused.1
  · exact .tryCatch (done_refused (by rw [refuses]; rfl)) fun _ _ refused => leads_pure.mpr refused.1

theorem failWith_refused {backups : List Backup} {message : Failure → String} (failure : Failure)
    (progress : Progress)
    (refused : Refused failure progress) :
    Leads (failWith w backups failure (message failure)) progress (fun _ after => Restoring after) Refused := by
  unfold failWith
  rw [if_neg (by rw [refused.2]; decide)]
  refine leads_bind.mpr (leads_tryCatch.mpr ((restore_refused refuses backups progress refused.1).mono
    (fun _ after settled => leads_throw.mpr ⟨settled, rfl⟩) fun inner after thrown => ?_))
  rw [if_neg (by rw [thrown.2]; decide)]
  exact leads_pure.mpr (leads_throw.mpr ⟨thrown.1, rfl⟩)

theorem renderDomains_refused (domains : List String) :
    Keeps Restoring Refused (renderDomains w serviceId domains) := by
  unfold renderDomains
  simp only
  split
  · exact .pure
  · refine .bind (guard_refused refuses) fun _ => .bind .get fun _ =>
      .bind (.tryCatch ?_ (failWith_refused refuses)) fun _ =>
        .bind (.tryCatch ?_ (failWith_refused refuses)) fun _ => .tryCatch ?_ (failWith_refused refuses)
    · exact .each fun _ _ => .bind (guard_refused refuses) fun _ => .bind .get fun _ =>
        done_refused (by rw [refuses]; rfl)
    · exact .bind (guard_refused refuses) fun _ => adapt_refused refuses
    · exact .bind (guard_refused refuses) fun _ => done_refused (by rw [refuses]; rfl)

theorem applyServiceUpstream_refused (ip : Option String) :
    Keeps Restoring Refused (applyServiceUpstream w serviceId ip) := by
  unfold applyServiceUpstream
  refine .bind .get fun progress => ?_
  split
  · exact fun _ settled => leads_throw.mpr ⟨settled, rfl⟩
  case h_2 service _ =>
      split
      · exact .pure
      · refine .bind (guard_refused refuses) fun _ => .bind (done_refused rfl) fun _ =>
          .bind (.tryCatch (renderDomains_refused refuses _) fun failure after refused => ?_) fun _ => .pure
        unfold revertUpstream
        rw [if_neg (by rw [refused.2]; decide)]
        have reverts :
            Keeps Restoring Refused (perform .revert w.revert (·.setService serviceId service.targetIp)) :=
          done_refused (by rw [refuses]; rfl)
        refine leads_bind.mpr
          (leads_tryCatch.mpr ((Keeps.bind (guard_refused refuses) (fun _ => reverts) after refused.1).mono
          (fun _ last settled => leads_throw.mpr ⟨settled, refused.2⟩) fun inner last thrown => ?_))
        rw [if_neg (by rw [thrown.2]; decide)]
        exact leads_pure.mpr (leads_throw.mpr ⟨thrown.1, refused.2⟩)

end Refusing

/-- A refused configuration shows every file that cannot be read. -/
theorem readable_of_atomic (refuses : w.toPattern = refusing) (moves : Moves host serviceId ip)
    (atomic : Atomic w host serviceId ip) : Readable w.readable host serviceId := by
  intro domain member present
  have target : domain ∈ targetsOf (domainsForService host serviceId) :=
    List.mem_eraseDups.mpr (List.mem_filter.mpr ⟨member, (List.mem_filter.mp member).2⟩)
  have fails : w.adapt ≠ .done := by
    rw [refuses]
    exact fun same => by contradiction
  have settled : Leads (applyServiceUpstream w serviceId ip) ⟨host, []⟩ (fun _ after => Restoring after) Refused :=
    applyServiceUpstream_refused refuses ip _ fun _ _ member => nomatch member
  have all := (atomic.and (moves_leads moves)).and settled
  unfold Leads at all
  split at all
  · exact absurd (all.1.2.2.2.2 (List.ne_nil_of_mem target)) fails
  · obtain ⟨⟨kept, left⟩, restores, other⟩ := all
    have files := congrFun ((kept.2 other restores).2.symm.trans (left other restores).2) domain
    cases readable : w.readable domain with
    | true => rfl
    | false =>
      rw [restoredFiles, if_pos ⟨target, readable⟩] at files
      rw [files] at present
      contradiction

/-- A move is atomic under every pattern of failures exactly when each site file of the
service that is there can be read. -/
theorem applyServiceUpstream_atomic_iff (render : Option String → String → Option String) (readable : String → Bool)
    (host : Host) (serviceId : String) (ip : Option String) :
    (∀ pattern : Pattern, Atomic { pattern with render, readable } host serviceId ip) ↔
      (Moves host serviceId ip → Readable readable host serviceId) := by
  constructor
  · intro atomic moves
    exact readable_of_atomic rfl moves (atomic refusing)
  · intro files pattern
    exact atomic_of_readable files

/-- One service with one site file. -/
def oneSite : Host where
  services := fun id => if id = "service" then some ⟨some "10.0.0.1"⟩ else none
  routes := [⟨"service", "git.example"⟩]
  files := fun domain => if domain = "git.example" then some "reverse_proxy 10.0.0.1" else none

/-- The rollback deletes a site file that the snapshot could not read. -/
theorem applyServiceUpstream_deletes_unread :
    ¬ Atomic { refusing with
      render := fun _ _ => some "reverse_proxy 10.0.0.2",
      readable := fun _ => false } oneSite "service"
      (some "10.0.0.2") := by
  intro atomic
  have moves : Moves oneSite "service" (some "10.0.0.2") := ⟨⟨some "10.0.0.1"⟩, rfl, by decide⟩
  have read := readable_of_atomic rfl moves atomic "git.example" (by decide) rfl
  contradiction

end ProxyPilot.Routes
