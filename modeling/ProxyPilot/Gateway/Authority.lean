import Mathlib.Data.List.Perm.Subperm
import ProxyPilot.Gateway.Soundness

namespace ProxyPilot.Gateway

open Data Effects Transition

variable {strict : Prop} {w : World} {a b c : Attempt}

/-- Only the clock was read and the ledger file written. -/
def Steady (a b : Attempt) : Prop :=
  ∃ reads writes ledger, b =
    { a with reads := reads, writes := writes, gateway := { a.gateway with ledger := ledger } } ∧
    ledger.approvals = a.gateway.ledger.approvals ∧ ∃ more, ledger.file = a.gateway.ledger.file ++ more

theorem Steady.refl (a : Attempt) : Steady a a := ⟨_, _, _, rfl, rfl, [], (List.append_nil _).symm⟩

theorem Steady.trans (first : Steady a b) (second : Steady b c) : Steady a c := by
  obtain ⟨_, _, _, rfl, same, more, grown⟩ := first
  obtain ⟨reads, writes, ledger, rfl, same', more', grown'⟩ := second
  exact ⟨reads, writes, ledger, rfl, same'.trans same, more ++ more',
    grown'.trans (by rw [grown, List.append_assoc])⟩

theorem Steady.sound (steady : Steady a b) (sound : Sound strict w a) : Sound strict w b := by
  obtain ⟨_, _, ledger, rfl, same, more, grown⟩ := steady
  obtain ⟨first, written⟩ := sound.founded
  exact { sound with
    consumed := fun id use member => by
      rw [same]
      exact sound.consumed id use member
    founded := ⟨first ++ more, by rw [grown, written, List.cons_append]⟩ }

theorem Steady.history (steady : Steady a b) : b.history = a.history := by
  obtain ⟨_, _, _, rfl, _⟩ := steady
  rfl

theorem Steady.phase (steady : Steady a b) : b.gateway.phase = a.gateway.phase := by
  obtain ⟨_, _, _, rfl, _⟩ := steady
  rfl

theorem Steady.pending (steady : Steady a b) : b.gateway.pending = a.gateway.pending := by
  obtain ⟨_, _, _, rfl, _⟩ := steady
  rfl

theorem Steady.tickets (steady : Steady a b) : b.gateway.tickets = a.gateway.tickets := by
  obtain ⟨_, _, _, rfl, _⟩ := steady
  rfl

theorem Steady.forwards (steady : Steady a b) : b.forwards = a.forwards := by
  obtain ⟨_, _, _, rfl, _⟩ := steady
  rfl

theorem Steady.reviews (steady : Steady a b) : b.reviews = a.reviews := by
  obtain ⟨_, _, _, rfl, _⟩ := steady
  rfl

theorem Steady.admissions (steady : Steady a b) : b.admissions = a.admissions := by
  obtain ⟨_, _, _, rfl, _⟩ := steady
  rfl

theorem Steady.requests (steady : Steady a b) : b.gateway.requests = a.gateway.requests := by
  obtain ⟨_, _, _, rfl, _⟩ := steady
  rfl

/-- It returns as it began, but for the clock and the ledger, and what it throws is sound. -/
def Reads (strict : Prop) (w : World) {α : Type} (program : Act α) (returns : Attempt → α → Prop) : Prop :=
  ∀ a, Sound strict w a →
    Leads program a (fun result b => Steady a b ∧ returns a result) (fun _ b => Sound strict w b)

theorem refuse_reads (fails : Bool) (code : Code) : Reads strict w (refuse fails code) fun _ _ =>
    fails = false := by
  intro a sound
  cases fails with
  | true => exact sound
  | false => exact ⟨.refl a, rfl⟩

theorem lift_reads {α : Type} (value : Except Code α) : Reads strict w (lift value) fun _ result =>
    value = .ok result := by
  intro a sound
  cases value with
  | ok value => exact ⟨.refl a, rfl⟩
  | error code => exact sound

theorem external_reads {α : Type} (value : Except Failure α) :
    Reads strict w (external value) fun _ result => value = .ok result := by
  intro a sound
  cases value with
  | ok value => exact ⟨.refl a, rfl⟩
  | error failure => exact sound

theorem now_reads : Reads strict w (now w) fun a time => time = w.clock a.reads :=
  fun _ _ => ⟨⟨_, _, _, rfl, rfl, [], (List.append_nil _).symm⟩, rfl⟩

theorem append_reads (row : Row) : Reads strict w (append w row) fun _ _ => True := by
  intro a sound
  unfold Leads append
  cases w.writes a.writes with
  | whole => exact ⟨⟨_, _, _, rfl, rfl, _, rfl⟩, trivial⟩
  | short => exact sound.appended _ _ _
  | fails onDisk => exact sound.appended _ _ _

theorem audit_reads (row : Row) : Reads strict w (audit w row) fun _ _ => True := by
  intro a sound
  refine leads_tryCatch.mpr ((append_reads row a sound).mono (fun _ _ kept => kept) fun failure b thrown => ?_)
  exact thrown.revoked .ledgerWriteFailed

theorem Reads.bind {α β : Type} {program : Act α} {next : α → Act β} {returns : Attempt → α → Prop}
    {throws : Failure → Attempt → Prop} {done : β → Attempt → Prop}
    (reads : Reads strict w program returns) {a : Attempt}
    (sound : Sound strict w a) (thrown : ∀ failure b, Sound strict w b → throws failure b)
    (later : ∀ result b, Steady a b → Sound strict w b → returns a result → Leads (next result) b done throws) :
    Leads (program >>= next) a done throws :=
  leads_bind.mpr ((reads a sound).mono (fun result b ⟨steady, returned⟩ =>
    later result b steady (steady.sound sound) returned) thrown)

theorem checkFresh_reads : Reads strict w (checkFresh w) fun _ _ => True := by
  intro a sound
  refine now_reads.bind sound (fun _ _ thrown => thrown) fun time b steady sound _ => ?_
  exact (refuse_reads _ _ b sound).mono (fun _ c ⟨steady', _⟩ => ⟨steady.trans steady', trivial⟩)
    fun _ _ thrown => thrown

theorem checkTime_reads : Reads strict w (checkTime w) fun _ _ => True := by
  intro a sound
  refine now_reads.bind sound (fun _ _ thrown => thrown) fun time b steady sound _ =>
    leads_bind.mpr (leads_get.mpr ?_)
  split
  · exact sound.revoked .timeBudgetExhausted
  · exact ⟨steady, trivial⟩

theorem check_reads (allowPaused : Bool) : Reads strict w (check w allowPaused) fun a _ =>
    a.gateway.phase ≠ .revoked ∧ (allowPaused = false → a.gateway.phase = .running) := by
  intro a sound
  refine leads_bind.mpr (leads_get.mpr ?_)
  refine (refuse_reads _ _).bind sound (fun _ _ thrown => thrown) fun _ b steady sound unrevoked => ?_
  refine checkFresh_reads.bind sound (fun _ _ thrown => thrown) fun _ c steady' sound _ => ?_
  refine checkTime_reads.bind sound (fun _ _ thrown => thrown) fun _ d steady'' sound _ =>
    leads_bind.mpr (leads_get.mpr ?_)
  have whole : Steady a d := (steady.trans steady').trans steady''
  refine (refuse_reads _ _ d sound).mono (fun _ e ⟨last, passed⟩ => ⟨whole.trans last, ?_, ?_⟩)
    fun _ _ thrown => thrown
  · simpa using unrevoked
  · intro strict
    simpa [strict, whole.phase] using passed

theorem refuseExpired_reads (purpose : Option Purpose) :
    Reads strict w (refuseExpired w purpose) fun _ _ => True := by
  intro a sound
  cases purpose with
  | none => exact ⟨.refl a, trivial⟩
  | some purpose =>
    refine now_reads.bind sound (fun _ _ thrown => thrown) fun time b steady sound _ => ?_
    exact (refuse_reads _ _ b sound).mono (fun _ c ⟨steady', _⟩ => ⟨steady.trans steady', trivial⟩)
      fun _ _ thrown => thrown

theorem destination_reads (parts : Parts) (role : String) :
    Reads strict w (destination w parts role) fun _ _ => True := by
  intro a sound
  refine checkFresh_reads.bind sound (fun _ _ thrown => thrown) fun _ b steady sound _ =>
    leads_bind.mpr (leads_get.mpr ?_)
  exact (lift_reads _ b sound).mono (fun _ c ⟨steady', _⟩ => ⟨steady.trans steady', trivial⟩)
    fun _ _ thrown => thrown

/-- Frozen or revoked: nothing was minted, and nothing runs. -/
structure Stopped (strict : Prop) (w : World) (a b : Attempt) : Prop where
  sound : Sound strict w b
  stopped : b.gateway.phase ≠ .running
  reviews : b.reviews = a.reviews
  unminted : ∀ request, Unminted a.history request → Unminted b.history request

theorem freeze_leads (code : Code) (origin requestRef : Option String) (sound : Sound strict w a) :
    Leads (freeze w code origin requestRef) a (fun _ b => Stopped strict w a b) (fun _ b => Sound strict w b) := by
  refine leads_bind.mpr (leads_get.mpr ?_)
  split
  case isTrue revoked =>
      refine ⟨sound, ?_, rfl, fun _ unminted => unminted⟩
      rw [revoked]
      exact Phase.noConfusion
  split
  case isTrue already =>
      have paused : a.gateway.phase = .paused := by
        simp only [AttemptGateway.userPaused, Bool.and_eq_true, decide_eq_true_eq] at already
        exact already.1.1
      refine (audit_reads _ a sound).mono (fun _ b ⟨steady, _⟩ => ?_) fun _ _ thrown => thrown
      refine ⟨steady.sound sound, ?_, steady.reviews, fun _ unminted => steady.history ▸ unminted⟩
      rw [steady.phase, paused]
      exact Phase.noConfusion
  case isFalse =>
      refine leads_bind.mpr ?_
      refine (audit_reads _ _ (sound.frozen code)).mono (fun _ b ⟨steady, _⟩ => ?_) fun _ _ thrown => thrown
      refine ⟨steady.sound (sound.frozen code), ?_, steady.reviews, fun request unminted ticket member => ?_⟩
      · rw [steady.phase]
        exact Phase.noConfusion
      · rw [steady.history] at member
        exact unminted ticket (mem_of_note member (by simp))

theorem freeze_keeps (code : Code) (origin requestRef : Option String) :
    Keeps (Sound strict w) (fun _ => Sound strict w) (freeze w code origin requestRef) :=
  fun _ sound => (freeze_leads code origin requestRef sound).mono (fun _ _ stopped => stopped.sound)
    fun _ _ thrown => thrown

theorem freezing_keeps {α : Type} {program : Act α} (requestRef : Option String)
    (keeps : Keeps (Sound strict w) (fun _ => Sound strict w) program) :
    Keeps (Sound strict w) (fun _ => Sound strict w) (freezing w requestRef program) := by
  refine keeps.tryCatch fun failure b sound => ?_
  cases failure with
  | raised => exact sound
  | denied code =>
    exact leads_bind.mpr ((freeze_leads code none requestRef sound).mono
      (fun _ _ stopped => stopped.sound) fun _ _ thrown => thrown)

theorem refuseFrozen_reads (fails : Bool) (code : Code) :
    Reads strict w (refuseFrozen w fails code) fun _ _ => fails = false := by
  intro a sound
  cases fails with
  | true =>
    exact leads_bind.mpr ((freeze_leads code none none sound).mono
      (fun _ _ stopped => stopped.sound) fun _ _ thrown => thrown)
  | false => exact ⟨.refl a, rfl⟩

theorem Reads.keeps {α : Type} {program : Act α} {returns : Attempt → α → Prop}
    (reads : Reads strict w program returns) :
    Keeps (Sound strict w) (fun _ => Sound strict w) program :=
  fun a sound => (reads a sound).mono (fun _ _ ⟨steady, _⟩ => steady.sound sound) fun _ _ thrown => thrown

variable {record : Record} {label : Label}

theorem mint_leads (sound : Sound strict w a) (running : a.gateway.phase = .running)
    (reviewed : Reviewed a.history record)
    (unminted : Unminted a.history record.request) (undenied : .halted (.denial record.request) ∉ a.history)
    (settled : ∀ other ∈ a.gateway.pending.rows, other.approvalId = none → other.effect ≠ .read →
    record.request ≠ other.request)
    (approved : record.effect ≠ .read → ∀ token time, time < record.expiresAt →
    Approved w a.history ⟨token, record⟩ time) :
    Leads (mint w record) a (fun _ b => Sound strict w b) (fun _ b => Sound strict w b) := by
  refine now_reads.bind sound (fun _ _ thrown => thrown) fun time b steady sound _ =>
    leads_bind.mpr (leads_get.mpr (leads_bind.mpr ?_))
  have minted : Sound strict w (b.mint (Ticket.of w b record time)) := by
    refine sound.mint ?_ ?_ ?_ ?_ (fun change limit early => ?_) (steady.phase.trans running)
    · obtain ⟨original, member, same⟩ := reviewed
      exact ⟨original, steady.history ▸ member, same⟩
    · exact steady.history ▸ unminted
    · exact steady.history ▸ undenied
    · rw [steady.pending]
      exact settled
    · rw [steady.history]
      exact approved change (w.token b.mints) limit (Int.lt_of_lt_of_le early (Int.min_le_left _ _))
  exact minted

theorem status_keeps : Keeps (Sound strict w) (fun _ => Sound strict w) (status w) := by
  intro a sound
  refine now_reads.bind sound (fun _ _ thrown => thrown) fun time b steady sound _ =>
    leads_bind.mpr (leads_get.mpr ?_)
  split
  · exact leads_bind.mpr (freeze_keeps _ _ _ _ (sound.expire time))
  · exact sound

theorem checkConnect_keeps (authority : Except Code Parts) :
    Keeps (Sound strict w) (fun _ => Sound strict w) (checkConnect w authority) :=
  freezing_keeps none <| .bind (lift_reads _).keeps fun _ => .bind (check_reads _).keeps fun _ =>
    .bind (lift_reads _).keeps fun _ =>
    .bind .get fun _ => .bind (refuse_reads _ _).keeps fun _ => .pure

theorem decision_leads (sound : Sound strict w a) (running : a.gateway.phase = .running)
    (numbered : record.request = a.reviews) (new : record.approvalId = none) :
    Leads (decision w record) (a.review record) (fun _ b => Sound strict w b) (fun _ b => Sound strict w b) := by
  have reviewed := sound.review numbered new
  unfold decision
  split
  case isTrue reads =>
      have opened := reviewed.pending record (Table.mem_put.mpr (.inl rfl))
      refine leads_bind.mpr (mint_leads reviewed running opened.reviewed ?_ opened.undenied
        (fun other member _ change same => ?_)
        fun change => absurd reads change)
      · intro ticket minted same
        exact Nat.lt_irrefl _ (numbered ▸ same ▸ sound.minted_lt (mem_of_note minted (by simp)))
      · have one := reviewed.distinct record (Table.mem_put.mpr (.inl rfl)) other member same
        exact change (one ▸ reads)
  case isFalse =>
      exact leads_bind.mpr ((freeze_leads _ _ _ reviewed).mono (fun _ _ stopped => stopped.sound)
        fun _ _ thrown => thrown)

theorem reviewRequest_keeps (requestRef : String) (metadata : Except Failure Metadata) :
    Keeps (Sound strict w) (fun _ => Sound strict w) (reviewRequest w requestRef metadata) := by
  refine .bind (refuse_reads _ _).keeps fun _ => .bind (check_reads _).keeps fun _ => .bind .get fun _ =>
    .bind (refuse_reads _ _).keeps fun _ => .bind (refuse_reads _ _).keeps fun _ => freezing_keeps _ ?_
  refine .bind (external_reads _).keeps fun value => .bind (lift_reads _).keeps fun parts =>
    .bind (destination_reads _ _).keeps fun dest =>
    .bind .get fun _ => .bind (refuseExpired_reads _).keeps fun _ a sound => ?_
  refine (check_reads _).bind sound (fun _ _ thrown => thrown) fun _ b steady sound passed => ?_
  refine leads_bind.mpr (leads_get.mpr (leads_bind.mpr ?_))
  exact decision_leads sound (steady.phase.trans (passed.2 rfl)) rfl rfl

theorem consume_leads (id bindingSha256 : String) (use : Use) (sound : Sound strict w a) :
    Leads (consume w id bindingSha256 use) a
    (fun _ b => ∃ c, Steady a c ∧ b = (c.write (·.approve id)).note (.consumed id use) ∧
      Sound strict w b) (fun _ b => Sound strict w b) := by
  refine leads_bind.mpr (leads_get.mpr ?_)
  refine (refuse_reads _ _).bind sound (fun _ _ thrown => thrown) fun _ b steady sound new => ?_
  refine (append_reads _).bind sound (fun _ _ thrown => thrown) fun _ c steady' sound _ => ?_
  have whole := steady.trans steady'
  refine ⟨c, whole, rfl, sound.consume use fun known => ?_⟩
  obtain ⟨_, _, ledger, rfl, same, _⟩ := whole
  rw [same] at known
  simp [known] at new

theorem consumeGrant_leads (grant : EffectGrant) (record : Record) (sound : Sound strict w a) :
    Leads (consumeGrant w grant record) a
    (fun _ b => ∃ c, Steady a c ∧
      b = (c.write (·.approve grant.id)).note (.consumed grant.id (.effect record.request grant)) ∧
      Sound strict w b)
    (fun _ b => Sound strict w b) := by
  refine leads_tryCatch.mpr ((consume_leads _ _ _ sound).mono (fun _ _ kept => kept) fun failure b sound => ?_)
  split
  · exact sound
  · exact sound.revoked .ledgerWriteFailed
  · exact sound.closed .ledgerWriteFailed

theorem consumeDestination_leads (grant : DestinationGrant) (sound : Sound strict w a) :
    Leads (consumeDestination w grant) a
    (fun _ b => ∃ c, Steady a c ∧
      b = (c.write (·.approve grant.id)).note (.consumed grant.id (.destination grant)) ∧ Sound strict w b)
    (fun _ b => Sound strict w b) := by
  refine leads_tryCatch.mpr ((consume_leads _ _ _ sound).mono (fun _ _ kept => kept) fun failure b sound => ?_)
  split
  · exact sound
  · exact sound.revoked .ledgerWriteFailed
  · exact sound.revoked .ledgerWriteFailed

theorem pendingChange_reads (requestRef : String) : Reads strict w (pendingChange w requestRef) fun a record =>
    record ∈ a.gateway.pending.rows ∧ record.approvalId = none ∧ record.effect ≠ .read := by
  intro a sound
  refine leads_bind.mpr (leads_get.mpr ?_)
  split
  · exact sound
  case h_2 record found =>
      refine (refuse_reads _ _).bind sound (fun _ _ thrown => thrown) fun _ b steady sound passed => ?_
      refine now_reads.bind sound (fun _ _ thrown => thrown) fun time c steady' sound _ => ?_
      refine (refuse_reads _ _).bind sound (fun _ _ thrown => thrown) fun _ d steady'' sound _ => ?_
      refine ⟨(steady.trans steady').trans steady'', Table.get_mem found, ?_⟩
      simpa using passed

/-- Every thread that has not sent is current, unless the attempt is over. -/
def Ready (strict : Prop) (a : Attempt) : Prop := strict → a.gateway.phase ≠ .revoked →
    ∀ f ∈ a.forwards.rows, f.stage = .resolving → Current a.history f

variable {grant : EffectGrant} {time : Int} {ticket : Ticket} {f : Forward}

theorem EffectGrant.fits_names (fits : grant.fits w record time = true) :
    grant.identity = w.policy.identity ∧ grant.requestRef = record.requestRef ∧
      grant.bindingSha256 = record.bindingSha256 := by
  simp only [EffectGrant.fits, Bool.and_eq_true, beq_iff_eq] at fits
  exact ⟨fits.1.1.1.1.2, fits.1.1.1.2, fits.1.1.2⟩

/-- What follows the consumption: the record approved, the gateway running, one ticket. -/
theorem approved_leads (sound : Sound strict w a) (unrevoked : a.gateway.phase ≠ .revoked)
    (ready : strict → ∀ f ∈ a.forwards.rows, f.stage = .resolving → Current a.history f)
    (member : record ∈ a.gateway.pending.rows)
    (unminted : Unminted a.history record.request)
    (named : grant.identity = w.policy.identity ∧ grant.requestRef = record.requestRef ∧
    grant.bindingSha256 = record.bindingSha256)
    (consumed : .consumed grant.id (.effect record.request grant) ∈ a.history) :
    Leads (update (·.approve (record.approved grant)) >>= fun _ => mint w (record.approved grant)) a
      (fun _ b => Sound strict w b)
      (fun _ b => Sound strict w b) := by
  have approved : Sound strict w (a.approve (record.approved grant)) :=
    (sound.approved member grant).resumed unrevoked ready
  obtain ⟨reviewed, undenied, _⟩ := sound.pending record member
  refine leads_bind.mpr
    (mint_leads approved rfl reviewed unminted undenied (fun other member' unapproved _ same => ?_)
    fun _ token time early => ?_)
  · rcases Table.mem_put.mp member' with rfl | ⟨stored, different⟩
    · contradiction
    · exact different (by rw [← sound.distinct record member other stored same]; rfl)
  · exact ⟨grant, rfl, consumed, named.1, named.2.1, named.2.2, Int.lt_of_lt_of_le early (Int.min_le_right _ _)⟩

theorem approveRequest_leads (requestRef : String) (grant : Except Failure EffectGrant)
    (sound : Sound strict w a) (ready : Ready strict a) :
    Leads (approveRequest w requestRef grant) a (fun _ b => Sound strict w b) (fun _ b => Sound strict w b) := by
  refine (check_reads _).bind sound (fun _ _ thrown => thrown) fun _ b first sound passed => ?_
  refine (pendingChange_reads _).bind sound (fun _ _ thrown => thrown)
    fun record c second sound ⟨member, unapproved, change⟩ => ?_
  refine (external_reads _).bind sound (fun _ _ thrown => thrown) fun grant d third sound _ => ?_
  refine now_reads.bind sound (fun _ _ thrown => thrown) fun time e fourth sound _ => ?_
  refine (refuse_reads _ _).bind sound (fun _ _ thrown => thrown) fun _ g fifth sound fits => ?_
  refine (refuse_reads _ _).bind sound (fun _ _ thrown => thrown) fun _ h sixth sound _ => ?_
  have later : Steady b h := (((second.trans third).trans fourth).trans fifth).trans sixth
  have stored : record ∈ h.gateway.pending.rows := later.pending ▸ member
  have unminted := (sound.pending record stored).unminted unapproved change
  have named := EffectGrant.fits_names  (by simpa using fits)
  refine leads_bind.mpr ((consumeGrant_leads grant record sound).mono
    (fun _ i ⟨c, steady, same, sound⟩ => ?_) fun _ _ thrown => thrown)
  have whole : Steady a c := (first.trans later).trans steady
  subst same
  refine approved_leads sound ?_ (fun strict f member resolving => ?_) ?_ (fun ticket minted => ?_)
    named (mem_note.mpr (.inr rfl))
  · exact fun revoked => passed.1 (whole.phase ▸ revoked)
  · refine Current.snoc ?_ rfl
    exact whole.history ▸ ready strict passed.1 f (whole.forwards ▸ member) resolving
  · exact steady.pending ▸ stored
  · exact unminted ticket (steady.history ▸ mem_of_note minted (by simp))

theorem grantDestination_leads (grant : Except Failure DestinationGrant) (item : Destination)
    (target : Target) (sound : Sound strict w a)
    (ready : Ready strict a) :
    Leads (grantDestination w grant item target) a (fun _ b => Sound strict w b) (fun _ b => Sound strict w b) := by
  refine (check_reads _).bind sound (fun _ _ thrown => thrown) fun _ b first sound passed => ?_
  refine (lift_reads _).bind sound (fun _ _ thrown => thrown) fun _ c second sound _ => ?_
  refine (lift_reads _).bind sound (fun _ _ thrown => thrown) fun _ d third sound _ => ?_
  refine (external_reads _).bind sound (fun _ _ thrown => thrown) fun grant e fourth sound _ => ?_
  refine now_reads.bind sound (fun _ _ thrown => thrown) fun time g fifth sound _ =>
    leads_bind.mpr (leads_get.mpr ?_)
  refine (refuse_reads _ _).bind sound (fun _ _ thrown => thrown) fun _ h sixth sound _ => ?_
  have checked : Steady a h := ((((first.trans second).trans third).trans fourth).trans fifth).trans sixth
  refine leads_bind.mpr ((consumeDestination_leads grant sound).mono
    (fun _ i ⟨c, steady, same, sound⟩ => ?_) fun _ _ thrown => thrown)
  subst same
  refine (audit_reads _).bind sound (fun _ _ thrown => thrown) fun _ j last sound _ => ?_
  have whole : Steady a c := checked.trans steady
  have listed : Sound strict w (j.write fun gateway =>
      { gateway with
        additions := gateway.additions.put ⟨item.origin, item.roles.headD "", item⟩
        extraTargets := gateway.extraTargets.put target
        purposes := gateway.purposes.put ⟨item.origin, item.roles.headD "", grant⟩ }) := { sound with
    purposes := fun purpose member => by
      rcases Table.mem_put.mp member with rfl | ⟨stored, _⟩
      · exact last.history ▸ mem_note.mpr (.inr rfl)
      · exact sound.purposes purpose stored }
  refine listed.resumed (fun revoked => passed.1 ?_) fun strict f member resolving => ?_
  · exact whole.phase ▸ last.phase ▸ revoked
  · show Current j.history f
    rw [last.history]
    refine Current.snoc ?_ rfl
    exact whole.history ▸ ready strict passed.1 f (whole.forwards ▸ last.forwards ▸ member) resolving

theorem pause_leads (halt : Halt) (sound : Sound strict w a)
    (unminted : ∀ request, halt = .denial request → Unminted a.history request ∧ request < a.reviews) :
    Leads (pause w halt) a (fun _ b => Sound strict w b) (fun _ b => Sound strict w b) := by
  refine (check_reads _).bind sound (fun _ _ thrown => thrown) fun _ b steady sound _ => ?_
  refine leads_bind.mpr ((freeze_leads _ _ _ sound).mono (fun _ c stopped => leads_bind.mpr ?_)
    fun _ _ thrown => thrown)
  refine status_keeps _ (stopped.sound.discard.ended stopped.stopped rfl ?_ fun request same =>
    ⟨?_, fun record member => by contradiction⟩)
  · cases halt with
    | pause | revocation => trivial
    | denial request => exact stopped.unminted request (steady.history ▸ (unminted request rfl).1)
  · injection same with same
    show request < c.reviews
    rw [stopped.reviews, steady.reviews]
    exact (unminted request same).2

theorem denyRequest_keeps (requestRef : String) :
    Keeps (Sound strict w) (fun _ => Sound strict w) (denyRequest w requestRef) := by
  refine .bind (check_reads _).keeps fun _ a sound => leads_bind.mpr (leads_get.mpr ?_)
  split
  · exact sound
  case h_2 record found =>
      refine (refuse_reads _ _).bind sound (fun _ _ thrown => thrown) fun _ b first sound passed => ?_
      refine (audit_reads _).bind sound (fun _ _ thrown => thrown) fun _ c second sound _ => ?_
      have steady := first.trans second
      have stored : record ∈ c.gateway.pending.rows := steady.pending ▸ Table.get_mem found
      have undecided : record.approvalId = none ∧ record.effect ≠ .read := by simpa using passed
      have opened := sound.pending record stored
      obtain ⟨reviewed, known, same⟩ := opened.reviewed
      refine leads_bind.mpr ((pause_leads _ sound fun request denied => ?_).mono
        (fun _ _ sound => status_keeps _ sound) fun _ _ thrown => thrown)
      injection denied with number
      exact number ▸ ⟨opened.unminted undecided.1 undecided.2, same.request ▸ sound.numbered reviewed known⟩

theorem resume_leads (sound : Sound strict w a) (ready : Ready strict a) :
    Leads (resume w) a (fun _ b => Sound strict w b) (fun _ b => Sound strict w b) := by
  refine (check_reads _).bind sound (fun _ _ thrown => thrown) fun _ b first sound passed =>
    leads_bind.mpr (leads_get.mpr ?_)
  refine (refuse_reads _ _).bind sound (fun _ _ thrown => thrown) fun _ c second sound _ => ?_
  refine (audit_reads _).bind sound (fun _ _ thrown => thrown) fun _ d third sound _ => leads_bind.mpr ?_
  have whole : Steady a d := (first.trans second).trans third
  refine status_keeps _ (sound.resumed (fun revoked => passed.1 (whole.phase ▸ revoked))
    fun strict f member resolving => ?_)
  exact whole.history ▸ ready strict passed.1 f (whole.forwards ▸ member) resolving

theorem revoke_keeps : Keeps (Sound strict w) (fun _ => Sound strict w) (revoke w) := by
  intro a sound
  have revoked : Sound strict w ((a.write (·.revoked .gatewayRevoked)).note (.halted .revocation)) :=
    (sound.revoked .gatewayRevoked).ended Phase.noConfusion rfl trivial fun request same => by
      injection same
      contradiction
  refine leads_bind.mpr (leads_bind.mpr (leads_get.mpr ?_))
  refine (audit_reads _).bind revoked (fun _ _ thrown => thrown) fun _ b steady sound _ => leads_bind.mpr ?_
  exact status_keeps _ sound.discard

theorem presented_reads (headers : Headers) : Reads strict w (presented w headers) fun _ _ => True := by
  intro a sound
  unfold presented
  split
  · exact leads_bind.mpr ((freeze_leads _ none none sound).mono (fun _ _ stopped => stopped.sound)
      fun _ _ thrown => thrown)
  · refine (refuseFrozen_reads _ _).bind sound (fun _ _ thrown => thrown) fun _ b steady sound _ => ?_
    exact ⟨steady, trivial⟩

theorem refuseExpiredFrozen_reads (purpose : Option Purpose) :
    Reads strict w (refuseExpiredFrozen w purpose) fun _ _ => True := by
  intro a sound
  cases purpose with
  | none => exact ⟨.refl a, trivial⟩
  | some purpose =>
    refine now_reads.bind sound (fun _ _ thrown => thrown) fun time b steady sound _ => ?_
    exact (refuseFrozen_reads _ _ b sound).mono
      (fun _ c ⟨steady', _⟩ => ⟨steady.trans steady', trivial⟩) fun _ _ thrown => thrown

def Attempt.popped (a : Attempt) (token : String) : Attempt :=
  a.write fun gateway => { gateway with tickets := gateway.tickets.erase token }

theorem popTicket_leads (token : String) (sound : Sound strict w a) : Leads (popTicket w token) a
    (fun popped b => Steady (a.popped token) b ∧ a.gateway.tickets.get token = some popped.1 ∧
      popped.2 < popped.1.record.expiresAt)
    (fun _ b => Sound strict w b) := by
  refine leads_bind.mpr (leads_get.mpr (leads_bind.mpr ?_))
  have popped : Sound strict w (a.popped token) := sound.popped token
  show Leads _ (a.popped token) _ _
  split
  · exact leads_bind.mpr ((freeze_leads _ none none popped).mono (fun _ _ stopped => stopped.sound)
      fun _ _ thrown => thrown)
  case h_2 ticket found =>
      refine now_reads.bind popped (fun _ _ thrown => thrown) fun time b steady sound _ => ?_
      refine (refuseFrozen_reads _ _).bind sound (fun _ _ thrown => thrown) fun _ c steady' sound passed => ?_
      exact ⟨steady.trans steady', found, by simpa using passed⟩

/-- What the first block of `forward` knows of the ticket it took. -/
structure Taken (strict : Prop) (w : World) (b : Attempt) (ticket : Ticket) (time : Int) (wire : Wire) : Prop where
  sound : Sound strict w b
  running : b.gateway.phase = .running
  room : b.admissions < b.gateway.requests
  standing : Standing w b.history ticket
  early : time < ticket.record.expiresAt
  wire : wire = ticket.record.metadata.wire
  others : ∀ other ∈ b.gateway.tickets.rows, other.record.request ≠ ticket.record.request

theorem Request.matches_wire {request : Request} {parts : Parts} {metadata : Metadata}
    (fits : request.matches w parts metadata = true) :
    Wire.mk request.method parts.url (w.digestBytes request.body) = metadata.wire := by
  simp only [Request.matches, Bool.and_eq_true, beq_iff_eq] at fits
  rw [Metadata.wire, fits.1.1.1, fits.1.1.2, fits.2]

/-- One ticket for a request, also in the table. -/
theorem Sound.others (sound : Sound strict w a) (running : a.gateway.phase = .running) {token : String}
    (found : a.gateway.tickets.get token = some ticket) :
    ∀ other ∈ (a.popped token).gateway.tickets.rows, other.record.request ≠ ticket.record.request := by
  intro other member same
  obtain ⟨stored, different⟩ := List.mem_filter.mp member
  have one := sound.minted_once (sound.standing running other stored).since.mem
    (sound.standing running ticket (Table.get_mem found)).since.mem same
  rw [one, Table.get_key found] at different
  simp at different

theorem admit_leads (request : Request) (sound : Sound strict w a) : Leads (admitRequest w request) a
    (fun taken b => Taken strict w b taken.1 taken.2.1 ⟨request.method, taken.2.2.url,
      w.digestBytes request.body⟩) (fun _ b => Sound strict w b) := by
  refine (check_reads _).bind sound (fun _ _ thrown => thrown) fun _ b first sound passed => ?_
  refine (presented_reads _).bind sound (fun _ _ thrown => thrown) fun token c second sound _ => ?_
  have running : c.gateway.phase = .running := (first.trans second).phase.trans (passed.2 rfl)
  refine leads_bind.mpr ((popTicket_leads token sound).mono ?_ fun _ _ thrown => thrown)
  rintro ⟨ticket, time⟩ d ⟨third, found, early⟩
  have others := sound.others running found
  have standing := sound.standing running ticket (Table.get_mem found)
  have popped : Sound strict w d := third.sound (sound.popped token)
  refine (lift_reads _).bind popped (fun _ _ thrown => thrown) fun parts e fourth sound _ => ?_
  refine (refuseFrozen_reads _ _).bind sound (fun _ _ thrown => thrown) fun _ f fifth sound fits => ?_
  refine (destination_reads _ _).bind sound (fun _ _ thrown => thrown) fun _ g sixth sound _ =>
    leads_bind.mpr (leads_get.mpr ?_)
  refine (refuseExpiredFrozen_reads _).bind sound (fun _ _ thrown => thrown) fun _ h seventh sound _ => ?_
  refine (refuseFrozen_reads _ _).bind sound (fun _ _ thrown => thrown) fun _ i eighth sound _ =>
    leads_bind.mpr (leads_get.mpr ?_)
  refine (refuseFrozen_reads _ _).bind sound (fun _ _ thrown => thrown) fun _ j ninth sound room =>
    leads_bind.mpr ?_
  have steady : Steady (c.popped token) j :=
    ((((((third.trans fourth).trans fifth).trans sixth).trans seventh).trans eighth).trans ninth)
  have below : j.gateway.requests < w.policy.maxRequests := by simpa [ninth.requests] using room
  have counted := sound.counted
  refine (audit_reads _).bind (sound.admitTicket ticket below) (fun _ _ thrown => thrown) fun _ k last sound _ => ?_
  refine ⟨sound, ?_, ?_, ?_, early, Request.matches_wire (by simpa using fits), ?_⟩
  · exact last.phase.trans (steady.phase.trans running)
  · rw [last.admissions, last.requests]
    exact Nat.lt_succ_of_le counted
  · rw [last.history]
    exact steady.history ▸ standing
  · rw [last.tickets]
    exact fun other member => others other (steady.tickets ▸ member)

theorem forward_keeps (request : Request) :
    Keeps (Sound strict w) (fun _ => Sound strict w) (forward w request) := by
  intro a sound
  refine leads_bind.mpr ((admit_leads request sound).mono ?_ fun _ _ thrown => thrown)
  rintro ⟨ticket, time, parts⟩ b taken
  exact taken.sound.enter taken.running taken.room taken.standing taken.early taken.wire taken.others

theorem upstreamTarget_reads (parts : Parts) : Reads strict w (upstreamTarget w parts) fun _ _ => True := by
  intro a sound
  refine leads_bind.mpr (leads_get.mpr ?_)
  split
  · exact ⟨.refl a, trivial⟩
  · exact sound

theorem prepare_reads (f : Forward) (answers : Answers) :
    Reads strict w (prepare w f answers) fun a _ => a.gateway.phase = .running := by
  intro a sound
  refine (external_reads _).bind sound (fun _ _ thrown => thrown) fun _ b first sound _ => ?_
  refine (check_reads _).bind sound (fun _ _ thrown => thrown) fun _ c second sound passed => ?_
  refine (upstreamTarget_reads _).bind sound (fun _ _ thrown => thrown) fun _ d third sound _ => ?_
  refine checkFresh_reads.bind sound (fun _ _ thrown => thrown) fun _ e fourth sound _ => ?_
  refine (lift_reads _).bind sound (fun _ _ thrown => thrown) fun _ g fifth sound _ => ?_
  refine (external_reads _).bind sound (fun _ _ thrown => thrown) fun _ h sixth sound _ => ?_
  refine (refuse_reads _ _).bind sound (fun _ _ thrown => thrown) fun _ i seventh sound _ => ?_
  refine (external_reads _).bind sound (fun _ _ thrown => thrown) fun _ j eighth sound _ => ?_
  refine (check_reads _).bind sound (fun _ _ thrown => thrown) fun _ k ninth sound _ => ?_
  have checked : Steady a k :=
    (((((((first.trans second).trans third).trans fourth).trans fifth).trans sixth).trans
      seventh).trans eighth).trans ninth
  refine (audit_reads _ k sound).mono (fun _ l ⟨last, _⟩ => ⟨checked.trans last, ?_⟩) fun _ _ thrown => thrown
  exact first.phase.symm.trans (passed.2 rfl)

theorem transmit_leads (answers : Answers) (sound : Sound strict w a) (member : f ∈ a.forwards.rows)
    (resolving : f.stage = .resolving) :
    Leads (transmit w f answers) a (fun _ b => Sound strict w b) (fun _ b => Sound strict w b) := by
  have staged : ∀ (g : Forward) (failure : Failure) b, Sound strict w b →
      Sound strict w (b.setStage g (.failing failure.code)) :=
    fun g failure b sound => sound.staged g Stage.noConfusion
  refine leads_bind.mpr
    (leads_tryCatch.mpr ((prepare_reads f answers a sound).mono (fun _ b ⟨steady, running⟩ => ?_)
    fun failure b sound => leads_bind.mpr (staged f failure b sound)))
  have sent : Sound strict w (b.send f) :=
    (steady.sound sound).send (steady.forwards ▸ member) resolving (steady.phase.trans running)
  refine leads_bind.mpr (leads_tryCatch.mpr
    ((external_reads answers.request _ sent).mono (fun _ c ⟨later, _⟩ => later.sound sent) ?_))
  exact staged { f with sent := true }

theorem failingForward_keeps (f : Forward) {program : Act Unit}
    (keeps : Keeps (Sound strict w) (fun _ => Sound strict w) program) :
    Keeps (Sound strict w) (fun _ => Sound strict w) (failingForward f program) :=
  keeps.tryCatch fun _ _ sound => sound.staged f Stage.noConfusion

theorem followRedirect_keeps (f : Forward) (location : Except Failure Parts) :
    Keeps (Sound strict w) (fun _ => Sound strict w) (followRedirect w f location) :=
  failingForward_keeps f <| .bind (external_reads _).keeps fun _ =>
    .bind (destination_reads _ _).keeps fun _ => .bind .get fun _ =>
    (refuseExpired_reads _).keeps

theorem nextChunk_keeps (f : Forward) : Keeps (Sound strict w) (fun _ => Sound strict w) (nextChunk w f) :=
  failingForward_keeps f <| .bind (check_reads _).keeps fun _ => .bind .get fun _ =>
    .bind (refuse_reads _ _).keeps fun _ _ sound =>
    sound.staged f Stage.noConfusion

theorem chunk_keeps (f : Forward) (bytes : Nat) :
    Keeps (Sound strict w) (fun _ => Sound strict w) (chunk w f bytes) := by
  refine failingForward_keeps f fun a sound => leads_bind.mpr ?_
  have counted :
      Sound strict w (a.write fun gateway =>
      { gateway with responseBytes := gateway.responseBytes + bytes }) := { sound with }
  refine leads_bind.mpr (leads_get.mpr ?_)
  refine (refuse_reads _ _).bind counted (fun _ _ thrown => thrown) fun _ b _ sound _ => ?_
  exact sound.staged f Stage.noConfusion

theorem complete_keeps (f : Forward) (status : Nat) :
    Keeps (Sound strict w) (fun _ => Sound strict w) (complete w f status) :=
  failingForward_keeps f <| .bind (audit_reads _).keeps fun _ _ sound => sound.staged f Stage.noConfusion

theorem settle_keeps (f : Forward) (code : Code) :
    Keeps (Sound strict w) (fun _ => Sound strict w) (settle w f code) := by
  intro a sound
  refine leads_bind.mpr ?_
  refine Keeps.bind (freeze_keeps _ _ _) (fun _ => (audit_reads _).keeps) _ (Sound.staged ?_ f Stage.noConfusion)
  exact { sound with }

def Label.unpauses : Label → Bool
  | .approve .. | .grant .. | .resume => true
  | _ => false

def Event.admits (admission : Nat) : Event → Bool
  | .admitted other _ _ => other = admission
  | _ => false

/-- A pause, a denial or a revocation has come over the thread since it was admitted. -/
def Attempt.overtaken (a : Attempt) (f : Forward) : Bool :=
  (a.history.dropWhile fun event => !event.admits f.admission).any Event.halts

/-- A paused attempt is set running only when no thread that has yet to send was overtaken. -/
def Undisturbed (a : Attempt) (label : Label) : Prop :=
  label.unpauses = true → a.gateway.phase = .paused → ∀ f ∈ a.forwards.rows, f.stage = .resolving →
    a.overtaken f = false

instance (a : Attempt) (label : Label) : Decidable (Undisturbed a label) := by
  unfold Undisturbed
  infer_instance

/-- A thread is admitted once. -/
theorem Obeys.admission {history before after : List Event} {admission : Nat}
    (lawful : Obeys (Law strict w) history) (split : history = before ++ .admitted admission ticket time :: after) :
    history.dropWhile (fun event => !event.admits admission) = .admitted admission ticket time :: after := by
  have first : ∀ event ∈ before, (!event.admits admission) = true := by
    intro event member
    cases event with
    | admitted other earlier at' =>
      obtain ⟨_, once, _⟩ := lawful before _ after split
      simpa [Event.admits] using (once other earlier at' member).1
    | _ => rfl
  rw [split, List.dropWhile_append_of_pos first]
  simp [Event.admits]

theorem Sound.current_of (sound : Sound strict w a) (waiting : Waiting a.history f)
    (undisturbed : a.overtaken f = false) :
    Current a.history f := by
  obtain ⟨time, admitted⟩ := waiting.admitted
  obtain ⟨before, after, split⟩ := List.append_of_mem admitted
  refine ⟨time, before, after, split, fun event member => ?_⟩
  unfold Attempt.overtaken at undisturbed
  rw [Obeys.admission sound.lawful split, List.any_cons, Bool.or_eq_false_iff] at undisturbed
  simpa using List.any_eq_false.mp undisturbed.2 event member

theorem Sound.ready (sound : Sound strict w a) (undisturbed : strict → Undisturbed a label)
    (unpauses : label.unpauses = true) :
    Ready strict a := by
  intro strict unrevoked f member resolving
  cases phase : a.gateway.phase with
  | running => exact sound.current strict phase f member resolving
  | revoked => exact absurd phase unrevoked
  | paused =>
    exact sound.current_of (sound.waiting f member resolving) (undisturbed strict unpauses phase f member resolving)

theorem threaded_leads {admission : Nat} {program : Forward → Act Unit} (sound : Sound strict w a)
    (leads : ∀ f ∈ a.forwards.rows,
    Leads (program f) a (fun _ b => Sound strict w b) (fun _ b => Sound strict w b)) :
    Leads (threaded admission program) a (fun _ b => Sound strict w b) (fun _ b => Sound strict w b) := by
  refine leads_bind.mpr (leads_get.mpr ?_)
  cases found : a.forwards.get admission with
  | none => exact sound
  | some f => exact leads f (Table.get_mem found)

theorem perform_leads (sound : Sound strict w a) (undisturbed : strict → Undisturbed a label) :
    Leads (perform w label) a (fun _ b => Sound strict w b) (fun _ b => Sound strict w b) := by
  cases label with
  | connect authority => exact leads_bind.mpr (checkConnect_keeps authority a sound)
  | review requestRef metadata => exact leads_bind.mpr (reviewRequest_keeps requestRef metadata a sound)
  | approve requestRef grant =>
    exact leads_bind.mpr (approveRequest_leads requestRef grant sound (sound.ready undisturbed rfl))
  | grant grant item target => exact grantDestination_leads grant item target sound (sound.ready undisturbed rfl)
  | deny requestRef => exact denyRequest_keeps requestRef a sound
  | pause => exact pause_leads .pause sound fun _ same => by contradiction
  | resume => exact resume_leads sound (sound.ready undisturbed rfl)
  | revoke => exact revoke_keeps a sound
  | status => exact status_keeps a sound
  | forward request => exact forward_keeps request a sound
  | transmit admission answers =>
    refine threaded_leads sound fun f member => ?_
    split
    case h_1 resolving => exact transmit_leads answers sound member resolving
    case h_2 => exact sound
  | redirect admission location =>
    refine threaded_leads sound fun f _ => ?_
    split
    · exact followRedirect_keeps f location a sound
    · exact sound
  | nextChunk admission =>
    refine threaded_leads sound fun f _ => ?_
    split
    · exact nextChunk_keeps f a sound
    · exact sound
  | chunk admission bytes =>
    refine threaded_leads sound fun f _ => ?_
    split
    · split
      · exact chunk_keeps f bytes a sound
      · exact sound
    · exact sound
  | fails admission failure =>
    refine threaded_leads sound fun f _ => ?_
    split
    · exact sound.staged f Stage.noConfusion
    · exact sound.staged f Stage.noConfusion
    · exact sound
  | complete admission status =>
    refine threaded_leads sound fun f _ => ?_
    split
    · exact complete_keeps f status a sound
    · exact sound
  | settle admission =>
    refine threaded_leads sound fun f _ => ?_
    split
    · exact settle_keeps f _ a sound
    · exact sound
  | drain admission =>
    refine threaded_leads sound fun f _ => ?_
    split
    · exact sound.drain f
    · exact sound

theorem left_leads {α : Type} {program : Act α} {holds : Attempt → Prop}
    (leads : Leads program a (fun _ b => holds b) (fun _ b => holds b)) : holds (left program a) := by
  unfold Leads at leads
  unfold left
  cases ended : program a with
  | ok result after =>
    rw [ended] at leads
    exact leads
  | error failure after =>
    rw [ended] at leads
    exact leads

theorem Sound.start (strict : Prop) (w : World) : Sound strict w (.start w) where
  lawful := .nil
  idle := fun _ => rfl
  standing := fun _ ticket member => by contradiction
  numbered := fun record member => by contradiction
  denied := fun request member => by contradiction
  pending := fun record member => by contradiction
  distinct := fun record member => by contradiction
  consumed := fun id use member => by contradiction
  admissions := fun admission ticket time member => by contradiction
  waiting := fun f member => by contradiction
  current := fun _ _ f member => by contradiction
  counted := Nat.le_refl 0
  bounded := Nat.zero_le _
  purposes := fun purpose member => by contradiction
  founded := ⟨[], rfl⟩

def Event.sentNumber : Event → Option Nat
  | .sent admission _ _ => some admission
  | _ => none

/-- The law of the history, and no more sends than the budget has requests. -/
structure Authorised (strict : Prop) (w : World) (a : Attempt) : Prop where
  lawful : Obeys (Law strict w) a.history
  budget : (a.history.filterMap Event.sentNumber).length ≤ w.policy.maxRequests

theorem Sound.authorised (sound : Sound strict w a) : Authorised strict w a := by
  refine ⟨sound.lawful, ?_⟩
  have distinct : (a.history.filterMap Event.sentNumber).Nodup := by
    refine sound.lawful.distinct fun before event number law named member => ?_
    obtain ⟨earlier, stored, same⟩ := List.mem_filterMap.mp member
    cases event <;> cases named
    cases earlier <;> cases same
    exact (law.2.2.1 _ _ _ stored).1 rfl
  have below : a.history.filterMap Event.sentNumber ⊆ List.range a.admissions := by
    intro number member
    obtain ⟨event, stored, same⟩ := List.mem_filterMap.mp member
    cases event <;> cases same
    obtain ⟨time, admitted⟩ := sound.sent_admitted stored
    exact List.mem_range.mpr (sound.admissions _ _ _ admitted)
  calc (a.history.filterMap Event.sentNumber).length
      ≤ (List.range a.admissions).length := (List.subperm_of_subset distinct below).length_le
    _ = a.admissions := List.length_range
    _ ≤ a.gateway.requests := sound.counted
    _ ≤ w.policy.maxRequests := sound.bounded

theorem Sound.perform (sound : Sound strict w a) (undisturbed : strict → Undisturbed a label) :
    Sound strict w (left (perform w label) a) :=
  left_leads (perform_leads sound undisturbed)

theorem reachable_sound (reached : (machine w).Reachable a) : Sound False w a := by
  refine System.Reachable.invariant (Sound False w) (fun a start => ?_) (fun sound moved => ?_) reached
  · cases start
    exact .start False w
  · cases moved
    exact sound.perform False.elim

/-- In a run in which no overtaken thread is let go on, every send has its authority. -/
theorem sends_have_authority {labels : List Label} (undisturbed : (machine w).Along Undisturbed (.start w) labels)
    (ran : (machine w).exec (.start w) labels = some a) : Authorised True w a := by
  refine Sound.authorised ((machine w).exec_preserves_along Undisturbed (Sound True w)
    (fun sound allowed moved => ?_) undisturbed
    (.start True w) ran)
  cases moved
  exact sound.perform fun _ => allowed

/-- One origin whose pages may be read; every text is well formed and time stands still. -/
def readingWorld : World where
  urlParts url := .ok ⟨"https://a.test", "a.test", 443, "/", "", "/", url⟩
  addressScope _ := .ok "public"
  queryKeys _ := []
  hasPrefix _ _ := true
  isHex _ := true
  isUuid _ := true
  digestBytes _ := "empty"
  digestText text := text
  policy :=
    { identity := ⟨"project", "run", "attempt", 1, "policy"⟩
      networkPlanSha256 := "plan"
      expiresAt := 1000
      maxRequests := 5
      maxSeconds := 500
      maxResponseBytes := 100
      origins := (∅ : Table Destination).put ⟨"a", "https://a.test", ["navigation"], .omit⟩
      targets := (∅ : Table Target).put ⟨"https://a.test", "public", ["192.0.2.1"], 443, "route"⟩
      rules := [⟨"a", "/", ["GET"], [], ["document"], .read, 0⟩]
      protectedAddresses := []
      protectedUrl := fun _ => .ok () }
  clock _ := 0
  writes _ := .whole
  token _ := "token"
  ticketSeconds := 15
  isRef _ := true
  binding requestRef _ _ := requestRef
  isContext _ := true
  validateDestination _ := .ok ()
  validateTarget _ := .ok ()

def pageMetadata : Metadata :=
  ⟨"https://a.test/", "GET", "empty", 0, "document", "navigation", "run", "attempt", 1, "policy", none⟩

def pageRequest : Request := ⟨"GET", "https://a.test/", ⟨some "token", false⟩, []⟩

def reached : Answers := ⟨.ok ["192.0.2.1"], .ok "route", .ok (), .ok ()⟩

/-- A form on the page changes something outside. -/
def savingWorld : World :=
  { readingWorld with policy := { readingWorld.policy with
      rules := ⟨"a", "/", ["POST"], [], ["document"], .externalChange, 16⟩ :: readingWorld.policy.rules } }

def saveGrant : EffectGrant where
  schema := "proxypilot.selected-browser.effect-grant.v1"
  id := "grant"
  identity := savingWorld.policy.identity
  requestRef := "r2"
  bindingSha256 := "r2"
  expiresAt := 20
  purposeSha256 := "purpose"
  pinned := none

def pageThenSave : List Label :=
  [.review "r1" (.ok pageMetadata), .forward pageRequest, .transmit 0 reached, .pause, .resume,
    .review "r2" (.ok { pageMetadata with method := "POST" }), .approve "r2" (.ok saveGrant),
    .forward { pageRequest with method := "POST" }, .transmit 1 reached]

/-- The page is sent, the attempt paused and resumed, and the form sent once it is approved. -/
theorem sends_have_authority_page : ∃ a, (machine savingWorld).exec (.start savingWorld) pageThenSave = some a ∧
    a.history.filterMap Event.sentNumber = [0, 1] ∧ .consumed "grant" (.effect 1 saveGrant) ∈ a.history ∧
      Authorised True savingWorld a := by
  refine ⟨_, rfl, by rfl, by decide, ?_⟩
  have undisturbed : (machine savingWorld).Along Undisturbed (.start savingWorld) pageThenSave := by decide
  exact sends_have_authority undisturbed rfl

/-- A send whose thread was overtaken. -/
def sentOvertaken (admission : Nat) (history : List Event) : Bool :=
  let before := history.takeWhile fun event => event.sentNumber ≠ some admission
  history.any (·.sentNumber = some admission) &&
    (before.dropWhile fun event => !event.admits admission).any Event.halts

theorem Obeys.sends_current {history : List Event} (lawful : Obeys (Law True w) history) (admission : Nat) :
    sentOvertaken admission history = false := by
  refine Bool.eq_false_iff.mpr fun overtaken => ?_
  simp only [sentOvertaken, Bool.and_eq_true, List.any_eq_true, decide_eq_true_eq] at overtaken
  obtain ⟨⟨event, member, named⟩, halt, halts, late⟩ := overtaken
  cases event <;> cases named
  obtain ⟨before, after, split⟩ := List.append_of_mem member
  obtain ⟨_, current, once, _⟩ := lawful before _ after split
  obtain ⟨time, first, rest, inner, quiet⟩ := current trivial
  have earlier : Obeys (Law True w) before := fun _ entry last same =>
    lawful _ entry (last ++ _ :: after) (by rw [split, same, List.append_assoc, List.cons_append])
  have taken : history.takeWhile (fun event => event.sentNumber ≠ some admission) = before := by
    rw [split, List.takeWhile_append_of_pos]
    · simp [Event.sentNumber]
    · intro event member
      cases event with
      | sent other ticket wire => simpa [Event.sentNumber] using (once other ticket wire member).1
      | _ => simp [Event.sentNumber]
  rw [taken, Obeys.admission earlier inner] at halts
  rcases List.mem_cons.mp halts with rfl | member
  · contradiction
  · rw [quiet halt member] at late
    contradiction

/-- Paused while the name is resolved, and resumed: the request admitted before the pause is sent. -/
theorem resumed_sends_overtaken : ∃ a, (machine readingWorld).exec (.start readingWorld)
    [.review "r1" (.ok pageMetadata), .forward pageRequest, .pause, .resume, .transmit 0 reached] = some a ∧
      ¬ Authorised True readingWorld a := by
  refine ⟨_, rfl, fun authorised => ?_⟩
  have wrong : true = false := Obeys.sends_current authorised.lawful 0
  contradiction

end ProxyPilot.Gateway
