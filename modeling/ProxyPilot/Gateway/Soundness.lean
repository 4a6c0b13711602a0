import ProxyPilot.Data.History
import ProxyPilot.Gateway.Forward

namespace ProxyPilot.Gateway

open Data Effects

/-! # What an attempt keeps

The law of the history, the invariant behind it, and what each change of the state needs to
keep the invariant.
-/

def Event.halts : Event → Bool
  | .halted _ => true
  | _ => false

/-- The authority handed out so far ends here. -/
def Event.ends : Event → Bool
  | .froze | .halted _ => true
  | _ => false

def Metadata.wire (metadata : Metadata) : Wire := ⟨metadata.method, metadata.url, metadata.bodySha256⟩

/-- The request as it was reviewed, approved and limited in time since. -/
def Record.Of (record reviewed : Record) : Prop :=
  { record with expiresAt := reviewed.expiresAt, approvalId := reviewed.approvalId } = reviewed

/-- One approval was consumed for the request of the ticket, and its grant was in force. -/
def Approved (w : World) (history : List Event) (ticket : Ticket) (time : Int) : Prop :=
  ∃ grant, ticket.record.approvalId = some grant.id ∧
    .consumed grant.id (.effect ticket.record.request grant) ∈ history ∧
    grant.identity = w.policy.identity ∧ grant.requestRef = ticket.record.requestRef ∧
    grant.bindingSha256 = ticket.record.bindingSha256 ∧ time < grant.expiresAt

/-- `strict`: a halt also ends what was admitted and has yet to be sent. -/
def Law (strict : Prop) (w : World) (before : List Event) : Event → Prop
  | .reviewed record => ∀ other, .reviewed other ∈ before → other.request ≠ record.request
  | .minted ticket =>
    (∃ reviewed, .reviewed reviewed ∈ before ∧ ticket.record.Of reviewed) ∧
      (∀ other, .minted other ∈ before → other.record.request ≠ ticket.record.request) ∧
      .halted (.denial ticket.record.request) ∉ before
  | .consumed id _ => ∀ use, .consumed id use ∉ before
  | .froze | .halted .pause | .halted .revocation => True
  | .halted (.denial request) => ∀ ticket, .minted ticket ∈ before → ticket.record.request ≠ request
  | .admitted admission ticket time =>
    Since (·.ends = false) (.minted ticket) before ∧
      (∀ other earlier time, .admitted other earlier time ∈ before →
        other ≠ admission ∧ earlier.record.request ≠ ticket.record.request) ∧
      (ticket.record.effect ≠ .read → Approved w before ticket time)
  | .sent admission ticket wire =>
    (∃ time, .admitted admission ticket time ∈ before) ∧
      (strict → ∃ time, Since (·.halts = false) (.admitted admission ticket time) before) ∧
      (∀ other earlier wire, .sent other earlier wire ∈ before →
        other ≠ admission ∧ earlier.record.request ≠ ticket.record.request) ∧
      wire = ticket.record.metadata.wire ∧ .halted (.denial ticket.record.request) ∉ before

def Unminted (history : List Event) (request : Nat) : Prop :=
  ∀ ticket, .minted ticket ∈ history → ticket.record.request ≠ request

def Reviewed (history : List Event) (record : Record) : Prop :=
  ∃ reviewed, .reviewed reviewed ∈ history ∧ record.Of reviewed

/-- A request that may still be asked for. -/
structure Open (history : List Event) (record : Record) : Prop where
  reviewed : Reviewed history record
  undenied : .halted (.denial record.request) ∉ history
  unminted : record.approvalId = none → record.effect ≠ .read → Unminted history record.request

/-- A ticket that may still be presented. -/
structure Standing (w : World) (history : List Event) (ticket : Ticket) : Prop where
  since : Since (·.ends = false) (.minted ticket) history
  unused : ∀ admission other time, .admitted admission other time ∈ history →
    other.record.request ≠ ticket.record.request
  approved : ticket.record.effect ≠ .read → ∀ time, time < ticket.record.expiresAt → Approved w history ticket time

/-- A thread that has not sent. -/
structure Waiting (history : List Event) (f : Forward) : Prop where
  admitted : ∃ time, .admitted f.admission f.ticket time ∈ history
  unsent : ∀ ticket wire, .sent f.admission ticket wire ∉ history
  wire : f.wire = f.ticket.record.metadata.wire

/-- No halt has come over the thread since it was admitted. -/
def Current (history : List Event) (f : Forward) : Prop :=
  ∃ time, Since (·.halts = false) (.admitted f.admission f.ticket time) history

structure Sound (strict : Prop) (w : World) (a : Attempt) : Prop where
  lawful : Obeys (Law strict w) a.history
  idle : a.gateway.phase = .paused → a.gateway.tickets.rows = []
  standing : a.gateway.phase = .running → ∀ ticket ∈ a.gateway.tickets.rows, Standing w a.history ticket
  numbered : ∀ record, .reviewed record ∈ a.history → record.request < a.reviews
  denied : ∀ request, .halted (.denial request) ∈ a.history → request < a.reviews
  pending : ∀ record ∈ a.gateway.pending.rows, Open a.history record
  distinct : ∀ record ∈ a.gateway.pending.rows, ∀ other ∈ a.gateway.pending.rows,
    record.request = other.request → record = other
  consumed : ∀ id use, .consumed id use ∈ a.history → id ∈ a.gateway.ledger.approvals
  admissions : ∀ admission ticket time, .admitted admission ticket time ∈ a.history → admission < a.admissions
  waiting : ∀ f ∈ a.forwards.rows, f.stage = .resolving → Waiting a.history f
  current : strict → a.gateway.phase = .running → ∀ f ∈ a.forwards.rows, f.stage = .resolving → Current a.history f
  counted : a.admissions ≤ a.gateway.requests
  bounded : a.gateway.requests ≤ w.policy.maxRequests
  purposes : ∀ purpose ∈ a.gateway.purposes.rows,
    .consumed purpose.grant.id (.destination purpose.grant) ∈ a.history
  founded : ∃ more, a.gateway.ledger.file = .whole (.attemptRegistered w.policy.identity) :: more

variable {strict : Prop} {w : World} {a : Attempt} {history : List Event}

theorem Record.Of.refl (record : Record) : record.Of record := rfl

theorem Record.Of.request {record reviewed : Record} (same : record.Of reviewed) :
    record.request = reviewed.request := by
  rw [← same]

variable {ticket : Ticket} {event : Event} {record : Record} {f : Forward}

theorem Sound.minted_reviewed (sound : Sound strict w a) (minted : .minted ticket ∈ a.history) :
    Reviewed a.history ticket.record := by
  obtain ⟨before, within, ⟨reviewed, member, same⟩, _⟩ := sound.lawful.of_mem minted
  exact ⟨reviewed, within member, same⟩

theorem Sound.minted_lt (sound : Sound strict w a) (minted : .minted ticket ∈ a.history) :
    ticket.record.request < a.reviews := by
  obtain ⟨reviewed, member, same⟩ := sound.minted_reviewed minted
  exact same.request ▸ sound.numbered reviewed member

variable {admission : Nat} {time : Int}

theorem Sound.admitted_minted (sound : Sound strict w a)
    (admitted : .admitted admission ticket time ∈ a.history) : .minted ticket ∈ a.history := by
  obtain ⟨before, within, since, _⟩ := sound.lawful.of_mem admitted
  exact within since.mem

theorem Sound.sent_admitted (sound : Sound strict w a) {wire : Wire}
    (sent : .sent admission ticket wire ∈ a.history) : ∃ time, .admitted admission ticket time ∈ a.history := by
  obtain ⟨before, within, ⟨time, admitted⟩, _⟩ := sound.lawful.of_mem sent
  exact ⟨time, within admitted⟩

/-- One ticket for a request. -/
theorem Sound.minted_once (sound : Sound strict w a) {ticket other : Ticket} (minted : .minted ticket ∈ a.history)
    (minted' : .minted other ∈ a.history) (same : ticket.record.request = other.record.request) :
    ticket = other := by
  refine Decidable.byContradiction fun different => ?_
  rcases sound.lawful.ordered minted minted' (by simpa using different)
    with ⟨before, earlier, _, once, _⟩ | ⟨before, earlier, _, once, _⟩
  · exact once other earlier same.symm
  · exact once ticket earlier same

theorem Sound.admitted_once (sound : Sound strict w a) {admission admission' : Nat}
    {ticket other : Ticket} {time time' : Int}
    (admitted : .admitted admission ticket time ∈ a.history)
    (admitted' : .admitted admission' other time' ∈ a.history)
    (same : ticket.record.request = other.record.request) : admission = admission' := by
  refine Decidable.byContradiction fun different => ?_
  rcases sound.lawful.ordered admitted admitted' (by simp [different])
    with ⟨before, earlier, _, once, _⟩ | ⟨before, earlier, _, once, _⟩
  · exact (once _ _ _ earlier).2 same.symm
  · exact (once _ _ _ earlier).2 same

theorem Sound.undenied (sound : Sound strict w a) (minted : .minted ticket ∈ a.history) :
    .halted (.denial ticket.record.request) ∉ a.history := by
  intro denied
  rcases sound.lawful.ordered minted denied (by simp)
    with ⟨before, earlier, _, _, undenied⟩ | ⟨before, earlier, unminted⟩
  · exact undenied earlier
  · exact unminted ticket earlier rfl

theorem Standing.snoc (standing : Standing w history ticket) (quiet : event.ends = false)
    (other : ∀ admission used time, event = .admitted admission used time →
    used.record.request ≠ ticket.record.request) :
    Standing w (history ++ [event]) ticket where
  since := standing.since.snoc quiet
  unused := fun admission used time member => by
    rcases List.mem_append.mp member with old | new
    · exact standing.unused admission used time old
    · exact other admission used time (List.mem_singleton.mp new).symm
  approved := fun change time early => by
    obtain ⟨grant, named, consumed, rest⟩ := standing.approved change time early
    exact ⟨grant, named, List.mem_append_left _ consumed, rest⟩

theorem Open.snoc (opened : Open history record) (undenied : event ≠ .halted (.denial record.request))
    (unminted : ∀ ticket, event = .minted ticket → record.approvalId = none → record.effect ≠ .read →
      ticket.record.request ≠ record.request) : Open (history ++ [event]) record where
  reviewed := by
    obtain ⟨reviewed, member, same⟩ := opened.reviewed
    exact ⟨reviewed, List.mem_append_left _ member, same⟩
  undenied := fun member => by
    rcases List.mem_append.mp member with old | new
    · exact opened.undenied old
    · exact undenied (List.mem_singleton.mp new).symm
  unminted := fun unapproved change ticket member => by
    rcases List.mem_append.mp member with old | new
    · exact opened.unminted unapproved change ticket old
    · exact unminted ticket (List.mem_singleton.mp new).symm unapproved change

theorem Waiting.snoc (waiting : Waiting history f)
    (unsent : ∀ ticket wire, event ≠ .sent f.admission ticket wire) : Waiting (history ++ [event]) f where
  admitted := by
    obtain ⟨time, member⟩ := waiting.admitted
    exact ⟨time, List.mem_append_left _ member⟩
  unsent := fun ticket wire member => by
    rcases List.mem_append.mp member with old | new
    · exact waiting.unsent ticket wire old
    · exact unsent ticket wire (List.mem_singleton.mp new).symm
  wire := waiting.wire

theorem Current.snoc (current : Current history f) (quiet : event.halts = false) :
    Current (history ++ [event]) f := by
  obtain ⟨time, since⟩ := current
  exact ⟨time, since.snoc quiet⟩

theorem Ledger.write_approvals (ledger : Ledger) (row : Row) (written : Written) :
    (ledger.write row written).approvals = ledger.approvals := by
  cases written with
  | whole | short => rfl
  | fails onDisk => cases onDisk <;> rfl

theorem Ledger.write_file (ledger : Ledger) (row : Row) (written : Written) :
    ∃ more, (ledger.write row written).file = ledger.file ++ more := by
  cases written with
  | whole | short => exact ⟨_, rfl⟩
  | fails onDisk =>
    cases onDisk with
    | true => exact ⟨_, rfl⟩
    | false => exact ⟨[], (List.append_nil _).symm⟩

theorem Sound.appended (sound : Sound strict w a) (count : Nat) (row : Row) (written : Written) :
    Sound strict w { a with
      writes := count,
      gateway := { a.gateway with ledger := a.gateway.ledger.write row written } } :=
  { sound with
    consumed := fun id use member => by
      rw [Ledger.write_approvals]
      exact sound.consumed id use member
    founded := by
      obtain ⟨first, written'⟩ := sound.founded
      obtain ⟨more, grown⟩ := a.gateway.ledger.write_file row written
      exact ⟨first ++ more, by rw [grown, written', List.cons_append]⟩ }

theorem Sound.revoked (sound : Sound strict w a) (reason : Code) : Sound strict w (a.write (·.revoked reason)) :=
  { sound with
    idle := fun paused => by contradiction
    standing := fun running => by contradiction
    current := fun _ running => by contradiction }

theorem Sound.closed (sound : Sound strict w a) (reason : Code) :
    Sound strict w (a.write fun gateway => { gateway with phase := .revoked, reason := some reason }) :=
  { sound with
    idle := fun paused => by contradiction
    standing := fun running => by contradiction
    current := fun _ running => by contradiction }

theorem mem_note {event other : Event} : other ∈ (a.note event).history ↔ other ∈ a.history ∨ other = event := by
  simp [Attempt.note]

/-- A note of another event adds nothing that was not there. -/
theorem mem_of_note {event other : Event} (member : other ∈ (a.note event).history)
    (differ : other ≠ event) : other ∈ a.history :=
  (mem_note.mp member).resolve_right differ

/-- An entry that ends authority, where nothing runs any more. -/
theorem Sound.ended (sound : Sound strict w a) {event : Event}
    (stopped : a.gateway.phase ≠ .running) (ends : event.ends = true)
    (law : Law strict w a.history event)
    (denied : ∀ request, event = .halted (.denial request) → request < a.reviews ∧
      ∀ record ∈ a.gateway.pending.rows, record.request ≠ request) : Sound strict w (a.note event) :=
  { sound with
    purposes := fun purpose member => List.mem_append_left _ (sound.purposes purpose member)
    lawful := sound.lawful.snoc law
    standing := fun running => absurd running stopped
    numbered := fun record member => by
      rcases mem_note.mp member with old | rfl
      · exact sound.numbered record old
      · contradiction
    denied := fun request member => by
      rcases mem_note.mp member with old | rfl
      · exact sound.denied request old
      · exact (denied request rfl).1
    pending := fun record member => by
      refine (sound.pending record member).snoc (fun same => (denied _ same).2 record member rfl)
        fun ticket same => ?_
      rw [same] at ends
      contradiction
    consumed := fun id use member => by
      rcases mem_note.mp member with old | rfl
      · exact sound.consumed id use old
      · contradiction
    admissions := fun admission ticket time member => by
      rcases mem_note.mp member with old | rfl
      · exact sound.admissions admission ticket time old
      · contradiction
    waiting := fun f member resolving => (sound.waiting f member resolving).snoc fun ticket wire same => by
      rw [same] at ends
      contradiction
    current := fun _ running => absurd running stopped }

theorem Sound.stop (sound : Sound strict w a) (code : Code) : Sound strict w (a.write (·.frozen code)) :=
  { sound with
    idle := fun _ => rfl
    standing := fun running => by contradiction
    pending := fun record member => sound.pending record (List.mem_filter.mp member).1
    distinct := fun record member other member' =>
      sound.distinct record (List.mem_filter.mp member).1 other (List.mem_filter.mp member').1
    current := fun _ running => by contradiction }

theorem Sound.frozen (sound : Sound strict w a) (code : Code) :
    Sound strict w ((a.write (·.frozen code)).note .froze) :=
  (sound.stop code).ended (by intro running; contradiction) rfl trivial fun request same => by contradiction

theorem Sound.discard (sound : Sound strict w a) :
    Sound strict w (a.write fun gateway => { gateway with pending := ∅ }) :=
  { sound with
    pending := fun record member => by contradiction
    distinct := fun record member => by contradiction }

theorem Sound.expire (sound : Sound strict w a) (time : Int) : Sound strict w (a.write (·.expire time)) :=
  { sound with
    idle := fun paused => by
      have none : a.gateway.tickets.rows = [] := sound.idle paused
      simp [Attempt.write, AttemptGateway.expire, Table.filter, none]
    standing := fun running ticket member => sound.standing running ticket (List.mem_filter.mp member).1
    pending := fun record member => sound.pending record (List.mem_filter.mp member).1
    distinct := fun record member other member' =>
      sound.distinct record (List.mem_filter.mp member).1 other (List.mem_filter.mp member').1 }

theorem Sound.popped (sound : Sound strict w a) (token : String) :
    Sound strict w (a.write fun gateway => { gateway with tickets := gateway.tickets.erase token }) :=
  { sound with
    idle := fun paused => by
      have none : a.gateway.tickets.rows = [] := sound.idle paused
      simp [Attempt.write, Table.erase, none]
    standing := fun running ticket member => sound.standing running ticket (List.mem_filter.mp member).1 }

theorem Sound.admitTicket (sound : Sound strict w a) (ticket : Ticket)
    (room : a.gateway.requests < w.policy.maxRequests) :
    Sound strict w (a.write (·.admitTicket ticket)) :=
  { sound with
    pending := fun record member => sound.pending record (List.mem_filter.mp member).1
    distinct := fun record member other member' =>
      sound.distinct record (List.mem_filter.mp member).1 other (List.mem_filter.mp member').1
    counted := Nat.le_succ_of_le sound.counted
    bounded := room }

/-- Running again, where every thread that has not sent is current. -/
theorem Sound.resumed (sound : Sound strict w a) (unrevoked : a.gateway.phase ≠ .revoked)
    (ready : strict → ∀ f ∈ a.forwards.rows, f.stage = .resolving → Current a.history f) :
    Sound strict w (a.write (·.resumed)) :=
  { sound with
    idle := fun paused => by contradiction
    standing := fun _ ticket member => by
      cases phase : a.gateway.phase with
      | running => exact sound.standing phase ticket member
      | revoked => exact absurd phase unrevoked
      | paused =>
        have none : a.gateway.tickets.rows = [] := sound.idle phase
        change ticket ∈ a.gateway.tickets.rows at member
        rw [none] at member
        contradiction
    current := fun strict _ => ready strict }

theorem Sound.review (sound : Sound strict w a) (numbered : record.request = a.reviews)
    (new : record.approvalId = none) : Sound strict w (a.review record) :=
  { sound with
    purposes := fun purpose member => List.mem_append_left _ (sound.purposes purpose member)
    lawful := sound.lawful.snoc fun other member same =>
      Nat.lt_irrefl _ (numbered ▸ same ▸ sound.numbered other member)
    standing := fun running ticket member =>
      (sound.standing running ticket member).snoc rfl fun _ _ _ same => by contradiction
    numbered := fun other member => by
      rcases mem_note.mp member with old | same
      · exact Nat.lt_succ_of_lt (sound.numbered other old)
      · cases same
        exact numbered ▸ Nat.lt_succ_self _
    denied := fun request member => Nat.lt_succ_of_lt (sound.denied request (mem_of_note member (by simp)))
    pending := fun other member => by
      rcases Table.mem_put.mp member with rfl | ⟨stored, _⟩
      · refine ⟨⟨other, mem_note.mpr (.inr rfl), .refl other⟩, fun denied => ?_, fun _ _ ticket minted same => ?_⟩
        · exact Nat.lt_irrefl _ (numbered ▸ sound.denied _ (mem_of_note denied (by simp)))
        · exact Nat.lt_irrefl _ (numbered ▸ same ▸ sound.minted_lt (mem_of_note minted (by simp)))
      · exact (sound.pending other stored).snoc (fun same => by contradiction) fun _ same => by contradiction
    distinct := fun first member second member' same => by
      have below : ∀ other ∈ a.gateway.pending.rows, other.request ≠ record.request := fun other stored equal => by
        obtain ⟨reviewed, known, original⟩ := (sound.pending other stored).reviewed
        exact Nat.lt_irrefl _ (numbered ▸ equal ▸ original.request ▸ sound.numbered reviewed known)
      rcases Table.mem_put.mp member with rfl | ⟨stored, _⟩ <;>
        rcases Table.mem_put.mp member' with rfl | ⟨stored', _⟩
      · rfl
      · exact absurd same.symm (below second stored')
      · exact absurd same (below first stored)
      · exact sound.distinct first stored second stored' same
    consumed := fun id use member => sound.consumed id use (mem_of_note member (by simp))
    admissions := fun admission ticket time member =>
      sound.admissions admission ticket time (mem_of_note member (by simp))
    waiting := fun f member resolving => (sound.waiting f member resolving).snoc fun _ _ same => by contradiction
    current := fun strict running f member resolving => (sound.current strict running f member resolving).snoc rfl }

theorem Sound.mint (sound : Sound strict w a) (reviewed : Reviewed a.history ticket.record)
    (unminted : Unminted a.history ticket.record.request)
    (undenied : .halted (.denial ticket.record.request) ∉ a.history)
    (settled : ∀ record ∈ a.gateway.pending.rows, record.approvalId = none → record.effect ≠ .read →
      ticket.record.request ≠ record.request)
    (approved : ticket.record.effect ≠ .read → ∀ time, time < ticket.record.expiresAt →
    Approved w a.history ticket time)
    (running : a.gateway.phase = .running) : Sound strict w (a.mint ticket) :=
  { sound with
    purposes := fun purpose member => List.mem_append_left _ (sound.purposes purpose member)
    lawful := sound.lawful.snoc ⟨reviewed, fun other member same => unminted other member same, undenied⟩
    idle := fun paused => by
      rw [show (a.mint ticket).gateway.phase = a.gateway.phase from rfl, running] at paused
      contradiction
    standing := fun _ other member => by
      rcases Table.mem_put.mp member with rfl | ⟨stored, _⟩
      · refine ⟨.now, fun admission used time admitted => ?_, fun change time early => ?_⟩
        · exact fun same => unminted used (sound.admitted_minted (mem_of_note admitted (by simp))) same
        · obtain ⟨grant, named, consumed, rest⟩ := approved change time early
          exact ⟨grant, named, List.mem_append_left _ consumed, rest⟩
      · exact (sound.standing running other stored).snoc rfl fun _ _ _ same => by contradiction
    numbered := fun record member => sound.numbered record (mem_of_note member (by simp))
    denied := fun request member => sound.denied request (mem_of_note member (by simp))
    pending := fun record member => by
      refine (sound.pending record member).snoc (fun same => by contradiction)
        fun other same unapproved change => ?_
      cases same
      exact settled record member unapproved change
    consumed := fun id use member => sound.consumed id use (mem_of_note member (by simp))
    admissions := fun admission other time member =>
      sound.admissions admission other time (mem_of_note member (by simp))
    waiting := fun f member resolving => (sound.waiting f member resolving).snoc fun _ _ same => by contradiction
    current := fun strict running f member resolving => (sound.current strict running f member resolving).snoc rfl }

theorem Sound.consume (sound : Sound strict w a) {id : String} (use : Use) (new : id ∉ a.gateway.ledger.approvals) :
    Sound strict w ((a.write (·.approve id)).note (.consumed id use)) :=
  { sound with
    purposes := fun purpose member => List.mem_append_left _ (sound.purposes purpose member)
    lawful := sound.lawful.snoc fun use member => new (sound.consumed id use member)
    standing := fun running ticket member =>
      (sound.standing running ticket member).snoc rfl fun _ _ _ same => by contradiction
    numbered := fun record member => sound.numbered record (mem_of_note member (by simp))
    denied := fun request member => sound.denied request (mem_of_note member (by simp))
    pending := fun record member =>
      (sound.pending record member).snoc (fun same => by contradiction) fun _ same => by contradiction
    consumed := fun other used member => by
      rcases mem_note.mp member with old | same
      · exact List.mem_append_left _ (sound.consumed other used old)
      · cases same
        exact List.mem_append_right _ List.mem_cons_self
    admissions := fun admission ticket time member =>
      sound.admissions admission ticket time (mem_of_note member (by simp))
    waiting := fun f member resolving => (sound.waiting f member resolving).snoc fun _ _ same => by contradiction
    current := fun strict running f member resolving => (sound.current strict running f member resolving).snoc rfl }

/-- The record of an approved request replaces the one under review. -/
theorem Sound.approved (sound : Sound strict w a) (member : record ∈ a.gateway.pending.rows) (grant : EffectGrant) :
    Sound strict w (a.write fun gateway =>
      { gateway with pending := gateway.pending.put (record.approved grant) }) :=
  { sound with
    pending := fun other member' => by
      rcases Table.mem_put.mp member' with rfl | ⟨stored, _⟩
      · obtain ⟨reviewed, undenied, _⟩ := sound.pending record member
        exact ⟨reviewed, undenied, fun unapproved => by contradiction⟩
      · exact sound.pending other stored
    distinct := fun first member' second member'' same => by
      rcases Table.mem_put.mp member' with rfl | ⟨stored, other⟩ <;>
        rcases Table.mem_put.mp member'' with rfl | ⟨stored', other'⟩
      · rfl
      · cases sound.distinct record member second stored' same
        exact absurd rfl other'
      · cases sound.distinct first stored record member same
        exact absurd rfl other
      · exact sound.distinct first stored second stored' same }

/-- A thread moves on, but not back to where it has not sent. -/
theorem Sound.staged (sound : Sound strict w a) (f : Forward) {stage : Stage}
    (past : stage ≠ .resolving) : Sound strict w (a.setStage f stage) :=
  { sound with
    waiting := fun other member resolving => by
      rcases Table.mem_put.mp member with rfl | ⟨stored, _⟩
      · exact absurd resolving past
      · exact sound.waiting other stored resolving
    current := fun strict running other member resolving => by
      rcases Table.mem_put.mp member with rfl | ⟨stored, _⟩
      · exact absurd resolving past
      · exact sound.current strict running other stored resolving }

theorem Sound.drain (sound : Sound strict w a) (f : Forward) : Sound strict w (a.drain f) :=
  { sound with
    waiting := fun other member => sound.waiting other (List.mem_filter.mp member).1
    current := fun strict running other member => sound.current strict running other (List.mem_filter.mp member).1 }

theorem Sound.enter (sound : Sound strict w a) {parts : Parts} {wire : Wire}
    (running : a.gateway.phase = .running) (room : a.admissions < a.gateway.requests)
    (standing : Standing w a.history ticket)
    (early : time < ticket.record.expiresAt) (same : wire = ticket.record.metadata.wire)
    (others : ∀ other ∈ a.gateway.tickets.rows, other.record.request ≠ ticket.record.request) :
    Sound strict w (a.enter ticket time parts wire) :=
  { sound with
    purposes := fun purpose member => List.mem_append_left _ (sound.purposes purpose member)
    lawful := sound.lawful.snoc ⟨standing.since, fun other earlier time member =>
      ⟨fun number => Nat.lt_irrefl _ (number ▸ sound.admissions other earlier time member),
        standing.unused other earlier time member⟩,
      fun change => standing.approved change time early⟩
    standing := fun _ other member =>
      (sound.standing running other member).snoc rfl fun admission used time same => by
      cases same
      exact fun equal => others other member equal.symm
    numbered := fun record member => sound.numbered record (mem_of_note member (by simp))
    denied := fun request member => sound.denied request (mem_of_note member (by simp))
    pending := fun record member =>
      (sound.pending record member).snoc (fun same => by contradiction) fun _ same => by contradiction
    consumed := fun id use member => sound.consumed id use (mem_of_note member (by simp))
    admissions := fun admission other time member => by
      rcases mem_note.mp member with old | same
      · exact Nat.lt_succ_of_lt (sound.admissions admission other time old)
      · cases same
        exact Nat.lt_succ_self _
    waiting := fun f member resolving => by
      rcases Table.mem_put.mp member with rfl | ⟨stored, _⟩
      · refine ⟨⟨time, mem_note.mpr (.inr rfl)⟩, fun other wire sent => ?_, same⟩
        rcases mem_note.mp sent with old | wrong
        · obtain ⟨time, admitted⟩ := sound.sent_admitted old
          exact Nat.lt_irrefl _ (sound.admissions _ _ _ admitted)
        · contradiction
      · exact (sound.waiting f stored resolving).snoc fun _ _ same => by contradiction
    current := fun strict _ f member resolving => by
      rcases Table.mem_put.mp member with rfl | ⟨stored, _⟩
      · exact ⟨time, .now⟩
      · exact (sound.current strict running f stored resolving).snoc rfl
    counted := room }

theorem Sound.send (sound : Sound strict w a) (member : f ∈ a.forwards.rows) (resolving : f.stage = .resolving)
    (running : a.gateway.phase = .running) : Sound strict w (a.send f) := by
  obtain ⟨⟨time, admitted⟩, unsent, wire⟩ := sound.waiting f member resolving
  have minted := sound.admitted_minted admitted
  exact
  { sound with
    purposes := fun purpose member => List.mem_append_left _ (sound.purposes purpose member)
    lawful := by
      refine sound.lawful.snoc ⟨⟨time, admitted⟩, fun strict => sound.current strict running f
        member resolving, fun other earlier sent member' => ?_, wire, sound.undenied minted⟩
      obtain ⟨time', admitted'⟩ := sound.sent_admitted member'
      refine ⟨fun same => unsent earlier sent (same ▸ member'), fun same => ?_⟩
      exact unsent earlier sent (sound.admitted_once admitted' admitted same ▸ member')
    standing := fun running ticket member =>
      (sound.standing running ticket member).snoc rfl fun _ _ _ same => by contradiction
    numbered := fun record member => sound.numbered record (mem_of_note member (by simp))
    denied := fun request member => sound.denied request (mem_of_note member (by simp))
    pending := fun record member =>
      (sound.pending record member).snoc (fun same => by contradiction) fun _ same => by contradiction
    consumed := fun id use member => sound.consumed id use (mem_of_note member (by simp))
    admissions := fun admission other time member =>
      sound.admissions admission other time (mem_of_note member (by simp))
    waiting := fun other member' waits => by
      rcases Table.mem_put.mp member' with rfl | ⟨stored, different⟩
      · contradiction
      · refine (sound.waiting other stored waits).snoc fun ticket wire same => ?_
        injection same with number
        exact different number.symm
    current := fun strict running other member' waits => by
      rcases Table.mem_put.mp member' with rfl | ⟨stored, different⟩
      · contradiction
      · exact (sound.current strict running other stored waits).snoc rfl }

end ProxyPilot.Gateway
