import ProxyPilot.Authority.Effects

namespace ProxyPilot.Authority

open Broker Data Versions Transition

variable {Key Digest : Type} (config : Config Key) (primitives : Primitives Key Digest)

def Payload.rows (p : Payload) : List Record := p.records.list authorityKinds

def Config.kinds (id : String) : List Kind := ((config.configured.get id).map Source.kinds).getD []

/-- The records accepted from a source, newest first. -/
def history (accepted : List Payload) (id : String) : List (List Record) :=
  (accepted.filter (·.sourceId = id)).map fun p => p.records.list (config.kinds id)

/-- What an accepted envelope is to those accepted before it. -/
structure AcceptedAfter (signed : String → Payload → Prop) (p : Payload) (earlier : List Payload) : Prop where
  signed : signed p.sourceId p
  owned : ∀ r ∈ p.rows, config.owner r.kind = p.sourceId
  sequence : ∀ q ∈ earlier, q.sourceId = p.sourceId → q.sequence < p.sequence
  revision : ∀ q ∈ earlier, ∀ r ∈ q.rows, ∀ r' ∈ p.rows, r.key = r'.key →
    r.revision ≤ r'.revision ∧ (r.revision = r'.revision → r = r')
  returned : ∀ newer q older, earlier = newer ++ q :: older → ∀ r ∈ q.rows, ∀ r' ∈ p.rows, r.key = r'.key →
    (∃ between ∈ newer, between.sourceId = p.sourceId ∧ r.key ∉ between.rows.map Record.key) →
      r.revision < r'.revision

/-- The records of these envelopes, which is what `ingest` digests of them. -/
def hashedRecords (accepted : List Payload) (value : Value) : Prop :=
  ∃ p ∈ accepted, ∃ r ∈ p.rows, value = .record r

def Durable.floors (d : Durable Digest) (id : String) : Table (Floor RecordKey Digest) :=
  ((d.sources.get id).map SourceState.floors).getD ∅

/-- The durable state remembers everything that was accepted. -/
structure Covers (accepted : List Payload) (d : Durable Digest) : Prop where
  floors : ∀ id, Versioning.Covered (versioning primitives) (history config accepted id) (d.floors id)
  sequences : ∀ p ∈ accepted, ∃ source, d.sources.get p.sourceId = some source ∧ p.sequence ≤ source.sequence

/-- The envelope has the kinds of its configured source. -/
def Owned (p : Payload) : Prop :=
  ∃ source, config.configured.get p.sourceId = some source ∧ p.records.valid source.kinds = true

variable {config primitives} {accepted : List Payload}

theorem mem_authorityKinds (kind : Kind) : kind ∈ authorityKinds := by cases kind <;> decide

variable {records : Records} {kinds : List Kind} {r : Record}

theorem Records.kinds_of_valid (valid : records.valid kinds = true) {kind : Kind}
    {list : List Record} (found : records.of kind = some list) : kind ∈ kinds := by
  have exact_ := (Bool.and_eq_true _ _ ▸ valid).1
  have same := List.all_eq_true.mp exact_ kind (mem_authorityKinds kind)
  simpa [found] using same

theorem Records.mem_list :
    r ∈ records.list kinds ↔ ∃ kind ∈ kinds, ∃ list, records.of kind = some list ∧ r ∈ list := by
  simp only [Records.list, List.mem_flatMap]
  constructor
  · intro ⟨kind, inKinds, member⟩
    cases found : records.of kind with
    | none =>
      rw [found] at member
      contradiction
    | some list => exact ⟨kind, inKinds, list, found, by simpa [found] using member⟩
  · intro ⟨kind, inKinds, list, found, member⟩
    exact ⟨kind, inKinds, by simpa [found] using member⟩

/-- The records read from a valid envelope are all it has. -/
theorem Records.mem_list_of_valid (valid : records.valid kinds = true)
    : r ∈ records.list kinds ↔ r ∈ records.list authorityKinds := by
  rw [Records.mem_list, Records.mem_list]
  constructor
  · intro ⟨kind, _, list, found, member⟩
    exact ⟨kind, mem_authorityKinds kind, list, found, member⟩
  · intro ⟨kind, _, list, found, member⟩
    exact ⟨kind, Records.kinds_of_valid valid found, list, found, member⟩

/-- A kind's owner is the one source that has it. -/
theorem Config.owner_eq {source : Source Key} {kind : Kind} (member : source ∈ config.configured.rows)
    (has : kind ∈ source.kinds) : config.owner kind = source.id := by
  unfold Config.owner
  cases found : config.configured.rows.find? (kind ∈ ·.kinds) with
  | none =>
    have lacking := List.find?_eq_none.mp found source member
    simp [has] at lacking
  | some other =>
    have hasOther : kind ∈ other.kinds := by simpa using List.find?_some found
    exact (config.disjoint source member other (List.mem_of_find?_eq_some found) kind has hasOther).symm

theorem Owned.owner {p : Payload} (owned : Owned config p) (member : r ∈ p.rows) :
    config.owner r.kind = p.sourceId := by
  obtain ⟨source, configured, valid⟩ := owned
  have has := Records.kind_mem_of_mem_list ((Records.mem_list_of_valid valid).mpr member)
  rw [Config.owner_eq (Table.get_mem configured) has]
  exact Table.get_key configured

theorem Owned.mem_rows {p : Payload} (owned : Owned config p) :
    r ∈ p.records.list (config.kinds p.sourceId) ↔ r ∈ p.rows := by
  obtain ⟨source, configured, valid⟩ := owned
  have kinds : config.kinds p.sourceId = source.kinds := by rw [Config.kinds, configured]; rfl
  rw [kinds]
  exact Records.mem_list_of_valid valid

theorem history_cons (p : Payload) (accepted : List Payload) (id : String) :
    history config (p :: accepted) id =
      if p.sourceId = id then p.records.list (config.kinds id) :: history config accepted id
      else history config accepted id := by
  by_cases own : p.sourceId = id <;> simp [history, own]

theorem history_append (newer older : List Payload) (id : String) :
    history config (newer ++ older) id = history config newer id ++ history config older id := by
  simp [history]

variable [DecidableEq Digest] {s : State Digest} {envelope : Envelope} {now : Time} {next : Durable Digest}

theorem admits_owned (admitted : admits config primitives s envelope now = .ok next) :
    Owned config envelope.payload := by
  obtain ⟨source, _, configured, _, _, valid, _⟩ := admits_ok admitted
  exact ⟨source, configured, valid⟩

theorem admits_floors (admitted : admits config primitives s envelope now = .ok next) :
    let p := envelope.payload
    (versioning primitives).advance (s.durable.floors p.sourceId) (p.records.list (config.kinds p.sourceId)) =
        some (next.floors p.sourceId) ∧
      ∀ id ≠ p.sourceId, next.sources.get id = s.durable.sources.get id := by
  obtain ⟨source, floors, configured, _, _, _, advance, rfl⟩ := admits_ok admitted
  have key : source.id = envelope.payload.sourceId := Table.get_key configured
  have kinds : config.kinds envelope.payload.sourceId = source.kinds := by rw [Config.kinds, configured]; rfl
  refine ⟨?_, fun id other => ?_⟩
  · have after : (s.durable.accept ⟨source.id, envelope.payload.sequence, floors⟩).floors
        envelope.payload.sourceId = floors := by
      rw [Durable.floors, ← key]
      exact congrArg (fun found => (Option.map SourceState.floors found).getD ∅)
        (Table.get_put_self s.durable.sources (⟨source.id, _, floors⟩ : SourceState Digest))
    rw [after, kinds, ← key]
    exact advance
  · exact Table.get_put_other s.durable.sources (by rw [← key] at other; exact other)

theorem admits_sequence (admitted : admits config primitives s envelope now = .ok next) :
    (∃ source, next.sources.get envelope.payload.sourceId = some source ∧
      source.sequence = envelope.payload.sequence) ∧
      ∀ prior, s.durable.sources.get envelope.payload.sourceId = some prior →
        prior.sequence < envelope.payload.sequence := by
  obtain ⟨source, floors, configured, _, newer, _, _, rfl⟩ := admits_ok admitted
  have key : source.id = envelope.payload.sourceId := Table.get_key configured
  rw [← key]
  exact ⟨⟨_, Table.get_put_self s.durable.sources _, rfl⟩, newer⟩

/-- What `admits` computes covers what was accepted, with or without the envelope. -/
theorem Covers.after_admitted (covers : Covers config primitives accepted s.durable)
    (admitted : admits config primitives s envelope now = .ok next) :
    Covers config primitives accepted next ∧ Covers config primitives (envelope.payload :: accepted) next := by
  obtain ⟨advance, others⟩ := admits_floors admitted
  obtain ⟨⟨source, stored, sequence⟩, newer⟩ := admits_sequence admitted
  have other : ∀ id ≠ envelope.payload.sourceId, next.floors id = s.durable.floors id := fun id different => by
    rw [Durable.floors, others id different, Durable.floors]
  have sequences : ∀ p ∈ accepted, ∃ source, next.sources.get p.sourceId = some source ∧
      p.sequence ≤ source.sequence := by
    intro p member
    obtain ⟨prior, found, within⟩ := covers.sequences p member
    by_cases own : p.sourceId = envelope.payload.sourceId
    · rw [own] at found ⊢
      have larger := newer prior found
      exact ⟨source, stored, by omega⟩
    · exact ⟨prior, (others _ own).trans found, within⟩
  have floors := (covers.floors envelope.payload.sourceId).advance advance
  refine ⟨⟨fun id => ?_, sequences⟩, ⟨fun id => ?_, fun p member => ?_⟩⟩
  · by_cases own : id = envelope.payload.sourceId
    · rw [own]
      exact floors.1
    · rw [other id own]
      exact covers.floors id
  · rw [history_cons]
    by_cases own : envelope.payload.sourceId = id
    · rw [if_pos own, ← own]
      exact floors.2
    · rw [if_neg own, other id fun same => own same.symm]
      exact covers.floors id
  · rcases List.mem_cons.mp member with rfl | member
    · exact ⟨source, stored, by omega⟩
    · exact sequences p member

section

variable {signed : String → Payload → Prop}
  (unforgeable : ∀ source ∈ config.configured.rows, ∀ p signature,
    primitives.verify source.key p signature = true → signed source.id p)

include unforgeable

/-- An admitted envelope follows everything that was accepted. -/
theorem Covers.acceptedAfter (covers : Covers config primitives accepted s.durable)
    (free : primitives.Distinguishes (hashedRecords (envelope.payload :: accepted)))
    (owned : ∀ p ∈ accepted, Owned config p) (admitted : admits config primitives s envelope now = .ok next) :
    AcceptedAfter config signed envelope.payload accepted := by
  obtain ⟨source, _, configured, verified, _⟩ := admits_ok admitted
  obtain ⟨advance, _⟩ := admits_floors admitted
  obtain ⟨_, newest⟩ := admits_sequence admitted
  have own := admits_owned admitted
  have key : source.id = envelope.payload.sourceId := Table.get_key configured
  have advances := (covers.floors envelope.payload.sourceId).advances advance
  -- A record of the same key is from the same source, so the source's history has it.
  have step : ∀ newer q older, accepted = newer ++ q :: older → ∀ r ∈ q.rows, ∀ r' ∈ envelope.payload.rows,
      r.key = r'.key → r.revision ≤ r'.revision ∧ (r.revision = r'.revision →
        r = r' ∧ ∀ between ∈ newer, between.sourceId = envelope.payload.sourceId →
          r.key ∈ between.rows.map Record.key) := by
    intro newer q older split r member r' member' same
    have ownedBy : ∀ p ∈ newer, Owned config p :=
      fun p inside => owned p (by rw [split]; exact List.mem_append_left _ inside)
    have ownedQ := owned q (by rw [split]; simp)
    have sameSource : q.sourceId = envelope.payload.sourceId := by
      rw [← ownedQ.owner member, ← own.owner member', show r.kind = r'.kind from congrArg Prod.fst same]
    have splits : history config accepted envelope.payload.sourceId =
        history config newer envelope.payload.sourceId ++ q.records.list (config.kinds q.sourceId) ::
          history config older envelope.payload.sourceId := by
      rw [split, history_append, history_cons, if_pos sameSource, sameSource]
    obtain ⟨revision, equal⟩ :=
      advances _ _ _ splits r (ownedQ.mem_rows.mpr member) r' (own.mem_rows.mpr member') same
    refine ⟨revision, fun sameRevision => ?_⟩
    obtain ⟨digest, listed⟩ := equal sameRevision
    have old : hashedRecords (envelope.payload :: accepted) (.record r) :=
      ⟨q, List.mem_cons_of_mem _ (by rw [split]; simp), r, member, rfl⟩
    have new : hashedRecords (envelope.payload :: accepted) (.record r') :=
      ⟨envelope.payload, List.mem_cons_self, r', member', rfl⟩
    refine ⟨Value.record.inj (free _ _ old new digest), fun between inside from_ => ?_⟩
    have inHistory : between.records.list (config.kinds between.sourceId) ∈
        history config newer envelope.payload.sourceId := by
      rw [from_]
      exact List.mem_map.mpr ⟨between, List.mem_filter.mpr ⟨inside, by simpa using from_⟩, rfl⟩
    obtain ⟨other, memberOther, sameKey⟩ := List.mem_map.mp (listed _ inHistory)
    exact List.mem_map.mpr ⟨other, (ownedBy between inside).mem_rows.mp memberOther, sameKey⟩
  refine ⟨key ▸ unforgeable source (Table.get_mem configured) _ _ verified, fun r member => own.owner member,
    fun q member from_ => ?_, fun q member r inside r' inside' same => ?_,
    fun newer q older split r inside r' inside' same ⟨between, member, from_, absent⟩ => ?_⟩
  · obtain ⟨prior, found, within⟩ := covers.sequences q member
    rw [from_] at found
    have larger := newest prior found
    omega
  · obtain ⟨newer, older, split⟩ := List.append_of_mem member
    obtain ⟨revision, equal⟩ := step newer q older split r inside r' inside' same
    exact ⟨revision, fun sameRevision => (equal sameRevision).1⟩
  · obtain ⟨revision, equal⟩ := step newer q older split r inside r' inside' same
    have different : r.revision ≠ r'.revision := fun sameRevision =>
      absent ((equal sameRevision).2 between member from_)
    omega

variable (config primitives signed) in
structure Inv (s : State Digest) : Prop where
  memory : Covers config primitives s.accepted s.durable
  file : Covers config primitives s.accepted (s.file.getD .empty)
  owned : ∀ p ∈ s.accepted, Owned config p
  accepted : ∀ p earlier, (p :: earlier) <:+ s.accepted →
    primitives.Distinguishes (hashedRecords (p :: earlier)) → AcceptedAfter config signed p earlier
  leases : ∀ lease ∈ s.active.rows, lease.payload ∈ s.accepted

omit [DecidableEq Digest] unforgeable in
/-- What changes neither the sources nor what was accepted changes nothing here. -/
theorem Covers.congr {d d' : Durable Digest} (covers : Covers config primitives accepted d)
    (same : d'.sources = d.sources) : Covers config primitives accepted d' := by
  refine ⟨fun id => ?_, fun p member => ?_⟩
  · rw [Durable.floors, same]
    exact covers.floors id
  · rw [same]
    exact covers.sequences p member

theorem Effect.inv {s' : State Digest} (inv : Inv config primitives signed s)
    (effect : Effect config primitives s s') : Inv config primitives signed s' := by
  obtain ⟨memory, file, owned, accepted, leases⟩ := inv
  have none : ∀ lease ∈ (∅ : Table Lease).rows, lease.payload ∈ s.accepted := fun lease member => by cases member
  cases effect with
  | refused => exact ⟨memory, file, owned, accepted, leases⟩
  | unwritten => exact ⟨memory, file, owned, accepted, none⟩
  | unaccepted admitted => exact ⟨memory, (memory.after_admitted admitted).1, owned, accepted, none⟩
  | @accepted envelope now next admitted =>
    have after := (memory.after_admitted admitted).2
    refine ⟨after, after, fun p member => ?_, fun p earlier within free => ?_,
      fun lease member => ?_⟩
    · rcases List.mem_cons.mp member with rfl | member
      · exact admits_owned admitted
      · exact owned p member
    · rcases List.suffix_cons_iff.mp within with same | within
      · cases same
        exact memory.acceptedAfter unforgeable free owned admitted
      · exact accepted p earlier within free
    · rcases Table.mem_put.mp member with rfl | ⟨old, _⟩
      · exact List.mem_cons_self
      · exact List.mem_cons_of_mem _ (leases lease old)
  | reserved found fresh => exact ⟨memory, memory.congr rfl, owned, accepted, none⟩
  | issued found fresh principal => exact ⟨memory.congr rfl, memory.congr rfl, owned, accepted, leases⟩
  | unended => exact ⟨memory, memory.congr rfl, owned, accepted, none⟩
  | ended => exact ⟨memory.congr rfl, memory.congr rfl, owned, accepted, leases⟩
  | consumed => exact ⟨memory, file, owned, accepted, leases⟩
  | authenticated found => exact ⟨memory, file, owned, accepted, leases⟩
  | closed => exact ⟨memory, file, owned, accepted, none⟩
  | restarted loaded =>
    rw [← load_eq loaded] at file
    exact ⟨file, by rw [← load_eq loaded]; exact file, owned, accepted, none⟩

theorem reachable_inv (reached : (authoritySystem config primitives).Reachable s) :
    Inv config primitives signed s := by
  refine reached.invariant (Inv config primitives signed) (fun s initial => ?_)
    fun inv moved => (step_effect moved).inv unforgeable inv
  obtain ⟨durable, file, _, active, _, accepted, _⟩ := initial
  have empty : Covers config primitives [] (.empty : Durable Digest) :=
    ⟨fun id => Versioning.Covered.empty, fun p member => absurd member List.not_mem_nil⟩
  refine ⟨by rw [durable, accepted]; exact empty, by rw [file, accepted]; exact empty, fun p member => ?_,
    fun p earlier within free => ?_, fun lease member => ?_⟩
  · rw [accepted] at member
    cases member
  · rw [accepted] at within
    exact absurd within (by simp)
  · rw [active] at member
    cases member

omit unforgeable in
/-- A call that throws changes nothing in memory, and the file only to the whole next
state of an envelope it had not rejected. -/
theorem ingest_throws {persisted : Persisted} {reason : AuthorityError}
    (threw : (ingest config primitives s envelope now persisted).2 = .error reason) :
    let after := (ingest config primitives s envelope now persisted).1
    after.durable = s.durable ∧ (after.file = s.file ∨
      ∃ next, persisted = .unsynced ∧ admits config primitives s envelope now = .ok next ∧
        after.file = some next) := by
  unfold ingest at threw ⊢
  cases admitted : admits config primitives s envelope now with
  | error reason => exact ⟨rfl, Or.inl rfl⟩
  | ok next =>
    cases persisted with
    | unwritten => exact ⟨rfl, Or.inl rfl⟩
    | unsynced => exact ⟨rfl, Or.inr ⟨next, rfl, rfl, rfl⟩⟩
    | written => simp [admitted] at threw

/-- The records of a kind that the checks read now. -/
def current (config : Config Key) (s : State Digest) (kind : Kind) : List Record :=
  ((s.active.get (config.owner kind)).bind (·.payload.records.of kind)).getD []

theorem records_never_roll_back
    (free : primitives.Distinguishes (hashedRecords s.accepted))
    (reached : (authoritySystem config primitives).Reachable s) :
    (∀ p earlier, (p :: earlier) <:+ s.accepted → AcceptedAfter config signed p earlier) ∧
    (∀ kind, ∀ r ∈ current config s kind, ∃ p ∈ s.accepted, p.sourceId = config.owner kind ∧ r ∈ p.rows) ∧
    ∀ envelope now persisted reason, (ingest config primitives s envelope now persisted).2 = .error reason →
      let after := (ingest config primitives s envelope now persisted).1
      after.durable = s.durable ∧ (after.file = s.file ∨ ∃ next, persisted = .unsynced ∧
        admits config primitives s envelope now = .ok next ∧ after.file = some next) := by
  have inv := reachable_inv unforgeable reached
  have within : ∀ p earlier, (p :: earlier) <:+ s.accepted →
      primitives.Distinguishes (hashedRecords (p :: earlier)) := by
    intro p earlier suffix a b first second
    obtain ⟨q, member, row, inside, rfl⟩ := first
    obtain ⟨q', member', row', inside', rfl⟩ := second
    exact free _ _ ⟨q, suffix.subset member, row, inside, rfl⟩
      ⟨q', suffix.subset member', row', inside', rfl⟩
  refine ⟨fun p earlier suffix => inv.accepted p earlier suffix (within p earlier suffix),
    fun kind r member => ?_, fun envelope now persisted reason threw => ingest_throws threw⟩
  unfold current at member
  cases found : s.active.get (config.owner kind) with
  | none =>
    rw [found] at member
    cases member
  | some lease =>
    cases list : lease.payload.records.of kind with
    | none => simp [found, list] at member
    | some rows =>
      refine ⟨lease.payload, inv.leases lease (Table.get_mem found), Table.get_key found, ?_⟩
      exact Records.mem_list.mpr ⟨kind, mem_authorityKinds kind, rows, list, by simpa [found, list] using member⟩

end

/-- A source of every kind. -/
def soleSource : Config String where
  configured := ⟨[⟨"records", "key", authorityKinds⟩], by decide⟩
  disjoint := by decide
  covered kind := ⟨_, List.mem_singleton_self _, mem_authorityKinds kind⟩

/-- An envelope with these users and no other record. -/
def usersOnly (sequence : Int) (challenge : String) (users : List UserRecord) : Payload where
  version := "authority.v1"
  sourceId := "records"
  sequence := sequence
  challenge := challenge
  issuedAt := 1000
  expiresAt := 60000
  records := ⟨some users, some [], some [], some [], some [], some []⟩

def firstUser : Payload := usersOnly 1 "boot" [⟨7, 1, false⟩]

def userGone : Payload := usersOnly 2 "boot" []

/-- The user as it was when it left. -/
def userAsBefore : Payload := usersOnly 3 "boot" [⟨7, 1, false⟩]

def userBack : Payload := usersOnly 3 "again" [⟨7, 2, true⟩]

def signedPayloads : List Payload := [firstUser, userGone, userAsBefore, userBack]

def signature : String :=
  "aaaaaaaaaaaaaaaaaaaaaaaaaaaaaaaaaaaaaaaaaaaaaaaaaaaaaaaaaaaaaaaaaaaaaaaaaaaaaaaaaaaaaa"

/-- Digests that are their own preimages, and the one signature of each envelope signed. -/
def symbolic : Primitives String Value where
  verify key p signed := key = "key" && p ∈ signedPayloads && signed = signature
  digest := id
  byteLength _ := 600

def booted : State Value where
  durable := .empty
  file := none
  closed := false
  boot := "boot"
  active := ∅
  proofs := ∅
  nextProof := 0
  accepted := []
  log := []

theorem booted_initial : (authoritySystem soleSource symbolic).initial booted :=
  ⟨rfl, rfl, rfl, rfl, rfl, rfl, rfl⟩

/-- What the source has signed. -/
def SignedHere (id : String) (p : Payload) : Prop := id = "records" ∧ p ∈ signedPayloads

theorem symbolic_unforgeable : ∀ source ∈ soleSource.configured.rows, ∀ p signature,
    symbolic.verify source.key p signature = true → SignedHere source.id p := by
  intro source member p signature verified
  simp only [symbolic, Bool.and_eq_true, decide_eq_true_eq] at verified
  exact ⟨List.mem_singleton.mp member ▸ rfl, verified.1.2⟩

/-- The user leaves; the old record is refused; after a restart a newer one is accepted. -/
def leaveAndReturn : List Label :=
  [.ingest ⟨firstUser, signature⟩ 2000 .written, .ingest ⟨userGone, signature⟩ 2000 .written,
    .ingest ⟨userAsBefore, signature⟩ 2000 .written, .restart "again",
    .ingest ⟨userBack, signature⟩ 2000 .written]

theorem records_never_roll_back_userBack :
    ∃ s, (authoritySystem soleSource symbolic).exec booted leaveAndReturn = some s ∧
      s.accepted = [userBack, userGone, firstUser] ∧
      (∀ p earlier, (p :: earlier) <:+ [userBack, userGone, firstUser] →
        AcceptedAfter soleSource SignedHere p earlier) ∧
      (∀ r ∈ current soleSource s .users, ∃ p ∈ s.accepted, p.sourceId = "records" ∧ r ∈ p.rows) ∧
      (ingest soleSource symbolic s ⟨userAsBefore, signature⟩ 3000 .written).1.durable = s.durable := by
  have ran : ((authoritySystem soleSource symbolic).exec booted leaveAndReturn).map (fun s =>
      (s.accepted, (ingest soleSource symbolic s ⟨userAsBefore, signature⟩ 3000 .written).2)) =
        some ([userBack, userGone, firstUser], .error .denied) := by decide +kernel
  obtain ⟨s, ran, same⟩ := Option.map_eq_some_iff.mp ran
  obtain ⟨accepted, refused⟩ := Prod.mk.inj same
  have free : symbolic.Distinguishes (hashedRecords s.accepted) := fun a b _ _ equal => equal
  obtain ⟨after, shown, throws⟩ :=
    records_never_roll_back symbolic_unforgeable free ⟨booted, leaveAndReturn, booted_initial, ran⟩
  exact ⟨s, ran, accepted, accepted ▸ after, shown .users, (throws _ _ _ _ refused).1⟩

private def sequences (s : State Value) : Option Int := (s.durable.sources.get "records").map SourceState.sequence

/-- A call that throws after the rename has changed what the next start reads. -/
theorem ingest_throws_after_rename :
    (ingest soleSource symbolic booted ⟨firstUser, signature⟩ 2000 .unsynced).2 = .error .unwritten ∧
    sequences booted = none ∧ ((authoritySystem soleSource symbolic).exec booted
      [.ingest ⟨firstUser, signature⟩ 2000 .unsynced, .restart "again"]).map sequences = some (some 1) := by
  refine ⟨rfl, rfl, ?_⟩
  decide

end ProxyPilot.Authority
