import ProxyPilot.Authority.State

namespace ProxyPilot.Authority

open Broker Data Versions Transition

variable {Key Digest : Type} [DecidableEq Digest] (config : Config Key) (primitives : Primitives Key Digest)

inductive Effect (s : State Digest) : State Digest → Prop where
  | refused : Effect s s
  | unwritten : Effect s { s with active := ∅ }
  | unaccepted {envelope now next} (admitted : admits config primitives s envelope now = .ok next) :
      Effect s { s with file := some next, active := ∅ }
  | accepted {envelope now next} (admitted : admits config primitives s envelope now = .ok next) :
      Effect s { s with file := some next, durable := next, active := s.active.put ⟨envelope.payload⟩
                        accepted := envelope.payload :: s.accepted }
  | reserved {task workloadId now} (found : getTask config s task.id = some task)
      (fresh : s.durable.issuedTasks.get task.epoch = none) :
      Effect s { s with file := some (s.durable.reserve (reservation config primitives s task workloadId now)), active := ∅
                        log := .reserved (reservation config primitives s task workloadId now)
                          (taskAuthority config s task) :: s.log }
  | issued {task workloadId now} (found : getTask config s task.id = some task)
      (fresh : s.durable.issuedTasks.get task.epoch = none) (principal : Principal) :
      Effect s { s with file := some (s.durable.reserve (reservation config primitives s task workloadId now))
                        durable := s.durable.reserve (reservation config primitives s task workloadId now)
                        proofs := s.proofs.put ⟨s.nextProof, principal⟩, nextProof := s.nextProof + 1
                        log := .issued task.epoch s.nextProof ::
                          .reserved (reservation config primitives s task workloadId now)
                            (taskAuthority config s task) :: s.log }
  | unended {key} : Effect s { s with file := some (s.durable.endTask key), active := ∅ }
  | ended {key} :
      Effect s { s with file := some (s.durable.endTask key), durable := s.durable.endTask key
                        log := .ended key :: s.log }
  | consumed {proof} : Effect s { s with proofs := s.proofs.erase proof }
  | authenticated {proof held} (found : s.proofs.get proof = some held) :
      Effect s { s with proofs := s.proofs.erase proof, log := .authenticated proof :: s.log }
  | closed : Effect s (close s)
  | restarted {durable boot} (loaded : load config s.file = some durable) :
      Effect s { s with durable, closed := false, boot, active := ∅, proofs := ∅ }

variable {config primitives} {s s' : State Digest}

theorem ingest_effect (envelope : Envelope) (now : Time) (persisted : Persisted) :
    Effect config primitives s (ingest config primitives s envelope now persisted).1 := by
  unfold ingest
  cases admitted : admits config primitives s envelope now with
  | error reason => exact .refused
  | ok next =>
    cases persisted with
    | unwritten => exact .unwritten
    | unsynced => exact .unaccepted admitted
    | written => exact .accepted admitted

omit [DecidableEq Digest] in
theorem getTask_id {id : Uuid} {task : TaskRecord} (found : getTask config s id = some task) : task.id = id := by
  simpa using List.find?_some found

omit [DecidableEq Digest] in
/-- A task that may have a proof is the one the request names, and has not ended. -/
theorem issuable_ok {workloadId : Uuid} {r : WorkloadRequest} {task : TaskRecord}
    (issuable : issuable config s workloadId r = some task) :
    getTask config s task.id = some task ∧ task.epoch = ⟨r.taskId, r.attempt, r.fence⟩ ∧ ended s task.epoch = false := by
  obtain ⟨found, checks⟩ := Option.filter_eq_some_iff.mp issuable
  simp only [Bool.and_eq_true, decide_eq_true_eq, Bool.not_eq_true'] at checks
  obtain ⟨⟨⟨⟨⟨⟨⟨_, open_⟩, attempt⟩, fence⟩, _⟩, _⟩, _⟩, _⟩ := checks
  have id := getTask_id found
  exact ⟨id ▸ found, by rw [TaskRecord.epoch, id, attempt, fence], open_⟩

theorem issueWorkloadProof_effect (workloadId : Uuid) (r : WorkloadRequest) (now : Time) (persisted : Persisted) :
    Effect config primitives s (issueWorkloadProof config primitives s workloadId r now persisted).1 := by
  unfold issueWorkloadProof
  split
  · exact .refused
  · split
    · exact .refused
    · cases issuable : issuable config s workloadId r with
      | none => exact .refused
      | some task =>
        dsimp only
        split
        · exact .refused
        case isFalse unissued =>
          have found := (issuable_ok issuable).1
          have fresh : s.durable.issuedTasks.get task.epoch = none := by simpa using unissued
          cases persisted with
          | unwritten => exact .unwritten
          | unsynced => exact .reserved found fresh
          | written => exact .issued found fresh _

theorem authenticate_effect (proof : Nat) (now : Time) :
    Effect config primitives s (authenticate config s proof now).1 := by
  unfold authenticate
  split
  · exact .refused
  · cases found : s.proofs.get proof with
    | none => exact .refused
    | some held =>
      dsimp only
      cases principal config { s with proofs := s.proofs.erase proof } held.principal now with
      | error reason => exact .consumed
      | ok p => exact .authenticated found

theorem endTask_effect (workloadId : Uuid) (key : TaskKey) (now : Time) (persisted : Persisted) :
    Effect config primitives s (endTask config s workloadId key now persisted).1 := by
  unfold endTask
  split
  · exact .refused
  · dsimp only
    split
    · exact .refused
    · cases persisted with
      | unwritten => exact .unwritten
      | unsynced => exact .unended
      | written => exact .ended

theorem step_effect {label : Label} (moved : step config primitives s label = some s') :
    Effect config primitives s s' := by
  cases label with
  | ingest envelope now persisted => cases moved; exact ingest_effect envelope now persisted
  | issueWorkloadProof workloadId request now persisted =>
    cases moved
    exact issueWorkloadProof_effect workloadId request now persisted
  | authenticate proof now => cases moved; exact authenticate_effect proof now
  | identityAnswered answer now => cases moved; exact .refused
  | endTask workloadId key now persisted => cases moved; exact endTask_effect workloadId key now persisted
  | eligible session now => cases moved; exact .refused
  | close => cases moved; exact .closed
  | restart boot =>
    obtain ⟨durable, loaded, rfl⟩ := Option.map_eq_some_iff.mp moved
    exact .restarted loaded

omit [DecidableEq Digest] in
theorem load_eq {file : Option (Durable Digest)} {durable : Durable Digest}
    (loaded : load config file = some durable) :
    durable = file.getD .empty := by
  cases file with
  | none => exact (Option.some.inj loaded).symm
  | some stored =>
    simp only [load, Option.ite_none_right_eq_some] at loaded
    exact (Option.some.inj loaded.2).symm

/-- What `ingest` has checked of the envelope when it gets to `persist`. -/
theorem admits_ok {envelope : Envelope} {now : Time} {next : Durable Digest}
    (admitted : admits config primitives s envelope now = .ok next) :
    ∃ source floors, config.configured.get envelope.payload.sourceId = some source ∧
      primitives.verify source.key envelope.payload envelope.signature = true ∧
      (∀ prior, s.durable.sources.get source.id = some prior → prior.sequence < envelope.payload.sequence) ∧
      envelope.payload.records.valid source.kinds = true ∧
      (versioning primitives).advance (((s.durable.sources.get source.id).map SourceState.floors).getD ∅)
        (envelope.payload.records.list source.kinds) = some floors ∧
      next = s.durable.accept ⟨source.id, envelope.payload.sequence, floors⟩ := by
  unfold admits at admitted
  dsimp only at admitted
  split at admitted
  · contradiction
  · split at admitted
    · contradiction
    · cases found : config.configured.get envelope.payload.sourceId with
      | none => simp [found] at admitted
      | some source =>
        simp only [found] at admitted
        split at admitted
        · contradiction
        · split at admitted
          · contradiction
          · split at admitted
            · contradiction
            case isFalse verified =>
              split at admitted
              · contradiction
              case isFalse newer =>
                split at admitted
                · contradiction
                case isFalse valid =>
                  split at admitted
                  · contradiction
                  case h_2 floors advance =>
                    cases admitted
                    refine ⟨source, floors, rfl, ?_, fun prior stored => ?_, by simpa using valid, advance, rfl⟩
                    · simp only [Bool.not_eq_true', Bool.not_eq_false, Bool.and_eq_true] at verified
                      exact verified.2
                    · simpa [stored] using newer

end ProxyPilot.Authority
