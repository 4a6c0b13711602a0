import ProxyPilot.RestoreDb.Operation

namespace ProxyPilot.RestoreDb

open Data Effects

variable {Db : Type}

section Statements

variable (w : World Db) (p : Plan) (guard : Guard) (d : Dump) (files : String → Option Bytes)

/-- The plan of a restore of an app with this guard. -/
def Plan.guarded : Plan := { p with guard := some guard }

def Plan.mode : Mode := if (p.envCopyName.filter (· ≠ "")).isSome then .recoverySet else .currentConfiguration

/-- The environment file that is in force after the restore. -/
def forceFile : Option Bytes :=
  match p.mode with
  | .recoverySet => (envCopyPath p).bind files
  | .currentConfiguration => files p.environmentFile

/-- The key in force after the restore, as the environment is read. -/
def keyInForce : Option Bytes := do environmentKey (← forceFile p files) (← p.guardKey)

/-- The key that the check reads. -/
def keyChecked : Option Bytes := do keyOf (← forceFile p files) (← p.guardKey)

/-- What the job that recorded the set says the dump hashes to. -/
def recordedHash (originJob : Option OriginJob) : Option String :=
  do (← (← originJob).copies).dumpSha256.filter (· ≠ "")

/-- The hash is the recorded one, and every protected row opens. -/
structure KeysFit (originJob : Option OriginJob) : Prop where
  hash : p.mode = .recoverySet → recordedHash originJob = some (w.platform.sha256 (d.text guard))
  opens : ∀ cells ∈ d.rows, ∀ row, d.protectedRow guard cells = some row →
    Opens w.platform.decrypt (keyInForce p files) guard.legacyDefault row

/-- A hash was recorded, and the rows that the check does not see under the key in force open. -/
structure UnseenFit (originJob : Option OriginJob) : Prop where
  hash : p.mode = .recoverySet → (recordedHash originJob).isSome = true
  opens : ∀ i cells, d.rows[i]? = some cells → ∀ row, d.protectedRow guard cells = some row →
    ¬ (InView guard d i row ∧ keyChecked p files = keyInForce p files) →
      Opens w.platform.decrypt (keyInForce p files) guard.legacyDefault row

/-- The number of boundaries that a run has passed. -/
def passes {α : Type} : EStateM.Result Stop (State Db) α → Nat
  | .ok _ after => after.passed.length
  | .error _ after => after.passed.length

/-- The attempt reaches the step that stops the unit. -/
def Reaches (jobId : String) (reuse : List Reuse) (originJob : Option OriginJob) (s : State Db) : Prop :=
  0 < passes (runRestoreDbOperation w p jobId reuse originJob s)

/-- A guest in which an attempt begins. -/
def startOf (guest : Guest Db) : State Db where
  guest := guest
  calls := 0
  generated := []
  passed := []
  earlier := [guest.database]
  restored := false
  swapped := false

/-- The guest, with the dump under the name that the plan gives. -/
def Guest.withDump (g : Guest Db) (p : Plan) (text : Bytes) : Guest Db :=
  { g with files := fun path => if path = dumpPath p then some text else g.files path }

end Statements

variable {w : World Db} {p : Plan} {guard : Guard} {d : Dump} {originJob : Option OriginJob} {s : State Db}

theorem decoded_encoded {text found : Bytes} (read : decoded (encoded text) = some found) :
    found = text ∧ text ≠ [] := by
  unfold decoded at read
  split at read
  case isTrue => cases read
  case isFalse filled =>
    cases read
    unfold encoded at filled ⊢
    split at filled
    case isTrue => exact absurd rfl filled
    case isFalse there =>
      rw [if_neg there, Base64.decode_encode]
      exact ⟨rfl, there⟩

variable {found : Bytes} {ins : Inspection} {n : Nat} {g : Guest Nat} {text : Bytes}

theorem decoded_key {key : Option Bytes} (read : decoded (encoded (key.getD [])) = some found) :
    key = some found := by
  obtain ⟨same, there⟩ := decoded_encoded read
  cases key with
  | none => exact absurd rfl there
  | some key => rw [same, Option.getD_some]

section Inspections

variable {n : Nat} {g : Guest Db} {text found : Bytes}

theorem parseInspect_dump (there : g.files (dumpPath p) = some text) :
    (parseInspect (inspectScript w p n g)).dump = some (text.length, w.platform.sha256 text) := by
  unfold inspectScript
  rw [there]
  rfl

theorem parseInspect_head (there : g.files (dumpPath p) = some text) :
    (parseInspect (inspectScript w p n g)).head = text.take 600 := by
  rw [← Base64.decode_encode (text.take 600)]
  unfold inspectScript
  rw [there]
  rfl

theorem parseInspect_server : (parseInspect (inspectScript w p n g)).server = some (w.server n) := by
  unfold inspectScript
  generalize g.files (dumpPath p) = dump
  cases dump <;> rfl

theorem parseInspect_block (there : g.files (dumpPath p) = some text) (guarded : p.guard = some guard) :
    (parseInspect (inspectScript w p n g)).copyBlock =
      decoded (encoded (extractBlock guard.schema guard.table text)) := by
  unfold inspectScript guardMarkers
  rw [there, guarded]
  rfl

theorem parseInspect_copy (there : g.files (dumpPath p) = some text) (guarded : p.guard = some guard)
    (read : (parseInspect (inspectScript w p n g)).copyBlock = some found) :
    found = extractBlock guard.schema guard.table text := by
  rw [parseInspect_block there guarded] at read
  exact (decoded_encoded read).1

theorem parseInspect_current (guarded : p.guard = some guard)
    (read : (parseInspect (inspectScript w p n g)).keyCurrent = some found) :
    ∃ name, p.guardKey = some name ∧ (g.files p.environmentFile).bind (keyOf · name) = some found := by
  unfold inspectScript guardMarkers copyMarkers at read
  rw [guarded] at read
  cases named : p.guardKey with
  | none =>
    rw [named] at read
    generalize g.files (dumpPath p) = dump at read
    generalize envCopyPath p = path at read
    cases dump <;> cases path <;> cases read
  | some name =>
    rw [named] at read
    refine ⟨name, rfl, decoded_key ?_⟩
    rw [← read]
    generalize g.files (dumpPath p) = dump
    cases dump <;> rfl

theorem parseInspect_copyKey (guarded : p.guard = some guard)
    (read : (parseInspect (inspectScript w p n g)).keyCopy = some found) :
    ∃ name path, p.guardKey = some name ∧ envCopyPath p = some path ∧
      (g.files path).bind (keyOf · name) = some found := by
  unfold inspectScript guardMarkers copyMarkers at read
  rw [guarded] at read
  cases named : p.guardKey with
  | none =>
    rw [named] at read
    generalize g.files (dumpPath p) = dump at read
    generalize envCopyPath p = path at read
    cases dump <;> cases path <;> cases read
  | some name =>
    cases copied : envCopyPath p with
    | none =>
      rw [named, copied] at read
      generalize g.files (dumpPath p) = dump at read
      cases dump <;> cases read
    | some path =>
      cases there : g.files path with
      | none =>
        rw [named, copied] at read
        dsimp only at read
        rw [there] at read
        generalize g.files (dumpPath p) = dump at read
        cases dump <;> cases read
      | some copy =>
        refine ⟨name, path, rfl, rfl, ?_⟩
        rw [there, Option.bind_some]
        refine decoded_key ?_
        rw [← read, named, copied]
        dsimp only
        rw [there]
        generalize g.files (dumpPath p) = dump
        cases dump <;> rfl

end Inspections

variable {binding : Binding} {compatibility : Compatibility} {reuse : List Reuse} {jobId : String}

theorem bindRecoverySet_ok {app dumpName : String} {envCopyName : Option String}
    (bound : bindRecoverySet app dumpName envCopyName originJob = .ok binding) :
    (binding.mode = .recoverySet ↔ (envCopyName.filter (· ≠ "")).isSome = true) ∧
      (binding.mode = .recoverySet → binding.expectedSha256 = recordedHash originJob) := by
  unfold bindRecoverySet at bound
  split at bound
  · cases bound
  · split at bound
    case h_1 none =>
      cases bound
      rw [none]
      exact ⟨⟨fun same => (nomatch same), fun some => (nomatch some)⟩, fun same => (nomatch same)⟩
    case h_2 named =>
      rw [named]
      split at bound
      · cases bound
      · split at bound
        · cases bound
        · split at bound
          · cases bound
          · split at bound
            · cases bound
            · rename_i job _ _ copies recorded
              split at bound
              · cases bound
              · cases bound
                refine ⟨⟨fun _ => rfl, fun _ => rfl⟩, fun _ => ?_⟩
                unfold recordedHash
                rw [Option.bind_eq_bind, Option.bind_some, recorded]
                rfl

theorem refuse_bind_ok {α : Type} {holds : Bool} {step error : String} {next : Unit → Except Refusal α} {a : α} :
    (refuse holds step error >>= next) = .ok a ↔ holds = false ∧ next () = .ok a := by
  cases holds with
  | true => exact ⟨fun same => (nomatch same), fun both => (nomatch both.1)⟩
  | false => exact ⟨fun same => ⟨rfl, same⟩, fun both => both.2⟩

theorem checkInspection_ok (guarded : p.guard = some guard)
    (checked : checkInspection w p binding ins = .ok compatibility) :
    (∃ bytes sha256, ins.dump = some (bytes, sha256) ∧
      ∀ expected, binding.expectedSha256 = some expected → expected = sha256) ∧
      establish w p guard binding ins = .ok compatibility := by
  unfold checkInspection at checked
  split at checked
  case h_1 => cases checked
  case h_2 bytes sha256 dump =>
    obtain ⟨hash, checked⟩ := refuse_bind_ok.mp checked
    split at checked
    · cases checked
    · obtain ⟨-, checked⟩ := refuse_bind_ok.mp checked
      obtain ⟨-, checked⟩ := refuse_bind_ok.mp checked
      obtain ⟨-, checked⟩ := refuse_bind_ok.mp checked
      rw [guarded] at checked
      refine ⟨⟨bytes, sha256, dump, fun expected named => ?_⟩, checked⟩
      rw [named] at hash
      simpa using hash

theorem establish_ok (established : establish w p guard binding ins = .ok compatibility) :
    ∃ block, ins.copyBlock = some block ∧
      ∀ row ∈ (parseCopyRows block guard.secretColumn guard.nonceColumn).rows, row.ciphertext ≠ [] →
      Opens w.platform.decrypt (if binding.mode = .recoverySet then ins.keyCopy
        else ins.keyCurrent) guard.legacyDefault row := by
  unfold establish at established
  split at established
  case h_1 => cases established
  case h_2 block copied =>
    dsimp only at established
    generalize (if binding.mode = .recoverySet then ins.keyCopy else ins.keyCurrent) = key at established ⊢
    split at established
    case isTrue => cases established
    case isFalse =>
      split at established
      case isTrue => cases established
      case isFalse verdict =>
        exact ⟨block, copied, compatibilityVerdict_opens (by simpa using verdict)⟩

/-- What holds of the files where the attempt goes past its checks. -/
def Established (w : World Db) (p : Plan) (originJob : Option OriginJob) (files : String → Option Bytes) : Prop :=
  ∃ binding compatibility n g, g.files = files ∧
    bindRecoverySet p.container p.dumpName p.envCopyName originJob = .ok binding ∧
    checkInspection w p binding (parseInspect (inspectScript w p n g)) = .ok compatibility

theorem protectedRow_filled {cells : List (Option Bytes)} {row : Row}
    (is : d.protectedRow guard cells = some row) : row.ciphertext ≠ [] := by
  unfold Dump.protectedRow at is
  split at is
  · split at is
    case isTrue filled =>
      cases is
      exact filled.1
    case isFalse => cases is
  · cases is

theorem keyChecked_of_read {g : Guest Db} (guarded : p.guard = some guard)
    (mode : binding.mode = .recoverySet ↔ (p.envCopyName.filter (· ≠ "")).isSome = true)
    (read : (if binding.mode = .recoverySet then (parseInspect (inspectScript w p n g)).keyCopy
    else (parseInspect (inspectScript w p n g)).keyCurrent) = some found) :
    keyChecked p g.files = some found := by
  unfold keyChecked forceFile Plan.mode
  split at read
  case isTrue set =>
    obtain ⟨name, path, named, copied, key⟩ := parseInspect_copyKey guarded read
    rw [if_pos (mode.mp set), named, copied]
    obtain ⟨copy, there, same⟩ := Option.bind_eq_some_iff.mp key
    simp only [Option.bind_some, there, Option.bind_eq_bind, same]
  case isFalse current =>
    obtain ⟨name, named, key⟩ := parseInspect_current guarded read
    rw [if_neg fun set => current (mode.mpr set), named]
    obtain ⟨file, there, same⟩ := Option.bind_eq_some_iff.mp key
    simp only [there, Option.bind_eq_bind, Option.bind_some, same]

/-- Past the checks, the keys fit if and only if they fit what the checks do not see. -/
theorem established_fit {files : String → Option Bytes} (guarded : p.guard = some guard)
    (there : files (dumpPath p) = some (d.text guard))
    (established : Established w p originJob files) : KeysFit w p guard d files originJob ↔
    UnseenFit w p guard d files originJob := by
  obtain ⟨binding, compatibility, n, g, rfl, bound, checked⟩ := established
  obtain ⟨mode, recorded⟩ := bindRecoverySet_ok bound
  obtain ⟨⟨bytes, sha256, dump, hash⟩, established⟩ := checkInspection_ok guarded checked
  have isSet : p.mode = .recoverySet → binding.mode = .recoverySet := fun set => mode.mpr (by
    unfold Plan.mode at set
    split at set
    · assumption
    · cases set)
  constructor
  · intro fit
    exact ⟨fun set =>
      by rw [fit.hash
      set]; rfl, fun i cells member row is _ => fit.opens cells (List.mem_of_getElem? member) row is⟩
  · intro fit
    refine ⟨fun set => ?_, fun cells member row is => ?_⟩
    · obtain ⟨sha, known⟩ := Option.isSome_iff_exists.mp (fit.hash set)
      have same := hash sha ((recorded (isSet set)).trans known)
      rw [parseInspect_dump there] at dump
      cases dump
      rw [known, same]
    · obtain ⟨i, inside⟩ := List.getElem?_of_mem member
      by_cases seen : InView guard d i row ∧ keyChecked p g.files = keyInForce p g.files
      · obtain ⟨block, copied, opens⟩ := establish_ok established
        rw [parseInspect_copy there guarded copied] at opens
        rcases opens row (row_seen inside is seen.1).2 (protectedRow_filled is) with ⟨key, read, opened⟩ | legacy
        · exact .inl ⟨key, by rw [← seen.2, keyChecked_of_read guarded mode read], opened⟩
        · exact .inr legacy
      · exact fit.opens i cells inside row is seen

/-- What follows the inspection keeps what the inspection establishes. -/
theorem inspected_established (jobId : String) (reuse : List Reuse) (binding : Binding)
    (markers : List Marker) {counted : State Db} {established : Prop}
    (same : counted.passed = [])
    (checked : ∀ compatibility, checkInspection w p binding (parseInspect markers) =
    .ok compatibility → established) :
    Leads (match checkInspection w p binding (parseInspect markers) with
      | .error refusal => pure (.error (fail w refusal.step refusal.error))
      | .ok compatibility =>
        protectAndRestore w p jobId reuse binding compatibility (parseInspect markers).unitActive) counted
      (fun _ after => after.passed ≠ [] → established) fun _ after => after.passed ≠ [] → established := by
  split
  case h_1 => exact leads_pure.mpr fun passed => absurd same passed
  case h_2 compatibility ok =>
    exact (leads_always (checked compatibility ok)).mono (fun _ _ now _ => now) fun _ _ now _ => now

/-- An attempt passes its boundary only where its checks establish what they check. -/
theorem run_established (fresh : s.passed = []) :
    Leads (runRestoreDbOperation w p jobId reuse originJob) s (fun _ after => after.passed ≠ [] →
      Established w p originJob s.guest.files)
      fun _ after => after.passed ≠ [] → Established w p originJob s.guest.files := by
  have stays {after : State Db} {holds : Prop} (same : after.passed = []) :
      after.passed ≠ [] → holds := fun passed => absurd same passed
  unfold runRestoreDbOperation
  split
  case h_1 => exact leads_pure.mpr (stays fresh)
  case h_2 binding bound =>
    split
    case isTrue => exact leads_throw.mpr (stays fresh)
    case isFalse =>
      refine leads_bind.mpr (leads_guest (fun _ => stays fresh) ?_ ?_)
      · rintro counted rfl
        have same : (s.write (w.written s.calls)).passed = [] := by rw [State.write_passed, fresh]
        exact ⟨inspected_established jobId reuse binding [] same
          (fun _ checked => by cases checked), fun _ => stays same⟩
      · rintro counted rfl
        have same : (s.write (w.written s.calls)).passed = [] := by rw [State.write_passed, fresh]
        exact ⟨fun _ => inspected_established jobId reuse binding _ same fun compatibility ok =>
          ⟨binding, compatibility, s.calls, _, State.write_files s _, bound, ok⟩,
          fun _ =>
            inspected_established jobId reuse binding [] same (fun _ checked => by cases checked),
            fun _ => stays same⟩

theorem reaches_established (fresh : s.passed = []) (reaches : Reaches w p jobId reuse originJob s) :
    Established w p originJob s.guest.files := by
  have run : Leads (runRestoreDbOperation w p jobId reuse originJob) s
      (fun _ after => after.passed ≠ [] → Established w p originJob s.guest.files)
      fun _ after => after.passed ≠ [] → Established w p originJob s.guest.files := run_established fresh
  unfold Reaches at reaches
  unfold Leads at run
  cases ended : runRestoreDbOperation w p jobId reuse originJob s with
  | ok result after =>
    rw [ended] at run reaches
    exact run (List.ne_nil_of_length_pos reaches)
  | error stop after =>
    rw [ended] at run reaches
    exact run (List.ne_nil_of_length_pos reaches)

/-- An attempt that reaches the step that stops the unit starts with keys that fit if and
only if they fit the rows that its check does not see, and a hash was recorded. -/
theorem keys_fit_iff (w : World Db) (plan : Plan) (guard : Guard) (d : Dump) (g : Guest Db)
    (jobId : String) (reuse : List Reuse) (originJob : Option OriginJob) :
    (Reaches w (plan.guarded guard) jobId reuse originJob (startOf (g.withDump plan (d.text guard))) →
        KeysFit w (plan.guarded guard) guard d (g.withDump plan (d.text guard)).files originJob) ↔
      (Reaches w (plan.guarded guard) jobId reuse originJob (startOf (g.withDump plan (d.text guard))) →
        UnseenFit w (plan.guarded guard) guard d (g.withDump plan (d.text guard)).files originJob) := by
  refine forall_congr' fun reaches => established_fit rfl (if_pos rfl) ?_
  exact reaches_established rfl reaches

def longGuard : Guard where
  schema := ascii "public"
  table := ascii "auth_connections"
  secretColumn := ascii "secret"
  nonceColumn := ascii "nonce"
  legacyDefault := none

/-- A first row without a secret and with a note of 4 MiB, and a second one whose secret
no key opens. -/
def longDump : Dump where
  before := ascii "--\n-- PostgreSQL database dump\n--\n\n"
  ended := .inr ⟨ascii "--\n-- PostgreSQL database dump\n--\n", rfl⟩
  quotedSchema := false
  quotedTable := false
  columns := [⟨ascii "secret", false⟩, ⟨ascii "nonce", false⟩, ⟨ascii "note", false⟩]
  rows := [[none, none, some (.replicate 4194304 120)], [some (ascii "AAAA"), some (ascii "AAAA"), none]]
  widths := by decide +kernel
  after := []

def longPlan : Plan where
  container := "pp-x"
  dumpsDir := "/var/backups/proxypilot-db"
  dumpName := "app-mcp-1.sql"
  envCopyName := none
  environmentFile := "/etc/environment"
  unit := "mock2-dev.service"
  webPort := 3000
  guard := none
  guardKey := some (ascii "AUTH_MASTER_SECRET")
  foundation := false

def calmWorld : World Nat where
  platform := {
    sha256 := fun content => toString content.length ++ "x"
    digits := by simp
    pgDump := fun n => [UInt8.ofNat n]
    decrypt := fun _ _ _ => none
    sanitizeReason := fun _ reason => reason }
  fence := fun _ => .ok ()
  fate := fun _ => .ran
  written := fun _ n => n
  captures := fun _ => true
  server := fun _ => ascii "15.4"
  psql := fun _ n => (n, 0)
  errors := fun _ => 0
  starts := fun _ => true
  probe := fun _ => "200"
  event := fun _ => .ok ()
  record := fun _ => (true, none)

def calmGuest : Guest Nat where
  files := fun path => if path = "/etc/environment" then some (ascii "AUTH_MASTER_SECRET=key\n") else none
  database := 7
  active := true

/-- What comes before the note. -/
def longFront : Bytes := copyHeader longGuard longDump ++ [newline] ++ null ++ [tab] ++ null ++ [tab]

/-- What is read off the texts of the dump. -/
theorem longDump_texts :
    (newline ∉ copyHeader longGuard longDump ∧
      (copyStart longGuard.schema longGuard.table).isPrefixOf (copyHeader longGuard longDump) = true ∧
      ∀ line ∈ records longDump.before, (copyStart longGuard.schema longGuard.table).isPrefixOf line = false) ∧
    longFront.length ≤ extractionLimit ∧
    (ascii "COPY ").isPrefixOf (copyHeader longGuard longDump) = true ∧
    copyColumns (copyHeader longGuard longDump) = some (ascii "secret, nonce, note") ∧
    (columnNames (ascii "secret, nonce, note")).idxOf? longGuard.secretColumn = some 0 ∧
    (columnNames (ascii "secret, nonce, note")).idxOf? longGuard.nonceColumn = some 1 ∧
    longDump.protectedRow longGuard [some (ascii "AAAA"), some (ascii "AAAA"), none] =
      some { ciphertext := ascii "AAAA", nonce := ascii "AAAA" } ∧
    (match dumpHeaderVerdict ((longDump.text longGuard).take 600) with | .ok from_ => from_ == none | .error _ => false) = true := by
  decide +kernel

theorem longDump_found : Found longGuard longDump where
  oneLine := longDump_texts.1.1
  named := longDump_texts.1.2.1
  first := longDump_texts.1.2.2

/-- What the extraction keeps of the first row. -/
def longRow (n : Nat) : Bytes := null ++ tab :: (null ++ tab :: List.replicate n 120)

theorem not_mem_note {b : UInt8} (other : b ≠ 120) : b ∉ List.replicate n (120 : UInt8) :=
  fun member => other (List.eq_of_mem_replicate member)

theorem longDump_row : rowLine [none, none, some (List.replicate 4194304 120)] = longRow 4194304 := by
  have plain : Plain (List.replicate 4194304 120) := fun b member => by
    rw [List.eq_of_mem_replicate member]
    rfl
  unfold rowLine
  rw [List.map_cons, List.map_cons, List.map_singleton, List.intercalate_cons_cons,
    List.intercalate_cons_cons, List.intercalate_singleton,
    plain_field plain]
  simp only [copyField, longRow, List.append_assoc, List.singleton_append]

theorem longDump_extracted :
    ∃ n, extractBlock longGuard.schema longGuard.table (longDump.text longGuard) =
      unlines [copyHeader longGuard longDump] ++ longRow n := by
  have block : unlines (blockLines longGuard longDump) =
      longFront ++
        (List.replicate 4194304 120 ++ ([newline] ++ unlines ((blockLines longGuard longDump).drop 2))) := by
    show unlines (copyHeader longGuard longDump :: rowLine [none, none,
        some (List.replicate 4194304 120)] :: (blockLines longGuard longDump).drop 2) = _
    rw [longDump_row]
    simp only [unlines, List.flatMap_cons, longRow, longFront, List.append_assoc, List.cons_append, List.nil_append]
  have short : longFront.length ≤ extractionLimit := longDump_texts.2.1
  have rest : extractionLimit - longFront.length ≤ 4194304 := Nat.sub_le _ _
  refine ⟨extractionLimit - longFront.length, ?_⟩
  rw [extractBlock_text longDump_found, block, List.take_append, List.take_of_length_le short,
    List.take_append_of_le_length (by rwa [List.length_replicate]),
    List.take_replicate, Nat.min_eq_left rest]
  simp only [unlines, List.flatMap_cons, List.flatMap_nil, longRow, longFront, List.append_assoc,
    List.cons_append, List.nil_append]

theorem longRow_unread (n : Nat) : rowOf 0 1 (longRow n) = none := by
  have fields : (longRow n).splitOn tab = [null, null, List.replicate n 120] := by
    unfold longRow
    rw [List.splitOn_append_cons_self_of_not_mem (by decide), List.splitOn_append_cons_self_of_not_mem (by decide),
      List.splitOn_eq_singleton (not_mem_note (by decide))]
  unfold rowOf
  rw [fields]
  rfl

theorem longDump_parsed (n : Nat) :
    parseCopyRows (unlines [copyHeader longGuard longDump] ++ longRow n) longGuard.secretColumn
      longGuard.nonceColumn =
      { rows := [], found := true, reason := "0 protected row(s) in the dump" } := by
  have whole : newline ∉ longRow n := by
    intro member
    rcases List.mem_append.mp member with front | later
    · exact absurd front (by decide)
    · rcases List.mem_cons.mp later with same | later
      · cases same
      · rcases List.mem_append.mp later with front | later
        · exact absurd front (by decide)
        · rcases List.mem_cons.mp later with same | note
          · cases same
          · exact not_mem_note (by decide) note
  have lines : ∀ line ∈ [copyHeader longGuard longDump], newline ∉ line :=
    fun line member => List.mem_singleton.mp member ▸ longDump_found.oneLine
  unfold parseCopyRows
  rw [splitOn_unlines lines, List.splitOn_eq_singleton whole, List.singleton_append]
  obtain ⟨-, -, head, columns, secret, nonce, -⟩ := longDump_texts
  rw [List.dropWhile_cons_of_neg (by rw [head]; exact Bool.false_ne_true)]
  dsimp only
  rw [columns]
  dsimp only
  rw [secret, nonce]
  dsimp only
  have rows : copyRows 0 1 [longRow n] = [] := by
    have line : longRow n ≠ terminator := fun same => by cases same
    have filled : longRow n ≠ [] := fun same => by cases same
    rw [copyRows, if_neg line, if_neg filled, longRow_unread]
    rfl
  rw [rows]
  rfl

theorem longDump_head : dumpHeaderVerdict ((longDump.text longGuard).take 600) = .ok none := by
  obtain ⟨-, -, -, -, -, -, -, read⟩ := longDump_texts
  cases verdict : dumpHeaderVerdict ((longDump.text longGuard).take 600) with
  | error reason =>
    rw [verdict] at read
    cases read
  | ok from_ =>
    rw [verdict] at read
    rw [beq_iff_eq.mp read]

def longBinding : Binding := { mode := .currentConfiguration, origin := none, expectedSha256 := none }

abbrev longGuest : Guest Nat := calmGuest.withDump longPlan (longDump.text longGuard)

def unseen : Compatibility :=
  { established := true, detail := "the dump carries no protected credential rows", classification := some .empty }

/-- What the operation makes of the plan. -/
theorem longPlan_runs :
    dumpNameOk (longPlan.guarded longGuard).dumpName = true ∧ scriptRefused (longPlan.guarded longGuard) = false ∧
    (some (ascii "15.4") == some (ascii "nopsql")) = false ∧
    ∀ wasActive,
      passes (protectAndRestore calmWorld (longPlan.guarded longGuard) "restore-1" [] longBinding unseen wasActive
      { (startOf longGuest).write (calmWorld.written 0) with calls := 1 }) = 1 := by
  decide +kernel

theorem decoded_copy {text rest : Bytes} (copy : text = 67 :: 79 :: 80 :: rest) :
    decoded (encoded text) = some text := by
  have filled : text ≠ [] := fun empty => by
    rw [copy] at empty
    cases empty
  have coded : Base64.encode text ≠ ascii "none" := fun same => by
    rw [copy] at same
    cases same
  unfold decoded encoded
  rw [if_neg filled, if_neg coded, Base64.decode_encode]

theorem longDump_copied (n : Nat) (there : g.files (dumpPath (longPlan.guarded longGuard)) = some text)
    (same : text = longDump.text longGuard) :
    ∃ rows, (parseInspect (inspectScript calmWorld (longPlan.guarded longGuard) n g)).copyBlock =
      some (unlines [copyHeader longGuard longDump] ++ longRow rows) := by
  obtain ⟨rows, extracted⟩ := longDump_extracted
  have copy : unlines [copyHeader longGuard longDump] ++ longRow rows = 67 :: 79 :: 80 ::
      ((unlines [copyHeader longGuard longDump] ++ longRow rows).drop 3) := rfl
  refine ⟨rows, ?_⟩
  rw [parseInspect_block there (show (longPlan.guarded longGuard).guard = some longGuard from rfl),
    same, extracted, decoded_copy copy]

/-- The check finds no protected row in the dump. -/
theorem longDump_checked (n : Nat) (there : g.files (dumpPath (longPlan.guarded longGuard)) = some text)
    (same : text = longDump.text longGuard) :
    checkInspection calmWorld (longPlan.guarded longGuard) longBinding
      (parseInspect (inspectScript calmWorld (longPlan.guarded longGuard) n g)) = .ok unseen := by
  obtain ⟨rows, copied⟩ := longDump_copied n there same
  have established : establish calmWorld (longPlan.guarded longGuard) longGuard longBinding
      (parseInspect (inspectScript calmWorld (longPlan.guarded longGuard) n g)) = .ok unseen := by
    unfold establish
    rw [copied]
    dsimp only
    rw [longDump_parsed]
    rfl
  unfold checkInspection
  rw [parseInspect_dump there]
  dsimp only
  refine refuse_bind_ok.mpr ⟨rfl, ?_⟩
  rw [parseInspect_head there, same, longDump_head]
  refine refuse_bind_ok.mpr ⟨rfl, refuse_bind_ok.mpr ⟨?_, refuse_bind_ok.mpr ⟨rfl, established⟩⟩⟩
  rw [parseInspect_server]
  exact longPlan_runs.2.2.1

/-- A run whose checks pass goes on to the copies. -/
theorem run_checked
    (bound : bindRecoverySet p.container p.dumpName p.envCopyName originJob = .ok binding)
    (plain : scriptRefused p = false)
    (fenced : w.fence s.calls = .ok ()) (ran : w.fate s.calls = .ran)
    (checked : checkInspection w p binding
    (parseInspect (inspectScript w p s.calls (s.write (w.written s.calls)).guest)) = .ok compatibility) :
    runRestoreDbOperation w p jobId reuse originJob s =
      protectAndRestore w p jobId reuse binding compatibility
        (parseInspect (inspectScript w p s.calls (s.write (w.written s.calls)).guest)).unitActive
        { s.write (w.written s.calls) with calls := s.calls + 1 } := by
  have called : RestoreDb.guest w (fun n s => (inspectScript w p n s.guest, s)) [] s =
      .ok (inspectScript w p s.calls (s.write (w.written s.calls)).guest)
        { s.write (w.written s.calls) with calls := s.calls + 1 } := by
    show EStateM.bind (fence w) (fun _ => script w _ []) s = _
    unfold EStateM.bind fence script
    rw [fenced]
    dsimp only
    rw [ran]
  unfold runRestoreDbOperation
  rw [bound]
  dsimp only
  rw [plain, if_neg Bool.false_ne_true]
  show EStateM.bind _ _ s = _
  unfold EStateM.bind
  rw [called]
  dsimp only
  rw [checked]

theorem longDump_bound :
    bindRecoverySet (longPlan.guarded longGuard).container (longPlan.guarded longGuard).dumpName
      (longPlan.guarded longGuard).envCopyName none = .ok longBinding := by
  unfold bindRecoverySet
  rw [longPlan_runs.1]
  rfl

theorem withDump_files (g : Guest Db) (p : Plan) (text : Bytes) :
    (startOf (g.withDump p text)).guest.files (dumpPath p) = some text := if_pos rfl

theorem longDump_reaches :
    Reaches calmWorld (longPlan.guarded longGuard) "restore-1" [] none (startOf longGuest) := by
  have there : ((startOf longGuest).write (calmWorld.written 0)).guest.files
      (dumpPath (longPlan.guarded longGuard)) = some (longDump.text longGuard) := by
    rw [State.write_files]
    exact withDump_files calmGuest longPlan (longDump.text longGuard)
  unfold Reaches
  rw [run_checked longDump_bound longPlan_runs.2.1 rfl rfl (longDump_checked 0 there rfl)]
  exact Nat.lt_of_lt_of_eq Nat.zero_lt_one (longPlan_runs.2.2.2 _).symm

theorem calm_unopened (key : Option Bytes) (row : Row) :
    ¬ Opens calmWorld.platform.decrypt key longGuard.legacyDefault row := by
  rintro (⟨_, _, opened⟩ | ⟨_, legacy, _⟩)
  · cases opened
  · cases legacy

theorem longDump_unfit (files : String → Option Bytes) :
    ¬ KeysFit calmWorld (longPlan.guarded longGuard) longGuard longDump files none := by
  intro fit
  have second : [some (ascii "AAAA"), some (ascii "AAAA"), none] ∈ longDump.rows := by
    unfold longDump
    exact List.mem_cons_of_mem _ List.mem_cons_self
  obtain ⟨-, -, -, -, -, -, row, -⟩ := longDump_texts
  exact calm_unopened _ _ (fit.opens _ second _ row)

/-- The restore of the dump reaches the stop of the unit although a row of the table opens
under no key: the note of another row fills the extraction. -/
theorem long_dump_unopened :
    Reaches calmWorld (longPlan.guarded longGuard) "restore-1" [] none (startOf longGuest) ∧
      ¬ KeysFit calmWorld (longPlan.guarded longGuard) longGuard longDump longGuest.files none :=
  ⟨longDump_reaches, longDump_unfit _⟩

end ProxyPilot.RestoreDb
