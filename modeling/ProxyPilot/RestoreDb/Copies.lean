import ProxyPilot.RestoreDb.Keys

namespace ProxyPilot.RestoreDb

open Data Effects

variable {Db : Type}

section Statements

variable (platform : Platform Db) (p : Plan) (start : Guest Db)

/-- The dump is what was recorded and from before the first restore, and the copy is the
environment file that the chain began with. -/
structure Originals (earlier : List Db) (prot : Protected) (g : Guest Db) : Prop where
  dump : ∃ content, g.files prot.dbDump.path = some content ∧ prot.dbDump.bytes = content.length ∧
    prot.dbDump.sha256 = platform.sha256 content ∧ ∃ database ∈ earlier, content = platform.pgDump database
  environment : ∃ content, g.files prot.envCopy = some content ∧ start.files p.environmentFile = some content

/-- One attempt: the same job again, or a job that retries it. -/
structure Attempt where
  world : World Db
  same : world.platform = platform
  jobId : String
  reuse : List Reuse
  originJob : Option OriginJob

/-- The state that a run ends in. -/
def ended {α : Type} : EStateM.Result Stop (State Db) α → State Db
  | .ok _ after => after
  | .error _ after => after

variable {platform} in
def Attempt.leaves (a : Attempt platform) (s : State Db) : State Db :=
  ended (runRestoreDbOperation a.world p a.jobId a.reuse a.originJob { s with calls := 0 })

/-- Between attempts the unit may be started or stopped, and the application writes. -/
def State.meantime (s : State Db) (active : Bool) (written : Db → Db) : State Db :=
  { s with guest := { s.guest with active := active } }.write written

/-- The states that a chain of attempts reaches, each of them reusing what is on record. -/
inductive Tried (fit : Attempt platform → State Db → Prop) : State Db → Prop
  | start : Tried fit (startOf start)
  | meantime {s : State Db} (active : Bool) (written : Db → Db) :
      Tried fit s → Tried fit (s.meantime active written)
  | attempt {s : State Db} (a : Attempt platform) :
      Tried fit s → (∀ recorded ∈ a.reuse, ∃ content, (recorded, content) ∈ s.generated) → fit a s →
      Tried fit (a.leaves p s)

variable (w : World Db)

/-- What an attempt has when it comes to its copies. -/
structure Ready where
  binding : Binding
  compatibility : Compatibility
  wasActive : Bool
  reused : Option DumpArtifact

/-- An attempt up to its copies. -/
def prepare (reuse : List Reuse) (originJob : Option OriginJob) : Act Db (Except Failure Ready) :=
  match bindRecoverySet p.container p.dumpName p.envCopyName originJob with
  | .error reason => pure (.error (fail w "bind" reason))
  | .ok binding =>
    if scriptRefused p then throw (.failed "names must be plain")
    else do
      let markers ← guest w (fun n s => (inspectScript w p n s.guest, s)) []
      match checkInspection w p binding (parseInspect markers) with
      | .error refusal => pure (.error (fail w refusal.step refusal.error))
      | .ok compatibility => do
        event w
        let reused ← reuseDump w p reuse
        pure (.ok {
          binding := binding, compatibility := compatibility,
          wasActive := (parseInspect markers).unitActive, reused := reused })

/-- An attempt from its copies on. -/
def conclude (jobId : String) (ready : Ready) : Act Db (Except Failure Success) := do
  match ← protectCopies w p jobId ready.reused with
  | (none, _) => pure (.error (fail w "protect" "refusing to restore without a pre-restore dump"))
  | (some _, none) => pure (.error (fail w "protect" s!"refusing to restore without a copy of {p.environmentFile}"))
  | (some dump, some env) =>
    restore w p ready.binding ready.compatibility ready.wasActive {
      dbDump := dump, envCopy := env, reused := ready.reused.isSome }

/-- The capture puts a dump under its name. -/
def Captured (s : State Db) : Prop := w.captures s.calls = true ∧ (w.fate s.calls = .ran ∨ w.fate s.calls = .silent)

/-- What the copies of an attempt need of the state before they are taken. -/
structure CopiesFit (jobId : String) (s : State Db) (reused : Option DumpArtifact) : Prop where
  /-- The environment file is the one that the chain began with. -/
  environment : s.guest.files p.environmentFile = start.files p.environmentFile
  apart : preDumpPath p jobId ≠ p.environmentFile
  /-- What has a recorded hash is what was recorded. -/
  genuine : ∀ entry ∈ s.generated, ∀ content, s.guest.files entry.1.name = some content →
    entry.1.sha256 = some (platform.sha256 content) → content = entry.2
  /-- A new dump after a restore is no other than one from before. -/
  fresh : reused = none → s.restored = true → Captured w s →
    ∃ database ∈ s.earlier, platform.pgDump (s.write (w.written s.calls)).guest.database = platform.pgDump database
  /-- A dump that is kept is not overwritten with another one. -/
  kept : ∀ dump, reused = some dump → dump.path = preDumpPath p jobId → Captured w s →
    s.guest.files dump.path = some (platform.pgDump (s.write (w.written s.calls)).guest.database)

variable {platform} in
/-- The attempt, if it comes to its copies, takes them in a state that fits. -/
def Attempt.Fits (a : Attempt platform) (s : State Db) : Prop :=
  Leads (prepare p a.world a.reuse a.originJob) { s with calls := 0 }
    (fun out before => ∀ ready, out = .ok ready →
      CopiesFit platform p start a.world a.jobId before ready.reused) fun _ _ => True

/-- What holds of a chain whose attempts fit. -/
structure Chain (s : State Db) : Prop where
  listed : ∀ entry ∈ s.generated, (∃ jobId, entry.1.name = preDumpPath p jobId) ∧
    ∃ database ∈ s.earlier, entry.2 = platform.pgDump database
  passed : ∀ entry ∈ s.passed, Originals platform p start s.earlier entry.1 entry.2
  current : s.restored = false → s.guest.database ∈ s.earlier

/-- A recorded dump whose file was found to be the recorded one. -/
def Verified (s : State Db) (dump : DumpArtifact) : Prop :=
  ∃ entry ∈ s.generated, entry.1.name = dump.path ∧ entry.1.sha256 = some dump.sha256 ∧
    ∃ content, s.guest.files dump.path = some content ∧ dump.bytes = content.length ∧
      dump.sha256 = platform.sha256 content

/-- A dump from before the first restore, under the name of some job. -/
structure Dumped (s : State Db) (dump : DumpArtifact) : Prop where
  named : ∃ jobId, dump.path = preDumpPath p jobId
  whole : ∃ content, s.guest.files dump.path = some content ∧ dump.bytes = content.length ∧
    dump.sha256 = platform.sha256 content ∧
    ∃ database ∈ s.earlier, content = platform.pgDump database

end Statements

variable {platform : Platform Db} {p : Plan} {start : Guest Db} {w : World Db} {s t : State Db}
  {jobId : String} {reuse : List Reuse}

theorem run_eq (originJob : Option OriginJob) :
    runRestoreDbOperation w p jobId reuse originJob = (do
      match ← prepare p w reuse originJob with
      | .error failure => pure (.error failure)
      | .ok ready => conclude p w jobId ready) := by
  unfold runRestoreDbOperation prepare
  cases bindRecoverySet p.container p.dumpName p.envCopyName originJob with
  | error reason => rfl
  | ok binding =>
    cases scriptRefused p with
    | true => rfl
    | false =>
      simp only [Bool.false_eq_true, ↓reduceIte, bind_assoc]
      congr 1
      funext markers
      cases checkInspection w p binding (parseInspect markers) with
      | error refusal => rfl
      | ok compatibility =>
        simp only [bind_assoc, pure_bind]
        rfl

theorem preEnvPath_ne_environmentFile : preEnvPath p jobId ≠ p.environmentFile := by
  intro same
  have longer := congrArg String.length same
  unfold preEnvPath at longer
  simp only [String.length_append] at longer
  have : (".pre-restore-" : String).length = 13 := rfl
  omega

/-- What comes after the last dot, backwards. -/
def extension (path : String) : List Char := path.toList.reverse.takeWhile (· ≠ '.')

theorem extension_preDumpPath (other : String) : extension (preDumpPath p other) = ['l', 'q', 's'] := by
  unfold extension preDumpPath
  simp

theorem extension_preEnvPath (named : jobIdOk jobId = true) : 3 < (extension (preEnvPath p jobId)).length := by
  have plain : ∀ c ∈ jobId.toList, labelChar c = true := by
    unfold jobIdOk at named
    simp only [Bool.and_eq_true, List.all_eq_true] at named
    exact named.2
  have split : extension (preEnvPath p jobId) =
      jobId.toList.reverse ++
        ("-erotser-erp".toList ++ ('.' :: p.environmentFile.toList.reverse).takeWhile (· ≠ '.')) := by
    unfold extension preEnvPath
    rw [String.toList_append, String.toList_append, List.reverse_append, List.reverse_append,
      List.takeWhile_append_of_pos]
    · rfl
    · intro c member
      have ok := plain c (List.mem_reverse.mp member)
      simp only [decide_eq_true_eq]
      rintro rfl
      exact absurd ok (by decide)
  have size : "-erotser-erp".toList.length = 12 := rfl
  rw [split, List.length_append, List.length_append, size]
  omega

/-- A name that ends in a job's id does not end in `.sql`. -/
theorem preDumpPath_ne_preEnvPath (named : jobIdOk jobId = true) (other : String) :
    preDumpPath p other ≠ preEnvPath p jobId := by
  intro same
  have longer := extension_preEnvPath (p := p) named
  rw [← same, extension_preDumpPath] at longer
  exact absurd longer (by decide)

theorem State.write_earlier (written : Db → Db) {database : Db} (member : database ∈ s.earlier) :
    database ∈ (s.write written).earlier := by
  unfold State.write
  split
  · dsimp only
    split
    · exact member
    · exact List.mem_cons_of_mem _ member
  · exact member

@[simp] theorem State.write_generated (written : Db → Db) : (s.write written).generated = s.generated := by
  unfold State.write
  split <;> rfl

/-- What is on record stays there between two attempts. -/
theorem State.meantime_listed (active : Bool) (written : Db → Db) :
    ∀ recorded ∈ s.generated.map Prod.fst, ∃ content,
      (recorded, content) ∈ (s.meantime active written).generated := by
  intro recorded member
  obtain ⟨entry, listed, rfl⟩ := List.mem_map.mp member
  refine ⟨entry.2, ?_⟩
  unfold State.meantime
  rwa [State.write_generated]

@[simp] theorem State.write_restored (written : Db → Db) : (s.write written).restored = s.restored := by
  unfold State.write
  split <;> rfl

theorem State.write_current (written : Db → Db) (unrestored : s.restored = false)
    (current : s.guest.database ∈ s.earlier) :
    (s.write written).guest.database ∈ (s.write written).earlier := by
  unfold State.write
  split
  · dsimp only
    rw [unrestored, if_neg Bool.false_ne_true]
    exact List.mem_cons_self
  · exact current

variable {prot : Protected} {holds : State Db → Prop} {content : Bytes}
  {reused : Option DumpArtifact}

theorem Originals.later {earlier later : List Db} {g : Guest Db}
    (originals : Originals platform p start earlier prot g)
    (grows : ∀ database ∈ earlier, database ∈ later) : Originals platform p start later prot g := by
  obtain ⟨content, there, bytes, hash, database, member, dumped⟩ := originals.dump
  exact ⟨⟨content, there, bytes, hash, database, grows database member, dumped⟩, originals.environment⟩

/-- What adds nothing to the record. -/
theorem Chain.step (chain : Chain platform p start s) (generated : t.generated = s.generated)
    (passed : t.passed = s.passed)
    (grows : ∀ database ∈ s.earlier, database ∈ t.earlier)
    (current : t.restored = false → t.guest.database ∈ t.earlier) : Chain platform p start t where
  listed := by
    intro entry member
    rw [generated] at member
    obtain ⟨named, database, known, dumped⟩ := chain.listed entry member
    exact ⟨named, database, grows database known, dumped⟩
  passed := by
    intro entry member
    rw [passed] at member
    exact (chain.passed entry member).later grows
  current := current

theorem Chain.write (chain : Chain platform p start s) (written : Db → Db) :
    Chain platform p start (s.write written) :=
  chain.step (State.write_generated written) (State.write_passed s written)
    (fun _ => State.write_earlier written) fun unrestored => by
    rw [State.write_restored] at unrestored
    exact State.write_current written unrestored (chain.current unrestored)

theorem Chain.counted (chain : Chain platform p start s) (calls : Nat) :
    Chain platform p start { s with calls := calls } :=
  ⟨chain.listed, chain.passed, chain.current⟩

theorem Chain.put (chain : Chain platform p start s) (path : String) (content : Bytes) :
    Chain platform p start (s.put path content) :=
  ⟨chain.listed, chain.passed, chain.current⟩

/-- A call keeps what the application and the script keep. -/
theorem keeps_guest {α : Type} {effect : Nat → State Db → α × State Db} {nothing : α}
    (counted : ∀ s, holds s → holds { s.write (w.written s.calls) with calls := s.calls + 1 })
    (effects : ∀ n s, holds s → holds (effect n s).2) :
    Keeps holds (fun _ => holds) (RestoreDb.guest w effect nothing) := by
  intro s now
  refine leads_guest (fun _ => now) ?_ ?_
  · rintro after rfl
    exact ⟨counted s now, fun _ => counted s now⟩
  · rintro after rfl
    have done := effects s.calls _ (counted s now)
    exact ⟨fun _ => done, fun _ => done, fun _ => done⟩

theorem keeps_event (counted : ∀ s, holds s → holds { s with calls := s.calls + 1 }) :
    Keeps holds (fun _ => holds) (event w) := by
  intro s now
  unfold Leads event
  cases w.event s.calls <;> exact counted s now

theorem chain_guest {α : Type} {effect : Nat → State Db → α × State Db} {nothing : α}
    (effects : ∀ n s, Chain platform p start s → Chain platform p start (effect n s).2) :
    Keeps (Chain platform p start) (fun _ => Chain platform p start) (RestoreDb.guest w effect nothing) :=
  keeps_guest (fun _ chain => (chain.write _).counted _) effects

theorem chain_stopUnit (n : Nat) (s : State Db) (chain : Chain platform p start s) :
    Chain platform p start (stopUnit n s).2 :=
  ⟨chain.listed, chain.passed, chain.current⟩

theorem chain_startUnit (n : Nat) (s : State Db) (chain : Chain platform p start s) :
    Chain platform p start (startUnit w n s).2 :=
  ⟨chain.listed, chain.passed, chain.current⟩

theorem chain_restoreScript (n : Nat) (s : State Db) (chain : Chain platform p start s) :
    Chain platform p start (restoreScript w p n s).2 := by
  unfold restoreScript
  split
  · exact chain
  · exact chain.step rfl rfl (fun _ member => member) fun unrestored => (nomatch unrestored)

theorem chain_swapEnv (path : String) (n : Nat) (s : State Db) (chain : Chain platform p start s) :
    Chain platform p start (swapEnv p path n s).2 := by
  unfold swapEnv
  split
  · exact chain
  · exact ⟨chain.listed, chain.passed, chain.current⟩

theorem chain_bringUp (prot : Protected) (failed : Option (String × String))
    (success : String → String → String → Success) :
    Keeps (Chain platform p start) (fun _ => Chain platform p start) (bringUp w p prot failed success) := by
  have probed : ∀ n s, Chain platform p start s → Chain platform p start (probe w n s).2 := fun _ _ chain => chain
  refine (chain_guest chain_startUnit).bind fun started => ?_
  cases failed with
  | some reason => exact Keeps.pure
  | none =>
    cases started with
    | false => exact Keeps.pure
    | true =>
      refine (chain_guest probed).bind fun _ => ?_
      refine (chain_guest probed).bind fun _ => ?_
      exact (chain_guest probed).bind fun _ => Keeps.pure

theorem chain_swapEnvironment (binding : Binding) :
    Keeps (Chain platform p start) (fun _ => Chain platform p start) (swapEnvironment w p binding) := by
  unfold swapEnvironment
  split
  · exact (chain_guest (chain_swapEnv _)).bind fun _ => Keeps.pure
  · exact Keeps.pure

/-- Past the boundary nothing goes on the record. -/
theorem chain_restore {binding : Binding} {compatibility : Compatibility} {wasActive : Bool}
    (chain : Chain platform p start s)
    (originals : Originals platform p start s.earlier prot s.guest) :
    Leads (restore w p binding compatibility wasActive prot) s (fun _ => Chain platform p start)
      fun _ => Chain platform p start := by
  have passed : Chain platform p start { s with passed := s.passed ++ [(prot, s.guest)] } := by
    refine ⟨chain.listed, fun entry member => ?_, chain.current⟩
    rcases List.mem_append.mp member with old | new
    · exact chain.passed entry old
    · cases List.mem_singleton.mp new
      exact originals
  refine leads_bind.mpr (?_ : Leads (pass prot) s _ _)
  refine ((chain_guest chain_stopUnit).bind fun stopped => ?_) _ passed
  cases stopped with
  | false => exact Keeps.pure
  | true =>
    refine (chain_guest chain_restoreScript).bind fun answer => ?_
    cases answer with
    | none => exact chain_bringUp prot _ _
    | some codes =>
      obtain ⟨rc, errors⟩ := codes
      dsimp only
      split
      · exact chain_bringUp prot _ _
      · refine (chain_swapEnvironment binding).bind fun swapped => ?_
        split <;> exact chain_bringUp prot _ _

/-- An attempt reuses what is on record. -/
def Recorded (reuse : List Reuse) (s : State Db) : Prop :=
  ∀ recorded ∈ reuse, ∃ content, (recorded, content) ∈ s.generated

theorem Recorded.write (onRecord : Recorded reuse s) (written : Db → Db) : Recorded reuse (s.write written) := by
  unfold Recorded
  rwa [State.write_generated]

variable {dump : DumpArtifact} {a : Attempt platform}

/-- A dump that revalidates is one on record whose file has the recorded hash. -/
theorem verifyArtifact_verified {recorded : Reuse} {n : Nat} (onRecord : Recorded reuse s)
    (prior : priorDump p reuse = some recorded)
    (found : (verifyArtifact w recorded n s).1 = some dump) : Verified w.platform s dump := by
  obtain ⟨content, listed⟩ := onRecord recorded (List.mem_of_find?_eq_some prior)
  have kind := List.find?_some prior
  simp only [Bool.and_eq_true] at kind
  unfold verifyArtifact at found
  obtain ⟨text, there, found⟩ := Option.bind_eq_some_iff.mp found
  dsimp only at found
  split at found
  case isFalse => cases found
  case isTrue matching =>
    cases found
    obtain ⟨hash, known⟩ := Option.isSome_iff_exists.mp kind.2
    have same : recorded.sha256 = some hash := (Option.filter_eq_some_iff.mp known).1
    rw [same] at matching
    simp only [Option.all_some, Bool.and_eq_true, decide_eq_true_eq] at matching
    exact ⟨(recorded, content), listed, rfl, by rw [same, matching.1], text, there, rfl, rfl⟩

theorem leads_reuseDump (chain : Chain w.platform p start s) (onRecord : Recorded reuse s) :
    Leads (reuseDump w p reuse) s (fun reused t => Chain w.platform p start t ∧
      ∀ dump, reused = some dump → Verified w.platform t dump)
      fun _ => Chain w.platform p start := by
  unfold reuseDump
  cases prior : priorDump p reuse with
  | none => exact leads_pure.mpr ⟨chain, fun _ none => nomatch none⟩
  | some recorded =>
    dsimp only
    split
    case isTrue => exact leads_throw.mpr chain
    case isFalse =>
      have answered : ∀ check t, Chain w.platform p start t →
          (∀ dump, check = some dump → Verified w.platform t dump) →
          Leads (event w >>= fun _ => pure check) t
            (fun reused t => Chain w.platform p start t ∧ ∀ dump, reused = some dump →
              Verified w.platform t dump) fun _ => Chain w.platform p start := by
        intro check t chain verified
        refine leads_bind.mpr ?_
        unfold Leads event
        cases w.event t.calls with
        | ok _ => exact ⟨chain.counted _, verified⟩
        | error stop => exact chain.counted _
      refine leads_bind.mpr (leads_guest (fun _ => chain) ?_ ?_)
      · rintro counted rfl
        have now := (chain.write (w.written s.calls)).counted (s.calls + 1)
        exact ⟨answered none _ now fun _ none => (nomatch none), fun _ => now⟩
      · rintro counted rfl
        have now := (chain.write (w.written s.calls)).counted (s.calls + 1)
        exact ⟨fun _ => answered _ _ now fun _ found => verifyArtifact_verified (onRecord.write _) prior found,
          fun _ => answered none _ now fun _ none => (nomatch none), fun _ => now⟩

theorem leads_prepare {originJob : Option OriginJob} (chain : Chain w.platform p start s)
    (onRecord : Recorded reuse s) :
    Leads (prepare p w reuse originJob) s
      (fun out t => Chain w.platform p start t ∧ ∀ ready, out = .ok ready →
        ∀ dump, ready.reused = some dump → Verified w.platform t dump)
      fun _ => Chain w.platform p start := by
  have refused {reason : Failure} {t : State Db} (now : Chain w.platform p start t) :
      Leads (pure (.error reason) : Act Db (Except Failure Ready)) t
        (fun out t => Chain w.platform p start t ∧ ∀ ready, out = .ok ready →
          ∀ dump, ready.reused = some dump → Verified w.platform t dump)
        fun _ => Chain w.platform p start := leads_pure.mpr ⟨now, fun _ none => nomatch none⟩
  unfold prepare
  split
  case h_1 => exact refused chain
  case h_2 binding _ =>
    split
    case isTrue => exact leads_throw.mpr chain
    case isFalse =>
      have inspected : Keeps (fun t => Chain w.platform p start t ∧
          Recorded reuse t) (fun _ t => Chain w.platform p start t ∧ Recorded reuse t)
          (RestoreDb.guest w (fun n s => (inspectScript w p n s.guest, s)) []) :=
        keeps_guest (fun _ now => ⟨(now.1.write _).counted _, now.2.write _⟩) fun _ _ now => now
      refine leads_bind.mpr ((inspected s ⟨chain, onRecord⟩).mono (fun markers t now => ?_) fun _ _ now => now.1)
      split
      case h_1 => exact refused now.1
      case h_2 compatibility _ =>
        have marked : Keeps (fun t => Chain w.platform p start t ∧ Recorded reuse t)
            (fun _ t => Chain w.platform p start t ∧ Recorded reuse t) (event w) :=
          keeps_event fun s now => ⟨now.1.counted _, now.2⟩
        refine leads_bind.mpr ((marked t now).mono (fun _ t now => ?_) fun _ _ now => now.1)
        refine leads_bind.mpr ((leads_reuseDump now.1 now.2).mono (fun reused t now => ?_) fun _ _ now => now)
        exact leads_pure.mpr ⟨now.1, fun ready same dump reused => by
          cases same
          exact now.2 dump reused⟩

theorem Dumped.write (dumped : Dumped platform p s dump) (written : Db → Db) (calls : Nat) :
    Dumped platform p { s.write written with calls := calls } dump := by
  obtain ⟨named, content, there, bytes, hash, database, member, same⟩ := dumped
  exact ⟨named, content,
    by rwa [State.write_files], bytes, hash, database, State.write_earlier written member, same⟩

/-- A dump stays what it is where nothing else is put under its name. -/
theorem Dumped.put {path : String} (dumped : Dumped platform p s dump)
    (same : dump.path = path → s.guest.files dump.path = some content) :
    Dumped platform p (s.put path content) dump := by
  obtain ⟨named, text, there, whole⟩ := dumped
  refine ⟨named, text, ?_, whole⟩
  show (if dump.path = path then some content else s.guest.files dump.path) = some text
  split
  case isTrue own => rw [← same own, there]
  case isFalse => exact there

theorem Verified.dumped (verified : Verified platform s dump) (chain : Chain platform p start s)
    (fit : CopiesFit platform p start w jobId s reused) : Dumped platform p s dump := by
  obtain ⟨entry, listed, name, known, content, there, bytes, hash⟩ := verified
  obtain ⟨⟨job, named⟩, database, member, dumped⟩ := chain.listed entry listed
  have recorded : content = entry.2 := fit.genuine entry listed content (by rwa [name]) (by rw [known, hash])
  exact ⟨⟨job, by rw [← name, named]⟩, content, there, bytes, hash, database, member, recorded.trans dumped⟩

/-- What the chain has once the dump is taken: the environment file as it was, and the
dump that counts. -/
structure DumpTaken (platform : Platform Db) (p : Plan) (start : Guest Db) (t : State Db)
    (counts : Option DumpArtifact) : Prop where
  chain : Chain platform p start t
  environment : t.guest.files p.environmentFile = start.files p.environmentFile
  dumped : ∀ dump, counts = some dump → Dumped platform p t dump

section Taking

variable {reused : Option DumpArtifact} (chain : Chain w.platform p start s)
  (fit : CopiesFit w.platform p start w jobId s reused)
  (verified : ∀ dump, reused = some dump → Verified w.platform s dump)

include chain fit verified

/-- Where no dump is put, one that is reused counts. -/
theorem dumpTaken_quiet :
    DumpTaken w.platform p start { s.write (w.written s.calls) with calls := s.calls + 1 } reused where
  chain := (chain.write _).counted _
  environment := by
    show (s.write (w.written s.calls)).guest.files p.environmentFile = _
    rw [State.write_files, fit.environment]
  dumped := fun dump same => ((verified dump same).dumped chain fit).write _ _

/-- Where a dump is put, one that is reused still counts. -/
theorem dumpTaken_put (captured : Captured w s) :
    DumpTaken w.platform p start
      ({ s.write (w.written s.calls) with calls := s.calls + 1 }.put (preDumpPath p jobId)
        (w.platform.pgDump (s.write (w.written s.calls)).guest.database)) reused where
  chain := ((chain.write _).counted _).put _ _
  environment := by
    show (if p.environmentFile = preDumpPath p jobId then _
        else (s.write (w.written s.calls)).guest.files p.environmentFile) = _
    rw [if_neg fun same => fit.apart same.symm, State.write_files, fit.environment]
  dumped := by
    intro dump same
    refine (((verified dump same).dumped chain fit).write _ _).put fun own => ?_
    show (s.write (w.written s.calls)).guest.files dump.path = _
    rw [State.write_files, fit.kept dump same own captured]

omit verified in
/-- A new dump is from before the first restore. -/
theorem fresh_dumped (captured : Captured w s) (none : reused = none) :
    Dumped w.platform p
      ({ s.write (w.written s.calls) with calls := s.calls + 1 }.put (preDumpPath p jobId)
        (w.platform.pgDump (s.write (w.written s.calls)).guest.database))
      { path := preDumpPath p jobId
        bytes := (w.platform.pgDump (s.write (w.written s.calls)).guest.database).length
        sha256 := w.platform.sha256 (w.platform.pgDump (s.write (w.written s.calls)).guest.database) } := by
  refine ⟨⟨jobId, rfl⟩, _, if_pos rfl, rfl, rfl, ?_⟩
  cases restored : s.restored with
  | false => exact ⟨_, State.write_current _ restored (chain.current restored), rfl⟩
  | true =>
    obtain ⟨database, member, same⟩ := fit.fresh none restored captured
    exact ⟨database, State.write_earlier _ member, same⟩

theorem leads_protectDump :
    Leads (RestoreDb.guest w (protectDump w p jobId) none) s (fun dump t =>
      DumpTaken w.platform p start t (reused.or dump)) fun _ => Chain w.platform p start := by
  have quiet := dumpTaken_quiet chain fit verified
  refine leads_guest (fun _ => chain) ?_ ?_
  · rintro counted rfl
    rw [Option.or_none]
    exact ⟨quiet, fun _ => quiet.chain⟩
  · rintro counted rfl
    unfold protectDump
    split
    case isFalse =>
      rw [Option.or_none]
      exact ⟨fun _ => quiet, fun _ => quiet, fun _ => quiet.chain⟩
    case isTrue captures =>
      refine ⟨fun ran => ?_, fun silent => ?_, fun _ => ((chain.write _).counted _).put _ _⟩
      · have put := dumpTaken_put chain fit verified ⟨captures, .inl ran⟩
        refine ⟨put.chain, put.environment, fun dump counts => ?_⟩
        cases known : reused with
        | none =>
          rw [known] at counts
          cases counts
          exact fresh_dumped chain fit ⟨captures, .inl ran⟩ known
        | some _ =>
          rw [known] at counts
          cases counts
          exact put.dumped dump known
      · rw [Option.or_none]
        exact dumpTaken_put chain fit verified ⟨captures, .inr silent⟩

end Taking

/-- The environment is copied beside the dump. -/
theorem leads_protectEnvironment {counts : Option DumpArtifact} (named : jobIdOk jobId = true)
    (taken : DumpTaken w.platform p start s counts) :
    Leads (script w (protectEnvironment p jobId) none) s
      (fun env t => DumpTaken w.platform p start t counts ∧
        ∀ path, env = some path → ∃ content, t.guest.files path = some content ∧
          start.files p.environmentFile = some content)
      fun _ => Chain w.platform p start := by
  have quiet : DumpTaken w.platform p start { s.write (w.written s.calls) with calls := s.calls + 1 } counts :=
    ⟨(taken.chain.write _).counted _, by
      show (s.write (w.written s.calls)).guest.files p.environmentFile = _
      rw [State.write_files, taken.environment], fun dump same => (taken.dumped dump same).write _ _⟩
  refine leads_script ?_ ?_
  · rintro counted rfl
    exact ⟨⟨quiet, fun _ none => nomatch none⟩, fun _ => quiet.chain⟩
  · rintro counted rfl
    unfold protectEnvironment
    split
    case h_2 =>
      exact ⟨fun _ => ⟨quiet, fun _ none => nomatch none⟩,
        fun _ => ⟨quiet, fun _ none => nomatch none⟩, fun _ => quiet.chain⟩
    case h_1 content there =>
      have kept := quiet.environment
      rw [there] at kept
      have put :
          DumpTaken w.platform p start ({ s.write (w.written s.calls) with calls := s.calls +
          1 }.put (preEnvPath p jobId) content) counts := by
        refine ⟨quiet.chain.put _ _, ?_, fun dump same => ?_⟩
        · show (if p.environmentFile = preEnvPath p jobId then _
              else (s.write (w.written s.calls)).guest.files p.environmentFile) = _
          rw [if_neg fun same => preEnvPath_ne_environmentFile same.symm]
          exact quiet.environment
        · refine (quiet.dumped dump same).put fun own => ?_
          obtain ⟨job, path⟩ := (quiet.dumped dump same).named
          exact absurd (path.symm.trans own) (preDumpPath_ne_preEnvPath named job)
      refine ⟨fun _ => ⟨put, fun path same => ?_⟩, fun _ => ⟨put, fun _ none => nomatch none⟩, fun _ => put.chain⟩
      cases same
      exact ⟨content, if_pos rfl, kept.symm⟩

/-- The record names a dump and what is in it. -/
theorem leads_recordDump (chain : Chain w.platform p start s) (dumped : Dumped w.platform p s dump)
    (there : s.guest.files dump.path = some content) :
    Leads (recordDump w p dump content) s (fun _ t => Chain w.platform p start t ∧ t.guest = s.guest ∧ t.earlier = s.earlier)
      fun _ => Chain w.platform p start := by
  obtain ⟨named, text, found, -, -, before⟩ := dumped
  cases there.symm.trans found
  have listed : Chain w.platform p start { s with
      calls := s.calls + 1
      generated := s.generated ++ [({
        kind := "dump", name := dump.path, where_ := some p.container, sha256 := some dump.sha256,
        bytes := some dump.bytes }, content)] } := by
    refine ⟨fun entry member => ?_, chain.passed, chain.current⟩
    rcases List.mem_append.mp member with old | new
    · exact chain.listed entry old
    · cases List.mem_singleton.mp new
      exact ⟨named, before⟩
  unfold Leads recordDump
  cases (w.record s.calls).1 <;> cases (w.record s.calls).2
  · exact ⟨chain.counted _, rfl, rfl⟩
  · exact chain.counted _
  · exact ⟨listed, rfl, rfl⟩
  · exact listed

/-- The copies that an attempt goes on with are the originals. -/
theorem leads_protectCopies (chain : Chain w.platform p start s)
    (fit : CopiesFit w.platform p start w jobId s reused)
    (verified : ∀ dump, reused = some dump → Verified w.platform s dump) :
    Leads (protectCopies w p jobId reused) s
      (fun copies t => Chain w.platform p start t ∧ ∀ dump env used, copies = (some dump, some env) →
        Originals w.platform p start t.earlier { dbDump := dump, envCopy := env, reused := used } t.guest)
      fun _ => Chain w.platform p start := by
  unfold protectCopies
  split
  case isTrue => exact leads_throw.mpr chain
  case isFalse named =>
    have named : jobIdOk jobId = true := by simpa using named
    refine leads_bind.mpr ((leads_protectDump chain fit verified).mono (fun dump t taken => ?_) fun _ _ now => now)
    refine leads_bind.mpr ((leads_protectEnvironment named taken).mono (fun env t copied => ?_) fun _ _ now => now)
    obtain ⟨taken, copied⟩ := copied
    have originals {u : State Db} {counted : DumpArtifact} (same : reused.or dump = some counted) (guest : u.guest = t.guest) (earlier : u.earlier = t.earlier) :
        ∀ path used, env = some path → Originals w.platform p start u.earlier {
          dbDump := counted, envCopy := path, reused := used } u.guest := by
      intro path used isEnv
      rw [guest, earlier]
      exact ⟨(taken.dumped counted same).whole, copied path isEnv⟩
    cases reused with
    | some kept =>
      refine leads_pure.mpr ⟨taken.chain, fun counted path used same => ?_⟩
      cases same
      exact originals rfl rfl rfl path used rfl
    | none =>
      cases dump with
      | none => exact leads_pure.mpr ⟨taken.chain, fun _ _ _ same => nomatch same⟩
      | some fresh =>
        refine leads_bind.mpr (leads_get.mpr ?_)
        obtain ⟨content, there, -⟩ := (taken.dumped fresh rfl).whole
        dsimp only
        rw [there, Option.getD_some]
        refine leads_bind.mpr ((leads_recordDump taken.chain (taken.dumped fresh rfl) there).mono
          (fun _ u now => ?_) fun _ _ now => now)
        refine leads_pure.mpr ⟨now.1, fun counted path used same => ?_⟩
        cases same
        exact originals rfl now.2.1 now.2.2 path used rfl

theorem leads_conclude {ready : Ready} (chain : Chain w.platform p start s)
    (fit : CopiesFit w.platform p start w jobId s ready.reused)
    (verified : ∀ dump, ready.reused = some dump → Verified w.platform s dump) :
    Leads (conclude p w jobId ready) s (fun _ => Chain w.platform p start) fun _ => Chain w.platform p start := by
  refine leads_bind.mpr ((leads_protectCopies chain fit verified).mono (fun copies t now => ?_) fun _ _ now => now)
  split
  case h_1 => exact leads_pure.mpr now.1
  case h_2 => exact leads_pure.mpr now.1
  case h_3 => exact chain_restore now.1 (now.2 _ _ _ rfl)

theorem chain_attempt (chain : Chain platform p start s) (onRecord : Recorded a.reuse s) (fits : a.Fits p start s) :
    Chain platform p start (a.leaves p s) := by
  obtain ⟨w, rfl, jobId, reuse, originJob⟩ := a
  have run : Leads (runRestoreDbOperation w p jobId reuse originJob) { s with calls := 0 }
      (fun _ => Chain w.platform p start) fun _ => Chain w.platform p start := by
    rw [run_eq]
    refine leads_bind.mpr (((leads_prepare (chain.counted 0) onRecord).and fits).mono
      (fun out t now => ?_) fun _ _ now => now.1)
    obtain ⟨⟨now, verified⟩, fit⟩ := now
    cases out with
    | error failure => exact leads_pure.mpr now
    | ok ready => exact leads_conclude now (fit ready rfl) (verified ready rfl)
  unfold Attempt.leaves ended
  unfold Leads at run
  dsimp only
  split at run
  case h_1 _ _ same => rwa [same]
  case h_2 _ _ same => rwa [same]

theorem chain_tried (run : Tried platform p start (Attempt.Fits p start) s) : Chain platform p start s := by
  induction run with
  | start => exact ⟨fun _ none => (nomatch none), fun _ none => (nomatch none), fun _ => List.mem_singleton.mpr rfl⟩
  | @meantime s active written _ chain =>
    have switched : Chain platform p start { s with guest := { s.guest with active := active } } :=
      ⟨chain.listed, chain.passed, chain.current⟩
    exact switched.write written
  | attempt a _ onRecord fits chain => exact chain_attempt chain onRecord fits

/-- A chain in which nothing was recorded or restored and the environment is as it was. -/
def Untouched (p : Plan) (start : Guest Db) (s : State Db) : Prop :=
  s.guest.files p.environmentFile = start.files p.environmentFile ∧ s.generated = [] ∧ s.restored = false

theorem Untouched.write (untouched : Untouched p start s) (written : Db → Db) (calls : Nat) :
    Untouched p start { s.write written with calls := calls } := by
  unfold Untouched
  dsimp only
  rwa [State.write_files, State.write_generated, State.write_restored]

theorem startOf_untouched (g : Guest Db) : Untouched p g (startOf g) := ⟨rfl, rfl, rfl⟩

/-- The first attempt of a chain fits. -/
theorem first_fits (untouched : Untouched p start s) (nothing : a.reuse = [])
    (apart : preDumpPath p a.jobId ≠ p.environmentFile) :
    a.Fits p start s := by
  have fit : ∀ t, Untouched p start t → CopiesFit platform p start a.world a.jobId t none := fun t now => {
    environment := now.1
    apart := apart
    genuine := fun entry member => by
      rw [now.2.1] at member
      cases member
    fresh := fun _ restored => absurd (restored.symm.trans now.2.2) Bool.noConfusion
    kept := fun _ none => nomatch none }
  have refused {t : State Db} {reason : Failure} : Leads (pure (.error reason) : Act Db (Except Failure Ready)) t
      (fun out before => ∀ ready, out = .ok ready →
        CopiesFit platform p start a.world a.jobId before ready.reused) fun _ _ => True :=
    leads_pure.mpr fun _ same => nomatch same
  unfold Attempt.Fits prepare
  split
  case h_1 => exact refused
  case h_2 =>
    split
    case isTrue => exact leads_throw.mpr trivial
    case isFalse =>
      have inspected : Keeps (Untouched p start) (fun _ => Untouched p start)
          (RestoreDb.guest a.world (fun n s => (inspectScript a.world p n s.guest, s)) []) :=
        keeps_guest (fun _ now => now.write _ _) fun _ _ now => now
      refine leads_bind.mpr ((inspected { s with calls := 0 } untouched).mono
        (fun markers t now => ?_) fun _ _ _ => trivial)
      split
      case h_1 => exact refused
      case h_2 =>
        have marked : Keeps (Untouched p start) (fun _ => Untouched p start) (event a.world) :=
          keeps_event fun _ now => now
        refine leads_bind.mpr ((marked t now).mono (fun _ t now => ?_) fun _ _ _ => trivial)
        rw [nothing]
        exact leads_pure.mpr fun ready same => by
          cases same
          exact fit t now

theorem tried_first (nothing : a.reuse = []) (apart : preDumpPath p a.jobId ≠ p.environmentFile) :
    Tried platform p start (Attempt.Fits p start) (a.leaves p (startOf start)) := by
  refine .attempt a .start (fun recorded member => ?_) (first_fits (startOf_untouched start) nothing apart)
  rw [nothing] at member
  cases member

/-- In a chain whose attempts take their copies in states that fit, every boundary is passed
with the originals. -/
theorem copies_stay (run : Tried platform p start (Attempt.Fits p start) s) :
    ∀ entry ∈ s.passed, Originals platform p start s.earlier entry.1 entry.2 := (chain_tried run).passed

/-- Every dump hashes to something else. -/
def keenPlatform : Platform Nat :=
  { calmWorld.platform with
    sha256 := fun content => "x" ++ String.ofList (content.map fun byte => Char.ofNat byte.toNat)
    digits := by simp }

def plainGuest : Guest Nat := calmGuest.withDump longPlan (ascii "--\n-- PostgreSQL database dump\n--\n")

/-- The record is written, and the attempt ends there. -/
def firstAttempt : Attempt keenPlatform where
  world := { calmWorld with platform := keenPlatform, record := fun _ => (true, some .interrupted) }
  same := rfl
  jobId := "restore-1"
  reuse := []
  originJob := none

def afterFirst : State Nat := firstAttempt.leaves longPlan (startOf plainGuest)

/-- The job again, with what is on its record. -/
def secondAttempt : Attempt keenPlatform where
  world := { calmWorld with platform := keenPlatform }
  same := rfl
  jobId := "restore-1"
  reuse := afterFirst.generated.map Prod.fst
  originJob := none

/-- The application writes between the two. -/
def afterSecond : State Nat := secondAttempt.leaves longPlan (afterFirst.meantime true (· + 1))

/-- Another job that retries the first one; `psql` changes the database. -/
def retryAttempt : Attempt keenPlatform where
  world := { calmWorld with platform := keenPlatform, psql := fun _ _ => (99, 0) }
  same := rfl
  jobId := "restore-2"
  reuse := afterFirst.generated.map Prod.fst
  originJob := none

def afterRetry : State Nat := retryAttempt.leaves longPlan (afterFirst.meantime true (· + 1))

/-- What an attempt comes to its copies with, where the recorded files are still there. -/
def keepsRecord (a : Attempt keenPlatform) (s : State Nat) : Bool :=
  match prepare longPlan a.world a.reuse a.originJob { s with calls := 0 } with
  | .ok (.ok ready) before =>
    decide (before.guest.files longPlan.environmentFile = plainGuest.files longPlan.environmentFile) &&
      before.generated.all (fun entry => before.guest.files entry.1.name == some entry.2) &&
      ready.reused.any fun dump => dump.path != preDumpPath longPlan a.jobId
  | _ => true

theorem fits_of_keepsRecord {a : Attempt keenPlatform} {s : State Nat} (keeps : keepsRecord a s = true)
    (apart : preDumpPath longPlan a.jobId ≠ longPlan.environmentFile) :
    a.Fits longPlan plainGuest s := by
  unfold Attempt.Fits Leads
  unfold keepsRecord at keeps
  split at keeps
  case h_1 kept before ran =>
    rw [ran]
    simp only [Bool.and_eq_true, decide_eq_true_eq, List.all_eq_true, beq_iff_eq, Option.any_eq_true,
      bne_iff_ne] at keeps
    obtain ⟨⟨environment, files⟩, dump, accepted, elsewhere⟩ := keeps
    intro ready same
    cases same
    exact {
      environment := environment
      apart := apart
      genuine := fun entry member content there _ =>
        Option.some.inj (there.symm.trans (files entry member))
      fresh := fun none => by
        rw [accepted] at none
        cases none
      kept := fun other reused own => by
        cases accepted.symm.trans reused
        exact absurd own elsewhere }
  case h_2 other =>
    split
    case h_1 out before ran =>
      intro ready same
      exact absurd (same ▸ ran) (other ready before)
    case h_2 => trivial

/-- The names are apart; the retry finds the recorded dump and passes with it; the job that is
resumed leaves a hash that is not its file's. -/
theorem attempts_run :
    (∀ jobId ∈ ["restore-1", "restore-2"], preDumpPath longPlan jobId ≠ longPlan.environmentFile) ∧
    keepsRecord retryAttempt (afterFirst.meantime true (· + 1)) = true ∧
    (afterRetry.guest.database = 99 ∧ afterRetry.passed.map (fun entry => (entry.1.reused, entry.1.dbDump.path)) =
      [(true, preDumpPath longPlan "restore-1")]) ∧
    (afterSecond.passed.any fun entry =>
      (entry.2.files entry.1.dbDump.path).all fun content =>
        decide (entry.1.dbDump.sha256 ≠ keenPlatform.sha256 content)) = true := by
  decide +kernel

/-- The first attempt is interrupted after it recorded its dump, the application writes, and the
retry restores over another database: it has passed with the first dump. -/
theorem copies_stay_retry :
    afterFirst.generated.length = 1 ∧ afterFirst.passed = [] ∧ afterRetry.guest.database = 99 ∧
      afterRetry.passed.map (fun entry => (entry.1.reused, entry.1.dbDump.path)) =
        [(true, preDumpPath longPlan "restore-1")] ∧
      ∀ entry ∈ afterRetry.passed,
        Originals keenPlatform longPlan plainGuest afterRetry.earlier entry.1 entry.2 := by
  obtain ⟨apart, keeps, ⟨database, passed⟩, -⟩ := attempts_run
  have first : Tried keenPlatform longPlan plainGuest (Attempt.Fits longPlan plainGuest) afterFirst :=
    tried_first rfl (apart "restore-1" List.mem_cons_self)
  refine ⟨by decide +kernel, List.length_eq_zero_iff.mp (by decide +kernel), database, passed, ?_⟩
  refine copies_stay (.attempt retryAttempt (.meantime true _ first) (State.meantime_listed true _) ?_)
  exact fits_of_keepsRecord keeps (apart "restore-2" (List.mem_cons_of_mem _ List.mem_cons_self))

/-- The job that is resumed passes its boundary with the hash of the first dump on a file
that holds the second. -/
theorem resumed_dump_replaced :
    ∃ s : State Nat, Tried keenPlatform longPlan plainGuest (fun _ _ => True) s ∧
      ∃ entry ∈ s.passed, ¬ Originals keenPlatform longPlan plainGuest s.earlier entry.1 entry.2 := by
  have first : Tried keenPlatform longPlan plainGuest (fun _ _ => True) afterFirst :=
    .attempt firstAttempt .start (fun _ member => (nomatch member)) trivial
  refine ⟨afterSecond, .attempt secondAttempt (.meantime true _ first) (State.meantime_listed true _) trivial, ?_⟩
  obtain ⟨entry, member, stale⟩ := List.any_eq_true.mp attempts_run.2.2.2
  refine ⟨entry, member, fun originals => ?_⟩
  obtain ⟨content, there, -, hash, -⟩ := originals.dump
  rw [there, Option.all_some, decide_eq_true_eq] at stale
  exact stale hash

end ProxyPilot.RestoreDb
