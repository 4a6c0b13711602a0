import ProxyPilot.Recovery.Restore

namespace ProxyPilot.Recovery

open Storage Transition

/-- The destination holds every file of the archive with the archived bytes. -/
def Holds (fs : Files) (call : RestoreCall) : Prop :=
  ∀ file ∈ call.files, fs.node (file.name :: call.destination) = some (.file true (.bytes file.bytes))

/-- Whoever starts on the destination, also after its lease was recovered, finds
the whole archive there. -/
def StartsOnlyComplete (alive : Nat → Bool) (fs : Files) (call : RestoreCall) : Prop :=
  (∀ pid nonce after, acquireStateLease fs call.destination pid nonce = .ok after → Holds fs call) ∧
  ∀ recovered, recoverStoppedLease alive fs call.destination = .ok recovered →
    ∀ pid nonce after, acquireStateLease recovered call.destination pid nonce = .ok after →
      Holds recovered call

/-- The destination exists and the marker does not yet: without a lease, or with
one whose process has stopped. -/
def Exposed (alive : Nat → Bool) (call : RestoreCall) (count : Nat) : Prop :=
  count = call.files.length + 1 ∨ (count = call.files.length + 2 ∧ alive call.pid = false)

def Outside (call : RestoreCall) (path : Path) : Prop :=
  ¬ call.destination <:+ path ∧ ¬ call.staging <:+ path

theorem lift_ok {result : Except Errno Files} {after : Files} :
    lift result = .ok after ↔ result = .ok after := by
  cases result <;> simp [lift]

section Leases

variable {fs after : Files} {root : Path} {pid : Nat} {nonce : String} {alive : Nat → Bool}

theorem acquireStateLease_ok (acquired : acquireStateLease fs root pid nonce = .ok after) :
    fs.node root = some (.directory true) ∧ fs.node (restoreIncompleteMarker :: root) = none ∧
      fs.node (maintenanceLock :: root) = none ∧
      ∀ path, after.node path =
        if path = maintenanceLock :: root then some (.file true (.lease pid nonce)) else fs.node path := by
  unfold acquireStateLease privateDirectory at acquired
  split at acquired
  case h_1 => contradiction
  case h_2 checked =>
    split at checked
    case isFalse => contradiction
    case isTrue directory =>
      split at acquired
      case isTrue => contradiction
      case isFalse unmarked =>
        split at acquired
        case h_2 => contradiction
        case h_1 created =>
          cases acquired
          obtain ⟨absent, written⟩ := FileSystem.add_ok created
          exact ⟨directory, by simpa using unmarked, absent, written⟩

theorem acquireStateLease_succeeds (directory : fs.node root = some (.directory true))
    (unmarked : fs.node (restoreIncompleteMarker :: root) = none)
    (unlocked : fs.node (maintenanceLock :: root) = none) (pid : Nat) (nonce : String) :
    ∃ after, acquireStateLease fs root pid nonce = .ok after := by
  have inside : fs.isDirectory root = true := FileSystem.isDirectory_iff.mpr ⟨true, directory⟩
  obtain ⟨after, created⟩ := FileSystem.add_succeeds (.file true (.lease pid nonce)) inside unlocked
  refine ⟨after, ?_⟩
  simp [acquireStateLease, privateDirectory, directory, unmarked, FileSystem.create, created]

theorem recoverStoppedLease_ok (recovered : recoverStoppedLease alive fs root = .ok after) :
    fs.node root = some (.directory true) ∧ fs.node (restoreIncompleteMarker :: root) = none ∧
      (∃ pid nonce, fs.node (maintenanceLock :: root) = some (.file true (.lease pid nonce)) ∧
        alive pid = false) ∧
      ∀ path, after.node path = if path = maintenanceLock :: root then none else fs.node path := by
  unfold recoverStoppedLease privateDirectory at recovered
  split at recovered
  case h_1 => contradiction
  case h_2 checked =>
    split at checked
    case isFalse => contradiction
    case isTrue directory =>
      cases found : readPrivate fs (maintenanceLock :: root) with
      | error reason => simp [found] at recovered
      | ok content =>
        cases content with
        | bytes bytes => simp [found] at recovered
        | lease pid nonce =>
          simp only [found] at recovered
          split at recovered
          case isTrue => contradiction
          case isFalse =>
            split at recovered
            case isTrue => contradiction
            case isFalse stopped =>
              split at recovered
              case isTrue => contradiction
              case isFalse unmarked =>
                  have lock : fs.node (maintenanceLock :: root) = some (.file true (.lease pid nonce)) := by
                    unfold readPrivate at found
                    split at found
                    · contradiction
                    · split at found
                      · rename_i held
                        cases found
                        exact held
                      · contradiction
                  exact ⟨directory, by simpa using unmarked, ⟨pid, nonce, lock, by simpa using stopped⟩,
                    FileSystem.unlink_ok (lift_ok.mp recovered)⟩

theorem recoverStoppedLease_succeeds (directory : fs.node root = some (.directory true))
    (unmarked : fs.node (restoreIncompleteMarker :: root) = none)
    (lock : fs.node (maintenanceLock :: root) = some (.file true (.lease pid nonce)))
    (valid : 1 ≤ pid ∧ pid ≤ maxSafeInteger) (stopped : alive pid = false) :
    ∃ after, recoverStoppedLease alive fs root = .ok after := by
  obtain ⟨after, unlinked⟩ := FileSystem.unlink_succeeds lock
  refine ⟨after, ?_⟩
  simp [recoverStoppedLease, privateDirectory, readPrivate, directory, lock, stopped, unmarked, unlinked, lift]
  omega

theorem closeLease_ok (closed : closeLease fs root nonce = .ok after) (path : Path) :
    after.node path = if path = maintenanceLock :: root then none else fs.node path := by
  unfold closeLease at closed
  split at closed
  · contradiction
  · contradiction
  · split at closed
    · contradiction
    · exact FileSystem.unlink_ok (lift_ok.mp closed) path

end Leases

section Startable

variable {alive : Nat → Bool} {fs : Files} {call : RestoreCall}

theorem startsOnlyComplete_absent (absent : fs.node call.destination = none) :
    StartsOnlyComplete alive fs call := by
  constructor
  · intro pid nonce after acquired
    have directory := (acquireStateLease_ok acquired).1
    rw [absent] at directory
    contradiction
  · intro recovered cleared
    have directory := (recoverStoppedLease_ok cleared).1
    rw [absent] at directory
    contradiction

theorem startsOnlyComplete_marked
    (marked : fs.node (restoreIncompleteMarker :: call.destination) ≠ none) :
    StartsOnlyComplete alive fs call := by
  constructor
  · intro pid nonce after acquired
    exact absurd (acquireStateLease_ok acquired).2.1 marked
  · intro recovered cleared
    exact absurd (recoverStoppedLease_ok cleared).2.1 marked

theorem startsOnlyComplete_complete {profile : Profile} (accepted : Accepted profile call.files)
    (complete : Holds fs call) : StartsOnlyComplete alive fs call := by
  refine ⟨fun _ _ _ _ => complete, fun recovered cleared _ _ _ _ file member => ?_⟩
  have kept := (recoverStoppedLease_ok cleared).2.2.2 (file.name :: call.destination)
  rw [kept, if_neg ?_]
  · exact complete file member
  · intro same
    rw [List.cons.injEq] at same
    exact profile.unlocked (same.1 ▸ accepted.allowed file member)

theorem startsOnlyComplete_unleased (directory : fs.node call.destination = some (.directory true))
    (unmarked : fs.node (restoreIncompleteMarker :: call.destination) = none)
    (unlocked : fs.node (maintenanceLock :: call.destination) = none) (partly : ¬ Holds fs call) :
    ¬ StartsOnlyComplete alive fs call := by
  intro startable
  obtain ⟨after, acquired⟩ := acquireStateLease_succeeds directory unmarked unlocked 1 ""
  exact partly (startable.1 1 "" after acquired)

theorem startsOnlyComplete_leased (directory : fs.node call.destination = some (.directory true))
    (unmarked : fs.node (restoreIncompleteMarker :: call.destination) = none)
    (lock : fs.node (maintenanceLock :: call.destination) = some (.file true (.lease call.pid call.nonce)))
    (valid : 1 ≤ call.pid ∧ call.pid ≤ maxSafeInteger)
    (empty : ∃ file ∈ call.files, fs.node (file.name :: call.destination) = none) :
    StartsOnlyComplete alive fs call ↔ alive call.pid = true := by
  constructor
  · intro startable
    by_contra stopped
    obtain ⟨recovered, cleared⟩ :=
      recoverStoppedLease_succeeds directory unmarked lock valid (Bool.eq_false_iff.mpr stopped)
    have left := (recoverStoppedLease_ok cleared).2.2.2
    have differ : restoreIncompleteMarker :: call.destination ≠ maintenanceLock :: call.destination := by
      simp [restoreIncompleteMarker, maintenanceLock]
    obtain ⟨after, acquired⟩ := acquireStateLease_succeeds
      ((left _).trans ((if_neg (List.cons_ne_self _ _).symm).trans directory))
      ((left _).trans ((if_neg differ).trans unmarked)) ((left _).trans (if_pos rfl)) 1 ""
    obtain ⟨file, member, missing⟩ := empty
    have held := startable.2 recovered cleared 1 "" after acquired file member
    rw [left] at held
    split at held
    · contradiction
    · rw [missing] at held
      contradiction
  · intro running
    constructor
    · intro pid nonce after acquired
      have unlocked := (acquireStateLease_ok acquired).2.2.1
      rw [lock] at unlocked
      contradiction
    · intro recovered cleared
      obtain ⟨pid, nonce, stored, stopped⟩ := (recoverStoppedLease_ok cleared).2.2.1
      rw [lock] at stored
      cases stored
      rw [running] at stopped
      contradiction

end Startable

theorem RestoreCall.staging_ne_destination (call : RestoreCall) : call.staging ≠ call.destination := by
  intro same
  have length := congrArg String.length (List.cons.inj same).1
  simp [String.length] at length
  omega

variable {path : Path} {before opened : Files} {profile : Profile}

theorem RestoreCall.not_staging {call : RestoreCall} (within : call.destination <:+ path) :
    ¬ call.staging <:+ path := by
  intro other
  have suffix : call.staging <:+ call.destination := List.suffix_of_suffix_length_le other within (by
    simp [RestoreCall.staging, RestoreCall.destination])
  have same := suffix.eq_of_length (by simp [RestoreCall.staging, RestoreCall.destination])
  exact call.staging_ne_destination same

theorem child_ne {call : RestoreCall} (first second : String) :
    first :: call.destination ≠ second :: call.staging := by
  intro same
  exact call.staging_ne_destination (List.cons.inj same).2.symm

variable {call : RestoreCall}

variable {files : List RestoredFile} {fs : Files}

theorem stage_completes (distinct : (files.map RestoredFile.name).Nodup)
    (inside : fs.isDirectory call.staging = true)
    (fresh : ∀ file ∈ files, fs.node (file.name :: call.staging) = none) :
    ∃ after, Completes (RestoreStep.apply call) fs (files.map .stage) after ∧
      (∀ file ∈ files, after.node (file.name :: call.staging) = some (.file true (.bytes file.bytes))) ∧
      ∀ path, (∀ file ∈ files, path ≠ file.name :: call.staging) → after.node path = fs.node path := by
  induction files generalizing fs with
  | nil => exact ⟨fs, rfl, by simp, fun _ _ => rfl⟩
  | cons file rest ih =>
    obtain ⟨unnamed, distinct⟩ := List.nodup_cons.mp distinct
    have differ : ∀ other ∈ rest, other.name ≠ file.name := fun other member same =>
      unnamed (List.mem_map.mpr ⟨other, member, same⟩)
    obtain ⟨next, created⟩ := FileSystem.add_succeeds (.file true (.bytes file.bytes)) inside
      (fresh file List.mem_cons_self)
    have written := (FileSystem.add_ok created).2
    have still : next.isDirectory call.staging = true := by
      rw [FileSystem.isDirectory_congr ((written _).trans (if_neg (List.cons_ne_self _ _).symm))]
      exact inside
    obtain ⟨after, completed, staged, frame⟩ := ih distinct still (fun other member => by
      rw [written, if_neg (by simp [differ other member])]
      exact fresh other (List.mem_cons_of_mem _ member))
    refine ⟨after, ⟨next, lift_ok.mpr created, completed⟩, fun other member => ?_, fun path apart => ?_⟩
    · rcases List.mem_cons.mp member with rfl | member
      · rw [frame _ (fun later laterMember => by simpa using (differ later laterMember).symm), written,
          if_pos rfl]
      · exact staged other member
    · rw [frame path (fun later laterMember => apart later (List.mem_cons_of_mem _ laterMember)), written,
        if_neg (apart file List.mem_cons_self)]

theorem publish_completes (distinct : (files.map RestoredFile.name).Nodup)
    (inside : fs.isDirectory call.destination = true)
    (staged : ∀ file ∈ files, fs.node (file.name :: call.staging) = some (.file true (.bytes file.bytes)))
    (fresh : ∀ file ∈ files, fs.node (file.name :: call.destination) = none) :
    ∃ after, Completes (RestoreStep.apply call) fs (files.map .publish) after ∧
      (∀ file ∈ files, after.node (file.name :: call.destination) = some (.file true (.bytes file.bytes))) ∧
      ∀ path, (∀ file ∈ files, path ≠ file.name :: call.destination ∧ path ≠ file.name :: call.staging) →
        after.node path = fs.node path := by
  induction files generalizing fs with
  | nil => exact ⟨fs, rfl, by simp, fun _ _ => rfl⟩
  | cons file rest ih =>
    obtain ⟨unnamed, distinct⟩ := List.nodup_cons.mp distinct
    have differ : ∀ other ∈ rest, other.name ≠ file.name := fun other member same =>
      unnamed (List.mem_map.mpr ⟨other, member, same⟩)
    have free : fs.isDirectory (file.name :: call.destination) = false := by
      simp [FileSystem.isDirectory, fresh file List.mem_cons_self]
    obtain ⟨next, renamed⟩ := FileSystem.rename_succeeds (staged file List.mem_cons_self) inside free
    have moved := FileSystem.rename_ok (child_ne file.name file.name).symm renamed
    have kept : ∀ path, path ≠ file.name :: call.destination → path ≠ file.name :: call.staging →
        next.node path = fs.node path := fun path notTarget notSource => by
      rw [moved, if_neg notTarget, if_neg notSource]
    have still : next.isDirectory call.destination = true := by
      rw [FileSystem.isDirectory_congr (kept _ (List.cons_ne_self _ _).symm ?_)]
      · exact inside
      · intro same
        have length := congrArg List.length same
        simp [RestoreCall.destination, RestoreCall.staging] at length
    obtain ⟨after, completed, published, frame⟩ := ih distinct still
      (fun other member => by
        rw [kept _ (child_ne file.name other.name).symm (by simp [differ other member])]
        exact staged other (List.mem_cons_of_mem _ member))
      (fun other member => by
        rw [kept _ (by simp [differ other member]) (child_ne other.name file.name)]
        exact fresh other (List.mem_cons_of_mem _ member))
    refine ⟨after, ⟨next, lift_ok.mpr renamed, completed⟩, fun other member => ?_, fun path apart => ?_⟩
    · rcases List.mem_cons.mp member with rfl | member
      · rw [frame, moved, if_pos rfl, staged other List.mem_cons_self]
        exact fun later laterMember =>
          ⟨by simpa using (differ later laterMember).symm, child_ne other.name later.name⟩
      · exact published other member
    · obtain ⟨notTarget, notSource⟩ := apart file List.mem_cons_self
      rw [frame path fun later laterMember => apart later (List.mem_cons_of_mem _ laterMember),
        kept path notTarget notSource]

/-- A step changes nothing outside the destination and the staging directory. -/
theorem RestoreStep.apply_outside {step : RestoreStep} {fs after : Files}
    (applied : step.apply call fs = .ok after) (outside : Outside call path) :
    after.node path = fs.node path := by
  have notDestination : ∀ name, path ≠ name :: call.destination := fun name same =>
    outside.1 (same ▸ List.suffix_cons name _)
  have notStaging : ∀ name, path ≠ name :: call.staging := fun name same =>
    outside.2 (same ▸ List.suffix_cons name _)
  cases step with
  | stage file => rw [(FileSystem.add_ok (lift_ok.mp applied)).2, if_neg (notStaging _)]
  | makeDestination =>
    rw [(FileSystem.add_ok (lift_ok.mp applied)).2, if_neg]
    exact fun same => outside.1 (same ▸ List.suffix_refl _)
  | lease => rw [(acquireStateLease_ok applied).2.2.2, if_neg (notDestination _)]
  | mark => rw [(FileSystem.add_ok (lift_ok.mp applied)).2, if_neg (notDestination _)]
  | publish file =>
    rw [FileSystem.rename_ok (child_ne _ _).symm (lift_ok.mp applied), if_neg (notDestination _),
      if_neg (notStaging _)]
  | unmark => rw [FileSystem.unlink_ok (lift_ok.mp applied), if_neg (notDestination _)]
  | release => rw [closeLease_ok applied, if_neg (notDestination _)]

/-- Removing the staging directory, or a part of it, touches nothing else. -/
theorem interrupted_node (opened : Files) (count removals : Nat)
    (elsewhere : ¬ call.staging <:+ path) :
    (interrupted opened call count removals).node path =
      (attempt (RestoreStep.apply call) opened (call.steps.take count)).node path := by
  unfold interrupted
  refine attempt_preserves (fun fs : Files => fs.node path =
    (attempt (RestoreStep.apply call) opened (call.steps.take count)).node path) ?_ rfl
  · intro fs removed member after same applied
    rw [FileSystem.remove_ok applied, if_neg, same]
    intro here
    exact elsewhere (here ▸ FileSystem.suffix_of_mem_below (List.mem_of_mem_take member))

theorem interrupted_outside (opened : Files) (count removals : Nat)
    (outside : Outside call path) :
    (interrupted opened call count removals).node path = opened.node path := by
  rw [interrupted_node opened count removals outside.2]
  refine attempt_preserves (fun fs : Files => fs.node path = opened.node path) ?_ rfl
  intro fs step _ after same applied
  rw [RestoreStep.apply_outside applied outside, same]

/-- What holds once the staging directory is made. -/
structure Opened (profile : Profile) (call : RestoreCall) (before opened : Files) : Prop where
  accepted : Accepted profile call.files
  parent : before.node call.parent = some (.directory true)
  absent : before.node call.destination = none
  fresh : before.node call.staging = none
  node : ∀ path, opened.node path = if path = call.staging then some (.directory true) else before.node path

theorem openRestore_ok {crypto : Crypto} {options : RestoreOptions}
    (started : openRestore crypto profile before options = .ok (call, opened)) :
    Opened profile call before opened := by
  unfold openRestore at started
  cases pinned : pins options.expectedPins with
  | error reason => simp [pinned, bind, Except.bind] at started
  | ok expected =>
  cases checked : privateDirectory before options.parent with
  | error reason => simp [pinned, checked, bind, Except.bind] at started
  | ok _ =>
  simp only [pinned, checked, bind, Except.bind] at started
  split at started
  case isTrue => contradiction
  case isFalse absent =>
    cases keyed : key options.keyBytes with
    | error reason => simp [keyed] at started
    | ok secret =>
    cases decrypted : decrypt crypto profile secret options.envelope expected with
    | error reason => simp [keyed, decrypted] at started
    | ok files =>
    cases made : lift (before.mkdir (options.call files).staging) with
    | error reason => simp [keyed, decrypted, made] at started
    | ok after =>
      simp only [keyed, decrypted, made, pure, Except.pure, Except.ok.injEq, Prod.mk.injEq] at started
      obtain ⟨rfl, rfl⟩ := started
      obtain ⟨fresh, written⟩ := FileSystem.add_ok (lift_ok.mp made)
      unfold privateDirectory at checked
      split at checked
      case isFalse => contradiction
      case isTrue directory =>
        have free : before.node (options.name :: options.parent) = none := by simpa using absent
        exact ⟨decrypt_accepted decrypted, directory, free, fresh, written⟩

/-- While the files are staged there is no destination. -/
theorem destination_absent
    (start : Opened profile call before opened) {count : Nat}
    (staging : count ≤ call.files.length) :
    (attempt (RestoreStep.apply call) opened (call.steps.take count)).node call.destination = none := by
  rw [RestoreCall.steps, attempt_take_first _ (by simpa using staging)]
  refine attempt_preserves (fun fs : Files => fs.node call.destination = none) ?_ ?_
  · intro fs step member after missing applied
    obtain ⟨file, _, rfl⟩ := List.mem_map.mp (List.mem_of_mem_take member)
    rw [(FileSystem.add_ok (lift_ok.mp applied)).2, if_neg, missing]
    intro same
    have length := congrArg List.length same
    simp [RestoreCall.destination, RestoreCall.staging] at length
  · rw [start.node, if_neg call.staging_ne_destination.symm, start.absent]

/-- The stages a restore passes: staged, the destination made, leased, marked, published. -/
structure Publication (call : RestoreCall) (opened staged made leased marked published : Files) : Prop where
  staging : Completes (RestoreStep.apply call) opened (call.files.map .stage) staged
  making : RestoreStep.apply call staged .makeDestination = .ok made
  leasing : RestoreStep.apply call made .lease = .ok leased
  marking : RestoreStep.apply call leased .mark = .ok marked
  publishing : Completes (RestoreStep.apply call) marked (call.files.map .publish) published
  directory : made.node call.destination = some (.directory true)
  empty : ∀ name, made.node (name :: call.destination) = none
  lock : ∀ path, leased.node path = if path = maintenanceLock :: call.destination then
    some (.file true (.lease call.pid call.nonce)) else made.node path
  mark : marked.node (restoreIncompleteMarker :: call.destination) ≠ none
  complete : Holds published call

theorem publication (start : Opened profile call before opened) :
    ∃ staged made leased marked published, Publication call opened staged made leased marked published := by
  obtain ⟨accepted, parent, absent, fresh, opening⟩ := start
  have stagingDirectory : opened.isDirectory call.staging = true :=
    FileSystem.isDirectory_iff.mpr ⟨true, (opening _).trans (if_pos rfl)⟩
  obtain ⟨staged, staging, contents, frame⟩ := stage_completes accepted.distinct stagingDirectory
    (fun file _ => by
      rw [opening, if_neg (List.cons_ne_self _ _)]
      exact before.node_child_eq_none (by simp [FileSystem.isDirectory, fresh]) file.name)
  have untouched : ∀ path, ¬ call.staging <:+ path → staged.node path = before.node path := by
    intro path apart
    rw [frame path fun file _ same => apart (same ▸ List.suffix_cons _ _), opening, if_neg]
    exact fun same => apart (same ▸ List.suffix_refl _)
  have stagedParent : staged.isDirectory call.parent = true := by
    refine FileSystem.isDirectory_iff.mpr ⟨true, ?_⟩
    rw [untouched, parent]
    intro within
    have length := within.length_le
    simp only [RestoreCall.staging, List.length_cons] at length
    omega
  have stagedAbsent : staged.node call.destination = none := by
    rw [untouched _ (RestoreCall.not_staging (List.suffix_refl _)), absent]
  obtain ⟨made, making⟩ := FileSystem.add_succeeds (.directory true) stagedParent stagedAbsent
  have madeNode : ∀ path, made.node path =
      if path = call.destination then some (.directory true) else staged.node path :=
    (FileSystem.add_ok making).2
  have directory : made.node call.destination = some (.directory true) := (madeNode _).trans (if_pos rfl)
  have empty : ∀ name, made.node (name :: call.destination) = none := by
    intro name
    rw [madeNode, if_neg (List.cons_ne_self _ _)]
    exact staged.node_child_eq_none (by simp [FileSystem.isDirectory, stagedAbsent]) name
  obtain ⟨leased, leasing⟩ := acquireStateLease_succeeds directory (empty _) (empty _) call.pid call.nonce
  have leasedNode := (acquireStateLease_ok leasing).2.2.2
  have leasedDirectory : leased.isDirectory call.destination = true := by
    rw [FileSystem.isDirectory_congr ((leasedNode _).trans (if_neg (List.cons_ne_self _ _).symm))]
    exact FileSystem.isDirectory_iff.mpr ⟨true, directory⟩
  have differ : restoreIncompleteMarker :: call.destination ≠ maintenanceLock :: call.destination := by
    simp [restoreIncompleteMarker, maintenanceLock]
  obtain ⟨marked, marking⟩ := FileSystem.add_succeeds
    (.file true (.bytes "quarantined restore publication".toUTF8.toList)) leasedDirectory
    ((leasedNode _).trans ((if_neg differ).trans (empty _)))
  have markedNode := (FileSystem.add_ok marking).2
  have plain : ∀ file ∈ call.files, file.name :: call.destination ≠ restoreIncompleteMarker :: call.destination ∧
      file.name :: call.destination ≠ maintenanceLock :: call.destination := by
    intro file member
    have allowed := accepted.allowed file member
    simp only [ne_eq, List.cons.injEq, and_true]
    exact ⟨fun same => profile.unmarked (same ▸ allowed), fun same => profile.unlocked (same ▸ allowed)⟩
  have markedDirectory : marked.isDirectory call.destination = true := by
    rw [FileSystem.isDirectory_congr ((markedNode _).trans (if_neg (List.cons_ne_self _ _).symm))]
    exact leasedDirectory
  obtain ⟨published, publishing, complete, _⟩ := publish_completes accepted.distinct markedDirectory
    (fun file member => by
      rw [markedNode, if_neg (child_ne _ _).symm, leasedNode, if_neg (child_ne _ _).symm, madeNode,
        if_neg, contents file member]
      intro same
      have length := congrArg List.length same
      simp [RestoreCall.destination, RestoreCall.staging] at length)
    (fun file member => by
      rw [markedNode, if_neg (plain file member).1, leasedNode, if_neg (plain file member).2, empty])
  exact ⟨staged, made, leased, marked, published, staging, lift_ok.mpr making, leasing, lift_ok.mpr marking,
    publishing, directory, empty, leasedNode, by rw [markedNode, if_pos rfl]; exact Option.some_ne_none _,
    complete⟩

namespace Publication

variable {opened staged made leased marked published : Files}

/-- The stages reached at the three cuts after the files are staged, and beyond. -/
theorem cut (stages : Publication call opened staged made leased marked published) (past : Nat) :
    attempt (RestoreStep.apply call) opened (call.steps.take (call.files.length + past)) =
      attempt (RestoreStep.apply call) staged
        ((.makeDestination :: .lease :: .mark :: call.publication).take past) := by
  rw [RestoreCall.steps, attempt_take_append _ stages.staging (by simp)]
  simp

theorem cut_made (stages : Publication call opened staged made leased marked published) :
    attempt (RestoreStep.apply call) opened (call.steps.take (call.files.length + 1)) = made := by
  rw [stages.cut]
  exact attempt_cons_ok stages.making []

theorem cut_leased (stages : Publication call opened staged made leased marked published) :
    attempt (RestoreStep.apply call) opened (call.steps.take (call.files.length + 2)) = leased := by
  rw [stages.cut]
  exact (attempt_cons_ok stages.making [.lease]).trans (attempt_cons_ok stages.leasing [])

theorem cut_marked (stages : Publication call opened staged made leased marked published) (past : Nat) :
    attempt (RestoreStep.apply call) opened (call.steps.take (call.files.length + (past + 3))) =
      attempt (RestoreStep.apply call) marked (call.publication.take past) := by
  rw [stages.cut]
  simp only [List.take_succ_cons]
  rw [attempt_cons_ok stages.making, attempt_cons_ok stages.leasing, attempt_cons_ok stages.marking]

/-- From the marker on, the marker is there or every file is. -/
theorem cut_guarded {profile : Profile} (accepted : Accepted profile call.files)
    (stages : Publication call opened staged made leased marked published) (past : Nat) :
    let stopped := attempt (RestoreStep.apply call) opened (call.steps.take (call.files.length + (past + 3)))
    stopped.node (restoreIncompleteMarker :: call.destination) ≠ none ∨ Holds stopped call := by
  dsimp only
  rw [stages.cut_marked, RestoreCall.publication]
  by_cases inside : past ≤ (call.files.map RestoreStep.publish).length
  · left
    rw [attempt_take_first _ inside]
    refine attempt_preserves (fun fs : Files => fs.node (restoreIncompleteMarker :: call.destination) ≠ none)
      ?_ stages.mark
    intro fs step member after marked applied
    obtain ⟨file, fileMember, rfl⟩ := List.mem_map.mp (List.mem_of_mem_take member)
    rw [FileSystem.rename_ok (child_ne _ _).symm (lift_ok.mp applied), if_neg, if_neg (child_ne _ _)]
    · exact marked
    · intro same
      exact profile.unmarked ((List.cons.inj same).1 ▸ accepted.allowed file fileMember)
  · right
    rw [attempt_take_append _ stages.publishing (Nat.le_of_not_le inside)]
    refine attempt_preserves (fun fs : Files => Holds fs call) ?_ stages.complete
    intro fs step member after complete applied file fileMember
    have allowed := accepted.allowed file fileMember
    have unmark : file.name :: call.destination ≠ restoreIncompleteMarker :: call.destination := fun same =>
      profile.unmarked ((List.cons.inj same).1 ▸ allowed)
    have unlock : file.name :: call.destination ≠ maintenanceLock :: call.destination := fun same =>
      profile.unlocked ((List.cons.inj same).1 ▸ allowed)
    have last := List.mem_of_mem_take member
    simp only [List.mem_cons, List.not_mem_nil, or_false] at last
    rcases last with rfl | rfl
    · rw [FileSystem.unlink_ok (lift_ok.mp applied), if_neg unmark]
      exact complete file fileMember
    · rw [closeLease_ok applied, if_neg unlock]
      exact complete file fileMember

/-- What lies at and below the destination does not depend on the removal of the staging directory. -/
theorem within (count removals : Nat) {path : Path} (below : call.destination <:+ path) :
    (interrupted opened call count removals).node path =
      (attempt (RestoreStep.apply call) opened (call.steps.take count)).node path :=
  interrupted_node opened count removals (RestoreCall.not_staging below)

theorem startable_made {profile : Profile} (accepted : Accepted profile call.files)
    (stages : Publication call opened staged made leased marked published) (alive : Nat → Bool)
    (removals : Nat) :
    ¬ StartsOnlyComplete alive (interrupted opened call (call.files.length + 1) removals) call := by
  have child : ∀ name, (interrupted opened call (call.files.length + 1) removals).node
      (name :: call.destination) = none := fun name => by
    rw [within _ _ (List.suffix_cons _ _), stages.cut_made, stages.empty]
  have root := @within call opened (call.files.length + 1) removals _ (List.suffix_refl call.destination)
  rw [stages.cut_made, stages.directory] at root
  obtain ⟨file, member⟩ := List.exists_mem_of_ne_nil _ accepted.nonempty
  refine startsOnlyComplete_unleased root (child _) (child _) fun held => ?_
  have missing := held file member
  rw [child] at missing
  contradiction

theorem startable_leased {profile : Profile} (accepted : Accepted profile call.files)
    (stages : Publication call opened staged made leased marked published)
    (valid : 1 ≤ call.pid ∧ call.pid ≤ maxSafeInteger) (alive : Nat → Bool) (removals : Nat) :
    StartsOnlyComplete alive (interrupted opened call (call.files.length + 2) removals) call ↔
      alive call.pid = true := by
  have node : ∀ path, call.destination <:+ path →
      (interrupted opened call (call.files.length + 2) removals).node path =
        if path = maintenanceLock :: call.destination then some (.file true (.lease call.pid call.nonce))
        else made.node path := fun path below => by
    rw [within _ _ below, stages.cut_leased, stages.lock]
  have child := fun name => node (name :: call.destination) (List.suffix_cons _ _)
  have root := node call.destination (List.suffix_refl _)
  rw [if_neg (List.cons_ne_self _ _).symm, stages.directory] at root
  have differ : restoreIncompleteMarker :: call.destination ≠ maintenanceLock :: call.destination := by
    simp [restoreIncompleteMarker, maintenanceLock]
  obtain ⟨file, member⟩ := List.exists_mem_of_ne_nil _ accepted.nonempty
  have plain : file.name :: call.destination ≠ maintenanceLock :: call.destination := fun same =>
    profile.unlocked ((List.cons.inj same).1 ▸ accepted.allowed file member)
  exact startsOnlyComplete_leased root ((child _).trans ((if_neg differ).trans (stages.empty _)))
    ((child _).trans (if_pos rfl)) valid ⟨file, member, (child _).trans ((if_neg plain).trans (stages.empty _))⟩

end Publication

/-- An interrupted restore is startable before it is complete exactly between the
making of its destination and its marker.  Nothing else of the file system changes. -/
theorem restoreProfile_unstartable_iff {crypto : Crypto} {profile : Profile} {options : RestoreOptions}
    {before opened : Files} {call : RestoreCall}
    (started : openRestore crypto profile before options = .ok (call, opened))
    (valid : 1 ≤ call.pid ∧ call.pid ≤ maxSafeInteger) (alive : Nat → Bool) (count removals : Nat) :
    (StartsOnlyComplete alive (interrupted opened call count removals) call ↔ ¬ Exposed alive call count) ∧
    ∀ path, Outside call path → (interrupted opened call count removals).node path = before.node path := by
  have start := openRestore_ok started
  have accepted := start.accepted
  obtain ⟨staged, made, leased, marked, published, stages⟩ := publication start
  refine ⟨?_, fun path outside => ?_⟩
  · by_cases staging : count ≤ call.files.length
    · have absent : (interrupted opened call count removals).node call.destination = none := by
        rw [Publication.within count removals (List.suffix_refl _)]
        exact destination_absent start staging
      have closed : ¬ Exposed alive call count := by
        unfold Exposed
        omega
      exact iff_of_true (startsOnlyComplete_absent absent) closed
    · obtain ⟨past, rfl⟩ : ∃ past, count = call.files.length + (past + 1) :=
        ⟨count - call.files.length - 1, by omega⟩
      match past with
      | 0 => exact iff_of_false (stages.startable_made accepted alive removals) (not_not.mpr (Or.inl rfl))
      | 1 =>
        have exposed : Exposed alive call (call.files.length + (1 + 1)) ↔ alive call.pid = false := by
          simp [Exposed]
        rw [exposed, Bool.not_eq_false]
        exact stages.startable_leased accepted valid alive removals
      | past + 2 =>
        have closed : ¬ Exposed alive call (call.files.length + (past + 2 + 1)) := by
          unfold Exposed
          omega
        have child := fun name => @Publication.within call opened
          (call.files.length + (past + 2 + 1)) removals _ (List.suffix_cons name call.destination)
        refine iff_of_true ?_ closed
        rcases stages.cut_guarded accepted past with marked | complete
        · exact startsOnlyComplete_marked (by rw [child]; exact marked)
        · exact startsOnlyComplete_complete accepted fun file member => (child _).trans (complete file member)
  · rw [interrupted_outside opened count removals outside, start.node, if_neg]
    exact fun same => outside.2 (same ▸ List.suffix_refl _)

def emptyDigest : String := "e3b0c44298fc1c149afbf4c8996fb92427ae41e4649b934ca495991b7852b855"

/-- Two of the primitives at the inputs below: the digest of no bytes, and the clear text. -/
def emptyFileCrypto : Crypto where
  sha256 := fun _ => emptyDigest
  decipher := fun _ _ _ _ _ => some
    { manifest := ⟨1, "runner.v1", "b1", String.ofList (List.replicate 64 '0'), some 1767225600000, true⟩
      files := [⟨"worker.db", 0, emptyDigest, ""⟩] }

def emptyFileEnvelope : Envelope where
  header := ⟨"fractionate-worker-encrypted-state", 1, "aes-256-gcm"⟩
  nonce := "AAAAAAAAAAAAAAAA"
  tag := "ya1E240TnkWnzbAs0t1rgw=="
  ciphertext :=
    "tYUtXCMJDQt0OufpwdHrfQATaqVZhBBF/YCW4RtyR+++Pu5eKDiSEi6Gex5lfkOZKSS5z/eKXRxDHmiKx2gYJfKmvlENik5Y" ++
    "DvPFhx71DsfZ3D2S+uyWHdaMLFZkbi2dm8pH/V616hRvgI311RzMGYo60ZsYB9DDU7eHPqMnUCJzUvKLVujEgQfM2AQcrOO2" ++
    "kSRyptJCSoTHbodSyXGwHeRAn5/Jdd8EjW6Ys0B97funUhJkUjpaQJxwxRnLCAZKVPoNoTk1i2qclGK6dMYus9nFdUC+vFKT" ++
    "3A+oVAqx10Jx44JgJ5Vh04jmM8Ez/nZJPL26HKyl3eUGe94606XGDk1AcAs4GHKS6NSAsY2FzS4lZ0ZEWCOhBaQ/aUkJes4l" ++
    "yv2+n7N6uEpoUOcgRnsTtnsDDq9Ix3vk8z3MxIvUV4tfpWIQJXgY+T3S3KhU69bDC8nWvjfYgkX9nw=="

def emptyFileRestore : RestoreOptions where
  parent := ["private"]
  name := "restored"
  keyBytes := List.replicate 32 0
  envelope := some emptyFileEnvelope
  expectedPins := ⟨"b1", String.ofList (List.replicate 64 '0')⟩
  stagingId := "a"
  nonce := "b"
  pid := 7

def privateParent : Files := FileSystem.root.place "private" [] (.directory true) rfl rfl

def emptyFileCall : RestoreCall := emptyFileRestore.call [⟨"worker.db", []⟩]

theorem openRestore_emptyFile : ∃ opened,
    openRestore emptyFileCrypto worker privateParent emptyFileRestore = .ok (emptyFileCall, opened) := by
  have pinned : pins emptyFileRestore.expectedPins = .ok emptyFileRestore.expectedPins := by
    decide +kernel
  exact ⟨_, by rw [openRestore, pinned]; simp only [bind, Except.bind]; rfl⟩

/-- Cut after the marker is written, and after its removal. -/
theorem restoreProfile_unstartable_iff_emptyFile : ∃ opened,
    openRestore emptyFileCrypto worker privateParent emptyFileRestore = .ok (emptyFileCall, opened) ∧
      StartsOnlyComplete (fun _ => false) (interrupted opened emptyFileCall 4 1) emptyFileCall ∧
      StartsOnlyComplete (fun _ => false) (interrupted opened emptyFileCall 6 0) emptyFileCall := by
  obtain ⟨opened, started⟩ := openRestore_emptyFile
  have starts := fun count removals =>
    (restoreProfile_unstartable_iff started (by decide) (fun _ => false) count removals).1
  exact ⟨opened, started, (starts 4 1).mpr (by simp [Exposed, emptyFileCall, RestoreOptions.call]),
    (starts 6 0).mpr (by simp [Exposed, emptyFileCall, RestoreOptions.call])⟩

/-- Cut between the making of the destination and its lease, the empty destination
is startable; cut between lease and marker, it is after the lease is recovered. -/
theorem restoreProfile_startable_unmarked : ∃ opened,
    openRestore emptyFileCrypto worker privateParent emptyFileRestore = .ok (emptyFileCall, opened) ∧
      ¬ StartsOnlyComplete (fun _ => false) (interrupted opened emptyFileCall 2 0) emptyFileCall ∧
      ¬ StartsOnlyComplete (fun _ => false) (interrupted opened emptyFileCall 3 0) emptyFileCall := by
  obtain ⟨opened, started⟩ := openRestore_emptyFile
  have start := openRestore_ok started
  obtain ⟨_, _, _, _, _, stages⟩ := publication start
  refine ⟨opened, started, stages.startable_made start.accepted _ 0, ?_⟩
  exact fun startable => Bool.false_ne_true
    ((stages.startable_leased start.accepted (by decide) (fun _ => false) 0).mp startable)

end ProxyPilot.Recovery
