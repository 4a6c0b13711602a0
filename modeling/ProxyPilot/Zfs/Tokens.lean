import ProxyPilot.Zfs.Canonical
import ProxyPilot.Zfs.Destroy
import ProxyPilot.Zfs.Rollback

namespace ProxyPilot.Zfs

open Data
open Zpool (Text StepKind)

/-! # Plan tokens (`planner.js`)

The token of a plan is the digest of its canonical text.  The digest is a parameter: what
it is taken to be for is said where it is needed.
-/

/-- `createHash('sha256').update(text).digest('hex')` -/
abbrev Digest := Units → Text

def planToken (sha256 : Digest) (plan : Value) : Text := sha256 (canonical plan)

/-- `/^[0-9a-f]{64}$/` -/
def isToken (token : Text) : Bool := token.length == 64 && token.all lowerHexChar

structure Verified where
  ok : Bool
  error : Option Text
  token : Text

/-- A token that is no string is `none`. -/
def verifyPlanToken (sha256 : Digest) (plan : Value) (token : Option Text) : Verified :=
  let want := planToken sha256 plan
  match token.filter isToken with
  | none =>
    ⟨false, some
      "plan_token is missing or malformed — call with dry_run: true to get the plan and its token".toList, want⟩
  | some token =>
    if token ≠ want then
      ⟨false, some
        ("plan_token does not match the current plan: the host state or the parameters changed since the dry run. ".toList ++
        "Re-run dry_run, review the new plan, and confirm again.".toList), want⟩
    else ⟨true, none, want⟩

theorem verifyPlanToken_ok {sha256 : Digest} {plan : Value} {token : Text} (hex : isToken token = true) :
    (verifyPlanToken sha256 plan (some token)).ok = true ↔ token = planToken sha256 plan := by
  have kept : (some token).filter isToken = some token := by simp [hex]
  unfold verifyPlanToken
  simp only [kept]
  split
  · next other => simpa using other
  · next same => simpa using same

def textValue (text : Text) : Value := .text (Utf16.encode text)

def optional (text : Option Text) : Value := text.elim .null textValue

def texts (list : List Text) : Value := .array (list.map textValue)

/-- A field that is left out when there is nothing in it. -/
def present (name : String) (text : Option Text) : List (Units × Value) :=
  text.toList.map fun text => (Utf16.encode name.toList, textValue text)

def fieldsOf (fields : List (String × Value)) : List (Units × Value) :=
  fields.map fun field => (Utf16.encode field.1.toList, field.2)

def kindText : StepKind → Text
  | .exec => "exec".toList
  | .verify => "verify".toList

def Step.value (step : Step) : Value :=
  .object (fieldsOf [("id", textValue step.id), ("argv", texts step.argv),
    ("description", textValue step.description), ("stdin", optional step.stdin),
    ("timeout_ms", .number (.ofNat step.timeout_ms)), ("ignore_failure", .bool step.ignore_failure),
      ("kind", textValue (kindText step.kind))] ++
    present "expect" step.expect)

def Plan.value (plan : Plan) : Value :=
  .object (fieldsOf [("op", textValue plan.op), ("subject", textValue plan.subject),
    ("summary", textValue plan.summary),
    ("steps", .array (plan.steps.map Step.value)), ("warnings", texts plan.warnings),
      ("reversal", optional plan.reversal),
    ("touches", texts plan.touches)] ++ present "stream_file" plan.stream_file)

/-- What `newPlan` is called with. -/
structure Heading where
  op : Text
  subject : Text
  summary : Text

section Again

variable {α β : Type}

/-- A planner of the module: its checks, then `newPlan`, then whatever it does with the counter
until it has its plan or gives up. -/
def planWith (checks : Except Text α) (heading : α → Heading)
    (body : α → Plan → Counted (Except Text β)) (seq : Nat) : Except Text β × Nat :=
  match checks with
  | .error error => (.error error, seq)
  | .ok found =>
    (newPlan (heading found).op (heading found).subject (heading found).summary >>= body found).run seq

/-- What a planner answers does not depend on the plans that were made before. -/
theorem planWith_again (checks : Except Text α) (heading : α → Heading)
    (body : α → Plan → Counted (Except Text β)) (seq later : Nat) :
    (planWith checks heading body seq).1 = (planWith checks heading body later).1 := by
  unfold planWith
  cases checks with
  | error error => rfl
  | ok found => rfl

end Again

/-- A planner whose plan does not depend on the counter. -/
def Repeats (plan : Planner) : Prop := ∀ seq later, (plan seq).1 = (plan later).1

theorem planDestroyDataset_repeats (inv : Inventory) (dataset : Option Text) :
    Repeats (planDestroyDataset inv dataset) := by
  intro seq later
  unfold planDestroyDataset planner
  cases destroyChecks inv dataset <;> rfl

theorem planRollback_repeats (dateParse : Text → Option Rat) (inv : Inventory) (params : RollbackParams) :
    Repeats (planRollback dateParse inv params) := by
  intro seq later
  unfold planRollback planner
  cases rollbackChecks dateParse inv params <;> rfl

theorem planRollbackGuestDataset_repeats (dateParse : Text → Option Rat) (inv : Inventory)
    (params : GuestRollbackParams) :
    Repeats (planRollbackGuestDataset dateParse inv params) := by
  intro seq later
  unfold planRollbackGuestDataset planner
  cases guestRollbackChecks dateParse inv params with
  | error error => rfl
  | ok found =>
    unfold guestRollbackPlan
    cases found.running <;> cases params.start_after <;> rfl

theorem distinct_textValue (text : Text) : (textValue text).Distinct := trivial

theorem distinct_optional (text : Option Text) : (optional text).Distinct := by cases text <;> trivial

theorem distinct_texts (list : List Text) : (texts list).Distinct := by
  refine Value.distinctItems_iff.mpr fun item member => ?_
  obtain ⟨text, _, rfl⟩ := List.mem_map.mp member
  exact distinct_textValue text

theorem fieldsOf_names (fields : List (String × Value)) :
    (fieldsOf fields).map Prod.fst = (fields.map Prod.fst).map fun name =>
      Utf16.encode name.toList := by simp [fieldsOf]

theorem present_names (name : String) (text : Option Text) :
    (present name text).map Prod.fst = if text.isSome then [Utf16.encode name.toList] else [] := by
  cases text <;> rfl

theorem Step.value_distinct (step : Step) : step.value.Distinct := by
  refine ⟨?_, Value.distinctFields_iff.mpr fun entry member => ?_⟩
  · rw [List.map_append, fieldsOf_names, present_names]
    simp only [List.map_cons, List.map_nil]
    cases step.expect with
    | none => decide
    | some _ =>
      simp only [Option.isSome_some, if_true]
      decide
  · rcases List.mem_append.mp member with named | extra
    · simp only [fieldsOf, List.map_cons, List.map_nil, List.mem_cons, List.not_mem_nil, or_false] at named
      rcases named with rfl | rfl | rfl | rfl | rfl | rfl | rfl
      all_goals first | trivial | exact distinct_texts _ | exact distinct_optional _
    · obtain ⟨text, _, rfl⟩ := List.mem_map.mp extra
      exact distinct_textValue text

/-- No object in a plan has two fields of one name. -/
theorem Plan.value_distinct (plan : Plan) : plan.value.Distinct := by
  refine ⟨?_, Value.distinctFields_iff.mpr fun entry member => ?_⟩
  · rw [List.map_append, fieldsOf_names, present_names]
    simp only [List.map_cons, List.map_nil]
    cases plan.stream_file with
    | none => decide
    | some _ =>
      simp only [Option.isSome_some, if_true]
      decide
  · have steps : (Value.array (plan.steps.map Step.value)).Distinct := by
      refine Value.distinctItems_iff.mpr fun item member => ?_
      obtain ⟨step, _, rfl⟩ := List.mem_map.mp member
      exact step.value_distinct
    rcases List.mem_append.mp member with named | extra
    · simp only [fieldsOf, List.map_cons, List.map_nil, List.mem_cons, List.not_mem_nil, or_false] at named
      rcases named with rfl | rfl | rfl | rfl | rfl | rfl | rfl
      all_goals first | exact steps | exact distinct_texts _ | exact distinct_optional _ | trivial
    · obtain ⟨text, _, rfl⟩ := List.mem_map.mp extra
      exact distinct_textValue text

/-- The digest tells the texts of two values apart. -/
def NoCollision (sha256 : Digest) (p q : Value) : Prop :=
  sha256 (canonical p) = sha256 (canonical q) → canonical p = canonical q

theorem verify_iff {sha256 : Digest} (hex : ∀ text, isToken (sha256 text) = true) {p q : Value}
    (distinct : p.Distinct) (distinctToo : q.Distinct)
    (apart : NoCollision sha256 p q) :
    (verifyPlanToken sha256 q (some (planToken sha256 p))).ok = true ↔ p.Same q := by
  refine (verifyPlanToken_ok (hex (canonical p))).trans ?_
  rw [← canonical_iff distinct distinctToo]
  constructor
  · exact apart
  · intro same
    simp only [planToken, same]

/-- The token of a plan verifies the plans that are equal to it, and planning again gives the same
token whatever was planned in between. -/
theorem token_fits_one_plan (sha256 : Digest) (hex : ∀ text, isToken (sha256 text) = true) :
    (∀ p q : Value, p.Distinct → q.Distinct → NoCollision sha256 p q →
      ((verifyPlanToken sha256 q (some (planToken sha256 p))).ok = true ↔ p.Same q)) ∧
    (∀ (α β : Type) (checks : Except Text α) (heading : α → Heading) (body : α → Plan →
      Counted (Except Text β)) (value : β → Value)
      (between : List (Nat → Nat)) (seq : Nat),
      let first := planWith checks heading body seq
      let again := planWith checks heading body (between.foldl (fun seq other => other seq) first.2)
      again.1.map (fun plan => planToken sha256 (value plan)) = first.1.map fun plan =>
        planToken sha256 (value plan)) ∧
    (∀ (inv : Inventory) (dataset : Option Text), Repeats (planDestroyDataset inv dataset)) ∧
    (∀ (dateParse : Text → Option Rat) (inv : Inventory) (params : RollbackParams),
      Repeats (planRollback dateParse inv params)) ∧
    (∀ (dateParse : Text → Option Rat) (inv : Inventory) (params : GuestRollbackParams),
      Repeats (planRollbackGuestDataset dateParse inv params)) ∧
    ∀ p q : Plan, NoCollision sha256 p.value q.value →
      ((verifyPlanToken sha256 q.value (some (planToken sha256 p.value))).ok = true ↔ p.value.Same q.value) := by
  refine ⟨fun p q distinct distinctToo apart => verify_iff hex distinct distinctToo apart, ?_,
    planDestroyDataset_repeats, planRollback_repeats, planRollbackGuestDataset_repeats,
    fun p q apart => verify_iff hex p.value_distinct q.value_distinct apart⟩
  intro α β checks heading body value between seq
  simp only []
  rw [planWith_again checks heading body _ seq]

def samplePlan (b : Nat) : Value :=
  .object (fieldsOf [("b", .number (.ofNat b)), ("a", .array [.bool true, .undefined])])

/-- The first plan with its fields in the other order. -/
def samplePlanAgain : Value := .object (fieldsOf [("a", .array [.bool true, .null]), ("b", .number (.ofNat 1))])

/-- SHA-256 on the texts of these plans. -/
def sampleDigest : Digest := fun text =>
  if text = canonical (samplePlan 1) then "51705a2c9eb3e7e410a58f696a770c3ac3885a0cf43eb7fc88f5e47c11d4d30d".toList
  else if text = canonical (samplePlan 2)
    then "b1ceec24dcbf8e9a1925a7ee8a08c8f3f79c6ea315d5b4445a4718159649a28c".toList
  else List.replicate 64 '0'

theorem sampleDigest_hex (text : Units) : isToken (sampleDigest text) = true := by
  unfold sampleDigest
  split
  · decide +kernel
  · split <;> decide +kernel

/-- The token of the first plan verifies it in the other order of its fields, and not the second plan. -/
theorem token_fits_one_plan_sample :
    (verifyPlanToken sampleDigest samplePlanAgain (some (planToken sampleDigest (samplePlan 1)))).ok = true ∧
      (verifyPlanToken sampleDigest (samplePlan 2) (some (planToken sampleDigest (samplePlan 1)))).ok ≠ true := by
  have plain : ∀ b, (samplePlan b).Distinct := by
    intro b
    refine ⟨?_, by simp [fieldsOf, Value.DistinctFields, Value.DistinctItems, Value.Distinct]⟩
    rw [fieldsOf_names]
    simp only [List.map_cons, List.map_nil]
    decide
  have plainAgain : samplePlanAgain.Distinct :=
    ⟨by decide +kernel, by simp [fieldsOf, Value.DistinctFields, Value.DistinctItems, Value.Distinct]⟩
  have same : (samplePlan 1).Same samplePlanAgain := (canonical_iff (plain 1) plainAgain).mp (by decide +kernel)
  have other : ¬(samplePlan 1).Same (samplePlan 2) := by
    intro same
    have equal := (canonical_iff (plain 1) (plain 2)).mpr same
    revert equal
    decide +kernel
  have fits := (token_fits_one_plan sampleDigest sampleDigest_hex).1
  refine ⟨(fits _ _ (plain 1) plainAgain ?_).mpr same, fun ok => other ((fits _ _ (plain 1) (plain 2) ?_).mp ok)⟩
  · exact fun _ => by decide +kernel
  · intro collide
    revert collide
    decide +kernel

end ProxyPilot.Zfs
