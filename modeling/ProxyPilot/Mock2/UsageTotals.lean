import Mathlib.Tactic.Ring
import Mathlib.Tactic.NormNum
import Mathlib.Data.List.ReduceOption
import ProxyPilot.Mock2.Usage

namespace ProxyPilot.Mock2.Usage

theorem sum_eq_bot (values : List Number) : values.sum = ⊥ ↔ ⊥ ∈ values := by
  induction values with
  | nil => simp
  | cons value rest ih => rw [List.sum_cons, WithBot.add_eq_bot, ih, List.mem_cons, eq_comm (a := value)]

theorem sum_coe (items : List α) (f : α → Rat) :
    (items.map (fun item => (f item : Number))).sum = ((items.map f).sum : Rat) := by
  induction items with
  | nil => rfl
  | cons item rest ih => simp only [List.map_cons, List.sum_cons, ih, WithBot.coe_add]

theorem sum_sub (items : List α) (f g : α → Rat) :
    (items.map f).sum - (items.map g).sum = (items.map (fun item => f item - g item)).sum := by
  induction items with
  | nil => simp
  | cons item rest ih =>
    simp only [List.map_cons, List.sum_cons, ← ih]
    ring

/-- The least of some stamps and the current one. -/
def least (stamps : List Number) : Number := stamps.foldr min (USAGE_SCHEMA_VERSION : Number)

theorem least_le (stamps : List Number) : least stamps ≤ (USAGE_SCHEMA_VERSION : Number) := by
  induction stamps with
  | nil => exact le_refl _
  | cons stamp rest ih => exact (min_le_right _ _).trans ih

theorem least_append (left right : List Number) : least (left ++ right) = min (least left) (least right) := by
  induction left with
  | nil => exact (min_eq_right (least_le right)).symm
  | cons stamp rest ih =>
    show min stamp (least (rest ++ right)) = min (min stamp (least rest)) (least right)
    rw [ih, min_assoc]

theorem le_least (stamps : List Number) :
    (USAGE_SCHEMA_VERSION : Number) ≤ least stamps ↔
      ∀ stamp ∈ stamps, (USAGE_SCHEMA_VERSION : Number) ≤ stamp := by
  induction stamps with
  | nil => simp [least]
  | cons stamp rest ih => simp [least, ← ih]

inductive Measure where
  | input
  | output
  | cacheRead
  | cacheWrite
  | cost
deriving DecidableEq

namespace Measure

/-- The spellings of a measure, its canonical name first. -/
def spellings : Measure → List String
  | input => INPUT
  | output => OUTPUT
  | cacheRead => CACHE_READ
  | cacheWrite => CACHE_WRITE
  | cost => ["cost_cents", "used_cost_cents"]

def name : Measure → String
  | input => "input"
  | output => "output"
  | cacheRead => "cache_read"
  | cacheWrite => "cache_write"
  | cost => "cost_cents"

end Measure

def Total.get (total : Total) : Measure → Number
  | .input => total.input
  | .output => total.output
  | .cacheRead => total.cache_read
  | .cacheWrite => total.cache_write
  | .cost => total.cost_cents

def Canonical.get (usage : Canonical) : Measure → Rat
  | .input => usage.input
  | .output => usage.output
  | .cacheRead => usage.cache_read
  | .cacheWrite => usage.cache_write
  | .cost => usage.cost_cents

theorem Total.ext_get {left right : Total} (figures : ∀ measure, left.get measure = right.get measure)
    (stamps : left.schema_version = right.schema_version) : left = right := by
  obtain ⟨i, o, r, w, c, s⟩ := left
  have input := figures .input
  have output := figures .output
  have read := figures .cacheRead
  have write := figures .cacheWrite
  have cost := figures .cost
  simp only [Total.get] at input output read write cost
  simp_all

section

variable (readNumber : String → Number)

@[simp] theorem Canonical.row_amount (usage : Canonical) (measure : Measure) :
    usage.row.amount readNumber measure.name = (usage.get measure : Number) := by
  cases measure <;> simp [Canonical.row, Row.amount, Row.get, Row.fields, Measure.name, Canonical.get,
    Value.orZero, Value.toNumber, List.lookup_cons]

@[simp] theorem Canonical.row_stamp (usage : Canonical) :
    usage.row.get "schema_version" = usage.schema_version := by
  simp [Canonical.row, Row.get, Row.fields, List.lookup_cons]

theorem addRow_get (acc : Total) (row : Row) (measure : Measure) :
    (addRow readNumber acc row).get measure =
      acc.get measure + (counted readNumber row).amount readNumber measure.name := by
  cases measure <;> rfl

/-- The stamp a row brings into a sum: the current one when it brings none. -/
def stampOf (row : Row) : Number :=
  if (counted readNumber row).get "schema_version" = .missing then USAGE_SCHEMA_VERSION
  else ((counted readNumber row).get "schema_version").toNumber readNumber

theorem addRow_stamp (acc : Total) (row : Row) (current : acc.schema_version ≤ (USAGE_SCHEMA_VERSION : Number)) :
    (addRow readNumber acc row).schema_version = min acc.schema_version (stampOf readNumber row) := by
  by_cases missing : (counted readNumber row).get "schema_version" = .missing
  · simp [addRow, stampOf, missing, current]
  · simp [addRow, stampOf, missing]

theorem foldl_get (records : List (Option Row)) (acc : Total × Bool) (measure : Measure) :
    (records.foldl (addRecord readNumber) acc).1.get measure = acc.1.get measure +
      (records.reduceOption.map (fun row => (counted readNumber row).amount readNumber measure.name)).sum := by
  induction records generalizing acc with
  | nil => exact (add_zero _).symm
  | cons record rest ih =>
    rw [List.foldl_cons, ih]
    cases record with
    | none => rfl
    | some row => simp [addRecord, addRow_get, add_assoc, List.reduceOption_cons_of_some]

theorem foldl_stamp (records : List (Option Row)) (acc : Total × Bool)
    (current : acc.1.schema_version ≤ (USAGE_SCHEMA_VERSION : Number)) :
    (records.foldl (addRecord readNumber) acc).1.schema_version =
      min acc.1.schema_version (least (records.reduceOption.map (stampOf readNumber))) := by
  induction records generalizing acc with
  | nil => simpa [least] using current
  | cons record rest ih =>
    rw [List.foldl_cons]
    cases record with
    | none => exact ih acc current
    | some row =>
      have lower := addRow_stamp readNumber acc.1 row current
      rw [addRecord, ih _ (by rw [lower]; exact (min_le_left _ _).trans current), lower, min_assoc]
      rfl

theorem foldl_unseen (records : List (Option Row)) (acc : Total × Bool)
    (unseen : (records.foldl (addRecord readNumber) acc).2 = false) :
    records.foldl (addRecord readNumber) acc = acc := by
  induction records generalizing acc with
  | nil => rfl
  | cons record rest ih =>
    rw [List.foldl_cons] at unseen ⊢
    have same := ih _ unseen
    cases record with
    | none => exact same
    | some row =>
      rw [same] at unseen
      simp [addRecord] at unseen

theorem sumUsage_fold (records : List (Option Row)) :
    sumUsage readNumber records = (records.foldl (addRecord readNumber) (zero, false)).1 := by
  cases seen : (records.foldl (addRecord readNumber) (zero, false)).2 with
  | true => simp [sumUsage, seen]
  | false =>
    have empty := foldl_unseen readNumber records _ seen
    simp only [sumUsage, empty]
    rfl

theorem sumUsage_get (records : List (Option Row)) (measure : Measure) :
    (sumUsage readNumber records).get measure =
      (records.reduceOption.map (fun row => (counted readNumber row).amount readNumber measure.name)).sum := by
  rw [sumUsage_fold, foldl_get]
  cases measure <;> simp [zero, Total.get]

theorem sumUsage_stamp (records : List (Option Row)) :
    (sumUsage readNumber records).schema_version = least (records.reduceOption.map (stampOf readNumber)) := by
  rw [sumUsage_fold, foldl_stamp readNumber records _ (le_refl _)]
  exact min_eq_right (least_le _)

theorem Value.orElse_assoc (first second third : Value) :
    (first.orElse second).orElse third = first.orElse (second.orElse third) := by
  cases first <;> rfl

theorem Value.orElse_eq_right (left right : Value) : left.orElse right = right ↔ left = .missing ∨
    left = right := by
  cases left <;> simp [Value.orElse, eq_comm]

/-- The record that states a row's figures: the innermost one nested in it. -/
def Row.record : Row → Row
  | .plain fields => .plain fields
  | .shaped fields usage =>
    if (Row.shaped fields usage).unspelled then usage.record else .shaped fields usage

/-- The stamp on the nested records of a row, the innermost one first. -/
def Row.nestedStamp : Row → Value
  | .plain _ => .missing
  | .shaped fields usage =>
    if (Row.shaped fields usage).unspelled then usage.nestedStamp.orElse (usage.get "schema_version") else .missing

/-- The figure a record states under any spelling. -/
def Row.states (measure : Measure) (row : Row) : Rat :=
  if measure = .cost then (row.cost readNumber).getD 0 else row.n readNumber measure.spellings

theorem canonicalUsage_eq (price : Option Price) (row : Row) (stamp : Value) :
    canonicalUsage readNumber price row stamp =
      readRow readNumber price (row.nestedStamp.orElse stamp) row.record := by
  induction row generalizing stamp with
  | plain fields => rfl
  | shaped fields usage ih =>
    by_cases nested : (Row.shaped fields usage).unspelled
    · simp only [canonicalUsage, Row.nestedStamp, Row.record, nested, if_true, ih, Value.orElse_assoc]
    · simp only [canonicalUsage, Row.nestedStamp, Row.record, nested, if_false]
      rfl

theorem canonicalUsage_get (row : Row) (stamp : Value) (measure : Measure) :
    (canonicalUsage readNumber none row stamp).get measure = row.record.states readNumber measure := by
  rw [canonicalUsage_eq]
  cases measure <;> simp [readRow, Canonical.get, Row.states, Measure.spellings]

/-- Every text under a canonical name is a number. -/
def Row.Readable (row : Row) : Prop :=
  ∀ (measure : Measure) (text : String), row.get measure.name = .text text → text ≠ "" → readNumber text ≠ ⊥

/-- The figure a row says under the canonical name. -/
def Row.tells (measure : Measure) (row : Row) : Rat := (row.amount readNumber measure.name).unbotD 0

/-- The figure a row gives under another spelling, where it gives none under the canonical name. -/
def Row.elsewhere (measure : Measure) (row : Row) : Rat :=
  if measure = .cost then
    if row.get "cost_cents" = .missing then (row.get "used_cost_cents").figure readNumber else 0
  else if row.get measure.name = .missing ∨ row.get measure.name = .text "" then
    row.n readNumber measure.spellings.tail
  else 0

/-- What a row states under another spelling, or what its nested record states beside it. -/
def Row.hides (measure : Measure) : Row → Rat
  | .plain fields => (Row.plain fields).elsewhere readNumber measure
  | .shaped fields usage =>
    if (Row.shaped fields usage).unspelled then
      usage.record.states readNumber measure - (Row.shaped fields usage).tells readNumber measure
    else (Row.shaped fields usage).elsewhere readNumber measure

theorem Value.figure_orZero (value : Value) :
    value.orZero.figure readNumber =
      if value = .missing ∨ value = .text "" then 0 else value.figure readNumber := by
  cases value with
  | missing => rfl
  | number value => by_cases nan : value = ⊥ <;> simp [Value.orZero, Value.figure, Value.toNumber, nan]
  | text text => by_cases empty : text = "" <;> simp [Value.orZero, Value.figure, Value.toNumber, empty]

theorem Row.states_eq (row : Row) (measure : Measure) :
    row.states readNumber measure = row.tells readNumber measure + row.elsewhere readNumber measure := by
  have told : row.tells readNumber measure = _ := (row.get measure.name).figure_orZero readNumber
  rw [told, Row.states, Row.elsewhere]
  by_cases cost : measure = .cost
  · subst cost
    simp only [if_true, Row.cost, Measure.name]
    by_cases unset : row.get "cost_cents" = .missing
    · by_cases unused : row.get "used_cost_cents" = .missing
      · simp [unset, unused, Value.figure, Value.toNumber]
      · simp [unset, unused]
    · by_cases empty : row.get "cost_cents" = .text ""
      · simp [empty, Value.figure, Value.toNumber]
      · simp [unset, empty]
  · have spelled : measure.spellings = measure.name :: measure.spellings.tail := by
      cases measure <;> rfl
    rw [if_neg cost, if_neg cost, spelled, Row.n]
    split <;> simp

theorem Row.hides_eq (row : Row) (measure : Measure) :
    row.hides readNumber measure = row.record.states readNumber measure - row.tells readNumber measure := by
  cases row with
  | plain fields => rw [Row.hides, Row.record, Row.states_eq, add_sub_cancel_left]
  | shaped fields usage =>
    rw [Row.hides, Row.record]
    split
    · rfl
    · rw [Row.states_eq, add_sub_cancel_left]

theorem Row.readable_iff (row : Row) :
    row.Readable readNumber ↔ ∀ measure : Measure, row.amount readNumber measure.name ≠ ⊥ := by
  refine forall_congr' fun measure => ?_
  cases said : row.get measure.name with
  | missing => simp [Row.amount, said, Value.orZero, Value.toNumber]
  | number value =>
    by_cases nan : value = ⊥
    · simp [Row.amount, said, Value.orZero, Value.toNumber, nan]
    · simp [Row.amount, said, Value.orZero, Value.toNumber, nan]
  | text text =>
    by_cases empty : text = ""
    · simp [Row.amount, said, Value.orZero, Value.toNumber, empty]
    · simp [Row.amount, said, Value.orZero, Value.toNumber, empty]

/-- The rows of a list that `sumUsage` reads as they are. -/
def directRows (records : List (Option Row)) : List Row := records.reduceOption.filter (fun row => row.direct)

def AddsUp (records : List (Option Row)) : Prop :=
  ∀ measure, (sumUsage readNumber records).get measure =
    ((records.reduceOption.map (fun row =>
      (canonicalUsage readNumber none row (.number USAGE_SCHEMA_VERSION)).get measure)).sum : Rat)

theorem amount_indirect (row : Row) (indirect : ¬row.direct) (measure : Measure) :
    (counted readNumber row).amount readNumber measure.name = (row.record.states readNumber measure : Rat) := by
  simp only [counted, indirect, if_false, Canonical.row_amount, canonicalUsage_get]

theorem amount_direct (row : Row) (direct : row.direct) (measure : Measure) :
    (counted readNumber row).amount readNumber measure.name = row.amount readNumber measure.name := by
  simp only [counted, direct, if_true]

theorem sumUsage_bot (records : List (Option Row)) (measure : Measure) :
    (sumUsage readNumber records).get measure = ⊥ ↔
      ∃ row ∈ directRows records, row.amount readNumber measure.name = ⊥ := by
  rw [sumUsage_get, sum_eq_bot, List.mem_map]
  constructor
  · intro ⟨row, member, spoiled⟩
    by_cases direct : row.direct
    · exact ⟨row, by simp [directRows, member, direct], by rwa [amount_direct readNumber row direct] at spoiled⟩
    · rw [amount_indirect readNumber row direct] at spoiled
      exact absurd spoiled WithBot.coe_ne_bot
  · intro ⟨row, member, spoiled⟩
    have ⟨listed, direct⟩ := List.mem_filter.mp member
    exact ⟨row, listed, (amount_direct readNumber row (of_decide_eq_true direct) measure).trans spoiled⟩

theorem readable_rows (records : List (Option Row)) :
    (∀ row ∈ directRows records, row.Readable readNumber) ↔
      ∀ measure, (sumUsage readNumber records).get measure ≠ ⊥ := by
  simp only [Row.readable_iff, ne_eq, sumUsage_bot, not_exists, not_and]
  exact ⟨fun readable measure row member => readable row member measure,
    fun readable row member measure => readable measure row member⟩

/-- What a row adds to a measure when every text is a number. -/
def added (measure : Measure) (row : Row) : Rat :=
  if row.direct then row.tells readNumber measure else row.record.states readNumber measure

theorem sumUsage_added (records : List (Option Row))
    (readable : ∀ row ∈ directRows records, row.Readable readNumber) (measure : Measure) :
    (sumUsage readNumber records).get measure =
      ((records.reduceOption.map (added readNumber measure)).sum : Rat) := by
  rw [sumUsage_get, ← sum_coe]
  refine congrArg List.sum (List.map_congr_left fun row member => ?_)
  by_cases direct : row.direct
  · have number := (row.readable_iff readNumber).mp
      (readable row (by simp [directRows, member, direct])) measure
    rw [amount_direct readNumber row direct, added, if_pos direct]
    obtain ⟨figure, exact⟩ := WithBot.ne_bot_iff_exists.mp number
    rw [Row.tells, ← exact, WithBot.unbotD_coe]
  · rw [amount_indirect readNumber row direct, added, if_neg direct]

theorem sum_hidden (records : List Row) (measure : Measure) :
    (records.map (fun row => row.record.states readNumber measure - added readNumber measure row)).sum =
      ((records.filter (fun row => row.direct)).map (Row.hides readNumber measure)).sum := by
  induction records with
  | nil => rfl
  | cons row rest ih =>
    rw [List.map_cons, List.sum_cons, ih]
    by_cases direct : row.direct
    · simp [direct, added, Row.hides_eq]
    · simp [direct, added]

theorem addsUp_iff (records : List (Option Row)) :
    AddsUp readNumber records ↔ (∀ row ∈ directRows records, row.Readable readNumber) ∧
      ∀ measure, ((directRows records).map (Row.hides readNumber measure)).sum = 0 := by
  constructor
  · intro adds
    have readable := (readable_rows readNumber records).mpr fun measure => by simp [adds measure]
    refine ⟨readable, fun measure => ?_⟩
    have total := adds measure
    rw [sumUsage_added readNumber records readable, WithBot.coe_inj] at total
    simp only [canonicalUsage_get] at total
    rw [directRows, ← sum_hidden, ← sum_sub, total, sub_self]
  · intro ⟨readable, balanced⟩ measure
    have hidden := balanced measure
    rw [directRows, ← sum_hidden, ← sum_sub, sub_eq_zero] at hidden
    rw [sumUsage_added readNumber records readable, ← hidden]
    simp only [canonicalUsage_get]

@[simp] theorem Total.row_direct (total : Total) : total.row.direct := by
  simp [Row.direct, Total.row, Row.get, Row.fields]

theorem Total.row_amount (total : Total) (measure : Measure) :
    total.row.amount readNumber measure.name = if total.get measure = ⊥ then 0 else total.get measure := by
  have amount (value : Number) :
      (Value.number value).orZero.toNumber readNumber = if value = ⊥ then 0 else value := by
    by_cases nan : value = ⊥ <;> simp [Value.orZero, Value.toNumber, nan]
  cases measure <;> exact amount _

theorem Total.row_stampOf (total : Total) : stampOf readNumber total.row = total.schema_version := by
  simp [stampOf, counted, Total.row, Row.direct, Row.get, Row.fields, List.lookup_cons, Value.toNumber]

theorem sumUsage_pair (left right : Total) (measure : Measure) :
    (sumUsage readNumber [some left.row, some right.row]).get measure =
      (if left.get measure = ⊥ then 0 else left.get measure) +
        (if right.get measure = ⊥ then 0 else right.get measure) := by
  simp [sumUsage_get, List.reduceOption_cons_of_some, amount_direct, Total.row_amount]

theorem sumUsage_append_get (xs ys : List (Option Row)) (measure : Measure) :
    (sumUsage readNumber (xs ++ ys)).get measure =
      (sumUsage readNumber xs).get measure + (sumUsage readNumber ys).get measure := by
  simp only [sumUsage_get, List.reduceOption_append, List.map_append, List.sum_append]

theorem sumUsage_append_stamp (xs ys : List (Option Row)) :
    (sumUsage readNumber (xs ++ ys)).schema_version =
      min (sumUsage readNumber xs).schema_version (sumUsage readNumber ys).schema_version := by
  simp only [sumUsage_stamp, List.reduceOption_append, List.map_append, least_append]

theorem sumUsage_pair_stamp (left right : Total) (upper : right.schema_version ≤ (USAGE_SCHEMA_VERSION : Number)) :
    (sumUsage readNumber [some left.row, some right.row]).schema_version =
      min left.schema_version right.schema_version := by
  simp [sumUsage_stamp, List.reduceOption_cons_of_some, Total.row_stampOf, least, upper]

theorem sumUsage_append_iff (xs ys : List (Option Row)) :
    sumUsage readNumber (xs ++ ys) =
        sumUsage readNumber [some (sumUsage readNumber xs).row, some (sumUsage readNumber ys).row] ↔
      ∀ row ∈ directRows (xs ++ ys), row.Readable readNumber := by
  rw [readable_rows]
  constructor
  · intro same measure spoiled
    rw [same, sumUsage_pair, WithBot.add_eq_bot] at spoiled
    rcases spoiled with left | right
    · split at left
      · exact absurd left WithBot.zero_ne_bot
      · contradiction
    · split at right
      · exact absurd right WithBot.zero_ne_bot
      · contradiction
  · intro readable
    refine Total.ext_get (fun measure => ?_) ?_
    · have parts := readable measure
      rw [sumUsage_append_get, ne_eq, WithBot.add_eq_bot, not_or] at parts
      rw [sumUsage_append_get, sumUsage_pair, if_neg parts.1, if_neg parts.2]
    · rw [sumUsage_append_stamp, sumUsage_pair_stamp]
      rw [sumUsage_stamp]
      exact least_le _

theorem canonicalUsage_row (price : Option Price) (usage : Canonical) (stamp : Value) :
    canonicalUsage readNumber price usage.row stamp = { usage with schema_version := stamp } := by
  simp [canonicalUsage, Canonical.row, readRow, Row.n, Row.cost, Row.get, Row.fields, List.lookup_cons, INPUT,
    OUTPUT, CACHE_READ, CACHE_WRITE, Value.figure, Value.toNumber]

theorem canonicalUsage_stamp (price : Option Price) (row : Row) (stamp : Value) :
    (canonicalUsage readNumber price row stamp).schema_version = row.nestedStamp.orElse stamp := by
  rw [canonicalUsage_eq]
  rfl

theorem canonicalUsage_again (price : Option Price) (row : Row) (stamp : Value) :
    canonicalUsage readNumber price (canonicalUsage readNumber price row stamp).row stamp =
        canonicalUsage readNumber price row stamp ↔
      row.nestedStamp = .missing ∨ row.nestedStamp = stamp := by
  rw [canonicalUsage_row, ← Value.orElse_eq_right, ← canonicalUsage_stamp readNumber price]
  constructor
  · intro same
    exact (congrArg Canonical.schema_version same).symm
  · intro same
    generalize canonicalUsage readNumber price row stamp = usage at same ⊢
    subst same
    rfl

/-- The stamp a row carries: its own when its figures are its own, else that of its nested record first. -/
def Row.stamp (row : Row) : Value :=
  if row.direct then row.get "schema_version" else row.nestedStamp.orElse (row.get "schema_version")

/-- The stamp of a row that stands where a sum looks for it. -/
def Row.seenStamp (row : Row) : Value := if row.direct then row.get "schema_version" else row.nestedStamp

def Value.Current (stamp : Value) : Prop := (USAGE_SCHEMA_VERSION : Number) ≤ stamp.toNumber readNumber

theorem current_stampOf (row : Row) :
    (USAGE_SCHEMA_VERSION : Number) ≤ stampOf readNumber row ↔
      row.seenStamp = .missing ∨ row.seenStamp.Current readNumber := by
  by_cases direct : row.direct
  · by_cases missing : row.get "schema_version" = .missing
    · simp [stampOf, counted, direct, Row.seenStamp, missing]
    · simp [stampOf, counted, direct, Row.seenStamp, missing, Value.Current]
  · simp only [stampOf, counted, direct, if_false, Canonical.row_stamp, canonicalUsage_stamp, Row.seenStamp]
    cases nested : row.nestedStamp <;> simp [Value.orElse, Value.Current, Value.toNumber]

theorem comparable_iff (records : List (Option Row)) :
    (sumUsage readNumber records).Comparable ↔
      ∀ row ∈ records.reduceOption, row.seenStamp = .missing ∨ row.seenStamp.Current readNumber := by
  rw [Total.Comparable, sumUsage_stamp, le_least, List.forall_mem_map]
  exact forall₂_congr fun row _ => current_stampOf readNumber row

theorem Row.stamp_of_seen (row : Row) (seen : row.seenStamp ≠ .missing) : row.stamp = row.seenStamp := by
  by_cases direct : row.direct
  · simp only [Row.stamp, Row.seenStamp, direct, if_true]
  · simp only [Row.seenStamp, direct, if_false] at seen
    simp only [Row.stamp, Row.seenStamp, direct, if_false]
    cases nested : row.nestedStamp with
    | missing => contradiction
    | number value => rfl
    | text value => rfl

theorem comparable_stamps (records : List (Option Row)) :
    ((sumUsage readNumber records).Comparable ↔
        ∀ row ∈ records.reduceOption, row.stamp.Current readNumber) ↔
      (∀ row ∈ records.reduceOption, row.stamp.Current readNumber) ∨
        ∃ row ∈ records.reduceOption, row.seenStamp ≠ .missing ∧ ¬row.seenStamp.Current readNumber := by
  have carried : (∀ row ∈ records.reduceOption, row.stamp.Current readNumber) →
      (sumUsage readNumber records).Comparable := by
    intro all
    refine (comparable_iff readNumber records).mpr fun row member => ?_
    by_cases seen : row.seenStamp = .missing
    · exact .inl seen
    · exact .inr (row.stamp_of_seen seen ▸ all row member)
  have refused : ¬(sumUsage readNumber records).Comparable ↔
      ∃ row ∈ records.reduceOption, row.seenStamp ≠ .missing ∧ ¬row.seenStamp.Current readNumber := by
    simp [comparable_iff]
  constructor
  · intro holds
    by_cases comparable : (sumUsage readNumber records).Comparable
    · exact .inl (holds.mp comparable)
    · exact .inr (refused.mp comparable)
  · intro stamped
    refine ⟨fun comparable => ?_, carried⟩
    rcases stamped with all | older
    · exact all
    · exact absurd comparable (refused.mpr older)

/-- When totals of usage rows are exact: their figures, the total of two totals, the canonical record
of a canonical record, and the basis. -/
theorem usage_totals_exact :
    (∀ records, AddsUp readNumber records ↔ (∀ row ∈ directRows records, row.Readable readNumber) ∧
      ∀ measure, ((directRows records).map (Row.hides readNumber measure)).sum = 0) ∧
    (∀ xs ys, sumUsage readNumber (xs ++ ys) =
        sumUsage readNumber [some (sumUsage readNumber xs).row, some (sumUsage readNumber ys).row] ↔
      ∀ row ∈ directRows (xs ++ ys), row.Readable readNumber) ∧
    (∀ price row stamp, canonicalUsage readNumber price (canonicalUsage readNumber price row stamp).row stamp =
        canonicalUsage readNumber price row stamp ↔
      row.nestedStamp = .missing ∨ row.nestedStamp = stamp) ∧
    ∀ records, ((sumUsage readNumber records).Comparable ↔
        ∀ row ∈ records.reduceOption, row.stamp.Current readNumber) ↔
      (∀ row ∈ records.reduceOption, row.stamp.Current readNumber) ∨
        ∃ row ∈ records.reduceOption, row.seenStamp ≠ .missing ∧ ¬row.seenStamp.Current readNumber :=
  ⟨addsUp_iff readNumber, sumUsage_append_iff readNumber, canonicalUsage_again readNumber,
    comparable_stamps readNumber⟩

end

/-- A row whose output stands under another spelling loses it, and an unstamped row makes a total of
the current basis. -/
theorem usage_row_misread :
    ¬AddsUp (fun _ => ⊥) [some (.plain [("input", .number 1), ("output_tokens", .number 7)])] ∧
      ¬((sumUsage (fun _ => ⊥) [some (.plain [("input", .number 1)])]).Comparable ↔
        ∀ row ∈ [Row.plain [("input", .number 1)]], row.stamp.Current (fun _ => ⊥)) := by
  constructor
  · intro adds
    have output := adds .output
    revert output
    simp [sumUsage, addRecord, addRow, counted, Row.direct, Row.get, Row.fields, List.lookup_cons, Total.get, zero,
      Row.amount, Value.orZero, Value.toNumber, canonicalUsage, readRow, Canonical.get, Row.n, OUTPUT,
      Value.figure, List.reduceOption_cons_of_some]
  · simp [comparable_iff, Row.seenStamp, Row.stamp, Row.direct, Row.get, Row.fields,
      List.lookup_cons, Value.Current,
      Value.toNumber, List.reduceOption_cons_of_some]

end ProxyPilot.Mock2.Usage
