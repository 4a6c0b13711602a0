import ProxyPilot.Data.Text
import ProxyPilot.Data.Stable

namespace ProxyPilot.SshAccess

open Data

/-! # `authorized_keys` (`ssh-access/reconcile.js`) -/

abbrev Text := List Char

structure Entry where
  id : Text
  publicKey : Text

/-- `ID_RE` -/
def validId (id : Text) : Bool := id.head?.any Char.isAlphanum && id.all nameChar && decide (id.length ≤ 63)

def MARKER_PREFIX : Text := '#' :: ' ' :: "proxypilot:".toList

/-- `text.split('\n')`, without the rest after a line feed at the end. -/
def fileLines (text : Text) : List Text :=
  let lines := linesOf text
  if lines.getLast? = some [] then lines.dropLast else lines

/-- The end of a line in front of its id, read backwards. -/
def markerBefore (before : Text) : Bool :=
  "proxypilot:".toList.reverse.isPrefixOf before &&
    match (before.drop "proxypilot:".toList.length).dropWhile whiteSpace with
    | '#' :: w :: _ => whiteSpace w
    | _ => false

/-- `/\s#\s*proxypilot:[A-Za-z0-9][A-Za-z0-9._-]*\s*$/`, from the end of the line. -/
def isProxypilotManagedLine (line : Text) : Bool :=
  let rest := line.reverse.dropWhile whiteSpace
  (rest.takeWhile nameChar).getLast?.any Char.isAlphanum && markerBefore (rest.dropWhile nameChar)

def partitionExisting (text : Text) : List Text := (fileLines text).filter fun line => !isProxypilotManagedLine line

def renderManagedLine (entry : Entry) : Text :=
  dropEnd whiteSpace entry.publicKey ++ ' ' :: (MARKER_PREFIX ++ entry.id)

/-- `a <= b` of two ids: they are ASCII, so their code units are their characters. -/
def idLe : Text → Text → Bool
  | [], _ => true
  | _ :: _, [] => false
  | a :: as, b :: bs => if a = b then idLe as bs else decide (a.toNat < b.toNat)

def sortEntries (entries : List Entry) : List Entry := sortBy Entry.id idLe entries

structure Plan where
  unixUser : Text
  body : Text
  beforeManagedCount : Nat
  afterManagedCount : Nat
  operatorLineCount : Nat

/-- `lines.join('\n')`, ended by a line feed when there is a line. -/
def joinLines (lines : List Text) : Text := [newline].intercalate lines ++ if lines = [] then [] else [newline]

def planUser (unixUser : Text) (entries : List Entry) (existingText : Text) : Plan :=
  let operatorLines := partitionExisting existingText
  let managed := (sortEntries entries).map renderManagedLine
  { unixUser
    body := joinLines (operatorLines ++ managed)
    beforeManagedCount := (linesOf existingText).countP isProxypilotManagedLine
    afterManagedCount := managed.length
    operatorLineCount := operatorLines.countP fun line => trim line ≠ [] && (trim line).head? ≠ some '#' }

/-- White space, `#`, `proxypilot:` and an id end the line, up to more white space. -/
def CarriesMarker (line : Text) : Prop :=
  ∃ front w inner id tail, line = front ++ w :: '#' ::
    (inner ++ ("proxypilot:".toList ++ (id ++ tail))) ∧ whiteSpace w = true ∧
    (∀ c ∈ inner, whiteSpace c = true) ∧ id.head?.any Char.isAlphanum = true ∧
      (∀ c ∈ id, nameChar c = true) ∧ ∀ c ∈ tail, whiteSpace c = true

theorem nameChar_not_space {c : Char} (inside : nameChar c = true) : whiteSpace c = false := by
  have ascii : (48 ≤ c.toNat ∧ c.toNat ≤ 57) ∨ (65 ≤ c.toNat ∧ c.toNat ≤ 90) ∨ (97 ≤ c.toNat ∧ c.toNat ≤ 122) ∨
      c.toNat = 46 ∨ c.toNat = 95 ∨ c.toNat = 45 := by
    simp only [nameChar, Bool.or_eq_true, beq_iff_eq] at inside
    rcases inside with ((alphanum | rfl) | rfl) | rfl
    · have cases := alphanum_iff.mp alphanum
      omega
    · decide
    · decide
    · decide
  simp only [whiteSpace, List.contains_eq_mem, List.mem_cons, List.not_mem_nil, or_false,
    Bool.or_eq_false_iff, decide_eq_false_iff_not]
  omega

theorem markerBefore_iff {before : Text} : markerBefore before = true ↔
    ∃ front w inner, before = "proxypilot:".toList.reverse ++ (inner ++ '#' :: w :: front) ∧
      whiteSpace w = true ∧ ∀ c ∈ inner, whiteSpace c = true := by
  constructor
  · intro holds
    simp only [markerBefore, Bool.and_eq_true, List.isPrefixOf_iff_prefix] at holds
    obtain ⟨⟨rest, rfl⟩, holds⟩ := holds
    rw [← List.length_reverse, List.drop_left] at holds
    have whole := List.takeWhile_append_dropWhile (p := whiteSpace) (l := rest)
    split at holds
    · next w front shape =>
        refine ⟨front, w, rest.takeWhile whiteSpace, ?_, holds, fun c => mem_takeWhile⟩
        rw [← shape, whole]
    · cases holds
  · rintro ⟨front, w, inner, rfl, white, inside⟩
    have shape : (inner ++ '#' :: w :: front).dropWhile whiteSpace = '#' :: w :: front :=
      dropWhile_run inside (by simp [whiteSpace])
    simp only [markerBefore, Bool.and_eq_true, List.isPrefixOf_iff_prefix]
    refine ⟨List.prefix_append _ _, ?_⟩
    rw [← List.length_reverse, List.drop_left, shape]
    exact white

/-- The test finds the marker, and nothing else. -/
theorem isProxypilotManagedLine_iff (line : Text) : isProxypilotManagedLine line = true ↔ CarriesMarker line := by
  constructor
  · intro holds
    simp only [isProxypilotManagedLine, Bool.and_eq_true] at holds
    obtain ⟨starts, marker⟩ := holds
    obtain ⟨front, w, inner, before, white, inside⟩ := markerBefore_iff.mp marker
    have spaces := List.takeWhile_append_dropWhile (p := whiteSpace) (l := line.reverse)
    have ids := List.takeWhile_append_dropWhile (p := nameChar) (l := line.reverse.dropWhile whiteSpace)
    refine ⟨front.reverse, w, inner.reverse,
      ((line.reverse.dropWhile whiteSpace).takeWhile nameChar).reverse, (line.reverse.takeWhile whiteSpace).reverse,
      ?_, white, fun c member => inside c (List.mem_reverse.mp member), ?_, fun c member =>
        mem_takeWhile (List.mem_reverse.mp member),
      fun c member => mem_takeWhile (List.mem_reverse.mp member)⟩
    · rw [before] at ids
      rw [← ids] at spaces
      have turned := congrArg List.reverse spaces
      rw [List.reverse_reverse] at turned
      refine turned.symm.trans ?_
      simp
    · rwa [List.head?_reverse]
  · rintro ⟨front, w, inner, id, tail, rfl, white, inside, starts, chars, ends⟩
    have some : id.reverse ≠ [] := by
      intro none
      rw [List.reverse_eq_nil_iff.mp none] at starts
      cases starts
    have turned : (front ++ w :: '#' :: (inner ++ ("proxypilot:".toList ++ (id ++ tail)))).reverse =
        tail.reverse ++
          (id.reverse ++ ("proxypilot:".toList.reverse ++ (inner.reverse ++ '#' :: w :: front.reverse))) := by
      simp [List.reverse_append]
    have stops :
        Stops whiteSpace (id.reverse ++
        ("proxypilot:".toList.reverse ++ (inner.reverse ++ '#' :: w :: front.reverse))) := by
      cases shape : id.reverse with
      | nil => exact absurd shape some
      | cons c rest =>
        have inId : c ∈ id := List.mem_reverse.mp (shape ▸ List.mem_cons_self)
        exact stops_cons.mpr (nameChar_not_space (chars c inId))
    have colon : Stops nameChar ("proxypilot:".toList.reverse ++ (inner.reverse ++ '#' :: w :: front.reverse)) := by
      intro c member
      obtain rfl : ':' = c := by simpa using member
      decide
    have tails : ∀ c ∈ tail.reverse, whiteSpace c = true := fun c member => ends c (List.mem_reverse.mp member)
    have idChars : ∀ c ∈ id.reverse, nameChar c = true := fun c member => chars c (List.mem_reverse.mp member)
    simp only [isProxypilotManagedLine, turned, dropWhile_run tails stops,
      takeWhile_run idChars colon, dropWhile_run idChars colon,
      Bool.and_eq_true]
    refine ⟨by rwa [List.getLast?_reverse], ?_⟩
    exact markerBefore_iff.mpr ⟨front.reverse, w, inner.reverse, rfl, white,
      fun c member => inside c (List.mem_reverse.mp member)⟩

instance (line : Text) : Decidable (CarriesMarker line) := decidable_of_iff _ (isProxypilotManagedLine_iff line)

theorem renderManagedLine_marked {entry : Entry} (valid : validId entry.id = true) :
    CarriesMarker (renderManagedLine entry) := by
  simp only [validId, Bool.and_eq_true, List.all_eq_true] at valid
  refine ⟨dropEnd whiteSpace entry.publicKey, ' ', [' '], entry.id, [], ?_, rfl,
    by simp [whiteSpace], valid.1.1, valid.1.2, by simp⟩
  simp [renderManagedLine, MARKER_PREFIX]

section Rewrite

variable {lines : List Text} {line text : Text} {entries : List Entry}

theorem not_mem_linesOf (member : line ∈ linesOf text) : newline ∉ line := by
  induction text generalizing line with
  | nil =>
    rw [List.mem_singleton.mp member]
    exact List.not_mem_nil
  | cons c rest ih =>
    rw [linesOf] at member
    split at member
    · rcases List.mem_cons.mp member with rfl | member
      · exact List.not_mem_nil
      · exact ih member
    · next other =>
        cases pieces : linesOf rest with
        | nil =>
          rw [pieces] at member
          rw [List.mem_singleton.mp member]
          simpa using Ne.symm other
        | cons first more =>
          rw [pieces] at member ih
          rcases List.mem_cons.mp member with rfl | member
          · have rest := ih List.mem_cons_self
            simp [rest, Ne.symm other]
          · exact ih (List.mem_cons_of_mem _ member)

theorem mem_fileLines (member : line ∈ fileLines text) : newline ∉ line := by
  unfold fileLines at member
  simp only [] at member
  split at member
  · exact not_mem_linesOf (List.dropLast_subset _ member)
  · exact not_mem_linesOf member

theorem joinLines_eq (lines : List Text) : joinLines lines = unlines lines := by
  induction lines with
  | nil => rfl
  | cons line rest ih =>
    cases rest with
    | nil => simp [joinLines, unlines]
    | cons second rest =>
      simp only [joinLines, reduceCtorEq, if_false, unlines, List.flatMap_cons] at ih ⊢
      rw [List.intercalate_cons_cons, ← ih]
      simp

/-- Lines that were written are read back. -/
theorem fileLines_unlines (single : ∀ line ∈ lines, newline ∉ line) : fileLines (unlines lines) = lines := by
  simp [fileLines, linesOf_unlines single]

theorem renderManagedLine_single {entry : Entry} (valid : validId entry.id = true)
    (single : newline ∉ entry.publicKey) :
    newline ∉ renderManagedLine entry := by
  have key : newline ∉ dropEnd whiteSpace entry.publicKey := by
    intro member
    have suffix := List.dropWhile_subset _ (List.mem_reverse.mp member)
    exact single (List.mem_reverse.mp suffix)
  have id : newline ∉ entry.id := by
    intro member
    simp only [validId, Bool.and_eq_true, List.all_eq_true] at valid
    exact absurd (valid.1.2 newline member) (by decide)
  simp only [renderManagedLine, List.mem_append, List.mem_cons, not_or]
  exact ⟨key, by decide, by decide, id⟩

theorem mem_sortEntries {entry : Entry} : entry ∈ sortEntries entries ↔ entry ∈ entries := List.mem_mergeSort

theorem sortEntries_perm (entries : List Entry) : (sortEntries entries).Perm entries := List.mergeSort_perm _ _

theorem idLe_cons (c : Char) (as bs : Text) : idLe (c :: as) (c :: bs) = idLe as bs := if_pos rfl

theorem idLe_cons_of_ne {a b : Char} (other : a ≠ b) (as bs : Text) :
    idLe (a :: as) (b :: bs) = decide (a.toNat < b.toNat) := if_neg other

theorem toNat_ne {a b : Char} (other : a ≠ b) : a.toNat ≠ b.toNat := fun same => other (Char.toNat_inj.mp same)

theorem idLe_trans (a b c : Text) (first : idLe a b = true) (second : idLe b c = true) : idLe a c = true := by
  induction a generalizing b c with
  | nil => rfl
  | cons x as ih =>
    cases b with
    | nil => cases first
    | cons y bs =>
      cases c with
      | nil => cases second
      | cons z cs =>
        by_cases left : x = y
        · subst left
          rw [idLe_cons] at first
          by_cases right : x = z
          · subst right
            rw [idLe_cons] at second ⊢
            exact ih bs cs first second
          · rwa [idLe_cons_of_ne right] at second ⊢
        · rw [idLe_cons_of_ne left, decide_eq_true_eq] at first
          by_cases right : y = z
          · subst right
            rw [idLe_cons_of_ne left]
            exact decide_eq_true first
          · rw [idLe_cons_of_ne right, decide_eq_true_eq] at second
            have apart : x ≠ z := by
              rintro rfl
              omega
            rw [idLe_cons_of_ne apart]
            exact decide_eq_true (by omega)

theorem idLe_total (a b : Text) : (idLe a b || idLe b a) = true := by
  induction a generalizing b with
  | nil => rfl
  | cons x as ih =>
    cases b with
    | nil => rfl
    | cons y bs =>
      by_cases same : x = y
      · subst same
        rw [idLe_cons, idLe_cons]
        exact ih bs
      · have apart := toNat_ne same
        rw [idLe_cons_of_ne same, idLe_cons_of_ne (Ne.symm same), Bool.or_eq_true,
          decide_eq_true_eq, decide_eq_true_eq]
        omega

theorem idLe_antisymm (a b : Text) (first : idLe a b = true) (second : idLe b a = true) : a = b := by
  induction a generalizing b with
  | nil =>
    cases b with
    | nil => rfl
    | cons y bs => cases second
  | cons x as ih =>
    cases b with
    | nil => cases first
    | cons y bs =>
      by_cases same : x = y
      · subst same
        rw [idLe_cons] at first second
        rw [ih bs first second]
      · rw [idLe_cons_of_ne same, decide_eq_true_eq] at first
        rw [idLe_cons_of_ne (Ne.symm same), decide_eq_true_eq] at second
        omega

theorem sortEntries_sorted (entries : List Entry) : (sortEntries entries).Pairwise fun a b =>
    idLe a.id b.id = true :=
  ordered_sortBy idLe_trans idLe_total entries

theorem sortEntries_filter (keep : Entry → Bool) (entries : List Entry) :
    sortEntries (entries.filter keep) = (sortEntries entries).filter keep :=
  sortBy_filter idLe_antisymm idLe_trans idLe_total keep entries

theorem planUser_body (user : Text) (entries : List Entry) (text : Text) :
    (planUser user entries text).body = unlines (partitionExisting text ++
      (sortEntries entries).map renderManagedLine) := joinLines_eq _

theorem body_single (ids : ∀ entry ∈ entries, validId entry.id = true)
    (keys : ∀ entry ∈ entries, newline ∉ entry.publicKey) :
    ∀ line ∈ partitionExisting text ++ (sortEntries entries).map renderManagedLine, newline ∉ line := by
  intro line member
  rcases List.mem_append.mp member with kept | added
  · exact mem_fileLines (List.mem_filter.mp kept).1
  · obtain ⟨entry, inside, rfl⟩ := List.mem_map.mp added
    have inside := mem_sortEntries.mp inside
    exact renderManagedLine_single (ids entry inside) (keys entry inside)

theorem fileLines_body (user : Text) (ids : ∀ entry ∈ entries, validId entry.id = true)
    (keys : ∀ entry ∈ entries, newline ∉ entry.publicKey) :
    fileLines (planUser user entries text).body = partitionExisting text ++
      (sortEntries entries).map renderManagedLine := by
  rw [planUser_body]
  exact fileLines_unlines (body_single ids keys)

/-- Of the lines it wrote, the rewrite finds the operator's again. -/
theorem partitionExisting_body (user : Text) (ids : ∀ entry ∈ entries, validId entry.id = true)
    (keys : ∀ entry ∈ entries, newline ∉ entry.publicKey) :
    partitionExisting (planUser user entries text).body = partitionExisting text := by
  have added :
      ((sortEntries entries).map renderManagedLine).filter (fun line => !isProxypilotManagedLine line) = [] := by
    refine List.filter_eq_nil_iff.mpr fun line member => ?_
    obtain ⟨entry, inside, rfl⟩ := List.mem_map.mp member
    have marked := renderManagedLine_marked (ids entry (mem_sortEntries.mp inside))
    simp [(isProxypilotManagedLine_iff _).mpr marked]
  rw [partitionExisting, fileLines_body user ids keys, List.filter_append, added, List.append_nil]
  simp [partitionExisting, List.filter_filter]

end Rewrite

/-- The lines that no rewrite touches. -/
def operatorLines (text : Text) : List Text := (fileLines text).filter fun line => ¬ CarriesMarker line

theorem partitionExisting_eq (text : Text) : partitionExisting text = operatorLines text := by
  refine List.filter_congr fun line _ => ?_
  simp [← isProxypilotManagedLine_iff]

/-- The new body: the lines without a marker as they were, then one marked line for each
entry by id.  Planning again changes nothing, and fewer entries take away their lines. -/
theorem authorized_keys_rewrite (user text : Text) (entries : List Entry)
    (ids : ∀ entry ∈ entries, validId entry.id = true)
    (keys : ∀ entry ∈ entries, newline ∉ entry.publicKey ∧ entry.publicKey ≠ []) :
    ∃ ordered : List Entry, ordered.Perm entries ∧ ordered.Pairwise (fun a b => idLe a.id b.id = true) ∧
      (∀ entry ∈ entries, CarriesMarker (renderManagedLine entry)) ∧
      (planUser user entries text).body = unlines (operatorLines text ++ ordered.map renderManagedLine) ∧
      fileLines (planUser user entries text).body = operatorLines text ++ ordered.map renderManagedLine ∧
      (planUser user entries (planUser user entries text).body).body = (planUser user entries text).body ∧
      ∀ keep : Entry → Bool, (planUser user (entries.filter keep) (planUser user entries text).body).body =
        unlines (operatorLines text ++ (ordered.filter keep).map renderManagedLine) := by
  have single : ∀ entry ∈ entries, newline ∉ entry.publicKey := fun entry member => (keys entry member).1
  have again : partitionExisting (planUser user entries text).body = _ := partitionExisting_body user ids single
  refine ⟨sortEntries entries, sortEntries_perm entries, sortEntries_sorted entries,
    fun entry member => renderManagedLine_marked (ids entry member),
    ?_, ?_, ?_, fun keep => ?_⟩
  · rw [planUser_body, partitionExisting_eq]
  · rw [fileLines_body user ids single, partitionExisting_eq]
  · rw [planUser_body user entries (planUser user entries text).body, again, ← planUser_body]
  · rw [planUser_body user (entries.filter keep), again, partitionExisting_eq, sortEntries_filter]

def laptop : Entry := ⟨"laptop".toList, "ssh-ed25519 AAAA".toList⟩

def phone : Entry := ⟨"phone-1".toList, "ssh-rsa BBBB ".toList⟩

theorem authorized_keys_rewrite_two : ∃ ordered : List Entry, ordered.Perm [phone, laptop] ∧
    (planUser "root".toList [phone, laptop] "# mine\n\n".toList).body =
      unlines (["# mine".toList, []] ++ ordered.map renderManagedLine) := by
  obtain ⟨ordered, same, _, _, body, _⟩ :=
    authorized_keys_rewrite "root".toList "# mine\n\n".toList [phone, laptop] (by decide) (by decide)
  have kept : operatorLines "# mine\n\n".toList = ["# mine".toList, []] := by decide
  exact ⟨ordered, same, by rw [body, kept]⟩

end ProxyPilot.SshAccess
