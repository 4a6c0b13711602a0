import ProxyPilot.Caddy.EdgeRender

namespace ProxyPilot.Caddy.Edge

open Data Data.Tokens

section

variable (b : Blanks) (o : Options) (paths : Option Text) (indent : Nat) (ctx : Context)

/-- The tokens of free values: header values, the policy, and hashes. -/
def valueTokens : List Text :=
  (o.headers.join.getD []).filterMap (fun header => header.2.map quoted) ++ o.policy.toList.map quoted ++
    (o.basic_auth.join.getD []).map User.hash

/-- A token that is no brace and stands, unless it carries a free value. -/
def Sound (token : Text) : Prop := lone token = false ∧ (Stands b token ∨ token ∈ valueTokens o)

variable {b o}

variable {token : Text} {column : Option Json} {ps : List Text}

theorem sound_plain (plain : PlainToken token) : Sound b o token := ⟨plain.2.2.1, .inl (stands_plain plain)⟩

theorem sound_quoted {text : Text} (ends : text.getLast? ≠ some '\\') : Sound b o (quoted text) :=
  ⟨lone_quoted text, .inl (stands_quoted b ends)⟩

variable (b)

theorem refusal_sound : EachOf (Sound b o) (refusalDirectives ctx) := by
  have body : ctx.deniedBody.getLast? ≠ some '\\' := fun last =>
    (ctx.body_plain _ (List.mem_of_getLast? last)).2.1 rfl
  simp only [refusalDirectives, EachOf, Directive.Each, List.forall_mem_cons, List.not_mem_nil,
    false_imp_iff, implies_true,
    and_true]
  exact ⟨⟨by simp, sound_plain (by decide), sound_plain (by decide), sound_plain (by decide), sound_quoted (by decide)⟩,
    by simp, sound_plain (by decide), sound_plain (by decide), sound_quoted body, sound_plain (by decide)⟩

theorem allowedPaths_plain (allowed : allowedPaths column = some ps) :
    ∀ path ∈ ps, PlainToken path ∧ PlainToken (path ++ tok "/*") := by
  rw [allowedPaths] at allowed
  split at allowed
  · next list _ =>
    split at allowed
    · next each =>
      cases allowed
      intro path member
      obtain ⟨item, listed, rfl⟩ := List.mem_map.mp member
      exact allowlistPath_plain (List.all_eq_true.mp each item listed)
    · cases allowed
  · cases allowed

theorem path_sound (allowed : allowedPaths column = some ps) :
    (pathDirective ps).Each (Sound b o) := by
  rw [pathDirective, Directive.Each]
  refine ⟨by simp, List.forall_mem_cons.mpr ⟨sound_plain (by decide), fun token member => ?_⟩⟩
  obtain ⟨path, listed, inside⟩ := List.mem_flatMap.mp member
  have plain := allowedPaths_plain allowed path listed
  rcases List.mem_cons.mp inside with rfl | last
  · exact sound_plain plain.1
  · rw [List.mem_singleton.mp last]
    exact sound_plain plain.2

theorem denied_sound {networks : List Text} (plain : ∀ network ∈ networks, PlainToken network) :
    (deniedDirective networks (allowedPaths (parseColumn paths)) ctx).Each (Sound b o) := by
  have remote : ∀ token ∈ [tok "not", tok "remote_ip"] ++ networks, Sound b o token := by
    rw [List.forall_mem_append]
    refine ⟨?_, fun token member => sound_plain (plain token member)⟩
    simp only [List.forall_mem_cons, List.not_mem_nil, false_imp_iff, implies_true, and_true]
    exact ⟨sound_plain (by decide), sound_plain (by decide)⟩
  have head : ∀ token ∈ [tok "@pp_denied"], Sound b o token := by
    simp only [List.forall_mem_singleton]
    exact sound_plain (by decide)
  unfold deniedDirective
  split
  · next check found =>
    have hex := (Option.filter_eq_some_iff.mp found).2
    have extra : ∀ token ∈ check.extraAllow.filter fun a => hostNetwork a && !networks.contains a,
        Sound b o token := by
      intro token member
      have kept := (List.mem_filter.mp member).2
      rw [Bool.and_eq_true] at kept
      exact sound_plain (hostNetwork_plain kept.1)
    have sources : ∀ token ∈ tok "remote_ip" :: check.sources, Sound b o token :=
      List.forall_mem_cons.mpr ⟨sound_plain (by decide),
        fun token member => sound_plain (check.sources_plain.2 token member)⟩
    have header : ∀ token ∈ [tok "header", check.header, check.token], Sound b o token := by
      simp only [List.forall_mem_cons, List.not_mem_nil, false_imp_iff, implies_true, and_true]
      exact ⟨sound_plain (by decide), sound_plain check.header_plain, sound_plain (checkToken_plain hex)⟩
    rw [Directive.Each, eachOf_append]
    refine ⟨head, ?_, ?_⟩
    · apply eachOf_map
      intro ps member
      exact path_sound b (Option.mem_toList.mp member)
    · simp only [EachOf, Directive.Each, and_true]
      refine ⟨⟨by simp, List.forall_mem_append.mpr ⟨remote, extra⟩⟩, ?_, ⟨by simp, sources⟩, by simp, header⟩
      simp only [List.forall_mem_singleton]
      exact sound_plain (by decide)
  · split
    · next ps allowed =>
      simp only [EachOf, Directive.Each, and_true]
      exact ⟨head, path_sound b allowed, by simp, remote⟩
    · rw [Directive.Each]
      exact ⟨by simp, List.forall_mem_cons.mpr ⟨sound_plain (by decide), remote⟩⟩

theorem header_sound {headers : List (Text × Option Text)} (named : ∀ header ∈ headers, headerName header.1 = true)
    (kept : ∀ header ∈ headers, ∀ value, header.2 = some value → quoted value ∈ valueTokens o) :
    EachOf (Sound b o) (headers.map headerDirective) := by
  apply eachOf_map
  intro header member
  have plain := headerName_plain (named header member)
  rw [headerDirective]
  split
  · simp only [Directive.Each, List.forall_mem_singleton]
    exact ⟨by simp, sound_plain plain.2⟩
  · next value there =>
    simp only [Directive.Each, List.forall_mem_cons, List.not_mem_nil, false_imp_iff, implies_true, and_true]
    exact ⟨by simp, sound_plain plain.1, lone_quoted value, .inr (kept header member value there)⟩

theorem mem_valueTokens : token ∈ valueTokens o ↔
    (∃ h, o.headers = some (some h) ∧ ∃ name value, (name, some value) ∈ h ∧ quoted value = token) ∨
      (∃ policy, o.policy = some policy ∧ quoted policy = token) ∨
        ∃ users, o.basic_auth = some (some users) ∧ ∃ user ∈ users, user.hash = token := by
  have headers : token ∈ (o.headers.join.getD []).filterMap (fun header => header.2.map quoted) ↔
      ∃ h, o.headers = some (some h) ∧ ∃ name value, (name, some value) ∈ h ∧ quoted value = token := by
    rw [List.mem_filterMap]
    constructor
    · intro ⟨⟨name, value⟩, member, same⟩
      obtain ⟨text, rfl, quotes⟩ := Option.map_eq_some_iff.mp same
      cases stored : o.headers.join with
      | none => simp [stored] at member
      | some h => exact ⟨h, join_eq_some stored, name, text, by simpa [stored] using member, quotes⟩
    · intro ⟨h, stored, name, value, member, quotes⟩
      exact ⟨(name, some value), by simpa [stored] using member, by simp [quotes]⟩
  have users : token ∈ (o.basic_auth.join.getD []).map User.hash ↔
      ∃ users, o.basic_auth = some (some users) ∧ ∃ user ∈ users, user.hash = token := by
    rw [List.mem_map]
    constructor
    · intro ⟨user, member, same⟩
      cases stored : o.basic_auth.join with
      | none => simp [stored] at member
      | some users => exact ⟨users, join_eq_some stored, user, by simpa [stored] using member, same⟩
    · intro ⟨users, stored, user, member, same⟩
      exact ⟨user, by simpa [stored] using member, same⟩
  have policy : token ∈ o.policy.toList.map quoted ↔ ∃ policy, o.policy = some policy ∧ quoted policy = token := by
    simp [Option.mem_toList]
  rw [valueTokens, List.mem_append, List.mem_append, headers, users, policy, or_assoc]

theorem policy_csp {policy : Text} (stored : o.policy = some policy) : o.csp = some (some policy) :=
  join_eq_some (Option.filter_eq_some_iff.mp stored).1

theorem values_stand (accepted : Accepted o) (plain : o.Plain b) : ∀ token ∈ valueTokens o, Stands b token := by
  intro token member
  rcases mem_valueTokens.mp member with ⟨h, stored, name, value, listed, rfl⟩ | ⟨policy, stored, rfl⟩ |
    ⟨users, stored, user, listed, rfl⟩
  · exact stands_quoted b (plain.headers h stored name value listed)
  · exact stands_quoted b (plain.csp policy (policy_csp stored))
  · exact hash_stands ((accepted.users users stored).2 user listed).2 (plain.hashes users stored user listed)

theorem values_each (accepted : Accepted o) : ∀ token ∈ valueTokens o, Stands b token ∨ Breaks b token := by
  intro token member
  rcases mem_valueTokens.mp member with ⟨h, stored, name, value, listed, rfl⟩ | ⟨policy, stored, rfl⟩ |
    ⟨users, stored, user, listed, rfl⟩
  · exact stands_or_breaks_quoted value
  · exact stands_or_breaks_quoted policy
  · have start := ((accepted.users users stored).2 user listed).2
    by_cases dark : ∀ c ∈ user.hash, Dark b c
    · exact .inl (hash_stands start dark)
    · simp only [not_forall] at dark
      obtain ⟨c, inside, light⟩ := dark
      exact .inr (hash_breaks start ⟨c, inside, light⟩)

/-- Values that do not keep within their tokens break one. -/
theorem values_break (accepted : Accepted o) (bad : ¬o.Plain b) : ∃ token ∈ valueTokens o, Breaks b token := by
  by_contra none
  simp only [not_exists, not_and] at none
  apply bad
  constructor
  · intro h stored name text member last
    exact none _ (mem_valueTokens.mpr (.inl ⟨h, stored, name, text, member, rfl⟩)) (breaks_quoted b last)
  · intro text stored last
    have policy : o.policy = some text := by
      rw [Options.policy, stored]
      refine Option.filter_eq_some_iff.mpr ⟨rfl, decide_eq_true ?_⟩
      rintro rfl
      cases last
    exact none _ (mem_valueTokens.mpr (.inr (.inl ⟨text, policy, rfl⟩))) (breaks_quoted b last)
  · intro users stored user member c inside
    by_contra light
    exact none _ (mem_valueTokens.mpr (.inr (.inr ⟨users, stored, user, member, rfl⟩)))
      (hash_breaks ((accepted.users users stored).2 user member).2 ⟨c, inside, light⟩)

theorem standsFor_sound (accepted : Accepted o) : EachOf (Sound b o) (standsFor o paths ctx) := by
  rw [standsFor, eachOf_append, eachOf_append, eachOf_append]
  refine ⟨⟨⟨?_, ?_⟩, ?_⟩, ?_⟩
  · split
    · simp [EachOf]
    · next networks stored =>
      rw [EachOf]
      refine ⟨denied_sound b paths ctx fun network member => ?_, refusal_sound b ctx⟩
      exact cidr_plain ((accepted.networks networks (join_eq_some stored)).2 network member)
  · split
    · simp [EachOf]
    · next users stored =>
      have facts := (accepted.users users (join_eq_some stored)).2
      simp only [EachOf, Directive.Each, and_true, List.forall_mem_singleton]
      refine ⟨sound_plain (by decide), eachOf_map fun user member => ?_⟩
      simp only [Directive.Each, List.forall_mem_cons, List.not_mem_nil, false_imp_iff, implies_true, and_true]
      refine ⟨by simp, sound_plain (userName_plain (facts user member).1), lone_hash (facts user member).2, .inr ?_⟩
      exact (mem_valueTokens).mpr (.inr (.inr ⟨users, join_eq_some stored, user, member, rfl⟩))
  · split
    · simp only [EachOf, Directive.Each, and_true, List.forall_mem_singleton, eachOf_append]
      refine ⟨sound_plain (by decide), ?_, eachOf_map fun policy member => ?_⟩
      · cases stored : o.headers.join with
        | none => simp [EachOf]
        | some headers =>
          refine header_sound b (accepted.headers headers (join_eq_some stored)) fun header member value there => ?_
          exact (mem_valueTokens).mpr (.inl ⟨headers, join_eq_some stored, header.1, value,
            by rw [← there]; exact member, rfl⟩)
      · simp only [Directive.Each, List.forall_mem_cons, List.not_mem_nil, false_imp_iff, implies_true, and_true]
        refine ⟨by simp, sound_plain (by decide), lone_quoted policy, .inr ?_⟩
        exact (mem_valueTokens).mpr (.inr (.inl ⟨policy, Option.mem_toList.mp member, rfl⟩))
    · simp [EachOf]
  · split
    · simp [EachOf]
    · next limit stored =>
      obtain ⟨-, window, key⟩ := accepted.limit limit (join_eq_some stored)
      have key_plain : PlainToken limit.key := by
        rcases key with same | same
        · rw [same]
          decide
        · rw [same]
          decide
      simp only [rateLimitDirective, EachOf, Directive.Each, and_true, List.forall_mem_cons,
        List.not_mem_nil, false_imp_iff,
        implies_true]
      exact ⟨sound_plain (by decide), ⟨sound_plain (by decide), sound_plain (zoneName_plain _)⟩,
        ⟨by simp, sound_plain (by decide), sound_plain key_plain⟩,
        ⟨by simp, sound_plain (by decide), sound_plain (toDigits_plain _)⟩,
        by simp, sound_plain (by decide), sound_plain (windowText_plain window)⟩

/-- Every free value stands somewhere in the lines. -/
theorem values_occur (member : token ∈ valueTokens o) :
    ∃ tokens ∈ linesOfAll (standsFor o paths ctx), token ∈ tokens := by
  rw [standsFor, linesOfAll_append, linesOfAll_append, linesOfAll_append]
  rcases mem_valueTokens.mp member with ⟨h, stored, name, value, listed, rfl⟩ | ⟨policy, stored, rfl⟩ |
    ⟨users, stored, user, listed, rfl⟩
  · refine ⟨[name, quoted value], ?_, by simp⟩
    have there : o.headers.join = some h := by rw [stored]; rfl
    have line : [name, quoted value] ∈ linesOfAll (h.map headerDirective) := by
      rw [← headerLines_pieces 0, List.map_map]
      exact List.mem_map.mpr ⟨_, listed, by simp [headerLine, valueJson, q_eq]⟩
    simp [there, linesOfAll_block, linesOfAll_append, line]
  · refine ⟨[tok "Content-Security-Policy", quoted policy], ?_, by simp⟩
    have line : [tok "Content-Security-Policy", quoted policy] ∈
        linesOfAll (o.policy.toList.map fun policy => .line [tok "Content-Security-Policy", quoted policy]) := by
      rw [stored]
      exact List.mem_singleton.mpr rfl
    simp only [stored, Option.isSome_some, or_true, if_true, linesOfAll_block, linesOfAll_append, List.mem_append,
      List.mem_cons] at line ⊢
    exact .inl (.inr (.inr (.inl (.inr line))))
  · refine ⟨[user.username, user.hash], ?_, by simp⟩
    have there : o.basic_auth.join = some users := by rw [stored]; rfl
    have line : [user.username, user.hash] ∈
        linesOfAll (users.map fun user => .line [user.username, user.hash]) := by
      rw [linesOfAll_map fun user => rfl]
      exact List.mem_map.mpr ⟨user, listed, rfl⟩
    simp [there, linesOfAll_block, line]

end

section

variable (b : Blanks)

/-- The text of lines is read as directives, in balanced blocks. -/
def Reads (lines : List Text) (directives : List Directive) : Prop :=
  lexLines b (unlines lines) = linesOfAll directives ∧ readBlocks (lexLines b (unlines lines)) = some directives

/-- The lines of a handler's body, which read as its directives. -/
structure Body where
  lines : List Line
  directives : List Directive
  pieces : lines.map Line.pieces = linesOfAll directives
  plain : PlainAll directives
  stand : ∀ line ∈ lines, line.pieces ≠ [] ∧ ∀ piece ∈ line.pieces, Stands b piece

def wrapped (o : Options) (directives body : List Directive) : List Directive :=
  if o.rate_limit.join.isNone then directives ++ body else [.block [tok "route"] (directives ++ body)]

/-- The options, stored and read back, are rendered as exactly the directives they stand for, on their
own and wrapped with a body. -/
def Contained (o : Options) (paths : Option Text) (indent : Nat) (ctx : Context) : Prop :=
  let opts := parseRouteEdgeOptions (storeOptions (blankRow paths) o)
  Reads b (routeEdgeOptionLines opts indent ctx) (standsFor o paths ctx) ∧
    ∀ body : Body b, Reads b
      (wrapRouteBody (routeEdgeOptionLines opts indent ctx) (body.lines.map Line.text) opts indent)
      (wrapped o (standsFor o paths ctx) body.directives)

theorem reads_of_stand {lines : List Line} {directives : List Directive}
    (pieces : lines.map Line.pieces = linesOfAll directives)
    (plain : PlainAll directives)
    (stand : ∀ line ∈ lines, line.pieces ≠ [] ∧ ∀ piece ∈ line.pieces, Stands b piece) :
    Reads b (lines.map Line.text) directives := by
  have lexed := lexLines_stands b stand
  rw [pieces] at lexed
  exact ⟨lexed, by rw [lexed, readBlocks_lines plain]⟩

def shiftLine (line : Line) : Line := ⟨line.indent + 4, line.pieces⟩

theorem shift_text (line : Line) : shift line.text = (shiftLine line).text := by
  rw [shift, shiftLine, Line.text, Line.text, Nat.add_comm, List.replicate_add, List.append_assoc]
  rfl

section

variable {b} {o : Options} (accepted : Accepted o) (paths : Option Text) (indent : Nat) (ctx : Context)
include accepted

theorem standsFor_plain : PlainAll (standsFor o paths ctx) :=
  plainAll_of_each (fun _ sound => sound.1) _
    (standsFor_sound (b := ⟨fun c => c == ' ', by decide, fun c low _ => by
    simp only [beq_eq_false_iff_ne]
    rintro rfl
    exact absurd low (by decide)⟩) paths ctx accepted)

/-- The pieces of the rendered lines: each stands unless it carries a free value. -/
theorem edgeLines_each : ∀ line ∈ edgeLines (parseRouteEdgeOptions (storeOptions (blankRow paths) o)) indent ctx,
    line.pieces ≠ [] ∧ ∀ piece ∈ line.pieces, Stands b piece ∨ piece ∈ valueTokens o := by
  intro line member
  have listed : line.pieces ∈ linesOfAll (standsFor o paths ctx) := by
    rw [← edge_lines o paths indent ctx accepted]
    exact List.mem_map_of_mem member
  have tokens := token_of_lines _ (standsFor_sound b paths ctx accepted) line.pieces listed
  refine ⟨tokens.1, fun piece inside => ?_⟩
  rcases tokens.2 piece inside with sound | rfl | rfl
  · exact sound.2
  · exact .inl stands_opening
  · exact .inl stands_closing

theorem rateLimit_isNone : ((parseRouteEdgeOptions (storeOptions (blankRow paths) o)).bind (·.rate_limit)).isNone =
    o.rate_limit.join.isNone := by
  have read : (readRow (storeOptions (blankRow paths) o)).rate_limit = o.rate_limit.join.map rateLimitJson := by
    rw [readRow_store accepted]
    rfl
  rw [parseRouteEdgeOptions]
  split
  · rw [Option.bind_some, read, Option.isNone_map]
  · next none =>
    simp only [Bool.or_eq_true, not_or, Option.not_isSome_iff_eq_none, read] at none
    rw [← Option.isNone_map (f := rateLimitJson), none.2]
    rfl

theorem wrapRouteBody_reads (body : Body b)
    (stand : ∀ line ∈ edgeLines (parseRouteEdgeOptions (storeOptions (blankRow paths) o)) indent ctx,
      line.pieces ≠ [] ∧ ∀ piece ∈ line.pieces, Stands b piece) :
    Reads b (wrapRouteBody
      (routeEdgeOptionLines (parseRouteEdgeOptions (storeOptions (blankRow paths) o)) indent ctx)
      (body.lines.map Line.text) (parseRouteEdgeOptions (storeOptions (blankRow paths) o)) indent)
      (wrapped o (standsFor o paths ctx) body.directives) := by
  have pieces := edge_lines o paths indent ctx accepted
  have plain := plainAll_append.mpr ⟨standsFor_plain accepted paths ctx, body.plain⟩
  have both := List.forall_mem_append.mpr ⟨stand, body.stand⟩
  rw [wrapRouteBody, rateLimit_isNone accepted, wrapped, routeEdgeOptionLines]
  by_cases unlimited : o.rate_limit.join.isNone = true
  · rw [if_pos unlimited, if_pos unlimited, ← List.map_append]
    exact reads_of_stand b (by rw [List.map_append, pieces, body.pieces, linesOfAll_append]) plain both
  · generalize edgeLines (parseRouteEdgeOptions (storeOptions (blankRow paths) o)) indent ctx =
      lines at pieces stand both
    have shifted (lines : List Line) : (lines.map Line.text).map shift = (lines.map shiftLine).map Line.text := by
      simp only [List.map_map, Function.comp_def, shift_text]
    have whole : [Line.text ⟨indent, [tok "route", opening]⟩] ++ (lines.map Line.text).map shift ++
        (body.lines.map Line.text).map shift ++ [Line.text ⟨indent, [closing]⟩] =
        ([(⟨indent, [tok "route", opening]⟩ : Line)] ++ (lines ++ body.lines).map shiftLine ++
          [(⟨indent, [closing]⟩ : Line)]).map Line.text := by
      simp only [shifted, List.map_append, List.append_assoc, List.map_cons, List.map_nil]
    rw [if_neg unlimited, if_neg unlimited, whole]
    apply reads_of_stand b
    · rw [linesOfAll_block, linesOfAll_append, ← pieces, ← body.pieces]
      simp [Function.comp_def, shiftLine]
    · have head : [tok "route"].any lone = false := by decide
      exact ⟨⟨head, plain⟩, trivial⟩
    · have opens : Stands b (tok "route") := stands_plain (by decide)
      intro line member
      rw [List.mem_append, List.mem_append, List.mem_singleton, List.mem_singleton] at member
      rcases member with (rfl | inside) | rfl
      · refine ⟨by simp, ?_⟩
        simp only [List.forall_mem_cons, List.not_mem_nil, false_imp_iff, implies_true, and_true]
        exact ⟨opens, stands_opening⟩
      · obtain ⟨inner, listed, rfl⟩ := List.mem_map.mp inside
        exact both inner listed
      · exact ⟨by simp, by simpa using stands_closing⟩

theorem contained_iff_plain : Contained b o paths indent ctx ↔ o.Plain b := by
  constructor
  · intro contained
    by_contra bad
    obtain ⟨token, value, breaks⟩ := values_break b accepted bad
    obtain ⟨tokens, listed, inside⟩ := values_occur paths ctx value
    rw [← edge_lines o paths indent ctx accepted] at listed
    obtain ⟨line, member, rfl⟩ := List.mem_map.mp listed
    have each := edgeLines_each (b := b) accepted paths indent ctx
    refine lexLines_breaks b (fun line member => ⟨(each line member).1, fun piece inside => ?_⟩)
      ⟨line, member, token, inside, breaks⟩ ?_
    · rcases (each line member).2 piece inside with stands | free
      · exact .inl stands
      · exact values_each b accepted piece free
    · rw [edge_lines o paths indent ctx accepted]
      exact contained.1.1
  · intro plain
    have stand : ∀ line ∈ edgeLines (parseRouteEdgeOptions (storeOptions (blankRow paths) o)) indent ctx,
        line.pieces ≠ [] ∧ ∀ piece ∈ line.pieces, Stands b piece := by
      intro line member
      have each := edgeLines_each (b := b) accepted paths indent ctx line member
      refine ⟨each.1, fun piece inside => ?_⟩
      rcases each.2 piece inside with stands | free
      · exact stands
      · exact values_stand b accepted plain piece free
    exact ⟨reads_of_stand b (edge_lines o paths indent ctx accepted) (standsFor_plain accepted paths ctx) stand,
      fun body => wrapRouteBody_reads accepted paths indent ctx body stand⟩

end

end

/-- Accepted options keep within their directives exactly when no header value and no policy ends in a
backslash and every hash handed in is free of blanks and line feeds. -/
theorem edge_options_contained (b : Blanks) (bcryptHash : Option Hasher) (wholeNumber : Json → Option Nat)
    (rateLimitAvailable : Option Bool) (input : Input) (options : Options)
    (accepted : validateRouteEdgeOptions bcryptHash wholeNumber rateLimitAvailable input = .ok options)
    (paths : Option Text) (indent : Nat) (ctx : Context) :
    Contained b options paths indent ctx ↔ input.Plain b := by
  rw [contained_iff_plain (accepted_of_validate accepted), plain_iff b accepted]

/-- Spaces and tabs. -/
def spaces : Blanks where
  blank c := c == ' ' || c == '\t'
  space := by decide
  printable := by
    intro c low _
    simp only [Bool.or_eq_false_iff, beq_eq_false_iff_ne]
    constructor
    · rintro rfl
      exact absurd low (by decide)
    · rintro rfl
      exact absurd low (by decide)

def plainContext : Context := ⟨"r1".toList, none, "denied".toList, by simp⟩

def robotsInput : Input :=
  ⟨some (.object [("X-Robots-Tag".toList, .text "noindex, nofollow".toList)]), none, none, none, none⟩

theorem edge_options_contained_robots :
    Contained spaces ⟨some (some [("X-Robots-Tag".toList, some "noindex, nofollow".toList)]), none,
      none, none, none⟩ none 8
      plainContext ↔ robotsInput.Plain spaces :=
  edge_options_contained spaces none (fun _ => none) none robotsInput _ (by rfl) none 8 plainContext

def escapedUser : Json := .object [("username".toList, .text "ops".toList),
  ("password_hash".toList, .text "$2b$x\n\x7d\nrespond".toList)]

/-- A hash that is handed in brings lines of its own. -/
theorem edge_options_hash_escapes :
    ∃ options, validateRouteEdgeOptions
      (some ⟨fun _ => "$2b$10$".toList ++ List.replicate 53 'a', by intro; decide⟩) (fun _ => none)
        none ⟨none, none, some (.array [escapedUser]), none, none⟩ = .ok options ∧
      ¬Contained spaces options none 8 plainContext := by
  have ok :
      validateRouteEdgeOptions
      (some ⟨fun _ => "$2b$10$".toList ++ List.replicate 53 'a', by intro; decide⟩) (fun _ => none)
      none ⟨none, none, some (.array [escapedUser]), none, none⟩ =
        .ok ⟨none, none, some (some [⟨"ops".toList, "$2b$x\n\x7d\nrespond".toList⟩]), none, none⟩ := by rfl
  refine ⟨_, ok, ?_⟩
  rw [contained_iff_plain (accepted_of_validate ok)]
  intro plain
  have dark := plain.hashes _ rfl _ List.mem_cons_self '\n' (by decide)
  exact dark.1 rfl

end ProxyPilot.Caddy.Edge
