import ProxyPilot.Caddy.EdgeStored
import ProxyPilot.Data.Paths

namespace ProxyPilot.Caddy.Edge

open Data Data.Tokens

theorem q_eq (s : Text) : q s = quoted s := by
  have two : (s.flatMap fun c => if c = '\\' then ['\\', '\\'] else [c]).flatMap
      (fun c => if c = '"' then ['\\', '"'] else [c]) = escaped s := by
    induction s with
    | nil => rfl
    | cons c s ih =>
      have split : escaped (c :: s) = escapeChar c ++ escaped s := rfl
      rw [List.flatMap_cons, List.flatMap_append, ih, split]
      by_cases slash : c = '\\'
      · subst slash
        rfl
      · simp [escapeChar, slash]
  rw [q, two, quoted]

section

variable {b : Blanks}

variable {token : Text} {c : Char} {text : Text} {hash : Text}

theorem stands_plain (plain : PlainToken token) : Stands b token := by
  obtain ⟨some, start, -, range⟩ := plain
  obtain ⟨first, rest, rfl⟩ := List.exists_cons_of_ne_nil some
  have dark : ∀ c ∈ first :: rest, Dark b c := fun c member => dark_of_range b (range c member).1 (range c member).2
  exact stands_bare b (dark first List.mem_cons_self) (fun same => start (by rw [same]; rfl))
    fun c member => dark c (List.mem_cons_of_mem _ member)

theorem stands_opening : Stands b opening :=
  stands_bare b (dark_of_range b (by decide) (by decide)) (by decide) (by simp)

theorem stands_closing : Stands b closing :=
  stands_bare b (dark_of_range b (by decide) (by decide)) (by decide) (by simp)

/-- A character of the names and numbers that the platform writes bare. -/
def Nice (c : Char) : Prop := c.isAlphanum = true ∨ c ∈ ['.', '-', '_', '@', '/', ':', '~', '*', '$']

theorem nice_range (nice : Nice c) : 0x21 ≤ c.toNat ∧ c.toNat ≤ 0x7E ∧ c ≠ '"' ∧ c ≠ '\x7b' ∧ c ≠ '\x7d' := by
  rcases nice with alphanum | listed
  · have range := alphanum_range alphanum
    refine ⟨by omega, ?_, ?_, ?_, ?_⟩
    · omega
    · rintro rfl
      exact absurd alphanum (by decide)
    · rintro rfl
      exact absurd alphanum (by decide)
    · rintro rfl
      exact absurd alphanum (by decide)
  · revert listed
    simp only [List.mem_cons, List.not_mem_nil, or_false]
    rintro (rfl | rfl | rfl | rfl | rfl | rfl | rfl | rfl | rfl) <;> decide

theorem lone_of_nice (nice : ∀ c ∈ token, Nice c) : lone token = false := by
  rw [lone, Bool.or_eq_false_iff, beq_eq_false_iff_ne, beq_eq_false_iff_ne]
  constructor
  · rintro rfl
    exact (nice_range (nice _ List.mem_cons_self)).2.2.2.1 rfl
  · rintro rfl
    exact (nice_range (nice _ List.mem_cons_self)).2.2.2.2 rfl

theorem plain_of_nice (some : token ≠ []) (nice : ∀ c ∈ token, Nice c) : PlainToken token := by
  refine ⟨some, fun start => ?_, lone_of_nice nice, fun c member => ?_⟩
  · exact (nice_range (nice _ (List.mem_of_mem_head? start))).2.2.1 rfl
  · exact ⟨(nice_range (nice c member)).1, (nice_range (nice c member)).2.1⟩

theorem nice_digit (digit : c.isDigit = true) : Nice c := .inl (by simp [Char.isAlphanum, digit])

theorem digitsBetween_nice {least most : Nat} (digits : digitsBetween least most text = true) :
    ∀ c ∈ text, Nice c := by
  simp only [digitsBetween, Bool.and_eq_true, List.all_eq_true] at digits
  exact fun c member => nice_digit (digits.2 c member)

/-- What all pieces between a nice separator are made of, the text is. -/
theorem nice_of_pieces {separator : Char} (nice : Nice separator)
    (pieces : ∀ piece ∈ text.splitOn separator, ∀ c ∈ piece, Nice c) : ∀ c ∈ text, Nice c := by
  intro c member
  rcases mem_piece_of_mem separator member with rfl | ⟨piece, listed, inside⟩
  · exact nice
  · exact pieces piece listed c inside

theorem ipv4_nice (address : ipv4 text = true) : ∀ c ∈ text, Nice c := by
  apply nice_of_pieces (.inr (by decide) : Nice '.')
  rw [ipv4] at address
  split at address
  · next a b c d split =>
    rw [split]
    simp only [List.all_cons, List.all_nil, Bool.and_true, Bool.and_eq_true] at address
    simp only [List.forall_mem_cons, List.not_mem_nil, false_imp_iff, implies_true, and_true]
    exact ⟨digitsBetween_nice address.1, digitsBetween_nice address.2.1, digitsBetween_nice address.2.2.1,
      digitsBetween_nice address.2.2.2⟩
  · contradiction

theorem ipv6_nice (address : ipv6 text = true) : ∀ c ∈ text, Nice c := by
  intro c member
  simp only [ipv6, Bool.and_eq_true, List.all_eq_true] at address
  have one := address.2 c member
  simp only [Bool.or_eq_true, Bool.and_eq_true, decide_eq_true_eq, beq_iff_eq] at one
  rcases one with ((digit | ⟨low, high⟩) | ⟨low, high⟩) | rfl
  · exact nice_digit digit
  · have least : 97 ≤ c.toNat := low
    have most : c.toNat ≤ 102 := high
    exact .inl (alphanum_iff.mpr (by omega))
  · have least : 65 ≤ c.toNat := low
    have most : c.toNat ≤ 70 := high
    exact .inl (alphanum_iff.mpr (by omega))
  · exact .inr (by decide)

theorem cidr_plain (network : cidr text = true) : PlainToken text := by
  have nice : ∀ c ∈ text, Nice c := by
    apply nice_of_pieces (.inr (by decide) : Nice '/')
    rw [cidr] at network
    split at network
    · next address split =>
      rw [split]
      simp only [List.forall_mem_cons, List.not_mem_nil, false_imp_iff, implies_true, and_true]
      rcases Bool.or_eq_true_iff.mp network with four | six
      · exact ipv4_nice four
      · exact ipv6_nice six
    · next address length split =>
      rw [split]
      simp only [List.forall_mem_cons, List.not_mem_nil, false_imp_iff, implies_true, and_true]
      simp only [Bool.or_eq_true, Bool.and_eq_true] at network
      rcases network with ⟨four, digits⟩ | ⟨six, digits⟩
      · exact ⟨ipv4_nice four, digitsBetween_nice digits⟩
      · exact ⟨ipv6_nice six, digitsBetween_nice digits⟩
    · contradiction
  refine plain_of_nice ?_ nice
  rintro rfl
  exact absurd network (by decide)

theorem hostNetwork_plain (network : hostNetwork text = true) : PlainToken text := by
  have nice : ∀ c ∈ text, Nice c := by
    apply nice_of_pieces (.inr (by decide) : Nice '/')
    rw [hostNetwork] at network
    split at network
    · next address length split =>
      rw [split]
      simp only [Bool.and_eq_true, beq_iff_eq] at network
      simp only [List.forall_mem_cons, List.not_mem_nil, false_imp_iff, implies_true, and_true]
      refine ⟨ipv4_nice network.1, fun c member => ?_⟩
      rw [network.2] at member
      revert member
      simp only [String.reduceToList, List.mem_cons, List.not_mem_nil, or_false]
      rintro (rfl | rfl)
      · exact nice_digit (by decide)
      · exact nice_digit (by decide)
    · contradiction
  refine plain_of_nice ?_ nice
  rintro rfl
  exact absurd network (by decide)

theorem pathChar_nice (path : pathChar c = true) : Nice c := by
  simp only [pathChar, Bool.or_eq_true, beq_iff_eq] at path
  rcases path with (((alphanum | rfl) | rfl) | rfl) | rfl
  · exact .inl alphanum
  all_goals exact .inr (by decide)

theorem allowlistPath_plain {path : Json} (allowed : isAllowlistPath path = true) :
    PlainToken (asText path) ∧ PlainToken (asText path ++ tok "/*") := by
  cases path with
  | text text =>
    cases text with
    | nil => cases allowed
    | cons first rest =>
      simp only [isAllowlistPath, Bool.and_eq_true, List.all_eq_true, beq_iff_eq] at allowed
      have slash := allowed.1.1
      have nice : ∀ c ∈ first :: rest, Nice c := by
        refine List.forall_mem_cons.mpr ⟨.inr (by rw [slash]; decide), ?_⟩
        apply nice_of_pieces (.inr (by decide) : Nice '/')
        exact fun piece member c inside => pathChar_nice ((allowed.1.2 piece member).2 c inside)
      rw [asText_text]
      refine ⟨plain_of_nice (by simp) nice, plain_of_nice (by simp) ?_⟩
      rw [List.forall_mem_append]
      refine ⟨nice, ?_⟩
      simp only [tok, String.reduceToList, List.forall_mem_cons, List.not_mem_nil, false_imp_iff,
        implies_true, and_true]
      exact ⟨.inr (by decide), .inr (by decide)⟩
  | null => cases allowed
  | bool value => cases allowed
  | number value => cases allowed
  | array items => cases allowed
  | object fields => cases allowed

theorem headerName_plain {name : Text} (named : headerName name = true) :
    PlainToken name ∧ PlainToken ('-' :: name) := by
  simp only [headerName, Bool.and_eq_true, decide_eq_true_eq, List.all_eq_true, Bool.or_eq_true,
    beq_iff_eq] at named
  have nice : ∀ c ∈ name, Nice c := by
    intro c member
    rcases named.2 c member with alphanum | rfl
    · exact .inl alphanum
    · exact .inr (by decide)
  refine ⟨plain_of_nice ?_ nice, plain_of_nice (by simp) (List.forall_mem_cons.mpr ⟨.inr (by decide), nice⟩)⟩
  rintro rfl
  exact absurd named.1.1 (by decide)

theorem userName_plain {name : Text} (named : userName name = true) : PlainToken name := by
  simp only [userName, Bool.and_eq_true, decide_eq_true_eq, List.all_eq_true, Bool.or_eq_true, beq_iff_eq] at named
  refine plain_of_nice ?_ fun c member => ?_
  · rintro rfl
    exact absurd named.1.1 (by decide)
  · rcases named.2 c member with (((alphanum | rfl) | rfl) | rfl) | rfl
    · exact .inl alphanum
    all_goals exact .inr (by decide)

theorem toDigits_plain (n : Nat) : PlainToken (Nat.toDigits 10 n) :=
  plain_of_nice Nat.toDigits_ne_nil fun _ member =>
    nice_digit (Nat.isDigit_of_mem_toDigits (by decide) (by decide) member)

theorem windowText_plain (window : windowText text = true) : PlainToken text := by
  simp only [windowText, Bool.and_eq_true, Bool.or_eq_true, beq_iff_eq] at window
  obtain ⟨unit, last, nice⟩ : ∃ unit, text.getLast? = some unit ∧ Nice unit := by
    rcases window.2 with (last | last) | last
    · exact ⟨_, last, .inl (by decide)⟩
    · exact ⟨_, last, .inl (by decide)⟩
    · exact ⟨_, last, .inl (by decide)⟩
  have whole := List.dropLast_append_getLast? unit last
  rw [← whole]
  refine plain_of_nice (by simp) ?_
  rw [List.forall_mem_append]
  exact ⟨digitsBetween_nice window.1, by simpa using nice⟩

theorem checkToken_plain (hex : checkToken token = true) : PlainToken token := by
  simp only [checkToken, Bool.and_eq_true, decide_eq_true_eq] at hex
  refine plain_of_nice ?_ (ipv6_nice ?_)
  · rintro rfl
    exact absurd hex.1 (by decide)
  · simp only [ipv6, Bool.and_eq_true, bne_iff_ne, List.all_eq_true] at hex ⊢
    refine ⟨?_, fun c member => ?_⟩
    · rintro rfl
      exact absurd hex.1 (by decide)
    · have one := hex.2 c member
      rw [Bool.or_eq_true] at one
      rcases one with digit | letter
      · rw [digit]
        rfl
      · rw [letter]
        simp

theorem zoneName_plain (routeId : Text) : PlainToken (zoneName routeId) := by
  have front : ∀ c ∈ tok "pp_", Nice c := by
    simp only [tok, String.reduceToList, List.forall_mem_cons, List.not_mem_nil, false_imp_iff,
      implies_true, and_true]
    exact ⟨.inl (by decide), .inl (by decide), .inr (by decide)⟩
  refine plain_of_nice (by simp [zoneName, tok]) ?_
  rw [zoneName, List.forall_mem_append]
  refine ⟨front, ?_⟩
  split
  · simp only [List.forall_mem_singleton]
    exact .inl (by decide)
  · intro c member
    exact .inl (List.mem_filter.mp (List.mem_of_mem_take member)).2

theorem stands_or_breaks_quoted (text : Text) : Stands b (quoted text) ∨ Breaks b (quoted text) := by
  by_cases ends : text.getLast? = some '\\'
  · exact .inr (breaks_quoted b ends)
  · exact .inl (stands_quoted b ends)

theorem bcryptStart_cons (start : bcryptStart hash = true) : ∃ rest, hash = '$' :: rest := by
  unfold bcryptStart at start
  split at start
  · exact ⟨_, rfl⟩
  · contradiction

theorem hash_stands (start : bcryptStart hash = true) (dark : ∀ c ∈ hash, Dark b c) : Stands b hash := by
  obtain ⟨rest, rfl⟩ := bcryptStart_cons start
  exact stands_bare b (dark _ List.mem_cons_self) (by decide) fun c member => dark c (List.mem_cons_of_mem _ member)

theorem hash_breaks (start : bcryptStart hash = true) (light : ∃ c ∈ hash, ¬Dark b c) : Breaks b hash := by
  obtain ⟨rest, rfl⟩ := bcryptStart_cons start
  have dollar : Dark b '$' := dark_of_range b (by decide) (by decide)
  obtain ⟨c, member, gap⟩ := light
  have later := (List.mem_cons.mp member).resolve_left fun same => gap (same ▸ dollar)
  exact breaks_bare b dollar (by decide) ⟨c, later, gap⟩

theorem lone_hash (start : bcryptStart hash = true) : lone hash = false := by
  obtain ⟨rest, rfl⟩ := bcryptStart_cons start
  simp [lone, opening, closing]

theorem lone_quoted (text : Text) : lone (quoted text) = false := by
  simp [lone, quoted, opening, closing]

end

def refusalDirectives (ctx : Context) : List Directive :=
  [.line [tok "header", tok "@pp_denied", tok "Content-Type", quoted (tok "text/html; charset=utf-8")],
    .line [tok "respond", tok "@pp_denied", quoted ctx.deniedBody, tok "403"]]

def pathDirective (paths : List Text) : Directive :=
  .line (tok "path" :: paths.flatMap fun path => [path, path ++ tok "/*"])

/-- Who is refused: everyone but the networks, on the paths when there are some. -/
def deniedDirective (networks : List Text) (paths : Option (List Text)) (ctx : Context) : Directive :=
  match ctx.selfCheck.filter fun check => checkToken check.token with
  | some check =>
    .block [tok "@pp_denied"] (paths.toList.map pathDirective ++
      [.line ([tok "not", tok "remote_ip"] ++ networks ++
          check.extraAllow.filter fun a => hostNetwork a && !networks.contains a),
        .block [tok "not"]
          [.line (tok "remote_ip" :: check.sources), .line [tok "header", check.header, check.token]]])
  | none =>
    match paths with
    | some paths =>
      .block [tok "@pp_denied"] [pathDirective paths, .line ([tok "not", tok "remote_ip"] ++ networks)]
    | none => .line ([tok "@pp_denied", tok "not", tok "remote_ip"] ++ networks)

def headerDirective (header : Text × Option Text) : Directive :=
  match header.2 with
  | none => .line ['-' :: header.1]
  | some value => .line [header.1, quoted value]

def rateLimitDirective (limit : RateLimit) (ctx : Context) : Directive :=
  .block [tok "rate_limit"]
    [.block [tok "zone", zoneName ctx.routeId]
      [.line [tok "key", limit.key], .line [tok "events", Nat.toDigits 10 limit.events],
        .line [tok "window", limit.window]]]

/-- The policy of stored options; an empty one stands for none. -/
def Options.policy (o : Options) : Option Text := o.csp.join.filter (· ≠ [])

def standsFor (o : Options) (paths : Option Text) (ctx : Context) : List Directive :=
  (match o.ip_allowlist.join with
    | none => []
    | some networks => deniedDirective networks (allowedPaths (parseColumn paths)) ctx :: refusalDirectives ctx) ++
  (match o.basic_auth.join with
    | none => []
    | some users => [.block [tok "basic_auth"] (users.map fun user => .line [user.username, user.hash])]) ++
  (if o.headers.join.isSome ∨ o.policy.isSome then
    [.block [tok "header"] ((o.headers.join.getD []).map headerDirective ++
      o.policy.toList.map fun policy => .line [tok "Content-Security-Policy", quoted policy])]
    else []) ++
  (match o.rate_limit.join with
    | none => []
    | some limit => [rateLimitDirective limit ctx])

theorem linesOfAll_append (left right : List Directive) :
    linesOfAll (left ++ right) = linesOfAll left ++ linesOfAll right := by
  induction left with
  | nil => rfl
  | cons first rest ih => rw [List.cons_append, linesOfAll, linesOfAll, ih, List.append_assoc]

theorem linesOfAll_line (tokens : List Text) : linesOfAll [.line tokens] = [tokens] := rfl

theorem linesOfAll_block (head : List Text) (body : List Directive) :
    linesOfAll [.block head body] = (head ++ [opening]) :: (linesOfAll body ++ [[closing]]) := by
  simp [linesOfAll, Directive.lines]

theorem linesOfAll_cons (first : Directive) (rest : List Directive) :
    linesOfAll (first :: rest) = linesOfAll [first] ++ linesOfAll rest := linesOfAll_append [first] rest

theorem linesOfAll_map {items : List α} {f : α → Directive} {tokens : α → List Text}
    (each : ∀ item, f item = .line (tokens item)) : linesOfAll (items.map f) = items.map tokens := by
  induction items with
  | nil => rfl
  | cons item items ih => rw [List.map_cons, linesOfAll_cons, each, linesOfAll_line, ih]; rfl

section

variable (o : Options) (paths : Option Text) (indent : Nat) (ctx : Context)

theorem refusal_lines : (refusal ctx indent).map Line.pieces = linesOfAll (refusalDirectives ctx) := by
  simp only [refusal, q_eq, List.map_cons, List.map_nil]
  rfl

theorem itemText_map (networks : List Text) : (networks.map Json.text).map itemText = networks := by
  rw [List.map_map]
  exact List.map_id'' (fun _ => rfl) networks

theorem allowlist_lines : (allowlistLines (restored o paths) indent ctx).map Line.pieces =
    linesOfAll (match o.ip_allowlist.join with
      | none => []
      | some networks =>
        deniedDirective networks (allowedPaths (parseColumn paths)) ctx :: refusalDirectives ctx) := by
  cases stored : o.ip_allowlist.join with
  | none => simp [allowlistLines, restored, stored, linesOfAll]
  | some networks =>
    simp only [allowlistLines, restored, stored, Option.map_some, Option.bind_some, pathLine,
      itemText_map, deniedDirective]
    rw [linesOfAll_cons]
    cases ctx.selfCheck.filter fun check => checkToken check.token with
    | some check =>
      cases allowedPaths (parseColumn paths) <;>
        simp [refusal_lines, linesOfAll, Directive.lines, pathDirective]
    | none =>
      cases allowedPaths (parseColumn paths) <;>
        simp [refusal_lines, linesOfAll, Directive.lines, pathDirective]

theorem basicAuth_lines : (basicAuthLines (restored o paths) indent).map Line.pieces =
    linesOfAll (match o.basic_auth.join with
      | none => []
      | some users => [.block [tok "basic_auth"] (users.map fun user => .line [user.username, user.hash])]) := by
  cases stored : o.basic_auth.join with
  | none => simp [basicAuthLines, restored, stored, linesOfAll]
  | some users =>
    have name (user : User) : shown ((userJson user).field "username".toList) = user.username := rfl
    have hash (user : User) : shown ((userJson user).field "hash".toList) = user.hash := rfl
    simp only [basicAuthLines, restored, stored, Option.map_some]
    rw [linesOfAll_block, linesOfAll_map fun user => rfl]
    simp only [List.map_append, List.map_map, List.map_cons, List.map_nil, Function.comp_def, name, hash]
    rfl

theorem headerLine_pieces (header : Text × Option Text) :
    [(headerLine indent (header.1, valueJson header.2)).pieces] = linesOfAll [headerDirective header] := by
  obtain ⟨name, value⟩ := header
  cases value with
  | none => rfl
  | some value =>
    rw [headerDirective, linesOfAll_line, ← q_eq]
    rfl

theorem headerLines_pieces (headers : List (Text × Option Text)) :
    (headers.map fun header => headerLine indent (header.1, valueJson header.2)).map Line.pieces =
      linesOfAll (headers.map headerDirective) := by
  induction headers with
  | nil => rfl
  | cons header headers ih =>
    rw [List.map_cons, List.map_cons, List.map_cons, linesOfAll_cons, ← headerLine_pieces indent, ih]
    rfl

theorem header_lines : (headerLines (restored o paths) indent).map Line.pieces =
    linesOfAll (if o.headers.join.isSome ∨ o.policy.isSome then
      [.block [tok "header"] ((o.headers.join.getD []).map headerDirective ++
        o.policy.toList.map fun policy => .line [tok "Content-Security-Policy", quoted policy])]
      else []) := by
  have there : (restored o paths).headers.isSome ∨ (restored o paths).csp.isSome ↔
      o.headers.join.isSome ∨ o.policy.isSome := by
    simp [restored, Options.policy]
  have headers : ((restored o paths).headers.getD []).map (headerLine indent) =
      (o.headers.join.getD []).map fun header => headerLine indent (header.1, valueJson header.2) := by
    cases stored : o.headers.join with
    | none => simp [restored, stored]
    | some headers => simp [restored, stored]
  by_cases some : o.headers.join.isSome ∨ o.policy.isSome
  · have kept : (restored o paths).csp = o.policy := rfl
    rw [headerLines, if_pos (there.mpr some), if_pos some, linesOfAll_block, linesOfAll_append,
      linesOfAll_map fun policy => rfl, headers, List.map_append, List.map_append, List.map_append,
      headerLines_pieces, kept]
    simp [q_eq, Function.comp_def]
  · rw [headerLines, if_neg fun given => some (there.mp given), if_neg some]
    rfl

theorem rateLimit_lines (accepted : Accepted o) : (rateLimitLines (restored o paths) indent ctx).map Line.pieces =
    linesOfAll (match o.rate_limit.join with
      | none => []
      | some limit => [rateLimitDirective limit ctx]) := by
  cases stored : o.rate_limit.join with
  | none => simp [rateLimitLines, restored, stored, linesOfAll]
  | some limit =>
    have some : limit.key ≠ [] := by
      rcases (accepted.limit limit (join_eq_some stored)).2.2 with same | same
      · rw [same]
        decide
      · rw [same]
        decide
    have key : fieldOr "key" REMOTE_KEY (rateLimitJson limit) = limit.key := by
      have field : (rateLimitJson limit).field "key".toList = Option.some (.text limit.key) := rfl
      rw [fieldOr, field]
      simp [truthy, some]
    have events : shown ((rateLimitJson limit).field "events".toList) = Nat.toDigits 10 limit.events := rfl
    have window : shown ((rateLimitJson limit).field "window".toList) = limit.window := rfl
    simp only [rateLimitLines, restored, stored, Option.map_some, key, events, window]
    rw [rateLimitDirective, linesOfAll_block, linesOfAll_block]
    rfl

theorem edgeLines_parse (row : Row) :
    edgeLines (parseRouteEdgeOptions row) indent ctx = edgeLines (some (readRow row)) indent ctx := by
  rw [parseRouteEdgeOptions]
  split
  · rfl
  · next none =>
    simp only [Bool.or_eq_true, not_or, Option.not_isSome_iff_eq_none] at none
    obtain ⟨⟨⟨⟨⟨headers, csp⟩, users⟩, networks⟩, -⟩, limit⟩ := none
    simp [edgeLines, allowlistLines, basicAuthLines, headerLines, rateLimitLines, headers, csp,
      users, networks, limit]

/-- The lines of stored options carry the tokens of the directives they stand for. -/
theorem edge_lines (accepted : Accepted o) :
    (edgeLines (parseRouteEdgeOptions (storeOptions (blankRow paths) o)) indent ctx).map Line.pieces =
      linesOfAll (standsFor o paths ctx) := by
  rw [edgeLines_parse, readRow_store accepted, edgeLines, List.map_append, List.map_append, List.map_append,
    allowlist_lines, basicAuth_lines, header_lines, rateLimit_lines o paths indent ctx accepted,
      ← linesOfAll_append,
    ← linesOfAll_append, ← linesOfAll_append, standsFor]

end

end ProxyPilot.Caddy.Edge
