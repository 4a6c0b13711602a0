import ProxyPilot.Dns.Query

namespace ProxyPilot.Dns

open Data

/-! # What a resolver reads in an answer

The decoder follows the message format, with pointers in names that go back in the message.
-/

structure Question where
  name : List Bytes
  type : Nat
  qclass : Nat

structure Record where
  owner : List Bytes
  type : Nat
  rclass : Nat
  ttl : Nat
  data : Bytes

structure Flags where
  response : Bool
  opcode : Nat
  authoritative : Bool
  truncated : Bool
  recursionDesired : Bool
  recursionAvailable : Bool
  rcode : Nat
deriving DecidableEq

structure Message where
  id : Nat
  flags : Flags
  questions : List Question
  answers : List Record
  authorities : List Record
  additionals : List Record

def decodeFlags (flags : Nat) : Flags where
  response := flags.testBit 15
  opcode := flags / 2048 % 16
  authoritative := flags.testBit 10
  truncated := flags.testBit 9
  recursionDesired := flags.testBit 8
  recursionAvailable := flags.testBit 7
  rcode := flags % 16

/-- The labels of the name at an offset, and where the name ends. -/
def decodeName (buf : Bytes) : Nat → Nat → Option (List Bytes × Nat)
  | 0, _ => none
  | fuel + 1, o =>
    match buf[o]? with
    | none => none
    | some byte =>
      if byte = 0 then some ([], o + 1)
      else if byte.toNat < 64 then
        if o + 1 + byte.toNat ≤ buf.length then
          (decodeName buf fuel (o + 1 + byte.toNat)).map fun (labels, stop) =>
            (subarray buf (o + 1) (o + 1 + byte.toNat) :: labels, stop)
        else none
      else if 192 ≤ byte.toNat ∧ o + 2 ≤ buf.length ∧ readUInt16BE buf o - 0xc000 < o then
        (decodeName buf fuel (readUInt16BE buf o - 0xc000)).map fun (labels, _) => (labels, o + 2)
      else none

def decodeQuestion (buf : Bytes) (o : Nat) : Option (Question × Nat) := do
  let (name, o) ← decodeName buf buf.length o
  if o + 4 ≤ buf.length then some (⟨name, readUInt16BE buf o, readUInt16BE buf (o + 2)⟩, o + 4) else none

def decodeRecord (buf : Bytes) (o : Nat) : Option (Record × Nat) := do
  let (owner, o) ← decodeName buf buf.length o
  if o + 10 + readUInt16BE buf (o + 8) ≤ buf.length then
    some ({
      owner := owner
      type := readUInt16BE buf o
      rclass := readUInt16BE buf (o + 2)
      ttl := bigEndian (subarray buf (o + 4) (o + 8))
      data := subarray buf (o + 10) (o + 10 + readUInt16BE buf (o + 8)) }, o + 10 + readUInt16BE buf (o + 8))
  else none

/-- A section of a message, entry by entry. -/
def decodeSection {α : Type} (decode : Nat → Option (α × Nat)) : Nat → Nat → Option (List α × Nat)
  | 0, o => some ([], o)
  | count + 1, o => do
    let (entry, o) ← decode o
    let (entries, o) ← decodeSection decode count o
    some (entry :: entries, o)

def decodeMessage (buf : Bytes) : Option Message :=
  if buf.length < 12 then none
  else do
    let (questions, o) ← decodeSection (decodeQuestion buf) (readUInt16BE buf 4) 12
    let (answers, o) ← decodeSection (decodeRecord buf) (readUInt16BE buf 6) o
    let (authorities, o) ← decodeSection (decodeRecord buf) (readUInt16BE buf 8) o
    let (additionals, o) ← decodeSection (decodeRecord buf) (readUInt16BE buf 10) o
    if o = buf.length then some {
      id := readUInt16BE buf 0
      flags := decodeFlags (readUInt16BE buf 2)
      questions := questions
      answers := answers
      authorities := authorities
      additionals := additionals }
    else none

variable {buf front bytes : Bytes} {o n : Nat}

theorem at_front (bytes rest : Bytes) : At (bytes ++ rest) 0 bytes := ⟨rest, rfl⟩

theorem At.behind (stands : At buf o bytes) (front : Bytes) : At (front ++ buf) (front.length + o) bytes := by
  obtain ⟨rest, whole⟩ := stands
  exact ⟨rest, by rw [← List.drop_drop, List.drop_left, whole]⟩

theorem At.read (stands : At buf o (toBytes 2 n)) (small : n < 65536) : readUInt16BE buf o = n := by
  obtain ⟨rest, whole⟩ := stands
  rw [readUInt16BE, whole, List.take_left' (length_toBytes 2 n)]
  exact bigEndian_toBytes small

variable {rest : Bytes} {name : List Char}

theorem At.byte {byte : UInt8} (stands : At buf o (byte :: rest)) : buf[o]? = some byte := by
  obtain ⟨later, whole⟩ := stands
  rw [← List.head?_drop, whole]
  rfl

theorem length_wireName (labels : List Bytes) : labels.length < (wireName labels).length := by
  induction labels with
  | nil => simp [wireName]
  | cons label labels ih =>
    simp only [wireName, List.flatMap_cons, List.length_append, List.length_cons, List.length_nil] at ih ⊢
    omega

/-- A name that is written out is read back. -/
theorem decodeName_wireName {labels : List Bytes} (fit : LabelsFit labels)
    (stands : At buf o (wireName labels)) {fuel : Nat}
    (enough : labels.length < fuel) : decodeName buf fuel o = some (labels, o + (wireName labels).length) := by
  induction labels generalizing o fuel with
  | nil =>
    obtain ⟨fuel, rfl⟩ := Nat.exists_eq_add_of_lt enough
    simp [decodeName, stands.byte, wireName]
  | cons label labels ih =>
    cases fuel with
    | zero => simp at enough
    | succ fuel =>
      obtain ⟨⟨nonempty, short⟩, fit⟩ := List.forall_mem_cons.mp fit
      have length : (UInt8.ofNat label.length).toNat = label.length := by simp; omega
      have some : UInt8.ofNat label.length ≠ 0 := fun zero => by
        have zero := congrArg UInt8.toNat zero
        rw [length] at zero
        exact nonempty (List.length_eq_zero_iff.mp zero)
      have whole : At buf o ([UInt8.ofNat label.length] ++ (label ++ wireName labels)) := by
        simpa [wireName] using stands
      have body : At buf (o + 1) (label ++ wireName labels) := whole.right
      have later := ih fit body.right (by simpa using enough)
      have inside := body.left.length nonempty
      have first := whole.byte
      simp only [decodeName, first, if_neg some, length, if_pos short, if_pos inside, later,
        body.left.subarray_eq, Option.map_some]
      simp only [wireName, List.flatMap_cons, List.length_append, List.length_cons,
        Option.some.injEq, Prod.mk.injEq, true_and]
      omega

/-- A pointer to a name is read as that name. -/
theorem decodeName_pointer {target stop fuel : Nat} {labels : List Bytes} (back : target < o)
    (near : target < 0x4000)
    (stands : At buf o (toBytes 2 (0xc000 + target))) (known : decodeName buf fuel target = some (labels, stop)) :
    decodeName buf (fuel + 1) o = some (labels, o + 2) := by
  have value := stands.read (by omega)
  have inside := stands.length (by simp [toBytes])
  have high : toBytes 2 (0xc000 + target) =
      [UInt8.ofNat ((0xc000 + target) / 256), UInt8.ofNat (0xc000 + target)] := rfl
  rw [high] at stands
  have byte := stands.byte
  have large : (UInt8.ofNat ((0xc000 + target) / 256)).toNat = (0xc000 + target) / 256 := by simp; omega
  have some : UInt8.ofNat ((0xc000 + target) / 256) ≠ 0 := fun zero => by
    have zero := congrArg UInt8.toNat zero
    rw [large] at zero
    simp at zero
    omega
  have back : 192 ≤ (0xc000 + target) / 256 ∧ o + 2 ≤ buf.length ∧ readUInt16BE buf o - 0xc000 < o := by
    rw [length_toBytes] at inside
    omega
  have pointed : readUInt16BE buf o - 0xc000 = target := by omega
  rw [pointed] at back
  simp only [decodeName, byte, large, if_neg some,
    if_neg (show ¬ (0xc000 + target) / 256 < 64 by omega), pointed, if_pos back, known,
    Option.map_some]

/-- What a query says of its buffer. -/
structure Reads (buf : Bytes) (q : Query) (labels : List Bytes) : Prop where
  fit : LabelsFit labels
  name : q.name = dotted labels
  stop : q.questionEnd = 12 + (wireName labels).length + 4
  inside : q.questionEnd ≤ buf.length
  question : subarray buf 12 q.questionEnd = wireName labels ++ (toBytes 2 q.type ++ toBytes 2 q.qclass)
  id : q.id = readUInt16BE buf 0
  flags : q.flags = readUInt16BE buf 2
  small : q.id < 65536 ∧ q.flags < 65536 ∧ q.type < 65536 ∧ q.qclass < 65536

theorem readUInt16BE_lt (buf : Bytes) (o : Nat) : readUInt16BE buf o < 65536 := by
  have bound := bigEndian_lt ((buf.drop o).take 2)
  have length : ((buf.drop o).take 2).length ≤ 2 := List.length_take_le 2 _
  exact Nat.lt_of_lt_of_le bound (Nat.pow_le_pow_right (by omega) length)

theorem at_read (inside : o + 2 ≤ buf.length) : At buf o (toBytes 2 (readUInt16BE buf o)) := by
  have two : ((buf.drop o).take 2).length = 2 := by simp; omega
  have bytes := toBytes_bigEndian ((buf.drop o).take 2)
  rw [two] at bytes
  exact ⟨(buf.drop o).drop 2, by rw [readUInt16BE, bytes, List.take_append_drop]⟩

theorem parseQuery_reads {q : Query} (parsed : parseQuery buf = some q) : ∃ labels, Reads buf q labels := by
  unfold parseQuery at parsed
  split at parsed
  · cases parsed
  · dsimp only at parsed
    split at parsed
    · cases parsed
    · split at parsed
      · cases parsed
      · next labels o read =>
          split at parsed
          · cases parsed
          · next inside =>
              obtain ⟨fit, stands, rfl⟩ := readLabels_sound read
              obtain rfl := Option.some.inj parsed
              have inside : 12 + (wireName labels).length + 4 ≤ buf.length := Nat.not_lt.mp inside
              have type := @at_read buf (12 + (wireName labels).length) (by omega)
              have qclass := @at_read buf (12 + (wireName labels).length + 2) (by omega)
              have question := stands.append (type.append (by rwa [length_toBytes]))
              refine ⟨labels, {
                fit := fit
                name := rfl
                stop := rfl
                inside := inside
                question := ?_
                id := rfl
                flags := rfl
                small :=
                  ⟨readUInt16BE_lt buf _, readUInt16BE_lt buf _, readUInt16BE_lt buf _, readUInt16BE_lt buf _⟩ }⟩
              have whole := question.subarray_eq
              simp only [List.length_append, length_toBytes] at whole
              rwa [← Nat.add_assoc] at whole

variable {id flags questions answers : Nat} {labels : List Bytes}

/-- The numbers of a header. -/
theorem header_reads (small : id < 65536 ∧ flags < 65536 ∧ questions < 65536 ∧ answers < 65536) (body : Bytes) :
    let out := header id flags questions answers ++ body
    readUInt16BE out 0 = id ∧ readUInt16BE out 2 = flags ∧ readUInt16BE out 4 = questions ∧
      readUInt16BE out 6 = answers ∧
      readUInt16BE out 8 = 0 ∧ readUInt16BE out 10 = 0 := by
  intro out
  obtain ⟨idSmall, flagsSmall, questionsSmall, answersSmall⟩ := small
  have whole : At out 0 (header id flags questions answers) := at_front _ body
  have afterId := whole.right
  have afterFlags := afterId.right
  have afterQuestions := afterFlags.right
  have afterAnswers := afterQuestions.right
  simp only [length_toBytes, Nat.zero_add] at afterId afterFlags afterQuestions afterAnswers
  refine ⟨whole.left.read idSmall, afterId.left.read flagsSmall, afterFlags.left.read questionsSmall,
    afterQuestions.left.read answersSmall, afterAnswers.left.read (by omega), ?_⟩
  have last := afterAnswers.right
  simp only [length_toBytes] at last
  exact last.read (by omega)

theorem length_header (id flags questions answers : Nat) : (header id flags questions answers).length = 12 := by
  simp [header]

theorem decodeQuestion_at {type qclass : Nat} (fit : LabelsFit labels) (small : type < 65536 ∧ qclass < 65536)
    (stands : At buf o (wireName labels ++ (toBytes 2 type ++ toBytes 2 qclass))) :
    decodeQuestion buf o = some (⟨labels, type, qclass⟩, o + (wireName labels).length + 4) := by
  have inside := stands.length (by simp [wireName])
  simp only [List.length_append, length_toBytes] at inside
  have enough := length_wireName labels
  have name := decodeName_wireName fit stands.left (show labels.length < buf.length by omega)
  have behind := stands.right.right
  rw [length_toBytes] at behind
  simp only [decodeQuestion, name, Option.bind_eq_bind, Option.bind_some,
    stands.right.left.read small.1, behind.read small.2]
  exact if_pos (by omega)

theorem decodeRecord_at {address : Address} {ttl : UInt32} {stop : Nat} (behind : 12 < o)
    (stands : At buf o (record address ttl))
    (known : decodeName buf (buf.length - 1) 12 = some (labels, stop)) :
    decodeRecord buf o = some (⟨labels, TYPE_A, 1, ttl.toNat, address.octets⟩, o + 16) := by
  have four := address.four
  have inside := stands.length (by simp [record, toBytes])
  have length : (record address ttl).length = 16 := by simp [record, four]
  rw [length] at inside
  have fuel : buf.length = buf.length - 1 + 1 := by omega
  have owner : decodeName buf buf.length o = some (labels, o + 2) := by
    rw [fuel]
    exact decodeName_pointer behind (by omega) stands.left known
  have afterOwner := stands.right
  have afterType := afterOwner.right
  have afterClass := afterType.right
  have afterTtl := afterClass.right
  have data := afterTtl.right
  simp only [length_toBytes] at afterOwner afterType afterClass afterTtl data
  have width : readUInt16BE buf (o + 10) = 4 := afterTtl.left.read (by omega)
  have life := afterClass.left.subarray_eq
  have octets := data.subarray_eq
  rw [length_toBytes] at life
  rw [four] at octets
  have room : o + 2 + 10 + 4 ≤ buf.length := by omega
  simp only [decodeRecord, owner, Option.bind_eq_bind, Option.bind_some, Nat.add_assoc,
    Nat.reduceAdd] at width life octets ⊢
  rw [width, if_pos (by omega), afterOwner.left.read (by decide), afterType.left.read (by omega), life, octets,
    bigEndian_toBytes ttl.toNat_lt]

/-- The one bit a response takes from the query. -/
theorem and_recursionDesired (flags : Nat) : flags &&& 0x0100 = if flags.testBit 8 then 0x0100 else 0 := by
  have power (i : Nat) : Nat.testBit 0x0100 i = decide (8 = i) := Nat.testBit_two_pow (n := 8)
  apply Nat.eq_of_testBit_eq
  intro i
  rw [Nat.testBit_and, power]
  by_cases same : 8 = i
  · subst same
    cases bit : flags.testBit 8 <;> simp [power]
  · split <;> simp [same, power]

theorem decode_answerFlags (flags : Nat) : answerFlags flags < 65536 ∧
    decodeFlags (answerFlags flags) = ⟨true, 0, true, false, flags.testBit 8, true, 0⟩ := by
  rw [answerFlags, and_recursionDesired]
  cases flags.testBit 8 <;> decide

theorem decode_failureFlags (flags : Nat) : failureFlags flags < 65536 ∧
    decodeFlags (failureFlags flags) = ⟨true, 0, false, false, flags.testBit 8, true, 2⟩ := by
  rw [failureFlags, and_recursionDesired]
  cases flags.testBit 8 <;> decide

/-- The one question of a message. -/
def Query.question (q : Query) (labels : List Bytes) : Question := ⟨labels, q.type, q.qclass⟩

/-- What the answer to a query says. -/
def Query.answered (q : Query) (labels : List Bytes) (address : Address) (ttl : UInt32) : Message where
  id := q.id
  flags := ⟨true, 0, true, false, q.flags.testBit 8, true, 0⟩
  questions := [q.question labels]
  answers := if q.type = TYPE_A ∧ q.qclass = 1 then [⟨labels, TYPE_A, 1, ttl.toNat, address.octets⟩] else []
  authorities := []
  additionals := []

/-- What the refusal of a query says. -/
def Query.failed (q : Query) (labels : List Bytes) : Message where
  id := q.id
  flags := ⟨true, 0, false, false, q.flags.testBit 8, true, 2⟩
  questions := [q.question labels]
  answers := []
  authorities := []
  additionals := []

variable {q : Query}

theorem subarray_message {front question : Bytes} (rest : Bytes) {start stop : Nat} (begins : front.length = start)
    (ends : start + question.length = stop) : subarray (front ++ (question ++ rest)) start stop = question := by
  subst begins ends
  have stands := (at_front question rest).behind front
  rw [Nat.add_zero] at stands
  exact stands.subarray_eq

theorem Reads.question_length (reads : Reads buf q labels) :
    12 + (subarray buf 12 q.questionEnd).length = q.questionEnd := by
  have stop := reads.stop
  rw [length_subarray reads.inside]
  omega

/-- The question stands behind the header. -/
theorem Reads.question_at (reads : Reads buf q labels) (id flags questions answers : Nat) (rest : Bytes) :
    At (header id flags questions answers ++ (subarray buf 12 q.questionEnd ++ rest)) 12
      (wireName labels ++ (toBytes 2 q.type ++ toBytes 2 q.qclass)) := by
  have stands := (at_front (subarray buf 12 q.questionEnd) rest).behind (header id flags questions answers)
  rw [length_header, Nat.add_zero] at stands
  obtain ⟨later, whole⟩ := stands
  exact ⟨later, by rw [whole, reads.question]⟩

/-- A message with a header, the question of the query, and the records that follow. -/
theorem decode_message (reads : Reads buf q labels) {flags answers : Nat} {said : Flags} {records : List Record}
    (flagsSmall : flags < 65536 ∧ decodeFlags flags = said) (answersSmall : answers < 65536)
    (decoded : decodeSection (decodeRecord (header q.id flags 1 answers ++
    (subarray buf 12 q.questionEnd ++ rest))) answers q.questionEnd =
      some (records, q.questionEnd + rest.length)) :
    decodeMessage (header q.id flags 1 answers ++ (subarray buf 12 q.questionEnd ++ rest)) =
      some ⟨q.id, said, [q.question labels], records, [], []⟩ := by
  obtain ⟨readId, readFlags, readQuestions, readAnswers, readAuthorities, readAdditionals⟩ :=
    header_reads ⟨reads.small.1, flagsSmall.1, show 1 < 65536 by omega, answersSmall⟩
      (subarray buf 12 q.questionEnd ++ rest)
  have question := decodeQuestion_at reads.fit reads.small.2.2 (reads.question_at q.id flags 1 answers rest)
  rw [← reads.stop] at question
  have length : (header q.id flags 1 answers ++ (subarray buf 12 q.questionEnd ++ rest)).length =
      q.questionEnd + rest.length := by
    rw [List.length_append, List.length_append, length_header, ← Nat.add_assoc, reads.question_length]
  have stop := reads.stop
  rw [decodeMessage, if_neg (by omega), readQuestions, readAnswers, readAuthorities,
    readAdditionals, readId, readFlags, flagsSmall.2]
  simp only [decodeSection, question, decoded, Option.bind_eq_bind, Option.bind_some, length, if_true]
  rfl

theorem buildAnswer_decodes (reads : Reads buf q labels) (address : Address) (ttl : UInt32) :
    decodeMessage (buildAnswer buf q address ttl) = some (q.answered labels address ttl) := by
  unfold buildAnswer Query.answered
  cases withA : q.withA with
  | false =>
    have other : ¬ (q.type = TYPE_A ∧ q.qclass = 1) := by simpa [Query.withA] using withA
    rw [if_neg other]
    exact decode_message reads (decode_answerFlags q.flags) (by decide) rfl
  | true =>
    have asked : q.type = TYPE_A ∧ q.qclass = 1 := by simpa [Query.withA] using withA
    rw [if_pos asked]
    refine decode_message reads (decode_answerFlags q.flags) (by decide) ?_
    -- The record stands behind the question, and its owner points to the name there.
    have stop := reads.stop
    have length : (record address ttl).length = 16 := by simp [record, address.four]
    have behind :=
      ((at_front (record address ttl) []).behind (subarray buf 12 q.questionEnd)).behind
      (header q.id (answerFlags q.flags) 1 1)
    rw [length_header, List.append_nil, Nat.add_zero, reads.question_length] at behind
    have total := behind.length (by simp [record, toBytes])
    rw [length] at total
    have enough := length_wireName labels
    have name :=
      decodeName_wireName reads.fit (reads.question_at q.id (answerFlags q.flags) 1 1 (record address ttl)).left
      (show labels.length < (header q.id (answerFlags q.flags) 1 1 ++
        (subarray buf 12 q.questionEnd ++ record address ttl)).length - 1 by omega)
    have decoded := decodeRecord_at (by omega) behind name
    simp only [decodeSection, if_true, decoded, Option.bind_eq_bind, Option.bind_some, length]

theorem twelve_bytes : ∀ {front : Bytes}, front.length = 12 → ∃ a b c d e f g h i j k l,
    front = [a, b, c, d, e, f, g, h, i, j, k, l]
  | [a, b, c, d, e, f, g, h, i, j, k, l], _ => ⟨a, b, c, d, e, f, g, h, i, j, k, l, rfl⟩

/-- Written over, the first twelve bytes are a header with the identifier that stood there. -/
theorem write_header {out : Bytes} (long : 12 ≤ out.length) (flags questions : Nat) :
    writeUInt16BE
      (writeUInt16BE (writeUInt16BE (writeUInt16BE (writeUInt16BE out flags 2) questions 4) 0 6) 0 8) 0 10 =
      header (readUInt16BE out 0) flags questions 0 ++ out.drop 12 := by
  obtain ⟨front, rest, rfl, twelve⟩ : ∃ front rest, out = front ++ rest ∧ front.length = 12 :=
    ⟨out.take 12, out.drop 12, (List.take_append_drop 12 out).symm, by simp; omega⟩
  obtain ⟨first, second, _, _, _, _, _, _, _, _, _, _, rfl⟩ := twelve_bytes twelve
  have identifier : toBytes 2 (readUInt16BE [first, second] 0) = [first, second] :=
    toBytes_bigEndian [first, second]
  have read : readUInt16BE (first :: second :: rest) 0 = readUInt16BE [first, second] 0 := rfl
  simp [writeUInt16BE, header, toBytes, readUInt16BE] at identifier read ⊢
  exact ⟨identifier.1.symm, identifier.2.symm⟩

theorem buildServfail_some (reads : Reads buf q labels) :
    buildServfail buf (some q) =
      some (header q.id (failureFlags q.flags) 1 0 ++ (subarray buf 12 q.questionEnd ++ [])) := by
  have stop := reads.stop
  have inside := reads.inside
  have length : (subarray buf 0 q.questionEnd).length = q.questionEnd := length_subarray inside
  have long : 12 ≤ (subarray buf 0 q.questionEnd).length := by omega
  have identifier : readUInt16BE (subarray buf 0 q.questionEnd) 0 = q.id := by
    rw [reads.id, readUInt16BE, readUInt16BE, subarray, List.drop_zero, List.drop_zero,
      List.drop_zero, List.take_take]
    congr 2
    omega
  simp only [buildServfail, if_neg (Nat.not_lt.mpr long), Option.map_some, Option.getD_some,
    Option.isSome_some, if_true,
    write_header long, identifier, List.append_nil]
  rfl

theorem buildServfail_none (long : 12 ≤ buf.length) :
    buildServfail buf none = some (header (readUInt16BE buf 0) (failureFlags (readUInt16BE buf 2)) 0 0) := by
  obtain ⟨front, rest, rfl, twelve⟩ : ∃ front rest, buf = front ++ rest ∧ front.length = 12 :=
    ⟨buf.take 12, buf.drop 12, (List.take_append_drop 12 buf).symm, by simp; omega⟩
  have out : subarray (front ++ rest) 0 (min (front ++ rest).length 12) = front := by
    rw [Nat.min_eq_right long, subarray, List.drop_zero, List.take_left' twelve]
  have same (o : Nat) (inside : o + 2 ≤ 12) : readUInt16BE (front ++ rest) o = readUInt16BE front o := by
    rw [readUInt16BE, readUInt16BE, List.drop_append_of_le_length (by omega),
      List.take_append_of_le_length (by simp; omega)]
  have header := @write_header front (by omega) (failureFlags (readUInt16BE front 2)) 0
  rw [List.drop_eq_nil_of_le (by omega), List.append_nil] at header
  simp only [buildServfail, out, twelve, Option.map_none, Option.getD_none, Option.isSome_none,
    same 0 (by omega), same 2 (by omega), ← header]
  rfl

/-- Answers and failures for every query that is read, and failures for every other message with a
header, decode. -/
theorem responses_decode (buf : Bytes) :
    (∀ q, parseQuery buf = some q → ∃ labels, Reads buf q labels ∧
      (∀ address ttl, decodeMessage (buildAnswer buf q address ttl) = some (q.answered labels address ttl) ∧
        subarray (buildAnswer buf q address ttl) 12 q.questionEnd = subarray buf 12 q.questionEnd) ∧
      ∃ out, buildServfail buf (some q) = some out ∧ decodeMessage out = some (q.failed labels) ∧
        subarray out 12 q.questionEnd = subarray buf 12 q.questionEnd) ∧
    (if buf.length < 12 then buildServfail buf none = none
      else ∃ out, buildServfail buf none = some out ∧ decodeMessage out =
        some ⟨readUInt16BE buf 0, ⟨true, 0, false, false, (readUInt16BE buf 2).testBit 8, true, 2⟩,
          [], [], [], []⟩) := by
  constructor
  · intro q parsed
    obtain ⟨labels, reads⟩ := parseQuery_reads parsed
    refine ⟨labels, reads, fun address ttl => ⟨buildAnswer_decodes reads address ttl, ?_⟩, _,
      buildServfail_some reads, ?_, ?_⟩
    · exact subarray_message _ (length_header _ _ _ _) reads.question_length
    · exact decode_message reads (decode_failureFlags q.flags) (by decide) rfl
    · exact subarray_message _ (length_header _ _ _ _) reads.question_length
  · split
    · next short =>
        have length : (subarray buf 0 (min buf.length 12)).length < 12 := by simp [subarray]; omega
        simp [buildServfail, length]
    · next long =>
        refine ⟨_, buildServfail_none (Nat.not_lt.mp long), ?_⟩
        obtain ⟨small, said⟩ := decode_failureFlags (readUInt16BE buf 2)
        obtain ⟨readId, readFlags, readQuestions, readAnswers, readAuthorities, readAdditionals⟩ :=
          header_reads ⟨readUInt16BE_lt buf 0, small, show 0 < 65536 by omega, show 0 < 65536 by omega⟩ []
        simp only [List.append_nil] at readId readFlags readQuestions readAnswers readAuthorities readAdditionals
        simp [decodeMessage, length_header, readId, readFlags, readQuestions, readAnswers,
          readAuthorities, readAdditionals, said,
          decodeSection]

/-- The bytes of an ASCII name. -/
def ascii (name : String) : Bytes := name.toList.map fun c => UInt8.ofNat c.toNat

/-- A query of type A and class IN. -/
def queryFor (labels : List Bytes) : Bytes :=
  [0x12, 0x34, 0x01, 0x00, 0, 1, 0, 0, 0, 0, 0, 0] ++ wireName labels ++ [0, 1, 0, 1]

def appLabels : List Bytes := [ascii "app", ascii "lan"]

def gateway : Address := ⟨[10, 8, 0, 1], rfl⟩

/-- What `parseQuery` reads in the query for `app.lan`. -/
def appQuery : Query := ⟨0x1234, 0x0100, "app.lan".toList, 1, 1, 25⟩

theorem queryFor_read {labels : List Bytes} (fit : LabelsFit labels) :
    readLabels (queryFor labels) 12 = some (labels, 12 + (wireName labels).length) :=
  readLabels_wireName fit ⟨[0, 1, 0, 1], by rw [queryFor, List.append_assoc]; rfl⟩

theorem appLabels_fit : LabelsFit appLabels := by
  unfold LabelsFit
  decide

theorem appQuery_read : parseQuery (queryFor appLabels) = some appQuery := by
  have header : readUInt16BE (queryFor appLabels) 2 &&& 0x8000 = 0 ∧
      readUInt16BE (queryFor appLabels) 4 = 1 := by decide
  simp only [parseQuery, queryFor_read appLabels_fit, header]
  decide

theorem Reads.readLabels_eq (reads : Reads buf q labels) :
    readLabels buf 12 = some (labels, 12 + (wireName labels).length) := by
  have stands : At buf 12 (subarray buf 12 q.questionEnd) := at_subarray reads.inside
  obtain ⟨rest, whole⟩ := stands
  rw [reads.question, List.append_assoc] at whole
  exact readLabels_wireName reads.fit ⟨_, whole⟩

/-- The answer carries the question and one A record for the name that was asked for. -/
theorem responses_decode_app : decodeMessage (buildAnswer (queryFor appLabels) appQuery gateway 60) =
    some ⟨0x1234, ⟨true, 0, true, false, true, true, 0⟩, [⟨appLabels, 1, 1⟩],
      [⟨appLabels, 1, 1, 60, [10, 8, 0, 1]⟩], [], []⟩ := by
  obtain ⟨labels, reads, answer, _⟩ := (responses_decode (queryFor appLabels)).1 appQuery appQuery_read
  have same := reads.readLabels_eq
  rw [queryFor_read appLabels_fit] at same
  obtain rfl : appLabels = labels := (Prod.mk.inj (Option.some.inj same)).1
  exact (answer gateway 60).1

/-- One question behind a header, and no response. -/
structure IsQuery (buf : Bytes) (labels : List Bytes) : Prop where
  asks : (readUInt16BE buf 2).testBit 15 = false
  one : readUInt16BE buf 4 = 1
  fit : LabelsFit labels
  name : At buf 12 (wireName labels)
  question : 12 + (wireName labels).length + 4 ≤ buf.length

/-- The name is an entry, or lies below the suffix of one. -/
def Configured (entries : List (List Char)) (name : List Char) : Prop :=
  name ∈ entries ∨ ∃ front suffix, front ≠ [] ∧ '*' :: '.' :: suffix ∈ entries ∧ name = front ++ '.' :: suffix

/-- The bit of a response is the highest one. -/
theorem and_response (flags : Nat) : flags &&& 0x8000 = 0 ↔ flags.testBit 15 = false := by
  have power (i : Nat) : Nat.testBit 0x8000 i = decide (15 = i) := Nat.testBit_two_pow (n := 15)
  constructor
  · intro zero
    have bit := congrArg (Nat.testBit · 15) zero
    simpa [power] using bit
  · intro clear
    apply Nat.eq_of_testBit_eq
    intro i
    rw [Nat.testBit_and, power, Nat.zero_testBit]
    by_cases same : 15 = i
    · rw [← same, clear, Bool.false_and]
    · rw [decide_eq_false same, Bool.and_false]

theorem parseQuery_name {buf : Bytes} :
    (∃ q, parseQuery buf = some q ∧ q.name = name) ↔ ∃ labels, IsQuery buf labels ∧ dotted labels = name := by
  constructor
  · rintro ⟨q, parsed, rfl⟩
    unfold parseQuery at parsed
    split at parsed
    · cases parsed
    · dsimp only at parsed
      split at parsed
      · cases parsed
      · next asks =>
          simp only [not_or, Decidable.not_not] at asks
          split at parsed
          · cases parsed
          · next labels o read =>
              split at parsed
              · cases parsed
              · next inside =>
                  obtain ⟨fit, stands, rfl⟩ := readLabels_sound read
                  obtain rfl := Option.some.inj parsed
                  exact ⟨labels, ⟨(and_response _).mp asks.1, asks.2, fit, stands, Nat.not_lt.mp inside⟩, rfl⟩
  · rintro ⟨labels, query, rfl⟩
    have long : ¬ buf.length < 12 := by
      have inside := query.question
      omega
    have asks : ¬ (readUInt16BE buf 2 &&& 0x8000 ≠ 0 ∨ readUInt16BE buf 4 ≠ 1) := by
      simp [(and_response _).mpr query.asks, query.one]
    rw [parseQuery, if_neg long]
    dsimp only
    rw [if_neg asks, readLabels_wireName query.fit query.name]
    dsimp only
    rw [if_neg (Nat.not_lt.mpr query.question)]
    exact ⟨_, rfl, rfl⟩

theorem lower_lower (c : Char) : lower (lower c) = lower c := by
  have shifted (n : Nat) (small : n + 32 < 256) : (Char.ofNat (n + 32)).toNat = n + 32 := by
    rw [Char.ofNat, dif_pos (Or.inl (Nat.lt_trans small (by decide)))]
    rfl
  by_cases upper : 0x41 ≤ c.toNat ∧ c.toNat ≤ 0x5a ∨ 0xc0 ≤ c.toNat ∧ c.toNat ≤ 0xde ∧ c.toNat ≠ 0xd7
  · have lowered : lower c = Char.ofNat (c.toNat + 32) := if_pos upper
    rw [lowered, lower, shifted c.toNat (by omega), if_neg (by omega)]
  · have kept : lower c = c := if_neg upper
    rw [kept, kept]

theorem dotted_lower (labels : List Bytes) : (dotted labels).map lower = dotted labels := by
  rw [dotted, List.map_map]
  exact List.map_congr_left fun c _ => lower_lower c

theorem entry_below {n suffix : List Char} :
    (('.' :: suffix).isSuffixOf n && decide (suffix.length + 1 < n.length)) = true ↔
      ∃ front, front ≠ [] ∧ n = front ++ '.' :: suffix := by
  rw [Bool.and_eq_true, decide_eq_true_iff, List.isSuffixOf_iff_suffix]
  constructor
  · rintro ⟨⟨front, rfl⟩, longer⟩
    refine ⟨front, ?_, rfl⟩
    rintro rfl
    simp at longer
  · rintro ⟨front, some, rfl⟩
    have positive := List.length_pos_iff.mpr some
    refine ⟨⟨front, rfl⟩, ?_⟩
    simp only [List.length_append, List.length_cons]
    omega

theorem nameMatches_iff {entries : List (List Char)} :
    nameMatches name entries = true ↔ Configured entries (withoutDot (name.map lower)) := by
  unfold nameMatches Configured
  rw [List.any_eq_true]
  constructor
  · rintro ⟨e, member, found⟩
    split at found
    · next suffix =>
        obtain ⟨front, some, whole⟩ := entry_below.mp found
        exact .inr ⟨front, suffix, some, member, whole⟩
    · rw [beq_iff_eq] at found
      exact .inl (found ▸ member)
  · rintro (member | ⟨front, suffix, some, member, whole⟩)
    · refine ⟨_, member, ?_⟩
      split
      · next suffix _ named =>
          -- An entry `*.suffix` is itself below the suffix.
          rw [named]
          exact entry_below.mpr ⟨['*'], List.cons_ne_nil _ _, rfl⟩
      · exact beq_self_eq_true _
    · exact ⟨_, member, entry_below.mpr ⟨front, some, whole⟩⟩

/-- What is answered without an upstream: a query with one question, for a configured name. -/
theorem local_answer_iff (buf : Bytes) (entries : List (List Char)) (address : Address) :
    (localAnswer buf entries address).isSome ↔
      ∃ labels, IsQuery buf labels ∧ Configured entries (withoutDot (dotted labels)) := by
  have answered : (localAnswer buf entries address).isSome ↔
      ∃ name, (∃ q, parseQuery buf = some q ∧ q.name = name) ∧ nameMatches name entries = true := by
    rw [localAnswer]
    cases parseQuery buf with
    | none => simp
    | some q => cases matched : nameMatches q.name entries <;> simp [matched]
  rw [answered]
  constructor
  · rintro ⟨_, read, matched⟩
    obtain ⟨labels, query, rfl⟩ := parseQuery_name.mp read
    rw [nameMatches_iff, dotted_lower] at matched
    exact ⟨labels, query, matched⟩
  · rintro ⟨labels, query, configured⟩
    rw [← dotted_lower, ← nameMatches_iff] at configured
    exact ⟨dotted labels, parseQuery_name.mpr ⟨labels, query, rfl⟩, configured⟩

theorem isQuery_queryFor {labels others : List Bytes} (fit : LabelsFit labels) :
    IsQuery (queryFor labels) others ↔ others = labels := by
  constructor
  · intro query
    have read := readLabels_wireName query.fit query.name
    rw [queryFor_read fit] at read
    exact (Prod.mk.inj (Option.some.inj read)).1.symm
  · rintro rfl
    have numbers (rest : Bytes) :
        readUInt16BE ([0x12, 0x34, 0x01, 0x00, 0, 1, 0, 0, 0, 0, 0, 0] ++ rest) 2 = 0x0100 ∧
        readUInt16BE ([0x12, 0x34, 0x01, 0x00, 0, 1, 0, 0, 0, 0, 0, 0] ++ rest) 4 = 1 := ⟨rfl, rfl⟩
    rw [queryFor, List.append_assoc]
    exact {
      asks := by rw [(numbers _).1]; rfl
      one := (numbers _).2
      fit := fit
      name := ⟨_, rfl⟩
      question := by simp; omega }

/-- Below `*.lan` in any case is answered; `lan` itself is not, and no response is. -/
theorem local_answer_iff_lan :
    (localAnswer (queryFor [ascii "APP", ascii "lan"]) ["*.lan".toList] gateway).isSome ∧
      ¬ (localAnswer (queryFor [ascii "lan"]) ["*.lan".toList] gateway).isSome ∧
      ¬ (localAnswer (buildAnswer (queryFor appLabels) appQuery gateway 60) ["*.lan".toList] gateway).isSome := by
  refine ⟨?_, ?_, ?_⟩
  · have fit : LabelsFit [ascii "APP", ascii "lan"] := by
      unfold LabelsFit
      decide
    refine (local_answer_iff _ _ _).mpr ⟨_, (isQuery_queryFor fit).mpr rfl, .inr ⟨"app".toList, "lan".toList, ?_⟩⟩
    decide
  · intro answered
    obtain ⟨labels, query, configured⟩ := (local_answer_iff _ _ _).mp answered
    have fit : LabelsFit [ascii "lan"] := by
      unfold LabelsFit
      decide
    obtain rfl := (isQuery_queryFor fit).mp query
    have name : withoutDot (dotted [ascii "lan"]) = "lan".toList := by decide
    rw [name] at configured
    obtain member | ⟨front, suffix, some, member, whole⟩ := configured
    · exact absurd member (by decide)
    · obtain ⟨-, -, rfl⟩ : '*' = '*' ∧ '.' = '.' ∧ suffix = "lan".toList := by simpa using member
      have length := congrArg List.length whole
      have positive := List.length_pos_iff.mpr some
      simp at length
  · intro answered
    obtain ⟨_, query, _⟩ := (local_answer_iff _ _ _).mp answered
    exact absurd query.asks (by decide)

end ProxyPilot.Dns
