import ProxyPilot.Data.BigEndian
import ProxyPilot.Data.Fields

namespace ProxyPilot.Dns

open Data

/-! # DNS over TCP (`vpn/dns.js`)

A client's stream is a sequence of messages, each behind its length in two bytes.  The
handler sees the stream in chunks of any size.
-/

abbrev Bytes := List UInt8

/-- `buf.readUInt16BE`, inside the buffer. -/
def readUInt16BE (buf : Bytes) (offset : Nat) : Nat := bigEndian ((buf.drop offset).take 2)

/-- The first message is complete. -/
def complete (pending : Bytes) : Bool :=
  decide (2 ≤ pending.length) && decide (2 + readUInt16BE pending 0 ≤ pending.length)

variable {pending : Bytes} {stream : Bytes} {offset : Nat} {start stop : Nat} {labels : List Bytes}

theorem complete_iff :
    complete pending = true ↔ 2 ≤ pending.length ∧ 2 + readUInt16BE pending 0 ≤ pending.length := by
  simp [complete]

/-- The `while` loop over the pending bytes: the messages for `respond`, and what stays pending. -/
def drain (pending : Bytes) : List Bytes × Bytes :=
  if complete pending then
    let msg := (pending.drop 2).take (readUInt16BE pending 0)
    let drained := drain (pending.drop (2 + msg.length))
    (msg :: drained.1, drained.2)
  else ([], pending)
termination_by pending.length
decreasing_by
  rename_i isComplete
  have long := (complete_iff.mp isComplete).1
  simp only [List.length_drop]
  omega

/-- A connection: the bytes not handled yet, and the messages handed to `respond` so far. -/
structure Connection where
  pending : Bytes
  responded : List Bytes

def Connection.opened : Connection := ⟨[], []⟩

/-- `sock.on('data', …)`. -/
def Connection.data (connection : Connection) (chunk : Bytes) : Connection :=
  let drained := drain (connection.pending ++ chunk)
  ⟨drained.2, connection.responded ++ drained.1⟩

def received (chunks : List Bytes) : Connection := chunks.foldl Connection.data .opened

/-- A message with its length in front. -/
def frame (msg : Bytes) : Bytes := toBytes 2 msg.length ++ msg

/-- The stream is these messages and an incomplete rest. -/
structure Framed (stream : Bytes) (messages : List Bytes) (rest : Bytes) : Prop where
  whole : stream = messages.flatMap frame ++ rest
  short : ∀ msg ∈ messages, msg.length < 65536
  incomplete : complete rest = false

variable {msg : Bytes} {buf first second : Bytes} {o : Nat}

theorem readUInt16BE_frame (short : msg.length < 65536) (rest : Bytes) :
    readUInt16BE (frame msg ++ rest) 0 = msg.length := by
  have length := length_toBytes 2 msg.length
  rw [readUInt16BE, List.drop_zero, frame, List.append_assoc, List.take_left' length]
  exact bigEndian_toBytes short

theorem complete_frame (short : msg.length < 65536) (rest : Bytes) : complete (frame msg ++ rest) = true := by
  rw [complete_iff, readUInt16BE_frame short]
  simp [frame]

/-- One turn of the loop takes the first message. -/
theorem drain_frame (short : msg.length < 65536) (rest : Bytes) :
    drain (frame msg ++ rest) = (msg :: (drain rest).1, (drain rest).2) := by
  have length := length_toBytes 2 msg.length
  have body : (frame msg ++ rest).drop 2 = msg ++ rest := by
    rw [frame, List.append_assoc, List.drop_left' length]
  have behind : (frame msg ++ rest).drop (2 + msg.length) = rest := by
    rw [← List.drop_drop, body, List.drop_left]
  rw [drain, if_pos (complete_frame short rest), readUInt16BE_frame short, body, List.take_left]
  simp only [behind]

theorem drain_incomplete {rest : Bytes} (incomplete : complete rest = false) : drain rest = ([], rest) := by
  rw [drain, incomplete]
  rfl

/-- The loop finds the messages of the stream. -/
theorem Framed.drain_eq {stream rest : Bytes} {messages : List Bytes} (framed : Framed stream messages rest) :
    drain stream = (messages, rest) := by
  obtain ⟨rfl, short, incomplete⟩ := framed
  induction messages with
  | nil => exact drain_incomplete incomplete
  | cons msg messages ih =>
    obtain ⟨first, later⟩ := List.forall_mem_cons.mp short
    rw [List.flatMap_cons, List.append_assoc, drain_frame first, ih later]

/-- A complete message at the front is a frame. -/
theorem complete_split (isComplete : complete pending = true) :
    ∃ msg, msg.length < 65536 ∧ pending = frame msg ++ pending.drop (2 + msg.length) ∧
      msg = (pending.drop 2).take (readUInt16BE pending 0) := by
  obtain ⟨header, body⟩ := complete_iff.mp isComplete
  have two : (pending.take 2).length = 2 := by simp; omega
  have length : ((pending.drop 2).take (readUInt16BE pending 0)).length = readUInt16BE pending 0 := by
    simp only [List.length_take, List.length_drop]
    omega
  have bound := bigEndian_lt (pending.take 2)
  rw [two] at bound
  refine ⟨_, ?_, ?_, rfl⟩
  · rw [length]
    exact bound
  · have front : toBytes 2 (readUInt16BE pending 0) = pending.take 2 := by
      have back := toBytes_bigEndian (pending.take 2)
      rwa [two] at back
    rw [frame, length, front, ← List.drop_drop, List.append_assoc, List.take_append_drop, List.take_append_drop]

/-- Every stream has its messages, and the loop finds them. -/
theorem framed_drain (pending : Bytes) : Framed pending (drain pending).1 (drain pending).2 := by
  induction length : pending.length using Nat.strongRecOn generalizing pending with
  | _ n ih =>
    cases isComplete : complete pending with
    | false =>
      rw [drain_incomplete isComplete]
      exact { whole := rfl, short := fun msg member => (nomatch member), incomplete := isComplete }
    | true =>
      obtain ⟨msg, short, split, _⟩ := complete_split isComplete
      have header := (complete_iff.mp isComplete).1
      have later := ih _ (by simp only [List.length_drop]; omega) (pending.drop (2 + msg.length)) rfl
      rw [split, drain_frame short]
      refine ⟨?_, List.forall_mem_cons.mpr ⟨short, later.short⟩, later.incomplete⟩
      rw [List.flatMap_cons, List.append_assoc, ← later.whole]

/-- More of the stream completes what was pending. -/
theorem Framed.append {stream rest more later : Bytes} {messages others : List Bytes}
    (framed : Framed stream messages rest)
    (next : Framed (rest ++ more) others later) : Framed (stream ++ more) (messages ++ others) later where
  whole := by rw [framed.whole, List.append_assoc, next.whole, List.flatMap_append, List.append_assoc]
  short := fun msg member => (List.mem_append.mp member).elim (framed.short msg) (next.short msg)
  incomplete := next.incomplete

/-- One data event keeps the account of the stream. -/
theorem Framed.data {connection : Connection} (framed : Framed stream connection.responded connection.pending)
    (chunk : Bytes) : Framed (stream ++ chunk) (connection.data chunk).responded (connection.data chunk).pending :=
  framed.append (framed_drain (connection.pending ++ chunk))

theorem framed_chunks {connection : Connection} (framed : Framed stream connection.responded connection.pending)
    (chunks : List Bytes) :
    Framed (stream ++ chunks.flatten) (chunks.foldl Connection.data connection).responded
      (chunks.foldl Connection.data connection).pending := by
  induction chunks generalizing stream connection with
  | nil => simpa using framed
  | cons chunk chunks ih => simpa using ih (framed.data chunk)

theorem framed_received (chunks : List Bytes) :
    Framed chunks.flatten (received chunks).responded (received chunks).pending := by
  have start : Framed [] Connection.opened.responded Connection.opened.pending :=
    { whole := rfl, short := fun msg member => (nomatch member), incomplete := rfl }
  exact framed_chunks start chunks

/-- However a stream is cut into chunks, `respond` gets its messages in order, and the rest of the
stream is kept. -/
theorem received_messages (chunks : List Bytes) :
    Framed chunks.flatten (received chunks).responded (received chunks).pending ∧
      (∀ messages rest, Framed chunks.flatten messages rest → received chunks = ⟨rest, messages⟩) ∧
      ∀ others : List Bytes, others.flatten = chunks.flatten → received others = received chunks := by
  have unique : ∀ (chunks : List Bytes) messages rest, Framed chunks.flatten messages rest →
      received chunks = ⟨rest, messages⟩ := by
    intro chunks messages rest framed
    have same := framed.drain_eq
    rw [(framed_received chunks).drain_eq] at same
    obtain ⟨responded, pending⟩ := Prod.mk.inj same
    rw [← responded, ← pending]
  refine ⟨framed_received chunks, unique chunks, fun others same => ?_⟩
  have framed := framed_received chunks
  rw [← same] at framed
  exact unique others _ _ framed

def TYPE_A : Nat := 1

structure Query where
  id : Nat
  flags : Nat
  name : List Char
  type : Nat
  qclass : Nat
  questionEnd : Nat
deriving DecidableEq

/-- The loop over the labels of the question, from `o`: the labels, and where it stops. -/
def readLabels (buf : Bytes) (o : Nat) : Option (List Bytes × Nat) :=
  if inside : o < buf.length then
    let len := buf[o].toNat
    if len = 0 then some ([], o + 1)
    else if len &&& 0xc0 ≠ 0 ∨ 63 < len ∨ buf.length < o + 1 + len then none
    else (readLabels buf (o + 1 + len)).map fun (labels, stop) =>
      (subarray buf (o + 1) (o + 1 + len) :: labels, stop)
  else none
termination_by buf.length - o

/-- `buf.toString('latin1')`. -/
def latin1 (bytes : Bytes) : List Char := bytes.map fun byte => Char.ofNat byte.toNat

/-- `toLowerCase`, for the letters of Latin-1. -/
def lower (c : Char) : Char :=
  if 0x41 ≤ c.toNat ∧ c.toNat ≤ 0x5a ∨ 0xc0 ≤ c.toNat ∧ c.toNat ≤ 0xde ∧ c.toNat ≠ 0xd7
    then Char.ofNat (c.toNat + 32) else c

/-- `labels.join('.').toLowerCase()`. -/
def dotted (labels : List Bytes) : List Char := (['.'].intercalate (labels.map latin1)).map lower

def parseQuery (buf : Bytes) : Option Query :=
  if buf.length < 12 then none
  else
    let id := readUInt16BE buf 0
    let flags := readUInt16BE buf 2
    let qd := readUInt16BE buf 4
    if flags &&& 0x8000 ≠ 0 ∨ qd ≠ 1 then none
    else
      match readLabels buf 12 with
      | none => none
      | some (labels, o) =>
        if buf.length < o + 4 then none
        else some {
          id := id
          flags := flags
          name := dotted labels
          type := readUInt16BE buf o
          qclass := readUInt16BE buf (o + 2)
          questionEnd := o + 4 }

/-- An IPv4 address, by its octets. -/
structure Address where
  octets : List UInt8
  four : octets.length = 4

/-- The flags of an answer: QR, AA, RD as in the query, RA. -/
def answerFlags (flags : Nat) : Nat := 0x8000 ||| 0x0400 ||| (flags &&& 0x0100) ||| 0x0080

def header (id flags questions answers : Nat) : Bytes :=
  toBytes 2 id ++ (toBytes 2 flags ++ (toBytes 2 questions ++ (toBytes 2 answers ++ (toBytes 2 0 ++ toBytes 2 0))))

/-- The A record: its owner is the question's name, by a pointer to it. -/
def record (address : Address) (ttl : UInt32) : Bytes :=
  toBytes 2 0xc00c ++
    (toBytes 2 TYPE_A ++ (toBytes 2 1 ++ (toBytes 4 ttl.toNat ++ (toBytes 2 4 ++ address.octets))))

def Query.withA (q : Query) : Bool := q.type == TYPE_A && q.qclass == 1

def buildAnswer (buf : Bytes) (q : Query) (address : Address) (ttl : UInt32) : Bytes :=
  header q.id (answerFlags q.flags) 1 (if q.withA then 1 else 0) ++
    (subarray buf 12 q.questionEnd ++ if q.withA then record address ttl else [])

/-- `buf.writeUInt16BE(value, offset)`. -/
def writeUInt16BE (buf : Bytes) (value offset : Nat) : Bytes :=
  buf.take offset ++ (toBytes 2 value ++ buf.drop (offset + 2))

/-- The flags of a failure: QR, RD as in the query, RA, RCODE 2. -/
def failureFlags (flags : Nat) : Nat := 0x8000 ||| (flags &&& 0x0100) ||| 0x0080 ||| 2

def buildServfail (buf : Bytes) (q : Option Query) : Option Bytes :=
  let out := subarray buf 0 (match q with | some q => q.questionEnd | none => min buf.length 12)
  if out.length < 12 then none
  else
    let flags := (q.map Query.flags).getD (readUInt16BE out 2)
    let out := writeUInt16BE out (failureFlags flags) 2
    let out := writeUInt16BE out (if q.isSome then 1 else 0) 4
    let out := writeUInt16BE out 0 6
    let out := writeUInt16BE out 0 8
    some (writeUInt16BE out 0 10)

/-- A name without the dot at its end. -/
def withoutDot (name : List Char) : List Char := if name.getLast? = some '.' then name.dropLast else name

/-- One entry is the name, or the name is below the entry's `*.suffix`. -/
def nameMatches (name : List Char) (entries : List (List Char)) : Bool :=
  let n := withoutDot (name.map lower)
  entries.any fun e => match e with
    | '*' :: '.' :: suffix => ('.' :: suffix).isSuffixOf n && decide (e.length - 1 < n.length)
    | _ => n == e

def localAnswer (buf : Bytes) (entries : List (List Char)) (address : Address) : Option Bytes :=
  match parseQuery buf with
  | none => none
  | some q => if nameMatches q.name entries then some (buildAnswer buf q address 60) else none

/-- A name on the wire. -/
def wireName (labels : List Bytes) : Bytes := labels.flatMap (fun label => UInt8.ofNat label.length :: label) ++ [0]

/-- A label is not empty and has room for its length. -/
def LabelsFit (labels : List Bytes) : Prop := ∀ label ∈ labels, label ≠ [] ∧ label.length < 64

/-- What stands in the buffer from an offset on. -/
def At (buf : Bytes) (offset : Nat) (bytes : Bytes) : Prop := ∃ rest, buf.drop offset = bytes ++ rest

theorem At.append (front : At buf offset first)
    (back : At buf (offset + first.length) second) : At buf offset (first ++ second) := by
  obtain ⟨rest, whole⟩ := front
  obtain ⟨later, behind⟩ := back
  rw [← List.drop_drop, whole, List.drop_left] at behind
  exact ⟨later, by rw [whole, behind, List.append_assoc]⟩

theorem At.left (stands : At buf o (first ++ second)) : At buf o first := by
  obtain ⟨rest, whole⟩ := stands
  exact ⟨second ++ rest, by rw [whole, List.append_assoc]⟩

theorem At.right (stands : At buf o (first ++ second)) : At buf (o + first.length) second := by
  obtain ⟨rest, whole⟩ := stands
  exact ⟨rest, by rw [← List.drop_drop, whole, List.append_assoc, List.drop_left]⟩

theorem At.subarray_eq {buf bytes : Bytes} (stands : At buf o bytes) :
    subarray buf o (o + bytes.length) = bytes := by
  obtain ⟨rest, whole⟩ := stands
  rw [subarray, List.drop_take, whole, Nat.add_sub_cancel_left, List.take_left]

theorem At.length {buf bytes : Bytes} (stands : At buf offset bytes) (some : bytes ≠ []) :
    offset + bytes.length ≤ buf.length := by
  obtain ⟨rest, whole⟩ := stands
  have length := congrArg List.length whole
  have positive := List.length_pos_iff.mpr some
  simp only [List.length_drop, List.length_append] at length
  omega

theorem at_subarray {buf : Bytes} (inside : stop ≤ buf.length) : At buf start (subarray buf start stop) := by
  refine ⟨buf.drop (max start stop), ?_⟩
  rcases Nat.le_total start stop with below | above
  · rw [Nat.max_eq_right below]
    have split : (buf.take stop ++ buf.drop stop).drop start = (buf.take stop).drop start ++ buf.drop stop :=
      List.drop_append_of_le_length (by simp; omega)
    rwa [List.take_append_drop] at split
  · have empty : subarray buf start stop = [] := by
      apply List.drop_eq_nil_of_le
      simp
      omega
    rw [Nat.max_eq_left above, empty, List.nil_append]

theorem length_subarray {buf : Bytes} (inside : stop ≤ buf.length) :
    (subarray buf start stop).length = stop - start := by
  simp only [subarray, List.length_drop, List.length_take]
  omega

theorem readLabels_sound {buf : Bytes} {o stop : Nat} (read : readLabels buf o = some (labels, stop)) :
    LabelsFit labels ∧ At buf o (wireName labels) ∧ stop = o + (wireName labels).length := by
  induction labels generalizing o with
  | nil =>
    rw [readLabels] at read
    split at read
    · next inside =>
        dsimp only at read
        split at read
        · next zero =>
            obtain rfl : o + 1 = stop := by simpa using read
            have byte : buf[o] = 0 := UInt8.toNat_inj.mp zero
            refine ⟨fun label member => (nomatch member), ⟨buf.drop (o + 1), ?_⟩, rfl⟩
            rw [List.drop_eq_getElem_cons inside, byte]
            rfl
        · split at read <;> simp at read
    · cases read
  | cons label labels ih =>
    rw [readLabels] at read
    split at read
    · next inside =>
        dsimp only at read
        split at read
        · simp at read
        · next some =>
            split at read
            · cases read
            · next fits =>
                simp only [ne_eq, not_or, Decidable.not_not, Nat.not_lt] at fits
                obtain ⟨_, bound, room⟩ := fits
                obtain ⟨later, rfl⟩ : readLabels buf (o + 1 + buf[o].toNat) = .some (labels, stop) ∧
                    subarray buf (o + 1) (o + 1 + buf[o].toNat) = label := by simpa using read
                obtain ⟨fit, stands, rfl⟩ := ih later
                have length : (subarray buf (o + 1) (o + 1 + buf[o].toNat)).length = buf[o].toNat := by
                  rw [length_subarray room]
                  omega
                have byte : UInt8.ofNat (subarray buf (o + 1) (o + 1 + buf[o].toNat)).length = buf[o] := by
                  rw [length]
                  exact UInt8.toNat_inj.mp (by simp)
                have nonempty : subarray buf (o + 1) (o + 1 + buf[o].toNat) ≠ [] := fun empty => by
                  rw [empty] at length
                  exact some length.symm
                have first : At buf o [buf[o]] := ⟨buf.drop (o + 1), by rw [List.drop_eq_getElem_cons inside]; rfl⟩
                refine ⟨List.forall_mem_cons.mpr ⟨⟨nonempty, by omega⟩, fit⟩, ?_, ?_⟩
                · have body := (at_subarray room).append (by rwa [length])
                  have whole := first.append body
                  simpa [wireName, byte] using whole
                · simp only [wireName, List.flatMap_cons, List.length_append, List.length_cons, length]
                  omega
    · cases read

/-- A name that stands in the buffer is read. -/
theorem readLabels_wireName {buf : Bytes} (fit : LabelsFit labels)
    (stands : At buf o (wireName labels)) : readLabels buf o = some (labels, o + (wireName labels).length) := by
  induction labels generalizing o with
  | nil =>
    have inside := stands.length (by simp [wireName])
    obtain ⟨rest, whole⟩ := stands
    have here : o < buf.length := by
      simp [wireName] at inside
      omega
    rw [List.drop_eq_getElem_cons here] at whole
    have byte := (List.cons.inj whole).1
    rw [readLabels, dif_pos here]
    simp [byte, wireName]
  | cons label labels ih =>
    obtain ⟨⟨nonempty, short⟩, fit⟩ := List.forall_mem_cons.mp fit
    have length : (UInt8.ofNat label.length).toNat = label.length := by simp; omega
    have positive := List.length_pos_iff.mpr nonempty
    have body : At buf o ([UInt8.ofNat label.length] ++ (label ++ wireName labels)) := by
      simpa [wireName] using stands
    have inside := body.length (by simp)
    have total : (wireName (label :: labels)).length = 1 + label.length + (wireName labels).length := by
      simp only [wireName, List.flatMap_cons, List.length_append, List.length_cons, List.length_nil]
      omega
    simp only [List.length_append, List.length_singleton] at inside
    obtain ⟨rest, whole⟩ := body
    have here : o < buf.length := by omega
    rw [List.drop_eq_getElem_cons here] at whole
    obtain ⟨byte, behind⟩ := List.cons.inj whole
    have after : At buf (o + 1) (label ++ wireName labels) := ⟨rest, behind⟩
    have low : label.length &&& 0xc0 = 0 := by
      have small : ∀ n < 64, n &&& 0xc0 = 0 := by decide
      exact small _ short
    rw [readLabels, dif_pos here]
    simp only [byte, length]
    rw [if_neg (by omega), if_neg (by omega), ih fit after.right, after.left.subarray_eq, Option.map_some, total]
    congr 2
    omega

end ProxyPilot.Dns
