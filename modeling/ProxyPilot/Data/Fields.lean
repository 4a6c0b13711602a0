namespace ProxyPilot.Data

variable {α : Type u}

def writeAt (buffer : List α) (offset : Nat) (items : List α) : List α :=
  buffer.take offset ++ items ++ buffer.drop (offset + items.length)

/-- `buf.subarray(start, stop)` and `buf.slice(start, stop)`, which stop at the end of the buffer. -/
def subarray (buffer : List α) (start stop : Nat) : List α := (buffer.take stop).drop start

def field (buffer : List α) (offset width : Nat) : List α := (buffer.drop offset).take width

theorem getElem?_field (buffer : List α) (offset width i : Nat) :
    (field buffer offset width)[i]? = if i < width then buffer[offset + i]? else none := by
  simp [field, List.getElem?_take]

section

variable {buffer items : List α} {offset : Nat} (fits : offset + items.length ≤ buffer.length)
include fits

theorem getElem?_writeAt (i : Nat) :
    (writeAt buffer offset items)[i]? =
      if offset ≤ i ∧ i < offset + items.length then items[i - offset]? else buffer[i]? := by
  have front : (buffer.take offset).length = offset := by simp; omega
  by_cases before : i < offset
  · rw [if_neg (by omega), writeAt, List.append_assoc, List.getElem?_append_left (by omega),
      List.getElem?_take_of_lt before]
  · rw [writeAt, List.append_assoc, List.getElem?_append_right (by omega), front]
    by_cases inside : i < offset + items.length
    · rw [if_pos (by omega), List.getElem?_append_left (by omega)]
    · rw [if_neg (by omega), List.getElem?_append_right (by omega), List.getElem?_drop]
      congr 1
      omega

@[simp] theorem length_writeAt : (writeAt buffer offset items).length = buffer.length := by
  simp [writeAt]
  omega

theorem field_writeAt_apart {other width : Nat}
    (apart : other + width ≤ offset ∨ offset + items.length ≤ other) :
    field (writeAt buffer offset items) other width = field buffer other width := by
  apply List.ext_getElem?
  intro i
  rw [getElem?_field, getElem?_field, getElem?_writeAt fits]
  by_cases inside : i < width
  · rw [if_pos inside, if_pos inside, if_neg (by omega)]
  · rw [if_neg inside, if_neg inside]

theorem field_writeAt {width : Nat} (wide : items.length ≤ width) :
    field (writeAt buffer offset items) offset width =
      items ++ field buffer (offset + items.length) (width - items.length) := by
  apply List.ext_getElem?
  intro i
  rw [getElem?_field, getElem?_writeAt fits]
  by_cases inside : i < items.length
  · rw [if_pos (by omega), if_pos (by omega), List.getElem?_append_left inside, Nat.add_sub_cancel_left]
  · rw [List.getElem?_append_right (by omega), getElem?_field]
    have place : offset + items.length + (i - items.length) = offset + i := by omega
    rw [place]
    by_cases within : i < width
    · rw [if_pos within, if_neg (by omega), if_pos (by omega)]
    · rw [if_neg within, if_neg (by omega)]

/-- A write is gone when as much is written over it. -/
theorem writeAt_writeAt {more : List α} (covered : items.length ≤ more.length)
    (inside : offset + more.length ≤ buffer.length) :
    writeAt (writeAt buffer offset items) offset more = writeAt buffer offset more := by
  apply List.ext_getElem?
  intro i
  rw [getElem?_writeAt (by rwa [length_writeAt fits]), getElem?_writeAt fits, getElem?_writeAt inside]
  by_cases inner : offset ≤ i ∧ i < offset + more.length
  · rw [if_pos inner, if_pos inner]
  · rw [if_neg inner, if_neg inner, if_neg (by omega)]

/-- Two writes side by side are one. -/
theorem writeAt_next {more : List α} (inside : offset + items.length + more.length ≤ buffer.length) :
    writeAt (writeAt buffer offset items) (offset + items.length) more = writeAt buffer offset (items ++ more) := by
  apply List.ext_getElem?
  intro i
  rw [getElem?_writeAt (by rwa [length_writeAt fits]), getElem?_writeAt fits,
    getElem?_writeAt (by rw [List.length_append]; omega), List.length_append, List.getElem?_append]
  by_cases first : i < offset + items.length
  · rw [if_neg (by omega)]
    by_cases before : i < offset
    · rw [if_neg (by omega), if_neg (by omega)]
    · rw [if_pos (by omega), if_pos (by omega), if_pos (by omega)]
  · by_cases second : i < offset + items.length + more.length
    · rw [if_pos (by omega), if_pos (by omega), if_neg (by omega), Nat.sub_add_eq]
    · rw [if_neg (by omega), if_neg (by omega), if_neg (by omega)]

end

variable {offset width : Nat} {buffer : List α} {writes : List (Nat × List α)}

theorem length_field (fits : offset + width ≤ buffer.length) :
    (field buffer offset width).length = width := by
  simp [field]
  omega

/-- Writing what stands there already. -/
theorem writeAt_field (fits : offset + width ≤ buffer.length) :
    writeAt buffer offset (field buffer offset width) = buffer := by
  rw [writeAt, length_field fits, field, ← List.drop_drop, List.append_assoc, List.take_append_drop,
    List.take_append_drop]

/-- A write that stays within a buffer of a length. -/
def Within (length : Nat) (write : Nat × List α) : Prop := write.1 + write.2.length ≤ length

def Apart (offset width : Nat) (write : Nat × List α) : Prop :=
  offset + width ≤ write.1 ∨ write.1 + write.2.length ≤ offset

def writeAll (buffer : List α) (writes : List (Nat × List α)) : List α :=
  writes.foldl (fun buffer write => writeAt buffer write.1 write.2) buffer

theorem length_writeAll
    (within : ∀ write ∈ writes, Within buffer.length write) : (writeAll buffer writes).length = buffer.length := by
  induction writes generalizing buffer with
  | nil => rfl
  | cons write rest ih =>
    have first := length_writeAt (within write List.mem_cons_self)
    rw [writeAll, List.foldl_cons, ← writeAll, ih, first]
    intro other member
    rw [first]
    exact within other (List.mem_cons_of_mem _ member)

theorem field_writeAll_apart
    (within : ∀ write ∈ writes, Within buffer.length write) (apart : ∀ write ∈ writes, Apart offset width write) :
    field (writeAll buffer writes) offset width = field buffer offset width := by
  induction writes generalizing buffer with
  | nil => rfl
  | cons write rest ih =>
    have inside := within write List.mem_cons_self
    rw [writeAll, List.foldl_cons, ← writeAll, ih]
    · exact field_writeAt_apart inside (apart write List.mem_cons_self)
    · intro other member
      rw [length_writeAt inside]
      exact within other (List.mem_cons_of_mem _ member)
    · exact fun other member => apart other (List.mem_cons_of_mem _ member)

/-- The field of the one write that touches it. -/
theorem field_writeAll {buffer items : List α} {before after : List (Nat × List α)}
    (within : ∀ write ∈ before ++ (offset, items) :: after, Within buffer.length write)
    (wide : items.length ≤ width)
    (apart : ∀ write ∈ before ++ after, Apart offset width write) :
    field (writeAll buffer (before ++ (offset, items) :: after)) offset width =
      items ++ field buffer (offset + items.length) (width - items.length) := by
  have first : ∀ write ∈ before, Within buffer.length write := fun write member =>
    within write (List.mem_append_left _ member)
  have one : offset + items.length ≤ (writeAll buffer before).length := by
    rw [length_writeAll first]
    exact within (offset, items) (by simp)
  rw [writeAll, List.foldl_append, List.foldl_cons, ← writeAll, ← writeAll, field_writeAll_apart,
    field_writeAt one wide, field_writeAll_apart first]
  · intro write member
    have far := apart write (List.mem_append_left _ member)
    simp only [Apart] at far ⊢
    omega
  · intro write member
    rw [length_writeAt one, length_writeAll first]
    exact within write (by simp [member])
  · exact fun write member => apart write (List.mem_append_right _ member)

theorem field_writeAll_at {buffer items : List α} (k : Nat)
    (stands : writes[k]? = some (offset, items)) (within : ∀ write ∈ writes, Within buffer.length write)
    (wide : items.length ≤ width) (apart : ∀ write ∈ writes.eraseIdx k, Apart offset width write) :
    field (writeAll buffer writes) offset width =
      items ++ field buffer (offset + items.length) (width - items.length) := by
  obtain ⟨inside, this⟩ := List.getElem?_eq_some_iff.mp stands
  have around : writes = writes.take k ++ (offset, items) :: writes.drop (k + 1) := by
    rw [← this, List.getElem_cons_drop, List.take_append_drop]
  rw [List.eraseIdx_eq_take_drop_succ] at apart
  rw [around] at within ⊢
  exact field_writeAll within wide apart

theorem field_replicate {n offset width : Nat} (item : α) (inside : offset + width ≤ n) :
    field (List.replicate n item) offset width = List.replicate width item := by
  rw [field, List.drop_replicate, List.take_replicate, Nat.min_eq_left (by omega)]

end ProxyPilot.Data
