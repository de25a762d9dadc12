import Owl.Foundation.Ring

/-! # The ring buffer

The model of `circular_buffer.c`. The buffer holds a queue: the entries of its
ring from `tail` on, as many as `circular_buf_size` says (`CircularBuf.contents`).
A put appends to the queue, and takes the oldest entry off it when the buffer is
full; a get takes the oldest entry off.
-/

namespace Owl

variable {α : Type}

/-- `struct circular_buf`; `max` is the length of the array. -/
structure CircularBuf (α : Type) where
  buffer : List α
  head : Nat
  tail : Nat
  full : Bool
  head_lt : head < buffer.length
  tail_lt : tail < buffer.length
  full_eq : full = true → head = tail

/-- `max` of `struct circular_buf`. -/
def CircularBuf.max (cbuf : CircularBuf α) : Nat := cbuf.buffer.length

theorem CircularBuf.max_pos (cbuf : CircularBuf α) : 0 < cbuf.max :=
  Nat.zero_lt_of_lt cbuf.tail_lt

/-- `advance_pointer`. -/
def advancePointer (cbuf : CircularBuf α) : CircularBuf α :=
  let tail := if cbuf.full then (cbuf.tail + 1) % cbuf.max else cbuf.tail
  let head := (cbuf.head + 1) % cbuf.max
  { cbuf with
    tail := tail
    head := head
    full := head == tail
    head_lt := Nat.mod_lt _ cbuf.max_pos
    tail_lt := by
      dsimp only [tail]
      split
      · exact Nat.mod_lt _ cbuf.max_pos
      · exact cbuf.tail_lt
    full_eq := fun same => beq_iff_eq.mp same }

/-- `retreat_pointer`. -/
def retreatPointer (cbuf : CircularBuf α) : CircularBuf α :=
  { cbuf with
    full := false
    tail := (cbuf.tail + 1) % cbuf.max
    tail_lt := Nat.mod_lt _ cbuf.max_pos
    full_eq := nofun }

/-- `circular_buf_init` of a size that is not zero; `memory` is what the new array held. -/
def circularBufInit (memory : List α) (size : 0 < memory.length) : CircularBuf α where
  buffer := memory
  head := 0
  tail := 0
  full := false
  head_lt := size
  tail_lt := size
  full_eq := nofun

/-- `circular_buf_reset`. -/
def circularBufReset (cbuf : CircularBuf α) : CircularBuf α :=
  { cbuf with
    head := 0
    tail := 0
    full := false
    head_lt := cbuf.max_pos
    tail_lt := cbuf.max_pos
    full_eq := nofun }

/-- `circular_buf_empty`. -/
def circularBufEmpty (cbuf : CircularBuf α) : Bool := !cbuf.full && cbuf.head == cbuf.tail

/-- `circular_buf_full`. -/
def circularBufFull (cbuf : CircularBuf α) : Bool := cbuf.full

/-- `circular_buf_size`. -/
def circularBufSize (cbuf : CircularBuf α) : Nat :=
  if !cbuf.full then
    if cbuf.head ≥ cbuf.tail then cbuf.head - cbuf.tail
    else cbuf.max + cbuf.head - cbuf.tail
  else cbuf.max

/-- `circular_buf_capacity`. -/
def circularBufCapacity (cbuf : CircularBuf α) : Nat := cbuf.max

/-- `circular_buf_put`. -/
def circularBufPut (cbuf : CircularBuf α) (data : α) : CircularBuf α :=
  advancePointer
    { cbuf with
      buffer := cbuf.buffer.set cbuf.head data
      head_lt := by rw [List.length_set]; exact cbuf.head_lt
      tail_lt := by rw [List.length_set]; exact cbuf.tail_lt }

/-- `circular_buf_put2`: the status and the buffer afterwards. -/
def circularBufPut2 (cbuf : CircularBuf α) (data : α) : Int × CircularBuf α :=
  if circularBufFull cbuf then (-1, cbuf) else (0, circularBufPut cbuf data)

/-- `circular_buf_get`: the status, the entry, and the buffer afterwards. -/
def circularBufGet (cbuf : CircularBuf α) (peek : Bool) : Int × Option α × CircularBuf α :=
  if circularBufEmpty cbuf then (-1, none, cbuf)
  else (0, cbuf.buffer[cbuf.tail]?, if peek then cbuf else retreatPointer cbuf)

/-! ## The queue -/

/-- The entries of a buffer, oldest first. -/
def CircularBuf.contents (cbuf : CircularBuf α) : List α :=
  Ring.window cbuf.buffer cbuf.tail (circularBufSize cbuf)

theorem circularBufSize_le (cbuf : CircularBuf α) : circularBufSize cbuf ≤ cbuf.max := by
  have head := cbuf.head_lt
  have tail := cbuf.tail_lt
  unfold circularBufSize CircularBuf.max
  split_ifs <;> omega

theorem circularBufSize_lt_iff (cbuf : CircularBuf α) :
    circularBufSize cbuf < cbuf.max ↔ cbuf.full = false := by
  have head := cbuf.head_lt
  have tail := cbuf.tail_lt
  unfold circularBufSize CircularBuf.max
  cases cbuf.full with
  | true => exact iff_of_false (Nat.lt_irrefl _) Bool.noConfusion
  | false =>
      refine iff_of_true ?_ rfl
      rw [Bool.not_false, if_pos rfl]
      split_ifs <;> omega

/-- The next entry is written behind the queue. -/
theorem head_eq (cbuf : CircularBuf α) :
    cbuf.head = (circularBufSize cbuf + cbuf.tail) % cbuf.max := by
  have head := cbuf.head_lt
  have tail := cbuf.tail_lt
  unfold circularBufSize CircularBuf.max
  split_ifs with free ordered
  · rw [Nat.sub_add_cancel ordered, Nat.mod_eq_of_lt head]
  · rw [Nat.sub_add_cancel (by omega), Nat.add_mod_left, Nat.mod_eq_of_lt head]
  · rw [Bool.not_eq_true, Bool.not_eq_false'] at free
    rw [Nat.add_mod_left, Nat.mod_eq_of_lt tail, cbuf.full_eq free]

@[simp] theorem length_contents (cbuf : CircularBuf α) :
    cbuf.contents.length = circularBufSize cbuf :=
  Ring.length_window (circularBufSize_le cbuf)

theorem circularBufEmpty_iff (cbuf : CircularBuf α) :
    circularBufEmpty cbuf = true ↔ cbuf.contents = [] := by
  have head := cbuf.head_lt
  have tail := cbuf.tail_lt
  rw [← List.length_eq_zero_iff, length_contents]
  unfold circularBufEmpty circularBufSize CircularBuf.max
  cases cbuf.full with
  | true =>
      refine iff_of_false Bool.false_ne_true ?_
      rw [Bool.not_true, if_neg Bool.false_ne_true]
      omega
  | false =>
      rw [Bool.not_false, Bool.true_and, beq_iff_eq, if_pos rfl]
      split_ifs <;> omega

@[simp] theorem contents_circularBufInit (memory : List α) (size : 0 < memory.length) :
    (circularBufInit memory size).contents = [] :=
  (circularBufEmpty_iff _).mp rfl

/-- The size of a buffer is the number that leads from `tail` to `head`. -/
theorem circularBufSize_eq {cbuf : CircularBuf α} {count : Nat} (fits : count ≤ cbuf.max)
    (leads : cbuf.head = (count + cbuf.tail) % cbuf.max)
    (full : cbuf.full = decide (count = cbuf.max)) : circularBufSize cbuf = count := by
  have tail : cbuf.tail < cbuf.max := cbuf.tail_lt
  unfold circularBufSize
  by_cases all : count = cbuf.max
  · rw [full, decide_eq_true all, Bool.not_true, if_neg Bool.false_ne_true, all]
  · rw [full, decide_eq_false all, Bool.not_false, if_pos rfl, leads]
    by_cases wraps : count + cbuf.tail < cbuf.max
    · rw [Nat.mod_eq_of_lt wraps, if_pos (by omega), Nat.add_sub_cancel]
    · rw [Nat.mod_eq_sub_mod (by omega), Nat.mod_eq_of_lt (by omega), if_neg (by omega)]
      omega

@[simp] theorem max_circularBufPut (cbuf : CircularBuf α) (data : α) :
    (circularBufPut cbuf data).max = cbuf.max := List.length_set

theorem head_circularBufPut (cbuf : CircularBuf α) (data : α) :
    (circularBufPut cbuf data).head = (cbuf.head + 1) % cbuf.max := by
  rw [← max_circularBufPut cbuf data]
  rfl

theorem tail_circularBufPut (cbuf : CircularBuf α) (data : α) :
    (circularBufPut cbuf data).tail =
      if cbuf.full then (cbuf.tail + 1) % cbuf.max else cbuf.tail := by
  rw [← max_circularBufPut cbuf data]
  rfl

theorem full_circularBufPut (cbuf : CircularBuf α) (data : α) :
    (circularBufPut cbuf data).full =
      ((circularBufPut cbuf data).head == (circularBufPut cbuf data).tail) := rfl

/-- A put into a buffer with room makes the queue longer. -/
theorem circularBufSize_put_of_room {cbuf : CircularBuf α} (room : cbuf.full = false) (data : α) :
    circularBufSize (circularBufPut cbuf data) = circularBufSize cbuf + 1 := by
  have tail : cbuf.tail < cbuf.max := cbuf.tail_lt
  have fits : circularBufSize cbuf < cbuf.max := (circularBufSize_lt_iff cbuf).mpr room
  have same : (circularBufPut cbuf data).tail = cbuf.tail := by
    rw [tail_circularBufPut, room, if_neg Bool.false_ne_true]
  have leads : (circularBufPut cbuf data).head =
      (circularBufSize cbuf + 1 + cbuf.tail) % cbuf.max := by
    rw [head_circularBufPut, head_eq, Nat.mod_add_mod, Nat.add_right_comm]
  apply circularBufSize_eq
  · rw [max_circularBufPut]
    exact fits
  · rw [max_circularBufPut, same, leads]
  · rw [full_circularBufPut, max_circularBufPut, same, leads, Bool.eq_iff_iff, beq_iff_eq,
      decide_eq_true_iff]
    constructor
    · intro met
      by_contra short
      apply @Ring.position_ne cbuf.tail 0 (circularBufSize cbuf + 1) cbuf.max (Nat.succ_pos _)
        (by omega)
      rw [met, Nat.zero_add, Nat.mod_eq_of_lt tail]
    · intro all
      rw [all, Nat.add_mod_left, Nat.mod_eq_of_lt tail]

/-- A put into a full buffer moves the queue on. -/
theorem circularBufSize_put_of_full {cbuf : CircularBuf α} (full : cbuf.full = true) (data : α) :
    circularBufSize (circularBufPut cbuf data) = cbuf.max := by
  have tail : (circularBufPut cbuf data).tail = (cbuf.tail + 1) % cbuf.max := by
    rw [tail_circularBufPut, full, if_pos rfl]
  have head : (circularBufPut cbuf data).head = (cbuf.tail + 1) % cbuf.max := by
    rw [head_circularBufPut, cbuf.full_eq full]
  apply circularBufSize_eq
  · rw [max_circularBufPut]
  · rw [max_circularBufPut, head, tail, Nat.add_mod_left, Nat.mod_mod]
  · rw [full_circularBufPut, max_circularBufPut, head, tail, beq_self_eq_true, decide_eq_true rfl]

/-- **A put appends to the queue**; in a full buffer the oldest entry is lost. -/
theorem contents_circularBufPut (cbuf : CircularBuf α) (data : α) :
    (circularBufPut cbuf data).contents =
      (if cbuf.full then cbuf.contents.tail else cbuf.contents) ++ [data] := by
  have tail : cbuf.tail < cbuf.max := cbuf.tail_lt
  have written : (circularBufPut cbuf data).buffer = cbuf.buffer.set cbuf.head data := rfl
  unfold CircularBuf.contents
  rw [tail_circularBufPut, written]
  cases full : cbuf.full with
  | false =>
      have fits : circularBufSize cbuf < cbuf.max := (circularBufSize_lt_iff cbuf).mpr full
      rw [circularBufSize_put_of_room full, if_neg Bool.false_ne_true, if_neg Bool.false_ne_true,
        head_eq]
      exact Ring.window_push fits data
  | true =>
      have size : circularBufSize cbuf = cbuf.max := by
        unfold circularBufSize
        rw [full, Bool.not_true, if_neg Bool.false_ne_true]
      obtain ⟨others, most⟩ := Nat.exists_eq_add_one.mpr cbuf.max_pos
      have behind : (others + (cbuf.tail + 1) % cbuf.max) % cbuf.max = cbuf.head := by
        rw [Nat.add_mod_mod, cbuf.full_eq full, Nat.add_left_comm, ← Nat.add_assoc,
          Nat.add_assoc, ← most, Nat.add_mod_right, Nat.mod_eq_of_lt tail]
      have push := @Ring.window_push _ cbuf.buffer ((cbuf.tail + 1) % cbuf.max) others
        (Nat.lt_of_lt_of_eq (Nat.lt_succ_self others) most.symm) data
      have pop := @Ring.window_pop _ cbuf.buffer cbuf.tail others most.symm.le
      have position : (others + (cbuf.tail + 1) % cbuf.max) % cbuf.buffer.length = cbuf.head :=
        behind
      rw [position] at push
      rw [Nat.mod_eq_of_lt cbuf.tail_lt, List.getElem?_eq_getElem cbuf.tail_lt] at pop
      rw [(circularBufSize_put_of_full full data).trans most, size.trans most, if_pos rfl,
        if_pos rfl, push, pop]
      rfl

/-- **A get takes the oldest entry off the queue.** -/
theorem circularBufGet_of_cons {cbuf : CircularBuf α} {oldest : α} {rest : List α}
    (queued : cbuf.contents = oldest :: rest) :
    ∃ next, circularBufGet cbuf false = (0, some oldest, next) ∧ next.contents = rest := by
  have notEmpty : circularBufEmpty cbuf = false := by
    rw [← Bool.not_eq_true, circularBufEmpty_iff, queued]
    exact List.cons_ne_nil oldest rest
  have size : circularBufSize cbuf = rest.length + 1 := by
    rw [← length_contents, queued, List.length_cons]
  have most := circularBufSize_le cbuf
  have pop := @Ring.window_pop _ cbuf.buffer cbuf.tail rest.length (size ▸ most)
  rw [CircularBuf.contents, size, pop, Nat.mod_eq_of_lt cbuf.tail_lt,
    List.getElem?_eq_getElem cbuf.tail_lt] at queued
  obtain ⟨first, behind⟩ := List.cons_eq_cons.mp queued
  have left : circularBufSize (retreatPointer cbuf) = rest.length := by
    apply circularBufSize_eq
    · change rest.length ≤ cbuf.max
      omega
    · change cbuf.head = (rest.length + (cbuf.tail + 1) % cbuf.max) % cbuf.max
      rw [head_eq, size, Nat.add_mod_mod, Nat.add_right_comm, Nat.add_assoc]
    · change false = decide (rest.length = cbuf.max)
      rw [decide_eq_false (by omega)]
  refine ⟨retreatPointer cbuf, ?_, ?_⟩
  · rw [circularBufGet, notEmpty, if_neg Bool.false_ne_true, if_neg Bool.false_ne_true,
      List.getElem?_eq_getElem cbuf.tail_lt, first]
  · rw [CircularBuf.contents, left]
    exact behind

end Owl
