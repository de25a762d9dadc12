import Owl.Daemon.CircularBuffer
import Owl.Foundation.Run

/-! # The ring buffer as a bounded queue

The interface of `circular_buffer.c` and the queue it stands for: a list with a
capacity, oldest entry first. Every operation answers as the queue does and leaves
the queue it leaves (`fifoStep_contents`), so a buffer that has just been made
behaves like the empty queue for any sequence of operations.
-/

namespace Owl

variable {α : Type}

/-- The operations of the interface. -/
inductive RingOp (α : Type) where
  | put (data : α)
  | put2 (data : α)
  | get (peek : Bool)
  | reset
  deriving DecidableEq, Repr

/-- What an operation hands back: nothing, or a status and the entry it returns. -/
inductive RingReply (α : Type) where
  | done
  | status (code : Int) (data : Option α)
  deriving DecidableEq, Repr

/-- An operation on a buffer. -/
def ringStep (cbuf : CircularBuf α) : RingOp α → RingReply α × CircularBuf α
  | .put data => (.done, circularBufPut cbuf data)
  | .put2 data =>
      let (code, next) := circularBufPut2 cbuf data
      (.status code none, next)
  | .get peek =>
      let (code, data, next) := circularBufGet cbuf peek
      (.status code data, next)
  | .reset => (.done, circularBufReset cbuf)

/-- An operation on a queue that holds at most `capacity` entries. -/
def fifoStep (capacity : Nat) (queue : List α) : RingOp α → RingReply α × List α
  | .put data => (.done, (if queue.length = capacity then queue.tail else queue) ++ [data])
  | .put2 data =>
      if queue.length = capacity then (.status (-1) none, queue)
      else (.status 0 none, queue ++ [data])
  | .get peek =>
      match queue with
      | [] => (.status (-1) none, [])
      | oldest :: rest => (.status 0 (some oldest), if peek then oldest :: rest else rest)
  | .reset => (.done, [])

/-! ## One operation -/

theorem full_iff (cbuf : CircularBuf α) :
    cbuf.full = true ↔ cbuf.contents.length = cbuf.max := by
  have room := circularBufSize_lt_iff cbuf
  have most := circularBufSize_le cbuf
  rw [length_contents]
  cases full : cbuf.full with
  | true =>
      rw [full] at room
      refine iff_of_true rfl ?_
      by_contra less
      cases room.mp (Nat.lt_of_le_of_ne most less)
  | false => exact iff_of_false Bool.false_ne_true (Nat.ne_of_lt (room.mpr full))

theorem fifoStep_put (cbuf : CircularBuf α) (data : α) :
    fifoStep cbuf.max cbuf.contents (.put data) = (.done, (circularBufPut cbuf data).contents) := by
  rw [contents_circularBufPut, fifoStep]
  simp only [full_iff]

theorem fifoStep_put2 (cbuf : CircularBuf α) (data : α) :
    fifoStep cbuf.max cbuf.contents (.put2 data) =
      (.status (circularBufPut2 cbuf data).1 none, (circularBufPut2 cbuf data).2.contents) := by
  rw [fifoStep, circularBufPut2, circularBufFull]
  by_cases full : cbuf.full = true
  · rw [if_pos ((full_iff cbuf).mp full), if_pos full]
  · rw [if_neg (mt (full_iff cbuf).mpr full), if_neg full, contents_circularBufPut, if_neg full]

theorem circularBufGet_of_nil {cbuf : CircularBuf α} (queued : cbuf.contents = [])
    (peek : Bool) : circularBufGet cbuf peek = (-1, none, cbuf) := by
  rw [circularBufGet, if_pos ((circularBufEmpty_iff cbuf).mpr queued)]

/-- A peek returns what a get would take off and leaves it there. -/
theorem circularBufGet_peek {cbuf : CircularBuf α} (queued : cbuf.contents ≠ []) :
    circularBufGet cbuf true = (0, (circularBufGet cbuf false).2.1, cbuf) := by
  have notEmpty : ¬circularBufEmpty cbuf = true := mt (circularBufEmpty_iff cbuf).mp queued
  rw [circularBufGet, circularBufGet, if_neg notEmpty, if_neg notEmpty, if_pos rfl]

theorem fifoStep_get (cbuf : CircularBuf α) (peek : Bool) :
    fifoStep cbuf.max cbuf.contents (.get peek) =
      (.status (circularBufGet cbuf peek).1 (circularBufGet cbuf peek).2.1,
        (circularBufGet cbuf peek).2.2.contents) := by
  cases queued : cbuf.contents with
  | nil => rw [circularBufGet_of_nil queued, fifoStep, queued]
  | cons oldest rest =>
      obtain ⟨next, taken, left⟩ := circularBufGet_of_cons queued
      cases peek with
      | false => rw [taken, fifoStep, if_neg Bool.false_ne_true, left]
      | true =>
          have present : cbuf.contents ≠ [] := by
            rw [queued]
            exact List.cons_ne_nil oldest rest
          rw [circularBufGet_peek present, taken, fifoStep, if_pos rfl, queued]

/-- **Every operation is the one of the queue.** -/
theorem fifoStep_contents (cbuf : CircularBuf α) (op : RingOp α) :
    fifoStep cbuf.max cbuf.contents op =
      ((ringStep cbuf op).1, (ringStep cbuf op).2.contents) := by
  cases op with
  | put data => exact fifoStep_put cbuf data
  | put2 data => exact fifoStep_put2 cbuf data
  | get peek => exact fifoStep_get cbuf peek
  | reset =>
      have empty : (circularBufReset cbuf).contents = [] := (circularBufEmpty_iff _).mp rfl
      rw [fifoStep, ringStep, empty]

theorem max_ringStep (cbuf : CircularBuf α) (op : RingOp α) :
    (ringStep cbuf op).2.max = cbuf.max := by
  cases op with
  | put data => exact max_circularBufPut cbuf data
  | put2 data =>
      change (circularBufPut2 cbuf data).2.max = cbuf.max
      unfold circularBufPut2
      split
      · rfl
      · exact max_circularBufPut cbuf data
  | get peek =>
      change (circularBufGet cbuf peek).2.2.max = cbuf.max
      unfold circularBufGet
      split
      · rfl
      · cases peek <;> rfl
  | reset => rfl

/-! ## Sequences of operations -/

/-- **The ring buffer refines a bounded queue**: after any sequence of operations on a
new buffer the replies are those of the queue, and size, emptiness and fullness are
those of the queue reached. -/
theorem circularBuf_refines_fifo (memory : List α) (size : 0 < memory.length)
    (ops : List (RingOp α)) :
    ∃ replies cbuf queue,
      Transition.exec ringStep (circularBufInit memory size) ops = (replies, cbuf) ∧
      Transition.exec (fifoStep memory.length) [] ops = (replies, queue) ∧
      cbuf.contents = queue ∧ queue.length ≤ memory.length ∧
      circularBufCapacity cbuf = memory.length ∧ circularBufSize cbuf = queue.length ∧
      (circularBufEmpty cbuf = true ↔ queue = []) ∧
      (circularBufFull cbuf = true ↔ queue.length = memory.length) := by
  obtain ⟨capacity, carried⟩ : (Transition.exec ringStep (circularBufInit memory size) ops).2.max =
      memory.length ∧ Transition.exec (fifoStep memory.length) _ ops = _ :=
    Transition.exec_simulate CircularBuf.contents (fun cbuf => cbuf.max = memory.length) rfl
      (fun cbuf op capacity =>
        ⟨(max_ringStep cbuf op).trans capacity, capacity ▸ fifoStep_contents cbuf op⟩) ops
  rw [contents_circularBufInit] at carried
  refine ⟨_, _, _, rfl, carried, rfl, ?_, capacity, (length_contents _).symm,
    circularBufEmpty_iff _, ?_⟩
  · rw [length_contents, ← capacity]
    exact circularBufSize_le _
  · rw [← capacity]
    exact full_iff _

theorem circularBuf_refines_fifo_single :
    ∃ replies cbuf queue,
      Transition.exec ringStep (circularBufInit [0] (by decide))
        [.put 1, .put 2, .put2 3, .get false] = (replies, cbuf) ∧
      replies = [.done, .done, .status (-1) none, .status 0 (some 2)] ∧ cbuf.contents = queue ∧
      queue = [] := by
  obtain ⟨replies, cbuf, queue, ran, queued, same, -⟩ :=
    circularBuf_refines_fifo [0] (by decide) [.put 1, .put 2, .put2 3, .get false]
  cases queued
  exact ⟨_, _, _, ran, rfl, same, rfl⟩

end Owl
