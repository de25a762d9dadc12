import Mathlib.Data.List.GetD
import Mathlib.Tactic.Common

/-! # Text in a buffer of bounded size

Printing into a buffer writes as much of a text as leaves room for a terminating zero.
A cursor counts the whole text, written or not, so it may pass the end of the buffer.
Printing two texts one behind the other is printing their concatenation, wherever the
end of the buffer falls (`BoundedText.append_append`).
-/

namespace BoundedText

/-- The bytes of a memory. -/
abbrev Memory : Type := Nat → UInt8

/-- The bytes from a position on. -/
def Memory.read (memory : Memory) (start count : Nat) : List UInt8 :=
  (List.range count).map fun i => memory (start + i)

/-- The memory with bytes written from a position on. -/
def Memory.write (memory : Memory) (start : Nat) (bytes : List UInt8) : Memory := fun i =>
  if start ≤ i ∧ i < start + bytes.length then bytes.getD (i - start) 0 else memory i

/-- The memory with a text printed into a buffer of some size. -/
def Memory.print (memory : Memory) (start size : Nat) (text : List UInt8) : Memory :=
  if size = 0 then memory else memory.write start (text.take (size - 1) ++ [0])

variable {memory : Memory} {start : Nat}

theorem write_outside {bytes : List UInt8} {i : Nat}
    (outside : i < start ∨ start + bytes.length ≤ i) : memory.write start bytes i = memory i := by
  unfold Memory.write
  rw [if_neg (by omega)]

theorem read_write (memory : Memory) (start : Nat) (bytes : List UInt8) :
    (memory.write start bytes).read start bytes.length = bytes := by
  apply List.ext_getElem
  · rw [Memory.read, List.length_map, List.length_range]
  · intro i _ inside
    simp only [Memory.read, List.getElem_map, List.getElem_range, Memory.write]
    rw [if_pos (by omega), Nat.add_sub_cancel_left, List.getD_eq_getElem _ _ inside]

/-- A write behind a front overwrites what was written there before. -/
theorem write_write (front : List UInt8) {tail bytes : List UInt8}
    (covered : tail.length ≤ bytes.length) :
    (memory.write start (front ++ tail)).write (start + front.length) bytes =
      memory.write start (front ++ bytes) := by
  funext i
  unfold Memory.write
  rw [List.length_append, List.length_append]
  by_cases before : i < start + front.length
  · rw [if_neg (by omega)]
    by_cases below : i < start
    · rw [if_neg (by omega), if_neg (by omega)]
    · rw [if_pos (by omega), if_pos (by omega), List.getD_append _ _ _ _ (by omega),
        List.getD_append _ _ _ _ (by omega)]
  · by_cases within : i < start + front.length + bytes.length
    · rw [if_pos (by omega), if_pos (by omega), List.getD_append_right _ _ _ _ (by omega)]
      congr 1
      omega
    · rw [if_neg (by omega), if_neg (by omega), if_neg (by omega)]

/-- Printing behind a text that has been printed, in what is left of the buffer. -/
theorem print_print (size : Nat) (front text : List UInt8) :
    (memory.print start size front).print (start + front.length) (size - front.length) text =
      memory.print start size (front ++ text) := by
  unfold Memory.print
  by_cases none : size = 0
  · rw [if_pos none, if_pos none, if_pos (by omega)]
  rw [if_neg none, if_neg none]
  by_cases full : size - front.length = 0
  · rw [if_pos full, List.take_append_of_le_length (by omega)]
  · rw [if_neg full, List.take_of_length_le (by omega : front.length ≤ size - 1),
      write_write front (by rw [List.length_append]; exact Nat.le_add_left _ _),
      List.take_append, List.take_of_length_le (by omega : front.length ≤ size - 1),
      List.append_assoc, Nat.sub_right_comm]

/-- A place in a memory up to which text has been printed. -/
structure Cursor where
  memory : Memory
  cur : Nat

/-- Print a text at the cursor into a buffer that ends at `stop`. -/
def Cursor.append (here : Cursor) (stop : Int) (text : List UInt8) : Cursor :=
  ⟨here.memory.print here.cur (if here.cur < stop then (stop - here.cur).toNat else 0) text,
    here.cur + text.length⟩

/-- **Two texts are printed as one.** -/
theorem append_append (here : Cursor) (stop : Int) (front text : List UInt8) :
    (here.append stop front).append stop text = here.append stop (front ++ text) := by
  have left : (if ((here.cur + front.length : Nat) : Int) < stop then
      (stop - (here.cur + front.length : Nat)).toNat else 0) =
        (if (here.cur : Int) < stop then (stop - here.cur).toNat else 0) - front.length := by
    split <;> split <;> omega
  unfold Cursor.append
  dsimp only
  rw [left, print_print, List.length_append, Nat.add_assoc]

end BoundedText
