import Mathlib.Data.List.Rotate
import Mathlib.Data.Nat.ModEq

/-! # Windows of a ring

A ring is a list whose end is followed by its start. A window is a number of
consecutive cells from a position on. Writing the cell behind a window makes the
window longer at its end, and moving its start on takes its first cell off.
-/

namespace Ring

variable {α : Type*} {cells : List α} {start count : Nat}

/-- The `count` cells of a ring from position `start` on. -/
def window (cells : List α) (start count : Nat) : List α := (cells.rotate start).take count

theorem length_window (fits : count ≤ cells.length) :
    (window cells start count).length = count := by
  rw [window, List.length_take, List.length_rotate, Nat.min_eq_left fits]

theorem getElem?_window {index : Nat} (inside : index < count) (fits : count ≤ cells.length) :
    (window cells start count)[index]? = cells[(index + start) % cells.length]? := by
  rw [window, List.getElem?_take_of_lt inside, List.getElem?_rotate (by omega)]

/-- Different cells of one window have different positions. -/
theorem position_ne {first second length : Nat} (ordered : first < second)
    (inside : second < length) : (first + start) % length ≠ (second + start) % length := by
  intro same
  have equal : Nat.ModEq length first second := Nat.ModEq.add_right_cancel' start same
  rw [Nat.ModEq, Nat.mod_eq_of_lt (by omega), Nat.mod_eq_of_lt inside] at equal
  omega

/-- Writing the cell behind a window appends to it. -/
theorem window_push (room : count < cells.length) (value : α) :
    window (cells.set ((count + start) % cells.length) value) start (count + 1) =
      window cells start count ++ [value] := by
  have behind : (count + start) % cells.length < cells.length :=
    Nat.mod_lt _ (Nat.zero_lt_of_lt room)
  have length : (window cells start count).length = count := length_window (Nat.le_of_lt room)
  apply List.ext_getElem?
  intro index
  rcases Nat.lt_trichotomy index count with before | rfl | after
  · rw [List.getElem?_append_left (by rw [length]; exact before),
      getElem?_window (by omega) (by rw [List.length_set]; omega),
      getElem?_window before (Nat.le_of_lt room), List.length_set,
      List.getElem?_set_ne (position_ne before room).symm]
  · rw [List.getElem?_append_right (by rw [length]), length, Nat.sub_self,
      getElem?_window (by omega) (by rw [List.length_set]; omega), List.length_set,
      List.getElem?_set_self behind]
    rfl
  · rw [List.getElem?_eq_none, List.getElem?_eq_none]
    · rw [List.length_append, length, List.length_singleton]
      omega
    · rw [length_window (by rw [List.length_set]; omega)]
      omega

/-- A window is its first cell and the window behind it. -/
theorem window_pop (fits : count + 1 ≤ cells.length) :
    window cells start (count + 1) =
      (cells[start % cells.length]?).toList ++
        window cells ((start + 1) % cells.length) count := by
  have inside : start % cells.length < cells.length := Nat.mod_lt _ (by omega)
  rw [List.getElem?_eq_getElem inside, Option.toList_some, List.singleton_append]
  apply List.ext_getElem?
  intro index
  cases index with
  | zero =>
      rw [getElem?_window (by omega) fits, Nat.zero_add, List.getElem?_cons_zero,
        List.getElem?_eq_getElem inside]
  | succ index =>
      rw [List.getElem?_cons_succ]
      by_cases within : index < count
      · rw [getElem?_window (by omega) fits, getElem?_window within (by omega),
          Nat.add_mod_mod, Nat.add_right_comm, Nat.add_assoc]
      · rw [List.getElem?_eq_none, List.getElem?_eq_none]
        · rw [length_window (by omega)]
          omega
        · rw [length_window fits]
          omega

end Ring
