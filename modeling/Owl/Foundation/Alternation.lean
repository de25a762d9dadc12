import Mathlib.Data.List.Basic

/-! # Alternating calls

Calls that open (`true`) and close (`false`) something in turn, beginning with an
opening. A party that reports every change of a flag, and nothing else, makes
alternating calls that are open exactly while the flag is set
(`Alternation.append_change`).
-/

namespace Alternation

/-- Every call at an even position opens and every other one closes. -/
def Alternating (calls : List Bool) : Prop :=
  ∀ index call, calls[index]? = some call → call = decide (index % 2 = 0)

/-- The last opening has not been closed. -/
def Outstanding (calls : List Bool) : Prop := calls.length % 2 = 1

/-- The call that reports a change of a flag. -/
def change (before after : Bool) : List Bool := if before = after then [] else [after]

theorem alternating_nil : Alternating [] := by
  intro index call found
  cases found

theorem not_outstanding_nil : ¬Outstanding [] := Nat.zero_ne_one

theorem Alternating.append_single {calls : List Bool} (alternating : Alternating calls)
    {call : Bool} (turn : call = decide (calls.length % 2 = 0)) :
    Alternating (calls ++ [call]) := by
  intro index found present
  rcases Nat.lt_trichotomy index calls.length with before | here | beyond
  · rw [List.getElem?_append_left before] at present
    exact alternating index found present
  · subst here
    rw [List.getElem?_concat_length] at present
    cases present
    exact turn
  · rw [List.getElem?_eq_none (by rw [List.length_append, List.length_singleton]; omega)] at present
    cases present

/-- Reporting a change keeps the calls alternating and outstanding as the flag says. -/
theorem append_change {calls : List Bool} {before : Bool} (alternating : Alternating calls)
    (outstanding : Outstanding calls ↔ before = true) (after : Bool) :
    Alternating (calls ++ change before after) ∧
      (Outstanding (calls ++ change before after) ↔ after = true) := by
  unfold change
  split
  · rename_i same
    rw [List.append_nil, ← same]
    exact ⟨alternating, outstanding⟩
  · rename_i different
    unfold Outstanding at outstanding ⊢
    rw [List.length_append, List.length_singleton]
    cases before with
    | false =>
        have after_eq : after = true := by
          cases after with
          | false => exact absurd rfl different
          | true => rfl
        have even : calls.length % 2 = 0 := by
          have closed := mt outstanding.mp Bool.false_ne_true
          omega
        subst after_eq
        exact ⟨alternating.append_single (decide_eq_true even).symm,
          iff_of_true (by omega) rfl⟩
    | true =>
        have after_eq : after = false := by
          cases after with
          | false => rfl
          | true => exact absurd rfl different
        have odd := outstanding.mpr rfl
        subst after_eq
        exact ⟨alternating.append_single (decide_eq_false (by omega)).symm,
          iff_of_false (by omega) Bool.false_ne_true⟩

@[simp] theorem change_self (flag : Bool) : change flag flag = [] := if_pos rfl

/-- Two rising changes in a row are one. -/
theorem change_trans {first second third : Bool} (one : first ≤ second) (two : second ≤ third) :
    change first second ++ change second third = change first third := by
  revert first second third
  decide

end Alternation
