import Mathlib.Data.List.Basic

/-! # Self-delimiting encodings

An encoding whose items show where they end can be read off the front of a
string in only one way. Every string has a longest front part that is a
concatenation of encodings (`exists_split`), and every other such front part is
a prefix of it (`Split.prefix_of_eq`).
-/

namespace Delimited

variable {Item Symbol : Type*}

/-- The encoding of an item is not empty and shows where it ends. -/
structure SelfDelimiting (encode : Item → List Symbol) : Prop where
  nonempty : ∀ item, encode item ≠ []
  cancel : ∀ {first second rest rest'}, encode first ++ rest = encode second ++ rest' →
    first = second ∧ rest = rest'

/-- A string that starts with an item. -/
def Begins (encode : Item → List Symbol) (symbols : List Symbol) : Prop :=
  ∃ item rest, symbols = encode item ++ rest

/-- The items at the front of a string, and a rest that does not start with one. -/
structure Split (encode : Item → List Symbol) (symbols : List Symbol) (items : List Item)
    (tail : List Symbol) : Prop where
  whole : symbols = items.flatMap encode ++ tail
  complete : ¬Begins encode tail

variable {encode : Item → List Symbol} {symbols tail : List Symbol} {items : List Item}

theorem Split.cons (item : Item) (split : Split encode symbols items tail) :
    Split encode (encode item ++ symbols) (item :: items) tail := by
  refine ⟨?_, split.complete⟩
  rw [split.whole, List.flatMap_cons, List.append_assoc]

variable (delimiting : SelfDelimiting encode)

include delimiting

/-- Every string can be split. -/
theorem exists_split (symbols : List Symbol) : ∃ items tail, Split encode symbols items tail := by
  induction length : symbols.length using Nat.strongRecOn generalizing symbols with
  | ind count ih =>
      by_cases begins : Begins encode symbols
      · obtain ⟨item, rest, rfl⟩ := begins
        have shorter : rest.length < count := by
          have positive := List.length_pos_iff.mpr (delimiting.nonempty item)
          rw [List.length_append] at length
          omega
        obtain ⟨items, tail, split⟩ := ih rest.length shorter rest rfl
        exact ⟨item :: items, tail, split.cons item⟩
      · exact ⟨[], symbols, rfl, begins⟩

/-- The items of a split are the longest sequence of items at the front. -/
theorem Split.prefix_of_eq (split : Split encode symbols items tail) {others : List Item}
    {rest : List Symbol} (front : symbols = others.flatMap encode ++ rest) :
    others <+: items := by
  induction others generalizing symbols items with
  | nil => exact List.nil_prefix
  | cons other others ih =>
      rw [List.flatMap_cons, List.append_assoc] at front
      cases items with
      | nil => exact absurd ⟨other, _, split.whole.symm.trans front⟩ split.complete
      | cons item items =>
          have whole := split.whole
          rw [List.flatMap_cons, List.append_assoc] at whole
          obtain ⟨rfl, same⟩ := delimiting.cancel (front.symm.trans whole)
          exact List.prefix_cons_iff.mpr (Or.inr ⟨others, rfl, ih ⟨same, split.complete⟩ rfl⟩)

/-- A concatenation of encodings is split into its items. -/
theorem Split.eq_of_flatMap (split : Split encode symbols items tail) {others : List Item}
    (whole : symbols = others.flatMap encode) : items = others ∧ tail = [] := by
  have front : symbols = others.flatMap encode ++ [] := by rw [List.append_nil, whole]
  obtain ⟨more, rfl⟩ := split.prefix_of_eq delimiting front
  have rest : more.flatMap encode ++ tail = [] := by
    have same := split.whole.symm.trans front
    rw [List.flatMap_append, List.append_assoc] at same
    exact List.append_cancel_left same
  obtain ⟨none, empty⟩ := List.append_eq_nil_iff.mp rest
  cases more with
  | nil => exact ⟨List.append_nil others, empty⟩
  | cons item more =>
      rw [List.flatMap_cons, List.append_eq_nil_iff] at none
      exact absurd none.1 (delimiting.nonempty item)

end Delimited
