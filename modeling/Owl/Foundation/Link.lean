import Mathlib.Data.List.Forall2

/-! # A lossy link

Items are put into a link at one end and leave it at the other one, oldest first. An item
that leaves is lost, or the receiver makes something of it. What it has made matches, in
this order, a part of what has been put in (`Conveyed`).
-/

namespace Link

variable {Item Result Other : Type*} {Makes : Result → Item → Prop}

/-- What has been put in is what has left and what is under way, and what has been made
matches a part of what has left. -/
def Conveyed (Makes : Result → Item → Prop) (sent underWay : List Item) (made : List Result) :
    Prop :=
  ∃ gone, sent = gone ++ underWay ∧ made.SublistForall₂ Makes gone

section Conveyed

variable {sent underWay : List Item} {made : List Result} {item : Item}

theorem Conveyed.nil : Conveyed Makes [] [] [] := ⟨[], rfl, .nil⟩

theorem Conveyed.put (conveyed : Conveyed Makes sent underWay made) (items : List Item) :
    Conveyed Makes (sent ++ items) (underWay ++ items) made := by
  obtain ⟨gone, split, matched⟩ := conveyed
  exact ⟨gone, by rw [split, List.append_assoc], matched⟩

/-- Two matches one after the other. -/
theorem sublistForall₂_append {first second : List Result} {front back : List Item}
    (one : first.SublistForall₂ Makes front) (two : second.SublistForall₂ Makes back) :
    (first ++ second).SublistForall₂ Makes (front ++ back) := by
  rw [List.sublistForall₂_iff] at one two ⊢
  obtain ⟨_, each, left⟩ := one
  obtain ⟨_, later, right⟩ := two
  exact ⟨_, List.rel_append each later, left.append right⟩

/-- Of the oldest item one result or none is made. -/
theorem Conveyed.leave (conveyed : Conveyed Makes sent (item :: underWay) made)
    {results : List Result} (matched : results.SublistForall₂ Makes [item]) :
    Conveyed Makes sent underWay (made ++ results) := by
  obtain ⟨gone, split, earlier⟩ := conveyed
  refine ⟨gone ++ [item], ?_, sublistForall₂_append earlier matched⟩
  rw [split, List.append_assoc, List.singleton_append]

theorem Conveyed.lose (conveyed : Conveyed Makes sent (item :: underWay) made) :
    Conveyed Makes sent underWay made := by
  have left := conveyed.leave (.nil : [].SublistForall₂ Makes [item])
  rw [List.append_nil] at left
  exact left

theorem Conveyed.sublistForall₂ (conveyed : Conveyed Makes sent underWay made) :
    made.SublistForall₂ Makes sent := by
  obtain ⟨gone, split, matched⟩ := conveyed
  rw [List.sublistForall₂_iff] at matched ⊢
  obtain ⟨part, each, within⟩ := matched
  exact ⟨part, each, split ▸ within.trans (List.sublist_append_left gone underWay)⟩

end Conveyed

section Match

variable {made : List Result} {sent : List Item}

/-- More items may be passed over. -/
theorem sublistForall₂_sublist {more : List Item} (matched : made.SublistForall₂ Makes sent)
    (within : List.Sublist sent more) : made.SublistForall₂ Makes more := by
  rw [List.sublistForall₂_iff] at matched ⊢
  obtain ⟨part, each, inside⟩ := matched
  exact ⟨part, each, inside.trans within⟩

/-- What holds of all items holds of those that something is made of. -/
theorem sublistForall₂_and {Holds : Item → Prop} (matched : made.SublistForall₂ Makes sent)
    (all : ∀ item ∈ sent, Holds item) :
    made.SublistForall₂ (fun result item => Holds item ∧ Makes result item) sent := by
  induction matched with
  | nil => exact .nil
  | @cons _ item _ _ makes _ ih =>
      exact .cons ⟨all item List.mem_cons_self, makes⟩
        (ih fun other member => all other (List.mem_cons_of_mem item member))
  | @cons_right item _ _ _ ih =>
      exact .cons_right (ih fun other member => all other (List.mem_cons_of_mem item member))

/-- Results that are made of the content of items. -/
theorem sublistForall₂_filterMap {content : Item → Option Other} {Same : Result → Other → Prop}
    (matched : made.SublistForall₂ Makes sent)
    (opens : ∀ result item, Makes result item → ∃ inner, content item = some inner ∧
      Same result inner) : made.SublistForall₂ Same (sent.filterMap content) := by
  induction matched with
  | nil => exact .nil
  | @cons result item _ _ makes _ ih =>
      obtain ⟨inner, shown, same⟩ := opens result item makes
      rw [List.filterMap_cons_some shown]
      exact .cons same ih
  | @cons_right item _ _ _ ih =>
      refine sublistForall₂_sublist ih ?_
      cases shown : content item with
      | none => exact (List.filterMap_cons_none shown).symm ▸ .refl _
      | some inner => exact (List.filterMap_cons_some shown).symm ▸ .cons inner (.refl _)

/-- Results of one kind are made of items of this kind. -/
theorem sublistForall₂_filter {kind : Result → Bool} {sort : Item → Bool}
    (matched : made.SublistForall₂ Makes sent)
    (alike : ∀ result item, Makes result item → kind result = sort item) :
    (made.filter kind).SublistForall₂ Makes (sent.filter sort) := by
  induction matched with
  | nil => exact .nil
  | @cons result item _ _ makes _ ih =>
      rw [List.filter_cons, List.filter_cons, alike result item makes]
      split
      · exact .cons makes ih
      · exact ih
  | @cons_right item _ _ _ ih =>
      rw [List.filter_cons]
      split
      · exact .cons_right ih
      · exact ih

end Match

end Link
