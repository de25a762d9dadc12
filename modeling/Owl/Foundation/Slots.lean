import Mathlib.Data.List.Perm.Basic
import Mathlib.Data.Set.Card

/-! # Partial maps stored in a row of slots

A row of optional key-value pairs with pairwise distinct keys denotes a finite
partial map. Filling a free slot, emptying a used one and overwriting a value
are the corresponding updates of the map, wherever in the row they happen; the
number of used slots is the number of keys of the map (`Slots.ncard_support`).
-/

namespace Slots

variable {K V : Type*}

/-- The pairs stored in a row of slots, from first to last. -/
def entries (slots : List (Option (K × V))) : List (K × V) :=
  slots.filterMap id

/-- No key is stored twice. -/
def Distinct (slots : List (Option (K × V))) : Prop :=
  ((entries slots).map Prod.fst).Nodup

/-- The partial map a row of slots denotes. -/
def toMap [DecidableEq K] (slots : List (Option (K × V))) (key : K) : Option V :=
  ((entries slots).find? fun entry => entry.1 = key).map Prod.snd

@[simp] theorem entries_nil : entries ([] : List (Option (K × V))) = [] := rfl

@[simp] theorem entries_cons_none (rest : List (Option (K × V))) :
    entries (none :: rest) = entries rest := rfl

@[simp] theorem entries_cons_some (entry : K × V) (rest : List (Option (K × V))) :
    entries (some entry :: rest) = entry :: entries rest := rfl

@[simp] theorem entries_append (left right : List (Option (K × V))) :
    entries (left ++ right) = entries left ++ entries right :=
  List.filterMap_append

@[simp] theorem entries_replicate_none (count : Nat) :
    entries (List.replicate count (none : Option (K × V))) = [] := by
  simp only [entries, List.filterMap_replicate, id_eq]

theorem mem_entries_iff {slots : List (Option (K × V))} {entry : K × V} :
    entry ∈ entries slots ↔ ∃ index : Nat, slots[index]? = some (some entry) := by
  rw [entries, List.mem_filterMap, ← List.mem_iff_getElem?]
  simp only [id_eq, exists_eq_right]

/-- The row around one of its slots. -/
private theorem split_at {slots : List (Option (K × V))} {index : Nat} {slot : Option (K × V)}
    (present : slots[index]? = some slot) :
    slots = slots.take index ++ slot :: slots.drop (index + 1) := by
  obtain ⟨inside, value⟩ := List.getElem?_eq_some_iff.mp present
  rw [← value, List.cons_getElem_drop_succ, List.take_append_drop]

/-- Writing a pair into a free slot adds it to the stored pairs. -/
theorem entries_set_of_free {slots : List (Option (K × V))} {index : Nat}
    (free : slots[index]? = some none) (entry : K × V) :
    (entries (slots.set index (some entry))).Perm (entry :: entries slots) := by
  have inside := (List.getElem?_eq_some_iff.mp free).1
  rw [List.set_eq_take_append_cons_drop, if_pos inside]
  conv_rhs => rw [split_at free]
  simp only [entries_append, entries_cons_some, entries_cons_none]
  exact List.perm_middle

/-- Emptying a used slot takes its pair out of the stored pairs. -/
theorem entries_set_none {slots : List (Option (K × V))} {index : Nat} {entry : K × V}
    (used : slots[index]? = some (some entry)) :
    (entry :: entries (slots.set index none)).Perm (entries slots) := by
  have inside := (List.getElem?_eq_some_iff.mp used).1
  rw [List.set_eq_take_append_cons_drop, if_pos inside]
  conv_rhs => rw [split_at used]
  simp only [entries_append, entries_cons_some, entries_cons_none]
  exact List.perm_middle.symm

/-- Overwriting a used slot exchanges its pair. -/
theorem entries_set_of_used {slots : List (Option (K × V))} {index : Nat} {entry : K × V}
    (used : slots[index]? = some (some entry)) (written : K × V) :
    ∃ others, (entries slots).Perm (entry :: others) ∧
      (entries (slots.set index (some written))).Perm (written :: others) := by
  refine ⟨entries (slots.set index none), (entries_set_none used).symm, ?_⟩
  have inside := (List.getElem?_eq_some_iff.mp used).1
  have free : (slots.set index none)[index]? = some none := by
    rw [List.getElem?_set_self inside]
  have filled := entries_set_of_free free written
  rwa [List.set_set] at filled

/-- Distinctness only depends on the stored pairs. -/
theorem Distinct.of_perm {left right : List (Option (K × V))} (distinct : Distinct left)
    (perm : (entries right).Perm (entries left)) : Distinct right :=
  (perm.map Prod.fst).nodup_iff.mpr distinct

theorem Distinct.set_none {slots : List (Option (K × V))} (distinct : Distinct slots)
    {index : Nat} {entry : K × V} (used : slots[index]? = some (some entry)) :
    Distinct (slots.set index none) := by
  have all := ((entries_set_none used).map Prod.fst).nodup_iff.mpr distinct
  exact (List.nodup_cons.mp all).2

/-- Two slots with one key are one slot. -/
theorem Distinct.index_eq {slots : List (Option (K × V))} (distinct : Distinct slots)
    {first second : Nat} {key : K} {left right : V}
    (atFirst : slots[first]? = some (some (key, left)))
    (atSecond : slots[second]? = some (some (key, right))) : first = second := by
  by_contra different
  have remaining : (slots.set first none)[second]? = some (some (key, right)) := by
    rw [List.getElem?_set_ne different]
    exact atSecond
  have nodup := ((entries_set_none atFirst).map Prod.fst).nodup_iff.mpr distinct
  exact (List.nodup_cons.mp nodup).1
    (List.mem_map.mpr ⟨_, mem_entries_iff.mpr ⟨second, remaining⟩, rfl⟩)

section Lookup

variable [DecidableEq K]

/-- With distinct keys, the denoted map is membership among the stored pairs. -/
theorem toMap_eq_some_iff {slots : List (Option (K × V))} (distinct : Distinct slots)
    {key : K} {value : V} : toMap slots key = some value ↔ (key, value) ∈ entries slots := by
  unfold Distinct at distinct
  unfold toMap
  generalize entries slots = pairs at distinct
  induction pairs with
  | nil => simp only [List.find?_nil, Option.map_none, reduceCtorEq, List.not_mem_nil]
  | cons pair rest ih =>
      rw [List.map_cons, List.nodup_cons] at distinct
      by_cases same : pair.1 = key
      · have absent : (key, value) ∉ rest := by
          intro member
          apply distinct.1
          rw [same]
          exact List.mem_map.mpr ⟨_, member, rfl⟩
        simp only [List.find?_cons, same, decide_true, Option.map_some, Option.some.injEq,
          List.mem_cons, absent, or_false]
        subst same
        constructor
        · rintro rfl
          rfl
        · intro equal
          rw [← equal]
      · have other : (key, value) ≠ pair := fun equal => same (by rw [← equal])
        simp only [List.find?_cons, same, decide_false, ih distinct.2, List.mem_cons, other,
          false_or]

theorem toMap_eq_some_iff_slot {slots : List (Option (K × V))} (distinct : Distinct slots)
    {key : K} {value : V} :
    toMap slots key = some value ↔ ∃ index : Nat, slots[index]? = some (some (key, value)) := by
  rw [toMap_eq_some_iff distinct, mem_entries_iff]

theorem toMap_eq_none_iff {slots : List (Option (K × V))} {key : K} :
    toMap slots key = none ↔ key ∉ (entries slots).map Prod.fst := by
  simp only [toMap, Option.map_eq_none_iff, List.find?_eq_none, decide_eq_true_eq, List.mem_map,
    not_exists, not_and]

/-- Rows with the same pairs denote the same map. -/
theorem toMap_congr {left right : List (Option (K × V))} (distinct : Distinct left)
    (perm : (entries right).Perm (entries left)) : toMap right = toMap left := by
  funext key
  apply Option.ext
  intro value
  rw [toMap_eq_some_iff distinct, toMap_eq_some_iff (distinct.of_perm perm), perm.mem_iff]

/-- The stored pairs of one key. -/
theorem Distinct.filter_key {slots : List (Option (K × V))} (distinct : Distinct slots)
    (key : K) : (entries slots).filter (fun entry => entry.1 = key) =
      ((entries slots).find? fun entry => entry.1 = key).toList := by
  unfold Distinct at distinct
  generalize entries slots = pairs at distinct
  induction pairs with
  | nil => rfl
  | cons entry rest ih =>
      rw [List.map_cons, List.nodup_cons] at distinct
      by_cases same : entry.1 = key
      · have missing : rest.filter (fun entry => entry.1 = key) = [] := by
          rw [List.filter_eq_nil_iff]
          intro other member clash
          rw [decide_eq_true_eq, ← same] at clash
          exact distinct.1 (List.mem_map.mpr ⟨other, member, clash⟩)
        simp only [same, List.filter_cons, List.find?_cons, decide_true, ↓reduceIte, missing,
          Option.toList_some]
      · simp only [same, List.filter_cons, List.find?_cons, decide_false, Bool.false_eq_true,
          ↓reduceIte, ih distinct.2]

@[simp] theorem toMap_cons_none (rest : List (Option (K × V))) :
    toMap (none :: rest) = toMap rest := rfl

theorem toMap_cons_some (key : K) (value : V) (rest : List (Option (K × V))) :
    toMap (some (key, value) :: rest) = Function.update (toMap rest) key (some value) := by
  funext query
  by_cases same : query = key
  · subst same
    simp only [toMap, entries_cons_some, List.find?_cons, decide_true, Option.map_some,
      Function.update_self]
  · simp only [toMap, entries_cons_some, List.find?_cons, Ne.symm same, decide_false,
      Function.update_of_ne same]

@[simp] theorem toMap_replicate_none (count : Nat) (key : K) :
    toMap (List.replicate count (none : Option (K × V))) key = none := by
  simp only [toMap, entries_replicate_none, List.find?_nil, Option.map_none]

/-- Filling a free slot with a new key. -/
theorem distinct_set_of_free {slots : List (Option (K × V))} (distinct : Distinct slots)
    {index : Nat} (free : slots[index]? = some none) {key : K} (value : V)
    (fresh : toMap slots key = none) : Distinct (slots.set index (some (key, value))) := by
  have all : ((key, value) :: entries slots |>.map Prod.fst).Nodup :=
    List.nodup_cons.mpr ⟨toMap_eq_none_iff.mp fresh, distinct⟩
  exact ((entries_set_of_free free (key, value)).map Prod.fst).nodup_iff.mpr all

theorem toMap_set_of_free {slots : List (Option (K × V))} (distinct : Distinct slots)
    {index : Nat} (free : slots[index]? = some none) {key : K} (value : V)
    (fresh : toMap slots key = none) :
    toMap (slots.set index (some (key, value))) =
      Function.update (toMap slots) key (some value) := by
  have all : Distinct (some (key, value) :: slots) :=
    List.nodup_cons.mpr ⟨toMap_eq_none_iff.mp fresh, distinct⟩
  rw [← toMap_cons_some]
  exact toMap_congr all (entries_set_of_free free (key, value))

/-- Emptying the slot of a key removes the key from the map. -/
theorem toMap_set_none {slots : List (Option (K × V))} (distinct : Distinct slots)
    {index : Nat} {key : K} {value : V} (used : slots[index]? = some (some (key, value))) :
    toMap (slots.set index none) = Function.update (toMap slots) key none := by
  have perm := entries_set_none used
  have all : Distinct (some (key, value) :: slots.set index none) := distinct.of_perm perm
  have whole : toMap slots =
      Function.update (toMap (slots.set index none)) key (some value) := by
    rw [← toMap_cons_some]
    exact toMap_congr all perm.symm
  have gone : toMap (slots.set index none) key = none :=
    toMap_eq_none_iff.mpr (List.nodup_cons.mp all).1
  rw [whole, Function.update_idem, ← gone, Function.update_eq_self]

omit [DecidableEq K] in
/-- Overwriting the value of a key. -/
theorem distinct_set_of_used {slots : List (Option (K × V))} (distinct : Distinct slots)
    {index : Nat} {key : K} {value : V} (used : slots[index]? = some (some (key, value)))
    (written : V) : Distinct (slots.set index (some (key, written))) := by
  obtain ⟨others, before, after⟩ := entries_set_of_used used (key, written)
  have all := (before.map Prod.fst).nodup_iff.mp distinct
  exact (after.map Prod.fst).nodup_iff.mpr all

theorem toMap_set_of_used {slots : List (Option (K × V))} (distinct : Distinct slots)
    {index : Nat} {key : K} {value : V} (used : slots[index]? = some (some (key, value)))
    (written : V) :
    toMap (slots.set index (some (key, written))) =
      Function.update (toMap slots) key (some written) := by
  have inside := (List.getElem?_eq_some_iff.mp used).1
  have free : (slots.set index none)[index]? = some none := by
    rw [List.getElem?_set_self inside]
  have emptied := toMap_set_none distinct used
  have gone : toMap (slots.set index none) key = none := by
    rw [emptied, Function.update_self]
  have filled := toMap_set_of_free (distinct.set_none used) free written gone
  rwa [List.set_set, emptied, Function.update_idem] at filled

/-- With distinct keys, the used slots are as many as the keys of the map. -/
theorem ncard_support {slots : List (Option (K × V))} (distinct : Distinct slots) :
    {key | (toMap slots key).isSome}.ncard = (entries slots).length := by
  have keys : {key | (toMap slots key).isSome} = ↑((entries slots).map Prod.fst).toFinset := by
    ext key
    rw [Finset.mem_coe, List.mem_toFinset, Set.mem_ofPred_eq, Option.isSome_iff_ne_none, ne_eq,
      toMap_eq_none_iff, not_not]
  rw [keys, Set.ncard_coe_finset, List.toFinset_card_of_nodup distinct, List.length_map]

end Lookup

/-! ## Walking over a row

A walk visits the used slots from first to last. Its body updates an
accumulator and decides whether the slot just visited is emptied. -/

section Walk

variable {Acc : Type*} (body : Acc → K → V → Acc × Bool)

/-- The accumulator and the row after a walk. -/
def sweep : List (Option (K × V)) → Acc → Acc × List (Option (K × V))
  | [], acc => (acc, [])
  | none :: rest, acc => ((sweep rest acc).1, none :: (sweep rest acc).2)
  | some (key, value) :: rest, acc =>
      ((sweep rest (body acc key value).1).1,
        (if (body acc key value).2 then none else some (key, value)) ::
          (sweep rest (body acc key value).1).2)

/-- The pairs that a walk over them keeps. -/
def survivors : List (K × V) → Acc → List (K × V)
  | [], _ => []
  | (key, value) :: rest, acc =>
      if (body acc key value).2 then survivors rest (body acc key value).1
      else (key, value) :: survivors rest (body acc key value).1

/-- A walk accumulates over the stored pairs in order. -/
theorem sweep_fst (slots : List (Option (K × V))) (acc : Acc) :
    (sweep body slots acc).1 =
      (entries slots).foldl (fun acc entry => (body acc entry.1 entry.2).1) acc := by
  induction slots generalizing acc with
  | nil => rfl
  | cons slot rest ih =>
      cases slot with
      | none => exact ih acc
      | some entry => exact ih (body acc entry.1 entry.2).1

/-- What a walk leaves stored are the survivors of the stored pairs. -/
theorem entries_sweep (slots : List (Option (K × V))) (acc : Acc) :
    entries (sweep body slots acc).2 = survivors body (entries slots) acc := by
  induction slots generalizing acc with
  | nil => rfl
  | cons slot rest ih =>
      cases slot with
      | none => exact ih acc
      | some entry =>
          simp only [sweep, entries_cons_some, survivors]
          split
          · rw [entries_cons_none, ih]
          · rw [entries_cons_some, ih]

theorem survivors_sublist (pairs : List (K × V)) (acc : Acc) :
    (survivors body pairs acc).Sublist pairs := by
  induction pairs generalizing acc with
  | nil => exact List.Sublist.slnil
  | cons pair rest ih =>
      simp only [survivors]
      split
      · exact (ih _).cons _
      · exact (ih _).cons_cons _

/-- When the decision depends on the pair only, the survivors are a filter. -/
theorem survivors_eq_filter (drop : K → V → Bool)
    (decided : ∀ acc key value, (body acc key value).2 = drop key value)
    (pairs : List (K × V)) (acc : Acc) :
    survivors body pairs acc = pairs.filter fun pair => !drop pair.1 pair.2 := by
  induction pairs generalizing acc with
  | nil => rfl
  | cons pair rest ih =>
      rw [survivors, decided, ih, List.filter_cons]
      cases drop pair.1 pair.2 <;> rfl

theorem Distinct.sweep {slots : List (Option (K × V))} (distinct : Distinct slots) (acc : Acc) :
    Distinct (Slots.sweep body slots acc).2 := by
  unfold Distinct
  rw [entries_sweep]
  exact distinct.sublist ((survivors_sublist body _ acc).map Prod.fst)

/-- A walk that empties the slots chosen by a predicate filters the map. -/
theorem toMap_sweep [DecidableEq K] {slots : List (Option (K × V))} (distinct : Distinct slots)
    (drop : K → V → Bool) (decided : ∀ acc key value, (body acc key value).2 = drop key value)
    (acc : Acc) (key : K) :
    toMap (sweep body slots acc).2 key =
      (toMap slots key).filter fun value => !drop key value := by
  apply Option.ext
  intro value
  rw [toMap_eq_some_iff (distinct.sweep body acc), entries_sweep,
    survivors_eq_filter body drop decided, List.mem_filter, Option.filter_eq_some_iff,
    toMap_eq_some_iff distinct]

end Walk

end Slots
