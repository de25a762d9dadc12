import Owl.Hashmap.Basic
import Mathlib.Tactic.Ring

/-! # The table refines a finite map

The invariant of a table: distinct keys, every key within eight slots of its
home, and a size that counts the slots in use (`HashmapMap.Wf`). Under it every
operation acts on the denoted finite map as its name says. A put is followed
through nested rehashes by induction on the fuel: a rehash puts the old entries
one by one into a table that denotes the entries already moved.
-/

namespace Owl

variable {K V : Type}

namespace HashmapMap

theorem slot_eq_some_iff {m : HashmapMap K V} {index : Nat} {entry : K × V} :
    m.slot index = some entry ↔ m.data[index]? = some (some entry) := by
  simp only [slot, Option.join_eq_some_iff]

/-- A slot of the table that is not in use. -/
theorem data_of_slot_none {m : HashmapMap K V} {index : Nat} (inside : index < m.tableSize)
    (free : m.slot index = none) : m.data[index]? = some none := by
  have present : index < m.data.length := inside
  rw [slot, List.getElem?_eq_getElem present, Option.join_some] at free
  rw [List.getElem?_eq_getElem present, free]

theorem lt_tableSize {m : HashmapMap K V} {index : Nat} {entry : Option (K × V)}
    (present : m.data[index]? = some entry) : index < m.tableSize :=
  (List.getElem?_eq_some_iff.mp present).1

variable [DecidableEq K] (hash : K → UInt64)

/-- The table invariant. -/
structure Wf (m : HashmapMap K V) : Prop where
  nonempty : 0 < m.tableSize
  distinct : Slots.Distinct m.data
  windowed : ∀ index key value, m.data[index]? = some (some (key, value)) →
    ∃ step < maxChainLength, index = (hashmapHashInt hash m key + step) % m.tableSize
  size_eq : m.size = (Slots.entries m.data).length

variable {hash}

theorem toMap_eq_some_iff {m : HashmapMap K V} (wf : m.Wf hash) {key : K} {value : V} :
    m.toMap key = some value ↔ ∃ index : Nat, m.data[index]? = some (some (key, value)) :=
  Slots.toMap_eq_some_iff_slot wf.distinct

/-- The number of keys of the denoted map is the size of the table. -/
theorem Wf.ncard_support {m : HashmapMap K V} (wf : m.Wf hash) :
    {key | (m.toMap key).isSome}.ncard = hashmapLength m := by
  rw [hashmapLength, wf.size_eq]
  exact Slots.ncard_support wf.distinct

omit [DecidableEq K] in
/-- An empty table of any positive length. -/
theorem wf_empty (length : Nat) (positive : 0 < length) :
    (⟨List.replicate length none, 0⟩ : HashmapMap K V).Wf hash where
  nonempty := by
    simp only [tableSize, List.length_replicate]
    exact positive
  distinct := by simp only [Slots.Distinct, Slots.entries_replicate_none, List.map_nil,
    List.nodup_nil]
  windowed := by
    intro index key value used
    rw [List.getElem?_replicate] at used
    split at used <;> cases used
  size_eq := by simp only [Slots.entries_replicate_none, List.length_nil]

end HashmapMap

open HashmapMap

variable [DecidableEq K] {hash : K → UInt64}

omit [DecidableEq K] in
theorem hashmapNew_wf : (hashmapNew : HashmapMap K V).Wf hash :=
  wf_empty initialSize (by decide)

@[simp] theorem toMap_hashmapNew (key : K) : (hashmapNew : HashmapMap K V).toMap key = none :=
  Slots.toMap_replicate_none initialSize key

/-! ## Single slots -/

/-- Writing a new key into a free slot of its window. -/
theorem HashmapMap.Wf.insert {m : HashmapMap K V} (wf : m.Wf hash) {index : Nat} {key : K}
    (value : V) (free : m.data[index]? = some none) (fresh : m.toMap key = none)
    (window : ∃ step < maxChainLength,
      index = (hashmapHashInt hash m key + step) % m.tableSize) :
    HashmapMap.Wf hash ⟨m.data.set index (some (key, value)), m.size + 1⟩ where
  nonempty := by
    simp only [tableSize, List.length_set]
    exact wf.nonempty
  distinct := Slots.distinct_set_of_free wf.distinct free value fresh
  windowed := by
    intro other otherKey otherValue used
    simp only [hashmapHashInt, tableSize, List.length_set]
    by_cases same : index = other
    · subst same
      rw [List.getElem?_set_self (lt_tableSize free)] at used
      cases used
      exact window
    · rw [List.getElem?_set_ne same] at used
      exact wf.windowed other otherKey otherValue used
  size_eq := by
    rw [(Slots.entries_set_of_free free (key, value)).length_eq, List.length_cons, wf.size_eq]

omit [DecidableEq K] in
/-- Emptying a slot. -/
theorem HashmapMap.Wf.clear {m : HashmapMap K V} (wf : m.Wf hash) {index : Nat} {key : K}
    {value : V} (used : m.data[index]? = some (some (key, value))) :
    HashmapMap.Wf hash ⟨m.data.set index none, m.size - 1⟩ where
  nonempty := by
    simp only [tableSize, List.length_set]
    exact wf.nonempty
  distinct := wf.distinct.set_none used
  windowed := by
    intro other otherKey otherValue stored
    simp only [hashmapHashInt, tableSize, List.length_set]
    by_cases same : index = other
    · subst same
      rw [List.getElem?_set_self (lt_tableSize used)] at stored
      cases stored
    · rw [List.getElem?_set_ne same] at stored
      exact wf.windowed other otherKey otherValue stored
  size_eq := by
    have counted := (Slots.entries_set_none used).length_eq
    rw [List.length_cons] at counted
    change m.size - 1 = (Slots.entries (m.data.set index none)).length
    rw [wf.size_eq]
    omega

omit [DecidableEq K] in
/-- Overwriting the value of a slot in use. -/
theorem HashmapMap.Wf.store {m : HashmapMap K V} (wf : m.Wf hash) {index : Nat} {key : K}
    {value : V} (used : m.data[index]? = some (some (key, value))) (written : V) :
    HashmapMap.Wf hash ⟨m.data.set index (some (key, written)), m.size⟩ where
  nonempty := by
    simp only [tableSize, List.length_set]
    exact wf.nonempty
  distinct := Slots.distinct_set_of_used wf.distinct used written
  windowed := by
    intro other otherKey otherValue stored
    simp only [hashmapHashInt, tableSize, List.length_set]
    by_cases same : index = other
    · subst same
      rw [List.getElem?_set_self (lt_tableSize used)] at stored
      cases stored
      exact wf.windowed index key value used
    · rw [List.getElem?_set_ne same] at stored
      exact wf.windowed other otherKey otherValue stored
  size_eq := by
    obtain ⟨others, before, after⟩ := Slots.entries_set_of_used used (key, written)
    rw [wf.size_eq, before.length_eq, after.length_eq, List.length_cons, List.length_cons]

/-! ## Probing -/

/-- One step of a probe window is a step of the window that starts one slot later. -/
theorem window_succ (curr step size : Nat) :
    ((curr + 1) % size + step) % size = (curr + (step + 1)) % size := by
  rw [Nat.mod_add_mod, Nat.add_assoc, Nat.add_comm 1 step]

/-- A probe for a place ends in its window, on a free slot or on the key. -/
theorem probeFree_eq_some {m : HashmapMap K V} {key : K} {left curr index : Nat}
    (inside : curr < m.tableSize) (found : probeFree m key left curr = some index) :
    (∃ step < left, index = (curr + step) % m.tableSize) ∧
      ∀ entry, m.slot index = some entry → entry.1 = key := by
  induction left generalizing curr with
  | zero => cases found
  | succ left ih =>
      have here : curr = (curr + 0) % m.tableSize := (Nat.mod_eq_of_lt inside).symm
      rw [probeFree] at found
      split at found
      · rename_i free
        cases found
        refine ⟨⟨0, Nat.succ_pos left, here⟩, ?_⟩
        intro entry used
        rw [free] at used
        cases used
      · rename_i entry used
        split at found
        · rename_i same
          cases found
          refine ⟨⟨0, Nat.succ_pos left, here⟩, ?_⟩
          intro other stored
          rw [used] at stored
          cases stored
          exact same
        · obtain ⟨⟨step, below, place⟩, holds⟩ :=
            ih (Nat.mod_lt _ (Nat.zero_lt_of_lt inside)) found
          refine ⟨⟨step + 1, Nat.succ_lt_succ below, ?_⟩, holds⟩
          rw [place, window_succ]

/-- What a probe for a key finds is an entry of the key. -/
theorem probeKey_eq_some {m : HashmapMap K V} {key : K} {left curr index : Nat}
    (found : probeKey m key left curr = some index) :
    ∃ value, m.data[index]? = some (some (key, value)) := by
  induction left generalizing curr with
  | zero => cases found
  | succ left ih =>
      rw [probeKey] at found
      split at found
      · exact ih found
      · rename_i entry used
        split at found
        · rename_i same
          cases found
          subst same
          exact ⟨entry.2, slot_eq_some_iff.mp used⟩
        · exact ih found

/-- A probe does not pass over a key that its window holds. -/
theorem probeKey_isSome {m : HashmapMap K V} {key : K} {value : V} {left curr step : Nat}
    (inside : curr < m.tableSize) (below : step < left)
    (stored : m.slot ((curr + step) % m.tableSize) = some (key, value)) :
    (probeKey m key left curr).isSome := by
  induction left generalizing curr step with
  | zero => exact absurd below (Nat.not_lt_zero step)
  | succ left ih =>
      have advanced : (curr + 1) % m.tableSize < m.tableSize :=
        Nat.mod_lt _ (Nat.zero_lt_of_lt inside)
      have later : step ≠ 0 → (probeKey m key left ((curr + 1) % m.tableSize)).isSome := by
        intro positive
        obtain ⟨previous, rfl⟩ := Nat.exists_eq_succ_of_ne_zero positive
        apply ih advanced (Nat.lt_of_succ_lt_succ below)
        rw [window_succ]
        exact stored
      by_cases first : step = 0
      · subst first
        rw [Nat.add_zero, Nat.mod_eq_of_lt inside] at stored
        simp only [probeKey, stored, ↓reduceIte, Option.isSome_some]
      · rw [probeKey]
        split
        · exact later first
        · split
          · rfl
          · exact later first

/-- In a well-formed table the lookup loop finds a stored key in its slot. -/
theorem hashmapFind_of_some {m : HashmapMap K V} (wf : m.Wf hash) {key : K} {value : V}
    (stored : m.toMap key = some value) :
    ∃ index, hashmapFind hash m key = some index ∧
      m.data[index]? = some (some (key, value)) := by
  obtain ⟨place, used⟩ := (toMap_eq_some_iff wf).mp stored
  obtain ⟨step, below, same⟩ := wf.windowed place key value used
  have home : hashmapHashInt hash m key < m.tableSize := Nat.mod_lt _ wf.nonempty
  have found : (hashmapFind hash m key).isSome := by
    apply probeKey_isSome home below
    rw [← same]
    exact slot_eq_some_iff.mpr used
  obtain ⟨index, equal⟩ := Option.isSome_iff_exists.mp found
  obtain ⟨other, present⟩ := probeKey_eq_some equal
  cases wf.distinct.index_eq present used
  cases present.symm.trans used
  exact ⟨_, equal, used⟩

/-- In a well-formed table the lookup loop finds nothing for a missing key. -/
theorem hashmapFind_of_none {m : HashmapMap K V} (wf : m.Wf hash) {key : K}
    (missing : m.toMap key = none) : hashmapFind hash m key = none := by
  cases found : hashmapFind hash m key with
  | none => rfl
  | some index =>
      obtain ⟨value, used⟩ := probeKey_eq_some found
      rw [(toMap_eq_some_iff wf).mpr ⟨index, used⟩] at missing
      cases missing

/-! ## Lookups, removals and writes -/

theorem hashmapGet_of_none {m : HashmapMap K V} (wf : m.Wf hash) {key : K}
    (missing : m.toMap key = none) (remove : Bool) :
    hashmapGet hash m key remove = (.missing, none, m) := by
  simp only [hashmapGet, hashmapFind_of_none wf missing]

theorem hashmapGet_of_some {m : HashmapMap K V} (wf : m.Wf hash) {key : K} {value : V}
    (stored : m.toMap key = some value) :
    hashmapGet hash m key false = (.ok, some value, m) := by
  obtain ⟨index, found, used⟩ := hashmapFind_of_some wf stored
  simp only [hashmapGet, found, slot_eq_some_iff.mpr used, Option.map_some, Bool.false_eq_true,
    ↓reduceIte]

/-- A removing lookup of a stored key. -/
theorem hashmapGet_remove {m : HashmapMap K V} (wf : m.Wf hash) {key : K} {value : V}
    (stored : m.toMap key = some value) :
    ∃ rest, hashmapGet hash m key true = (.ok, some value, rest) ∧ rest.Wf hash ∧
      rest.toMap = Function.update m.toMap key none := by
  obtain ⟨index, found, used⟩ := hashmapFind_of_some wf stored
  refine ⟨_, ?_, wf.clear used, Slots.toMap_set_none wf.distinct used⟩
  simp only [hashmapGet, found, slot_eq_some_iff.mpr used, Option.map_some, ↓reduceIte]

/-- A write through the pointer of a stored key. -/
theorem hashmapStore_of_some {m : HashmapMap K V} (wf : m.Wf hash) {key : K} {value : V}
    (stored : m.toMap key = some value) (written : V) :
    (hashmapStore hash m key written).Wf hash ∧
      (hashmapStore hash m key written).toMap = Function.update m.toMap key (some written) := by
  obtain ⟨index, found, used⟩ := hashmapFind_of_some wf stored
  simp only [hashmapStore, found]
  exact ⟨wf.store used written, Slots.toMap_set_of_used wf.distinct used written⟩

/-! ## Puts and rehashes -/

variable (hash) in
/-- What a returned put of a new key has done: it succeeded and the map has the
key, or an allocation failed and the table denotes a part of the old map. -/
structure PutSpec (m : HashmapMap K V) (key : K) (value : V) (status : MapStatus)
    (next : HashmapMap K V) : Prop where
  wf : next.Wf hash
  outcome : status = .ok ∧ next.toMap = Function.update m.toMap key (some value) ∨
    status = .omem ∧ ∀ query found, next.toMap query = some found → m.toMap query = some found

variable (hash) in
/-- A put function that meets its specification on new keys. -/
def PutCorrect (put : HashmapMap K V → K → V → Option (MapStatus × HashmapMap K V)) : Prop :=
  ∀ m key value status next, m.Wf hash → m.toMap key = none →
    put m key value = some (status, next) → PutSpec hash m key value status next

/-- A key that moves from one map to the front of another is found all the same. -/
theorem or_update {left right : K → Option V} {key : K} (outside : left key = none) (value : V)
    (query : K) :
    (left query).or (Function.update right key (some value) query) =
      (Function.update left key (some value) query).or (right query) := by
  by_cases same : query = key
  · subst same
    rw [outside, Function.update_self, Function.update_self, Option.none_or, Option.some_or]
  · rw [Function.update_of_ne same, Function.update_of_ne same]

section Fresh

variable {rest : List (Option (K × V))} {key : K} {value : V} {m middle : HashmapMap K V}
  (distinct : Slots.Distinct (some (key, value) :: rest))
  (fresh : ∀ query, (Slots.toMap (some (key, value) :: rest) query).isSome → m.toMap query = none)

include fresh in
theorem fresh_head : m.toMap key = none := by
  apply fresh key
  rw [Slots.toMap_cons_some, Function.update_self, Option.isSome_some]

include distinct fresh in
/-- The table has none of the other keys once the first one has arrived. -/
theorem fresh_moved (arrived : middle.toMap = Function.update m.toMap key (some value)) :
    ∀ query, (Slots.toMap rest query).isSome → middle.toMap query = none := by
  intro query present
  have outside : Slots.toMap rest key = none :=
    Slots.toMap_eq_none_iff.mpr (List.nodup_cons.mp distinct).1
  have different : query ≠ key := by
    rintro rfl
    rw [outside, Option.isSome_none] at present
    cases present
  rw [arrived, Function.update_of_ne different]
  apply fresh query
  rw [Slots.toMap_cons_some, Function.update_of_ne different]
  exact present

end Fresh

/-- Moving entries into a table that has none of their keys: all arrive, or an
allocation failed and the table denotes a part of the two. -/
theorem rehashEntries_spec
    {put : HashmapMap K V → K → V → Option (MapStatus × HashmapMap K V)}
    (correct : PutCorrect hash put) {rest : List (Option (K × V))} {m next : HashmapMap K V}
    {status : MapStatus} (wf : m.Wf hash) (distinct : Slots.Distinct rest)
    (fresh : ∀ key, (Slots.toMap rest key).isSome → m.toMap key = none)
    (done : rehashEntries put rest m = some (status, next)) :
    next.Wf hash ∧
      (status = .ok ∧ (∀ key, next.toMap key = (Slots.toMap rest key).or (m.toMap key)) ∨
        status = .omem ∧ ∀ key found, next.toMap key = some found →
          Slots.toMap rest key = some found ∨ m.toMap key = some found) := by
  induction rest generalizing m with
  | nil =>
      cases done
      refine ⟨wf, Or.inl ⟨rfl, fun key => ?_⟩⟩
      simp only [Slots.toMap, Slots.entries_nil, List.find?_nil, Option.map_none, Option.none_or]
  | cons slot rest ih =>
      cases slot with
      | none =>
          simp only [Slots.toMap_cons_none] at fresh ⊢
          exact ih wf distinct fresh done
      | some entry =>
          obtain ⟨key, value⟩ := entry
          have split := List.nodup_cons.mp distinct
          have outside : Slots.toMap rest key = none := Slots.toMap_eq_none_iff.mpr split.1
          have new := fresh_head fresh
          rw [Slots.toMap_cons_some]
          rw [rehashEntries] at done
          split at done
          · cases done
          · rename_i first middle moved
            obtain ⟨middleWf, outcome⟩ := correct m key value first middle wf new moved
            rcases outcome with ⟨rfl, arrived⟩ | ⟨rfl, kept⟩
            · simp only [↓reduceIte] at done
              have freshRest := fresh_moved distinct fresh arrived
              obtain ⟨nextWf, final⟩ := ih middleWf split.2 freshRest done
              refine ⟨nextWf, final.imp ?_ ?_⟩
              · rintro ⟨rfl, whole⟩
                refine ⟨rfl, fun query => ?_⟩
                rw [whole query, arrived, or_update outside]
              · rintro ⟨rfl, part⟩
                refine ⟨rfl, fun query found present => ?_⟩
                have origin := part query found present
                rw [arrived] at origin
                by_cases same : query = key
                · subst same
                  rw [outside, Function.update_self] at origin
                  rw [Function.update_self]
                  rcases origin with absurdity | moved
                  · cases absurdity
                  · exact Or.inl moved
                · rw [Function.update_of_ne same] at origin ⊢
                  exact origin
            · simp only [reduceCtorEq, ↓reduceIte, Option.some.injEq, Prod.mk.injEq] at done
              obtain ⟨rfl, rfl⟩ := done
              exact ⟨middleWf, Or.inr ⟨rfl, fun query found present =>
                Or.inr (kept query found present)⟩⟩

/-- A rehash keeps the denoted map, or an allocation failed and a part is left. -/
theorem hashmapRehash_spec {calloc : Nat → Bool}
    {put : HashmapMap K V → K → V → Option (MapStatus × HashmapMap K V)}
    (correct : PutCorrect hash put) {m next : HashmapMap K V} {status : MapStatus}
    (wf : m.Wf hash) (done : hashmapRehash calloc put m = some (status, next)) :
    next.Wf hash ∧ (status = .ok ∧ next.toMap = m.toMap ∨
      status = .omem ∧ ∀ query found, next.toMap query = some found →
        m.toMap query = some found) := by
  rw [hashmapRehash] at done
  split at done
  · have positive : 0 < 2 * m.tableSize := Nat.mul_pos (by decide) wf.nonempty
    have empty (key : K) : HashmapMap.toMap
        (⟨List.replicate (2 * m.tableSize) none, 0⟩ : HashmapMap K V) key = none :=
      Slots.toMap_replicate_none _ key
    obtain ⟨nextWf, outcome⟩ := rehashEntries_spec correct (wf_empty _ positive) wf.distinct
      (fun key _ => empty key) done
    refine ⟨nextWf, outcome.imp ?_ ?_⟩
    · rintro ⟨rfl, whole⟩
      refine ⟨rfl, funext fun key => ?_⟩
      rw [whole key, empty key, Option.or_none]
      rfl
    · rintro ⟨rfl, part⟩
      refine ⟨rfl, fun query found present => ?_⟩
      rcases part query found present with old | absurdity
      · exact old
      · rw [empty query] at absurdity
        cases absurdity
  · cases done
    exact ⟨wf, Or.inr ⟨rfl, fun _ _ present => present⟩⟩

/-- A put that stores its value at once. -/
theorem put_place_spec {m : HashmapMap K V} {key : K} {index : Nat} (value : V)
    (wf : m.Wf hash) (fresh : m.toMap key = none)
    (place : hashmapHash hash m key = some index) :
    PutSpec hash m key value .ok ⟨m.data.set index (some (key, value)), m.size + 1⟩ := by
  rw [hashmapHash] at place
  split at place
  · cases place
  · have home : hashmapHashInt hash m key < m.tableSize := Nat.mod_lt _ wf.nonempty
    obtain ⟨window, holds⟩ := probeFree_eq_some home place
    have inside : index < m.tableSize := by
      obtain ⟨step, _, rfl⟩ := window
      exact Nat.mod_lt _ wf.nonempty
    have unused : m.slot index = none := by
      cases used : m.slot index with
      | none => rfl
      | some entry =>
          have stored : m.toMap key = some entry.2 := (toMap_eq_some_iff wf).mpr
            ⟨index, by rw [← holds entry used]; exact slot_eq_some_iff.mp used⟩
          rw [fresh] at stored
          cases stored
    have free := data_of_slot_none inside unused
    exact ⟨wf.insert value free fresh window,
      Or.inl ⟨rfl, Slots.toMap_set_of_free wf.distinct free value fresh⟩⟩

/-- **A put of a new key inserts it**, whatever rehashes happen on the way. -/
theorem hashmapPut_correct (calloc : Nat → Bool) (fuel : Nat) :
    PutCorrect hash (hashmapPut (V := V) hash calloc fuel) := by
  induction fuel with
  | zero =>
      intro m key value status next _ _ done
      cases done
  | succ fuel ih =>
      intro m key value status next wf fresh done
      rw [hashmapPut] at done
      split at done
      · rename_i index place
        cases done
        exact put_place_spec value wf fresh place
      · split at done
        · cases done
        · rename_i first middle rehashed
          obtain ⟨middleWf, outcome⟩ := hashmapRehash_spec ih wf rehashed
          rcases outcome with ⟨rfl, same⟩ | ⟨rfl, part⟩
          · simp only [reduceCtorEq, ↓reduceIte] at done
            have again := ih middle key value status next middleWf (by rw [same]; exact fresh) done
            exact ⟨again.wf, by rw [← same]; exact again.outcome⟩
          · simp only [↓reduceIte, Option.some.injEq, Prod.mk.injEq] at done
            obtain ⟨rfl, rfl⟩ := done
            exact ⟨middleWf, Or.inr ⟨rfl, part⟩⟩

/-- Without failing allocations a returned put has succeeded. -/
theorem hashmapPut_ok {calloc : Nat → Bool} (allocates : ∀ length, calloc length = true)
    {fuel : Nat} {m next : HashmapMap K V} {key : K} {value : V} {status : MapStatus}
    (done : hashmapPut hash calloc fuel m key value = some (status, next)) : status = .ok := by
  induction fuel generalizing m key value status next with
  | zero => cases done
  | succ fuel ih =>
      have moved : ∀ (rest : List (Option (K × V))) (m next : HashmapMap K V) (status : MapStatus),
          rehashEntries (hashmapPut hash calloc fuel) rest m = some (status, next) →
            status = .ok := by
        intro rest
        induction rest with
        | nil =>
            intro m next status done
            cases done
            rfl
        | cons slot rest step =>
            intro m next status done
            cases slot with
            | none => exact step m next status done
            | some entry =>
                rw [rehashEntries] at done
                split at done
                · cases done
                · rename_i first middle placed
                  cases ih placed
                  exact step middle next status done
      rw [hashmapPut] at done
      split at done
      · cases done
        rfl
      · split at done
        · cases done
        · rename_i first middle rehashed
          rw [hashmapRehash, if_pos (allocates _)] at rehashed
          cases moved _ _ _ _ rehashed
          exact ih done

/-! ## Iterations -/

omit [DecidableEq K] in
theorem hashmapItRemove_wf {m : HashmapMap K V} (wf : m.Wf hash) (it : Int) :
    (hashmapItRemove m it).2.Wf hash := by
  simp only [hashmapItRemove]
  split
  · exact wf
  · split
    · exact wf
    · rename_i used
      cases stored : m.slot it.toNat with
      | none =>
          rw [stored] at used
          exact absurd rfl used
      | some entry => exact wf.clear (slot_eq_some_iff.mp stored)

omit [DecidableEq K] in
theorem iterateFrom_wf {Acc : Type} (body : Acc → K → V → Acc × Bool) {fuel : Nat}
    {m : HashmapMap K V} (wf : m.Wf hash) (it : Int) (acc : Acc) :
    (iterateFrom body fuel m it acc).2.Wf hash := by
  induction fuel generalizing m it acc with
  | zero => exact wf
  | succ fuel ih =>
      rw [iterateFrom]
      split
      · exact wf
      · apply ih
        split
        · exact hashmapItRemove_wf wf _
        · exact wf

section Positions

variable (passed rest : List (Option (K × V))) (size : Nat) (entry : K × V)

omit [DecidableEq K] in
/-- The iterator skips a slot that is not in use. -/
theorem hashmapItNext_skip :
    hashmapItNext ⟨passed ++ none :: rest, size⟩ ((passed.length : Int) - 1) =
      hashmapItNext ⟨passed ++ none :: rest, size⟩ (passed.length : Int) := by
  have start : ((passed.length : Int) - 1 + 1).toNat = passed.length := by omega
  have past : ((passed.length : Int) + 1).toNat = passed.length + 1 := by omega
  simp only [hashmapItNext, start, past, List.drop_left, firstInUse]
  rw [← List.drop_drop, List.drop_left]
  rfl

omit [DecidableEq K] in
/-- The iterator stops at a slot in use. -/
theorem hashmapItNext_found :
    hashmapItNext ⟨passed ++ some entry :: rest, size⟩ ((passed.length : Int) - 1) =
      some (passed.length, entry.1, entry.2) := by
  have start : ((passed.length : Int) - 1 + 1).toNat = passed.length := by omega
  simp only [hashmapItNext, start, List.drop_left, firstInUse]

omit [DecidableEq K] in
/-- The iterator frees the slot at which it stands. -/
theorem hashmapItRemove_current :
    (hashmapItRemove ⟨passed ++ some entry :: rest, size⟩ passed.length).2 =
      ⟨passed ++ none :: rest, size - 1⟩ := by
  have inside : ¬((passed.length : Int) < 0 ∨ (passed.length : Int) ≥
      (passed ++ some entry :: rest).length) := by
    rw [List.length_append, List.length_cons]
    omega
  simp only [hashmapItRemove, HashmapMap.tableSize, inside, ↓reduceIte, HashmapMap.slot,
    Int.toNat_natCast, List.getElem?_append_right (Nat.le_refl _), Nat.sub_self,
    List.getElem?_cons_zero, Option.join_some, Option.isNone_some, Bool.false_eq_true,
    List.set_append_right _ _ (Nat.le_refl _), List.set_cons_zero]

end Positions

omit [DecidableEq K] in
/-- A loop that has passed a part of the table walks over the rest. -/
theorem iterateFrom_eq {Acc : Type} (body : Acc → K → V → Acc × Bool) {fuel : Nat}
    (passed rest : List (Option (K × V))) (size : Nat) (acc : Acc) (enough : rest.length < fuel) :
    ∃ remaining, iterateFrom body fuel ⟨passed ++ rest, size⟩ (passed.length - 1 : Int) acc =
      ((Slots.sweep body rest acc).1, ⟨passed ++ (Slots.sweep body rest acc).2, remaining⟩) := by
  induction rest generalizing passed size acc fuel with
  | nil =>
      obtain ⟨left, rfl⟩ := Nat.exists_eq_succ_of_ne_zero (Nat.ne_of_gt enough)
      refine ⟨size, ?_⟩
      simp only [iterateFrom, hashmapItNext, List.append_nil, Int.sub_add_cancel,
        Int.toNat_natCast, List.drop_length, firstInUse, Slots.sweep]
  | cons slot rest ih =>
      obtain ⟨left, rfl⟩ := Nat.exists_eq_succ_of_ne_zero (Nat.ne_of_gt (Nat.zero_lt_of_lt enough))
      have next (kept : Option (K × V)) :
          ((passed ++ [kept]).length - 1 : Int) = passed.length := by
        rw [List.length_append, List.length_singleton]
        omega
      cases slot with
      | none =>
          obtain ⟨remaining, later⟩ := @ih (left + 1) (passed ++ [none]) size acc
            (Nat.lt_of_succ_lt enough)
          refine ⟨remaining, ?_⟩
          simp only [List.append_assoc, List.singleton_append, next] at later
          rw [Slots.sweep, ← later, iterateFrom, iterateFrom, hashmapItNext_skip]
      | some entry =>
          have kept : ∃ size', (if (body acc entry.1 entry.2).2 then
                (hashmapItRemove ⟨passed ++ some entry :: rest, size⟩ passed.length).2
              else ⟨passed ++ some entry :: rest, size⟩) =
              (⟨passed ++ (if (body acc entry.1 entry.2).2 then none else some entry) :: rest,
                size'⟩ : HashmapMap K V) := by
            split
            · exact ⟨size - 1, hashmapItRemove_current passed rest size entry⟩
            · exact ⟨size, rfl⟩
          obtain ⟨size', shrunk⟩ := kept
          obtain ⟨remaining, later⟩ := @ih left
            (passed ++ [if (body acc entry.1 entry.2).2 then none else some entry]) size'
            (body acc entry.1 entry.2).1 (Nat.lt_of_succ_lt_succ enough)
          refine ⟨remaining, ?_⟩
          rw [iterateFrom, hashmapItNext_found]
          simp only [shrunk, Slots.sweep]
          simp only [List.append_assoc, List.singleton_append, next] at later
          exact later

omit [DecidableEq K] in
/-- A full iteration is a walk over the slots. -/
theorem hashmapIterate_sweep {Acc : Type} (body : Acc → K → V → Acc × Bool) (m : HashmapMap K V)
    (acc : Acc) : ∃ remaining, hashmapIterate body m acc =
      ((Slots.sweep body m.data acc).1, ⟨(Slots.sweep body m.data acc).2, remaining⟩) :=
  iterateFrom_eq body [] m.data m.size acc (Nat.lt_succ_self m.data.length)

omit [DecidableEq K] in
/-- A full iteration walks once over all slots in use. -/
theorem hashmapIterate_eq {Acc : Type} (body : Acc → K → V → Acc × Bool) {m : HashmapMap K V}
    (wf : m.Wf hash) (acc : Acc) :
    (hashmapIterate body m acc).1 = (Slots.sweep body m.data acc).1 ∧
      (hashmapIterate body m acc).2.data = (Slots.sweep body m.data acc).2 ∧
      (hashmapIterate body m acc).2.Wf hash := by
  obtain ⟨remaining, whole⟩ := hashmapIterate_sweep body m acc
  refine ⟨by rw [whole], by rw [whole], ?_⟩
  exact iterateFrom_wf body wf (-1) acc

end Owl
