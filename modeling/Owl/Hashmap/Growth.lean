import Owl.Hashmap.Refinement

/-! # Growing tables

A put that finds no slot moves the entries of the table to an array of twice the
length. As long as every entry finds a slot there at once, the tables that a put
grows through hold all of them (`Grown.spec`), and a failed allocation leaves one
of these tables behind (`Grown.put_omem`). Otherwise an entry on its way asks for
a second array, and is lost if that one cannot be had (`put_crowded`). Puts are thus
safe from failing allocations exactly for roomy tables (`hashmapPut_keeps_iff`).

When the hashes are distinct modulo a multiple of the length, the growth stops
there at the latest (`hashmapPut_settles`), since then every entry gets its home
slot.
-/

namespace Owl

open HashmapMap

variable {K V : Type} [DecidableEq K] {hash : K → UInt64}

/-! ## Moving without further growth -/

variable (hash) in
/-- A put that does not grow the table. -/
def hashmapPlace (m : HashmapMap K V) (key : K) (value : V) :
    Option (MapStatus × HashmapMap K V) :=
  (hashmapHash hash m key).map fun index =>
    (.ok, ⟨m.data.set index (some (key, value)), m.size + 1⟩)

variable (hash) in
/-- The entries of a table placed in an array of twice the length, in the order of
their slots; `none` if one of them finds no slot. -/
def doubled (m : HashmapMap K V) : Option (HashmapMap K V) :=
  (rehashEntries (hashmapPlace hash) m.data
    ⟨List.replicate (2 * m.tableSize) none, 0⟩).map Prod.snd

variable (hash) in
/-- The tables that a put of a key grows through while every entry finds a slot. -/
inductive Grown (key : K) (m : HashmapMap K V) : HashmapMap K V → Prop
  | refl : Grown key m m
  | grow {table next : HashmapMap K V} (before : Grown key m table)
      (full : hashmapHash hash table key = none) (moved : doubled hash table = some next) :
      Grown key m next

variable (hash) in
/-- Every entry finds a slot in each array that a put of the key asks for. -/
def Roomy (key : K) (m : HashmapMap K V) : Prop :=
  ∀ table, Grown hash key m table → hashmapHash hash table key = none →
    (doubled hash table).isSome

theorem hashmapPlace_eq_some {m next : HashmapMap K V} {key : K} {value : V}
    {status : MapStatus} (placed : hashmapPlace hash m key value = some (status, next)) :
    ∃ index, hashmapHash hash m key = some index ∧ status = .ok ∧
      next = ⟨m.data.set index (some (key, value)), m.size + 1⟩ := by
  obtain ⟨index, place, same⟩ := Option.map_eq_some_iff.mp placed
  cases same
  exact ⟨index, place, rfl, rfl⟩

theorem hashmapPlace_correct : PutCorrect hash (hashmapPlace (V := V) hash) := by
  intro m key value status next wf fresh placed
  obtain ⟨index, place, rfl, rfl⟩ := hashmapPlace_eq_some placed
  exact put_place_spec value wf fresh place

/-- A put is the one without growth wherever that finds a slot. -/
theorem hashmapPut_of_place {calloc : Nat → Bool} {fuel : Nat} {m next : HashmapMap K V} {key : K}
    {value : V} {status : MapStatus}
    (placed : hashmapPlace hash m key value = some (status, next)) :
    hashmapPut hash calloc (fuel + 1) m key value = some (.ok, next) := by
  obtain ⟨index, place, rfl, rfl⟩ := hashmapPlace_eq_some placed
  rw [hashmapPut, place]

/-- Entries that all find a slot are moved as by puts without growth. -/
theorem rehashEntries_of_place {calloc : Nat → Bool} {fuel : Nat} {rest : List (Option (K × V))}
    {m next : HashmapMap K V} {status : MapStatus}
    (placed : rehashEntries (hashmapPlace hash) rest m = some (status, next)) :
    rehashEntries (hashmapPut hash calloc (fuel + 1)) rest m = some (.ok, next) ∧
      status = .ok ∧ next.tableSize = m.tableSize := by
  induction rest generalizing m with
  | nil =>
      cases placed
      exact ⟨rfl, rfl, rfl⟩
  | cons slot rest ih =>
      cases slot with
      | none => exact ih placed
      | some entry =>
          obtain ⟨key, value⟩ := entry
          rw [rehashEntries] at placed ⊢
          cases first : hashmapPlace hash m key value with
          | none =>
              rw [first] at placed
              cases placed
          | some result =>
              obtain ⟨status', middle⟩ := result
              obtain ⟨index, _, rfl, rfl⟩ := hashmapPlace_eq_some first
              rw [first] at placed
              rw [hashmapPut_of_place first]
              obtain ⟨moved, succeeded, length⟩ := ih placed
              exact ⟨moved, succeeded, length.trans List.length_set⟩

/-- What moving without further growth does. -/
theorem doubled_eq_some {m next : HashmapMap K V} (moved : doubled hash m = some next) :
    next.tableSize = 2 * m.tableSize ∧
      rehashEntries (hashmapPlace hash) m.data ⟨List.replicate (2 * m.tableSize) none, 0⟩ =
        some (.ok, next) := by
  obtain ⟨⟨status, table⟩, placed, rfl⟩ := Option.map_eq_some_iff.mp moved
  obtain ⟨_, rfl, length⟩ := @rehashEntries_of_place K V _ hash (fun _ => true) 0 _ _ _ _ placed
  exact ⟨length.trans List.length_replicate, placed⟩

/-- A rehash that needs no further growth. -/
theorem hashmapRehash_of_doubled {calloc : Nat → Bool} {fuel : Nat} {m next : HashmapMap K V}
    (moved : doubled hash m = some next) (allocated : calloc (2 * m.tableSize) = true) :
    hashmapRehash calloc (hashmapPut hash calloc (fuel + 1)) m = some (.ok, next) := by
  rw [hashmapRehash, if_pos allocated]
  exact (rehashEntries_of_place (doubled_eq_some moved).2).1

/-- The tables that a put grows through denote the same map. -/
theorem Grown.spec {key : K} {m table : HashmapMap K V} (grown : Grown hash key m table)
    (wf : m.Wf hash) : table.Wf hash ∧ table.toMap = m.toMap := by
  induction grown with
  | refl => exact ⟨wf, rfl⟩
  | @grow table next _ _ moved ih =>
      obtain ⟨tableWf, same⟩ := ih
      have rehashed : hashmapRehash (fun _ => true) (hashmapPlace hash) table =
          some (.ok, next) := (if_pos rfl).trans (doubled_eq_some moved).2
      obtain ⟨nextWf, ⟨_, kept⟩ | ⟨failed, _⟩⟩ :=
        hashmapRehash_spec hashmapPlace_correct tableWf rehashed
      · exact ⟨nextWf, kept.trans same⟩
      · cases failed

/-! ## Failed allocations -/

variable {calloc : Nat → Bool} {key : K} {value : V} {m : HashmapMap K V}

/-- Puts that are not followed at all fail at nothing. -/
theorem rehashEntries_zero {rest : List (Option (K × V))} {m next : HashmapMap K V}
    {status : MapStatus}
    (done : rehashEntries (hashmapPut hash calloc 0) rest m = some (status, next)) :
    status = .ok := by
  induction rest with
  | nil =>
      cases done
      rfl
  | cons slot rest ih =>
      cases slot with
      | none => exact ih done
      | some entry => cases done

/-- A failed allocation leaves one of the tables that the put grew through, if
every entry found a slot in each of them. -/
theorem Grown.put_omem (roomy : Roomy hash key m) {fuel : Nat} {table next : HashmapMap K V}
    (grown : Grown hash key m table)
    (failed : hashmapPut hash calloc fuel table key value = some (.omem, next)) :
    Grown hash key m next := by
  induction fuel generalizing table with
  | zero => cases failed
  | succ fuel ih =>
      rw [hashmapPut] at failed
      cases full : hashmapHash hash table key with
      | some index =>
          rw [full] at failed
          cases failed
      | none =>
          obtain ⟨larger, moved⟩ := Option.isSome_iff_exists.mp (roomy table grown full)
          rw [full] at failed
          dsimp only at failed
          cases allocated : calloc (2 * table.tableSize) with
          | false =>
              rw [hashmapRehash, if_neg (by rw [allocated]; decide)] at failed
              cases failed
              exact grown
          | true =>
              cases fuel with
              | zero =>
                  split at failed
                  · cases failed
                  · rename_i status middle rehashed
                    rw [hashmapRehash, if_pos allocated] at rehashed
                    cases rehashEntries_zero rehashed
                    cases failed
              | succ fuel =>
                  rw [hashmapRehash_of_doubled moved allocated] at failed
                  exact ih (.grow grown full moved) failed

/-- A put grows through these tables while there is memory for them. -/
theorem Grown.put_eq {table : HashmapMap K V} (grown : Grown hash key m table)
    (allocates : ∀ length ≤ table.tableSize, calloc length = true) :
    ∃ count, ∀ fuel, hashmapPut hash calloc (fuel + 1 + count) m key value =
      hashmapPut hash calloc (fuel + 1) table key value := by
  induction grown with
  | refl => exact ⟨0, fun fuel => rfl⟩
  | @grow table next _ full moved ih =>
      have length := (doubled_eq_some moved).1
      have allocated : calloc (2 * table.tableSize) = true := allocates _ (Nat.le_of_eq length.symm)
      obtain ⟨count, same⟩ := ih fun size below => allocates size (by omega)
      refine ⟨count + 1, fun fuel => ?_⟩
      have round : hashmapPut hash calloc (fuel + 1 + 1) table key value =
          hashmapPut hash calloc (fuel + 1) next key value := by
        rw [hashmapPut, full, hashmapRehash_of_doubled moved allocated]
        rfl
      rw [← round, ← same (fuel + 1)]
      congr 1
      omega

/-- An entry that finds no slot on its way is lost with the array it asks for. -/
theorem rehashEntries_crowded {rest : List (Option (K × V))} {m : HashmapMap K V}
    (wf : m.Wf hash) (distinct : Slots.Distinct rest)
    (fresh : ∀ key, (Slots.toMap rest key).isSome → m.toMap key = none)
    (crowded : rehashEntries (hashmapPlace hash) rest m = none)
    (failing : calloc (2 * m.tableSize) = false) (fuel : Nat) :
    ∃ next lost record, rehashEntries (hashmapPut hash calloc (fuel + 1)) rest m =
        some (.omem, next) ∧ Slots.toMap rest lost = some record ∧ next.toMap lost = none := by
  induction rest generalizing m with
  | nil => cases crowded
  | cons slot rest ih =>
      cases slot with
      | none => exact ih wf distinct fresh crowded failing
      | some entry =>
          obtain ⟨key, value⟩ := entry
          rw [rehashEntries] at crowded ⊢
          rw [Slots.toMap_cons_some]
          cases first : hashmapPlace hash m key value with
          | none =>
              have full : hashmapHash hash m key = none := Option.map_eq_none_iff.mp first
              refine ⟨m, key, value, ?_, Function.update_self .., fresh_head fresh⟩
              rw [hashmapPut, full, hashmapRehash, if_neg (by rw [failing]; decide)]
              rfl
          | some result =>
              obtain ⟨status, middle⟩ := result
              obtain ⟨index, place, rfl, rfl⟩ := hashmapPlace_eq_some first
              rw [first] at crowded
              have put := put_place_spec value wf (fresh_head fresh) place
              obtain ⟨_, arrived⟩ | ⟨absurdity, _⟩ := put.outcome
              · obtain ⟨next, lost, record, done, stored, gone⟩ := ih put.wf
                  (List.nodup_cons.mp distinct).2 (fresh_moved distinct fresh arrived) crowded
                  (by
                    rw [tableSize, List.length_set]
                    exact failing)
                refine ⟨next, lost, record, ?_, ?_, gone⟩
                · rw [hashmapPut_of_place first]
                  exact done
                · rw [Function.update_of_ne ?_]
                  · exact stored
                  · rintro rfl
                    rw [Slots.toMap_eq_none_iff.mpr (List.nodup_cons.mp distinct).1] at stored
                    cases stored
              · cases absurdity

/-- A put that loses an entry when the second array cannot be had. -/
theorem put_crowded {table : HashmapMap K V} (wf : table.Wf hash)
    (full : hashmapHash hash table key = none) (crowded : doubled hash table = none)
    (allocated : calloc (2 * table.tableSize) = true)
    (failing : calloc (2 * (2 * table.tableSize)) = false) (fuel : Nat) :
    ∃ next lost record, hashmapPut hash calloc (fuel + 2) table key value =
        some (.omem, next) ∧ table.toMap lost = some record ∧ next.toMap lost = none := by
  have positive : 0 < 2 * table.tableSize := Nat.mul_pos (by decide) wf.nonempty
  have second : calloc (2 * HashmapMap.tableSize
      (⟨List.replicate (2 * table.tableSize) none, 0⟩ : HashmapMap K V)) = false := by
    rw [tableSize, List.length_replicate]
    exact failing
  obtain ⟨next, lost, record, done, stored, gone⟩ := rehashEntries_crowded
    (wf_empty _ positive) wf.distinct (fun key _ => Slots.toMap_replicate_none _ key)
    (Option.map_eq_none_iff.mp crowded) second fuel
  refine ⟨next, lost, record, ?_, stored, gone⟩
  rw [hashmapPut, full, hashmapRehash, if_pos allocated, done]
  rfl

/-- **Puts of a key lose no entry**, whatever allocations fail, if and only if every
entry finds a slot in each array that the put asks for. -/
theorem hashmapPut_keeps_iff (wf : m.Wf hash) (key : K) (value : V) :
    (∀ calloc fuel next, hashmapPut hash calloc fuel m key value = some (.omem, next) →
        next.toMap = m.toMap) ↔ Roomy hash key m := by
  constructor
  · intro keeps table grown full
    by_contra crowded
    rw [Option.not_isSome_iff_eq_none] at crowded
    obtain ⟨tableWf, same⟩ := grown.spec wf
    have positive := tableWf.nonempty
    -- there is memory for one array more, and not for the next
    let calloc : Nat → Bool := fun length => decide (length ≤ 2 * table.tableSize)
    have allocates : ∀ length ≤ 2 * table.tableSize, calloc length = true :=
      fun length below => decide_eq_true below
    have failing : calloc (2 * (2 * table.tableSize)) = false := decide_eq_false (by omega)
    obtain ⟨count, growing⟩ := @Grown.put_eq K V _ hash calloc key value m table grown
      fun length below => allocates length (by omega)
    obtain ⟨next, lost, record, done, stored, gone⟩ :=
      @put_crowded K V _ hash calloc key value table tableWf full crowded
        (allocates _ (Nat.le_refl _)) failing 0
    rw [← growing 1] at done
    rw [keeps calloc _ next done, ← same, stored] at gone
    cases gone
  · intro roomy calloc fuel next failed
    exact ((Grown.put_omem roomy .refl failed).spec wf).2

/-- An array that is large enough for the entries and the key. -/
theorem Roomy.of_doubled {next : HashmapMap K V} (moved : doubled hash m = some next)
    (place : hashmapHash hash next key ≠ none) : Roomy hash key m := by
  have first : ∀ table, Grown hash key m table → table = m ∨ table = next := by
    intro table grown
    induction grown with
    | refl => exact Or.inl rfl
    | grow _ full moved' ih =>
        rcases ih with rfl | rfl
        · exact Or.inr (Option.some.inj (moved'.symm.trans moved))
        · exact absurd full place
  intro table grown full
  rcases first table grown with rfl | rfl
  · rw [moved, Option.isSome_some]
  · exact absurd full place

/-! ## Where growth ends -/

/-- The keys of a table. -/
def HashmapMap.keys (m : HashmapMap K V) : Finset K :=
  ((Slots.entries m.data).map Prod.fst).toFinset

theorem mem_keys {key : K} : key ∈ m.keys ↔ (m.toMap key).isSome := by
  rw [HashmapMap.keys, List.mem_toFinset, ← not_iff_not, Option.not_isSome_iff_eq_none]
  exact Slots.toMap_eq_none_iff.symm

theorem card_keys_le (wf : m.Wf hash) : m.keys.card ≤ hashmapLength m := by
  have count := List.toFinset_card_le ((Slots.entries m.data).map Prod.fst)
  rwa [List.length_map, ← wf.size_eq] at count

section Settling

variable (hash) in
/-- Keys that all have a home of their own in an array of a length, and fill at most
half of it. -/
structure Settling (keys : Finset K) (limit : Nat) : Prop where
  apart : ∀ first ∈ keys, ∀ second ∈ keys,
    (hash first).toNat % limit = (hash second).toNat % limit → first = second
  half : keys.card ≤ limit / 2

variable (hash) in
/-- A table of some keys that is `left` doublings away from a length, where every
entry has to be in its home slot. -/
structure Approaching (keys : Finset K) (limit left : Nat) (m : HashmapMap K V) : Prop where
  wf : m.Wf hash
  among : ∀ key, (m.toMap key).isSome → key ∈ keys
  length : m.tableSize * 2 ^ left = limit
  home : left = 0 → ∀ index key value, m.data[index]? = some (some (key, value)) →
    index = hashmapHashInt hash m key

variable {keys : Finset K} {limit left : Nat} (settling : Settling hash keys limit)

/-- An empty table. -/
theorem approaching_empty {size : Nat} (positive : 0 < size) (length : size * 2 ^ left = limit) :
    Approaching hash keys limit left (⟨List.replicate size none, 0⟩ : HashmapMap K V) where
  wf := wf_empty size positive
  among := by
    intro key stored
    rw [HashmapMap.toMap, Slots.toMap_replicate_none] at stored
    cases stored
  length := by
    rw [tableSize, List.length_replicate]
    exact length
  home := by
    intro _ index key value used
    rw [List.getElem?_replicate] at used
    split at used <;> cases used

/-- A table that has not reached the length. -/
theorem approaching_of_wf (wf : m.Wf hash) (positive : left ≠ 0) (key : K) :
    Approaching hash (insert key m.keys) (m.tableSize * 2 ^ left) left m where
  wf := wf
  among := fun _ stored => Finset.mem_insert_of_mem (mem_keys.mpr stored)
  length := rfl
  home := fun zero => absurd zero positive

include settling in
/-- At the length itself every new key gets its home slot. -/
theorem Approaching.place (way : Approaching hash keys limit 0 m) (member : key ∈ keys)
    (fresh : m.toMap key = none) : hashmapHash hash m key = some (hashmapHashInt hash m key) := by
  have length : m.tableSize = limit := by rw [← way.length, pow_zero, Nat.mul_one]
  have others : {key | (m.toMap key).isSome} ⊆ ↑(keys.erase key) := by
    intro other stored
    have different : other ≠ key := by
      rintro rfl
      rw [Set.mem_ofPred_eq, fresh] at stored
      cases stored
    exact Finset.mem_coe.mpr (Finset.mem_erase.mpr ⟨different, way.among other stored⟩)
  have few : m.size < m.tableSize / 2 := by
    have counted := Set.ncard_le_ncard others
    rw [way.wf.ncard_support, Set.ncard_coe_finset, Finset.card_erase_of_mem member,
      hashmapLength] at counted
    have some := Finset.card_pos.mpr ⟨key, member⟩
    have half := settling.half
    omega
  have free : m.slot (hashmapHashInt hash m key) = none := by
    cases used : m.slot (hashmapHashInt hash m key) with
    | none => rfl
    | some entry =>
        have stored := slot_eq_some_iff.mp used
        have present : m.toMap entry.1 = some entry.2 :=
          (toMap_eq_some_iff way.wf).mpr ⟨_, stored⟩
        have inside : entry.1 ∈ keys := way.among _ (by rw [present, Option.isSome_some])
        have home := way.home rfl _ _ _ stored
        rw [hashmapHashInt, hashmapHashInt, length] at home
        rw [← settling.apart key member entry.1 inside home, fresh] at present
        cases present
  rw [hashmapHash, if_neg (Nat.not_le.mpr few), maxChainLength, probeFree, free]

include settling in
/-- A key that finds its slot at once. -/
theorem Approaching.insert {index : Nat} (way : Approaching hash keys limit left m)
    (member : key ∈ keys) (fresh : m.toMap key = none)
    (place : hashmapHash hash m key = some index) (value : V) :
    Approaching hash keys limit left ⟨m.data.set index (some (key, value)), m.size + 1⟩ ∧
      HashmapMap.toMap ⟨m.data.set index (some (key, value)), m.size + 1⟩ =
        Function.update m.toMap key (some value) := by
  obtain ⟨wf, ⟨_, arrived⟩ | ⟨absurdity, _⟩⟩ := put_place_spec value way.wf fresh place
  · refine ⟨⟨wf, ?_, ?_, ?_⟩, arrived⟩
    · intro other stored
      rw [arrived] at stored
      by_cases same : other = key
      · rw [same]
        exact member
      · rw [Function.update_of_ne same] at stored
        exact way.among other stored
    · rw [tableSize, List.length_set]
      exact way.length
    · rintro rfl other otherKey otherValue used
      have home : index = hashmapHashInt hash m key :=
        Option.some.inj (place.symm.trans (way.place settling member fresh))
      unfold hashmapHashInt tableSize at home ⊢
      rw [List.length_set]
      by_cases same : index = other
      · have inside : other < m.data.length := by
          rw [← same, home]
          exact Nat.mod_lt _ way.wf.nonempty
        rw [same, List.getElem?_set_self inside] at used
        cases used
        exact same.symm.trans home
      · rw [List.getElem?_set_ne same] at used
        exact way.home rfl other otherKey otherValue used
  · cases absurdity

variable (hash calloc keys limit) in
/-- Puts into tables that are `left` doublings away return. -/
def PutSettles (V : Type) (left : Nat) : Prop :=
  ∀ (m : HashmapMap K V) (key : K) (value : V), Approaching hash keys limit left m →
    key ∈ keys → m.toMap key = none →
    ∃ next fewer, fewer ≤ left ∧ Approaching hash keys limit fewer next ∧
      next.toMap = Function.update m.toMap key (some value) ∧
      ∀ fuel, left < fuel → hashmapPut hash calloc fuel m key value = some (.ok, next)

/-- Moving entries whose puts return. -/
theorem rehashEntries_settles {bound : Nat}
    (settles : ∀ left ≤ bound, PutSettles hash calloc keys limit V left)
    {rest : List (Option (K × V))} (within : left ≤ bound)
    (way : Approaching hash keys limit left m) (distinct : Slots.Distinct rest)
    (fresh : ∀ key, (Slots.toMap rest key).isSome → m.toMap key = none)
    (among : ∀ key, (Slots.toMap rest key).isSome → key ∈ keys) :
    ∃ next fewer, fewer ≤ bound ∧ Approaching hash keys limit fewer next ∧
      ∀ fuel, bound < fuel →
        rehashEntries (hashmapPut hash calloc fuel) rest m = some (.ok, next) := by
  induction rest generalizing m left with
  | nil => exact ⟨m, left, within, way, fun _ _ => rfl⟩
  | cons slot rest ih =>
      cases slot with
      | none => exact ih within way distinct fresh among
      | some entry =>
          obtain ⟨key, value⟩ := entry
          have member : key ∈ keys := among key (by
            rw [Slots.toMap_cons_some, Function.update_self, Option.isSome_some])
          obtain ⟨middle, fewer, below, middleWay, arrived, put⟩ :=
            settles left within m key value way member (fresh_head fresh)
          have amongRest : ∀ query, (Slots.toMap rest query).isSome → query ∈ keys := by
            intro query present
            by_cases same : query = key
            · rw [same]
              exact member
            · apply among query
              rw [Slots.toMap_cons_some, Function.update_of_ne same]
              exact present
          obtain ⟨next, final, finalLe, nextWay, moved⟩ := ih (Nat.le_trans below within) middleWay
            (List.nodup_cons.mp distinct).2 (fresh_moved distinct fresh arrived) amongRest
          refine ⟨next, final, finalLe, nextWay, fun fuel enough => ?_⟩
          rw [rehashEntries, put fuel (Nat.lt_of_le_of_lt within enough)]
          exact moved fuel enough

include settling in
/-- **Growth ends**: a put of one of the keys returns, and its table has not grown
beyond the length. -/
theorem hashmapPut_settles (allocates : ∀ length ≤ limit, calloc length = true) (left : Nat) :
    PutSettles hash calloc keys limit V left := by
  induction left using Nat.strongRecOn with
  | ind left ih =>
      intro m key value way member fresh
      cases place : hashmapHash hash m key with
      | some index =>
          obtain ⟨nextWay, arrived⟩ := way.insert settling member fresh place value
          refine ⟨_, left, Nat.le_refl left, nextWay, arrived, fun fuel enough => ?_⟩
          obtain ⟨fuel, rfl⟩ := Nat.exists_eq_succ_of_ne_zero (Nat.ne_zero_of_lt enough)
          rw [hashmapPut, place]
      | none =>
          cases left with
          | zero =>
              rw [way.place settling member fresh] at place
              cases place
          | succ left =>
              have positive : 0 < 2 * m.tableSize := Nat.mul_pos (by decide) way.wf.nonempty
              have length : 2 * m.tableSize * 2 ^ left = limit := by
                rw [← way.length, pow_succ']
                ring
              have below : 2 * m.tableSize ≤ limit := by
                rw [← length]
                exact Nat.le_mul_of_pos_right _ (Nat.two_pow_pos left)
              have settles : ∀ fewer ≤ left, PutSettles hash calloc keys limit V fewer :=
                fun fewer below => ih fewer (Nat.lt_succ_of_le below)
              obtain ⟨middle, fewer, fewerLe, middleWay, moved⟩ :=
                rehashEntries_settles settles (Nat.le_refl left)
                  (approaching_empty positive length) way.wf.distinct
                  (fun key _ => Slots.toMap_replicate_none _ key) way.among
              have rehashed (fuel : Nat) (enough : left < fuel) :
                  hashmapRehash calloc (hashmapPut hash calloc fuel) m = some (.ok, middle) := by
                rw [hashmapRehash, if_pos (allocates _ below)]
                exact moved fuel enough
              have same : middle.toMap = m.toMap := by
                obtain ⟨_, ⟨_, same⟩ | ⟨absurdity, _⟩⟩ := hashmapRehash_spec
                  (hashmapPut_correct calloc (left + 1)) way.wf (rehashed _ (Nat.lt_succ_self left))
                · exact same
                · cases absurdity
              obtain ⟨next, last, lastLe, nextWay, arrived, put⟩ :=
                settles fewer fewerLe middle key value middleWay member (same ▸ fresh)
              refine ⟨next, last, by omega, nextWay, same ▸ arrived, fun fuel enough => ?_⟩
              obtain ⟨fuel, rfl⟩ := Nat.exists_eq_succ_of_ne_zero (Nat.ne_zero_of_lt enough)
              rw [hashmapPut, place, rehashed fuel (by omega)]
              exact put fuel (by omega)

end Settling

end Owl
