import Owl.Foundation.Run
import Owl.Hashmap.Refinement

/-! # The contract of the map over a history of calls

A client of `hashmap.h` sees a history: puts, lookups with and without removal, and
removals through an iterator. The contract is that a lookup returns the last value put
and not removed since, and that the length counts the keys present. `hashmap_put` adds
one to the size whether or not the key is there already, so the contract is kept exactly
as long as no key is put again while it is present (`hashmap_contract_iff`).
-/

namespace Owl

open HashmapMap Transition

variable {K V : Type}

/-- The calls of a client. An iterator is its current index. -/
inductive MapOp (K V : Type) where
  | put (key : K) (value : V)
  | get (key : K) (remove : Bool)
  | itRemove (it : Int)

/-- What a client sees of a call: the status, the value of a lookup, and the key of the
element that an iterator has removed. -/
structure MapReply (K V : Type) where
  status : MapStatus
  value : Option V
  removed : Option K

variable [DecidableEq K] (hash : K → UInt64)

/-- A call that returns; allocations succeed. -/
def HashmapStep (m : HashmapMap K V) (op : MapOp K V) (reply : MapReply K V)
    (next : HashmapMap K V) : Prop :=
  match op with
  | .put key value => ∃ fuel status,
      hashmapPut hash (fun _ => true) fuel m key value = some (status, next) ∧
        reply = ⟨status, none, none⟩
  | .get key remove => ∃ status value,
      hashmapGet hash m key remove = (status, value, next) ∧ reply = ⟨status, value, none⟩
  | .itRemove it => ∃ status,
      hashmapItRemove m it = (status, next) ∧
        reply = ⟨status, none, if status = .ok then (m.slot it.toNat).map Prod.fst else none⟩

/-- The values present after a history, latest call first: the last one put for a key
and not removed since. -/
def present : List (MapOp K V × MapReply K V) → K → Option V
  | [] => fun _ => none
  | (.put key value, _) :: earlier => Function.update (present earlier) key (some value)
  | (.get key remove, _) :: earlier =>
      if remove then Function.update (present earlier) key none else present earlier
  | (.itRemove _, reply) :: earlier =>
      match reply.removed with
      | none => present earlier
      | some key => Function.update (present earlier) key none

/-- No key is put while it is present. -/
def PutsAbsent : List (MapOp K V × MapReply K V) → Prop
  | [] => True
  | (.put key _, _) :: earlier => present earlier key = none ∧ PutsAbsent earlier
  | (.get _ _, _) :: earlier => PutsAbsent earlier
  | (.itRemove _, _) :: earlier => PutsAbsent earlier

/-- A table answers as the values present demand. -/
structure MapContract (values : K → Option V) (m : HashmapMap K V) : Prop where
  get : ∀ key remove,
    ((hashmapGet hash m key remove).1, (hashmapGet hash m key remove).2.1) =
      match values key with
      | some value => (.ok, some value)
      | none => (.missing, none)
  length : hashmapLength m = {key | (values key).isSome}.ncard

variable {hash}

/-- A well-formed table keeps the contract for the map it denotes. -/
theorem HashmapMap.Wf.contract {m : HashmapMap K V} (wf : m.Wf hash) :
    MapContract hash m.toMap m where
  get key remove := by
    cases stored : m.toMap key with
    | none => rw [hashmapGet_of_none wf stored]
    | some value =>
        cases remove with
        | false => rw [hashmapGet_of_some wf stored]
        | true =>
            obtain ⟨rest, done, -⟩ := hashmapGet_remove wf stored
            rw [done]
  length := wf.ncard_support.symm

/-! ## One call -/

theorem hashmapGet_denotes {m next : HashmapMap K V} (wf : m.Wf hash) {key : K} {remove : Bool}
    {status : MapStatus} {value : Option V}
    (done : hashmapGet hash m key remove = (status, value, next)) :
    next.Wf hash ∧
      next.toMap = if remove then Function.update m.toMap key none else m.toMap := by
  cases stored : m.toMap key with
  | none =>
      cases (hashmapGet_of_none wf stored remove).symm.trans done
      refine ⟨wf, ?_⟩
      cases remove with
      | false => rfl
      | true => exact (Function.update_eq_self_iff.mpr stored.symm).symm
  | some found =>
      cases remove with
      | false =>
          cases (hashmapGet_of_some wf stored).symm.trans done
          exact ⟨wf, rfl⟩
      | true =>
          obtain ⟨rest, removed, restWf, denoted⟩ := hashmapGet_remove wf stored
          cases removed.symm.trans done
          exact ⟨restWf, denoted⟩

theorem hashmapItRemove_denotes {m next : HashmapMap K V} (wf : m.Wf hash) {it : Int}
    {status : MapStatus} (done : hashmapItRemove m it = (status, next)) :
    next.Wf hash ∧ next.toMap =
      match (if status = .ok then (m.slot it.toNat).map Prod.fst else none) with
      | none => m.toMap
      | some key => Function.update m.toMap key none := by
  unfold hashmapItRemove at done
  split at done
  · cases done
    exact ⟨wf, rfl⟩
  split at done
  · cases done
    exact ⟨wf, rfl⟩
  · rename_i used
    cases done
    cases stored : m.slot it.toNat with
    | none =>
        rw [stored] at used
        exact absurd rfl used
    | some entry =>
        have inside := slot_eq_some_iff.mp stored
        exact ⟨wf.clear inside, Slots.toMap_set_none wf.distinct inside⟩

/-- A put of a key that is present adds one to the size all the same. -/
theorem size_hashmapPut_present {m next : HashmapMap K V} (wf : m.Wf hash) {key : K} {value : V}
    (stored : (m.toMap key).isSome) {fuel : Nat} {status : MapStatus}
    (done : hashmapPut hash (fun _ => true) fuel m key value = some (status, next)) :
    hashmapLength next = hashmapLength m + 1 := by
  induction fuel generalizing m with
  | zero => cases done
  | succ fuel ih =>
      have succeeded := hashmapPut_ok (fun _ => rfl) done
      rw [hashmapPut] at done
      split at done
      · cases done
        rfl
      · split at done
        · cases done
        · rename_i first middle rehashed
          obtain ⟨middleWf, outcome⟩ := hashmapRehash_spec (hashmapPut_correct _ fuel) wf rehashed
          rcases outcome with ⟨rfl, same⟩ | ⟨rfl, -⟩
          · rw [if_neg (by decide)] at done
            rw [ih middleWf (same ▸ stored) done, ← middleWf.ncard_support, same,
              wf.ncard_support]
          · rw [if_pos rfl] at done
            cases done
            cases succeeded

/-- The support of a map grows by no key that it has already. -/
theorem isSome_update_present {values : K → Option V} {key : K} (stored : (values key).isSome)
    (value : V) :
    {query | (Function.update values key (some value) query).isSome} =
      {query | (values query).isSome} := by
  ext query
  rw [Set.mem_ofPred_eq, Set.mem_ofPred_eq]
  by_cases same : query = key
  · rw [same, Function.update_self]
    exact iff_of_true rfl stored
  · rw [Function.update_of_ne same]

/-- A call on a table that denotes the values present. -/
theorem hashmapStep_denotes {m next : HashmapMap K V} {op : MapOp K V} {reply : MapReply K V}
    {history : List (MapOp K V × MapReply K V)} (wf : m.Wf hash)
    (denotes : m.toMap = present history) (step : HashmapStep hash m op reply next)
    (absent : PutsAbsent ((op, reply) :: history)) :
    next.Wf hash ∧ next.toMap = present ((op, reply) :: history) := by
  cases op with
  | put key value =>
      obtain ⟨fuel, status, done, rfl⟩ := step
      have put := hashmapPut_correct _ fuel m key value status next wf
        ((congrFun denotes key).trans absent.1) done
      cases hashmapPut_ok (fun _ => rfl) done
      rcases put.outcome with ⟨-, stored⟩ | ⟨impossible, -⟩
      · rw [denotes] at stored
        exact ⟨put.wf, stored⟩
      · cases impossible
  | get key remove =>
      obtain ⟨status, value, done, rfl⟩ := step
      rw [present, ← denotes]
      exact hashmapGet_denotes wf done
  | itRemove it =>
      obtain ⟨status, done, rfl⟩ := step
      rw [present, ← denotes]
      exact hashmapItRemove_denotes wf done

/-- A put of a key that is present breaks the contract. -/
theorem not_contract_of_present {m next : HashmapMap K V} {key : K} {value : V}
    {reply : MapReply K V} {history : List (MapOp K V × MapReply K V)} (wf : m.Wf hash)
    (denotes : m.toMap = present history) (step : HashmapStep hash m (.put key value) reply next)
    (stored : (present history key).isSome) :
    ¬MapContract hash (present ((.put key value, reply) :: history)) next := by
  intro contract
  obtain ⟨fuel, status, done, rfl⟩ := step
  have counted := contract.length
  rw [present, isSome_update_present stored, ← denotes, wf.ncard_support] at counted
  rw [← denotes] at stored
  rw [size_hashmapPut_present wf stored done] at counted
  omega

/-! ## Histories -/

theorem hashmapRun_denotes {trace : List (MapOp K V × MapReply K V)} {m : HashmapMap K V}
    (run : Run (HashmapStep hash) hashmapNew trace m) (absent : PutsAbsent trace) :
    m.Wf hash ∧ m.toMap = present trace := by
  refine run.trace_invariant
    (fun trace m => PutsAbsent trace → m.Wf hash ∧ m.toMap = present trace) ?_ ?_ absent
  · exact fun _ => ⟨hashmapNew_wf, funext toMap_hashmapNew⟩
  · intro trace m op reply next ih step absent
    have before : PutsAbsent trace := by
      cases op with
      | put key value => exact absent.2
      | get key remove => exact absent
      | itRemove it => exact absent
    obtain ⟨wf, denotes⟩ := ih before
    exact hashmapStep_denotes wf denotes step absent

/-- **The contract is kept exactly as long as no key is put while it is present**: it
holds after every history of that kind, and the next call keeps it exactly if it is not
such a put. -/
theorem hashmap_contract_iff {trace : List (MapOp K V × MapReply K V)} {m : HashmapMap K V}
    (run : Run (HashmapStep hash) hashmapNew trace m) (absent : PutsAbsent trace) :
    MapContract hash (present trace) m ∧
      ∀ op reply next, HashmapStep hash m op reply next →
        (MapContract hash (present ((op, reply) :: trace)) next ↔
          PutsAbsent ((op, reply) :: trace)) := by
  obtain ⟨wf, denotes⟩ := hashmapRun_denotes run absent
  refine ⟨denotes ▸ wf.contract, fun op reply next step => ⟨fun contract => ?_, fun kept => ?_⟩⟩
  · cases op with
    | put key value =>
        refine ⟨?_, absent⟩
        by_contra missing
        have stored := Option.isSome_iff_ne_none.mpr missing
        exact not_contract_of_present wf denotes step stored contract
    | get key remove => exact absent
    | itRemove it => exact absent
  · obtain ⟨nextWf, nextDenotes⟩ := hashmapStep_denotes wf denotes step kept
    exact nextDenotes ▸ nextWf.contract

/-- Two puts of one key into a new table. -/
def sampleTwice : List (MapOp UInt64 Nat × MapReply UInt64 Nat) :=
  [(.put 1 20, ⟨.ok, none, none⟩), (.put 1 10, ⟨.ok, none, none⟩)]

/-- A put into a table that has room. -/
theorem hashmapStep_put_of_place {hash : K → UInt64} {m : HashmapMap K V} {key : K} {index : Nat}
    (place : hashmapHash hash m key = some index) (value : V) :
    HashmapStep hash m (.put key value) ⟨.ok, none, none⟩
      ⟨m.data.set index (some (key, value)), m.size + 1⟩ := by
  refine ⟨1, .ok, ?_, rfl⟩
  rw [hashmapPut, place]

/-- Two keys with one hash are put, the first one is taken out, and a third one is put in
its place. -/
def sampleColliding : List (MapOp UInt64 Nat × MapReply UInt64 Nat) :=
  [(.put 3 30, ⟨.ok, none, none⟩), (.get 1 true, ⟨.ok, some 10, none⟩),
    (.put 2 20, ⟨.ok, none, none⟩), (.put 1 10, ⟨.ok, none, none⟩)]

theorem hashmap_contract_iff_colliding : ∃ m : HashmapMap UInt64 Nat,
    Run (HashmapStep fun _ => 0) hashmapNew sampleColliding m ∧
      MapContract (fun _ => 0) (present sampleColliding) m ∧ hashmapLength m = 2 := by
  let one : HashmapMap UInt64 Nat := ⟨hashmapNew.data.set 0 (some (1, 10)), 1⟩
  let two : HashmapMap UInt64 Nat := ⟨one.data.set 1 (some (2, 20)), 2⟩
  let taken : HashmapMap UInt64 Nat := ⟨two.data.set 0 none, 1⟩
  have first : hashmapHash (fun _ => 0) (hashmapNew : HashmapMap UInt64 Nat) 1 = some 0 := by
    decide +kernel
  have second : hashmapHash (fun _ => 0) one 2 = some 1 := by
    decide +kernel
  have found : hashmapFind (fun _ => 0) two 1 = some 0 := by
    decide +kernel
  have third : hashmapHash (fun _ => 0) taken 3 = some 0 := by
    decide +kernel
  have take : HashmapStep (fun _ => 0) two (.get 1 true) ⟨.ok, some 10, none⟩ taken := by
    refine ⟨.ok, some 10, ?_, rfl⟩
    rw [hashmapGet, found]
    rfl
  have run : Run (HashmapStep fun _ => 0) hashmapNew sampleColliding _ :=
    (((Run.nil.cons (hashmapStep_put_of_place first 10)).cons
      (hashmapStep_put_of_place second 20)).cons take).cons (hashmapStep_put_of_place third 30)
  exact ⟨_, run, (hashmap_contract_iff run ⟨by decide, by decide, rfl, trivial⟩).1, rfl⟩

/-- A key that is put twice is counted twice. -/
theorem hashmap_contract_broken_twice : ∃ m : HashmapMap UInt64 Nat,
    Run (HashmapStep id) hashmapNew sampleTwice m ∧ hashmapLength m = 2 ∧
      {key | (present sampleTwice key).isSome}.ncard = 1 ∧
      ¬MapContract id (present sampleTwice) m := by
  have place : hashmapHash id (hashmapNew : HashmapMap UInt64 Nat) 1 = some 1 := by
    decide +kernel
  have again : hashmapHash id (⟨(hashmapNew : HashmapMap UInt64 Nat).data.set 1 (some (1, 10)), 1⟩ :
      HashmapMap UInt64 Nat) 1 = some 1 := by
    decide +kernel
  have run : Run (HashmapStep id) hashmapNew sampleTwice _ :=
    .cons (.cons .nil (hashmapStep_put_of_place place 10)) (hashmapStep_put_of_place again 20)
  have one : {key | (present sampleTwice key).isSome} = {1} := by
    ext key
    rw [Set.mem_ofPred_eq, Set.mem_singleton_iff, sampleTwice, present, present, present,
      Function.update_idem]
    by_cases same : key = 1
    · rw [same, Function.update_self]
      exact iff_of_true rfl rfl
    · rw [Function.update_of_ne same]
      exact iff_of_false Bool.false_ne_true same
  have counted : {key | (present sampleTwice key).isSome}.ncard = 1 := by
    rw [one, Set.ncard_singleton]
  refine ⟨_, run, rfl, counted, fun contract => ?_⟩
  have length := contract.length
  rw [counted] at length
  cases length

end Owl
