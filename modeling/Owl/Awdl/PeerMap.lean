import Owl.Awdl.Peers
import Owl.Foundation.Run
import Owl.Hashmap.Refinement

/-! # The peer table as a finite map

Each operation of `peers.c` on a well-formed table is an update of the finite
map from addresses to records that the table denotes. `MapStep` states the
abstract behaviour of the operations on that map, and `awdlPeers_refine_map`
shows that every sequence of operations on the table is one on the map with the
same results.
-/

namespace Owl

open Transition

variable {hash : EtherAddr → UInt64}

/-- A record of an address: the one it is stored under and that of its election record. -/
structure AwdlPeer.KeyedBy (peer : AwdlPeer) (addr : EtherAddr) : Prop where
  addr_eq : peer.addr = addr
  selfAddr_eq : peer.election.selfAddr = addr

variable (hash) in
/-- The invariant of a peer table: a well-formed hash table whose records carry
the address under which they are stored. -/
structure AwdlPeersWf (peers : AwdlPeers) : Prop where
  table : peers.Wf hash
  keyed : ∀ addr peer, peers.toMap addr = some peer → peer.KeyedBy addr

theorem awdlPeersInit_wf : AwdlPeersWf hash awdlPeersInit where
  table := hashmapNew_wf
  keyed := by
    intro addr peer stored
    rw [awdlPeersInit, toMap_hashmapNew] at stored
    cases stored

/-- A table whose map is that of a well-formed one up to one record of its address. -/
theorem AwdlPeersWf.update {peers next : AwdlPeers} (wf : AwdlPeersWf hash peers)
    (table : next.Wf hash) {addr : EtherAddr} {record : AwdlPeer} (own : record.KeyedBy addr)
    (updated : next.toMap = Function.update peers.toMap addr (some record)) :
    AwdlPeersWf hash next where
  table := table
  keyed := by
    intro query peer stored
    rw [updated] at stored
    by_cases same : query = addr
    · subst same
      rw [Function.update_self] at stored
      cases stored
      exact own
    · rw [Function.update_of_ne same] at stored
      exact wf.keyed query peer stored

/-- A table whose map is a part of that of a well-formed one. -/
theorem AwdlPeersWf.submap {peers next : AwdlPeers} (wf : AwdlPeersWf hash peers)
    (table : next.Wf hash)
    (part : ∀ addr peer, next.toMap addr = some peer → peers.toMap addr = some peer) :
    AwdlPeersWf hash next where
  table := table
  keyed := fun addr peer stored => wf.keyed addr peer (part addr peer stored)

variable (hash) in
/-- The table with one record, in the home slot of its address. -/
def awdlPeersSingle (peer : AwdlPeer) : AwdlPeers where
  data := awdlPeersInit.data.set (hashmapHashInt hash awdlPeersInit peer.addr)
    (some (peer.addr, peer))
  size := 1

theorem awdlPeersSingle_spec (peer : AwdlPeer) :
    (awdlPeersSingle hash peer).Wf hash ∧
      (awdlPeersSingle hash peer).toMap =
        Function.update (fun _ => none) peer.addr (some peer) := by
  have empty : awdlPeersInit.toMap = fun _ => none := funext toMap_hashmapNew
  have wf : awdlPeersInit.Wf hash := hashmapNew_wf
  have inside : hashmapHashInt hash awdlPeersInit peer.addr < awdlPeersInit.tableSize :=
    Nat.mod_lt _ wf.nonempty
  have free : awdlPeersInit.data[hashmapHashInt hash awdlPeersInit peer.addr]? = some none := by
    simp only [HashmapMap.tableSize, awdlPeersInit, hashmapNew, List.length_replicate] at inside
    exact List.getElem?_replicate_of_lt inside
  refine ⟨wf.insert peer free (congrFun empty peer.addr) ⟨0, by decide, ?_⟩, ?_⟩
  · rw [Nat.add_zero, Nat.mod_eq_of_lt inside]
  · rw [← empty]
    exact Slots.toMap_set_of_free wf.distinct free peer (congrFun empty peer.addr)

theorem awdlPeersSingle_wf (peer : AwdlPeer) (own : peer.election.selfAddr = peer.addr) :
    AwdlPeersWf hash (awdlPeersSingle hash peer) := by
  obtain ⟨table, single⟩ := @awdlPeersSingle_spec hash peer
  have empty : awdlPeersInit.toMap = fun _ => none := funext toMap_hashmapNew
  rw [← empty] at single
  exact awdlPeersInit_wf.update table ⟨rfl, own⟩ single

variable (hash) in
/-- A table with another record, in the slot that `hashmap_hash` finds for its address. -/
def awdlPeersWith (peers : AwdlPeers) (peer : AwdlPeer) : AwdlPeers :=
  match hashmapHash hash peers peer.addr with
  | some index =>
      { data := peers.data.set index (some (peer.addr, peer))
        size := peers.size + 1 }
  | none => peers

theorem awdlPeersWith_spec {peers : AwdlPeers} (wf : AwdlPeersWf hash peers) {peer : AwdlPeer}
    (own : peer.election.selfAddr = peer.addr) (missing : peers.toMap peer.addr = none)
    (place : (hashmapHash hash peers peer.addr).isSome) :
    AwdlPeersWf hash (awdlPeersWith hash peers peer) ∧
      (awdlPeersWith hash peers peer).toMap =
        Function.update peers.toMap peer.addr (some peer) := by
  obtain ⟨index, found⟩ := Option.isSome_iff_exists.mp place
  obtain ⟨table, ⟨_, stored⟩ | ⟨failed, _⟩⟩ := put_place_spec peer wf.table missing found
  · have shown : awdlPeersWith hash peers peer =
        ⟨peers.data.set index (some (peer.addr, peer)), peers.size + 1⟩ := by
      rw [awdlPeersWith, found]
    rw [shown]
    exact ⟨wf.update table ⟨rfl, own⟩ stored, stored⟩
  · cases failed

variable (hash) in
/-- The table with some records, put into the empty table from the last to the first. -/
def awdlPeersOf (records : List AwdlPeer) : AwdlPeers :=
  records.foldr (fun peer peers => awdlPeersWith hash peers peer) awdlPeersInit

theorem awdlPeersOf_cons (peer : AwdlPeer) (rest : List AwdlPeer) :
    awdlPeersOf hash (peer :: rest) = awdlPeersWith hash (awdlPeersOf hash rest) peer := rfl

theorem size_awdlPeersOf_le (records : List AwdlPeer) :
    (awdlPeersOf hash records).size ≤ records.length := by
  induction records with
  | nil => exact Nat.le_refl 0
  | cons peer rest ih =>
      rw [awdlPeersOf_cons, List.length_cons]
      unfold awdlPeersWith
      split
      · exact Nat.succ_le_succ ih
      · exact Nat.le_succ_of_le ih

/-- If every record has found a slot, the first one has, and so have the others. -/
theorem placed_cons {peer : AwdlPeer} {rest : List AwdlPeer}
    (placed : (awdlPeersOf hash (peer :: rest)).size = (peer :: rest).length) :
    (hashmapHash hash (awdlPeersOf hash rest) peer.addr).isSome = true ∧
      (awdlPeersOf hash rest).size = rest.length := by
  have few := @size_awdlPeersOf_le hash rest
  rw [awdlPeersOf_cons, List.length_cons] at placed
  unfold awdlPeersWith at placed
  split at placed
  · rename_i found
    exact ⟨Option.isSome_iff_exists.mpr ⟨_, found⟩, Nat.succ.inj placed⟩
  · omega

/-- If every record has found a slot, the table has these records. -/
theorem awdlPeersOf_spec {records : List AwdlPeer}
    (own : ∀ peer ∈ records, peer.election.selfAddr = peer.addr)
    (distinct : (records.map (·.addr)).Nodup)
    (placed : (awdlPeersOf hash records).size = records.length) :
    AwdlPeersWf hash (awdlPeersOf hash records) ∧
      ∀ addr peer, (awdlPeersOf hash records).toMap addr = some peer ↔
        peer ∈ records ∧ peer.addr = addr := by
  induction records with
  | nil =>
      refine ⟨awdlPeersInit_wf, fun addr peer => ?_⟩
      rw [awdlPeersOf, List.foldr_nil, awdlPeersInit, toMap_hashmapNew]
      exact iff_of_false nofun nofun
  | cons record rest ih =>
      obtain ⟨fresh, distinct⟩ := List.nodup_cons.mp distinct
      obtain ⟨place, placed⟩ := placed_cons placed
      obtain ⟨wf, known⟩ := ih (fun peer member => own peer (List.mem_cons_of_mem record member))
        distinct placed
      have missing : (awdlPeersOf hash rest).toMap record.addr = none := by
        refine Option.eq_none_iff_forall_ne_some.mpr fun peer stored => fresh ?_
        obtain ⟨member, same⟩ := (known _ _).mp stored
        exact List.mem_map.mpr ⟨peer, member, same⟩
      obtain ⟨after, stored⟩ := awdlPeersWith_spec wf (own record List.mem_cons_self) missing place
      refine ⟨after, fun addr peer => ?_⟩
      rw [awdlPeersOf_cons, stored, List.mem_cons, or_and_right]
      by_cases same : addr = record.addr
      · subst same
        rw [Function.update_self, ← known, missing, or_iff_left nofun]
        constructor
        · rintro ⟨⟩
          exact ⟨rfl, rfl⟩
        · rintro ⟨rfl, _⟩
          rfl
      · rw [Function.update_of_ne same, known]
        refine (or_iff_right ?_).symm
        rintro ⟨rfl, found⟩
        exact same found.symm

/-! ## The operations on the map -/

/-- The record that `awdl_peer_add` stores for a new address. -/
def freshPeer (memory : AwdlPeer) (addr : EtherAddr) (now : UInt64) : AwdlPeer :=
  { awdlPeerNew memory addr with lastUpdate := now }

/-- The record that `awdl_peer_add` leaves for a known address. -/
def touchedPeer (peer : AwdlPeer) (now : UInt64) : AwdlPeer :=
  { peer with
    lastUpdate := now
    isValid := peer.isValid || awdlPeerIsValid peer }

theorem turnValid_fst (cb : Bool) (peer : AwdlPeer) :
    (turnValid cb peer).1 = { peer with isValid := peer.isValid || awdlPeerIsValid peer } := by
  obtain ⟨_, _, _, _, _, _, _, _, _, _, _, _, valid⟩ := peer
  cases valid
  · cases complete : awdlPeerIsValid _
    · simp only [turnValid, complete, Bool.and_false, Bool.false_eq_true, ↓reduceIte, Bool.or_self]
    · simp only [turnValid, complete, Bool.not_false, Bool.and_self, ↓reduceIte, Bool.or_true]
  · simp only [turnValid, Bool.not_true, Bool.false_and, Bool.false_eq_true, ↓reduceIte,
      Bool.true_or]

/-- A new record is not valid, so nothing is reported for it. -/
theorem turnValid_freshPeer (cb : Bool) (memory : AwdlPeer) (addr : EtherAddr) (now : UInt64) :
    turnValid cb (freshPeer memory addr now) = (freshPeer memory addr now, []) := rfl

/-- The event that marks a record as turned valid. -/
def addEvents (cb : Bool) (peer : AwdlPeer) (now : UInt64) : List Callback :=
  (turnValid cb { peer with lastUpdate := now }).2

theorem awdlPeerGet_eq {peers : AwdlPeers} (wf : peers.Wf hash) (addr : EtherAddr) :
    awdlPeerGet hash peers addr =
      (if (peers.toMap addr).isSome then .ok else .missing, peers.toMap addr) := by
  cases stored : peers.toMap addr with
  | none =>
      simp only [awdlPeerGet, hashmapGet_of_none wf stored, Option.isSome_none,
        Bool.false_eq_true, ↓reduceIte]
  | some peer =>
      simp only [awdlPeerGet, hashmapGet_of_some wf stored, Option.isSome_some, ↓reduceIte]

/-- Adding a known address refreshes its record. -/
theorem awdlPeerAdd_known {peers : AwdlPeers} (wf : peers.Wf hash) (env : PeerEnv)
    {addr : EtherAddr} {peer : AwdlPeer} (stored : peers.toMap addr = some peer) (now : UInt64)
    (cb : Bool) :
    ∃ next, awdlPeerAdd hash env peers addr now cb =
        some (.update, next, addEvents cb peer now) ∧
      next.Wf hash ∧
      next.toMap = Function.update peers.toMap addr (some (touchedPeer peer now)) := by
  have written := hashmapStore_of_some wf stored (turnValid cb { peer with lastUpdate := now }).1
  refine ⟨_, ?_, written.1, ?_⟩
  · simp only [awdlPeerAdd, hashmapGet_of_some wf stored, addEvents]
  · rw [written.2, turnValid_fst]
    rfl

/-- Adding a new address stores a fresh record, or fails for lack of memory. -/
theorem awdlPeerAdd_new {peers next : AwdlPeers} (wf : peers.Wf hash) {env : PeerEnv}
    {addr : EtherAddr} (missing : peers.toMap addr = none) {now : UInt64} {cb : Bool}
    {status : PeersStatus} {events : List Callback}
    (done : awdlPeerAdd hash env peers addr now cb = some (status, next, events)) :
    next.Wf hash ∧ events = [] ∧
      (status = .ok ∧
          next.toMap = Function.update peers.toMap addr (some (freshPeer env.memory addr now)) ∨
        status = .internal ∧ (∃ length, env.calloc length = false) ∧
          ∀ query found, next.toMap query = some found → peers.toMap query = some found) := by
  simp only [awdlPeerAdd, hashmapGet_of_none wf missing] at done
  split at done
  · cases done
  · rename_i mapStatus table put
    obtain ⟨tableWf, outcome⟩ := hashmapPut_correct env.calloc env.fuel peers addr
      (freshPeer env.memory addr now) mapStatus table wf missing put
    rcases outcome with ⟨rfl, inserted⟩ | ⟨rfl, part⟩
    · simp only [ne_eq, not_true_eq_false, ↓reduceIte, Option.some.injEq, Prod.mk.injEq] at done
      obtain ⟨rfl, rfl, rfl⟩ := done
      have stored : table.toMap addr = some (freshPeer env.memory addr now) := by
        rw [inserted, Function.update_self]
      have written := hashmapStore_of_some tableWf stored
        (turnValid cb (freshPeer env.memory addr now)).1
      refine ⟨written.1, rfl, Or.inl ⟨rfl, ?_⟩⟩
      rw [turnValid_freshPeer, inserted, Function.update_idem] at written
      exact written.2
    · simp only [ne_eq, reduceCtorEq, not_false_eq_true, ↓reduceIte, Option.some.injEq,
        Prod.mk.injEq] at done
      obtain ⟨rfl, rfl, rfl⟩ := done
      refine ⟨tableWf, rfl, Or.inr ⟨rfl, ?_, part⟩⟩
      by_contra allocates
      simp only [not_exists, Bool.not_eq_false] at allocates
      cases hashmapPut_ok allocates put

/-- **What adding a peer does to the map**, for known and new addresses. -/
theorem awdlPeerAdd_cases {peers next : AwdlPeers} (wf : peers.Wf hash) {env : PeerEnv}
    {addr : EtherAddr} {now : UInt64} {cb : Bool} {status : PeersStatus} {events : List Callback}
    (done : awdlPeerAdd hash env peers addr now cb = some (status, next, events)) :
    next.Wf hash ∧
      ((∃ peer, peers.toMap addr = some peer ∧ status = .update ∧
          events = addEvents cb peer now ∧
          next.toMap = Function.update peers.toMap addr (some (touchedPeer peer now))) ∨
        (peers.toMap addr = none ∧ status = .ok ∧ events = [] ∧
          next.toMap = Function.update peers.toMap addr (some (freshPeer env.memory addr now))) ∨
        (peers.toMap addr = none ∧ status = .internal ∧ events = [] ∧
          (∃ length, env.calloc length = false) ∧
          ∀ query found, next.toMap query = some found → peers.toMap query = some found)) := by
  cases stored : peers.toMap addr with
  | some peer =>
      obtain ⟨table, returned, tableWf, updated⟩ := awdlPeerAdd_known wf env stored now cb
      rw [returned] at done
      cases done
      exact ⟨tableWf, Or.inl ⟨peer, rfl, rfl, rfl, updated⟩⟩
  | none =>
      obtain ⟨tableWf, quiet, outcome⟩ := awdlPeerAdd_new wf stored done
      refine ⟨tableWf, Or.inr (outcome.imp ?_ ?_)⟩
      · rintro ⟨added, inserted⟩
        exact ⟨rfl, added, quiet, inserted⟩
      · rintro ⟨failed, exhausted, part⟩
        exact ⟨rfl, failed, quiet, exhausted, part⟩

theorem AwdlPeersWf.add {peers next : AwdlPeers} (wf : AwdlPeersWf hash peers) {env : PeerEnv}
    {addr : EtherAddr} {now : UInt64} {cb : Bool} {status : PeersStatus} {events : List Callback}
    (done : awdlPeerAdd hash env peers addr now cb = some (status, next, events)) :
    AwdlPeersWf hash next := by
  obtain ⟨table, ⟨peer, stored, _, _, updated⟩ | ⟨_, _, _, updated⟩ | ⟨_, _, _, _, part⟩⟩ :=
    awdlPeerAdd_cases wf.table done
  · have own : (touchedPeer peer now).KeyedBy addr :=
      ⟨(wf.keyed addr peer stored).addr_eq, (wf.keyed addr peer stored).selfAddr_eq⟩
    exact wf.update table own updated
  · have own : (freshPeer env.memory addr now).KeyedBy addr := ⟨rfl, rfl⟩
    exact wf.update table own updated
  · exact wf.submap table part

/-- **A successful add is found again**: the table then has the address. -/
theorem awdlPeerGet_of_add {peers next : AwdlPeers} (wf : peers.Wf hash) {env : PeerEnv}
    {addr : EtherAddr} {now : UInt64} {cb : Bool} {status : PeersStatus} {events : List Callback}
    (done : awdlPeerAdd hash env peers addr now cb = some (status, next, events))
    (success : 0 ≤ status.code) : ∃ peer, awdlPeerGet hash next addr = (.ok, some peer) ∧
      next.toMap addr = some peer := by
  obtain ⟨table, outcome⟩ := awdlPeerAdd_cases wf done
  have stored : ∃ peer, next.toMap addr = some peer := by
    rcases outcome with ⟨peer, _, _, _, updated⟩ | ⟨_, _, _, updated⟩ | ⟨_, rfl, _⟩
    · exact ⟨_, by rw [updated, Function.update_self]⟩
    · exact ⟨_, by rw [updated, Function.update_self]⟩
    · exact absurd success (by decide)
  obtain ⟨peer, present⟩ := stored
  refine ⟨peer, ?_, present⟩
  rw [awdlPeerGet_eq table, present, Option.isSome_some, if_pos rfl]

/-- Removing an address. -/
theorem awdlPeerRemove_spec {peers : AwdlPeers} (wf : peers.Wf hash) (addr : EtherAddr)
    (cb : Bool) :
    (awdlPeerRemove hash peers addr cb).1 =
        (if (peers.toMap addr).isSome then .ok else .missing) ∧
      (awdlPeerRemove hash peers addr cb).2.1.Wf hash ∧
      (awdlPeerRemove hash peers addr cb).2.1.toMap = Function.update peers.toMap addr none ∧
      (awdlPeerRemove hash peers addr cb).2.2 =
        ((peers.toMap addr).filter fun peer => peer.isValid && cb).toList.map .peerRemove := by
  cases stored : peers.toMap addr with
  | none =>
      simp only [awdlPeerRemove, hashmapGet_of_none wf stored]
      refine ⟨rfl, wf, ?_, rfl⟩
      rw [← stored, Function.update_eq_self]
  | some peer =>
      obtain ⟨rest, found, restWf, removed⟩ := hashmapGet_remove wf stored
      simp only [awdlPeerRemove, found]
      refine ⟨rfl, restWf, removed, ?_⟩
      rw [Option.filter_some]
      split <;> rfl

/-- The sweep by age keeps exactly the records that are not older than the cut-off. -/
theorem awdlPeersRemove_spec {peers : AwdlPeers} (wf : peers.Wf hash) (before : UInt64)
    (cb : Bool) :
    (awdlPeersRemove peers before cb).1.Wf hash ∧
      ∀ addr, (awdlPeersRemove peers before cb).1.toMap addr =
        (peers.toMap addr).filter fun peer => !decide (peer.lastUpdate < before) := by
  obtain ⟨_, table, tableWf⟩ := hashmapIterate_eq (removeBefore before cb) wf ([] : List Callback)
  refine ⟨tableWf, fun addr => ?_⟩
  have swept := Slots.toMap_sweep (removeBefore before cb) wf.distinct
    (fun _ peer => decide (peer.lastUpdate < before))
    (by
      intro events addr peer
      by_cases old : peer.lastUpdate < before <;>
        simp only [removeBefore, old, ↓reduceIte, decide_true, decide_false])
    ([] : List Callback) addr
  rw [← table] at swept
  exact swept

/-! ## Sequences of operations -/

/-- The operations on a peer table. An iteration removes the current record
through the iterator when `drop` says so, given the records visited before; a
`write` is a change that a caller makes through a record pointer. -/
inductive PeerOp
  | add (addr : EtherAddr) (now : UInt64) (cb : Bool)
  | remove (addr : EtherAddr) (cb : Bool)
  | get (addr : EtherAddr)
  | removeBefore (before : UInt64) (cb : Bool)
  | iterate (drop : List AwdlPeer → AwdlPeer → Bool)
  | write (addr : EtherAddr) (change : AwdlPeer → AwdlPeer)

/-- What an operation returns. -/
inductive PeerResult
  | added (status : PeersStatus)
  | removed (status : PeersStatus) (events : List Callback)
  | found (status : PeersStatus) (peer : Option AwdlPeer)
  | visited (peers : List AwdlPeer)
  | done

/-- The body of an iteration that collects the records it visits. -/
def visitRecord (drop : List AwdlPeer → AwdlPeer → Bool) (seen : List AwdlPeer) (_ : EtherAddr)
    (peer : AwdlPeer) : List AwdlPeer × Bool :=
  (seen ++ [peer], drop seen peer)

variable (hash) in
/-- One operation on the table, with successful allocations and a put that returns. -/
def TableStep (peers : AwdlPeers) (op : PeerOp) (result : PeerResult) (next : AwdlPeers) : Prop :=
  match op with
  | .add addr now cb => ∃ env status events, (∀ length, env.calloc length = true) ∧
      awdlPeerAdd hash env peers addr now cb = some (status, next, events) ∧
      result = .added status
  | .remove addr cb => ∃ status events,
      awdlPeerRemove hash peers addr cb = (status, next, events) ∧
      result = .removed status events
  | .get addr => ∃ status peer, awdlPeerGet hash peers addr = (status, peer) ∧
      result = .found status peer ∧ next = peers
  | .removeBefore before cb => (awdlPeersRemove peers before cb).1 = next ∧ result = .done
  | .iterate drop => ∃ records, hashmapIterate (visitRecord drop) peers [] = (records, next) ∧
      result = .visited records
  | .write addr change => (∀ peer, peer.KeyedBy addr → (change peer).KeyedBy addr) ∧
      result = .done ∧
      next = match (awdlPeerGet hash peers addr).2 with
        | some peer => hashmapStore hash peers addr (change peer)
        | none => peers

/-- One operation on a finite map from addresses to records. -/
def MapStep (map : EtherAddr → Option AwdlPeer) (op : PeerOp) (result : PeerResult)
    (next : EtherAddr → Option AwdlPeer) : Prop :=
  match op with
  | .add addr now _ =>
      (∃ peer, map addr = some peer ∧ result = .added .update ∧
        next = Function.update map addr (some (touchedPeer peer now))) ∨
      (map addr = none ∧ result = .added .ok ∧
        ∃ memory, next = Function.update map addr (some (freshPeer memory addr now)))
  | .remove addr cb =>
      result = .removed (if (map addr).isSome then .ok else .missing)
        (((map addr).filter fun peer => peer.isValid && cb).toList.map .peerRemove) ∧
      next = Function.update map addr none
  | .get addr =>
      result = .found (if (map addr).isSome then .ok else .missing) (map addr) ∧ next = map
  | .removeBefore before _ => result = .done ∧
      next = fun addr => (map addr).filter fun peer => !decide (peer.lastUpdate < before)
  | .iterate drop => ∃ entries : List (EtherAddr × AwdlPeer),
      (entries.map Prod.fst).Nodup ∧
      (∀ addr peer, (addr, peer) ∈ entries ↔ map addr = some peer) ∧
      result = .visited (entries.map Prod.snd) ∧
      ∀ addr peer, next addr = some peer ↔
        (addr, peer) ∈ Slots.survivors (visitRecord drop) entries []
  | .write addr change => result = .done ∧
      next = match map addr with
        | some peer => Function.update map addr (some (change peer))
        | none => map

/-- A visiting iteration collects the records in order. -/
theorem foldl_visitRecord (drop : List AwdlPeer → AwdlPeer → Bool)
    (entries : List (EtherAddr × AwdlPeer)) (seen : List AwdlPeer) :
    entries.foldl (fun seen entry => (visitRecord drop seen entry.1 entry.2).1) seen =
      seen ++ entries.map Prod.snd := by
  induction entries generalizing seen with
  | nil => simp only [List.foldl_nil, List.map_nil, List.append_nil]
  | cons entry rest ih =>
      rw [List.foldl_cons, ih]
      simp only [visitRecord, List.append_assoc, List.singleton_append, List.map_cons]

/-- Every operation on a well-formed table keeps it well-formed and is the
operation on its map. -/
theorem tableStep_refines {peers next : AwdlPeers} {op : PeerOp} {result : PeerResult}
    (wf : AwdlPeersWf hash peers) (step : TableStep hash peers op result next) :
    AwdlPeersWf hash next ∧ MapStep peers.toMap op result next.toMap := by
  cases op with
  | add addr now cb =>
      obtain ⟨env, status, events, allocates, done, rfl⟩ := step
      refine ⟨wf.add done, ?_⟩
      obtain ⟨_, ⟨peer, stored, rfl, _, updated⟩ | ⟨missing, rfl, _, updated⟩ |
        ⟨_, _, _, ⟨length, failed⟩, _⟩⟩ := awdlPeerAdd_cases wf.table done
      · exact Or.inl ⟨peer, stored, rfl, updated⟩
      · exact Or.inr ⟨missing, rfl, env.memory, updated⟩
      · rw [allocates length] at failed
        cases failed
  | remove addr cb =>
      obtain ⟨status, events, done, rfl⟩ := step
      obtain ⟨returned, table, removed, reported⟩ := awdlPeerRemove_spec wf.table addr cb
      rw [done] at returned table removed reported
      refine ⟨wf.submap table ?_, congrArg₂ PeerResult.removed returned reported, removed⟩
      intro query peer stored
      rw [removed] at stored
      by_cases same : query = addr
      · subst same
        rw [Function.update_self] at stored
        cases stored
      · rwa [Function.update_of_ne same] at stored
  | get addr =>
      obtain ⟨status, peer, done, rfl, rfl⟩ := step
      rw [awdlPeerGet_eq wf.table addr] at done
      cases done
      exact ⟨wf, rfl, rfl⟩
  | removeBefore before cb =>
      obtain ⟨rfl, rfl⟩ := step
      obtain ⟨table, filtered⟩ := awdlPeersRemove_spec wf.table before cb
      refine ⟨wf.submap table ?_, rfl, funext filtered⟩
      intro addr peer stored
      rw [filtered addr, Option.filter_eq_some_iff] at stored
      exact stored.1
  | iterate drop =>
      obtain ⟨records, done, rfl⟩ := step
      obtain ⟨seen, swept, table⟩ := hashmapIterate_eq (visitRecord drop) wf.table
        ([] : List AwdlPeer)
      rw [done] at seen swept table
      have visited : records = (Slots.entries peers.data).map Prod.snd := by
        rw [Slots.sweep_fst, foldl_visitRecord, List.nil_append] at seen
        exact seen
      have kept : ∀ addr peer, next.toMap addr = some peer ↔ (addr, peer) ∈
          Slots.survivors (visitRecord drop) (Slots.entries peers.data) [] := by
        intro addr peer
        rw [HashmapMap.toMap, Slots.toMap_eq_some_iff table.distinct, swept, Slots.entries_sweep]
      have whole : ∀ addr peer, (addr, peer) ∈ Slots.entries peers.data ↔
          peers.toMap addr = some peer := by
        intro addr peer
        exact (Slots.toMap_eq_some_iff wf.table.distinct).symm
      refine ⟨wf.submap table ?_, Slots.entries peers.data, wf.table.distinct, whole,
        by rw [visited], kept⟩
      intro addr peer stored
      exact (whole addr peer).mp
        ((Slots.survivors_sublist _ _ _).subset ((kept addr peer).mp stored))
  | write addr change =>
      obtain ⟨keeps, rfl, rfl⟩ := step
      rw [awdlPeerGet_eq wf.table addr]
      cases stored : peers.toMap addr with
      | none =>
          refine ⟨wf, rfl, ?_⟩
          simp only [stored]
      | some peer =>
          obtain ⟨table, updated⟩ := hashmapStore_of_some wf.table stored (change peer)
          refine ⟨wf.update table (keeps peer (wf.keyed addr peer stored)) updated, rfl, ?_⟩
          simp only [stored, updated]

/-- **The peer table refines a finite map.** Every sequence of operations from
the empty table is a sequence on the map it denotes, with the same results; the
length is the number of addresses of the map, a record is found under its own
address, and an address that has just been added is found. -/
theorem awdlPeers_refine_map (hash : EtherAddr → UInt64) {trace : List (PeerOp × PeerResult)}
    {peers : AwdlPeers} (run : Run (TableStep hash) awdlPeersInit trace peers) :
    Run MapStep (fun _ => none) trace peers.toMap ∧
      awdlPeersLength peers = {addr | (peers.toMap addr).isSome}.ncard ∧
      (∀ addr peer, peers.toMap addr = some peer → peer.addr = addr) ∧
      ∀ env addr now cb status next events,
        awdlPeerAdd hash env peers addr now cb = some (status, next, events) →
        0 ≤ status.code → (awdlPeerGet hash next addr).1 = .ok := by
  have simulated : AwdlPeersWf hash peers ∧ Run MapStep awdlPeersInit.toMap trace peers.toMap :=
    run.simulate HashmapMap.toMap (AwdlPeersWf hash) awdlPeersInit_wf
      (fun peers op result next wf step => tableStep_refines wf step)
  obtain ⟨wf, abstractRun⟩ := simulated
  have empty : awdlPeersInit.toMap = fun _ => none := funext toMap_hashmapNew
  rw [empty] at abstractRun
  refine ⟨abstractRun, wf.table.ncard_support.symm,
    fun addr peer stored => (wf.keyed addr peer stored).addr_eq, ?_⟩
  intro env addr now cb status next events done success
  obtain ⟨peer, found, _⟩ := awdlPeerGet_of_add wf.table done success
  rw [found]

/-- Two addresses of one hash. -/
def nearAddr : EtherAddr := ⟨2, 0, 0, 0, 0, 2⟩

def farAddr : EtherAddr := ⟨2, 0, 0, 0, 0, 3⟩

/-- The record of an address that has been added twice. -/
def nearPeer : AwdlPeer := touchedPeer (freshPeer default nearAddr 5) 7

/-- Two colliding addresses are added and one of them again, an iteration removes the other
one, which is then added anew, and the first one is removed. -/
def sampleOps : List (PeerOp × PeerResult) :=
  [(.get farAddr, .found .ok (some (freshPeer default farAddr 8))),
    (.remove nearAddr true, .removed .ok []),
    (.add farAddr 8 true, .added .ok),
    (.iterate fun seen _ => !seen.isEmpty, .visited [nearPeer, freshPeer default farAddr 6]),
    (.add nearAddr 7 true, .added .update),
    (.add farAddr 6 true, .added .ok),
    (.add nearAddr 5 true, .added .ok)]

theorem awdlPeers_refine_map_colliding :
    ∃ peers, Run (TableStep fun _ => 0) awdlPeersInit sampleOps peers ∧
      Run MapStep (fun _ => none) sampleOps peers.toMap ∧
      awdlPeersLength peers = 1 ∧ {addr | (peers.toMap addr).isSome}.ncard = 1 := by
  let table := awdlPeersOf fun _ => 0
  let last : AwdlPeers :=
    ⟨awdlPeersInit.data.set 1 (some (farAddr, freshPeer default farAddr 8)), 1⟩
  have add : ∀ {peers next : AwdlPeers} {addr : EtherAddr} {now : UInt64} {status : PeersStatus},
      awdlPeerAdd (fun _ => 0) ⟨fun _ => true, 1, default⟩ peers addr now true =
        some (status, next, []) →
      TableStep (fun _ => 0) peers (.add addr now true) (.added status) next :=
    fun done => ⟨_, _, _, fun _ => rfl, done, rfl⟩
  have first : TableStep (fun _ => 0) awdlPeersInit (.add nearAddr 5 true) (.added .ok)
      (table [freshPeer default nearAddr 5]) := add (by decide +kernel)
  have second : TableStep (fun _ => 0) (table [freshPeer default nearAddr 5])
      (.add farAddr 6 true) (.added .ok)
      (table [freshPeer default farAddr 6, freshPeer default nearAddr 5]) :=
    add (by decide +kernel)
  have again : TableStep (fun _ => 0)
      (table [freshPeer default farAddr 6, freshPeer default nearAddr 5])
      (.add nearAddr 7 true) (.added .update) (table [freshPeer default farAddr 6, nearPeer]) :=
    add (by decide +kernel)
  have swept : TableStep (fun _ => 0) (table [freshPeer default farAddr 6, nearPeer])
      (.iterate fun seen _ => !seen.isEmpty) (.visited [nearPeer, freshPeer default farAddr 6])
      (table [nearPeer]) := ⟨_, by decide +kernel, rfl⟩
  have anew : TableStep (fun _ => 0) (table [nearPeer]) (.add farAddr 8 true) (.added .ok)
      (table [freshPeer default farAddr 8, nearPeer]) := add (by decide +kernel)
  have removed : TableStep (fun _ => 0) (table [freshPeer default farAddr 8, nearPeer])
      (.remove nearAddr true) (.removed .ok []) last := ⟨_, _, by decide +kernel, rfl⟩
  have got : TableStep (fun _ => 0) last (.get farAddr)
      (.found .ok (some (freshPeer default farAddr 8))) last := ⟨_, _, by decide +kernel, rfl, rfl⟩
  have run : Run (TableStep fun _ => 0) awdlPeersInit sampleOps last :=
    ((((((Run.nil.cons first).cons second).cons again).cons swept).cons anew).cons removed).cons
      got
  obtain ⟨abstractRun, length, _⟩ := awdlPeers_refine_map (fun _ => 0) run
  exact ⟨last, run, abstractRun, rfl, length.symm⟩

end Owl
