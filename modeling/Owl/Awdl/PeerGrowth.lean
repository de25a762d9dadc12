import Owl.Awdl.PeerMap
import Owl.Hashmap.Growth

/-! # Growth of the peer table

A failed `awdl_peer_add` keeps all peers whatever allocations fail, if and only if
every stored address finds a slot in each array that the add asks for
(`failedAddKeeps_iff`): the array is exchanged before the records have moved to it.
The growth of a table ends when the hashes of its addresses have become distinct
(`hashmapPut_terminates`).
-/

namespace Owl

open Transition

variable {hash : EtherAddr → UInt64} {peers : AwdlPeers} {addr : EtherAddr}

variable (hash) in
/-- One operation on the table, whatever allocations fail in it. -/
def PeersStep (peers : AwdlPeers) (op : PeerOp) (result : PeerResult) (next : AwdlPeers) : Prop :=
  TableStep hash peers op result next ∨
    ∃ addr now cb env status events, op = .add addr now cb ∧ result = .added status ∧
      awdlPeerAdd hash env peers addr now cb = some (status, next, events)

variable (hash) in
/-- The tables that the operations lead to. -/
def PeersReachable (peers : AwdlPeers) : Prop :=
  ∃ trace, Run (PeersStep hash) awdlPeersInit trace peers

theorem PeersReachable.wf (reached : PeersReachable hash peers) : AwdlPeersWf hash peers := by
  obtain ⟨trace, run⟩ := reached
  refine run.invariant (AwdlPeersWf hash) awdlPeersInit_wf ?_
  rintro state op result next wf (step | ⟨addr, now, cb, env, status, events, _, _, done⟩)
  · exact (tableStep_refines wf step).1
  · exact wf.add done

theorem PeersReachable.add (reached : PeersReachable hash peers) {next : AwdlPeers} {env : PeerEnv}
    {now : UInt64} {cb : Bool} {status : PeersStatus} {events : List Callback}
    (done : awdlPeerAdd hash env peers addr now cb = some (status, next, events)) :
    PeersReachable hash next := by
  obtain ⟨trace, run⟩ := reached
  exact ⟨_, run.cons (Or.inr ⟨addr, now, cb, env, status, events, rfl, rfl, done⟩)⟩

theorem awdlPeerGet_ok_iff (wf : peers.Wf hash) {peer : AwdlPeer} :
    awdlPeerGet hash peers addr = (.ok, some peer) ↔ peers.toMap addr = some peer := by
  rw [awdlPeerGet_eq wf]
  constructor
  · intro found
    exact (Prod.mk.inj found).2
  · intro stored
    rw [stored, Option.isSome_some, if_pos rfl]

theorem awdlPeerGet_found_iff (wf : peers.Wf hash) :
    (awdlPeerGet hash peers addr).1 = .ok ↔ (peers.toMap addr).isSome := by
  rw [awdlPeerGet_eq wf]
  by_cases stored : (peers.toMap addr).isSome
  · rw [if_pos stored]
    exact ⟨fun _ => stored, fun _ => rfl⟩
  · rw [if_neg stored]
    refine ⟨?_, fun present => absurd present stored⟩
    intro found
    cases found

theorem awdlPeerGet_missing_iff (wf : peers.Wf hash) :
    (awdlPeerGet hash peers addr).1 = .missing ↔ peers.toMap addr = none := by
  rw [awdlPeerGet_eq wf]
  cases peers.toMap addr with
  | none => exact ⟨fun _ => rfl, fun _ => rfl⟩
  | some peer =>
      constructor
      · intro found
        cases found
      · intro stored
        cases stored

/-! ## Sequences of adds -/

variable (hash) in
/-- Addresses added one after the other, with all the memory they need. -/
def addAll (peers : AwdlPeers) : List EtherAddr → Option AwdlPeers
  | [] => some peers
  | addr :: rest =>
      match awdlPeerAdd hash ⟨fun _ => true, 1, default⟩ peers addr 0 false with
      | none => none
      | some (_, next, _) => addAll next rest

/-- An add brings no other address into the table. -/
theorem awdlPeerAdd_among (wf : peers.Wf hash) {next : AwdlPeers} {env : PeerEnv} {now : UInt64}
    {cb : Bool} {status : PeersStatus} {events : List Callback}
    (done : awdlPeerAdd hash env peers addr now cb = some (status, next, events))
    {query : EtherAddr} (stored : (next.toMap query).isSome) :
    query = addr ∨ (peers.toMap query).isSome := by
  by_cases same : query = addr
  · exact Or.inl same
  · refine Or.inr ?_
    obtain ⟨_, ⟨_, _, _, _, updated⟩ | ⟨_, _, _, updated⟩ | ⟨_, _, _, _, part⟩⟩ :=
      awdlPeerAdd_cases wf done
    · rwa [updated, Function.update_of_ne same] at stored
    · rwa [updated, Function.update_of_ne same] at stored
    · obtain ⟨peer, found⟩ := Option.isSome_iff_exists.mp stored
      rw [part query peer found, Option.isSome_some]

theorem PeersReachable.addAll {addrs : List EtherAddr} {next : AwdlPeers}
    (reached : PeersReachable hash peers) (done : Owl.addAll hash peers addrs = some next) :
    PeersReachable hash next ∧ ∀ addr, (next.toMap addr).isSome →
      addr ∈ addrs ∨ (peers.toMap addr).isSome := by
  induction addrs generalizing peers with
  | nil =>
      cases done
      exact ⟨reached, fun addr stored => Or.inr stored⟩
  | cons addr rest ih =>
      rw [Owl.addAll] at done
      split at done
      · cases done
      · rename_i status middle events added
        obtain ⟨nextReached, among⟩ := ih (reached.add added) done
        refine ⟨nextReached, fun query stored => ?_⟩
        rcases among query stored with later | present
        · exact Or.inl (List.mem_cons_of_mem addr later)
        · rcases awdlPeerAdd_among reached.wf.table added present with rfl | before
          · exact Or.inl List.mem_cons_self
          · exact Or.inr before

/-! ## Failed adds -/

variable (hash) in
/-- A failed add of an address loses no peer. -/
def FailedAddKeeps (peers : AwdlPeers) (addr : EtherAddr) : Prop :=
  ∀ env now cb next events,
    awdlPeerAdd hash env peers addr now cb = some (.internal, next, events) →
      (∀ other peer, awdlPeerGet hash peers other = (.ok, some peer) →
        awdlPeerGet hash next other = (.ok, some peer)) ∧
      awdlPeersLength next = awdlPeersLength peers

/-- An add of a new address fails when its put does. -/
theorem awdlPeerAdd_internal_iff (wf : peers.Wf hash) (missing : peers.toMap addr = none)
    {env : PeerEnv} {now : UInt64} {cb : Bool} {next : AwdlPeers} :
    (∃ events, awdlPeerAdd hash env peers addr now cb = some (.internal, next, events)) ↔
      hashmapPut hash env.calloc env.fuel peers addr (freshPeer env.memory addr now) =
        some (.omem, next) := by
  constructor
  · rintro ⟨events, done⟩
    simp only [awdlPeerAdd, hashmapGet_of_none wf missing] at done
    split at done
    · cases done
    · rename_i status table put
      obtain ⟨_, ⟨rfl, _⟩ | ⟨rfl, _⟩⟩ := hashmapPut_correct env.calloc env.fuel peers addr
        (freshPeer env.memory addr now) status table wf missing put
      · cases done
      · cases done
        exact put
  · intro failed
    refine ⟨[], ?_⟩
    simp only [awdlPeerAdd, hashmapGet_of_none wf missing]
    split
    · rename_i put
      cases failed.symm.trans put
    · rename_i status table put
      cases failed.symm.trans put
      rfl

/-- **When a failed add loses no peer**: exactly when every stored address finds a slot
in each array that the add asks for. -/
theorem failedAddKeeps_iff (reached : PeersReachable hash peers)
    (new : (awdlPeerGet hash peers addr).1 = .missing) :
    FailedAddKeeps hash peers addr ↔ Roomy hash addr peers := by
  have wf := reached.wf.table
  have missing := (awdlPeerGet_missing_iff wf).mp new
  constructor
  · intro keeps
    refine (hashmapPut_keeps_iff wf addr (freshPeer default addr 0)).mp ?_
    intro calloc fuel next failed
    obtain ⟨events, done⟩ := (@awdlPeerAdd_internal_iff hash peers addr wf missing
      ⟨calloc, fuel, default⟩ 0 false next).mpr failed
    obtain ⟨found, _⟩ := keeps _ _ _ next events done
    obtain ⟨nextWf, _, ⟨absurdity, _⟩ | ⟨_, _, part⟩⟩ := awdlPeerAdd_new wf missing done
    · cases absurdity
    · funext query
      cases stored : peers.toMap query with
      | some peer =>
          have before := (awdlPeerGet_ok_iff wf).mpr stored
          exact (awdlPeerGet_ok_iff nextWf).mp (found query peer before)
      | none =>
          cases kept : next.toMap query with
          | none => rfl
          | some peer =>
              rw [part query peer kept] at stored
              cases stored
  · intro roomy env now cb next events done
    have failed := (awdlPeerAdd_internal_iff wf missing).mp ⟨events, done⟩
    have same : next.toMap = peers.toMap :=
      (hashmapPut_keeps_iff wf addr _).mpr roomy env.calloc env.fuel next failed
    have nextWf := (awdlPeerAdd_new wf missing done).1
    constructor
    · intro other peer found
      rw [awdlPeerGet_ok_iff nextWf, same]
      exact (awdlPeerGet_ok_iff wf).mp found
    · unfold awdlPeersLength
      rw [← nextWf.ncard_support, ← wf.ncard_support, same]

/-- Addresses that differ in their last octet. -/
def numberedAddrs (count : Nat) : List EtherAddr :=
  (List.range count).map fun number => ⟨2, 0, 0, 0, 0, UInt8.ofNat number⟩

/-- A hash that sends all addresses but one to the eighth last slot of the first array, and
that one to the last slot. -/
def crowdingHash (addr : EtherAddr) : UInt64 := if addr.octet5 = 8 then 255 else 248

/-- A hash that sends all addresses to the first slot of the first array, and apart from
each other in larger ones. -/
def spreadingHash (addr : EtherAddr) : UInt64 := 256 * addr.octet5.toUInt64

/-- Ten addresses of which one is lost: nine have been added, and there is memory for an array
of 512 slots and not for one of 1024. -/
theorem failedAddKeeps_crowded :
    ∃ peers next events, addAll crowdingHash awdlPeersInit (numberedAddrs 9) = some peers ∧
      PeersReachable crowdingHash peers ∧
      (awdlPeerGet crowdingHash peers ⟨2, 0, 0, 0, 0, 9⟩).1 = .missing ∧
      awdlPeerAdd crowdingHash ⟨fun length => decide (length ≤ 512), 2, default⟩ peers
        ⟨2, 0, 0, 0, 0, 9⟩ 0 false = some (.internal, next, events) ∧
      (awdlPeerGet crowdingHash peers ⟨2, 0, 0, 0, 0, 7⟩).1 = .ok ∧
      (awdlPeerGet crowdingHash next ⟨2, 0, 0, 0, 0, 7⟩).1 = .missing ∧
      awdlPeersLength peers = 9 ∧ awdlPeersLength next = 8 ∧
      ¬FailedAddKeeps crowdingHash peers ⟨2, 0, 0, 0, 0, 9⟩ := by
  have evaluated : (addAll crowdingHash awdlPeersInit (numberedAddrs 9)).bind (fun peers =>
      (awdlPeerAdd crowdingHash ⟨fun length => decide (length ≤ 512), 2, default⟩ peers
        ⟨2, 0, 0, 0, 0, 9⟩ 0 false).map fun result =>
          ((awdlPeerGet crowdingHash peers ⟨2, 0, 0, 0, 0, 9⟩).1,
            (awdlPeerGet crowdingHash peers ⟨2, 0, 0, 0, 0, 7⟩).1, awdlPeersLength peers, result.1,
            (awdlPeerGet crowdingHash result.2.1 ⟨2, 0, 0, 0, 0, 7⟩).1,
            awdlPeersLength result.2.1)) =
      some (.missing, .ok, 9, .internal, .missing, 8) := by decide +kernel
  obtain ⟨peers, added, failing⟩ := Option.bind_eq_some_iff.mp evaluated
  obtain ⟨⟨status, next, events⟩, done, facts⟩ := Option.map_eq_some_iff.mp failing
  simp only [Prod.mk.injEq] at facts
  obtain ⟨new, before, nine, rfl, after, eight⟩ := facts
  have start : PeersReachable crowdingHash awdlPeersInit := ⟨[], .nil⟩
  refine ⟨peers, next, events, added, (start.addAll added).1, new, done, before, after, nine,
    eight, ?_⟩
  intro keeps
  have length := (keeps _ _ _ next events done).2
  rw [nine, eight] at length
  cases length

/-- Eight addresses that fill the window of a ninth one. -/
theorem exists_spread :
    ∃ peers table, PeersReachable spreadingHash peers ∧
      (∀ addr, (peers.toMap addr).isSome → addr ∈ numberedAddrs 8) ∧
      (awdlPeerGet spreadingHash peers ⟨2, 0, 0, 0, 0, 8⟩).1 = .missing ∧
      hashmapHash spreadingHash peers ⟨2, 0, 0, 0, 0, 8⟩ = none ∧
      peers.tableSize = 256 ∧ awdlPeersLength peers = 8 ∧
      doubled spreadingHash peers = some table ∧
      hashmapHash spreadingHash table ⟨2, 0, 0, 0, 0, 8⟩ = some 4 := by
  have evaluated : (addAll spreadingHash awdlPeersInit (numberedAddrs 8)).bind (fun peers =>
      (doubled spreadingHash peers).map fun table =>
        ((awdlPeerGet spreadingHash peers ⟨2, 0, 0, 0, 0, 8⟩).1,
          hashmapHash spreadingHash peers ⟨2, 0, 0, 0, 0, 8⟩, peers.tableSize,
          awdlPeersLength peers, hashmapHash spreadingHash table ⟨2, 0, 0, 0, 0, 8⟩)) =
      some (.missing, none, 256, 8, some 4) := by decide +kernel
  obtain ⟨peers, added, larger⟩ := Option.bind_eq_some_iff.mp evaluated
  obtain ⟨table, moved, facts⟩ := Option.map_eq_some_iff.mp larger
  simp only [Prod.mk.injEq] at facts
  obtain ⟨new, full, size, eight, place⟩ := facts
  have start : PeersReachable spreadingHash awdlPeersInit := ⟨[], .nil⟩
  obtain ⟨reached, among⟩ := start.addAll added
  refine ⟨peers, table, reached, ?_, new, full, size, eight, moved, place⟩
  intro addr stored
  rcases among addr stored with added | initial
  · exact added
  · rw [awdlPeersInit, toMap_hashmapNew] at initial
    cases initial

/-- A table that has to grow for the ninth address, and keeps the other eight when it cannot. -/
theorem failedAddKeeps_spread :
    ∃ peers, PeersReachable spreadingHash peers ∧
      hashmapHash spreadingHash peers ⟨2, 0, 0, 0, 0, 8⟩ = none ∧
      FailedAddKeeps spreadingHash peers ⟨2, 0, 0, 0, 0, 8⟩ := by
  obtain ⟨peers, table, reached, _, new, full, _, _, moved, place⟩ := exists_spread
  refine ⟨peers, reached, full, (failedAddKeeps_iff reached new).mpr ?_⟩
  refine Roomy.of_doubled moved ?_
  rw [place]
  exact Option.some_ne_none 4

/-! ## Where growth ends -/

/-- **The growth of the table ends**: when the hashes of the stored addresses and a new
one are distinct modulo a power of two times the table size and fewer than half as many
addresses are stored, the put returns and the table is not larger. -/
theorem hashmapPut_terminates (reached : PeersReachable hash peers)
    (new : (awdlPeerGet hash peers addr).1 = .missing) {doublings : Nat}
    (positive : 1 ≤ doublings)
    (apart : ∀ first second, first = addr ∨ (awdlPeerGet hash peers first).1 = .ok →
      second = addr ∨ (awdlPeerGet hash peers second).1 = .ok →
      (hash first).toNat % (peers.tableSize * 2 ^ doublings) =
        (hash second).toNat % (peers.tableSize * 2 ^ doublings) → first = second)
    (half : 2 * awdlPeersLength peers < peers.tableSize * 2 ^ doublings)
    (bounded : peers.tableSize * 2 ^ doublings ≤ 2 ^ 30) {calloc : Nat → Bool}
    (allocates : ∀ length ≤ 2 ^ 30, calloc length = true) (peer : AwdlPeer) :
    ∃ next, (∀ fuel, doublings < fuel →
        hashmapPut hash calloc fuel peers addr peer = some (.ok, next)) ∧
      next.tableSize ≤ peers.tableSize * 2 ^ doublings := by
  have wf := reached.wf.table
  have missing := (awdlPeerGet_missing_iff wf).mp new
  have even : 2 ∣ peers.tableSize * 2 ^ doublings :=
    Dvd.dvd.mul_left (dvd_pow_self 2 (Nat.ne_of_gt positive)) _
  have settling : Settling hash (insert addr peers.keys) (peers.tableSize * 2 ^ doublings) := by
    constructor
    · have looked : ∀ query ∈ insert addr peers.keys,
          query = addr ∨ (awdlPeerGet hash peers query).1 = .ok := by
        intro query member
        exact (Finset.mem_insert.mp member).imp id fun stored =>
          (awdlPeerGet_found_iff wf).mpr (mem_keys.mp stored)
      intro first firstIn second secondIn same
      exact apart first second (looked first firstIn) (looked second secondIn) same
    · have few := Nat.le_trans (Finset.card_insert_le addr peers.keys)
        (Nat.succ_le_succ (card_keys_le wf))
      unfold awdlPeersLength at half
      omega
  have start := approaching_of_wf wf (Nat.ne_of_gt positive) addr
  obtain ⟨next, fewer, _, way, _, put⟩ := hashmapPut_settles settling
    (fun length below => allocates length (Nat.le_trans below bounded)) doublings peers addr peer
    start (Finset.mem_insert_self addr peers.keys) missing
  refine ⟨next, put, ?_⟩
  rw [← way.length]
  exact Nat.le_mul_of_pos_right _ (Nat.two_pow_pos fewer)

/-- Nine addresses of one home slot, which differ modulo 4096. -/
theorem hashmapPut_terminates_spread :
    ∃ peers, PeersReachable spreadingHash peers ∧
      hashmapHash spreadingHash peers ⟨2, 0, 0, 0, 0, 8⟩ = none ∧
      ∃ next, (∀ fuel, 4 < fuel → hashmapPut spreadingHash (fun _ => true) fuel peers
          ⟨2, 0, 0, 0, 0, 8⟩ default = some (.ok, next)) ∧ next.tableSize ≤ 4096 := by
  obtain ⟨peers, table, reached, among, new, full, size, eight, _⟩ := exists_spread
  have numbered : ∀ query, query = ⟨2, 0, 0, 0, 0, 8⟩ ∨
      (awdlPeerGet spreadingHash peers query).1 = .ok → query ∈ numberedAddrs 9 := by
    rintro query (rfl | found)
    · decide
    · exact List.mem_of_mem_dropLast
        (among query ((awdlPeerGet_found_iff reached.wf.table).mp found))
  have distinct : ∀ first ∈ numberedAddrs 9, ∀ second ∈ numberedAddrs 9,
      (spreadingHash first).toNat % 4096 = (spreadingHash second).toNat % 4096 →
        first = second := by decide +kernel
  have limit : peers.tableSize * 2 ^ 4 = 4096 := by
    rw [size]
    decide
  have terminates := @hashmapPut_terminates spreadingHash peers ⟨2, 0, 0, 0, 0, 8⟩ reached new 4
    (by decide)
    (by
      rw [limit]
      exact fun first second firstIn secondIn => distinct first (numbered first firstIn) second
        (numbered second secondIn))
    (by rw [limit, eight]; decide) (by rw [limit]; decide) (fun _ => true) (fun _ _ => rfl) default
  rw [limit] at terminates
  exact ⟨peers, reached, full, terminates⟩

end Owl
