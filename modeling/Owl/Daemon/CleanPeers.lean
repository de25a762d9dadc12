import Owl.Daemon.Neighbors

/-! # The sweep of the peer table

`awdl_clean_peers` compares the age of a peer with the cut-off `now - timeout`,
which wraps around for a clock below the time-out. The sweep removes exactly the
peers that have timed out unless that happens with a peer that is older than the
wrapped cut-off (`awdlCleanPeers_exact_iff`).
-/

namespace Owl

/-- A peer that has not been heard for longer than the time-out. -/
def TimedOut (now : UInt64) (state : AwdlState) (peer : AwdlPeer) : Prop :=
  peer.lastUpdate.toNat + state.peers.timeout.toNat < now.toNat

instance (now : UInt64) (state : AwdlState) (peer : AwdlPeer) :
    Decidable (TimedOut now state peer) :=
  inferInstanceAs (Decidable (_ < _))

/-- A clean-up of a node that leaves `after` and makes the calls `events` has
removed the peers that have timed out, called back once for each of them that was
valid, and kept the others as they were. -/
structure SweepsExactly (hash : EtherAddr → UInt64) (now : UInt64) (before after : AwdlState)
    (events : List Callback) : Prop where
  removed : ∀ addr peer, (awdlPeerGet hash before.peers.peers addr).2 = some peer →
    TimedOut now before peer → awdlPeerGet hash after.peers.peers addr = (.missing, none)
  kept : ∀ addr peer, (awdlPeerGet hash before.peers.peers addr).2 = some peer →
    ¬TimedOut now before peer → awdlPeerGet hash after.peers.peers addr = (.ok, some peer)
  added : ∀ addr, (awdlPeerGet hash before.peers.peers addr).2 = none →
    awdlPeerGet hash after.peers.peers addr = (.missing, none)
  called : ∃ reported : List AwdlPeer, events = reported.map .peerRemove ∧ reported.Nodup ∧
    ∀ peer, peer ∈ reported ↔ peer.isValid = true ∧ TimedOut now before peer ∧
      ∃ addr, (awdlPeerGet hash before.peers.peers addr).2 = some peer

section Cutoff

variable (now : UInt64) (state : AwdlState)

/-- The cut-off separates the peers that have timed out, for a clock beyond the time-out. -/
theorem lt_cutoff_iff (late : state.peers.timeout.toNat ≤ now.toNat) (peer : AwdlPeer) :
    peer.lastUpdate < now - state.peers.timeout ↔ TimedOut now state peer := by
  unfold TimedOut
  have bound := now.toNat_lt
  rw [UInt64.lt_iff_toNat_lt, UInt64.toNat_sub_of_le _ _ (UInt64.le_iff_toNat_le.mpr late)]
  omega

/-- For an earlier clock the cut-off has wrapped. -/
theorem toNat_cutoff (early : now.toNat < state.peers.timeout.toNat) :
    (now - state.peers.timeout).toNat = 2 ^ 64 + now.toNat - state.peers.timeout.toNat := by
  have bound := state.peers.timeout.toNat_lt
  rw [UInt64.toNat_sub]
  omega

/-- No peer has timed out as long as the clock is below the time-out. -/
theorem not_timedOut (early : now.toNat < state.peers.timeout.toNat) (peer : AwdlPeer) :
    ¬TimedOut now state peer := by
  unfold TimedOut
  omega

end Cutoff

theorem survivors_of_stored (now : UInt64) {state : AwdlState} {addr : EtherAddr}
    {peer : AwdlPeer} (stored : state.peers.peers.toMap addr = some peer) :
    survivors now state addr =
      if peer.lastUpdate < now - state.peers.timeout then none else some peer := by
  unfold survivors
  rw [stored, Option.filter_some]
  by_cases old : peer.lastUpdate < now - state.peers.timeout
  · rw [if_pos old, decide_eq_true old]
    rfl
  · rw [if_neg old, decide_eq_false old]
    rfl

section Sweep

variable {hash : EtherAddr → UInt64} {state : DaemonState}
  (wf : AwdlPeersWf hash state.awdlState.peers.peers) (now : UInt64)

include wf

theorem awdlPeerGet_stored (addr : EtherAddr) :
    (awdlPeerGet hash state.awdlState.peers.peers addr).2 =
      state.awdlState.peers.peers.toMap addr := by
  rw [awdlPeerGet_eq wf.table]

/-- What can be found after a clean-up. -/
theorem awdlPeerGet_awdlCleanPeers (addr : EtherAddr) :
    awdlPeerGet hash (awdlCleanPeers now state).1.awdlState.peers.peers addr =
      (if (survivors now state.awdlState addr).isSome then .ok else .missing,
        survivors now state.awdlState addr) := by
  obtain ⟨table, kept⟩ := awdlPeersRemove_spec wf.table
    (now - state.awdlState.peers.timeout) state.awdlState.peerRemoveCb
  have found := awdlPeerGet_eq table addr
  rw [kept addr] at found
  exact found

/-- The calls of a clean-up, each for another record. -/
theorem awdlCleanPeers_events (registered : state.awdlState.peerRemoveCb = true) :
    ∃ reported : List AwdlPeer, (awdlCleanPeers now state).2 = reported.map .peerRemove ∧
      reported.Nodup ∧ ∀ peer, peer ∈ reported ↔ peer.isValid = true ∧
        peer.lastUpdate < now - state.awdlState.peers.timeout ∧
        ∃ addr, state.awdlState.peers.peers.toMap addr = some peer := by
  have stored (addr : EtherAddr) (peer : AwdlPeer) :
      state.awdlState.peers.peers.toMap addr = some peer ↔
        (addr, peer) ∈ Slots.entries state.awdlState.peers.peers.data :=
    Slots.toMap_eq_some_iff wf.table.distinct
  refine ⟨((Slots.entries state.awdlState.peers.peers.data).filter
    (droppedValid (now - state.awdlState.peers.timeout))).map Prod.snd, ?_, ?_, fun peer => ?_⟩
  · unfold awdlCleanPeers
    dsimp only
    rw [registered, awdlPeersRemove_events wf.table, List.map_map]
    rfl
  · have keyed : (((Slots.entries state.awdlState.peers.peers.data).filter
        (droppedValid (now - state.awdlState.peers.timeout))).map Prod.snd).map AwdlPeer.addr =
        ((Slots.entries state.awdlState.peers.peers.data).filter
          (droppedValid (now - state.awdlState.peers.timeout))).map Prod.fst := by
      rw [List.map_map]
      refine List.map_congr_left fun entry member => ?_
      exact (wf.keyed entry.1 entry.2
        ((stored entry.1 entry.2).mpr (List.mem_filter.mp member).1)).addr_eq
    refine List.Nodup.of_map AwdlPeer.addr ?_
    rw [keyed]
    exact List.Nodup.sublist (List.filter_sublist.map _) wf.table.distinct
  · rw [List.mem_map]
    constructor
    · rintro ⟨entry, member, rfl⟩
      obtain ⟨inside, dropped⟩ := List.mem_filter.mp member
      obtain ⟨old, valid⟩ := Bool.and_eq_true_iff.mp dropped
      exact ⟨valid, of_decide_eq_true old, entry.1, (stored entry.1 entry.2).mpr inside⟩
    · rintro ⟨valid, old, addr, found⟩
      refine ⟨(addr, peer), List.mem_filter.mpr ⟨(stored addr peer).mp found, ?_⟩, rfl⟩
      exact Bool.and_eq_true_iff.mpr ⟨decide_eq_true old, valid⟩

/-- A clean-up is exact if the cut-off separates the stored peers as the time-out does. -/
theorem sweepsExactly_iff (registered : state.awdlState.peerRemoveCb = true) :
    SweepsExactly hash now state.awdlState (awdlCleanPeers now state).1.awdlState
        (awdlCleanPeers now state).2 ↔
      ∀ addr peer, state.awdlState.peers.peers.toMap addr = some peer →
        (peer.lastUpdate < now - state.awdlState.peers.timeout ↔
          TimedOut now state.awdlState peer) := by
  constructor
  · intro exact addr peer stored
    have found := (awdlPeerGet_stored wf addr).trans stored
    have after := awdlPeerGet_awdlCleanPeers wf now addr
    rw [survivors_of_stored now stored] at after
    by_cases old : peer.lastUpdate < now - state.awdlState.peers.timeout
    · rw [if_pos old] at after
      refine iff_of_true old ?_
      by_contra alive
      cases after.symm.trans (exact.kept addr peer found alive)
    · rw [if_neg old] at after
      refine iff_of_false old fun timedOut => ?_
      cases after.symm.trans (exact.removed addr peer found timedOut)
  · intro separates
    refine ⟨fun addr peer found timedOut => ?_, fun addr peer found alive => ?_,
      fun addr missing => ?_, ?_⟩
    · rw [awdlPeerGet_stored wf] at found
      rw [awdlPeerGet_awdlCleanPeers wf, survivors_of_stored now found,
        if_pos ((separates addr peer found).mpr timedOut)]
      rfl
    · rw [awdlPeerGet_stored wf] at found
      rw [awdlPeerGet_awdlCleanPeers wf, survivors_of_stored now found,
        if_neg fun old => alive ((separates addr peer found).mp old)]
      rfl
    · rw [awdlPeerGet_stored wf] at missing
      rw [awdlPeerGet_awdlCleanPeers wf, survivors_eq_none missing]
      rfl
    · obtain ⟨reported, calls, nodup, member⟩ := awdlCleanPeers_events wf now registered
      refine ⟨reported, calls, nodup, fun peer => ?_⟩
      rw [member]
      simp only [awdlPeerGet_stored wf]
      refine and_congr_right fun _ => ⟨?_, ?_⟩
      · rintro ⟨old, addr, found⟩
        exact ⟨(separates addr peer found).mp old, addr, found⟩
      · rintro ⟨timedOut, addr, found⟩
        exact ⟨(separates addr peer found).mpr timedOut, addr, found⟩

end Sweep

/-- **When the sweep is exact.** A clean-up removes exactly the peers that have
timed out if the clock has reached the time-out, or if every peer is younger than
the cut-off that wraps around. -/
theorem awdlCleanPeers_exact_iff (hash : EtherAddr → UInt64) (state : DaemonState) (now : UInt64)
    (wf : AwdlPeersWf hash state.awdlState.peers.peers)
    (registered : state.awdlState.peerRemoveCb = true) :
    SweepsExactly hash now state.awdlState (awdlCleanPeers now state).1.awdlState
        (awdlCleanPeers now state).2 ↔
      state.awdlState.peers.timeout.toNat ≤ now.toNat ∨
        ∀ addr peer, (awdlPeerGet hash state.awdlState.peers.peers addr).2 = some peer →
          2 ^ 64 + now.toNat - state.awdlState.peers.timeout.toNat ≤ peer.lastUpdate.toNat := by
  rw [sweepsExactly_iff wf now registered]
  simp only [awdlPeerGet_stored wf]
  rcases Nat.lt_or_ge now.toNat state.awdlState.peers.timeout.toNat with early | late
  · have cutoff := toNat_cutoff now state.awdlState early
    have alive := not_timedOut now state.awdlState early
    constructor
    · intro separates
      refine Or.inr fun addr peer stored => ?_
      have young : ¬peer.lastUpdate < now - state.awdlState.peers.timeout := fun old =>
        alive peer ((separates addr peer stored).mp old)
      rw [UInt64.lt_iff_toNat_lt, cutoff] at young
      exact Nat.le_of_not_lt young
    · rintro (late | young) addr peer stored
      · exact absurd late (Nat.not_le.mpr early)
      · refine iff_of_false ?_ (alive peer)
        rw [UInt64.lt_iff_toNat_lt, cutoff]
        exact Nat.not_lt.mpr (young addr peer stored)
  · exact iff_of_true (fun _ peer _ => lt_cutoff_iff now state.awdlState late peer) (Or.inl late)

/-- A valid peer that was last heard at a time. -/
def sampleHeard (addr : EtherAddr) (time : UInt64) : AwdlPeer :=
  { freshPeer default addr time with isValid := true }

/-- A peer that has not been heard for long, and one heard later. -/
def agingPeers : List AwdlPeer :=
  [sampleHeard ⟨2, 0, 0, 0, 0, 3⟩ 2500000, sampleHeard ⟨2, 0, 0, 0, 0, 2⟩ 500000]

/-- A daemon that knows the two. -/
def sampleAging : DaemonState :=
  { sampleDaemon with
    awdlState.peers.peers := awdlPeersOf samplePlatform.hash agingPeers }

/-- After two and a half seconds a valid peer is removed, and the other one is kept. -/
theorem awdlCleanPeers_exact_aging :
    SweepsExactly samplePlatform.hash 3000000 sampleAging.awdlState
        (awdlCleanPeers 3000000 sampleAging).1.awdlState (awdlCleanPeers 3000000 sampleAging).2 ∧
      (awdlCleanPeers 3000000 sampleAging).2 =
        [.peerRemove (sampleHeard ⟨2, 0, 0, 0, 0, 2⟩ 500000)] ∧
      (awdlCleanPeers 3000000 sampleAging).1.awdlState.peers.peers.size = 1 := by
  obtain ⟨wf, _⟩ := @awdlPeersOf_spec samplePlatform.hash agingPeers (by decide) (by decide)
    (by decide +kernel)
  have known : sampleAging.awdlState.peers.peers = awdlPeersOf samplePlatform.hash agingPeers := by
    dsimp only [sampleAging]
  rw [← known] at wf
  refine ⟨?_, by decide +kernel, by decide +kernel⟩
  exact (awdlCleanPeers_exact_iff samplePlatform.hash sampleAging 3000000 wf rfl).mpr
    (Or.inl (by decide))

/-- A daemon that has just heard a peer, one second after boot. -/
def sampleHearing : DaemonState :=
  { sampleDaemon with
    awdlState.peers.peers :=
      awdlPeersSingle samplePlatform.hash (freshPeer default ⟨2, 0, 0, 0, 0, 2⟩ 999999) }

/-- One second after boot the peer is removed at once. -/
theorem awdlCleanPeers_early :
    ¬SweepsExactly samplePlatform.hash 1000000 sampleHearing.awdlState
      (awdlCleanPeers 1000000 sampleHearing).1.awdlState
      (awdlCleanPeers 1000000 sampleHearing).2 := by
  have wf : AwdlPeersWf samplePlatform.hash sampleHearing.awdlState.peers.peers :=
    awdlPeersSingle_wf _ rfl
  have stored : sampleHearing.awdlState.peers.peers.toMap ⟨2, 0, 0, 0, 0, 2⟩ =
      some (freshPeer default ⟨2, 0, 0, 0, 0, 2⟩ 999999) := by
    refine (congrFun (awdlPeersSingle_spec _).2 _).trans ?_
    exact Function.update_self ..
  rw [sweepsExactly_iff wf 1000000 rfl]
  intro separates
  exact absurd ((separates _ _ stored).mp (by decide)) (by decide)

end Owl
