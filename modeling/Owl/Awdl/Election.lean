import Mathlib.Data.Prod.Lex
import Owl.Awdl.PeerMap

/-! # The election

`awdlElectionRun` resets the own record and goes through the peer table for the
best record to follow. The nested comparisons of its loop are one comparison in
the lexicographic order of top master counter, top master metric, lower height
and higher address (`electStep_eq`), so the run follows a greatest eligible
record, or stays alone when none beats the own one (`awdlElectionRun_cases`).
-/

namespace Owl

variable {hash : EtherAddr → UInt64}

/-- The body of the loop of `awdl_election_run`; `best` is the record that
`master_state` points to, unless it is the own one. -/
def electStep (own : AwdlElectionState) (best : Option AwdlElectionState) (peer : AwdlPeer) :
    Option AwdlElectionState :=
  let peerState := peer.election
  let masterState := best.getD own
  if !peer.isValid then best
  else if peerState.height + 1 > awdlElectionTreeMaxHeight then best
  else if awdlElectionIsSyncMaster peerState own.selfAddr then best
  else
    let cmpMetric := awdlElectionCompareMaster peerState masterState
    if cmpMetric < 0 then best
    else if cmpMetric = 0 then
      if peerState.height > masterState.height then best
      else if peerState.height = masterState.height then
        if compareEtherAddr peerState.selfAddr masterState.selfAddr ≤ 0 then best
        else some peerState
      else some peerState
    else some peerState

/-- The own record after it has adopted a sync master. -/
def adoptMaster (own master : AwdlElectionState) : AwdlElectionState :=
  { own with
    masterAddr := master.masterAddr
    syncAddr := master.selfAddr
    masterMetric := master.masterMetric
    masterCounter := master.masterCounter
    height := master.height + 1 }

/-- `awdl_election_run`. -/
def awdlElectionRun (state : AwdlElectionState) (peers : AwdlPeers) : AwdlElectionState :=
  let own := awdlElectionResetSelf state
  match (hashmapIterate (fun best _ peer => (electStep own best peer, false)) peers none).1 with
  | none => own
  | some master => adoptMaster own master

/-! ## The order of records -/

/-- The rank of a record: top master counter, top master metric, lower height,
higher address. -/
def electionRank (state : AwdlElectionState) : ℕ ×ₗ ℕ ×ₗ ℕᵒᵈ ×ₗ ℕ :=
  toLex (state.masterCounter.toNat, toLex (state.masterMetric.toNat,
    toLex (OrderDual.toDual state.height.toNat, state.selfAddr.toNat)))

/-- A peer that the loop compares at all. -/
def Eligible (self : EtherAddr) (peer : AwdlPeer) : Prop :=
  peer.isValid = true ∧ peer.election.height + 1 ≤ awdlElectionTreeMaxHeight ∧
    peer.election.syncAddr ≠ self

instance (self : EtherAddr) (peer : AwdlPeer) : Decidable (Eligible self peer) :=
  inferInstanceAs (Decidable (_ ∧ _))

theorem electionRank_lt_iff {a b : AwdlElectionState} :
    electionRank a < electionRank b ↔
      a.masterCounter.toNat < b.masterCounter.toNat ∨
      a.masterCounter.toNat = b.masterCounter.toNat ∧
        (a.masterMetric.toNat < b.masterMetric.toNat ∨
        a.masterMetric.toNat = b.masterMetric.toNat ∧
          (b.height.toNat < a.height.toNat ∨
          b.height.toNat = a.height.toNat ∧ a.selfAddr.toNat < b.selfAddr.toNat)) := by
  simp only [electionRank, Prod.Lex.toLex_lt_toLex, OrderDual.toDual_lt_toDual,
    OrderDual.toDual_inj, eq_comm]

/-- Records of one rank belong to one address. -/
theorem selfAddr_eq_of_rank_eq {a b : AwdlElectionState} (same : electionRank a = electionRank b) :
    a.selfAddr = b.selfAddr := by
  simp only [electionRank, toLex_inj, Prod.mk.injEq] at same
  exact EtherAddr.toNat_injective same.2.2.2

theorem awdlElectionCompareMaster_neg_iff {a b : AwdlElectionState} :
    awdlElectionCompareMaster a b < 0 ↔
      a.masterCounter.toNat < b.masterCounter.toNat ∨
      a.masterCounter.toNat = b.masterCounter.toNat ∧
        a.masterMetric.toNat < b.masterMetric.toNat := by
  simp only [awdlElectionCompareMaster, compareU32_eq_zero_iff]
  split
  · rename_i same
    simp only [compareU32_neg_iff, same, lt_self_iff_false, true_and, false_or]
  · rename_i different
    simp only [compareU32_neg_iff, different, false_and, or_false]

theorem awdlElectionCompareMaster_eq_zero_iff {a b : AwdlElectionState} :
    awdlElectionCompareMaster a b = 0 ↔
      a.masterCounter.toNat = b.masterCounter.toNat ∧
        a.masterMetric.toNat = b.masterMetric.toNat := by
  simp only [awdlElectionCompareMaster, compareU32_eq_zero_iff]
  split
  · rename_i same
    simp only [compareU32_eq_zero_iff, same, true_and]
  · rename_i different
    simp only [compareU32_eq_zero_iff, different, false_and]

/-- **The loop body is one comparison**: an eligible peer replaces the record
followed so far exactly when it outranks it. -/
theorem electStep_eq (own : AwdlElectionState) (best : Option AwdlElectionState)
    (peer : AwdlPeer) :
    electStep own best peer =
      if Eligible own.selfAddr peer ∧ electionRank (best.getD own) < electionRank peer.election
      then some peer.election else best := by
  by_cases eligible : Eligible own.selfAddr peer
  · obtain ⟨valid, low, noCycle⟩ := eligible
    have high : ¬(peer.election.height + 1 > awdlElectionTreeMaxHeight) := UInt32.not_lt.mpr low
    have noSync : awdlElectionIsSyncMaster peer.election own.selfAddr = false := by
      rw [← Bool.not_eq_true, awdlElectionIsSyncMaster_iff]
      exact noCycle
    have allowed : Eligible own.selfAddr peer := ⟨valid, low, noCycle⟩
    simp only [electStep, valid, Bool.not_true, Bool.false_eq_true, ↓reduceIte, high, noSync,
      allowed, true_and, electionRank_lt_iff, awdlElectionCompareMaster_neg_iff,
      awdlElectionCompareMaster_eq_zero_iff, compareEtherAddr_nonpos_iff, gt_iff_lt,
      UInt32.lt_iff_toNat_lt, ← UInt32.toNat_inj]
    split_ifs <;> first | rfl | (exfalso; omega)
  · have rejected : electStep own best peer = best := by
      simp only [Eligible, not_and_or, Bool.not_eq_true, UInt32.not_le, ne_eq, not_not] at eligible
      simp only [electStep]
      rcases eligible with invalid | tall | cycle
      · rw [invalid, Bool.not_false, if_pos rfl]
      · rw [if_pos tall, ite_self]
      · rw [if_pos (awdlElectionIsSyncMaster_iff.mpr cycle), ite_self, ite_self]
    rw [rejected, if_neg (fun both => eligible both.1)]

/-- What the loop has found after a list of peers: the record it started with
or an eligible peer that outranks it, and nothing eligible outranks it. -/
theorem foldl_electStep (own : AwdlElectionState) (peers : List AwdlPeer)
    (best : Option AwdlElectionState) :
    (peers.foldl (electStep own) best = best ∨
      ∃ peer ∈ peers, Eligible own.selfAddr peer ∧
        peers.foldl (electStep own) best = some peer.election ∧
        electionRank (best.getD own) < electionRank peer.election) ∧
    (∀ peer ∈ peers, Eligible own.selfAddr peer →
      electionRank peer.election ≤
        electionRank ((peers.foldl (electStep own) best).getD own)) ∧
    electionRank (best.getD own) ≤
      electionRank ((peers.foldl (electStep own) best).getD own) := by
  induction peers generalizing best with
  | nil => exact ⟨Or.inl rfl, fun peer member => absurd member List.not_mem_nil, le_refl _⟩
  | cons peer rest ih =>
      rw [List.foldl_cons]
      by_cases accepted : Eligible own.selfAddr peer ∧
          electionRank (best.getD own) < electionRank peer.election
      · rw [electStep_eq, if_pos accepted]
        obtain ⟨origin, greatest, kept⟩ := ih (some peer.election)
        refine ⟨Or.inr ?_, ?_, le_trans accepted.2.le kept⟩
        · rcases origin with same | ⟨other, member, eligible, found, better⟩
          · exact ⟨peer, List.mem_cons_self, accepted.1, same, accepted.2⟩
          · exact ⟨other, List.mem_cons_of_mem _ member, eligible, found,
              lt_trans accepted.2 better⟩
        · intro other member eligible
          rcases List.mem_cons.mp member with rfl | later
          · exact kept
          · exact greatest other later eligible
      · rw [electStep_eq, if_neg accepted]
        obtain ⟨origin, greatest, kept⟩ := ih best
        refine ⟨?_, ?_, kept⟩
        · rcases origin with same | ⟨other, member, eligible, found, better⟩
          · exact Or.inl same
          · exact Or.inr ⟨other, List.mem_cons_of_mem _ member, eligible, found, better⟩
        · intro other member eligible
          rcases List.mem_cons.mp member with rfl | later
          · exact le_trans (not_lt.mp fun better => accepted ⟨eligible, better⟩) kept
          · exact greatest other later eligible

/-- The loop goes through the records of the table in slot order. -/
theorem awdlElectionRun_eq_foldl {peers : AwdlPeers} (wf : peers.Wf hash)
    (state : AwdlElectionState) :
    awdlElectionRun state peers =
      match ((Slots.entries peers.data).map Prod.snd).foldl
        (electStep (awdlElectionResetSelf state)) none with
      | none => awdlElectionResetSelf state
      | some master => adoptMaster (awdlElectionResetSelf state) master := by
  obtain ⟨walked, _, _⟩ := hashmapIterate_eq
    (fun best (_ : EtherAddr) peer =>
      (electStep (awdlElectionResetSelf state) best peer, false)) wf none
  simp only [awdlElectionRun, walked, Slots.sweep_fst, List.foldl_map]

/-- A peer of the map of peers that the run follows: eligible, better than the own
record and as good as every other eligible peer. -/
structure Wins (state : AwdlElectionState) (peers : EtherAddr → Option AwdlPeer)
    (addr : EtherAddr) (peer : AwdlPeer) : Prop where
  stored : peers addr = some peer
  eligible : Eligible state.selfAddr peer
  better : electionRank (awdlElectionResetSelf state) < electionRank peer.election
  greatest : ∀ other record, peers other = some record → Eligible state.selfAddr record →
    electionRank record.election ≤ electionRank peer.election

/-- **What an election run does**: it stays alone when no eligible peer outranks
the own record, and follows a greatest eligible peer otherwise. -/
theorem awdlElectionRun_cases {peers : AwdlPeers} (wf : peers.Wf hash)
    (state : AwdlElectionState) :
    (awdlElectionRun state peers = awdlElectionResetSelf state ∧
      ∀ addr peer, peers.toMap addr = some peer → Eligible state.selfAddr peer →
        electionRank peer.election ≤ electionRank (awdlElectionResetSelf state)) ∨
    ∃ addr peer, Wins state peers.toMap addr peer ∧
      awdlElectionRun state peers =
        adoptMaster (awdlElectionResetSelf state) peer.election := by
  have stored : ∀ peer, peer ∈ (Slots.entries peers.data).map Prod.snd ↔
      ∃ addr, peers.toMap addr = some peer := by
    intro peer
    simp only [List.mem_map, Prod.exists, exists_eq_right]
    exact exists_congr fun addr => (Slots.toMap_eq_some_iff wf.distinct).symm
  rw [awdlElectionRun_eq_foldl wf state]
  obtain ⟨origin, greatest, _⟩ := foldl_electStep (awdlElectionResetSelf state)
    ((Slots.entries peers.data).map Prod.snd) none
  rcases origin with alone | ⟨peer, member, eligible, found, better⟩
  · left
    rw [alone] at greatest ⊢
    exact ⟨rfl, fun addr peer present eligible =>
      greatest peer ((stored peer).mpr ⟨addr, present⟩) eligible⟩
  · right
    obtain ⟨addr, present⟩ := (stored peer).mp member
    rw [found] at greatest ⊢
    exact ⟨addr, peer, ⟨present, eligible, better, fun other record listed allowed =>
      greatest record ((stored record).mpr ⟨other, listed⟩) allowed⟩, rfl⟩

/-! ## Fields of the result -/

theorem awdlElectionRun_self {peers : AwdlPeers} (wf : peers.Wf hash)
    (state : AwdlElectionState) :
    (awdlElectionRun state peers).selfAddr = state.selfAddr ∧
      (awdlElectionRun state peers).selfMetric = state.selfMetric ∧
      (awdlElectionRun state peers).selfCounter = state.selfCounter := by
  rcases awdlElectionRun_cases wf state with ⟨alone, _⟩ | ⟨_, peer, _, adopted⟩
  · rw [alone]
    exact ⟨rfl, rfl, rfl⟩
  · rw [adopted]
    exact ⟨rfl, rfl, rfl⟩

/-- The limit is tested on the value that is adopted, so it always holds. -/
theorem awdlElectionRun_height_le {peers : AwdlPeers} (wf : peers.Wf hash)
    (state : AwdlElectionState) :
    (awdlElectionRun state peers).height ≤ awdlElectionTreeMaxHeight := by
  rcases awdlElectionRun_cases wf state with ⟨alone, _⟩ | ⟨_, peer, wins, adopted⟩
  · rw [alone]
    exact UInt32.zero_le
  · rw [adopted]
    exact wins.eligible.2.1

/-! ## Cycles through the node itself -/

/-- The winner is one address. -/
theorem Wins.unique {peers : AwdlPeers} (wf : AwdlPeersWf hash peers) {state : AwdlElectionState}
    {addr other : EtherAddr} {peer record : AwdlPeer} (wins : Wins state peers.toMap addr peer)
    (alsoWins : Wins state peers.toMap other record) : addr = other ∧ peer = record := by
  have same : electionRank peer.election = electionRank record.election :=
    le_antisymm (alsoWins.greatest addr peer wins.stored wins.eligible)
      (wins.greatest other record alsoWins.stored alsoWins.eligible)
  have addresses : addr = other := by
    rw [← (wf.keyed addr peer wins.stored).selfAddr_eq, selfAddr_eq_of_rank_eq same,
      (wf.keyed other record alsoWins.stored).selfAddr_eq]
  subst addresses
  exact ⟨rfl, Option.some.inj (wins.stored.symm.trans alsoWins.stored)⟩

/-- **When a run closes no cycle through the node.** Only the advertised sync
master of a candidate is tested, so the node ends below itself exactly when the
winning peer advertises it as the top master. -/
theorem awdlElectionRun_no_cycle_iff {peers : AwdlPeers} (wf : AwdlPeersWf hash peers)
    (state : AwdlElectionState) :
    ((awdlElectionRun state peers).masterAddr = (awdlElectionRun state peers).selfAddr →
        (awdlElectionRun state peers).syncAddr = (awdlElectionRun state peers).selfAddr) ↔
      ∀ addr peer, Wins state peers.toMap addr peer → peer.election.masterAddr = state.selfAddr →
        addr = state.selfAddr := by
  rcases awdlElectionRun_cases wf.table state with ⟨alone, greatest⟩ | ⟨addr, peer, wins, adopted⟩
  · rw [alone]
    refine iff_of_true (fun _ => rfl) fun addr peer wins _ => ?_
    exact absurd (greatest addr peer wins.stored wins.eligible) (not_le.mpr wins.better)
  · rw [adopted]
    constructor
    · intro noCycle other record alsoWins loops
      obtain ⟨rfl, rfl⟩ := wins.unique wf alsoWins
      rw [← (wf.keyed addr peer wins.stored).selfAddr_eq]
      exact noCycle loops
    · intro guarded loops
      exact (wf.keyed addr peer wins.stored).selfAddr_eq.trans (guarded addr peer wins loops)

/-- `TEST_ADDR(i)` of the election tests. -/
def testAddr (i : UInt8) : EtherAddr := ⟨i, i, i, i, i, i⟩

/-- The peer of the test `elect_cycle`: better than the node by its metric, one
hop below its top master, which is the node. -/
def cyclePeer : AwdlPeer :=
  { freshPeer default (testAddr 1) 0 with
    isValid := true
    election :=
      { awdlElectionStateInit default (testAddr 1) with
        masterMetric := 1000
        selfMetric := 1000
        height := 1
        masterAddr := testAddr 0 } }

/-- In the scenario of `elect_cycle` the node adopts the peer, and with it
itself as the top master. -/
theorem elect_cycle_adopts :
    AwdlPeersWf (fun _ => 0) (awdlPeersSingle (fun _ => 0) cyclePeer) ∧
      ¬((awdlElectionRun (awdlElectionStateInit default (testAddr 0))
            (awdlPeersSingle (fun _ => 0) cyclePeer)).masterAddr =
          (awdlElectionRun (awdlElectionStateInit default (testAddr 0))
            (awdlPeersSingle (fun _ => 0) cyclePeer)).selfAddr →
        (awdlElectionRun (awdlElectionStateInit default (testAddr 0))
            (awdlPeersSingle (fun _ => 0) cyclePeer)).syncAddr =
          (awdlElectionRun (awdlElectionStateInit default (testAddr 0))
            (awdlPeersSingle (fun _ => 0) cyclePeer)).selfAddr) :=
  ⟨awdlPeersSingle_wf cyclePeer rfl, by decide +kernel⟩

/-- The condition at the scenario of `elect_cycle`, where both sides fail. -/
theorem awdlElectionRun_no_cycle_iff_elect_cycle :
    AwdlPeersWf (fun _ => 0) (awdlPeersSingle (fun _ => 0) cyclePeer) ∧
      ¬∀ addr peer, Wins (awdlElectionStateInit default (testAddr 0))
          (awdlPeersSingle (fun _ => 0) cyclePeer).toMap addr peer →
        peer.election.masterAddr = testAddr 0 → addr = testAddr 0 := by
  have wf : AwdlPeersWf (fun _ => 0) (awdlPeersSingle (fun _ => 0) cyclePeer) :=
    awdlPeersSingle_wf cyclePeer rfl
  refine ⟨wf, fun guarded => ?_⟩
  have noCycle := (awdlElectionRun_no_cycle_iff wf
    (awdlElectionStateInit default (testAddr 0))).mpr guarded
  revert noCycle
  decide +kernel

end Owl
