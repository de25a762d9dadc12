import Mathlib.Data.Set.Function
import Owl.Awdl.Election

/-! # The greatest record

The own record after its reset and the eligible peers are the candidates of an
election. Candidates of different addresses have different ranks, so one of them
is the greatest, and every order of going through the peers ends at it
(`electionOver_eq`). The result of `awdl_election_run` is thus a function of the
own identity and the set of peers (`awdlElectionRun_greatest`).
-/

namespace Owl

variable {hash : EtherAddr → UInt64}

/-- The election over peers in the order of a list. -/
def electionOver (state : AwdlElectionState) (order : List AwdlPeer) : AwdlElectionState :=
  match order.foldl (electStep (awdlElectionResetSelf state)) none with
  | none => awdlElectionResetSelf state
  | some master => adoptMaster (awdlElectionResetSelf state) master

/-- The records of a table. -/
def peerRecords (peers : AwdlPeers) : Set AwdlPeer := {peer | ∃ addr, peers.toMap addr = some peer}

/-- The records among which an election selects. -/
def electionCandidates (state : AwdlElectionState) (records : Set AwdlPeer) :
    Set AwdlElectionState :=
  insert (awdlElectionResetSelf state)
    (AwdlPeer.election '' {peer ∈ records | Eligible state.selfAddr peer})

/-- What an election does with the record it has selected. -/
def electionResult (state best : AwdlElectionState) : AwdlElectionState :=
  if best = awdlElectionResetSelf state then awdlElectionResetSelf state
  else adoptMaster (awdlElectionResetSelf state) best

/-- The identity of a node determines its reset record. -/
theorem awdlElectionResetSelf_congr {state other : AwdlElectionState}
    (addr : other.selfAddr = state.selfAddr) (metric : other.selfMetric = state.selfMetric)
    (counter : other.selfCounter = state.selfCounter) :
    awdlElectionResetSelf other = awdlElectionResetSelf state := by
  simp only [awdlElectionResetSelf, addr, metric, counter]

theorem electionOver_congr {state other : AwdlElectionState}
    (same : awdlElectionResetSelf other = awdlElectionResetSelf state) (order : List AwdlPeer) :
    electionOver other order = electionOver state order := by
  simp only [electionOver, same]

section Peers

variable {state : AwdlElectionState} {records : Set AwdlPeer}
  (distinct : Set.InjOn (fun peer : AwdlPeer => peer.election.selfAddr) records)
  (foreign : ∀ peer ∈ records, peer.election.selfAddr ≠ state.selfAddr)

include distinct foreign in
/-- Two candidates of one rank are one candidate. -/
theorem candidates_rank_injOn :
    Set.InjOn electionRank (electionCandidates state records) := by
  rintro best (rfl | ⟨peer, ⟨listed, _⟩, rfl⟩) other (rfl | ⟨record, ⟨alsoListed, _⟩, rfl⟩) same
  · rfl
  · exact absurd (selfAddr_eq_of_rank_eq same).symm (foreign record alsoListed)
  · exact absurd (selfAddr_eq_of_rank_eq same) (foreign peer listed)
  · rw [distinct listed alsoListed (selfAddr_eq_of_rank_eq same)]

include foreign in
/-- An election over a list ends at a greatest candidate. -/
theorem electionOver_greatest {order : List AwdlPeer}
    (all : ∀ peer, peer ∈ order ↔ peer ∈ records) :
    ∃ best ∈ electionCandidates state records,
      (∀ other ∈ electionCandidates state records, electionRank other ≤ electionRank best) ∧
      electionOver state order = electionResult state best := by
  unfold electionOver electionResult
  obtain ⟨origin, greatest, kept⟩ := foldl_electStep (awdlElectionResetSelf state) order none
  rcases origin with alone | ⟨peer, member, eligible, found, better⟩
  · rw [alone] at greatest ⊢
    refine ⟨awdlElectionResetSelf state, Set.mem_insert _ _, ?_, (if_pos rfl).symm⟩
    rintro other (rfl | ⟨record, ⟨listed, eligible⟩, rfl⟩)
    · exact le_refl _
    · exact greatest record ((all record).mpr listed) eligible
  · have listed := (all peer).mp member
    rw [found] at greatest kept ⊢
    refine ⟨peer.election, Set.mem_insert_of_mem _ ⟨peer, ⟨listed, eligible⟩, rfl⟩, ?_, ?_⟩
    · rintro other (rfl | ⟨record, ⟨alsoListed, allowed⟩, rfl⟩)
      · exact kept
      · exact greatest record ((all record).mpr alsoListed) allowed
    · rw [if_neg]
      intro own
      apply foreign peer listed
      rw [own]
      rfl

include distinct foreign in
/-- **The order does not matter.** -/
theorem electionOver_eq {first second : List AwdlPeer}
    (all : ∀ peer, peer ∈ first ↔ peer ∈ records) (same : ∀ peer, peer ∈ second ↔ peer ∈ records) :
    electionOver state first = electionOver state second := by
  obtain ⟨best, candidate, greatest, result⟩ := electionOver_greatest foreign all
  obtain ⟨other, alsoCandidate, alsoGreatest, otherResult⟩ := electionOver_greatest foreign same
  have tie := le_antisymm (alsoGreatest best candidate) (greatest other alsoCandidate)
  rw [result, otherResult,
    candidates_rank_injOn distinct foreign candidate alsoCandidate tie]

end Peers

/-- The order of a table. -/
theorem exists_order {peers : AwdlPeers} (wf : peers.Wf hash) :
    ∃ order : List AwdlPeer, (∀ peer, peer ∈ order ↔ peer ∈ peerRecords peers) ∧
      ∀ state, awdlElectionRun state peers = electionOver state order := by
  refine ⟨(Slots.entries peers.data).map Prod.snd, ?_, awdlElectionRun_eq_foldl wf⟩
  intro peer
  simp only [peerRecords, Set.mem_ofPred_eq, List.mem_map, Prod.exists, exists_eq_right]
  exact exists_congr fun addr => (Slots.toMap_eq_some_iff wf.distinct).symm

/-- **An election selects the greatest candidate.** It copies the data of the
selected record if this is a peer. The order in which the peers are listed, the
layout of the table and all but the identity in the own record are irrelevant, and
a second run changes nothing. -/
theorem awdlElectionRun_greatest {peers : AwdlPeers} (wf : peers.Wf hash)
    (state : AwdlElectionState)
    (distinct : Set.InjOn (fun peer : AwdlPeer => peer.election.selfAddr) (peerRecords peers))
    (foreign : ∀ peer ∈ peerRecords peers, peer.election.selfAddr ≠ state.selfAddr) :
    (∃ best ∈ electionCandidates state (peerRecords peers),
      (∀ other ∈ electionCandidates state (peerRecords peers), other ≠ best →
        electionRank other < electionRank best) ∧
      (best = awdlElectionResetSelf state →
        awdlElectionRun state peers = awdlElectionResetSelf state) ∧
      (best ≠ awdlElectionResetSelf state →
        awdlElectionRun state peers =
          { awdlElectionResetSelf state with
            masterAddr := best.masterAddr
            masterMetric := best.masterMetric
            masterCounter := best.masterCounter
            syncAddr := best.selfAddr
            height := best.height + 1 })) ∧
    (∀ other : AwdlElectionState, other.selfAddr = state.selfAddr →
      other.selfMetric = state.selfMetric → other.selfCounter = state.selfCounter →
      (∀ order : List AwdlPeer, (∀ peer, peer ∈ order ↔ peer ∈ peerRecords peers) →
        electionOver other order = awdlElectionRun state peers) ∧
      ∀ (otherHash : EtherAddr → UInt64) (otherPeers : AwdlPeers), otherPeers.Wf otherHash →
        peerRecords otherPeers = peerRecords peers →
        awdlElectionRun other otherPeers = awdlElectionRun state peers) ∧
    awdlElectionRun (awdlElectionRun state peers) peers = awdlElectionRun state peers := by
  obtain ⟨order, listed, equation⟩ := exists_order wf
  have anyOrder : ∀ other : AwdlElectionState, other.selfAddr = state.selfAddr →
      other.selfMetric = state.selfMetric → other.selfCounter = state.selfCounter →
      ∀ second : List AwdlPeer, (∀ peer, peer ∈ second ↔ peer ∈ peerRecords peers) →
        electionOver other second = awdlElectionRun state peers := by
    intro other addr metric counter second all
    rw [equation, electionOver_congr (awdlElectionResetSelf_congr addr metric counter)]
    exact electionOver_eq distinct foreign all listed
  obtain ⟨addr, metric, counter⟩ := awdlElectionRun_self wf state
  refine ⟨?_, ?_, ?_⟩
  · obtain ⟨best, candidate, greatest, result⟩ := electionOver_greatest foreign listed
    rw [equation, result, electionResult]
    refine ⟨best, candidate, ?_, fun own => if_pos own, fun peer => if_neg peer⟩
    intro other alsoCandidate different
    refine lt_of_le_of_ne (greatest other alsoCandidate) ?_
    intro tie
    exact different (candidates_rank_injOn distinct foreign alsoCandidate candidate tie)
  · intro other addr metric counter
    refine ⟨anyOrder other addr metric counter, ?_⟩
    intro otherHash otherPeers otherWf same
    obtain ⟨second, all, otherOver⟩ := exists_order otherWf
    rw [otherOver]
    rw [same] at all
    exact anyOrder other addr metric counter second all
  · nth_rewrite 1 [equation]
    exact anyOrder _ addr metric counter order listed

/-- The records of a well-formed table have the addresses under which they are stored. -/
theorem AwdlPeersWf.selfAddr_injOn {peers : AwdlPeers} (wf : AwdlPeersWf hash peers) :
    Set.InjOn (fun peer : AwdlPeer => peer.election.selfAddr) (peerRecords peers) := by
  rintro peer ⟨addr, stored⟩ record ⟨other, alsoStored⟩ same
  dsimp only at same
  have addresses : addr = other := by
    rw [← (wf.keyed addr peer stored).selfAddr_eq, same,
      (wf.keyed other record alsoStored).selfAddr_eq]
  subst addresses
  exact Option.some.inj (stored.symm.trans alsoStored)

/-- A valid peer that tells the same of its master as the others. -/
def tiedPeer (i : UInt8) : AwdlPeer :=
  { freshPeer default (testAddr i) 0 with
    isValid := true
    election :=
      { awdlElectionStateInit default (testAddr i) with
        masterAddr := testAddr 9
        syncAddr := testAddr 9
        masterMetric := 1000
        height := 1 } }

/-- Three peers that only their addresses tell apart. -/
def tiedPeers : List AwdlPeer := [tiedPeer 2, tiedPeer 3, tiedPeer 1]

/-- Of three tied peers the one with the greatest address is followed, in whatever order
they are compared. -/
theorem awdlElectionRun_greatest_tied :
    (awdlPeersOf (fun _ => 0) tiedPeers).Wf (fun _ => 0) ∧
      (awdlElectionRun (awdlElectionStateInit default (testAddr 0))
        (awdlPeersOf (fun _ => 0) tiedPeers)).syncAddr = testAddr 3 ∧
      ∀ order : List AwdlPeer, order.Perm tiedPeers →
        electionOver (awdlElectionStateInit default (testAddr 0)) order =
          awdlElectionRun (awdlElectionStateInit default (testAddr 0))
            (awdlPeersOf (fun _ => 0) tiedPeers) := by
  obtain ⟨wf, stored⟩ := @awdlPeersOf_spec (fun _ => 0) tiedPeers (by decide) (by decide)
    (by decide +kernel)
  have records : ∀ peer, peer ∈ peerRecords (awdlPeersOf (fun _ => 0) tiedPeers) ↔
      peer ∈ tiedPeers := by
    intro peer
    exact ⟨fun ⟨addr, found⟩ => ((stored addr peer).mp found).1,
      fun member => ⟨peer.addr, (stored _ peer).mpr ⟨member, rfl⟩⟩⟩
  have foreign : ∀ peer ∈ peerRecords (awdlPeersOf (fun _ => 0) tiedPeers),
      peer.election.selfAddr ≠ testAddr 0 := by
    simp only [records]
    decide
  refine ⟨wf.table, by decide +kernel, fun order same => ?_⟩
  exact ((awdlElectionRun_greatest wf.table _ wf.selfAddr_injOn foreign).2.1 _ rfl rfl rfl).1 order
    fun peer => same.mem_iff.trans (records peer).symm

end Owl
