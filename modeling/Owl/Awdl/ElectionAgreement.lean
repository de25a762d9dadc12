import Mathlib.Data.Fintype.Lattice
import Owl.Awdl.Election
import Owl.Foundation.HopCount

/-! # Agreement of settled elections

Nodes are the vertices of a graph and hear their neighbours. In a settled
election every peer table holds the current records of the neighbours and no run
changes a record. The height is then a hop count along sync masters, so the
advertised master data comes from a node that is its own master
(`SettledElection.exists_origin`), and the nodes agree: in one cell on the
greatest node, and over several hops on the node with the greatest counter and
metric, along a shortest-path tree.
-/

namespace Owl

variable {hash : EtherAddr → UInt64} {Node : Type} {graph : SimpleGraph Node}
  {record : Node → AwdlElectionState} {peers : Node → AwdlPeers}

variable (hash graph record peers) in
/-- A settled election among nodes with distinct addresses. -/
structure SettledElection : Prop where
  /-- The tables are well-formed. -/
  wf : ∀ node, (peers node).Wf hash
  /-- No two nodes have one address. -/
  distinct : Function.Injective fun node => (record node).selfAddr
  /-- Each table has the current record of every neighbour, as a valid peer. -/
  complete : ∀ node other, graph.Adj node other → ∃ peer,
    (peers node).toMap (record other).selfAddr = some peer ∧ peer.isValid = true ∧
      peer.election = record other
  /-- Each table has nothing else. -/
  only : ∀ node addr peer, (peers node).toMap addr = some peer → ∃ other,
    graph.Adj node other ∧ (record other).selfAddr = addr ∧ peer.election = record other
  /-- No election run changes a record. -/
  stable : ∀ node, awdlElectionRun (record node) (peers node) = record node

/-- A neighbour that the node may follow. -/
def MayFollow (graph : SimpleGraph Node) (record : Node → AwdlElectionState)
    (node other : Node) : Prop :=
  graph.Adj node other ∧ (record other).height.toNat < 10 ∧
    (record other).syncAddr ≠ (record node).selfAddr

/-- A node that follows a neighbour: what it has adopted, and that the neighbour
is better than the node itself and as good as all others. -/
structure Follows (graph : SimpleGraph Node) (record : Node → AwdlElectionState)
    (node parent : Node) : Prop where
  may : MayFollow graph record node parent
  masterAddr_eq : (record node).masterAddr = (record parent).masterAddr
  syncAddr_eq : (record node).syncAddr = (record parent).selfAddr
  masterCounter_eq : (record node).masterCounter = (record parent).masterCounter
  masterMetric_eq : (record node).masterMetric = (record parent).masterMetric
  height_eq : (record node).height.toNat = (record parent).height.toNat + 1
  better : electionRank (awdlElectionResetSelf (record node)) < electionRank (record parent)
  greatest : ∀ other, MayFollow graph record node other →
    electionRank (record other) ≤ electionRank (record parent)

/-- A node that is its own master, since no neighbour is better. -/
structure Alone (graph : SimpleGraph Node) (record : Node → AwdlElectionState)
    (node : Node) : Prop where
  reset : awdlElectionResetSelf (record node) = record node
  greatest : ∀ other, MayFollow graph record node other →
    electionRank (record other) ≤ electionRank (record node)

theorem Alone.fields {node : Node} (alone : Alone graph record node) :
    (record node).masterAddr = (record node).selfAddr ∧
      (record node).syncAddr = (record node).selfAddr ∧
      (record node).masterCounter = (record node).selfCounter ∧
      (record node).masterMetric = (record node).selfMetric ∧
      (record node).height = 0 := by
  rw [← alone.reset]
  exact ⟨rfl, rfl, rfl, rfl, rfl⟩

namespace SettledElection

variable (settled : SettledElection hash graph record peers)
include settled

theorem height_le (node : Node) : (record node).height.toNat ≤ 10 := by
  have low := awdlElectionRun_height_le (settled.wf node) (record node)
  rw [settled.stable node, UInt32.le_iff_toNat_le] at low
  exact low

/-- The heights of a settled election are far from the end of the number range. -/
theorem height_succ (node : Node) :
    ((record node).height + 1).toNat = (record node).height.toNat + 1 := by
  have low := settled.height_le node
  rw [UInt32.toNat_add, UInt32.toNat_one, Nat.mod_eq_of_lt (by omega)]

/-- The peers that a run compares are the neighbours that the node may follow. -/
theorem eligible_iff (node other : Node) {peer : AwdlPeer} (valid : peer.isValid = true)
    (current : peer.election = record other) (edge : graph.Adj node other) :
    Eligible (record node).selfAddr peer ↔ MayFollow graph record node other := by
  simp only [Eligible, MayFollow, valid, current, edge, true_and, UInt32.le_iff_toNat_le,
    settled.height_succ other, awdlElectionTreeMaxHeight]
  rfl

/-- What a node may follow is in its table. -/
theorem mayFollow_bound {node : Node} {bound : ℕ ×ₗ ℕ ×ₗ ℕᵒᵈ ×ₗ ℕ}
    (below : ∀ addr peer, (peers node).toMap addr = some peer →
      Eligible (record node).selfAddr peer → electionRank peer.election ≤ bound)
    (other : Node) (may : MayFollow graph record node other) :
    electionRank (record other) ≤ bound := by
  obtain ⟨peer, stored, valid, current⟩ := settled.complete node other may.1
  rw [← current]
  exact below _ peer stored ((settled.eligible_iff node other valid current may.1).mpr may)

/-- **Every node is alone or follows a best neighbour.** -/
theorem alone_or_follows (node : Node) :
    Alone graph record node ∨ ∃ parent, Follows graph record node parent := by
  rcases awdlElectionRun_cases (settled.wf node) (record node) with
    ⟨alone, greatest⟩ | ⟨addr, peer, wins, adopted⟩
  · rw [settled.stable node] at alone
    rw [← alone] at greatest
    exact Or.inl ⟨alone.symm, settled.mayFollow_bound greatest⟩
  · obtain ⟨parent, edge, _, current⟩ := settled.only node addr peer wins.stored
    have may := (settled.eligible_iff node parent wins.eligible.1 current edge).mp wins.eligible
    have better := wins.better
    have greatest := settled.mayFollow_bound wins.greatest
    rw [settled.stable node] at adopted
    rw [current] at adopted better greatest
    refine Or.inr ⟨parent, ⟨may, ?_, ?_, ?_, ?_, ?_, better, greatest⟩⟩
    · exact (congrArg AwdlElectionState.masterAddr adopted).trans rfl
    · exact congrArg AwdlElectionState.syncAddr adopted
    · exact (congrArg AwdlElectionState.masterCounter adopted).trans rfl
    · exact (congrArg AwdlElectionState.masterMetric adopted).trans rfl
    · rw [congrArg AwdlElectionState.height adopted]
      exact settled.height_succ parent

theorem alone_of_height_zero {node : Node} (ground : (record node).height.toNat = 0) :
    Alone graph record node := by
  rcases settled.alone_or_follows node with alone | ⟨parent, follows⟩
  · exact alone
  · exact absurd (follows.height_eq.symm.trans ground) (Nat.succ_ne_zero _)

theorem follows_of_height_ne_zero {node : Node} (above : (record node).height.toNat ≠ 0) :
    ∃ parent, Follows graph record node parent := by
  rcases settled.alone_or_follows node with alone | follows
  · exact absurd (congrArg UInt32.toNat alone.fields.2.2.2.2) above
  · exact follows

/-- **Advertised master data has an origin**: a node of height zero whose own
address, counter and metric it is. -/
theorem exists_origin (node : Node) : ∃ origin, Alone graph record origin ∧
    (record node).masterAddr = (record origin).selfAddr ∧
    (record node).masterCounter = (record origin).selfCounter ∧
    (record node).masterMetric = (record origin).selfMetric := by
  obtain ⟨origin, ground, same⟩ := HopCount.exists_root
    (fun node => (record node).height.toNat)
    (fun node =>
      ((record node).masterAddr, (record node).masterCounter, (record node).masterMetric))
    (fun node above => by
      obtain ⟨parent, follows⟩ := settled.follows_of_height_ne_zero above
      refine ⟨parent, follows.height_eq.symm, ?_⟩
      rw [follows.masterAddr_eq, follows.masterCounter_eq, follows.masterMetric_eq]) node
  have alone := settled.alone_of_height_zero ground
  obtain ⟨ownAddr, _, ownCounter, ownMetric, _⟩ := alone.fields
  simp only [Prod.mk.injEq] at same
  exact ⟨origin, alone, same.1.symm.trans ownAddr, same.2.1.symm.trans ownCounter,
    same.2.2.symm.trans ownMetric⟩

end SettledElection

/-! ## A settled pair of nodes -/

/-- Two nodes in range of each other, of which `true` has the greater metric. -/
def pairRecord : Bool → AwdlElectionState
  | true => awdlElectionResetSelf { (default : AwdlElectionState) with
      selfAddr := testAddr 1
      selfMetric := 500 }
  | false =>
      { masterAddr := testAddr 1
        syncAddr := testAddr 1
        selfAddr := testAddr 0
        height := 1
        masterMetric := 500
        selfMetric := 60
        masterCounter := 0
        selfCounter := 0 }

/-- The valid peer with the current record of a node of the pair. -/
def pairPeer (node : Bool) : AwdlPeer :=
  { freshPeer default (pairRecord node).selfAddr 0 with
    isValid := true
    election := pairRecord node }

/-- Each node of the pair knows the other one. -/
def pairPeers (node : Bool) : AwdlPeers := awdlPeersSingle (fun _ => 0) (pairPeer !node)

theorem pair_settled : SettledElection (fun _ => 0) ⊤ pairRecord pairPeers where
  wf := fun node => (awdlPeersSingle_spec _).1
  distinct := by
    intro one two same
    revert one two
    decide
  complete := by
    intro node other edge
    obtain rfl : other = !node := by
      revert edge
      simp only [SimpleGraph.top_adj]
      revert node other
      decide
    refine ⟨pairPeer !node, ?_, rfl, rfl⟩
    rw [pairPeers, (awdlPeersSingle_spec _).2]
    exact Function.update_self ..
  only := by
    intro node addr peer stored
    rw [pairPeers, (awdlPeersSingle_spec _).2] at stored
    by_cases same : addr = (pairPeer !node).addr
    · rw [same, Function.update_self] at stored
      cases stored
      exact ⟨!node, (Bool.not_ne_self node).symm, same.symm, rfl⟩
    · rw [Function.update_of_ne same] at stored
      cases stored
  stable := by
    decide +kernel

/-! ## One cell -/

/-- The order of nodes in one cell: counter, metric, and address in the order of
`compare_ether_addr` (`compareEtherAddr_neg_iff`). -/
def cellRank (state : AwdlElectionState) : ℕ ×ₗ ℕ ×ₗ ℕ :=
  toLex (state.selfCounter.toNat, toLex (state.selfMetric.toNat, state.selfAddr.toNat))

theorem cellRank_le_iff {a b : AwdlElectionState} :
    cellRank a ≤ cellRank b ↔
      a.selfCounter.toNat < b.selfCounter.toNat ∨
      a.selfCounter.toNat = b.selfCounter.toNat ∧
        (a.selfMetric.toNat < b.selfMetric.toNat ∨
        a.selfMetric.toNat = b.selfMetric.toNat ∧ a.selfAddr.toNat ≤ b.selfAddr.toNat) := by
  simp only [cellRank, Prod.Lex.toLex_le_toLex]

theorem electionRank_le_iff {a b : AwdlElectionState} :
    electionRank a ≤ electionRank b ↔
      a.masterCounter.toNat < b.masterCounter.toNat ∨
      a.masterCounter.toNat = b.masterCounter.toNat ∧
        (a.masterMetric.toNat < b.masterMetric.toNat ∨
        a.masterMetric.toNat = b.masterMetric.toNat ∧
          (b.height.toNat < a.height.toNat ∨
          b.height.toNat = a.height.toNat ∧ a.selfAddr.toNat ≤ b.selfAddr.toNat)) := by
  rw [← not_lt, electionRank_lt_iff]
  omega

namespace SettledElection

variable (settled : SettledElection hash graph record peers)
include settled

variable {leader : Node}
  (greatest : ∀ node, cellRank (record node) ≤ cellRank (record leader))
include greatest

/-- No node advertises a better master than the greatest node. -/
theorem master_le (node : Node) :
    (record node).masterCounter.toNat < (record leader).selfCounter.toNat ∨
      (record node).masterCounter.toNat = (record leader).selfCounter.toNat ∧
        (record node).masterMetric.toNat ≤ (record leader).selfMetric.toNat := by
  obtain ⟨origin, _, _, counter, metric⟩ := settled.exists_origin node
  have bound := cellRank_le_iff.mp (greatest origin)
  rw [counter, metric]
  omega

/-- The greatest node follows nobody. -/
theorem leader_alone : Alone graph record leader := by
  rcases settled.alone_or_follows leader with alone | ⟨parent, follows⟩
  · exact alone
  · have better := electionRank_lt_iff.mp follows.better
    have bound := settled.master_le greatest parent
    simp only [awdlElectionResetSelf, UInt32.toNat_zero] at better
    have ground : (record parent).height.toNat = 0 := by omega
    obtain ⟨_, _, counter, metric, _⟩ := (settled.alone_of_height_zero ground).fields
    rw [counter, metric] at better
    have below := cellRank_le_iff.mp (greatest parent)
    omega

end SettledElection

/-- **Agreement in one cell.** When every node hears every other one, a settled
election has one master: the node that is greatest by counter, metric and
address. It is its own master and all others follow it directly. -/
theorem cell_agreement [Finite Node] [Nonempty Node]
    (settled : SettledElection hash (⊤ : SimpleGraph Node) record peers) :
    ∃ leader, (∀ node, cellRank (record node) ≤ cellRank (record leader)) ∧
      (record leader).height = 0 ∧
      (∀ node, (record node).masterAddr = (record leader).selfAddr) ∧
      ∀ node, node ≠ leader →
        (record node).syncAddr = (record leader).selfAddr ∧ (record node).height = 1 := by
  obtain ⟨leader, greatest⟩ := Finite.exists_max fun node => cellRank (record node)
  obtain ⟨masterAddr, syncAddr, counter, metric, height⟩ :=
    (settled.leader_alone greatest).fields
  have followed : ∀ node, node ≠ leader → Follows ⊤ record node leader := by
    intro node other
    have addresses : (record node).selfAddr ≠ (record leader).selfAddr :=
      fun same => other (settled.distinct same)
    have may : MayFollow ⊤ record node leader := by
      refine ⟨other, ?_, ?_⟩
      · rw [height]
        decide
      · rw [syncAddr]
        exact addresses.symm
    have apart : (record node).selfAddr.toNat ≠ (record leader).selfAddr.toNat :=
      fun same => addresses (EtherAddr.toNat_injective same)
    rcases settled.alone_or_follows node with alone | ⟨parent, follows⟩
    · have best := electionRank_le_iff.mp (alone.greatest leader may)
      obtain ⟨_, _, ownCounter, ownMetric, ownHeight⟩ := alone.fields
      rw [counter, metric, height, ownCounter, ownMetric, ownHeight] at best
      have below := cellRank_le_iff.mp (greatest node)
      omega
    · have best := electionRank_le_iff.mp (follows.greatest leader may)
      have bound := settled.master_le greatest parent
      rw [counter, metric, height, UInt32.toNat_zero] at best
      have ground : (record parent).height.toNat = 0 := by omega
      obtain ⟨_, _, ownCounter, ownMetric, _⟩ := (settled.alone_of_height_zero ground).fields
      have below := cellRank_le_iff.mp (greatest parent)
      rw [ownCounter, ownMetric] at best bound
      have address : (record parent).selfAddr.toNat = (record leader).selfAddr.toNat := by omega
      rwa [settled.distinct (EtherAddr.toNat_injective address)] at follows
  refine ⟨leader, greatest, height, fun node => ?_, fun node other => ⟨?_, ?_⟩⟩
  · by_cases same : node = leader
    · rw [same, masterAddr]
    · rw [(followed node same).masterAddr_eq, masterAddr]
  · exact (followed node other).syncAddr_eq
  · have above := (followed node other).height_eq
    rw [height] at above
    exact UInt32.toNat_inj.mp above

/-- The settled pair has the node with the greater metric as its master. -/
theorem cell_agreement_pair : ∃ leader,
    (∀ node, cellRank (pairRecord node) ≤ cellRank (pairRecord leader)) ∧
      (pairRecord leader).height = 0 ∧
      (∀ node, (pairRecord node).masterAddr = (pairRecord leader).selfAddr) ∧
      ∀ node, node ≠ leader →
        (pairRecord node).syncAddr = (pairRecord leader).selfAddr ∧
          (pairRecord node).height = 1 :=
  cell_agreement pair_settled

/-! ## Several hops -/

namespace SettledElection

variable (settled : SettledElection hash graph record peers) {leader : Node}
  (strict : ∀ node, node ≠ leader →
    (record node).selfCounter.toNat < (record leader).selfCounter.toNat ∨
    (record node).selfCounter.toNat = (record leader).selfCounter.toNat ∧
      (record node).selfMetric.toNat < (record leader).selfMetric.toNat)

omit settled in
include strict in
/-- A strictly greatest pair of counter and metric makes the greatest node. -/
theorem greatest_of_strict (node : Node) : cellRank (record node) ≤ cellRank (record leader) := by
  by_cases same : node = leader
  · rw [same]
  · have bound := strict node same
    rw [cellRank_le_iff]
    omega

include settled

/-- Who has the leader as its master also has its counter and metric. -/
theorem pair_of_masterAddr {node : Node}
    (below : (record node).masterAddr = (record leader).selfAddr) :
    (record node).masterCounter = (record leader).selfCounter ∧
      (record node).masterMetric = (record leader).selfMetric := by
  obtain ⟨origin, _, addr, counter, metric⟩ := settled.exists_origin node
  obtain rfl : origin = leader := settled.distinct (addr.symm.trans below)
  exact ⟨counter, metric⟩

/-- The height of a node below the leader is at least its distance. -/
theorem dist_le_height (connected : graph.Connected) {node : Node}
    (below : (record node).masterAddr = (record leader).selfAddr) :
    graph.dist leader node ≤ (record node).height.toNat := by
  refine HopCount.dist_le (fun node => (record node).height.toNat) connected
    (fun node => (record node).masterAddr = (record leader).selfAddr) ?_ ?_ below
  · intro node marked ground
    rw [(settled.alone_of_height_zero ground).fields.1] at marked
    exact settled.distinct marked
  · intro node marked above
    obtain ⟨parent, follows⟩ := settled.follows_of_height_ne_zero above
    exact ⟨parent, follows.may.1.symm, follows.masterAddr_eq.symm.trans marked,
      follows.height_eq.symm⟩

include strict

/-- Only the leader is the origin of its counter and metric. -/
theorem masterAddr_eq_of_pair {node : Node}
    (counter : (record node).masterCounter.toNat = (record leader).selfCounter.toNat)
    (metric : (record node).masterMetric.toNat = (record leader).selfMetric.toNat) :
    (record node).masterAddr = (record leader).selfAddr := by
  obtain ⟨origin, _, addr, ownCounter, ownMetric⟩ := settled.exists_origin node
  by_cases same : origin = leader
  · rw [addr, same]
  · have bound := strict origin same
    rw [ownCounter] at counter
    rw [ownMetric] at metric
    omega

/-- A neighbour one step closer to the leader, below it and at most as high as
its distance, pulls a node below the leader at the next height. -/
theorem pulled (connected : graph.Connected) {node closer : Node}
    (edge : graph.Adj closer node)
    (nearer : graph.dist leader closer + 1 = graph.dist leader node)
    (near : graph.dist leader node ≤ 10)
    (below : (record closer).masterAddr = (record leader).selfAddr)
    (low : (record closer).height.toNat ≤ graph.dist leader closer) :
    (record node).masterAddr = (record leader).selfAddr ∧
      (record node).height.toNat ≤ graph.dist leader node := by
  have may : MayFollow graph record node closer := by
    refine ⟨edge.symm, by omega, fun cycle => ?_⟩
    rcases settled.alone_or_follows closer with alone | ⟨parent, follows⟩
    · exact edge.ne (settled.distinct (alone.fields.2.1.symm.trans cycle))
    · obtain rfl : parent = node := settled.distinct (follows.syncAddr_eq.symm.trans cycle)
      have far := settled.dist_le_height connected (follows.masterAddr_eq.symm.trans below)
      have lower := follows.height_eq
      omega
  obtain ⟨counter, metric⟩ := settled.pair_of_masterAddr below
  rcases settled.alone_or_follows node with alone | ⟨parent, follows⟩
  · have other : node ≠ leader := by
      rintro rfl
      rw [SimpleGraph.dist_self] at nearer
      exact Nat.succ_ne_zero _ nearer
    have best := electionRank_le_iff.mp (alone.greatest closer may)
    obtain ⟨_, _, ownCounter, ownMetric, _⟩ := alone.fields
    have worse := strict node other
    rw [counter, metric, ownCounter, ownMetric] at best
    omega
  · have best := electionRank_le_iff.mp (follows.greatest closer may)
    have bound := settled.master_le (greatest_of_strict strict) parent
    rw [counter, metric] at best
    have origin : (record parent).masterAddr = (record leader).selfAddr :=
      settled.masterAddr_eq_of_pair strict (by omega) (by omega)
    have above := follows.height_eq
    exact ⟨follows.masterAddr_eq.trans origin, by omega⟩

/-- Every node is below the leader at the height of its distance. -/
theorem below_leader (connected : graph.Connected)
    (near : ∀ node, graph.dist leader node ≤ 10) (node : Node) :
    (record node).masterAddr = (record leader).selfAddr ∧
      (record node).height.toNat = graph.dist leader node := by
  have upper : (record node).masterAddr = (record leader).selfAddr ∧
      (record node).height.toNat ≤ graph.dist leader node := by
    induction level : graph.dist leader node generalizing node with
    | zero =>
        obtain rfl : leader = node := (connected.dist_eq_zero_iff).mp level
        have alone := settled.leader_alone (greatest_of_strict strict)
        exact ⟨alone.fields.1, by rw [alone.fields.2.2.2.2]; exact le_refl 0⟩
    | succ distance ih =>
        have other : node ≠ leader := by
          rintro rfl
          rw [SimpleGraph.dist_self] at level
          exact Nat.succ_ne_zero _ level.symm
        obtain ⟨closer, edge, nearer⟩ := HopCount.exists_closer connected other
        obtain ⟨below, low⟩ := ih closer (by omega)
        rw [← level]
        exact settled.pulled strict connected edge nearer (near node) below (by omega)
  exact ⟨upper.1, le_antisymm upper.2 (settled.dist_le_height connected upper.1)⟩

end SettledElection

/-- **Agreement over several hops.** When one node has the strictly greatest pair
of counter and metric and no node is further than the height limit from it, a
settled election has it as the master of all nodes, with the distance as the
height and with sync masters that are neighbours one step closer. -/
theorem multihop_agreement (settled : SettledElection hash graph record peers)
    (connected : graph.Connected) {leader : Node}
    (strict : ∀ node, node ≠ leader →
      (record node).selfCounter.toNat < (record leader).selfCounter.toNat ∨
      (record node).selfCounter.toNat = (record leader).selfCounter.toNat ∧
        (record node).selfMetric.toNat < (record leader).selfMetric.toNat)
    (near : ∀ node, graph.dist leader node ≤ awdlElectionTreeMaxHeight.toNat) (node : Node) :
    (record node).masterAddr = (record leader).selfAddr ∧
      (record node).height.toNat = graph.dist leader node ∧
      (node = leader → (record node).syncAddr = (record leader).selfAddr) ∧
      (node ≠ leader → ∃ parent, graph.Adj node parent ∧
        (record node).syncAddr = (record parent).selfAddr ∧
        graph.dist leader parent + 1 = graph.dist leader node) := by
  obtain ⟨below, height⟩ := settled.below_leader strict connected near node
  refine ⟨below, height, ?_, fun other => ?_⟩
  · rintro rfl
    exact (settled.leader_alone (SettledElection.greatest_of_strict strict)).fields.2.1
  · have above : (record node).height.toNat ≠ 0 := by
      rw [height]
      exact fun zero => other ((connected.dist_eq_zero_iff).mp zero).symm
    obtain ⟨parent, follows⟩ := settled.follows_of_height_ne_zero above
    refine ⟨parent, follows.may.1, follows.syncAddr_eq, ?_⟩
    rw [← (settled.below_leader strict connected near parent).2, ← height, follows.height_eq]

/-! ## A settled path of nodes -/

/-- The path of three nodes: `none` is next to the two others. -/
def pathOfThree : SimpleGraph (Option Bool) where
  Adj one two := one.isSome ≠ two.isSome
  symm := ⟨fun _ _ different => different.symm⟩
  loopless := ⟨fun _ different => different rfl⟩

instance : DecidableRel pathOfThree.Adj :=
  fun one two => inferInstanceAs (Decidable (one.isSome ≠ two.isSome))

theorem pathOfThree_connected : pathOfThree.Connected := by
  refine (SimpleGraph.connected_iff_exists_forall_reachable _).mpr ⟨none, fun node => ?_⟩
  cases node with
  | none => exact .refl none
  | some side =>
      have edge : pathOfThree.Adj none (some side) := Bool.false_ne_true
      exact edge.reachable

theorem pathOfThree_dist :
    pathOfThree.dist (some true) none = 1 ∧ pathOfThree.dist (some true) (some false) = 2 := by
  have first : pathOfThree.Adj (some true) none := Bool.false_ne_true.symm
  have second : pathOfThree.Adj none (some false) := Bool.false_ne_true
  refine ⟨SimpleGraph.dist_eq_one_iff_adj.mpr first, le_antisymm ?_ ?_⟩
  · exact SimpleGraph.dist_le (.cons first (.cons second .nil))
  · exact pathOfThree_connected.one_lt_dist_of_ne_of_not_adj (by decide) fun edge => edge rfl

theorem pathOfThree_near (node : Option Bool) :
    pathOfThree.dist (some true) node ≤ awdlElectionTreeMaxHeight.toNat := by
  cases node with
  | none => rw [pathOfThree_dist.1]; decide
  | some side =>
      cases side with
      | true => rw [SimpleGraph.dist_self]; exact Nat.zero_le _
      | false => rw [pathOfThree_dist.2]; decide

/-- The node at one end has the greatest metric, and the other end is two hops from it. -/
def pathRecord : Option Bool → AwdlElectionState
  | some true => pairRecord true
  | none => pairRecord false
  | some false =>
      { masterAddr := testAddr 1
        syncAddr := testAddr 0
        selfAddr := testAddr 2
        height := 2
        masterMetric := 500
        selfMetric := 60
        masterCounter := 0
        selfCounter := 0 }

/-- The valid peer with the current record of a node of the path. -/
def pathPeer (node : Option Bool) : AwdlPeer :=
  { freshPeer default (pathRecord node).selfAddr 0 with
    isValid := true
    election := pathRecord node }

/-- The neighbours of a node of the path. -/
def pathNeighbors : Option Bool → List (Option Bool)
  | some _ => [none]
  | none => [some true, some false]

theorem mem_pathNeighbors {node other : Option Bool} :
    other ∈ pathNeighbors node ↔ pathOfThree.Adj node other := by
  revert node other
  decide

/-- The tables of nodes on the path that know their neighbours. All addresses have one
hash. -/
def pathTable (known : Option Bool → AwdlPeer) (node : Option Bool) : AwdlPeers :=
  awdlPeersOf (fun _ => 0) ((pathNeighbors node).map known)

theorem pathTable_spec {known : Option Bool → AwdlPeer}
    (own : ∀ node, (known node).election.selfAddr = (known node).addr)
    (distinct : ∀ node, (((pathNeighbors node).map known).map (·.addr)).Nodup)
    (placed : ∀ node, (pathTable known node).size = ((pathNeighbors node).map known).length)
    (node : Option Bool) :
    AwdlPeersWf (fun _ => 0) (pathTable known node) ∧
      ∀ addr peer, (pathTable known node).toMap addr = some peer ↔
        ∃ other, pathOfThree.Adj node other ∧ addr = (known other).addr ∧ peer = known other := by
  have keyed : ∀ peer ∈ (pathNeighbors node).map known, peer.election.selfAddr = peer.addr := by
    intro peer member
    obtain ⟨other, _, rfl⟩ := List.mem_map.mp member
    exact own other
  obtain ⟨wf, stored⟩ := awdlPeersOf_spec keyed (distinct node) (placed node)
  refine ⟨wf, fun addr peer => (stored addr peer).trans ⟨?_, ?_⟩⟩
  · rintro ⟨member, rfl⟩
    obtain ⟨other, next, rfl⟩ := List.mem_map.mp member
    exact ⟨other, mem_pathNeighbors.mp next, rfl, rfl⟩
  · rintro ⟨other, edge, rfl, rfl⟩
    exact ⟨List.mem_map_of_mem (mem_pathNeighbors.mpr edge), rfl⟩

theorem path_settled :
    SettledElection (fun _ => 0) pathOfThree pathRecord (pathTable pathPeer) := by
  have known := @pathTable_spec pathPeer (fun _ => rfl) (by decide) (by decide +kernel)
  refine ⟨fun node => (known node).1.table, ?_, ?_, ?_, by decide +kernel⟩
  · intro one two same
    revert one two
    decide
  · intro node other edge
    exact ⟨pathPeer other, ((known node).2 _ _).mpr ⟨other, edge, rfl, rfl⟩, rfl, rfl⟩
  · intro node addr peer stored
    obtain ⟨other, edge, rfl, rfl⟩ := ((known node).2 _ _).mp stored
    exact ⟨other, edge, rfl, rfl⟩

/-- On the path the far end follows the node between, below a master two hops away. -/
theorem multihop_agreement_path :
    (pathRecord (some false)).masterAddr = testAddr 1 ∧
      (pathRecord (some false)).height.toNat =
        pathOfThree.dist (some true) (some false) ∧
      ∃ parent, pathOfThree.Adj (some false) parent ∧
        (pathRecord (some false)).syncAddr = (pathRecord parent).selfAddr ∧
        pathOfThree.dist (some true) parent = 1 := by
  have strict : ∀ node, node ≠ some true →
      (pathRecord node).selfCounter.toNat < (pathRecord (some true)).selfCounter.toNat ∨
      (pathRecord node).selfCounter.toNat = (pathRecord (some true)).selfCounter.toNat ∧
        (pathRecord node).selfMetric.toNat < (pathRecord (some true)).selfMetric.toNat := by
    decide
  obtain ⟨master, height, _, below⟩ := multihop_agreement path_settled pathOfThree_connected
    strict pathOfThree_near (some false)
  obtain ⟨parent, edge, sync, closer⟩ := below (by decide)
  rw [pathOfThree_dist.2] at closer
  exact ⟨master, height, parent, edge, sync, Nat.succ.inj closer⟩

end Owl
