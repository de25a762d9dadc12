import Owl.Awdl.ElectionAgreement

/-! # Elections from any records

Nodes run the election over whatever records they have of their neighbours. A record is
rooted if its master data is that of a node, along a walk of as many hops as its height
says. Every run over records that are rooted or at least so high yields one that is
rooted or one higher (`Traced.elect`), and no run yields one above the limit, so data
of masters that are gone runs out. Once all records are rooted, the node with the
greatest counter and metric draws the others to it, one hop more with every run
(`Drawn.elect`), and each node follows the same neighbour for ever (`Drawn.elect_parent`).
-/

namespace Owl

variable {hash : EtherAddr → UInt64} {Node : Type} {graph : SimpleGraph Node}
  {identity : Node → AwdlElectionState} {node origin : Node} {record : AwdlElectionState}
  {peers : AwdlPeers} {level : ℕ}

/-- A record of a node: its address, metric and counter are those of the node. -/
structure Identified (identity : Node → AwdlElectionState) (node : Node)
    (record : AwdlElectionState) : Prop where
  selfAddr : record.selfAddr = (identity node).selfAddr
  selfMetric : record.selfMetric = (identity node).selfMetric
  selfCounter : record.selfCounter = (identity node).selfCounter

/-- An election leaves the identity alone. -/
theorem Identified.elect (wf : peers.Wf hash) (own : Identified identity node record) :
    Identified identity node (awdlElectionRun record peers) := by
  obtain ⟨addr, metric, counter⟩ := awdlElectionRun_self wf record
  exact ⟨addr.trans own.selfAddr, metric.trans own.selfMetric, counter.trans own.selfCounter⟩

/-! ## Rooted records -/

variable (graph identity) in
/-- A record whose master data is that of another node or of the node itself, at the end
of a walk as long as the height, the last but one node of which is the sync master. -/
structure Rooted (node origin : Node) (record : AwdlElectionState) : Prop where
  masterAddr : record.masterAddr = (identity origin).selfAddr
  masterMetric : record.masterMetric = (identity origin).selfMetric
  masterCounter : record.masterCounter = (identity origin).selfCounter
  parent : (record.height = 0 ∧ origin = node ∧ record.syncAddr = (identity node).selfAddr) ∨
    ∃ parent, graph.Adj node parent ∧ record.syncAddr = (identity parent).selfAddr ∧
      ∃ walk : graph.Walk origin parent, walk.length + 1 = record.height.toNat

theorem Rooted.walk (rooted : Rooted graph identity node origin record) :
    ∃ walk : graph.Walk origin node, walk.length = record.height.toNat := by
  rcases rooted.parent with ⟨height, rfl, _⟩ | ⟨parent, edge, _, walk, length⟩
  · exact ⟨.nil, by rw [height]; rfl⟩
  · refine ⟨walk.concat edge.symm, ?_⟩
    rw [SimpleGraph.Walk.length_concat, length]

theorem Rooted.dist_le (rooted : Rooted graph identity node origin record) :
    graph.dist origin node ≤ record.height.toNat := by
  obtain ⟨walk, length⟩ := rooted.walk
  rw [← length]
  exact SimpleGraph.dist_le walk

/-- A node that is its own master. -/
theorem Identified.rooted_reset (own : Identified identity node record) :
    Rooted graph identity node node (awdlElectionResetSelf record) where
  masterAddr := own.selfAddr
  masterMetric := own.selfMetric
  masterCounter := own.selfCounter
  parent := Or.inl ⟨rfl, rfl, own.selfAddr⟩

/-- A record below the limit leaves room for one more hop. -/
theorem toNat_height_succ (low : record.height ≤ awdlElectionTreeMaxHeight) :
    (record.height + 1).toNat = record.height.toNat + 1 := by
  have bound : record.height.toNat ≤ 10 := UInt32.le_iff_toNat_le.mp low
  rw [UInt32.toNat_add, UInt32.toNat_one, Nat.mod_eq_of_lt (by omega)]

/-- A node that follows a neighbour with a rooted record. -/
theorem Rooted.adopt {other : Node} {best : AwdlElectionState}
    (rooted : Rooted graph identity other origin best) (edge : graph.Adj node other)
    (addr : best.selfAddr = (identity other).selfAddr)
    (low : best.height ≤ awdlElectionTreeMaxHeight) (own : AwdlElectionState) :
    Rooted graph identity node origin (adoptMaster own best) where
  masterAddr := rooted.masterAddr
  masterMetric := rooted.masterMetric
  masterCounter := rooted.masterCounter
  parent := by
    obtain ⟨walk, length⟩ := rooted.walk
    refine Or.inr ⟨other, edge, addr, walk, ?_⟩
    rw [length]
    exact (toNat_height_succ low).symm

variable (graph identity) in
/-- A record that is rooted, or at least so high. -/
def Traced (level : ℕ) (node : Node) (record : AwdlElectionState) : Prop :=
  record.height ≤ awdlElectionTreeMaxHeight ∧
    ((∃ origin, Rooted graph identity node origin record) ∨ level ≤ record.height.toNat)

theorem Traced.mono {lower : ℕ} (traced : Traced graph identity level node record)
    (below : lower ≤ level) : Traced graph identity lower node record :=
  ⟨traced.1, traced.2.imp_right below.trans⟩

/-- At a level above the limit only rooted records are left. -/
theorem Traced.rooted (traced : Traced graph identity level node record) (above : 11 ≤ level) :
    ∃ origin, Rooted graph identity node origin record := by
  obtain ⟨low, rooted | high⟩ := traced
  · exact rooted
  · have bound : record.height.toNat ≤ 10 := UInt32.le_iff_toNat_le.mp low
    omega

/-- No election leads above the limit, whatever the records say. -/
theorem traced_zero (wf : peers.Wf hash) (record : AwdlElectionState) (node : Node) :
    Traced graph identity 0 node (awdlElectionRun record peers) :=
  ⟨awdlElectionRun_height_le wf record, Or.inr (Nat.zero_le _)⟩

variable (graph identity) in
/-- A table that has records of neighbours only, all of them at a level. -/
def Surrounded (Level : Node → AwdlElectionState → Prop) (node : Node) (peers : AwdlPeers) : Prop :=
  ∀ addr peer, peers.toMap addr = some peer → ∃ other, graph.Adj node other ∧
    addr = (identity other).selfAddr ∧ peer.election.selfAddr = (identity other).selfAddr ∧
      Level other peer.election

theorem Surrounded.mono {Level Weaker : Node → AwdlElectionState → Prop}
    (table : Surrounded graph identity Level node peers)
    (weaker : ∀ other record, Level other record → Weaker other record) :
    Surrounded graph identity Weaker node peers := by
  intro addr peer stored
  obtain ⟨other, edge, key, self, reached⟩ := table addr peer stored
  exact ⟨other, edge, key, self, weaker other peer.election reached⟩

/-- **An election over traced records yields a record one level up.** -/
theorem Traced.elect (wf : peers.Wf hash) (own : Identified identity node record)
    (table : Surrounded graph identity (Traced graph identity level) node peers) :
    Traced graph identity (level + 1) node (awdlElectionRun record peers) := by
  refine ⟨awdlElectionRun_height_le wf record, ?_⟩
  rcases awdlElectionRun_cases wf record with ⟨alone, _⟩ | ⟨addr, peer, wins, adopted⟩
  · rw [alone]
    exact Or.inl ⟨node, own.rooted_reset⟩
  · obtain ⟨other, edge, _, self, low, rooted | high⟩ := table addr peer wins.stored
    · obtain ⟨origin, rooted⟩ := rooted
      rw [adopted]
      exact Or.inl ⟨origin, rooted.adopt edge self low _⟩
    · rw [adopted]
      right
      change level + 1 ≤ (peer.election.height + 1).toNat
      rw [toNat_height_succ low]
      exact Nat.succ_le_succ high

/-! ## The leader -/

variable (identity) in
/-- A node with a greater pair of counter and metric than any other. -/
def Leads (leader : Node) : Prop :=
  ∀ node, node ≠ leader →
    (identity node).selfCounter.toNat < (identity leader).selfCounter.toNat ∨
    (identity node).selfCounter.toNat = (identity leader).selfCounter.toNat ∧
      (identity node).selfMetric.toNat < (identity leader).selfMetric.toNat

/-- Rooted master data as good as that of the leader is that of the leader. -/
theorem Rooted.origin_eq {leader : Node} (leads : Leads identity leader)
    (rooted : Rooted graph identity node origin record)
    (good : (identity leader).selfCounter.toNat < record.masterCounter.toNat ∨
      (identity leader).selfCounter.toNat = record.masterCounter.toNat ∧
        (identity leader).selfMetric.toNat ≤ record.masterMetric.toNat) : origin = leader := by
  by_contra other
  have worse := leads origin other
  rw [rooted.masterCounter, rooted.masterMetric] at good
  omega

variable (graph identity) in
/-- A traced record which, near enough to the leader, is below it at the right height. -/
def Drawn (leader : Node) (level : ℕ) (node : Node) (record : AwdlElectionState) : Prop :=
  Traced graph identity level node record ∧
    (graph.dist leader node + 12 ≤ level →
      record.masterAddr = (identity leader).selfAddr ∧
        record.height.toNat = graph.dist leader node)

theorem Drawn.mono {leader : Node} {lower : ℕ}
    (drawn : Drawn graph identity leader level node record) (below : lower ≤ level) :
    Drawn graph identity leader lower node record :=
  ⟨drawn.1.mono below, fun near => drawn.2 (near.trans below)⟩

theorem drawn_zero {leader : Node} (wf : peers.Wf hash) (record : AwdlElectionState)
    (node : Node) : Drawn graph identity leader 0 node (awdlElectionRun record peers) :=
  ⟨traced_zero wf record node, fun near => by omega⟩

/-- A neighbour that is closer to the leader does not follow the node. -/
theorem Rooted.syncAddr_ne {closer leader : Node} {best : AwdlElectionState}
    (distinct : Function.Injective fun node => (identity node).selfAddr)
    (rooted : Rooted graph identity closer leader best)
    (near : best.height.toNat < graph.dist leader node) :
    best.syncAddr ≠ (identity node).selfAddr := by
  intro same
  rcases rooted.parent with ⟨_, rfl, sync⟩ | ⟨parent, _, sync, walk, length⟩
  · obtain rfl := distinct (sync.symm.trans same)
    rw [SimpleGraph.dist_self] at near
    omega
  · obtain rfl := distinct (sync.symm.trans same)
    have bound := SimpleGraph.dist_le walk
    omega

/-- A neighbour that is closer to the leader may be followed. -/
theorem Rooted.eligible {closer leader : Node} {peer : AwdlPeer}
    (distinct : Function.Injective fun node => (identity node).selfAddr)
    (rooted : Rooted graph identity closer leader peer.election) (valid : peer.isValid = true)
    (low : peer.election.height ≤ awdlElectionTreeMaxHeight) (own : Identified identity node record)
    (limit : graph.dist leader node ≤ 10)
    (height : peer.election.height.toNat + 1 = graph.dist leader node) :
    Eligible record.selfAddr peer := by
  refine ⟨valid, ?_, ?_⟩
  · rw [UInt32.le_iff_toNat_le, toNat_height_succ low]
    exact height.le.trans limit
  · rw [own.selfAddr]
    exact rooted.syncAddr_ne distinct (by omega)

variable (graph identity) in
/-- The neighbour that a node below the leader comes to follow: of the neighbours that are
one hop closer to the leader the one with the greatest address. -/
structure Parent (leader node parent : Node) : Prop where
  edge : graph.Adj node parent
  closer : graph.dist leader parent + 1 = graph.dist leader node
  greatest : ∀ other, graph.Adj node other → graph.dist leader other + 1 = graph.dist leader node →
    (identity other).selfAddr.toNat ≤ (identity parent).selfAddr.toNat

section Leader

variable {leader : Node} (leads : Leads identity leader)
  (distinct : Function.Injective fun node => (identity node).selfAddr)

include leads

/-- Among rooted records the leader follows nobody. -/
theorem elect_leader (wf : peers.Wf hash) (own : Identified identity leader record)
    (table : Surrounded graph identity
      (fun other record => ∃ origin, Rooted graph identity other origin record) leader peers) :
    awdlElectionRun record peers = awdlElectionResetSelf record := by
  rcases awdlElectionRun_cases wf record with ⟨alone, _⟩ | ⟨addr, peer, wins, _⟩
  · exact alone
  · obtain ⟨other, edge, _, _, origin, rooted⟩ := table addr peer wins.stored
    have better := electionRank_lt_iff.mp wins.better
    dsimp only [awdlElectionResetSelf] at better
    rw [own.selfCounter, own.selfMetric, UInt32.toNat_zero] at better
    obtain rfl : origin = leader := rooted.origin_eq leads (by omega)
    have ground : peer.election.height.toNat = 0 := by
      rw [rooted.masterCounter, rooted.masterMetric] at better
      omega
    rcases rooted.parent with ⟨_, rfl, _⟩ | ⟨_, _, _, walk, length⟩
    · exact absurd rfl edge.ne
    · omega

include distinct in
/-- **A node with a neighbour below the leader comes below the leader itself.** -/
theorem elect_closer (wf : peers.Wf hash) (own : Identified identity node record)
    (table : Surrounded graph identity
      (fun other record => record.height ≤ awdlElectionTreeMaxHeight ∧
        ∃ origin, Rooted graph identity other origin record) node peers)
    (other : node ≠ leader) (limit : graph.dist leader node ≤ 10) {closer : Node} {peer : AwdlPeer}
    (stored : peers.toMap (identity closer).selfAddr = some peer) (valid : peer.isValid = true)
    (below : peer.election.masterAddr = (identity leader).selfAddr)
    (height : peer.election.height.toNat + 1 = graph.dist leader node) :
    (awdlElectionRun record peers).masterAddr = (identity leader).selfAddr ∧
      (awdlElectionRun record peers).height.toNat = graph.dist leader node := by
  obtain ⟨found, _, addr, _, low, origin, rooted⟩ := table _ _ stored
  obtain rfl := distinct addr
  obtain rfl : origin = leader := distinct (rooted.masterAddr.symm.trans below)
  have eligible := rooted.eligible distinct valid low own limit height
  have worse := leads node other
  rcases awdlElectionRun_cases wf record with ⟨alone, greatest⟩ | ⟨addr', best, wins, adopted⟩
  · have bound := electionRank_le_iff.mp (greatest _ peer stored eligible)
    dsimp only [awdlElectionResetSelf] at bound
    rw [own.selfCounter, own.selfMetric, rooted.masterCounter, rooted.masterMetric] at bound
    omega
  · obtain ⟨parent, edge, _, self, lowBest, root, rootedBest⟩ := table addr' best wins.stored
    have bound := electionRank_le_iff.mp (wins.greatest _ peer stored eligible)
    rw [rooted.masterCounter, rooted.masterMetric] at bound
    obtain rfl : root = origin := rootedBest.origin_eq leads (by omega)
    rw [rootedBest.masterCounter, rootedBest.masterMetric] at bound
    have adoptedRooted := rootedBest.adopt edge self lowBest (awdlElectionResetSelf record)
    have far := adoptedRooted.dist_le
    rw [← adopted] at adoptedRooted far
    refine ⟨adoptedRooted.masterAddr, le_antisymm ?_ far⟩
    rw [adopted]
    change (best.election.height + 1).toNat ≤ _
    rw [toNat_height_succ lowBest]
    omega

include distinct in
/-- **An election over drawn records yields a record one level up.** -/
theorem Drawn.elect (connected : graph.Connected)
    (near : ∀ node, graph.dist leader node ≤ awdlElectionTreeMaxHeight.toNat)
    (wf : peers.Wf hash) (own : Identified identity node record)
    (table : Surrounded graph identity (Drawn graph identity leader level) node peers)
    (complete : ∀ other, graph.Adj node other → ∃ peer,
      peers.toMap (identity other).selfAddr = some peer ∧ peer.isValid = true) :
    Drawn graph identity leader (level + 1) node (awdlElectionRun record peers) := by
  constructor
  · exact Traced.elect wf own (table.mono fun _ _ drawn => drawn.1)
  intro close
  have rooted : ∀ other (record : AwdlElectionState),
      Drawn graph identity leader level other record →
        ∃ origin, Rooted graph identity other origin record :=
    fun other record drawn => drawn.1.rooted (by omega)
  by_cases same : node = leader
  · subst same
    rw [elect_leader leads wf own (table.mono rooted), SimpleGraph.dist_self]
    exact ⟨own.selfAddr, rfl⟩
  · obtain ⟨closer, edge, nearer⟩ := HopCount.exists_closer connected same
    obtain ⟨peer, stored, valid⟩ := complete closer edge.symm
    obtain ⟨found, _, key, _, drawn⟩ := table _ _ stored
    obtain rfl := distinct key
    obtain ⟨below, height⟩ := drawn.2 (by omega)
    exact elect_closer leads distinct wf own
      (table.mono fun other record drawn => ⟨drawn.1.1, rooted other record drawn⟩) same
      (near node) stored valid below (by omega)

include distinct in
/-- **An election over drawn records picks the parent.** -/
theorem Drawn.elect_parent (connected : graph.Connected)
    (near : ∀ node, graph.dist leader node ≤ awdlElectionTreeMaxHeight.toNat)
    (wf : peers.Wf hash) (own : Identified identity node record)
    (table : Surrounded graph identity (Drawn graph identity leader 22) node peers)
    (complete : ∀ other, graph.Adj node other → ∃ peer,
      peers.toMap (identity other).selfAddr = some peer ∧ peer.isValid = true)
    (other : node ≠ leader) :
    ∃ parent, Parent graph identity leader node parent ∧
      (awdlElectionRun record peers).syncAddr = (identity parent).selfAddr := by
  have limit : ∀ node, graph.dist leader node + 12 ≤ 22 := fun node =>
    Nat.add_le_add_right (near node) 12
  have settled : ∀ (node : Node) (record : AwdlElectionState),
      Drawn graph identity leader 22 node record → Rooted graph identity node leader record ∧
        record.height.toNat = graph.dist leader node := by
    intro node record drawn
    obtain ⟨below, height⟩ := drawn.2 (limit node)
    obtain ⟨origin, rooted⟩ := drawn.1.rooted (by decide)
    obtain rfl : origin = leader := distinct (rooted.masterAddr.symm.trans below)
    exact ⟨rooted, height⟩
  obtain ⟨below, height⟩ := (Drawn.elect leads distinct connected near wf own table complete).2
    (Nat.le_succ_of_le (limit node))
  rcases awdlElectionRun_cases wf record with ⟨alone, _⟩ | ⟨addr, best, wins, adopted⟩
  · rw [alone] at below
    exact absurd (distinct (own.selfAddr.symm.trans below)) other
  · obtain ⟨parent, edge, _, self, drawn⟩ := table addr best wins.stored
    obtain ⟨rooted, high⟩ := settled parent best.election drawn
    have closer : graph.dist leader parent + 1 = graph.dist leader node := by
      rw [← high, ← height, adopted]
      exact (toNat_height_succ drawn.1.1).symm
    refine ⟨parent, ⟨edge, closer, fun third link close => ?_⟩, ?_⟩
    · obtain ⟨peer, stored, valid⟩ := complete third link
      obtain ⟨found, _, key, addr, drawnThird⟩ := table _ _ stored
      obtain rfl := distinct key
      obtain ⟨rootedThird, highThird⟩ := settled third peer.election drawnThird
      have eligible := rootedThird.eligible distinct valid drawnThird.1.1 own (near node)
        (by rw [highThird, close])
      have bound := electionRank_le_iff.mp (wins.greatest _ peer stored eligible)
      rw [rooted.masterCounter, rooted.masterMetric, rootedThird.masterCounter,
        rootedThird.masterMetric, high, highThird, addr, self] at bound
      omega
    · rw [adopted]
      exact self

end Leader

end Owl
