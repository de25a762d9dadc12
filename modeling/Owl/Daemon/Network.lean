import Owl.Awdl.Election
import Owl.Foundation.Run
import Owl.Rx.SyncState
import Owl.Tx.Advertise

/-! # A network of nodes

Nodes that send their action frames to each other. Frames are lost, duplicated,
delayed and reordered: what has been sent may be received at any time, any number
of times and by any node. A record that a node keeps of itself or of a
peer is one that a node has really come to (`Genuine`), so no node ever follows a
master that does not exist (`no_invented_masters`).
-/

namespace Owl

open Transition

variable {Node : Type} {platform : Node → Platform}

/-! ## Messages -/

/-- An action frame on its way, with the state from which it was built. -/
structure ActionMessage where
  sender : AwdlState
  width : LongWidth
  clock : TxClock
  type : AwdlActionType

/-- The body of the frame that `awdl_init_full_action_frame` builds. -/
def ActionMessage.body (message : ActionMessage) : List UInt8 :=
  awdlInitAction message.clock.action message.type ++
    actionTlvs message.width message.clock.sync message.sender message.type

/-- A captured frame that carries a message. Its radiotap header and its check
sequence are what the receiving hardware makes of it, and it may be damaged so
that the node does not get to its body. -/
def Carries (platform : Platform) (env : RxEnv) (bytes : List UInt8) (receiver : AwdlState)
    (message : ActionMessage) : Prop :=
  ∀ rx, parseFrame platform env (bufNewConst bytes) receiver = .ok rx →
    rx.hdr.addr2 = message.sender.selfAddress ∧
      frameType rx.hdr.frameControl = ieee80211Action ∧ rx.body.view = message.body

/-- What `awdl_init_full_action_frame` writes carries its message. -/
theorem carries_awdlInitFullActionFrame {platform : Platform} {env : RxEnv} {receiver : AwdlState}
    (accepts : AcceptsTxHeader platform) (flags : env.flags = 0) {layer : Ieee80211State}
    (fcs : layer.fcs = false) (message : ActionMessage) :
    Carries platform env
      (awdlInitFullActionFrame message.width message.clock message.sender layer message.type).1
      receiver message := by
  intro rx parsed
  rw [awdlInitFullActionFrame_bytes fcs] at parsed
  have shown : rx.hdr = ⟨ieee80211Action, message.sender.dst, message.sender.selfAddress⟩ :=
    (parseFrame_ok parsed).1.trans (ofBytes_ieee80211InitAwdlHdr _ _ layer ieee80211Action _)
  have foreign := (parseFrame_ok parsed).2.1
  rw [shown] at foreign
  obtain ⟨body, viewed, again⟩ := @parseFrame_tx platform env accepts flags
    message.sender.selfAddress message.sender.dst receiver foreign layer ieee80211Action
    message.body
  cases parsed.symm.trans again
  exact ⟨rfl, frameType_ieee80211Action, viewed⟩

/-- What a node does with a message that it gets to: nothing but losing peers, or
it takes over what the message says. -/
theorem awdlRxAction_message {platform : Platform} {env : RxEnv} {frame : Buf} {rssi : Int8}
    {dst : EtherAddr} {receiver next : AwdlState} {message : ActionMessage} {result : RxResult}
    {events : List Callback} (advertises : Advertises message.sender)
    (wf : AwdlPeersWf platform.hash receiver.peers.peers)
    (presence : receiver.sync.presenceMode = 4) (viewed : frame.view = message.body)
    (done : awdlRxAction platform env frame rssi env.now message.sender.selfAddress dst receiver =
      some (result, next, events)) :
    (∀ query found, next.peers.peers.toMap query = some found →
        receiver.peers.peers.toMap query = some found) ∨
      ∃ peer, Learned message.sender message.type
          (receiver.peers.peers.toMap message.sender.selfAddress) peer ∧
        next.peers.peers.toMap = Function.update receiver.peers.peers.toMap
          message.sender.selfAddress (some peer) := by
  have header : awdlParseActionHdr frame = some message.type := awdlParseActionHdr_tx viewed
  have original := done
  unfold awdlRxAction at done
  rw [header] at done
  dsimp only at done
  split at done
  · cases done
    exact Or.inl fun _ _ stored => stored
  rename_i admitted
  split at done
  · cases done
  rename_i status peers added add
  split at done
  · rename_i failure
    cases done
    left
    rcases awdlPeerAdd_starts wf.table add with ⟨_, success, _⟩ | ⟨_, _, _, _, part⟩
    · exact absurd failure success
    · exact part
  rename_i success
  have room : receiver.peers.peers.toMap message.sender.selfAddress = none → ∃ peers events,
      awdlPeerAdd platform.hash env.peer receiver.peers.peers message.sender.selfAddress env.now
        receiver.peerCb = some (.ok, peers, events) := by
    intro missing
    obtain ⟨_, ⟨_, stored, _⟩ | ⟨_, rfl, _⟩ | ⟨_, rfl, _⟩⟩ := awdlPeerAdd_cases wf.table add
    · cases missing.symm.trans stored
    · exact ⟨peers, added, add⟩
    · exact absurd (by decide) success
  obtain ⟨start, _, _, _, starts, handled, stored⟩ :=
    @awdlRxAction_tx platform { env with rssi := rssi } message.sender receiver frame
      message.width message.clock dst message.type advertises wf presence
      (Bool.eq_false_iff.mpr admitted) room viewed
  cases original.symm.trans handled
  exact Or.inr ⟨_, learned_of_starts advertises wf starts, stored⟩

/-! ## Steps -/

/-- Nodes, and the action frames that have been sent. -/
structure Network (Node : Type) where
  node : Node → AwdlState
  sent : List ActionMessage

/-- What a node does besides: it leaves the election, the peers, the sync state
and what identifies the node alone. -/
structure OtherWork (before after : AwdlState) : Prop where
  election : after.election = before.election
  peers : after.peers.peers = before.peers.peers
  sync : after.sync = before.sync
  selfAddress : after.selfAddress = before.selfAddress
  name : after.name = before.name
  enc : after.channel.enc = before.channel.enc

section Steps

variable [DecidableEq Node]

/-- The network after a step of one node. -/
def Network.set (net : Network Node) (i : Node) (state : AwdlState) : Network Node :=
  { net with node := Function.update net.node i state }

@[simp] theorem Network.node_set_self (net : Network Node) (i : Node) (state : AwdlState) :
    (net.set i state).node i = state := Function.update_self ..

@[simp] theorem Network.node_set_of_ne (net : Network Node) {i other : Node} (state : AwdlState)
    (different : other ≠ i) : (net.set i state).node other = net.node other :=
  Function.update_of_ne different ..

variable (platform) in
/-- A step of a node: it sends an action frame, receives a capture of one that has
been sent, runs the election, drops a peer or the old ones, or does other work. -/
inductive NetStep (net : Network Node) : Node → Unit → Network Node → Prop
  | send (i : Node) (clock : TxClock) (type : AwdlActionType) :
      NetStep net i ()
        { net with sent := ⟨net.node i, (platform i).long, clock, type⟩ :: net.sent }
  | receive (i : Node) {env : RxEnv} {bytes : List UInt8} {out : List Buf}
      {message : ActionMessage} {outcome : RxOutcome} (sent : message ∈ net.sent)
      (carries : Carries (platform i) env bytes (net.node i) message)
      (done : awdlRx (platform i) env (bufNewConst bytes) out (net.node i) = some outcome) :
      NetStep net i () (net.set i outcome.state)
  | elect (i : Node) :
      NetStep net i () (net.set i { net.node i with
        election := awdlElectionRun (net.node i).election (net.node i).peers.peers })
  | remove (i : Node) (addr : EtherAddr) (cb : Bool) :
      NetStep net i () (net.set i { net.node i with
        peers.peers :=
          (awdlPeerRemove (platform i).hash (net.node i).peers.peers addr cb).2.1 })
  | sweep (i : Node) (before : UInt64) (cb : Bool) :
      NetStep net i () (net.set i { net.node i with
        peers.peers := (awdlPeersRemove (net.node i).peers.peers before cb).1 })
  | work (i : Node) {next : AwdlState} (other : OtherWork (net.node i) next) :
      NetStep net i () (net.set i next)

end Steps

variable (platform) in
/-- A network before anything has been sent: nodes with distinct addresses and
any metric and counter of their own, each its own master and without peers. -/
structure Network.Initial (net : Network Node) : Prop where
  distinct : Function.Injective fun i => (net.node i).selfAddress
  advertises : ∀ i, Advertises (net.node i)
  sync : ∀ i, SyncReachable (platform i).long (net.node i).sync
  reset : ∀ i, awdlElectionResetSelf (net.node i).election = (net.node i).election
  peers : ∀ i, (net.node i).peers.peers = awdlPeersInit
  sent : net.sent = []

/-! ## The invariant -/

section Invariant

variable (identity : Node → AwdlElectionState)

/-- A record that a node can really come to, among nodes with these identities. -/
structure Genuine (i : Node) (record : AwdlElectionState) : Prop where
  selfAddr : record.selfAddr = (identity i).selfAddr
  selfMetric : record.selfMetric = (identity i).selfMetric
  selfCounter : record.selfCounter = (identity i).selfCounter
  master : ∃ j, record.masterAddr = (identity j).selfAddr ∧
    record.masterMetric = (identity j).selfMetric ∧
    record.masterCounter = (identity j).selfCounter
  low : record.height ≤ awdlElectionTreeMaxHeight
  ground : record.masterAddr = record.selfAddr ↔ record.height = 0

variable (platform) in
/-- A node with a genuine record and a table of such records. -/
structure GenuineNode (i : Node) (state : AwdlState) : Prop where
  table : AwdlPeersWf (platform i).hash state.peers.peers
  advertises : Advertises state
  sync : SyncReachable (platform i).long state.sync
  record : Genuine identity i state.election
  peers : ∀ addr peer, state.peers.peers.toMap addr = some peer →
    ∃ j, Genuine identity j peer.election

variable (platform) in
/-- The invariant of a network: nodes, peer tables and messages on their way. -/
structure GenuineNetwork (net : Network Node) : Prop where
  nodes : ∀ i, GenuineNode platform identity i (net.node i)
  messages : ∀ message ∈ net.sent, Advertises message.sender ∧
    ∃ j, Genuine identity j message.sender.election

variable {identity} {i : Node} {state : AwdlState} {record : AwdlElectionState}

/-- A node that is its own master. -/
theorem genuine_reset (addr : record.selfAddr = (identity i).selfAddr)
    (metric : record.selfMetric = (identity i).selfMetric)
    (counter : record.selfCounter = (identity i).selfCounter) :
    Genuine identity i (awdlElectionResetSelf record) where
  selfAddr := addr
  selfMetric := metric
  selfCounter := counter
  master := ⟨i, addr, metric, counter⟩
  low := UInt32.zero_le
  ground := iff_of_true rfl rfl

/-- A peer that wins an election does not follow the node itself: its master data
would be that of the node, and the node is nearer to itself. -/
theorem masterAddr_ne_of_wins (distinct : Function.Injective fun i => (identity i).selfAddr)
    {map : EtherAddr → Option AwdlPeer} {addr : EtherAddr} {peer : AwdlPeer} {j : Node}
    (own : Genuine identity i record) (other : Genuine identity j peer.election)
    (wins : Wins record map addr peer) : peer.election.masterAddr ≠ record.selfAddr := by
  intro loops
  obtain ⟨k, masterAddr, masterMetric, masterCounter⟩ := other.master
  obtain rfl : k = i := distinct (masterAddr.symm.trans (loops.trans own.selfAddr))
  have better := electionRank_lt_iff.mp wins.better
  rw [masterMetric, masterCounter, ← own.selfMetric, ← own.selfCounter] at better
  dsimp only [awdlElectionResetSelf] at better
  have near : peer.election.height.toNat = 0 ∧
      record.selfAddr.toNat < peer.election.selfAddr.toNat := by
    rw [UInt32.toNat_zero] at better
    omega
  have ground : peer.election.masterAddr = peer.election.selfAddr :=
    other.ground.mpr (UInt32.toNat_inj.mp near.1)
  rw [← ground, loops] at near
  exact absurd near.2 (Nat.lt_irrefl _)

/-- **An election keeps the record genuine.** -/
theorem Genuine.elect (distinct : Function.Injective fun i => (identity i).selfAddr)
    {hash : EtherAddr → UInt64} {peers : AwdlPeers} (own : Genuine identity i record)
    (wf : AwdlPeersWf hash peers)
    (genuine : ∀ addr peer, peers.toMap addr = some peer →
      ∃ j, Genuine identity j peer.election) :
    Genuine identity i (awdlElectionRun record peers) := by
  rcases awdlElectionRun_cases wf.table record with ⟨alone, _⟩ | ⟨addr, peer, wins, adopted⟩
  · rw [alone]
    exact genuine_reset own.selfAddr own.selfMetric own.selfCounter
  · obtain ⟨j, other⟩ := genuine addr peer wins.stored
    have low := UInt32.le_iff_toNat_le.mp other.low
    have foreign := masterAddr_ne_of_wins distinct own other wins
    rw [adopted]
    refine ⟨own.selfAddr, own.selfMetric, own.selfCounter, other.master, wins.eligible.2.1, ?_⟩
    refine iff_of_false foreign ?_
    intro zero
    have wrapped := congrArg UInt32.toNat zero
    dsimp only [adoptMaster, awdlElectionTreeMaxHeight] at wrapped low
    rw [UInt32.toNat_add] at wrapped
    simp only [UInt32.reduceToNat] at wrapped low
    omega

/-- A node with the same identity and other genuine records of its peers. -/
theorem GenuineNode.sameNode (genuine : GenuineNode platform identity i state) {next : AwdlState}
    (table : AwdlPeersWf (platform i).hash next.peers.peers)
    (sync : SyncReachable (platform i).long next.sync) (same : SameNode state next)
    (peers : ∀ addr peer, next.peers.peers.toMap addr = some peer →
      ∃ j, Genuine identity j peer.election) : GenuineNode platform identity i next where
  table := table
  advertises := by
    obtain ⟨enc, own, name⟩ := genuine.advertises
    rw [same]
    exact ⟨enc, own, name⟩
  sync := sync
  record := by
    rw [same.election_eq]
    exact genuine.record
  peers := peers

/-- A node whose table has lost records. -/
theorem GenuineNode.submap (genuine : GenuineNode platform identity i state) {next : AwdlState}
    (table : AwdlPeersWf (platform i).hash next.peers.peers)
    (sync : SyncReachable (platform i).long next.sync) (same : SameNode state next)
    (part : ∀ addr peer, next.peers.peers.toMap addr = some peer →
      state.peers.peers.toMap addr = some peer) : GenuineNode platform identity i next :=
  genuine.sameNode table sync same fun addr peer stored =>
    genuine.peers addr peer (part addr peer stored)

/-- **A message keeps a node genuine.** -/
theorem GenuineNode.receive (genuine : GenuineNode platform identity i state) {env : RxEnv}
    {bytes : List UInt8} {out : List Buf} {message : ActionMessage} {outcome : RxOutcome}
    (advertises : Advertises message.sender) {j : Node}
    (origin : Genuine identity j message.sender.election)
    (carries : Carries (platform i) env bytes state message)
    (done : awdlRx (platform i) env (bufNewConst bytes) out state = some outcome) :
    GenuineNode platform identity i outcome.state := by
  obtain ⟨table, same, _⟩ := awdlRx_effect genuine.table done
  have sync := awdlRx_syncReachable genuine.sync done
  unfold awdlRx at done
  split at done
  · cases done
    exact genuine
  rename_i rx parsed
  obtain ⟨src, type, viewed⟩ := carries rx parsed
  rw [dispatchFrame_of_action type] at done
  obtain ⟨⟨result, next, events⟩, handled, rfl⟩ := Option.map_eq_some_iff.mp done
  rw [src] at handled
  rcases awdlRxAction_message advertises genuine.table genuine.sync.wf.presenceMode viewed
    handled with part | ⟨peer, learned, stored⟩
  · exact genuine.submap table sync same part
  · refine genuine.sameNode table sync same ?_
    intro addr found present
    dsimp only at present
    rw [stored] at present
    by_cases sender : addr = message.sender.selfAddress
    · rw [sender, Function.update_self] at present
      cases present
      rw [learned.election]
      exact ⟨j, origin⟩
    · rw [Function.update_of_ne sender] at present
      exact genuine.peers addr found present

/-- A node of a network takes a step. -/
theorem GenuineNetwork.set [DecidableEq Node] {net : Network Node}
    (genuine : GenuineNetwork platform identity net) {next : AwdlState}
    (node : GenuineNode platform identity i next) :
    GenuineNetwork platform identity (net.set i next) where
  nodes := by
    intro other
    by_cases same : other = i
    · rw [same, Network.node_set_self]
      exact node
    · rw [net.node_set_of_ne next same]
      exact genuine.nodes other
  messages := genuine.messages

/-- **Every step keeps the network genuine.** -/
theorem NetStep.genuine [DecidableEq Node] {net next : Network Node}
    (distinct : Function.Injective fun i => (identity i).selfAddr)
    (genuine : GenuineNetwork platform identity net) (step : NetStep platform net i () next) :
    GenuineNetwork platform identity next := by
  have node := genuine.nodes i
  cases step with
  | send clock type =>
      refine ⟨genuine.nodes, ?_⟩
      intro message sent
      rcases List.mem_cons.mp sent with rfl | earlier
      · exact ⟨node.advertises, i, node.record⟩
      · exact genuine.messages message earlier
  | receive sent carries done =>
      obtain ⟨advertises, j, origin⟩ := genuine.messages _ sent
      exact genuine.set (node.receive advertises origin carries done)
  | elect =>
      have own := (awdlElectionRun_self node.table.table (net.node i).election).1
      obtain ⟨enc, address, name⟩ := node.advertises
      refine genuine.set ⟨node.table, ⟨enc, own.trans address, name⟩, node.sync, ?_, node.peers⟩
      exact node.record.elect distinct node.table node.peers
  | remove addr cb =>
      obtain ⟨_, table, removed, _⟩ := awdlPeerRemove_spec node.table.table addr cb
      have part : ∀ query peer, (awdlPeerRemove (platform i).hash (net.node i).peers.peers addr
          cb).2.1.toMap query = some peer → (net.node i).peers.peers.toMap query = some peer := by
        intro query peer stored
        rw [removed] at stored
        by_cases same : query = addr
        · rw [same, Function.update_self] at stored
          cases stored
        · rw [Function.update_of_ne same] at stored
          exact stored
      exact genuine.set (node.submap (node.table.submap table part) node.sync rfl part)
  | sweep before cb =>
      obtain ⟨table, kept⟩ := awdlPeersRemove_spec node.table.table before cb
      have part : ∀ query peer, (awdlPeersRemove (net.node i).peers.peers before cb).1.toMap query =
          some peer → (net.node i).peers.peers.toMap query = some peer := by
        intro query peer stored
        rw [kept, Option.filter_eq_some_iff] at stored
        exact stored.1
      exact genuine.set (node.submap (node.table.submap table part) node.sync rfl part)
  | work other =>
      obtain ⟨election, peers, sync, selfAddress, name, enc⟩ := other
      obtain ⟨opclass, address, terminated⟩ := node.advertises
      refine genuine.set ⟨?_, ⟨?_, ?_, ?_⟩, ?_, ?_, ?_⟩
      · rw [peers]
        exact node.table
      · rw [enc]
        exact opclass
      · rw [election, selfAddress]
        exact address
      · rw [name]
        exact terminated
      · rw [sync]
        exact node.sync
      · rw [election]
        exact node.record
      · rw [peers]
        exact node.peers

end Invariant

/-! ## Runs -/

/-- A network starts with the records of its nodes. -/
theorem Network.Initial.genuine {net : Network Node} (initial : net.Initial platform) :
    GenuineNetwork platform (fun i => (net.node i).election) net where
  nodes := by
    intro i
    refine ⟨?_, initial.advertises i, initial.sync i, ?_, ?_⟩
    · rw [initial.peers i]
      exact awdlPeersInit_wf
    · have own : Genuine (fun i => (net.node i).election) i
          (awdlElectionResetSelf (net.node i).election) := genuine_reset rfl rfl rfl
      rw [initial.reset i] at own
      exact own
    · intro addr peer stored
      rw [initial.peers i, awdlPeersInit, toMap_hashmapNew] at stored
      cases stored
  messages := by
    intro message sent
    rw [initial.sent] at sent
    exact absurd sent List.not_mem_nil

/-- **No invented masters.** In every state that a network reaches, the master
data of each node is the address, the metric and the counter of a node of the
network, its height is at most the limit, and it is its own master exactly if its
height is zero. -/
theorem no_invented_masters [DecidableEq Node] {start net : Network Node}
    (initial : start.Initial platform) {trace : List (Node × Unit)}
    (run : Run (NetStep platform) start trace net) (i : Node) :
    (∃ j, (net.node i).election.masterAddr = (net.node j).selfAddress ∧
        (net.node i).election.masterMetric = (net.node j).election.selfMetric ∧
        (net.node i).election.masterCounter = (net.node j).election.selfCounter) ∧
      (net.node i).election.height ≤ awdlElectionTreeMaxHeight ∧
      ((net.node i).election.masterAddr = (net.node i).selfAddress ↔
        (net.node i).election.height = 0) := by
  have distinct : Function.Injective fun i => (start.node i).election.selfAddr := by
    simp only [fun i => (initial.advertises i).own]
    exact initial.distinct
  have genuine := run.invariant (GenuineNetwork platform fun i => (start.node i).election)
    initial.genuine fun _ _ _ _ genuine step => step.genuine distinct genuine
  have record := (genuine.nodes i).record
  obtain ⟨j, addr, metric, counter⟩ := record.master
  have origin := (genuine.nodes j).record
  refine ⟨⟨j, ?_, ?_, ?_⟩, record.low, ?_⟩
  · rw [← (genuine.nodes j).advertises.own, origin.selfAddr, addr]
  · rw [origin.selfMetric, metric]
  · rw [origin.selfCounter, counter]
  · rw [← (genuine.nodes i).advertises.own]
    exact record.ground

/-- Two nodes, of which one has a counter. -/
def sampleNetwork : Network Bool where
  node
    | true => { sampleSender with
        election := awdlElectionResetSelf { sampleSender.election with selfCounter := 5 } }
    | false => sampleState
  sent := []

theorem sampleNetwork_initial : sampleNetwork.Initial fun _ => samplePlatform where
  distinct := by decide
  advertises := by
    intro i
    cases i with
    | true => exact ⟨rfl, rfl, by decide⟩
    | false => exact ⟨rfl, rfl, by decide⟩
  sync := by
    intro i
    cases i with
    | true => exact .init 0
    | false => exact .init 0
  reset := by
    intro i
    cases i with
    | true => rfl
    | false => rfl
  peers := by
    intro i
    cases i with
    | true => rfl
    | false => rfl
  sent := rfl

/-- The message of the node with the counter. -/
def sampleMessage : ActionMessage := ⟨sampleNetwork.node true, .bits64, ⟨5, 6⟩, .mif⟩

/-- After one frame and one election the other node is below a master that exists. -/
theorem no_invented_masters_two : ∃ trace net,
    Run (NetStep fun _ : Bool => samplePlatform) sampleNetwork trace net ∧
      (net.node false).election.height = 1 ∧
      (net.node false).election.masterAddr ≠ (net.node false).selfAddress := by
  have computed : (awdlRx samplePlatform (sampleEnv 7) (bufNewConst
      (awdlInitFullActionFrame .bits64 ⟨5, 6⟩ sampleMessage.sender ieee80211InitState .mif).1) []
      (sampleNetwork.node false)).map (fun outcome =>
        (awdlElectionRun outcome.state.election outcome.state.peers.peers).height) = some 1 := by
    decide +kernel
  obtain ⟨outcome, done, height⟩ := Option.map_eq_some_iff.mp computed
  have sent : NetStep (fun _ => samplePlatform) sampleNetwork true ()
      ⟨sampleNetwork.node, [sampleMessage]⟩ := .send true ⟨5, 6⟩ .mif
  have received : NetStep (fun _ => samplePlatform) ⟨sampleNetwork.node, [sampleMessage]⟩
      false () (Network.set ⟨sampleNetwork.node, [sampleMessage]⟩ false outcome.state) :=
    .receive false List.mem_cons_self (carries_awdlInitFullActionFrame
      samplePlatform_acceptsTxHeader rfl rfl sampleMessage) done
  have run := ((Run.nil.cons sent).cons received).cons (.elect false)
  have ground := (no_invented_masters sampleNetwork_initial run false).2.2
  simp only [Network.node_set_self] at run ground
  refine ⟨_, _, run, ?_⟩
  rw [Network.node_set_self]
  refine ⟨height, ?_⟩
  intro own
  rw [ground, height] at own
  cases own

end Owl
