import Owl.Awdl.ElectionRounds
import Owl.Daemon.Invariant
import Owl.Daemon.Network

/-! # A network of daemons in range of each other

Daemons on the nodes of a graph hear the action frames of their neighbours, clean
their peer tables and do other work, in any order. Frames may be damaged or too weak.
What a step can do to the records of the election is said once (`RadioStep.change`): an
election on what is left of the table, a new record of a neighbour, or losing records.
-/

namespace Owl

open Transition

/-! ## A heard frame -/

/-- The record of a sender after one of its frames, if the receiver takes it. -/
def heardPeer (sender : AwdlState) (type : AwdlActionType) (start : AwdlPeer) (now : UInt64) :
    AwdlPeer :=
  touchedPeer (closedPeer type (advertisedPeer sender type start)) now

/-- A record that was valid stays so. -/
theorem heardPeer_isValid {sender : AwdlState} {type : AwdlActionType} {start : AwdlPeer}
    (valid : start.isValid = true) (now : UInt64) :
    (heardPeer sender type start now).isValid = true := by
  have closed : (closedPeer type (advertisedPeer sender type start)).isValid = true := by
    rw [closedPeer_isValid]
    exact valid
  unfold heardPeer touchedPeer
  rw [closed, Bool.true_or]

/-- What a daemon does with an action frame of another one: if it does not accept the
frame it has lost records at most, otherwise it has the record that the frame tells. -/
theorem awdlRxAction_heard {platform : Platform} {env : RxEnv} {frame : Buf} {rssi : Int8}
    {dst : EtherAddr} {receiver next : AwdlState} {message : ActionMessage} {result : RxResult}
    {events : List Callback} (advertises : Advertises message.sender)
    (wf : AwdlPeersWf platform.hash receiver.peers.peers)
    (presence : receiver.sync.presenceMode = 4) (viewed : frame.view = message.body)
    (done : awdlRxAction platform env frame rssi env.now message.sender.selfAddress dst receiver =
      some (result, next, events)) :
    (result ≠ .ok ∧ next.sync = receiver.sync ∧ ∀ query found,
        next.peers.peers.toMap query = some found →
          receiver.peers.peers.toMap query = some found) ∨
      result = .ok ∧ ∃ start added,
        Starts receiver.peers.peers.toMap env.peer.memory message.sender.selfAddress
          env.now receiver.peerCb start added ∧
        next.peers.peers.toMap = Function.update receiver.peers.peers.toMap
          message.sender.selfAddress
            (some (heardPeer message.sender message.type start env.now)) := by
  have header : awdlParseActionHdr frame = some message.type := awdlParseActionHdr_tx viewed
  have original := done
  unfold awdlRxAction at done
  rw [header] at done
  dsimp only at done
  split at done
  · cases done
    exact Or.inl ⟨RxResult.noConfusion, rfl, fun _ _ stored => stored⟩
  rename_i admitted
  split at done
  · cases done
  rename_i status peers added add
  split at done
  · rename_i failure
    cases done
    left
    rcases awdlPeerAdd_starts wf.table add with ⟨_, success, _⟩ | ⟨_, _, _, _, part⟩
    · exact absurd failure success
    · exact ⟨RxResult.noConfusion, rfl, part⟩
  rename_i success
  have room : receiver.peers.peers.toMap message.sender.selfAddress = none → ∃ peers events,
      awdlPeerAdd platform.hash env.peer receiver.peers.peers message.sender.selfAddress env.now
        receiver.peerCb = some (.ok, peers, events) := by
    intro missing
    obtain ⟨_, ⟨_, stored, _⟩ | ⟨_, rfl, _⟩ | ⟨_, rfl, _⟩⟩ := awdlPeerAdd_cases wf.table add
    · cases missing.symm.trans stored
    · exact ⟨peers, added, add⟩
    · exact absurd (by decide) success
  obtain ⟨start, _, _, _, starts, handled, stored⟩ :=
    @awdlRxAction_tx platform { env with rssi := rssi } message.sender receiver frame
      message.width message.clock dst message.type advertises wf presence
      (Bool.eq_false_iff.mpr admitted) room viewed
  cases original.symm.trans handled
  exact Or.inr ⟨rfl, start, _, starts, stored⟩

/-! ## Steps -/

variable {Node : Type} {platform : Node → Platform} {graph : SimpleGraph Node}

/-- What happens in a network: a daemon captures an action frame of another one, cleans
its peer table or does other work. -/
inductive RadioLabel (Node : Type)
  | hear (receiver sender : Node) (type : AwdlActionType)
  | clean (node : Node)
  | work (node : Node)

/-- Other work leaves what the frames of a daemon say alone, but for its channels. -/
structure Background (before after : AwdlState) : Prop extends OtherWork before after where
  version : after.version = before.version
  devClass : after.devClass = before.devClass

variable (platform graph) in
/-- A step of a network, with the result of `awdl_rx` if a frame is captured. Frames
reach the neighbours of the sender, and they may be damaged or too weak. A captured frame
tells of its sender as it is at that time: none is under way while the sender changes. -/
inductive RadioStep [DecidableEq Node] (net : Node → DaemonState) :
    RadioLabel Node → Option RxResult → (Node → DaemonState) → Prop
  | hear {i j : Node} {type : AwdlActionType} {env : RxEnv} {bytes : List UInt8}
      {clock : TxClock} {outcome : ReceiveOutcome} (edge : graph.Adj i j)
      (carries : Carries (platform i) env bytes (net i).awdlState
        ⟨(net j).awdlState, (platform j).long, clock, type⟩)
      (done : awdlReceiveFrame (platform i) env bytes (net i) = some outcome) :
      RadioStep net (.hear i j type) (some outcome.result) (Function.update net i outcome.state)
  | clean {i : Node} (now : UInt64) :
      RadioStep net (.clean i) none (Function.update net i (awdlCleanPeers now (net i)).1)
  | work {i : Node} {next : DaemonState} (other : Background (net i).awdlState next.awdlState) :
      RadioStep net (.work i) none (Function.update net i next)

variable (platform graph) in
/-- A step with which no daemon loses a peer: frames come often enough that none times
out, and there is memory for their senders. -/
def SteadyStep [DecidableEq Node] (net : Node → DaemonState) (label : RadioLabel Node)
    (output : Option RxResult) (after : Node → DaemonState) : Prop :=
  RadioStep platform graph net label output after ∧
    ∀ i addr, ((net i).awdlState.peers.peers.toMap addr).isSome →
      ((after i).awdlState.peers.peers.toMap addr).isSome

theorem SteadyStep.radio [DecidableEq Node] (net : Node → DaemonState) (label : RadioLabel Node)
    (output : Option RxResult) (after : Node → DaemonState)
    (step : SteadyStep platform graph net label output after) :
    RadioStep platform graph net label output after :=
  step.1

/-! ## Daemons -/

section Daemons

variable (platform graph) (identity : Node → AwdlElectionState)

/-- A daemon of a network: its frames are well-formed, its election record carries its
identity, and it has records of neighbours only. -/
structure Station (i : Node) (state : AwdlState) : Prop where
  table : AwdlPeersWf (platform i).hash state.peers.peers
  advertises : Advertises state
  sync : SyncReachable (platform i).long state.sync
  version : state.version ≠ 0
  devClass : state.devClass ≠ 0
  own : Identified identity i state.election
  neighbours : Surrounded graph identity (fun _ _ => True) i state.peers.peers

variable {platform graph identity} {i j : Node} {state next : AwdlState}

theorem Station.selfAddress (station : Station platform graph identity i state) :
    state.selfAddress = (identity i).selfAddr :=
  station.advertises.own.symm.trans station.own.selfAddr

/-- A table that has lost records. -/
theorem Surrounded.submap {Level : Node → AwdlElectionState → Prop} {peers fewer : AwdlPeers}
    (table : Surrounded graph identity Level i peers)
    (part : ∀ addr peer, fewer.toMap addr = some peer → peers.toMap addr = some peer) :
    Surrounded graph identity Level i fewer :=
  fun addr peer stored => table addr peer (part addr peer stored)

/-- A table with another record of a neighbour. -/
theorem Surrounded.update {Level : Node → AwdlElectionState → Prop} {peers other : AwdlPeers}
    (table : Surrounded graph identity Level i peers) (edge : graph.Adj i j) {peer : AwdlPeer}
    (self : peer.election.selfAddr = (identity j).selfAddr) (level : Level j peer.election)
    (stored : other.toMap = Function.update peers.toMap (identity j).selfAddr (some peer)) :
    Surrounded graph identity Level i other := by
  intro addr found present
  rw [stored] at present
  by_cases same : addr = (identity j).selfAddr
  · rw [same, Function.update_self] at present
    cases present
    exact ⟨j, edge, same, self, level⟩
  · rw [Function.update_of_ne same] at present
    exact table addr found present

/-- A daemon that is the same node with another table and sync state. -/
theorem Station.sameNode (station : Station platform graph identity i state)
    (table : AwdlPeersWf (platform i).hash next.peers.peers)
    (sync : SyncReachable (platform i).long next.sync) (same : SameNode state next)
    (neighbours : Surrounded graph identity (fun _ _ => True) i next.peers.peers) :
    Station platform graph identity i next := by
  obtain ⟨_, ⟨enc, own, name⟩, _, version, devClass, identified, _⟩ := station
  rw [same]
  rw [same] at table sync neighbours
  exact ⟨table, ⟨enc, own, name⟩, sync, version, devClass, identified, neighbours⟩

/-! ## What a step does -/

variable (graph identity) in
/-- What a step does to the node that takes it: an election on what is left of its
table, losing records at most, or a new record of a neighbour that is as that
neighbour is at the time. -/
inductive NodeChange (net : Node → DaemonState) (i : Node) (next : AwdlState) :
    RadioLabel Node → Option RxResult → Prop
  | elected (part : ∀ addr peer, next.peers.peers.toMap addr = some peer →
        (net i).awdlState.peers.peers.toMap addr = some peer)
      (election : next.election =
        awdlElectionRun (net i).awdlState.election next.peers.peers) :
      NodeChange net i next (.clean i) none
  | lost {label : RadioLabel Node} {output : Option RxResult}
      (part : ∀ addr peer, next.peers.peers.toMap addr = some peer →
        (net i).awdlState.peers.peers.toMap addr = some peer)
      (election : next.election = (net i).awdlState.election)
      (idle : ∀ j, label ≠ .clean j) (unheard : output ≠ some .ok) :
      NodeChange net i next label output
  | heard {j : Node} {type : AwdlActionType} {output : Option RxResult} {peer : AwdlPeer}
      (edge : graph.Adj i j) (election : next.election = (net i).awdlState.election)
      (record : peer.election = (net j).awdlState.election)
      (valid : (type = .mif ∨ ∃ known, (net i).awdlState.peers.peers.toMap
        (identity j).selfAddr = some known ∧ known.isValid = true) → peer.isValid = true)
      (stored : next.peers.peers.toMap = Function.update (net i).awdlState.peers.peers.toMap
        (identity j).selfAddr (some peer)) :
      NodeChange net i next (.hear i j type) output

/-- **A captured action frame of a neighbour.** -/
theorem Station.hear {net : Node → DaemonState} {env : RxEnv} {bytes : List UInt8}
    {clock : TxClock} {type : AwdlActionType} {outcome : ReceiveOutcome}
    (receiver : Station platform graph identity i (net i).awdlState)
    (sender : Station platform graph identity j (net j).awdlState) (edge : graph.Adj i j)
    (carries : Carries (platform i) env bytes (net i).awdlState
      ⟨(net j).awdlState, (platform j).long, clock, type⟩)
    (done : awdlReceiveFrame (platform i) env bytes (net i) = some outcome) :
    Station platform graph identity i outcome.state.awdlState ∧
      NodeChange graph identity net i outcome.state.awdlState (.hear i j type)
        (some outcome.result) := by
  obtain ⟨table, same, _⟩ := awdlReceiveFrame_effect receiver.table done
  obtain ⟨rx, received, rfl⟩ := Option.map_eq_some_iff.mp done
  have counted : (countUnknown rx.result rx.state).peers = rx.state.peers ∧
      (countUnknown rx.result rx.state).sync = rx.state.sync := by
    unfold countUnknown
    split <;> exact ⟨rfl, rfl⟩
  have sync : SyncReachable (platform i).long (countUnknown rx.result rx.state).sync := by
    rw [counted.2]
    exact awdlRx_syncReachable receiver.sync received
  dsimp only at table same ⊢
  have change : (rx.result ≠ .ok ∧ ∀ query found, rx.state.peers.peers.toMap query = some found →
        (net i).awdlState.peers.peers.toMap query = some found) ∨
      ∃ start added, Starts (net i).awdlState.peers.peers.toMap env.peer.memory
          (net j).awdlState.selfAddress env.now (net i).awdlState.peerCb start added ∧
        rx.state.peers.peers.toMap = Function.update (net i).awdlState.peers.peers.toMap
          (net j).awdlState.selfAddress
            (some (heardPeer (net j).awdlState type start env.now)) := by
    unfold awdlRx at received
    split at received
    · rename_i result failed
      cases received
      exact Or.inl ⟨parseFrame_error failed, fun _ _ stored => stored⟩
    rename_i parsed opened
    obtain ⟨src, action, viewed⟩ := carries parsed opened
    rw [dispatchFrame_of_action action] at received
    obtain ⟨⟨result, next, events⟩, handled, rfl⟩ := Option.map_eq_some_iff.mp received
    rw [src] at handled
    refine (awdlRxAction_heard sender.advertises receiver.table receiver.sync.wf.presenceMode viewed
      handled).imp ?_ And.right
    exact fun failure => ⟨failure.1, failure.2.2⟩
  rw [← counted.1] at change
  rcases change with ⟨failed, part⟩ | ⟨start, added, starts, stored⟩
  · refine ⟨receiver.sameNode table sync same (receiver.neighbours.submap part), ?_⟩
    exact .lost part same.election_eq (fun _ same => by cases same) (by simpa using failed)
  · have learned : Learned (net j).awdlState type _ (heardPeer _ type start env.now) :=
      learned_of_starts sender.advertises receiver.table starts
    rw [sender.selfAddress] at stored
    have neighbours := receiver.neighbours.update edge
      (learned.election ▸ sender.own.selfAddr) trivial stored
    refine ⟨receiver.sameNode table sync same neighbours, ?_⟩
    refine .heard edge same.election_eq learned.election ?_ stored
    rintro (rfl | ⟨known, present, valid⟩)
    · exact (learned.mif rfl).2.2 sender.version sender.devClass
    · rw [← sender.selfAddress] at present
      rcases starts with ⟨peer, kept, rfl, _⟩ | ⟨missing, _⟩
      · cases present.symm.trans kept
        refine heardPeer_isValid ?_ env.now
        unfold touchedPeer
        rw [valid, Bool.true_or]
      · cases missing.symm.trans present

/-- **The cases of a step.** -/
theorem RadioStep.change [DecidableEq Node] {net after : Node → DaemonState}
    {label : RadioLabel Node} {output : Option RxResult}
    (stations : ∀ i, Station platform graph identity i (net i).awdlState)
    (step : RadioStep platform graph net label output after) :
    ∃ i state, after = Function.update net i state ∧
      Station platform graph identity i state.awdlState ∧
        NodeChange graph identity net i state.awdlState label output := by
  cases step with
  | @hear i j type env bytes clock outcome edge carries done =>
      exact ⟨i, _, rfl, (stations i).hear (stations j) edge carries done⟩
  | @clean i now =>
      have station := stations i
      obtain ⟨peers, keyed, kept, cleaned⟩ := awdlCleanPeers_effect now station.table
      have part : ∀ addr peer, peers.toMap addr = some peer →
          (net i).awdlState.peers.peers.toMap addr = some peer := by
        intro addr peer stored
        rw [kept] at stored
        exact survivors_eq_some stored
      obtain ⟨enc, own, name⟩ := station.advertises
      refine ⟨i, _, rfl, ?_, ?_⟩
      · rw [cleaned]
        refine ⟨keyed, ⟨enc, ?_, name⟩, station.sync, station.version, station.devClass, ?_, ?_⟩
        · exact (awdlElectionRun_self keyed.table _).1.trans own
        · exact station.own.elect keyed.table
        · exact station.neighbours.submap part
      · rw [cleaned]
        exact .elected part rfl
  | @work i next other =>
      have station := stations i
      obtain ⟨⟨election, peers, sync, selfAddress, name, enc⟩, version, devClass⟩ := other
      obtain ⟨opclass, own, terminated⟩ := station.advertises
      refine ⟨i, _, rfl, ⟨?_, ⟨?_, ?_, ?_⟩, ?_, ?_, ?_, ?_, ?_⟩, ?_⟩
      · rw [peers]
        exact station.table
      · rw [enc]
        exact opclass
      · rw [election, selfAddress]
        exact own
      · rw [name]
        exact terminated
      · rw [sync]
        exact station.sync
      · rw [version]
        exact station.version
      · rw [devClass]
        exact station.devClass
      · rw [election]
        exact station.own
      · rw [peers]
        exact station.neighbours
      · exact .lost (by rw [peers]; exact fun _ _ stored => stored) election
          (fun _ same => by cases same) (Option.some_ne_none RxResult.ok).symm

variable (platform graph identity) in
/-- A network of daemons. -/
def Stations (net : Node → DaemonState) : Prop :=
  ∀ i, Station platform graph identity i (net i).awdlState

theorem Stations.step [DecidableEq Node] {net after : Node → DaemonState}
    {label : RadioLabel Node} {output : Option RxResult}
    (stations : Stations platform graph identity net)
    (step : RadioStep platform graph net label output after) :
    Stations platform graph identity after := by
  obtain ⟨i, state, rfl, station, _⟩ := step.change stations
  intro other
  by_cases same : other = i
  · subst same
    rw [Function.update_self]
    exact station
  · rw [Function.update_of_ne same]
    exact stations other

end Daemons

end Owl
