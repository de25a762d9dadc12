import Owl.Daemon.Core
import Owl.Rx.Isolation

/-! # Invariants of the daemon

What holds in every state that a daemon reaches by receiving frames and cleaning
its peer table: the table is well-formed, the node is not its own peer, and the
node's election record carries its own address (`DaemonWf`). On top of it, the
height of the node is within its limit and zero exactly for a node that is its
own sync master, as long as no node that advertises the largest height wins.
-/

namespace Owl

open Transition

variable {platform : Platform}

/-- The invariant of a daemon. -/
structure DaemonWf (platform : Platform) (state : DaemonState) : Prop where
  table : AwdlPeersWf platform.hash state.awdlState.peers.peers
  foreign : state.awdlState.peers.peers.toMap state.awdlState.selfAddress = none
  own : state.awdlState.election.selfAddr = state.awdlState.selfAddress
  peerCb : state.awdlState.peerCb = true
  peerRemoveCb : state.awdlState.peerRemoveCb = true

theorem awdlInit_wf (name : List UInt8) (election : AwdlElectionState) (hostname : List UInt8)
    (self : EtherAddr) (chan : AwdlChan) (now : UInt64) :
    DaemonWf platform (awdlInit name election hostname self chan now) :=
  ⟨awdlPeersInit_wf, toMap_hashmapNew self, rfl, rfl, rfl⟩

theorem mainInit_wf (name : List UInt8) (election : AwdlElectionState) (hostname : List UInt8)
    (self : EtherAddr) (chan : AwdlChan) (now : UInt64) (filterRssi : Bool) :
    DaemonWf platform (mainInit name election hostname self chan now filterRssi) :=
  ⟨awdlPeersInit_wf, toMap_hashmapNew self, rfl, rfl, rfl⟩

/-! ## One event -/

/-- What a received frame does to a daemon. -/
theorem awdlReceiveFrame_effect {env : RxEnv} {buf : List UInt8} {state : DaemonState}
    {outcome : ReceiveOutcome} (wf : AwdlPeersWf platform.hash state.awdlState.peers.peers)
    (done : awdlReceiveFrame platform env buf state = some outcome) :
    AwdlPeersWf platform.hash outcome.state.awdlState.peers.peers ∧
      SameNode state.awdlState outcome.state.awdlState ∧
      RxEffect platform env (bufNewConst buf) state.awdlState outcome.state.awdlState
        outcome.result outcome.events := by
  obtain ⟨rx, received, rfl⟩ := Option.map_eq_some_iff.mp done
  obtain ⟨keyed, same, effect⟩ := awdlRx_effect wf received
  dsimp only [countUnknown]
  split
  · exact ⟨keyed, same.trans rfl, effect.stats _⟩
  · exact ⟨keyed, same, effect⟩

/-- The peers that a clean-up at a time keeps. -/
def survivors (now : UInt64) (state : AwdlState) (addr : EtherAddr) : Option AwdlPeer :=
  (state.peers.peers.toMap addr).filter
    fun peer => !decide (peer.lastUpdate < now - state.peers.timeout)

/-- What a clean-up does to a daemon: it keeps the survivors and runs the election on them. -/
theorem awdlCleanPeers_effect {state : DaemonState} (now : UInt64)
    (wf : AwdlPeersWf platform.hash state.awdlState.peers.peers) :
    ∃ peers, AwdlPeersWf platform.hash peers ∧ peers.toMap = survivors now state.awdlState ∧
      (awdlCleanPeers now state).1.awdlState =
        { state.awdlState with
          peers.peers := peers
          election := awdlElectionRun state.awdlState.election peers } := by
  obtain ⟨table, kept⟩ := awdlPeersRemove_spec wf.table
    (now - state.awdlState.peers.timeout) state.awdlState.peerRemoveCb
  refine ⟨_, wf.submap table fun addr peer stored => ?_, funext kept, rfl⟩
  rw [kept addr, Option.filter_eq_some_iff] at stored
  exact stored.1

theorem survivors_eq_some {now : UInt64} {state : AwdlState} {addr : EtherAddr} {peer : AwdlPeer}
    (kept : survivors now state addr = some peer) : state.peers.peers.toMap addr = some peer :=
  (Option.filter_eq_some_iff.mp kept).1

theorem survivors_eq_none {now : UInt64} {state : AwdlState} {addr : EtherAddr}
    (missing : state.peers.peers.toMap addr = none) : survivors now state addr = none := by
  unfold survivors
  rw [missing, Option.filter_none]

/-- A received frame adds no peer with the address of the node. -/
theorem RxEffect.foreign {env : RxEnv} {buf : List UInt8} {state next : AwdlState}
    {result : RxResult} {events : List Callback}
    (effect : RxEffect platform env (bufNewConst buf) state next result events)
    (foreign : state.peers.peers.toMap state.selfAddress = none) :
    next.peers.peers.toMap state.selfAddress = none := by
  cases effect with
  | untouched _ counted _ =>
      rw [counted]
      exact foreign
  | action parsed type effect =>
      have stranger := (parseFrame_ok parsed).2.1
      cases effect with
      | refused _ same _ =>
          rw [same]
          exact foreign
      | exhausted _ _ _ part =>
          rw [Option.eq_none_iff_forall_ne_some]
          intro peer present
          rw [part _ _ present] at foreign
          cases foreign
      | aborted _ stored =>
          rw [stored, Function.update_of_ne stranger.symm]
          exact foreign
      | completed _ _ stored =>
          rw [stored, Function.update_of_ne stranger.symm]
          exact foreign

/-- **Every event keeps the invariant.** -/
theorem DaemonWf.step {state next : DaemonState} {label : DaemonLabel} {output : DaemonOutput}
    (wf : DaemonWf platform state) (step : DaemonStep platform state label output next) :
    DaemonWf platform next := by
  cases label with
  | receive env buf =>
      obtain ⟨outcome, done, rfl, _⟩ := step
      obtain ⟨keyed, same, effect⟩ := awdlReceiveFrame_effect wf.table done
      refine ⟨keyed, ?_, ?_, ?_, ?_⟩
      · rw [same.selfAddress_eq]
        exact effect.foreign wf.foreign
      · rw [same.election_eq, same.selfAddress_eq, wf.own]
      · rw [same.peerCb_eq, wf.peerCb]
      · rw [same]
        exact wf.peerRemoveCb
  | clean now =>
      obtain ⟨rfl, _⟩ := step
      obtain ⟨peers, keyed, kept, after⟩ := awdlCleanPeers_effect now wf.table
      have missing : peers.toMap state.awdlState.selfAddress = none := by
        rw [kept]
        exact survivors_eq_none wf.foreign
      refine ⟨?_, ?_, ?_, ?_, ?_⟩ <;> rw [after]
      · exact keyed
      · exact missing
      · exact (awdlElectionRun_self keyed.table _).1.trans wf.own
      · exact wf.peerCb
      · exact wf.peerRemoveCb

/-! ## The height of the node -/

/-- A clean-up that is not won by a record with the largest height. -/
def HeightGuard (state : DaemonState) : DaemonLabel → Prop
  | .receive _ _ => True
  | .clean now => ∀ addr peer,
      Wins state.awdlState.election (survivors now state.awdlState) addr peer →
        peer.election.height ≠ 0xffffffff

/-- An event of a daemon whose clean-ups are guarded. -/
def GuardedStep (platform : Platform) (state : DaemonState) (label : DaemonLabel)
    (output : DaemonOutput) (next : DaemonState) : Prop :=
  DaemonStep platform state label output next ∧ HeightGuard state label

/-- The height of a node is limited, and zero exactly when it is its own sync master. -/
structure HeightOk (state : AwdlElectionState) : Prop where
  limited : state.height ≤ awdlElectionTreeMaxHeight
  ground : state.height = 0 ↔ state.syncAddr = state.selfAddr

/-- The height stays right in a run of the election that the largest height does not win. -/
theorem awdlElectionRun_heightOk {hash : EtherAddr → UInt64} {peers : AwdlPeers}
    {state : AwdlElectionState} (wf : AwdlPeersWf hash peers)
    (foreign : peers.toMap state.selfAddr = none)
    (guarded : ∀ addr peer, Wins state peers.toMap addr peer →
      peer.election.height ≠ 0xffffffff) :
    HeightOk (awdlElectionRun state peers) := by
  refine ⟨awdlElectionRun_height_le wf.table state, ?_⟩
  rcases awdlElectionRun_cases wf.table state with ⟨alone, _⟩ | ⟨addr, peer, wins, adopted⟩
  · rw [alone]
    exact iff_of_true rfl rfl
  · rw [adopted]
    refine iff_of_false (fun zero => guarded addr peer wins ?_) (fun self => ?_)
    · have wrapped : peer.election.height + 1 = 0 := zero
      calc peer.election.height = peer.election.height + 1 - 1 :=
            (UInt32.add_sub_cancel peer.election.height 1).symm
        _ = 0 - 1 := by rw [wrapped]
        _ = 0xffffffff := by decide
    · have address : addr = state.selfAddr :=
        (wf.keyed addr peer wins.stored).selfAddr_eq.symm.trans self
      rw [address] at wins
      rw [wins.stored] at foreign
      cases foreign

/-- **The height of the node over runs.** In every run whose clean-ups are not won
by a record with the largest height, the height is at most the limit, and zero
exactly when the node is its own sync master. -/
theorem daemon_height_of_guarded (platform : Platform) {name : List UInt8}
    {election : AwdlElectionState} {hostname : List UInt8} {self : EtherAddr} {chan : AwdlChan}
    {now : UInt64} {trace : List (DaemonLabel × DaemonOutput)} {state : DaemonState}
    (run : Run (GuardedStep platform) (awdlInit name election hostname self chan now) trace
      state) :
    state.awdlState.election.height ≤ awdlElectionTreeMaxHeight ∧
      (state.awdlState.election.height = 0 ↔
        state.awdlState.election.syncAddr = state.awdlState.election.selfAddr) := by
  have initially : HeightOk (awdlInit name election hostname self chan now).awdlState.election :=
    ⟨UInt32.zero_le, iff_of_true rfl rfl⟩
  have invariant : DaemonWf platform state ∧ HeightOk state.awdlState.election := by
    refine run.invariant (fun state => DaemonWf platform state ∧
      HeightOk state.awdlState.election) ⟨awdlInit_wf .., initially⟩ ?_
    rintro state label output next ⟨wf, heightOk⟩ ⟨step, guarded⟩
    refine ⟨wf.step step, ?_⟩
    cases label with
    | receive env buf =>
        obtain ⟨outcome, done, rfl, _⟩ := step
        rw [(awdlReceiveFrame_effect wf.table done).2.1.election_eq]
        exact heightOk
    | clean now =>
        obtain ⟨rfl, _⟩ := step
        obtain ⟨peers, keyed, kept, after⟩ := awdlCleanPeers_effect now wf.table
        rw [after]
        apply awdlElectionRun_heightOk keyed
        · rw [kept, wf.own]
          exact survivors_eq_none wf.foreign
        · rw [kept]
          exact guarded
  exact ⟨invariant.2.limited, invariant.2.ground⟩

/-- A daemon that has just been initialised. -/
def sampleDaemon : DaemonState :=
  awdlInit (List.replicate 65 0) default [111, 119, 108] ⟨2, 0, 0, 0, 0, 1⟩ chanOpclass6 0

/-- A MIF that advertises a height and a better counter than that of a new node. -/
def sampleMif (src : EtherAddr) (height : UInt32) : List UInt8 :=
  sampleFrame ieee80211Action src (sampleActionHdr .mif ++
    tlvBytes .electionParametersV2 (src.octets ++ src.octets ++ le32 1 ++ le32 height ++
      le32 100 ++ le32 100 ++ le32 0 ++ le32 0 ++ le32 1) ++
    tlvBytes .version [0x34, 1])

/-- A node that advertises the largest height is adopted with height zero. -/
theorem daemon_height_wraps : ∃ trace state, Run (DaemonStep samplePlatform) sampleDaemon trace
    state ∧ ¬(state.awdlState.election.height ≤ awdlElectionTreeMaxHeight ∧
      (state.awdlState.election.height = 0 ↔
        state.awdlState.election.syncAddr = state.awdlState.election.selfAddr)) := by
  have computed : ((awdlReceiveFrame samplePlatform (sampleEnv 3000000)
      (sampleMif ⟨2, 0, 0, 0, 0, 2⟩ 0xffffffff) sampleDaemon).map fun outcome =>
        let after := (awdlCleanPeers 3000001 outcome.state).1.awdlState.election
        (after.height, after.syncAddr, after.selfAddr)) =
      some (0, ⟨2, 0, 0, 0, 0, 2⟩, ⟨2, 0, 0, 0, 0, 1⟩) := by
    decide +kernel
  obtain ⟨outcome, done, after⟩ := Option.map_eq_some_iff.mp computed
  simp only [Prod.mk.injEq] at after
  obtain ⟨height, sync, self⟩ := after
  refine ⟨_, _, (Run.nil.cons (.receive done)).cons (.clean _ 3000001 _), ?_⟩
  rw [height, sync, self]
  decide

/-- A node that advertises height zero is adopted with height one. -/
theorem daemon_height_of_guarded_sample : ∃ trace state,
    Run (GuardedStep samplePlatform) sampleDaemon trace state ∧
      state.awdlState.election.height = 1 ∧
      state.awdlState.election.syncAddr ≠ state.awdlState.election.selfAddr := by
  have computed : ((awdlReceiveFrame samplePlatform (sampleEnv 3000000)
      (sampleMif ⟨2, 0, 0, 0, 0, 2⟩ 0) sampleDaemon).map fun outcome =>
        ((Slots.entries outcome.state.awdlState.peers.peers.data).map (·.2.election.height),
          (awdlCleanPeers 3000001 outcome.state).1.awdlState.election.height)) =
      some ([0], 1) := by
    decide +kernel
  obtain ⟨outcome, done, after⟩ := Option.map_eq_some_iff.mp computed
  simp only [Prod.mk.injEq] at after
  have wf := (awdlReceiveFrame_effect (awdlInit_wf ..).table done).1
  have guarded : HeightGuard outcome.state (.clean 3000001) := by
    intro addr peer wins tall
    have stored := (Slots.toMap_eq_some_iff wf.table.distinct).mp (survivors_eq_some wins.stored)
    have listed := List.mem_map_of_mem (f := fun entry => entry.2.election.height) stored
    rw [after.1, tall] at listed
    exact absurd listed (by decide)
  have run : Run (GuardedStep samplePlatform) sampleDaemon _
      (awdlCleanPeers 3000001 outcome.state).1 :=
    (Run.nil.cons ⟨.receive done, trivial⟩).cons ⟨.clean _ 3000001 _, guarded⟩
  refine ⟨_, _, run, after.2, fun alone => ?_⟩
  rw [← (daemon_height_of_guarded samplePlatform run).2, after.2] at alone
  exact absurd alone (by decide)

end Owl
