import Owl.Daemon.Rendezvous
import Owl.Rx.Determined

/-! # When peers were last heard

The peer table as what it is for: it tells when each node was last heard. That is a
function of the captured frames and of the times of the clean-ups alone (`lastHeard`).
A frame counts if it is an action frame that is strong enough for its sender, which
depends on whether the sender counts as heard. In every run of the event loop the
addresses in the table and their ages are those of this function
(`loop_last_heard`), whatever the frames say and whatever else the daemon does.
-/

namespace Owl

open Transition

variable {platform : Platform} {wlanIsFile : Bool}

/-! ## The abstract table -/

/-- When each node was last heard, of those that have not been forgotten. -/
abbrev LastHeard : Type := EtherAddr → Option UInt64

/-- A signal is strong enough; a node that has been heard gets a grace. -/
def admits (node : AwdlState) (heard : Bool) (rssi : Int8) : Bool :=
  !node.filterRssi || decide (node.rssiThreshold.toInt +
    (if heard then node.rssiGrace.toInt else 0) ≤ rssi.toInt)

/-- A frame counts: it is an action frame of AWDL that is strong enough. Of `node` only the
settings matter. -/
def Counts (node : AwdlState) (heard : LastHeard) (frame : RxFrame) : Prop :=
  frameType frame.hdr.frameControl = ieee80211Action ∧
    (awdlParseActionHdr frame.body).isSome = true ∧
    admits node (heard frame.hdr.addr2).isSome frame.rssi = true

instance (node : AwdlState) (heard : LastHeard) (frame : RxFrame) :
    Decidable (Counts node heard frame) :=
  inferInstanceAs (Decidable (_ ∧ _ ∧ _))

/-- A frame that counts makes its sender heard. -/
def hearFrame (node : AwdlState) (heard : LastHeard) (env : RxEnv) (frame : RxFrame) : LastHeard :=
  if Counts node heard frame then Function.update heard frame.hdr.addr2 (some env.now) else heard

/-- What a callback of the loop does to the abstract table. -/
def hearStep (platform : Platform) (node : AwdlState) (heard : LastHeard) :
    LoopLabel → LastHeard
  | .wlanReady env bytes =>
      match parseFrame platform env (bufNewConst bytes) node with
      | .error _ => heard
      | .ok frame => hearFrame node heard env frame
  | .peerTimer now => fun addr =>
      (heard addr).filter fun last => !decide (last < now - node.peers.timeout)
  | _ => heard

/-- When each node was last heard after some callbacks, latest first. -/
def lastHeard (platform : Platform) (node : AwdlState) : List LoopLabel → LastHeard
  | [] => fun _ => none
  | label :: labels => hearStep platform node (lastHeard platform node labels) label

/-! ## Settings -/

/-- Two states of a node with the same settings. -/
structure SameSettings (node state : AwdlState) : Prop where
  selfAddress : state.selfAddress = node.selfAddress
  filterRssi : state.filterRssi = node.filterRssi
  rssiThreshold : state.rssiThreshold = node.rssiThreshold
  rssiGrace : state.rssiGrace = node.rssiGrace
  timeout : state.peers.timeout = node.peers.timeout

theorem SameSettings.of_sameNode {node before after : AwdlState} (same : SameSettings node before)
    (kept : SameNode before after) : SameSettings node after := by
  refine ⟨?_, ?_, ?_, ?_, ?_⟩ <;> rw [kept]
  · exact same.selfAddress
  · exact same.filterRssi
  · exact same.rssiThreshold
  · exact same.rssiGrace
  · exact same.timeout

theorem SameSettings.of_transmits {node before after : AwdlState}
    (same : SameSettings node before) (sent : Transmits before after) :
    SameSettings node after := by
  refine ⟨?_, ?_, ?_, ?_, ?_⟩ <;> rw [sent]
  · exact same.selfAddress
  · exact same.filterRssi
  · exact same.rssiThreshold
  · exact same.rssiGrace
  · exact same.timeout

/-- Of a node the header of a frame is compared with its address only. -/
theorem parseFrame_congr {node state : AwdlState} (same : state.selfAddress = node.selfAddress)
    (env : RxEnv) (frame : Buf) :
    parseFrame platform env frame state = parseFrame platform env frame node := by
  unfold parseFrame
  rw [same]

/-! ## Action frames -/

/-- The filter in terms of the table as a map. -/
theorem ignoresRssi_eq_admits {state : AwdlState} (wf : state.peers.peers.Wf platform.hash)
    (src : EtherAddr) (rssi : Int8) :
    ignoresRssi platform.hash state src rssi =
      !admits state (state.peers.peers.toMap src).isSome rssi := by
  have bound : rssiBound platform.hash state src = state.rssiThreshold.toInt +
      if (state.peers.peers.toMap src).isSome = true then state.rssiGrace.toInt else 0 := by
    unfold rssiBound
    rw [awdlPeerGet_eq wf]
    cases (state.peers.peers.toMap src).isSome with
    | false => exact (Int.add_zero _).symm
    | true => rfl
  rw [ignoresRssi_eq, bound, admits, Bool.not_or, Bool.not_not, ← decide_not]
  exact congrArg _ (decide_eq_decide.mpr Int.not_le.symm)

/-- Behind the TLV loop no result is positive. -/
theorem finishAction_code {env : RxEnv} {subtype : AwdlActionType} {tsft : UInt64}
    {src : EtherAddr} {walk : TlvWalk} {result : RxResult} {next : AwdlState}
    {events : List Callback}
    (done : finishAction platform env subtype tsft src walk = some (result, next, events)) :
    result.code ≤ 0 := by
  unfold finishAction at done
  split at done
  · cases done
    decide
  split at done
  · cases done
    decide
  dsimp only at done
  split at done
  · cases done
  · cases done
    decide

/-- Of the record with which the TLV loop starts, the age is the time of the frame. -/
theorem Starts.lastUpdate {map : EtherAddr → Option AwdlPeer} {memory start : AwdlPeer}
    {src : EtherAddr} {tsft : UInt64} {cb : Bool} {added : List Callback}
    (starts : Starts map memory src tsft cb start added) : start.lastUpdate = tsft := by
  rcases starts with ⟨peer, _, rfl, _⟩ | ⟨_, rfl, _⟩
  · rfl
  · rfl

/-- **Whom an action frame makes heard.** A frame with a header that is strong enough leaves
a record of its sender with the time of the frame, and any other one leaves the table. -/
theorem awdlRxAction_hears {env : RxEnv} {frame : Buf} {rssi : Int8} {tsft : UInt64}
    {src dst : EtherAddr} {state next : AwdlState} {result : RxResult} {events : List Callback}
    (wf : AwdlPeersWf platform.hash state.peers.peers)
    (allocates : ∀ length, env.peer.calloc length = true)
    (done : awdlRxAction platform env frame rssi tsft src dst state =
      some (result, next, events)) :
    if (awdlParseActionHdr frame).isSome = true ∧
        admits state (state.peers.peers.toMap src).isSome rssi = true then
      ∃ peer, peer.lastUpdate = tsft ∧
        next.peers.peers.toMap = Function.update state.peers.peers.toMap src (some peer)
    else next.peers = state.peers := by
  have effect := (awdlRxAction_effect wf done).2.2
  unfold awdlRxAction at done
  cases header : awdlParseActionHdr frame with
  | none =>
      rw [header] at done
      cases done
      rw [if_neg (fun both => Bool.false_ne_true both.1)]
  | some subtype =>
      rw [header] at done
      dsimp only at done
      rw [ignoresRssi_eq_admits wf.table] at done
      cases admitted : admits state (state.peers.peers.toMap src).isSome rssi with
      | false =>
          rw [admitted, Bool.not_false, if_pos rfl] at done
          cases done
          rw [if_neg (fun both => Bool.false_ne_true both.2)]
      | true =>
          rw [admitted, Bool.not_true, if_neg Bool.false_ne_true] at done
          rw [if_pos ⟨rfl, rfl⟩]
          have accepted : result.code ≤ 0 := by
            split at done
            · cases done
            rename_i status peers added add
            rcases awdlPeerAdd_starts wf.table add with ⟨start, success, _, inserted⟩ |
              ⟨_, _, _, ⟨length, failed⟩, _⟩
            · have present : peers.toMap src = some start := by
                rw [inserted, Function.update_self]
              rw [if_neg success, awdlPeerGet_eq (wf.add add).table, present] at done
              exact finishAction_code done
            · rw [allocates length] at failed
              cases failed
          cases effect with
          | refused positive _ _ => omega
          | exhausted _ failed _ _ =>
              obtain ⟨length, failed⟩ := failed
              rw [allocates length] at failed
              cases failed
          | aborted updates stored =>
              obtain ⟨start, added, tlvs, same, _, _, starts⟩ := updates.events
              exact ⟨_, same.lastUpdate.trans starts.lastUpdate, stored⟩
          | completed _ _ stored => exact ⟨_, rfl, stored⟩

/-! ## Steps -/

/-- The table has the addresses and the ages of the abstract one. -/
def Refines (heard : LastHeard) (state : AwdlState) : Prop :=
  ∀ addr, (state.peers.peers.toMap addr).map (·.lastUpdate) = heard addr

theorem Refines.isSome {heard : LastHeard} {state : AwdlState} (refines : Refines heard state)
    (addr : EtherAddr) : (state.peers.peers.toMap addr).isSome = (heard addr).isSome := by
  rw [← refines addr, Option.isSome_map]

section Steps

variable {node : AwdlState} {heard : LastHeard} {state : DaemonState}
  (wf : DaemonWf platform state) (settings : SameSettings node state.awdlState)
  (refines : Refines heard state.awdlState)

include wf settings refines

/-- A frame whose header has been parsed. -/
theorem Refines.dispatch {env : RxEnv} {frame : RxFrame} {rx : RxOutcome}
    (allocates : ∀ length, env.peer.calloc length = true)
    (received : dispatchFrame platform env frame [] state.awdlState = some rx) :
    Refines (hearFrame node heard env frame) rx.state := by
  unfold hearFrame
  by_cases type : frameType frame.hdr.frameControl = ieee80211Action
  · rw [dispatchFrame_of_action type] at received
    obtain ⟨⟨result, next, events⟩, handled, rfl⟩ := Option.map_eq_some_iff.mp received
    have heardFrame := awdlRxAction_hears wf.table allocates handled
    have same : admits state.awdlState
        (state.awdlState.peers.peers.toMap frame.hdr.addr2).isSome frame.rssi =
          admits node (heard frame.hdr.addr2).isSome frame.rssi := by
      unfold admits
      rw [refines.isSome, settings.filterRssi, settings.rssiThreshold, settings.rssiGrace]
    rw [same] at heardFrame
    split at heardFrame
    · rename_i admitted
      obtain ⟨peer, age, stored⟩ := heardFrame
      rw [if_pos (show Counts node heard frame from ⟨type, admitted⟩)]
      intro addr
      dsimp only
      rw [stored]
      by_cases own : addr = frame.hdr.addr2
      · rw [own, Function.update_self, Function.update_self, Option.map_some, age]
      · rw [Function.update_of_ne own, Function.update_of_ne own]
        exact refines addr
    · rename_i ignored
      rw [if_neg fun both : Counts node heard frame => ignored both.2]
      intro addr
      dsimp only
      rw [heardFrame]
      exact refines addr
  · obtain ⟨counted, _⟩ := dispatchFrame_other type received
    rw [if_neg fun both : Counts node heard frame => type both.1, counted]
    exact refines

/-- A captured frame. -/
theorem Refines.receive {env : RxEnv} {bytes : List UInt8} {outcome : ReceiveOutcome}
    (allocates : ∀ length, env.peer.calloc length = true)
    (done : awdlReceiveFrame platform env bytes state = some outcome) :
    Refines (hearStep platform node heard (.wlanReady env bytes)) outcome.state.awdlState := by
  obtain ⟨rx, received, rfl⟩ := Option.map_eq_some_iff.mp done
  have kept : Refines (hearStep platform node heard (.wlanReady env bytes)) rx.state := by
    dsimp only [hearStep]
    rw [← parseFrame_congr settings.selfAddress]
    unfold awdlRx at received
    cases parsed : parseFrame platform env (bufNewConst bytes) state.awdlState with
    | error result =>
        rw [parsed] at received
        cases received
        exact refines
    | ok frame =>
        rw [parsed] at received
        exact refines.dispatch wf settings allocates received
  dsimp only [countUnknown]
  split <;> exact kept

/-- A clean-up. -/
theorem Refines.clean (now : UInt64) :
    Refines (hearStep platform node heard (.peerTimer now))
      (awdlCleanPeers now state).1.awdlState := by
  obtain ⟨peers, _, kept, after⟩ := awdlCleanPeers_effect now wf.table
  intro addr
  rw [after]
  dsimp only [hearStep]
  rw [kept, survivors, ← refines addr, settings.timeout]
  cases state.awdlState.peers.peers.toMap addr with
  | none => rfl
  | some peer =>
      rw [Option.map_some, Option.filter_some, Option.filter_some]
      split <;> rfl

end Steps

/-! ## Runs -/

/-- A callback in which every allocation for the peer table succeeds. -/
def LoopLabel.Allocates : LoopLabel → Prop
  | .wlanReady env _ => ∀ length, env.peer.calloc length = true
  | _ => True

/-- A callback of a loop in which no allocation fails. -/
def AllocatingLoopStep (platform : Platform) (wlanIsFile : Bool) (state : LoopState)
    (label : LoopLabel) (events : List LoopEvent) (next : LoopState) : Prop :=
  LoopStep platform wlanIsFile state label events next ∧ label.Allocates

/-- What holds of the table in every state of the loop. -/
structure Heard (platform : Platform) (node : AwdlState) (heard : LastHeard)
    (state : DaemonState) : Prop where
  wf : DaemonWf platform state
  settings : SameSettings node state.awdlState
  refines : Refines heard state.awdlState

/-- **Every callback does to the table what it does to the abstract one.** -/
theorem Heard.step {node : AwdlState} {heard : LastHeard} {state next : LoopState}
    {label : LoopLabel} {events : List LoopEvent}
    (before : Heard platform node heard state.toDaemonState)
    (step : AllocatingLoopStep platform wlanIsFile state label events next) :
    Heard platform node (hearStep platform node heard label) next.toDaemonState := by
  obtain ⟨wf, settings, refines⟩ := before
  obtain ⟨step, allocates⟩ := step
  have kept := step.daemonWf wf
  have node := step.nodeStep
  generalize next.toDaemonState = after at node kept ⊢
  cases node with
  | received done =>
      exact ⟨kept, settings.of_sameNode (awdlReceiveFrame_effect wf.table done).2.1,
        refines.receive wf settings allocates done⟩
  | cleaned now =>
      refine ⟨kept, ?_, refines.clean wf settings now⟩
      obtain ⟨peers, _, _, after⟩ := awdlCleanPeers_effect now wf.table
      rw [after]
      exact ⟨settings.selfAddress, settings.filterRssi, settings.rssiThreshold,
        settings.rssiGrace, settings.timeout⟩
  | sent kind done _ =>
      have silent : hearStep platform node heard label = heard := by
        cases label with
        | wlanReady env bytes => exact kind.elim
        | peerTimer now => exact kind.elim
        | _ => rfl
      rw [silent]
      refine ⟨kept, settings.of_transmits done, ?_⟩
      intro addr
      rw [done]
      exact refines addr

/-- **The peer table tells who was heard when.** In every run of the event loop in which no
allocation fails, a node is in the peer table if and only if it counts as heard by the
frames and the clean-ups of the run, and the age in its record is the time of the last
frame that counts. -/
theorem loop_last_heard {name : List UInt8} {election : AwdlElectionState}
    {hostname : List UInt8} {self : EtherAddr} {chan : AwdlChan} {start : UInt64}
    {filterRssi : Bool} {memory : List HostBuf} {size : memory.length = multicastQueueSize}
    {trace : List (LoopLabel × List LoopEvent)} {state : LoopState}
    (run : Run (AllocatingLoopStep platform wlanIsFile)
      (loopInit (mainInit name election hostname self chan start filterRssi) memory size) trace
        state)
    (addr : EtherAddr) :
    (state.awdlState.peers.peers.toMap addr).map (·.lastUpdate) =
      lastHeard platform
        (mainInit name election hostname self chan start filterRssi).awdlState
        (trace.map Prod.fst) addr := by
  generalize settings :
    (mainInit name election hostname self chan start filterRssi).awdlState = node
  have heard : Heard platform node (lastHeard platform node (trace.map Prod.fst))
      state.toDaemonState := by
    refine run.trace_invariant (fun trace (state : LoopState) =>
      Heard platform node (lastHeard platform node (trace.map Prod.fst)) state.toDaemonState) ?_ ?_
    · rw [← settings]
      refine ⟨mainInit_wf .., ⟨rfl, rfl, rfl, rfl, rfl⟩, fun query => ?_⟩
      exact congrArg _ (toMap_hashmapNew query)
    · intro trace state label events next before step
      exact before.step step
  exact heard.refines addr

/-- A node that has been heard is kept by a clean-up a second later. -/
theorem loop_last_heard_kept : ∃ trace state,
    Run (AllocatingLoopStep samplePlatform false) sampleLoop trace state ∧
      (state.awdlState.peers.peers.toMap ⟨2, 0, 0, 0, 0, 2⟩).map (·.lastUpdate) =
        some 3000000 := by
  have computed : (awdlReceiveFrame samplePlatform (sampleEnv 3000000)
      (sampleMif ⟨2, 0, 0, 0, 0, 2⟩ 0) sampleLoop.toDaemonState).isSome = true := by
    decide +kernel
  obtain ⟨outcome, done⟩ := Option.isSome_iff_exists.mp computed
  obtain ⟨trace, state, run, inputs⟩ : ∃ trace state,
      Run (AllocatingLoopStep samplePlatform false) sampleLoop trace state ∧
        trace.map Prod.fst = [.peerTimer 4000000,
          .wlanReady (sampleEnv 3000000) (sampleMif ⟨2, 0, 0, 0, 0, 2⟩ 0)] :=
    ⟨_, _, (Run.nil.cons ⟨.wlanReady done, fun _ => rfl⟩).cons ⟨.peerTimer rfl, trivial⟩, rfl⟩
  refine ⟨trace, state, run, (loop_last_heard run ⟨2, 0, 0, 0, 0, 2⟩).trans ?_⟩
  rw [inputs]
  decide +kernel

end Owl
