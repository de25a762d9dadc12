import Owl.Awdl.Election
import Owl.Tx.Frames

/-! # The daemon

The model of `core.c`: the state with which the daemon starts, what it does with
a captured frame, with a frame of the host and when it cleans its peer table. A
run of the daemon is a sequence of received frames and clean-ups.
-/

namespace Owl

open Transition

/-- `struct daemon_state`, as far as reception and transmission use it. -/
structure DaemonState where
  awdlState : AwdlState
  ieee80211State : Ieee80211State

/-- `awdl_init`; `name` and `election` are what the memory of the state held. -/
def awdlInit (name : List UInt8) (election : AwdlElectionState) (hostname : List UInt8)
    (self : EtherAddr) (chan : AwdlChan) (now : UInt64) : DaemonState where
  awdlState :=
    { awdlInitState name election hostname self chan now with
      peerCb := true
      peerRemoveCb := true }
  ieee80211State := ieee80211InitState

/-- The state in which `main` starts the loop: that of `awdl_init`, with the filter as the
option `-f` says. -/
def mainInit (name : List UInt8) (election : AwdlElectionState) (hostname : List UInt8)
    (self : EtherAddr) (chan : AwdlChan) (now : UInt64) (filterRssi : Bool) : DaemonState :=
  let state := awdlInit name election hostname self chan now
  { state with awdlState.filterRssi := filterRssi }

/-- `MAX_NUM_AMPDU`. -/
def maxNumAmpdu : Nat := 16

/-- What a call of `awdl_receive_frame` does: the result of `awdl_rx`, the
buffers it has stored, the frames sent to the host, the state afterwards and the
calls of callbacks. The list of stored buffers has no end, where `data_arr` has
`MAX_NUM_AMPDU` entries and `awdl_rx` writes behind it without a check: an outcome
with more of them stands for a call that overruns the array. -/
structure ReceiveOutcome where
  result : RxResult
  stored : List Buf
  sent : List (List UInt8)
  state : DaemonState
  events : List Callback

/-- An unhandled frame is counted. -/
def countUnknown (result : RxResult) (state : AwdlState) : AwdlState :=
  if result.code < 0 then { state with stats.rxUnknown := state.stats.rxUnknown + 1 } else state

/-- `awdl_receive_frame`; `none` when a growing peer table has not returned. -/
def awdlReceiveFrame (platform : Platform) (env : RxEnv) (buf : List UInt8)
    (state : DaemonState) : Option ReceiveOutcome :=
  (awdlRx platform env (bufNewConst buf) [] state.awdlState).map fun outcome =>
    { result := outcome.result
      stored := outcome.out
      sent := if outcome.result = .ok then outcome.out.map Buf.view else []
      state := { state with awdlState := countUnknown outcome.result outcome.state }
      events := outcome.events }

/-- `awdl_send_data`: the frame handed to `wlan_send`, `none` for `TX_FAIL`
before one is built. -/
def awdlSendData (buf : Buf) (state : DaemonState) : Option (List UInt8 × DaemonState) := do
  let _ethertype ← readBe16 buf 12
  let dst ← readEtherAddr buf 0
  let src ← readEtherAddr buf 6
  let buf := (bufStrip buf 14).getD buf
  let (frame, awdlState, ieee80211State) :=
    awdlInitFullDataFrame src dst buf.view state.awdlState state.ieee80211State
  return (frame,
    { awdlState := { awdlState with stats.txData := awdlState.stats.txData + 1 }
      ieee80211State := ieee80211State })

/-- `awdl_clean_peers`: the state afterwards and the calls of callbacks. -/
def awdlCleanPeers (now : UInt64) (state : DaemonState) : DaemonState × List Callback :=
  let cutoffTime := now - state.awdlState.peers.timeout
  let swept :=
    awdlPeersRemove state.awdlState.peers.peers cutoffTime state.awdlState.peerRemoveCb
  ({ state with
      awdlState :=
        { state.awdlState with
          peers.peers := swept.1
          election := awdlElectionRun state.awdlState.election swept.1 } }, swept.2)

/-! ## Runs -/

/-- The events of a daemon: a captured frame, and the clean-up timer. -/
inductive DaemonLabel
  | receive (env : RxEnv) (buf : List UInt8)
  | clean (now : UInt64)

/-- What an event yields: the result of `awdl_rx` for a frame, the calls of
callbacks, and the state of the node afterwards. -/
structure DaemonOutput where
  result : Option RxResult
  events : List Callback
  after : AwdlState

/-- One event of a daemon. -/
def DaemonStep (platform : Platform) (state : DaemonState) (label : DaemonLabel)
    (output : DaemonOutput) (next : DaemonState) : Prop :=
  match label with
  | .receive env buf => ∃ outcome, awdlReceiveFrame platform env buf state = some outcome ∧
      next = outcome.state ∧
      output = ⟨some outcome.result, outcome.events, outcome.state.awdlState⟩
  | .clean now => next = (awdlCleanPeers now state).1 ∧
      output = ⟨none, (awdlCleanPeers now state).2, (awdlCleanPeers now state).1.awdlState⟩

theorem DaemonStep.receive {platform : Platform} {env : RxEnv} {buf : List UInt8}
    {state : DaemonState} {outcome : ReceiveOutcome}
    (done : awdlReceiveFrame platform env buf state = some outcome) :
    DaemonStep platform state (.receive env buf)
      ⟨some outcome.result, outcome.events, outcome.state.awdlState⟩ outcome.state :=
  ⟨outcome, done, rfl, rfl⟩

theorem DaemonStep.clean (platform : Platform) (now : UInt64) (state : DaemonState) :
    DaemonStep platform state (.clean now)
      ⟨none, (awdlCleanPeers now state).2, (awdlCleanPeers now state).1.awdlState⟩
      (awdlCleanPeers now state).1 :=
  ⟨rfl, rfl⟩

end Owl
