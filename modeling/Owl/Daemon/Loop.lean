import Owl.Daemon.ChannelSwitch
import Owl.Daemon.Conservation
import Owl.Daemon.Invariant

/-! # The event loop

All of `core.c` as one system: what `awdl_schedule` registers and what each of the
callbacks does. Of a timer that is set for one time, the loop keeps whether it is
armed. The timers for periodic synchronization frames and for the peer table repeat,
and the devices are watched throughout. A callback runs to its end before the next one
starts, in any order and at any time. No frame of the host waits without a timer that
will look after it, and the channel is switched and master indication frames are sent
for ever (`loop_never_stalls`).
-/

namespace Owl

open Transition

/-! ## Action frames -/

/-- `awdl_send_action`: the frame handed to `wlan_send`, and the state afterwards. -/
def awdlSendAction (long : LongWidth) (clock : TxClock) (type : AwdlActionType)
    (state : DaemonState) : List UInt8 × DaemonState :=
  let (frame, ieee80211State) :=
    awdlInitFullActionFrame long clock state.awdlState state.ieee80211State type
  (frame,
    { awdlState :=
        { state.awdlState with stats.txAction := state.awdlState.stats.txAction + 1 }
      ieee80211State := ieee80211State })

/-- What a call of `awdl_send_mif` does: the frame handed to `wlan_send`, if any, the
state afterwards, and the delay in microseconds with which the timer is armed. -/
structure MifOutcome where
  frame : Option (List UInt8)
  state : DaemonState
  delay : UInt64

/-- `awdl_send_mif`. -/
def awdlSendMif (long : LongWidth) (now : UInt64) (clock : TxClock) (state : DaemonState) :
    MifOutcome :=
  let nextAw := awdlSyncNextAwUs long now state.awdlState.sync
  let eawLen := state.awdlState.sync.eawPeriod
  let delay := nextAw + ieee80211TuToUsec long (eawLen / 2)
  if awdlChanNum state.awdlState.channel.current state.awdlState.channel.enc > 0 then
    let (frame, state) := awdlSendAction long clock .mif state
    ⟨some frame, state, delay⟩
  else ⟨none, state, delay⟩

/-! ## The state -/

/-- `struct daemon_state` with the timers that are set for one time; `true` for an armed
timer. -/
structure LoopState extends TxState where
  chanTimer : Bool
  mifTimer : Bool
  txTimer : Bool
  txMcastTimer : Bool

/-- What the daemon does to its surroundings: a frame of the host moves, an action frame
is handed to `wlan_send`, a channel is set, a frame is delivered to the host, or a
callback for a peer is called. -/
inductive LoopEvent
  | tx (event : TxEvent)
  | action (type : AwdlActionType) (frame : List UInt8)
  | setChannel (number : UInt8)
  | deliver (frame : List UInt8)
  | peer (call : Callback)

/-- The state of a timer after the end of a sender: feeding an event leaves it alone. -/
def TimerAction.armed (action : TimerAction) (before : Bool) : Bool :=
  match action with
  | .rearm _ => true
  | .feed => before

/-- `awdl_send_unicast` with its timer. -/
def loopSendUnicast (platform : Platform) (now : UInt64) (state : LoopState) :
    LoopState × List LoopEvent :=
  let sent := awdlSendUnicast platform now state.toTxState
  ({ state with toTxState := sent.state, txTimer := sent.timer.armed state.txTimer },
    sent.events.map .tx)

/-- `awdl_send_multicast` with its timer. -/
def loopSendMulticast (platform : Platform) (now : UInt64) (state : LoopState) :
    LoopState × List LoopEvent :=
  let sent := awdlSendMulticast platform now state.toTxState
  ({ state with toTxState := sent.state, txMcastTimer := sent.timer.armed state.txMcastTimer },
    sent.events.map .tx)

/-- `host_device_ready` with the timers of the senders. -/
def loopHostReady (platform : Platform) (memory : Nat → Nat → UInt8) (frames : List HostFrame)
    (multicastNow unicastNow : UInt64) (state : LoopState) : LoopState × List LoopEvent :=
  let polled := pollHostDevice memory frames state.toTxState
  let taken : LoopState × List LoopEvent :=
    ({ state with toTxState := polled.state }, polled.events.map .tx)
  let multicast : LoopState × List LoopEvent :=
    if polled.newMulticast then
      let sent := loopSendMulticast platform multicastNow taken.1
      (sent.1, taken.2 ++ sent.2)
    else taken
  if polled.newUnicast then
    let sent := loopSendUnicast platform unicastNow multicast.1
    (sent.1, multicast.2 ++ sent.2)
  else multicast

/-- The queue of `awdl_init` for sixteen multicast frames. -/
def multicastQueueSize : Nat := 16

/-- The state after `awdl_init` and `awdl_schedule`; `memory` is what the array of the
multicast queue held. -/
def loopInit (daemon : DaemonState) (memory : List HostBuf)
    (size : memory.length = multicastQueueSize) : LoopState where
  toTxState := txInit daemon memory (by rw [size]; decide)
  chanTimer := true
  mifTimer := true
  txTimer := true
  txMcastTimer := true

/-! ## Steps -/

/-- What wakes the loop: a captured frame, frames of the host, or a timer. Senders and
builders of frames read the clock when they are called. -/
inductive LoopLabel
  | wlanReady (env : RxEnv) (buf : List UInt8)
  | hostReady (memory : Nat → Nat → UInt8) (frames : List HostFrame)
      (multicastNow unicastNow : UInt64)
  | chanTimer (now : UInt64)
  | peerTimer (now : UInt64)
  | psfTimer (clock : TxClock)
  | mifTimer (now : UInt64) (clock : TxClock)
  | txTimer (now : UInt64)
  | txMcastTimer (now : UInt64)

/-- One callback of the loop. A timer that is set for one time is stopped when it fires.
Captured frames include aggregates that overrun `data_arr`, see `ReceiveOutcome`. -/
inductive LoopStep (platform : Platform) (wlanIsFile : Bool) (state : LoopState) :
    LoopLabel → List LoopEvent → LoopState → Prop
  | wlanReady {env : RxEnv} {buf : List UInt8} {outcome : ReceiveOutcome}
      (done : awdlReceiveFrame platform env buf state.toDaemonState = some outcome) :
      LoopStep platform wlanIsFile state (.wlanReady env buf)
        (outcome.events.map .peer ++ outcome.sent.map .deliver)
        { state with toDaemonState := outcome.state }
  | hostReady (memory : Nat → Nat → UInt8) (frames : List HostFrame)
      (multicastNow unicastNow : UInt64) :
      LoopStep platform wlanIsFile state (.hostReady memory frames multicastNow unicastNow)
        (loopHostReady platform memory frames multicastNow unicastNow state).2
        (loopHostReady platform memory frames multicastNow unicastNow state).1
  | chanTimer {now : UInt64} {switched : SwitchOutcome} (armed : state.chanTimer = true)
      (done : switched = awdlSwitchChannel platform.long wlanIsFile now state.awdlState) :
      LoopStep platform wlanIsFile state (.chanTimer now)
        (switched.setChannel.toList.map .setChannel)
        { state with awdlState := switched.state, chanTimer := true }
  | peerTimer {now : UInt64} {cleaned : DaemonState × List Callback}
      (done : cleaned = awdlCleanPeers now state.toDaemonState) :
      LoopStep platform wlanIsFile state (.peerTimer now) (cleaned.2.map .peer)
        { state with toDaemonState := cleaned.1 }
  | psfTimer {clock : TxClock} {sent : List UInt8 × DaemonState}
      (done : sent = awdlSendAction platform.long clock .psf state.toDaemonState) :
      LoopStep platform wlanIsFile state (.psfTimer clock) [.action .psf sent.1]
        { state with toDaemonState := sent.2 }
  | mifTimer {now : UInt64} {clock : TxClock} {sent : MifOutcome} (armed : state.mifTimer = true)
      (done : sent = awdlSendMif platform.long now clock state.toDaemonState) :
      LoopStep platform wlanIsFile state (.mifTimer now clock)
        (sent.frame.toList.map (.action .mif))
        { state with toDaemonState := sent.state, mifTimer := true }
  | txTimer (now : UInt64) (armed : state.txTimer = true) :
      LoopStep platform wlanIsFile state (.txTimer now)
        (loopSendUnicast platform now { state with txTimer := false }).2
        (loopSendUnicast platform now { state with txTimer := false }).1
  | txMcastTimer (now : UInt64) (armed : state.txMcastTimer = true) :
      LoopStep platform wlanIsFile state (.txMcastTimer now)
        (loopSendMulticast platform now { state with txMcastTimer := false }).2
        (loopSendMulticast platform now { state with txMcastTimer := false }).1

/-- What has happened in a run, oldest first. -/
def loopEvents (trace : List (LoopLabel × List LoopEvent)) : List LoopEvent :=
  trace.reverse.flatMap (·.2)

@[simp] theorem loopEvents_nil : loopEvents [] = [] := rfl

@[simp] theorem loopEvents_cons (label : LoopLabel) (events : List LoopEvent)
    (trace : List (LoopLabel × List LoopEvent)) :
    loopEvents ((label, events) :: trace) = loopEvents trace ++ events := by
  rw [loopEvents, List.reverse_cons, List.flatMap_append, List.flatMap_singleton]
  rfl

/-! ## Waiting frames have a timer -/

variable {platform : Platform} {wlanIsFile : Bool}

/-- Every frame of the host that waits has an armed timer, and the timers of the channel
and of master indication frames are armed. -/
structure Attended (state : LoopState) : Prop where
  chanTimer : state.chanTimer = true
  mifTimer : state.mifTimer = true
  unicast : state.next ≠ none → state.txTimer = true
  multicast : circularBufEmpty state.txQueueMulticast = false → state.txMcastTimer = true

/-- A unicast frame that is kept gets its timer armed, and multicast frames stay. -/
theorem awdlSendUnicast_timer (now : UInt64) (state : TxState) :
    ((awdlSendUnicast platform now state).state.next = none ∨
        ∃ delay, (awdlSendUnicast platform now state).timer = .rearm delay) ∧
      (awdlSendUnicast platform now state).state.txQueueMulticast = state.txQueueMulticast := by
  unfold awdlSendUnicast
  split
  · rename_i free
    exact ⟨Or.inl free, rfl⟩
  rename_i packet _
  split
  · exact ⟨Or.inl rfl, rfl⟩
  split
  · exact ⟨Or.inl rfl, rfl⟩
  dsimp only
  split
  · exact ⟨Or.inl rfl, (handOver_spec packet state).2.2.1⟩
  · exact ⟨Or.inr ⟨_, rfl⟩, rfl⟩

/-- Multicast frames that are kept get their timer armed, and a unicast frame stays. -/
theorem awdlSendMulticast_timer (now : UInt64) (state : TxState) :
    (circularBufEmpty (awdlSendMulticast platform now state).state.txQueueMulticast = true ∨
        ∃ delay, (awdlSendMulticast platform now state).timer = .rearm delay) ∧
      (awdlSendMulticast platform now state).state.next = state.next := by
  have timer : ∀ (after : TxState) delay, circularBufEmpty after.txQueueMulticast = true ∨
      ∃ delay', multicastTimer after delay = .rearm delay' := by
    intro after delay
    unfold multicastTimer
    split
    · rename_i empty
      exact Or.inl empty
    · exact Or.inr ⟨delay, rfl⟩
  unfold awdlSendMulticast
  split
  · rename_i empty
    exact ⟨Or.inl empty, rfl⟩
  dsimp only
  split
  · split
    · exact ⟨timer _ _, rfl⟩
    · rename_i packet queue _
      exact ⟨timer _ _, (handOver_spec packet { state with txQueueMulticast := queue }).2.1⟩
  split
  · exact ⟨timer _ _, rfl⟩
  · exact ⟨timer _ _, rfl⟩

/-- Polling says what it has taken in. -/
theorem pollLoop_news (memory : Nat → Nat → UInt8) (frames : List HostFrame) (done : PollOutcome) :
    ((pollLoop memory frames done).newUnicast = true ∨
        (pollLoop memory frames done).state.next = done.state.next) ∧
      ((pollLoop memory frames done).newMulticast = true ∨
        (pollLoop memory frames done).state.txQueueMulticast = done.state.txQueueMulticast) ∧
      (done.newUnicast = true → (pollLoop memory frames done).newUnicast = true) ∧
      (done.newMulticast = true → (pollLoop memory frames done).newMulticast = true) := by
  induction frames generalizing done with
  | nil => exact ⟨Or.inr rfl, Or.inr rfl, id, id⟩
  | cons frame rest ih =>
      unfold pollLoop
      split
      · exact ⟨Or.inr rfl, Or.inr rfl, id, id⟩
      dsimp only
      split
      · exact ⟨Or.inr rfl, Or.inr rfl, id, id⟩
      split
      · obtain ⟨unicast, _, first, second⟩ := ih _
        exact ⟨unicast, Or.inl (second rfl), first, fun _ => second rfl⟩
      · obtain ⟨_, multicast, first, second⟩ := ih _
        exact ⟨Or.inl (first rfl), multicast, fun _ => first rfl, second⟩

section Attended

variable {state : LoopState}

/-- A call of the unicast sender attends to `next`, whatever its timer was. -/
theorem loopSendUnicast_attended (now : UInt64) (chanTimer : state.chanTimer = true)
    (mifTimer : state.mifTimer = true)
    (multicast : circularBufEmpty state.txQueueMulticast = false → state.txMcastTimer = true) :
    Attended (loopSendUnicast platform now state).1 := by
  obtain ⟨next, queue⟩ := @awdlSendUnicast_timer platform now state.toTxState
  refine ⟨chanTimer, mifTimer, ?_, ?_⟩
  · intro waits
    dsimp only [loopSendUnicast] at waits ⊢
    rcases next with free | ⟨delay, armed⟩
    · exact absurd free waits
    · rw [armed]
      rfl
  · dsimp only [loopSendUnicast]
    rw [queue]
    exact multicast

/-- A call of the multicast sender attends to the queue, whatever its timer was. -/
theorem loopSendMulticast_queued (now : UInt64)
    (waits : circularBufEmpty (loopSendMulticast platform now state).1.txQueueMulticast = false) :
    (loopSendMulticast platform now state).1.txMcastTimer = true := by
  dsimp only [loopSendMulticast] at waits ⊢
  rcases (@awdlSendMulticast_timer platform now state.toTxState).1 with empty | ⟨delay, armed⟩
  · rw [empty] at waits
    cases waits
  · rw [armed]
    rfl

theorem loopSendMulticast_attended (now : UInt64) (chanTimer : state.chanTimer = true)
    (mifTimer : state.mifTimer = true) (unicast : state.next ≠ none → state.txTimer = true) :
    Attended (loopSendMulticast platform now state).1 := by
  refine ⟨chanTimer, mifTimer, ?_, loopSendMulticast_queued now⟩
  dsimp only [loopSendMulticast]
  rw [(@awdlSendMulticast_timer platform now state.toTxState).2]
  exact unicast

theorem loopHostReady_attended (attended : Attended state) (memory : Nat → Nat → UInt8)
    (frames : List HostFrame) (multicastNow unicastNow : UInt64) :
    Attended (loopHostReady platform memory frames multicastNow unicastNow state).1 := by
  obtain ⟨chanTimer, mifTimer, unicast, multicast⟩ := attended
  obtain ⟨next, queue, _⟩ := pollLoop_news memory frames ⟨false, false, state.toTxState, []⟩
  change (pollHostDevice memory frames state.toTxState).newUnicast = true ∨
    (pollHostDevice memory frames state.toTxState).state.next = state.next at next
  change (pollHostDevice memory frames state.toTxState).newMulticast = true ∨
    (pollHostDevice memory frames state.toTxState).state.txQueueMulticast =
      state.txQueueMulticast at queue
  unfold loopHostReady
  dsimp only
  generalize pollHostDevice memory frames state.toTxState = polled at next queue ⊢
  -- a sender that is not called has got nothing new
  by_cases newMulticast : polled.newMulticast = true
  · rw [if_pos newMulticast]
    by_cases newUnicast : polled.newUnicast = true
    · rw [if_pos newUnicast]
      exact loopSendUnicast_attended unicastNow chanTimer mifTimer
        (loopSendMulticast_queued multicastNow)
    · rw [if_neg newUnicast]
      refine loopSendMulticast_attended multicastNow chanTimer mifTimer ?_
      dsimp only
      rw [next.resolve_left newUnicast]
      exact unicast
  · have queued : circularBufEmpty polled.state.txQueueMulticast = false →
        state.txMcastTimer = true := by
      rw [queue.resolve_left newMulticast]
      exact multicast
    rw [if_neg newMulticast]
    by_cases newUnicast : polled.newUnicast = true
    · rw [if_pos newUnicast]
      exact loopSendUnicast_attended unicastNow chanTimer mifTimer queued
    · rw [if_neg newUnicast]
      refine ⟨chanTimer, mifTimer, ?_, queued⟩
      dsimp only
      rw [next.resolve_left newUnicast]
      exact unicast

/-- **Every callback leaves all waiting frames with a timer.** -/
theorem LoopStep.attended {label : LoopLabel} {events : List LoopEvent} {next : LoopState}
    (attended : Attended state) (step : LoopStep platform wlanIsFile state label events next) :
    Attended next := by
  obtain ⟨chanTimer, mifTimer, unicast, multicast⟩ := attended
  cases step with
  | wlanReady _ => exact ⟨chanTimer, mifTimer, unicast, multicast⟩
  | hostReady memory frames multicastNow unicastNow =>
      exact loopHostReady_attended ⟨chanTimer, mifTimer, unicast, multicast⟩ memory frames
        multicastNow unicastNow
  | chanTimer _ _ => exact ⟨rfl, mifTimer, unicast, multicast⟩
  | peerTimer _ => exact ⟨chanTimer, mifTimer, unicast, multicast⟩
  | psfTimer _ => exact ⟨chanTimer, mifTimer, unicast, multicast⟩
  | mifTimer _ _ => exact ⟨chanTimer, rfl, unicast, multicast⟩
  | txTimer now _ => exact loopSendUnicast_attended now chanTimer mifTimer multicast
  | txMcastTimer now _ => exact loopSendMulticast_attended now chanTimer mifTimer unicast

end Attended

/-! ## The transmit side of the loop -/

/-- What has happened to frames of the host. -/
def txPart (events : List LoopEvent) : List TxEvent :=
  events.filterMap fun
    | .tx event => some event
    | _ => none

@[simp] theorem txPart_append (first second : List LoopEvent) :
    txPart (first ++ second) = txPart first ++ txPart second :=
  List.filterMap_append

@[simp] theorem txPart_map_tx (events : List TxEvent) : txPart (events.map .tx) = events := by
  unfold txPart
  rw [List.filterMap_map]
  exact List.filterMap_some

/-- Events of which none is about a frame of the host. -/
theorem txPart_eq_nil {events : List LoopEvent} (other : ∀ event ∈ events, ∀ tx, event ≠ .tx tx) :
    txPart events = [] := by
  rw [txPart, List.filterMap_eq_nil_iff]
  intro event member
  cases event with
  | tx event => exact absurd rfl (other _ member event)
  | action _ _ => rfl
  | setChannel _ => rfl
  | deliver _ => rfl
  | peer _ => rfl

/-- The host device is served as without the timers. -/
theorem loopHostReady_eq (memory : Nat → Nat → UInt8) (frames : List HostFrame)
    (multicastNow unicastNow : UInt64) (state : LoopState) :
    (loopHostReady platform memory frames multicastNow unicastNow state).1.toTxState =
        (hostDeviceReady platform memory frames multicastNow unicastNow state.toTxState).1 ∧
      (loopHostReady platform memory frames multicastNow unicastNow state).2 =
        (hostDeviceReady platform memory frames multicastNow unicastNow state.toTxState).2.map
          .tx := by
  unfold loopHostReady hostDeviceReady loopSendMulticast loopSendUnicast
  dsimp only
  generalize pollHostDevice memory frames state.toTxState = polled
  by_cases newMulticast : polled.newMulticast = true
  · by_cases newUnicast : polled.newUnicast = true
    · simp only [if_pos newMulticast, if_pos newUnicast, List.map_append, and_self]
    · simp only [if_pos newMulticast, if_neg newUnicast, List.map_append, and_self]
  · by_cases newUnicast : polled.newUnicast = true
    · simp only [if_neg newMulticast, if_pos newUnicast, List.map_append, and_self]
    · simp only [if_neg newMulticast, if_neg newUnicast, and_self]

/-- **Every callback is a step of the transmit side**: one of its handlers, or a change of
the node. -/
theorem LoopStep.txStep {state next : LoopState} {label : LoopLabel} {events : List LoopEvent}
    (step : LoopStep platform wlanIsFile state label events next) :
    ∃ label, TxStep platform state.toTxState label (txPart events) next.toTxState := by
  have node : ∀ daemon quiet, (∀ event ∈ quiet, ∀ tx, event ≠ LoopEvent.tx tx) →
      TxStep platform state.toTxState (.node daemon) (txPart quiet)
        { state.toTxState with toDaemonState := daemon } :=
    fun daemon quiet other => ⟨rfl, txPart_eq_nil other⟩
  cases step with
  | @wlanReady env buf outcome _ =>
      refine ⟨.node outcome.state, node _ _ ?_⟩
      intro event member tx same
      subst same
      rcases List.mem_append.mp member with called | delivered
      · obtain ⟨_, _, other⟩ := List.mem_map.mp called
        cases other
      · obtain ⟨_, _, other⟩ := List.mem_map.mp delivered
        cases other
  | hostReady memory frames multicastNow unicastNow =>
      refine ⟨.hostReady memory frames multicastNow unicastNow, ?_⟩
      obtain ⟨same, shown⟩ :=
        @loopHostReady_eq platform memory frames multicastNow unicastNow state
      rw [same, shown, txPart_map_tx]
      exact TxStep.hostReady platform memory frames multicastNow unicastNow state.toTxState
  | @chanTimer now switched _ _ =>
      refine ⟨.node { state.toDaemonState with awdlState := switched.state }, node _ _ ?_⟩
      intro event member tx same
      subst same
      obtain ⟨_, _, other⟩ := List.mem_map.mp member
      cases other
  | @peerTimer now cleaned _ =>
      refine ⟨.node cleaned.1, node _ _ ?_⟩
      intro event member tx same
      subst same
      obtain ⟨_, _, other⟩ := List.mem_map.mp member
      cases other
  | @psfTimer clock sent _ => exact ⟨.node sent.2, node _ _ (by simp)⟩
  | @mifTimer now clock sent _ _ =>
      refine ⟨.node sent.state, node _ _ ?_⟩
      intro event member tx same
      subst same
      obtain ⟨_, _, other⟩ := List.mem_map.mp member
      cases other
  | txTimer now _ =>
      refine ⟨.unicastTimer now, rfl, ?_⟩
      exact txPart_map_tx _
  | txMcastTimer now _ =>
      refine ⟨.multicastTimer now, rfl, ?_⟩
      exact txPart_map_tx _

/-- Frames of the host are conserved in the runs of the loop. -/
theorem loop_conserved {daemon : DaemonState} {memory : List HostBuf}
    {size : memory.length = multicastQueueSize} {trace : List (LoopLabel × List LoopEvent)}
    {state : LoopState}
    (run : Run (LoopStep platform wlanIsFile) (loopInit daemon memory size) trace state) :
    TxConserved (txPart (loopEvents trace)) state.toTxState := by
  have initially : TxConserved (txPart (loopEvents [])) (loopInit daemon memory size).toTxState :=
    txInit_conserved daemon memory _
  refine run.trace_invariant
    (fun trace (state : LoopState) => TxConserved (txPart (loopEvents trace)) state.toTxState)
    initially ?_
  intro trace state label events next conserved step
  rw [loopEvents_cons, txPart_append]
  obtain ⟨_, carried⟩ := step.txStep
  exact carried.conserves conserved

/-! ## The node in the loop -/

/-- What sending and switching channels may change of a node. -/
def Transmits (before after : AwdlState) : Prop :=
  after = { before with
    sequenceNumber := after.sequenceNumber
    stats := after.stats
    channel.current := after.channel.current }

theorem Transmits.trans {first second third : AwdlState} (one : Transmits first second)
    (two : Transmits second third) : Transmits first third := by
  have carried := congrArg (fun state : AwdlState => { state with
    sequenceNumber := third.sequenceNumber
    stats := third.stats
    channel.current := third.channel.current }) one
  exact Eq.trans two carried

theorem handOver_transmits (packet : HostBuf) (state : TxState) :
    Transmits state.awdlState (handOver packet state).1.awdlState ∧
      (handOver packet state).1.awdlState.channel = state.awdlState.channel := by
  unfold handOver
  split
  · exact ⟨rfl, rfl⟩
  · rename_i frame daemon sent
    unfold awdlSendData at sent
    simp only [Option.bind_eq_bind, Option.bind_eq_some_iff] at sent
    obtain ⟨_, _, _, _, _, _, built⟩ := sent
    cases built
    exact ⟨rfl, rfl⟩

theorem awdlSendUnicast_transmits (now : UInt64) (state : TxState) :
    Transmits state.awdlState (awdlSendUnicast platform now state).state.awdlState ∧
      (awdlSendUnicast platform now state).state.awdlState.channel = state.awdlState.channel := by
  unfold awdlSendUnicast
  split
  · exact ⟨rfl, rfl⟩
  rename_i packet _
  split
  · exact ⟨rfl, rfl⟩
  split
  · exact ⟨rfl, rfl⟩
  dsimp only
  split
  · obtain ⟨sent, channel⟩ := handOver_transmits packet state
    exact ⟨sent.trans rfl, channel⟩
  · exact ⟨rfl, rfl⟩

theorem awdlSendMulticast_transmits (now : UInt64) (state : TxState) :
    Transmits state.awdlState (awdlSendMulticast platform now state).state.awdlState ∧
      (awdlSendMulticast platform now state).state.awdlState.channel =
        state.awdlState.channel := by
  unfold awdlSendMulticast
  split
  · exact ⟨rfl, rfl⟩
  dsimp only
  split
  · split
    · exact ⟨rfl, rfl⟩
    · rename_i packet queue _
      obtain ⟨sent, channel⟩ := handOver_transmits packet { state with txQueueMulticast := queue }
      exact ⟨sent.trans rfl, channel⟩
  split
  · exact ⟨rfl, rfl⟩
  · exact ⟨rfl, rfl⟩

/-- Polling leaves the node alone. -/
theorem pollLoop_node (memory : Nat → Nat → UInt8) (frames : List HostFrame) (done : PollOutcome) :
    (pollLoop memory frames done).state.toDaemonState = done.state.toDaemonState := by
  induction frames generalizing done with
  | nil => rfl
  | cons frame rest ih =>
      unfold pollLoop
      split
      · rfl
      dsimp only
      split
      · rfl
      split
      · exact ih _
      · exact ih _

theorem hostDeviceReady_transmits (memory : Nat → Nat → UInt8) (frames : List HostFrame)
    (multicastNow unicastNow : UInt64) (state : TxState) :
    Transmits state.awdlState
        (hostDeviceReady platform memory frames multicastNow unicastNow state).1.awdlState ∧
      (hostDeviceReady platform memory frames multicastNow unicastNow state).1.awdlState.channel =
        state.awdlState.channel := by
  have polled : (pollHostDevice memory frames state).state.toDaemonState = state.toDaemonState :=
    pollLoop_node memory frames ⟨false, false, state, []⟩
  unfold hostDeviceReady
  dsimp only
  rw [← polled]
  generalize pollHostDevice memory frames state = outcome
  by_cases newMulticast : outcome.newMulticast = true
  · obtain ⟨first, tuned⟩ := @awdlSendMulticast_transmits platform multicastNow outcome.state
    rw [if_pos newMulticast]
    split
    · obtain ⟨second, again⟩ := @awdlSendUnicast_transmits platform unicastNow
        (awdlSendMulticast platform multicastNow outcome.state).state
      exact ⟨first.trans second, again.trans tuned⟩
    · exact ⟨first, tuned⟩
  · rw [if_neg newMulticast]
    split
    · exact awdlSendUnicast_transmits unicastNow outcome.state
    · exact ⟨rfl, rfl⟩

theorem awdlSwitchChannel_transmits (now : UInt64) (state : AwdlState) :
    Transmits state (awdlSwitchChannel platform.long wlanIsFile now state).state := by
  unfold awdlSwitchChannel
  dsimp only
  split <;> rfl

theorem awdlSendMif_transmits (now : UInt64) (clock : TxClock) (state : DaemonState) :
    Transmits state.awdlState (awdlSendMif platform.long now clock state).state.awdlState ∧
      (awdlSendMif platform.long now clock state).state.awdlState.channel =
        state.awdlState.channel := by
  unfold awdlSendMif
  dsimp only
  split <;> exact ⟨rfl, rfl⟩

/-- A callback that neither takes a captured frame nor cleans the peer table. -/
def LoopLabel.IsSender : LoopLabel → Prop
  | .wlanReady _ _ => False
  | .peerTimer _ => False
  | _ => True

/-- What a callback of the loop is to the node. -/
inductive NodeStep (platform : Platform) (before : DaemonState) : LoopLabel → DaemonState → Prop
  | received {env : RxEnv} {buf : List UInt8} {outcome : ReceiveOutcome}
      (done : awdlReceiveFrame platform env buf before = some outcome) :
      NodeStep platform before (.wlanReady env buf) outcome.state
  | cleaned (now : UInt64) :
      NodeStep platform before (.peerTimer now) (awdlCleanPeers now before).1
  | sent {label : LoopLabel} {after : DaemonState} (kind : label.IsSender)
      (done : Transmits before.awdlState after.awdlState)
      (channel : (∀ now, label ≠ .chanTimer now) →
        after.awdlState.channel = before.awdlState.channel) :
      NodeStep platform before label after

/-- **The cases of a callback for the node.** -/
theorem LoopStep.nodeStep {state next : LoopState} {label : LoopLabel} {events : List LoopEvent}
    (step : LoopStep platform wlanIsFile state label events next) :
    NodeStep platform state.toDaemonState label next.toDaemonState := by
  cases step with
  | wlanReady done => exact .received done
  | hostReady memory frames multicastNow unicastNow =>
      obtain ⟨sent, channel⟩ := @hostDeviceReady_transmits platform memory frames multicastNow
        unicastNow state.toTxState
      rw [← (loopHostReady_eq memory frames multicastNow unicastNow state).1] at sent channel
      exact .sent trivial sent fun _ => channel
  | @chanTimer now switched _ done =>
      subst done
      exact .sent trivial (@awdlSwitchChannel_transmits platform wlanIsFile now state.awdlState)
        fun other => absurd rfl (other now)
  | @peerTimer now cleaned done =>
      subst done
      exact .cleaned now
  | psfTimer done =>
      subst done
      exact .sent trivial rfl fun _ => rfl
  | @mifTimer now clock sent _ done =>
      subst done
      obtain ⟨sent, channel⟩ := @awdlSendMif_transmits platform now clock state.toDaemonState
      exact .sent trivial sent fun _ => channel
  | txTimer now _ =>
      obtain ⟨sent, channel⟩ := @awdlSendUnicast_transmits platform now state.toTxState
      exact .sent trivial sent fun _ => channel
  | txMcastTimer now _ =>
      obtain ⟨sent, channel⟩ := @awdlSendMulticast_transmits platform now state.toTxState
      exact .sent trivial sent fun _ => channel

/-- What captured frames and clean-ups keep and sending does not touch is kept by every
callback of the loop. -/
theorem LoopStep.keeps (Invariant : DaemonState → Prop)
    (kept : ∀ before cause output after, Invariant before →
      DaemonStep platform before cause output after → Invariant after)
    (untouched : ∀ before after, Invariant before →
      Transmits before.awdlState after.awdlState → Invariant after)
    {state next : LoopState} {label : LoopLabel} {events : List LoopEvent}
    (now : Invariant state.toDaemonState)
    (step : LoopStep platform wlanIsFile state label events next) :
    Invariant next.toDaemonState := by
  have node := step.nodeStep
  generalize next.toDaemonState = after at node ⊢
  cases node with
  | received done => exact kept _ _ _ _ now (.receive done)
  | cleaned clock => exact kept _ _ _ _ now (.clean platform clock state.toDaemonState)
  | sent _ done _ => exact untouched _ _ now done

/-- The invariant of a daemon does not depend on what sending changes. -/
theorem DaemonWf.of_transmits {before after : DaemonState} (wf : DaemonWf platform before)
    (sent : Transmits before.awdlState after.awdlState) : DaemonWf platform after := by
  refine ⟨?_, ?_, ?_, ?_, ?_⟩ <;> rw [sent]
  · exact wf.table
  · exact wf.foreign
  · exact wf.own
  · exact wf.peerCb
  · exact wf.peerRemoveCb

theorem LoopStep.daemonWf {state next : LoopState} {label : LoopLabel} {events : List LoopEvent}
    (wf : DaemonWf platform state.toDaemonState)
    (step : LoopStep platform wlanIsFile state label events next) :
    DaemonWf platform next.toDaemonState :=
  step.keeps (DaemonWf platform) (fun _ _ _ _ wf step => wf.step step)
    (fun _ _ wf sent => wf.of_transmits sent) wf

/-- Only the channel timer changes the channel of the node. -/
theorem LoopStep.channel_eq {state next : LoopState} {label : LoopLabel} {events : List LoopEvent}
    (wf : DaemonWf platform state.toDaemonState)
    (step : LoopStep platform wlanIsFile state label events next)
    (other : ∀ now, label ≠ .chanTimer now) :
    next.awdlState.channel = state.awdlState.channel := by
  have node := step.nodeStep
  generalize next.toDaemonState = after at node ⊢
  cases node with
  | received done => rw [(awdlReceiveFrame_effect wf.table done).2.1]
  | cleaned now =>
      obtain ⟨_, _, _, after⟩ := awdlCleanPeers_effect now wf.table
      rw [after]
  | sent _ _ channel => exact channel other

/-- **The loop never stalls.** In every state that the daemon reaches, every frame that
has been taken from the host has been handed over, sent back or dropped, or it waits
with an armed timer; and the timers for the channel and for master indication frames
are armed. -/
theorem loop_never_stalls {daemon : DaemonState} {memory : List HostBuf}
    {size : memory.length = multicastQueueSize} {trace : List (LoopLabel × List LoopEvent)}
    {state : LoopState}
    (run : Run (LoopStep platform wlanIsFile) (loopInit daemon memory size) trace state) :
    (∀ packet ∈ arrivals (txPart (loopEvents trace)),
      packet ∈ departures (txPart (loopEvents trace)) ∨
        state.next = some packet ∧ state.txTimer = true ∨
        packet ∈ state.txQueueMulticast.contents ∧ state.txMcastTimer = true) ∧
      state.chanTimer = true ∧ state.mifTimer = true := by
  obtain ⟨chanTimer, mifTimer, unicast, multicast⟩ := run.invariant Attended
    ⟨rfl, rfl, fun _ => rfl, fun _ => rfl⟩ fun _ _ _ _ attended step => step.attended attended
  have conserved := loop_conserved run
  refine ⟨fun packet arrived => ?_, chanTimer, mifTimer⟩
  by_cases group : packet.isMulticast = true
  · have kind := List.mem_filter.mpr ⟨arrived, group⟩
    rw [conserved.multicast] at kind
    rcases List.mem_append.mp kind with left | waits
    · exact Or.inl (List.mem_filter.mp left).1
    · refine Or.inr (Or.inr ⟨waits, multicast ?_⟩)
      rw [Bool.eq_false_iff, Ne, circularBufEmpty_iff]
      exact List.ne_nil_of_mem waits
  · have single : (!packet.isMulticast) = true := Bool.not_eq_true' _ ▸ Bool.eq_false_iff.mpr group
    have kind : packet ∈ (arrivals (txPart (loopEvents trace))).filter (!·.isMulticast) :=
      List.mem_filter.mpr ⟨arrived, single⟩
    rw [conserved.unicast] at kind
    rcases List.mem_append.mp kind with left | waits
    · exact Or.inl (List.mem_filter.mp left).1
    · have next := Option.mem_toList.mp waits
      refine Or.inr (Or.inl ⟨next, unicast ?_⟩)
      rw [next]
      exact Option.some_ne_none packet

/-- A daemon that has just been started. -/
def sampleLoop : LoopState :=
  loopInit sampleTx.toDaemonState (List.replicate 16 sampleMulticast) rfl

/-- Of two frames one is dropped at once and one waits for its timer. -/
theorem loop_never_stalls_waiting : ∃ trace state,
    Run (LoopStep samplePlatform false) sampleLoop trace state ∧
      (arrivals (txPart (loopEvents trace))).length = 2 ∧
      (departures (txPart (loopEvents trace))).length = 1 ∧
      ∀ packet ∈ arrivals (txPart (loopEvents trace)),
        packet ∈ departures (txPart (loopEvents trace)) ∨
          state.next = some packet ∧ state.txTimer = true ∨
          packet ∈ state.txQueueMulticast.contents ∧ state.txMcastTimer = true := by
  have run : Run (LoopStep samplePlatform false) sampleLoop _ _ :=
    Run.nil.cons (.hostReady (fun _ _ => 0) sampleHostFrames 0 0)
  exact ⟨_, _, run, by decide +kernel, by decide +kernel, (loop_never_stalls run).1⟩

end Owl
