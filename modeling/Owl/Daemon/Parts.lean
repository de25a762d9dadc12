import Owl.Daemon.Data
import Owl.Daemon.Loop

/-! # The parts of a callback

A callback of the event loop hands over frames one after the other. Between them it
changes nothing that concerns frames that are sent. So a run of the loop is a sequence of
parts, each with one frame at most (`loop_parts`), and what a run says about the frames
that are sent follows from what a part says about one of them.
-/

namespace Owl

open Transition

variable {platform : Platform} {wlanIsFile : Bool}

/-! ## Received frames -/

/-- What a received frame may change: peer table, sync state and the counters of
received frames. -/
def Receives (before after : AwdlState) : Prop :=
  after = { before with
    peers.peers := after.peers.peers
    sync := after.sync
    stats.rxAction := after.stats.rxAction
    stats.rxData := after.stats.rxData
    stats.rxUnknown := after.stats.rxUnknown }

theorem Receives.trans {first second third : AwdlState} (one : Receives first second)
    (two : Receives second third) : Receives first third := by
  have carried := congrArg (fun state : AwdlState => { state with
    peers.peers := third.peers.peers
    sync := third.sync
    stats.rxAction := third.stats.rxAction
    stats.rxData := third.stats.rxData
    stats.rxUnknown := third.stats.rxUnknown }) one
  exact Eq.trans two carried

theorem finishAction_receives {env : RxEnv} {subtype : AwdlActionType} {tsft : UInt64}
    {src : EtherAddr} {walk : TlvWalk} {result : RxResult} {next : AwdlState}
    {events : List Callback}
    (done : finishAction platform env subtype tsft src walk = some (result, next, events)) :
    Receives walk.state next := by
  unfold finishAction at done
  split at done
  · cases done
    rfl
  split at done
  · cases done
    rfl
  dsimp only at done
  split at done
  · cases done
  · cases done
    rfl

theorem awdlRxAction_receives {env : RxEnv} {frame : Buf} {rssi : Int8} {tsft : UInt64}
    {src dst : EtherAddr} {state next : AwdlState} {result : RxResult} {events : List Callback}
    (done : awdlRxAction platform env frame rssi tsft src dst state =
      some (result, next, events)) : Receives state next := by
  unfold awdlRxAction at done
  split at done
  · cases done
    rfl
  dsimp only at done
  split at done
  · cases done
    rfl
  split at done
  · cases done
  split at done
  · cases done
    rfl
  split at done
  · cases done
    rfl
  · refine Receives.trans ?_ (finishAction_receives done)
    unfold Receives
    rw [(tlvLoop_keeps ..).node]

theorem amsduLoop_receives (env : RxEnv) (fuel : Nat) (frame : Buf) (out : List Buf)
    (state : AwdlState) : Receives state (amsduLoop platform env fuel frame out state).2.2 := by
  refine amsduLoop_induct (fun state result => Receives state result.2.2) ?_ ?_ ?_ fuel frame out
    state
  · intro result out state _
    rfl
  · intro frame out src dst state
    rw [awdlRxData_state]
    rfl
  · intro frame out src dst state result kept
    rw [awdlRxData_state] at kept
    have counted : Receives state { state with stats.rxData := state.stats.rxData + 1 } := rfl
    exact counted.trans kept

/-- **A received frame changes no counter of sent frames.** -/
theorem awdlReceiveFrame_receives {env : RxEnv} {buf : List UInt8} {state : DaemonState}
    {outcome : ReceiveOutcome}
    (done : awdlReceiveFrame platform env buf state = some outcome) :
    Receives state.awdlState outcome.state.awdlState ∧
      outcome.state.ieee80211State = state.ieee80211State := by
  obtain ⟨rx, received, rfl⟩ := Option.map_eq_some_iff.mp done
  refine ⟨?_, rfl⟩
  have kept : Receives state.awdlState rx.state := by
    unfold awdlRx at received
    split at received
    · cases received
      rfl
    cases dispatchFrame_dispatched received with
    | action _ acted => exact awdlRxAction_receives acted
    | amsdu _ _ _ _ => exact amsduLoop_receives ..
    | data _ =>
        dsimp only
        rw [awdlRxData_state]
        rfl
    | refused _ _ => rfl
  dsimp only [countUnknown]
  split
  · exact kept.trans rfl
  · exact kept

/-! ## Parts -/

/-- Events with which no frame is handed over. A frame that the host has sent fits into
the buffer it is read into. -/
def LoopEvent.Silent : LoopEvent → Prop
  | .tx (.received frame) => frame.length ≤ etherMaxLen
  | .tx (.sendData _ _) => False
  | .action _ _ => False
  | _ => True

/-- A change of the daemon that leaves numbers and counters of sent frames alone. -/
structure SameAccounts (before after : DaemonState) : Prop where
  layer : after.ieee80211State = before.ieee80211State
  awdl : after.awdlState.sequenceNumber = before.awdlState.sequenceNumber
  txAction : after.awdlState.stats.txAction = before.awdlState.stats.txAction
  txData : after.awdlState.stats.txData = before.awdlState.stats.txData
  txDataUnicast : after.awdlState.stats.txDataUnicast = before.awdlState.stats.txDataUnicast
  txDataMulticast :
    after.awdlState.stats.txDataMulticast = before.awdlState.stats.txDataMulticast

theorem SameAccounts.refl (state : DaemonState) : SameAccounts state state :=
  ⟨rfl, rfl, rfl, rfl, rfl, rfl⟩

/-- The counter of the senders for a frame that has been handed over. -/
def countHandOver (packet : HostBuf) (state : DaemonState) : DaemonState :=
  if packet.isMulticast then
    { state with
      awdlState.stats.txDataMulticast := state.awdlState.stats.txDataMulticast + 1 }
  else
    { state with awdlState.stats.txDataUnicast := state.awdlState.stats.txDataUnicast + 1 }

/-- A part of a callback: an action frame, a frame of the host for which no data frame or
one is built, or nothing that is sent. -/
inductive Part (before : DaemonState) : List LoopEvent → DaemonState → Prop
  | silent {batch : List LoopEvent} {after : DaemonState}
      (quiet : ∀ event ∈ batch, event.Silent) (same : SameAccounts before after) :
      Part before batch after
  | action (long : LongWidth) (clock : TxClock) (type : AwdlActionType) :
      Part before [.action type (awdlSendAction long clock type before).1]
        (awdlSendAction long clock type before).2
  | refused {packet : HostBuf} (failed : awdlSendData packet.buf before = none) :
      Part before [.tx (.sendData packet none)] (countHandOver packet before)
  | data {packet : HostBuf} {frame : List UInt8} {after : DaemonState}
      (sent : awdlSendData packet.buf before = some (frame, after)) :
      Part before [.tx (.sendData packet (some frame))] (countHandOver packet after)

/-- Parts one after the other. -/
inductive Parts (before : DaemonState) : List LoopEvent → DaemonState → Prop
  | nil : Parts before [] before
  | snoc {events batch : List LoopEvent} {middle after : DaemonState}
      (parts : Parts before events middle) (part : Part middle batch after) :
      Parts before (events ++ batch) after

section Parts

variable {before middle after : DaemonState} {first second : List LoopEvent}

theorem Part.parts (part : Part before first after) : Parts before first after :=
  .snoc .nil part

theorem Parts.append (one : Parts before first middle) (two : Parts middle second after) :
    Parts before (first ++ second) after := by
  induction two with
  | nil =>
      rw [List.append_nil]
      exact one
  | snoc _ part ih =>
      rw [← List.append_assoc]
      exact .snoc ih part

/-- A frame is handed over. -/
theorem handOver_parts (packet : HostBuf) (state : TxState) :
    Parts state.toDaemonState [.tx (handOver packet state).2]
      (countHandOver packet (handOver packet state).1.toDaemonState) := by
  unfold handOver
  cases sent : awdlSendData packet.buf state.toDaemonState with
  | none => exact (Part.refused sent).parts
  | some built => exact (Part.data sent).parts

end Parts

/-! ## The callbacks -/

theorem awdlSendUnicast_parts {state : TxState}
    (kind : ∀ packet, state.next = some packet → packet.isMulticast = false) (now : UInt64) :
    Parts state.toDaemonState ((awdlSendUnicast platform now state).events.map .tx)
      (awdlSendUnicast platform now state).state.toDaemonState := by
  have same := SameAccounts.refl state.toDaemonState
  unfold awdlSendUnicast
  split
  · exact .nil
  rename_i packet waits
  split
  · exact (Part.silent (by simp [LoopEvent.Silent]) same).parts
  split
  · exact (Part.silent (by simp [LoopEvent.Silent]) same).parts
  dsimp only
  split
  · have handed := handOver_parts packet state
    rw [countHandOver, kind packet waits] at handed
    exact handed
  · exact .nil

theorem awdlSendMulticast_parts {state : TxState}
    (kind : ∀ packet ∈ state.txQueueMulticast.contents, packet.isMulticast = true)
    (now : UInt64) :
    Parts state.toDaemonState ((awdlSendMulticast platform now state).events.map .tx)
      (awdlSendMulticast platform now state).state.toDaemonState := by
  unfold awdlSendMulticast
  split
  · exact .nil
  rename_i waiting
  rw [circularBufEmpty_iff] at waiting
  obtain ⟨packet, rest, queued⟩ := List.exists_cons_of_ne_nil waiting
  obtain ⟨shorter, get, _⟩ := circularBufGet_of_cons queued
  dsimp only
  split
  · rw [get]
    dsimp only
    have handed := handOver_parts packet { state with txQueueMulticast := shorter }
    rw [countHandOver, kind packet (by rw [queued]; exact List.mem_cons_self)] at handed
    exact handed
  split
  · exact .nil
  · exact .nil

/-- Polling hands nothing over. -/
theorem pollLoop_silent (memory : Nat → Nat → UInt8) (frames : List HostFrame) (done : PollOutcome)
    (silent : ∀ event ∈ done.events, (LoopEvent.tx event).Silent) :
    ∀ event ∈ (pollLoop memory frames done).events, (LoopEvent.tx event).Silent := by
  induction frames generalizing done with
  | nil => exact silent
  | cons frame rest ih =>
      have more : ∀ batch : List TxEvent, (∀ event ∈ batch, (LoopEvent.tx event).Silent) →
          ∀ event ∈ done.events ++ batch, (LoopEvent.tx event).Silent := by
        intro batch quiet event member
        rcases List.mem_append.mp member with earlier | later
        · exact silent event earlier
        · exact quiet event later
      unfold pollLoop
      split
      · exact silent
      dsimp only
      split
      · exact more _ (by simp [LoopEvent.Silent, frame.property])
      split
      · exact ih _ (more _ (by simp [LoopEvent.Silent, frame.property]))
      · exact ih _ (more _ (by simp [LoopEvent.Silent, frame.property]))

theorem pollHostDevice_silent (memory : Nat → Nat → UInt8) (frames : List HostFrame)
    (state : TxState) :
    ∀ event ∈ (pollHostDevice memory frames state).events, (LoopEvent.tx event).Silent :=
  pollLoop_silent memory frames ⟨false, false, state, []⟩ (List.forall_mem_nil _)

/-- Polling keeps the frames, and the node itself. -/
theorem pollHostDevice_conserves {state : TxState} {past : List TxEvent}
    (conserved : TxConserved past state) (memory : Nat → Nat → UInt8) (frames : List HostFrame) :
    TxConserved (past ++ (pollHostDevice memory frames state).events)
        (pollHostDevice memory frames state).state ∧
      (pollHostDevice memory frames state).state.toDaemonState = state.toDaemonState := by
  refine ⟨?_, pollLoop_node memory frames ⟨false, false, state, []⟩⟩
  apply pollLoop_conserves
  rw [List.append_nil]
  exact conserved

theorem hostDeviceReady_parts {state : TxState} {past : List TxEvent}
    (conserved : TxConserved past state) (memory : Nat → Nat → UInt8) (frames : List HostFrame)
    (multicastNow unicastNow : UInt64) :
    Parts state.toDaemonState
      ((hostDeviceReady platform memory frames multicastNow unicastNow state).2.map .tx)
      (hostDeviceReady platform memory frames multicastNow unicastNow state).1.toDaemonState := by
  obtain ⟨polledConserved, same⟩ := pollHostDevice_conserves conserved memory frames
  have silent := pollHostDevice_silent memory frames state
  unfold hostDeviceReady
  dsimp only
  rw [← same]
  generalize pollHostDevice memory frames state = polled at silent polledConserved ⊢
  have taken : Parts polled.state.toDaemonState (polled.events.map .tx)
      polled.state.toDaemonState := by
    refine (Part.silent ?_ (SameAccounts.refl _)).parts
    intro event member
    obtain ⟨tx, listed, rfl⟩ := List.mem_map.mp member
    exact silent tx listed
  have multicast := @awdlSendMulticast_parts platform polled.state
    (fun _ waits => polledConserved.queue_isMulticast waits) multicastNow
  by_cases newMulticast : polled.newMulticast = true
  · have sentConserved := @awdlSendMulticast_conserves platform _ _ polledConserved multicastNow
    rw [if_pos newMulticast]
    split
    · have unicast := @awdlSendUnicast_parts platform _
        (fun _ waits => sentConserved.next_isUnicast waits) unicastNow
      simpa only [List.map_append, List.append_assoc] using taken.append (multicast.append unicast)
    · simpa only [List.map_append] using taken.append multicast
  · rw [if_neg newMulticast]
    split
    · have unicast := @awdlSendUnicast_parts platform _
        (fun _ waits => polledConserved.next_isUnicast waits) unicastNow
      simpa only [List.map_append] using taken.append unicast
    · exact taken

/-- **Every callback is a sequence of parts.** -/
theorem LoopStep.parts {state next : LoopState} {label : LoopLabel} {batch : List LoopEvent}
    {past : List TxEvent} (conserved : TxConserved past state.toTxState)
    (step : LoopStep platform wlanIsFile state label batch next) :
    Parts state.toDaemonState batch next.toDaemonState := by
  cases step with
  | @wlanReady env buf outcome done =>
      obtain ⟨kept, layer⟩ := awdlReceiveFrame_receives done
      refine (Part.silent ?_ ?_).parts
      · intro event member
        rcases List.mem_append.mp member with called | delivered
        · obtain ⟨_, _, rfl⟩ := List.mem_map.mp called
          trivial
        · obtain ⟨_, _, rfl⟩ := List.mem_map.mp delivered
          trivial
      · refine ⟨layer, ?_, ?_, ?_, ?_, ?_⟩ <;> rw [kept]
  | hostReady memory frames multicastNow unicastNow =>
      obtain ⟨same, shown⟩ :=
        @loopHostReady_eq platform memory frames multicastNow unicastNow state
      rw [shown, same]
      exact hostDeviceReady_parts conserved memory frames multicastNow unicastNow
  | @chanTimer now switched _ done =>
      refine (Part.silent ?_ ?_).parts
      · intro event member
        obtain ⟨_, _, rfl⟩ := List.mem_map.mp member
        trivial
      · subst done
        unfold awdlSwitchChannel
        dsimp only
        split <;> exact ⟨rfl, rfl, rfl, rfl, rfl, rfl⟩
  | @peerTimer now cleaned done =>
      refine (Part.silent ?_ ?_).parts
      · intro event member
        obtain ⟨_, _, rfl⟩ := List.mem_map.mp member
        trivial
      · subst done
        exact ⟨rfl, rfl, rfl, rfl, rfl, rfl⟩
  | @psfTimer clock sent done =>
      subst done
      exact (Part.action platform.long clock .psf).parts
  | @mifTimer now clock sent _ done =>
      subst done
      unfold awdlSendMif
      dsimp only
      split
      · exact (Part.action platform.long clock .mif).parts
      · exact .nil
  | txTimer now _ =>
      exact awdlSendUnicast_parts (fun _ waits => conserved.next_isUnicast waits) now
  | txMcastTimer now _ =>
      exact awdlSendMulticast_parts (fun _ waits => conserved.queue_isMulticast waits) now

/-- **Every run is a sequence of parts.** -/
theorem loop_parts {daemon : DaemonState} {memory : List HostBuf}
    {size : memory.length = multicastQueueSize} {trace : List (LoopLabel × List LoopEvent)}
    {state : LoopState}
    (run : Run (LoopStep platform wlanIsFile) (loopInit daemon memory size) trace state) :
    Parts daemon (loopEvents trace) state.toDaemonState := by
  have initially : TxConserved (txPart (loopEvents [])) (loopInit daemon memory size).toTxState ∧
      Parts daemon (loopEvents []) (loopInit daemon memory size).toDaemonState :=
    ⟨txInit_conserved _ memory _, .nil⟩
  refine (run.trace_invariant (fun trace (state : LoopState) =>
    TxConserved (txPart (loopEvents trace)) state.toTxState ∧
      Parts daemon (loopEvents trace) state.toDaemonState) initially ?_).2
  rintro trace state label events next ⟨conserved, parts⟩ step
  rw [loopEvents_cons, txPart_append]
  obtain ⟨_, carried⟩ := step.txStep
  exact ⟨carried.conserves conserved, parts.append (step.parts conserved)⟩

end Owl
