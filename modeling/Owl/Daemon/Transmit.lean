import Owl.Awdl.Schedule
import Owl.Daemon.CircularBuffer
import Owl.Daemon.Core
import Owl.Rx.Isolation

/-! # Frames of the host

The transmit side of `core.c`. `poll_host_device` takes frames from the host into
the single slot `next` for a unicast frame and into the queue of multicast
frames; `awdl_send_unicast` and `awdl_send_multicast` hand them to
`awdl_send_data` when the schedule allows it, and arm their timer again when it
does not. Delays are in microseconds.
-/

namespace Owl

/-- A frame that `host_recv` delivers: it fits into the buffer it is read into. -/
abbrev HostFrame : Type := { bytes : List UInt8 // bytes.length ≤ etherMaxLen }

/-- A buffer that `poll_host_device` has allocated for a frame whose destination
it could read; `serial` counts the allocations and tells buffers apart. -/
structure HostBuf where
  serial : Nat
  buf : Buf
  dst : EtherAddr
  readable : readEtherAddr buf 0 = some dst

/-- The destination is a group address. -/
def HostBuf.isMulticast (packet : HostBuf) : Bool := packet.dst.octet0 &&& 0x01 != 0

/-- `struct daemon_state` with the frames that wait for transmission and the
number of buffers allocated for them. -/
structure TxState extends DaemonState where
  next : Option HostBuf
  txQueueMulticast : CircularBuf HostBuf
  allocated : Nat

/-- What happens to a frame: it is received from the host, stored in `next` or put
into the multicast queue (possibly in place of the oldest frame), handed to
`awdl_send_data` (with the frame for the network device, if one is built), sent
back to the host, or dropped as it is not for a peer. -/
inductive TxEvent
  | received (frame : List UInt8)
  | toNext (packet : HostBuf)
  | toQueue (packet : HostBuf) (overwrites : Bool)
  | sendData (packet : HostBuf) (frame : Option (List UInt8))
  | loopBack (packet : HostBuf)
  | drop (packet : HostBuf)

/-! ## Polling -/

/-- The buffer of `poll_host_device` after `host_recv`, cut to the length of the frame. -/
def hostRecv (memory : Nat → UInt8) (frame : HostFrame) : Buf :=
  let buf := (writeBytes (bufNewOwned memory etherMaxLen) 0 frame.val).2
  (bufTake buf (buf.len - frame.val.length)).getD buf

/-- What `poll_host_device` leaves: `POLL_NEW_UNICAST`, `POLL_NEW_MULTICAST`, the
state, and what has happened. -/
structure PollOutcome where
  newUnicast : Bool
  newMulticast : Bool
  state : TxState
  events : List TxEvent

/-- The loop of `poll_host_device` on the frames that `host_recv` delivers before
it fails. A frame without a destination ends the loop at `wire_error`. -/
def pollLoop (memory : Nat → Nat → UInt8) : List HostFrame → PollOutcome → PollOutcome
  | [], done => done
  | frame :: rest, done =>
      if done.state.next.isSome || circularBufFull done.state.txQueueMulticast then done
      else
        let serial := done.state.allocated
        let buf := hostRecv (memory serial) frame
        let state := { done.state with allocated := serial + 1 }
        match readable : readEtherAddr buf 0 with
        | none => { done with state := state, events := done.events ++ [.received frame.val] }
        | some dst =>
            let packet : HostBuf := ⟨serial, buf, dst, readable⟩
            if packet.isMulticast then
              pollLoop memory rest
                { done with
                  newMulticast := true
                  state.txQueueMulticast := circularBufPut state.txQueueMulticast packet
                  state.allocated := serial + 1
                  events := done.events ++
                    [.received frame.val,
                      .toQueue packet (circularBufFull state.txQueueMulticast)] }
            else
              pollLoop memory rest
                { done with
                  newUnicast := true
                  state.next := some packet
                  state.allocated := serial + 1
                  events := done.events ++ [.received frame.val, .toNext packet] }

/-- `poll_host_device`. -/
def pollHostDevice (memory : Nat → Nat → UInt8) (frames : List HostFrame) (state : TxState) :
    PollOutcome :=
  pollLoop memory frames ⟨false, false, state, []⟩

/-! ## Sending -/

/-- What a sender does at its end: `ev_timer_rearm` with a delay, or
`ev_feed_event` to poll for more frames. -/
inductive TimerAction
  | rearm (delay : Int)
  | feed
  deriving DecidableEq

/-- What a call of a sender leaves. -/
structure TxOutcome where
  state : TxState
  events : List TxEvent
  timer : TimerAction

/-- A call of `awdl_send_data` whose result is ignored. -/
def handOver (packet : HostBuf) (state : TxState) : TxState × TxEvent :=
  match awdlSendData packet.buf state.toDaemonState with
  | none => (state, .sendData packet none)
  | some (frame, daemon) => ({ state with toDaemonState := daemon }, .sendData packet (some frame))

/-- The delay for a frame that cannot be sent now, from a result of the schedule
that is not zero. -/
def retryDelay (long : LongWidth) (delay guard : Int) : Int :=
  if delay < 0 then -delay + (ieee80211TuToUsec long (UInt64.ofInt guard)).toNat else delay

/-- `awdl_send_unicast`. -/
def awdlSendUnicast (platform : Platform) (now : UInt64) (state : TxState) : TxOutcome :=
  match state.next with
  | none => ⟨state, [], .feed⟩
  | some packet =>
      if compareEtherAddr packet.dst state.awdlState.selfAddress = 0 then
        ⟨{ state with next := none }, [.loopBack packet], .feed⟩
      else
        match (awdlPeerGet platform.hash state.awdlState.peers.peers packet.dst).2 with
        | none => ⟨{ state with next := none }, [.drop packet], .feed⟩
        | some peer =>
            let delay :=
              awdlCanSendUnicastIn platform.long state.awdlState peer now awdlUnicastGuardTu
            if delay = 0 then
              let (state, event) := handOver packet state
              ⟨{ state with
                  next := none
                  awdlState.stats.txDataUnicast := state.awdlState.stats.txDataUnicast + 1 },
                [event], .feed⟩
            else ⟨state, [], .rearm (retryDelay platform.long delay awdlUnicastGuardTu)⟩

/-- The end of `awdl_send_multicast`: the timer is armed while frames are left. -/
def multicastTimer (state : TxState) (delay : Int) : TimerAction :=
  if circularBufEmpty state.txQueueMulticast then .feed else .rearm delay

/-- `awdl_send_multicast`. -/
def awdlSendMulticast (platform : Platform) (now : UInt64) (state : TxState) : TxOutcome :=
  if circularBufEmpty state.txQueueMulticast then ⟨state, [], .feed⟩
  else
    let delay := awdlCanSendIn platform.long state.awdlState now awdlMulticastGuardTu
    if awdlIsMulticastEaw platform.long state.awdlState now && delay == 0 then
      match circularBufGet state.txQueueMulticast false with
      | (_, none, _) => ⟨state, [], multicastTimer state delay⟩
      | (_, some packet, queue) =>
          let (state, event) := handOver packet { state with txQueueMulticast := queue }
          let state :=
            { state with
              awdlState.stats.txDataMulticast := state.awdlState.stats.txDataMulticast + 1 }
          ⟨state, [event], multicastTimer state delay⟩
    else if delay = 0 then
      ⟨state, [], multicastTimer state (ieee80211TuToUsec platform.long 64).toNat⟩
    else ⟨state, [], multicastTimer state (retryDelay platform.long delay awdlMulticastGuardTu)⟩

/-- `host_device_ready`; each sender reads the clock when it is called. -/
def hostDeviceReady (platform : Platform) (memory : Nat → Nat → UInt8) (frames : List HostFrame)
    (multicastNow unicastNow : UInt64) (state : TxState) : TxState × List TxEvent :=
  let polled := pollHostDevice memory frames state
  let multicast : TxState × List TxEvent :=
    if polled.newMulticast then
      let sent := awdlSendMulticast platform multicastNow polled.state
      (sent.state, polled.events ++ sent.events)
    else (polled.state, polled.events)
  if polled.newUnicast then
    let sent := awdlSendUnicast platform unicastNow multicast.1
    (sent.state, multicast.2 ++ sent.events)
  else multicast

/-! ## Retries of multicast frames -/

/-- A frame that waits for the guard interval is tried again after its delay. -/
theorem awdlSendMulticast_deferred {platform : Platform} {state : TxState} {now : UInt64}
    (waiting : circularBufEmpty state.txQueueMulticast = false)
    (deferred : awdlCanSendIn platform.long state.awdlState now awdlMulticastGuardTu ≠ 0) :
    (awdlSendMulticast platform now state).timer =
      .rearm (retryDelay platform.long
        (awdlCanSendIn platform.long state.awdlState now awdlMulticastGuardTu)
        awdlMulticastGuardTu) := by
  unfold awdlSendMulticast multicastTimer
  dsimp only
  rw [beq_eq_false_iff_ne.mpr deferred, Bool.and_false, if_neg Bool.false_ne_true,
    if_neg deferred, waiting, if_neg Bool.false_ne_true]
  dsimp only
  rw [if_neg Bool.false_ne_true]

section Retry

variable {state : AwdlState} (wf : SyncWf state.sync) (long : LongWidth) (now : UInt64)

include wf

/-- The schedule of multicast frames by the time that is left in the slot. -/
theorem awdlCanSendIn_multicast :
    awdlCanSendIn long state now awdlMulticastGuardTu =
      let left : Int := (awdlSyncNextAwUs long now state.sync).toNat
      if left < 16384 then left - 16384
      else if 65536 - left < 16384 then 16384 - (65536 - left)
      else 0 :=
  awdlCanSendIn_eq wf long now (by decide) (by decide)

/-- The delay by the time that is left in the slot. -/
theorem retryDelay_multicast :
    retryDelay long (awdlCanSendIn long state now awdlMulticastGuardTu) awdlMulticastGuardTu =
      let left : Int := (awdlSyncNextAwUs long now state.sync).toNat
      if left < 16384 then 32768 - left
      else if 65536 - left < 16384 then 16384 - (65536 - left)
      else 0 := by
  have length : (ieee80211TuToUsec long (UInt64.ofInt awdlMulticastGuardTu)).toNat = 16384 := by
    cases long <;> rfl
  rw [awdlCanSendIn_multicast wf, retryDelay, length]
  dsimp only
  split_ifs <;> omega

/-- The time that is left in the slot after a delay. -/
theorem toNat_awdlSyncNextAwUs_add {delay : Int} (nonneg : 0 ≤ delay) (small : delay < 65536) :
    (awdlSyncNextAwUs long (now + UInt64.ofInt delay) state.sync).toNat =
      65536 - (state.sync.elapsed now + delay.toNat) % 65536 := by
  rw [toNat_awdlSyncNextAwUs wf, AwdlSyncState.elapsed_add, toNat_ofInt_of_lt nonneg (by omega)]
  omega

end Retry

/-- **When a deferred multicast frame can be sent at its retry.** At the start of a
slot the delay leads to the end of the guard interval. At the end of a slot it is
the guard interval twice less the time that is left, which leads behind the guard
interval of the next slot only in the last half of the guard interval. -/
theorem awdlSendMulticast_retry_iff {platform : Platform} {state : TxState} {now : UInt64}
    (reachable : SyncReachable platform.long state.awdlState.sync)
    (waiting : circularBufEmpty state.txQueueMulticast = false)
    (deferred : awdlCanSendIn platform.long state.awdlState now awdlMulticastGuardTu ≠ 0) :
    (∃ delay, (awdlSendMulticast platform now state).timer = .rearm delay ∧
        awdlCanSendIn platform.long state.awdlState (now + UInt64.ofInt delay)
          awdlMulticastGuardTu = 0) ↔
      (awdlSyncNextAwUs platform.long now state.awdlState.sync).toNat ≤ 8192 ∨
        16384 ≤ (awdlSyncNextAwUs platform.long now state.awdlState.sync).toNat := by
  have wf := reachable.wf
  have left := toNat_awdlSyncNextAwUs wf platform.long now
  have later := @toNat_awdlSyncNextAwUs_add state.awdlState wf platform.long now
  rw [awdlSendMulticast_deferred waiting deferred]
  simp only [TimerAction.rearm.injEq, exists_eq_left', retryDelay_multicast wf]
  rw [awdlCanSendIn_multicast wf] at deferred ⊢
  dsimp only at deferred ⊢
  generalize (awdlSyncNextAwUs platform.long now state.awdlState.sync).toNat = rest
    at left deferred ⊢
  by_cases nearEnd : (rest : Int) < 16384
  · rw [if_pos nearEnd, later (by omega) (by omega)]
    split_ifs <;> omega
  · rw [if_neg nearEnd] at deferred ⊢
    by_cases nearStart : 65536 - (rest : Int) < 16384
    · rw [if_pos nearStart, later (by omega) (by omega)]
      split_ifs <;> omega
    · rw [if_neg nearStart] at deferred
      exact absurd rfl deferred

/-- A frame for all nodes. -/
def sampleMulticast : HostBuf :=
  ⟨0, bufNewConst [0x33, 0x33, 0, 0, 0, 1], ⟨0x33, 0x33, 0, 0, 0, 1⟩, rfl⟩

/-- A daemon that has just been initialised and has a multicast frame to send. -/
def sampleTx : TxState where
  toDaemonState :=
    awdlInit (List.replicate 65 0) default [111, 119, 108] ⟨2, 0, 0, 0, 0, 1⟩ chanOpclass6 0
  next := none
  txQueueMulticast :=
    circularBufPut (circularBufInit (List.replicate 16 sampleMulticast) (by decide)) sampleMulticast
  allocated := 1

/-- Ten milliseconds before the end of a slot the retry falls into the guard
interval of the next slot, which lasts for another 3.6 milliseconds then. -/
theorem awdlSendMulticast_retry_early :
    SyncReachable .bits64 sampleTx.awdlState.sync ∧
      circularBufEmpty sampleTx.txQueueMulticast = false ∧
      awdlCanSendIn .bits64 sampleTx.awdlState 55536 awdlMulticastGuardTu ≠ 0 ∧
      ∃ delay, (awdlSendMulticast samplePlatform 55536 sampleTx).timer = .rearm delay ∧
        awdlCanSendIn .bits64 sampleTx.awdlState (55536 + UInt64.ofInt delay)
          awdlMulticastGuardTu = 3616 :=
  ⟨.init 0, by decide, by decide +kernel, 22768, by decide +kernel, by decide +kernel⟩

/-- A tenth of a millisecond before the end of a slot the retry comes in time. -/
theorem awdlSendMulticast_retry_iff_late :
    ∃ delay, (awdlSendMulticast samplePlatform 65436 sampleTx).timer = .rearm delay ∧
      awdlCanSendIn .bits64 sampleTx.awdlState (65436 + UInt64.ofInt delay)
        awdlMulticastGuardTu = 0 :=
  (@awdlSendMulticast_retry_iff samplePlatform sampleTx 65436 (.init 0) (by decide)
    (by decide +kernel)).mpr (Or.inl (by decide +kernel))

end Owl
