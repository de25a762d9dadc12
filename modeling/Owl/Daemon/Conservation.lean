import Owl.Daemon.Transmit

/-! # No frame of the host is lost

Over every run of the transmit side, with changes of the node in between, each
frame that is taken from the host stays in one place until it leaves, frames do
not overtake each other, and no put overwrites a frame (`transmit_conserves`).
The proof follows the frames through the events: multicast frames that have
arrived are those that have left and those in the queue, in this order, and
unicast frames that have arrived are those that have left and `next`.
-/

namespace Owl

open Transition
open scoped List

variable {platform : Platform}

/-! ## Events -/

/-- The frames that the host has delivered. -/
def receivedFrames (events : List TxEvent) : List (List UInt8) :=
  events.filterMap fun
    | .received frame => some frame
    | _ => none

/-- The frames that have been stored in `next` or in the queue. -/
def arrivals (events : List TxEvent) : List HostBuf :=
  events.filterMap fun
    | .toNext packet => some packet
    | .toQueue packet _ => some packet
    | _ => none

/-- The frames that have been handed to `awdl_send_data`. -/
def handedOver (events : List TxEvent) : List HostBuf :=
  events.filterMap fun
    | .sendData packet _ => some packet
    | _ => none

/-- The frames that have been sent back to the host. -/
def loopedBack (events : List TxEvent) : List HostBuf :=
  events.filterMap fun
    | .loopBack packet => some packet
    | _ => none

/-- The frames that have been dropped. -/
def dropped (events : List TxEvent) : List HostBuf :=
  events.filterMap fun
    | .drop packet => some packet
    | _ => none

/-- The frames that have left `next` or the queue. -/
def departures (events : List TxEvent) : List HostBuf :=
  events.filterMap fun
    | .sendData packet _ => some packet
    | .loopBack packet => some packet
    | .drop packet => some packet
    | _ => none

section Append

variable (first second : List TxEvent)

@[simp] theorem receivedFrames_append :
    receivedFrames (first ++ second) = receivedFrames first ++ receivedFrames second :=
  List.filterMap_append

@[simp] theorem arrivals_append : arrivals (first ++ second) = arrivals first ++ arrivals second :=
  List.filterMap_append

@[simp] theorem departures_append :
    departures (first ++ second) = departures first ++ departures second :=
  List.filterMap_append

end Append

/-- A frame that has left was handed over, sent back or dropped, once. -/
theorem departures_perm (events : List TxEvent) :
    (departures events).Perm (handedOver events ++ loopedBack events ++ dropped events) := by
  induction events with
  | nil => exact .refl _
  | cons event rest ih =>
      cases event with
      | received frame => exact ih
      | toNext packet => exact ih
      | toQueue packet overwrites => exact ih
      | sendData packet frame => exact ih.cons packet
      | loopBack packet =>
          refine (ih.cons packet).trans ?_
          rw [List.append_assoc]
          exact List.perm_middle.symm.trans (by rw [List.append_assoc]; exact .refl _)
      | drop packet => exact (ih.cons packet).trans List.perm_middle.symm

/-! ## Frames from the host -/

/-- The buffer of a received frame shows the frame. -/
theorem view_hostRecv (memory : Nat → UInt8) (frame : HostFrame) :
    (hostRecv memory frame).view = frame.val := by
  have size : (bufNewOwned memory etherMaxLen).len = etherMaxLen := by
    rw [bufNewOwned, len_bufNewConst, List.length_map, List.length_range]
  have room : ([] : List UInt8).length + frame.val.length ≤
      (bufNewOwned memory etherMaxLen).len := by
    rw [size, List.length_nil, Nat.zero_add]
    exact frame.property
  obtain ⟨filled, written, length, front⟩ :=
    @writeBytes_behind _ [] frame.val List.take_zero room
  have written : writeBytes (bufNewOwned memory etherMaxLen) 0 frame.val =
      ((frame.val.length : Int), filled) := written
  have rest : (filled.len : Int) - frame.val.length =
      ((filled.len - frame.val.length : Nat) : Int) := by
    have fits : frame.val.length ≤ filled.len := by
      rw [length, size]
      exact frame.property
    omega
  obtain ⟨taken, take, viewed⟩ := @bufTake_of_le filled (filled.len - frame.val.length) (by
    rw [filled.length_view]
    exact Nat.sub_le _ _)
  unfold hostRecv
  rw [written]
  dsimp only
  rw [rest, take, Option.getD_some, viewed, filled.length_view, Nat.sub_sub_self]
  · exact front
  · rw [length, size]
    exact frame.property

/-! ## The invariant -/

/-- What the events of a run say about the frames that wait. -/
structure TxConserved (events : List TxEvent) (state : TxState) : Prop where
  frames : (arrivals events).map (·.buf.view) =
    (receivedFrames events).filter (6 ≤ ·.length)
  ordered : (arrivals events).Pairwise (·.serial < ·.serial)
  older : ∀ packet ∈ arrivals events, packet.serial < state.allocated
  multicast : (arrivals events).filter (·.isMulticast) =
    (departures events).filter (·.isMulticast) ++ state.txQueueMulticast.contents
  unicast : (arrivals events).filter (!·.isMulticast) =
    (departures events).filter (!·.isMulticast) ++ state.next.toList
  kept : ∀ packet, .toQueue packet true ∉ events

/-- An event with which a frame leaves. -/
inductive TxEvent.Leaves (packet : HostBuf) : TxEvent → Prop
  | sendData (frame : Option (List UInt8)) : Leaves packet (.sendData packet frame)
  | loopBack : Leaves packet (.loopBack packet)
  | drop : Leaves packet (.drop packet)

namespace TxConserved

variable {events : List TxEvent} {state next : TxState} {packet : HostBuf}

/-- The node itself does not matter. -/
theorem congr (conserved : TxConserved events state) (same : next.next = state.next)
    (queue : next.txQueueMulticast = state.txQueueMulticast)
    (allocated : next.allocated = state.allocated) : TxConserved events next where
  frames := conserved.frames
  ordered := conserved.ordered
  older := by
    rw [allocated]
    exact conserved.older
  multicast := by
    rw [queue]
    exact conserved.multicast
  unicast := by
    rw [same]
    exact conserved.unicast
  kept := conserved.kept

theorem next_isUnicast (conserved : TxConserved events state) (waits : state.next = some packet) :
    packet.isMulticast = false := by
  have member : packet ∈ (arrivals events).filter (!·.isMulticast) := by
    rw [conserved.unicast, waits]
    exact List.mem_append_right _ List.mem_cons_self
  rw [List.mem_filter, Bool.not_eq_true'] at member
  exact member.2

theorem queue_isMulticast (conserved : TxConserved events state)
    (waits : packet ∈ state.txQueueMulticast.contents) : packet.isMulticast = true := by
  have member : packet ∈ (arrivals events).filter (·.isMulticast) := by
    rw [conserved.multicast]
    exact List.mem_append_right _ waits
  exact (List.mem_filter.mp member).2

/-- A batch of events in which frames arrive behind those of their kind and leave
in front of them. -/
theorem append (conserved : TxConserved events state) {batch : List TxEvent}
    (frames : (arrivals batch).map (·.buf.view) = (receivedFrames batch).filter (6 ≤ ·.length))
    (ordered : (arrivals batch).Pairwise (·.serial < ·.serial))
    (fresh : ∀ packet ∈ arrivals batch,
      state.allocated ≤ packet.serial ∧ packet.serial < next.allocated)
    (grows : state.allocated ≤ next.allocated)
    (queue : state.txQueueMulticast.contents ++ (arrivals batch).filter (·.isMulticast) =
      (departures batch).filter (·.isMulticast) ++ next.txQueueMulticast.contents)
    (slot : state.next.toList ++ (arrivals batch).filter (!·.isMulticast) =
      (departures batch).filter (!·.isMulticast) ++ next.next.toList)
    (kept : ∀ packet, .toQueue packet true ∉ batch) : TxConserved (events ++ batch) next where
  frames := by
    rw [arrivals_append, receivedFrames_append, List.map_append, List.filter_append,
      conserved.frames, frames]
  ordered := by
    rw [arrivals_append]
    refine List.pairwise_append.mpr ⟨conserved.ordered, ordered, ?_⟩
    intro before early after late
    exact Nat.lt_of_lt_of_le (conserved.older before early) (fresh after late).1
  older := by
    intro packet member
    rw [arrivals_append] at member
    rcases List.mem_append.mp member with early | late
    · exact Nat.lt_of_lt_of_le (conserved.older packet early) grows
    · exact (fresh packet late).2
  multicast := by
    rw [arrivals_append, departures_append, List.filter_append, List.filter_append,
      conserved.multicast, List.append_assoc, queue, List.append_assoc]
  unicast := by
    rw [arrivals_append, departures_append, List.filter_append, List.filter_append,
      conserved.unicast, List.append_assoc, slot, List.append_assoc]
  kept := by
    intro packet member
    rcases List.mem_append.mp member with early | late
    · exact conserved.kept packet early
    · exact kept packet late

/-- A frame that is received is stored. -/
theorem arrive (conserved : TxConserved events state) {stored : TxEvent}
    (arrives : arrivals [stored] = [packet]) (stays : departures [stored] = [])
    (plain : receivedFrames [stored] = []) (fits : ∀ other, stored ≠ .toQueue other true)
    (long : 6 ≤ packet.buf.view.length) (fresh : packet.serial = state.allocated)
    (allocated : next.allocated = state.allocated + 1)
    (queue : next.txQueueMulticast.contents =
      state.txQueueMulticast.contents ++ [packet].filter (·.isMulticast))
    (slot : next.next.toList = state.next.toList ++ [packet].filter (!·.isMulticast)) :
    TxConserved (events ++ [.received packet.buf.view, stored]) next := by
  have one : arrivals [.received packet.buf.view, stored] = [packet] := arrives
  have none : departures [.received packet.buf.view, stored] = [] := stays
  have frame : receivedFrames [.received packet.buf.view, stored] = [packet.buf.view] :=
    congrArg (packet.buf.view :: ·) plain
  apply conserved.append
  · rw [one, frame, List.map_singleton]
    simp only [List.filter_cons, long, decide_true, ↓reduceIte, List.filter_nil]
  · rw [one]
    exact List.pairwise_singleton _ _
  · intro other member
    rw [one, List.mem_singleton] at member
    rw [member]
    omega
  · omega
  · rw [one, none, List.filter_nil, List.nil_append, queue]
  · rw [one, none, List.filter_nil, List.nil_append, slot]
  · intro other member
    rcases List.mem_cons.mp member with same | last
    · cases same
    · exact fits other (List.mem_singleton.mp last).symm

theorem toQueue (conserved : TxConserved events state) (packet : HostBuf)
    (multicast : packet.isMulticast = true)
    (fits : circularBufFull state.txQueueMulticast = false)
    (long : 6 ≤ packet.buf.view.length) (fresh : packet.serial = state.allocated) :
    TxConserved (events ++ [.received packet.buf.view, .toQueue packet false])
      { state with
        txQueueMulticast := circularBufPut state.txQueueMulticast packet
        allocated := state.allocated + 1 } := by
  have room : state.txQueueMulticast.full = false := fits
  refine conserved.arrive rfl rfl rfl nofun long fresh rfl ?_ ?_
  · rw [contents_circularBufPut, room, if_neg Bool.false_ne_true,
      List.filter_cons_of_pos multicast, List.filter_nil]
  · rw [List.filter_cons_of_neg (by rw [multicast]; decide), List.filter_nil, List.append_nil]

theorem toNext (conserved : TxConserved events state) (packet : HostBuf)
    (unicast : packet.isMulticast = false) (free : state.next = none)
    (long : 6 ≤ packet.buf.view.length) (fresh : packet.serial = state.allocated) :
    TxConserved (events ++ [.received packet.buf.view, .toNext packet])
      { state with next := some packet, allocated := state.allocated + 1 } := by
  refine conserved.arrive rfl rfl rfl nofun long fresh rfl ?_ ?_
  · rw [List.filter_cons_of_neg (by rw [unicast]; decide), List.filter_nil, List.append_nil]
  · rw [free, List.filter_cons_of_pos (by rw [unicast]; decide), List.filter_nil]
    rfl

/-- A frame without a destination is forgotten. -/
theorem short (conserved : TxConserved events state) {frame : List UInt8}
    (short : frame.length < 6) :
    TxConserved (events ++ [.received frame])
      { state with allocated := state.allocated + 1 } := by
  have nothing : [frame].filter (6 ≤ ·.length) = [] := by
    simp only [List.filter_cons, Nat.not_le.mpr short, decide_false, Bool.false_eq_true,
      ↓reduceIte, List.filter_nil]
  apply conserved.append
  · exact nothing.symm
  · exact List.Pairwise.nil
  · intro other member
    exact absurd member List.not_mem_nil
  · exact Nat.le_succ _
  · exact List.append_nil _
  · exact List.append_nil _
  · intro other member
    cases List.mem_singleton.mp member

/-- The oldest frame of its kind leaves. -/
theorem depart (conserved : TxConserved events state) {event : TxEvent}
    (leaves : event.Leaves packet) (allocated : next.allocated = state.allocated)
    (queue : state.txQueueMulticast.contents =
      [packet].filter (·.isMulticast) ++ next.txQueueMulticast.contents)
    (slot : state.next.toList = [packet].filter (!·.isMulticast) ++ next.next.toList) :
    TxConserved (events ++ [event]) next := by
  have left : departures [event] = [packet] := by cases leaves <;> rfl
  have stored : arrivals [event] = [] := by cases leaves <;> rfl
  have taken : receivedFrames [event] = [] := by cases leaves <;> rfl
  apply conserved.append
  · rw [stored, taken]
    rfl
  · rw [stored]
    exact List.Pairwise.nil
  · intro other member
    rw [stored] at member
    exact absurd member List.not_mem_nil
  · exact allocated.ge
  · rw [stored, left, List.filter_nil, List.append_nil, queue]
  · rw [stored, left, List.filter_nil, List.append_nil, slot]
  · intro other member
    rw [← List.mem_singleton.mp member] at leaves
    cases leaves

end TxConserved

/-! ## The handlers -/

theorem readEtherAddr_zero_isSome {buf : Buf} {dst : EtherAddr}
    (readable : readEtherAddr buf 0 = some dst) : 6 ≤ buf.view.length := by
  obtain ⟨bytes, read, _⟩ := Option.map_eq_some_iff.mp readable
  exact (readBytes_zero_eq_some read).1

/-- Polling takes frames in as long as there is room for either kind. -/
theorem pollLoop_conserves (memory : Nat → Nat → UInt8) {events : List TxEvent}
    (frames : List HostFrame) (done : PollOutcome)
    (conserved : TxConserved (events ++ done.events) done.state) :
    TxConserved (events ++ (pollLoop memory frames done).events)
      (pollLoop memory frames done).state := by
  induction frames generalizing done with
  | nil => exact conserved
  | cons frame rest ih =>
      have viewed := view_hostRecv (memory done.state.allocated) frame
      unfold pollLoop
      split
      · exact conserved
      rename_i room
      rw [Bool.or_eq_true, not_or, Bool.not_eq_true, Bool.not_eq_true] at room
      obtain ⟨free, fits⟩ := room
      rw [Option.isSome_eq_false_iff, Option.isNone_iff_eq_none] at free
      dsimp only
      split
      · rename_i unreadable
        have short : frame.val.length < 6 := by
          by_contra long
          rw [← viewed] at long
          have readable := @readEtherAddr_of_le
            (hostRecv (memory done.state.allocated) frame) 0 (Nat.not_lt.mp long)
          cases unreadable.symm.trans readable
        rw [← List.append_assoc]
        exact conserved.short short
      · rename_i dst readable
        have long := readEtherAddr_zero_isSome readable
        split
        · rename_i multicast
          apply ih
          dsimp only
          rw [← List.append_assoc, ← viewed, fits]
          exact conserved.toQueue ⟨_, _, dst, readable⟩ multicast fits long rfl
        · rename_i unicast
          apply ih
          dsimp only
          rw [← List.append_assoc, ← viewed]
          exact conserved.toNext ⟨_, _, dst, readable⟩ (Bool.not_eq_true _ ▸ unicast) free long rfl

/-- A frame leaves when it is handed over, and nothing else moves. -/
theorem handOver_spec (packet : HostBuf) (state : TxState) :
    (handOver packet state).2.Leaves packet ∧
      (handOver packet state).1.next = state.next ∧
      (handOver packet state).1.txQueueMulticast = state.txQueueMulticast ∧
      (handOver packet state).1.allocated = state.allocated := by
  unfold handOver
  split
  · exact ⟨.sendData none, rfl, rfl, rfl⟩
  · exact ⟨.sendData (some _), rfl, rfl, rfl⟩

section Handlers

variable {events : List TxEvent} {state : TxState} (conserved : TxConserved events state)

include conserved

theorem awdlSendUnicast_conserves (now : UInt64) :
    TxConserved (events ++ (awdlSendUnicast platform now state).events)
      (awdlSendUnicast platform now state).state := by
  have same : TxConserved (events ++ []) state := by
    rw [List.append_nil]
    exact conserved
  unfold awdlSendUnicast
  split
  · exact same
  rename_i packet waits
  have unicast := conserved.next_isUnicast waits
  have none : [packet].filter (·.isMulticast) = [] := by
    rw [List.filter_cons_of_neg (by rw [unicast]; decide), List.filter_nil]
  have one : state.next.toList = [packet].filter (!·.isMulticast) ++ Option.none.toList := by
    rw [waits, List.filter_cons_of_pos (by rw [unicast]; decide), List.filter_nil]
    rfl
  split
  · refine conserved.depart .loopBack rfl ?_ one
    rw [none, List.nil_append]
  split
  · refine conserved.depart .drop rfl ?_ one
    rw [none, List.nil_append]
  dsimp only
  split
  · obtain ⟨leaves, _, queue, allocated⟩ := handOver_spec packet state
    refine conserved.depart leaves allocated ?_ one
    rw [none, List.nil_append]
    exact congrArg CircularBuf.contents queue.symm
  · exact same

theorem awdlSendMulticast_conserves (now : UInt64) :
    TxConserved (events ++ (awdlSendMulticast platform now state).events)
      (awdlSendMulticast platform now state).state := by
  have same : TxConserved (events ++ []) state := by
    rw [List.append_nil]
    exact conserved
  unfold awdlSendMulticast
  split
  · exact same
  rename_i waiting
  rw [circularBufEmpty_iff] at waiting
  obtain ⟨packet, rest, queued⟩ := List.exists_cons_of_ne_nil waiting
  obtain ⟨shorter, get, left⟩ := circularBufGet_of_cons queued
  have multicast : packet.isMulticast = true := by
    apply conserved.queue_isMulticast
    rw [queued]
    exact List.mem_cons_self
  dsimp only
  split
  · rw [get]
    dsimp only
    obtain ⟨leaves, next, queue, allocated⟩ :=
      handOver_spec packet { state with txQueueMulticast := shorter }
    refine conserved.depart leaves allocated ?_ ?_
    · rw [queued, List.filter_cons_of_pos multicast, List.filter_nil]
      exact congrArg (packet :: ·) (left.symm.trans (congrArg CircularBuf.contents queue.symm))
    · rw [List.filter_cons_of_neg (by rw [multicast]; decide), List.filter_nil, List.nil_append]
      exact congrArg Option.toList next.symm
  split
  · exact same
  · exact same

theorem hostDeviceReady_conserves (memory : Nat → Nat → UInt8) (frames : List HostFrame)
    (multicastNow unicastNow : UInt64) :
    TxConserved
      (events ++ (hostDeviceReady platform memory frames multicastNow unicastNow state).2)
      (hostDeviceReady platform memory frames multicastNow unicastNow state).1 := by
  have polled : TxConserved (events ++ (pollHostDevice memory frames state).events)
      (pollHostDevice memory frames state).state := by
    apply pollLoop_conserves
    rw [List.append_nil]
    exact conserved
  unfold hostDeviceReady
  dsimp only
  by_cases new : (pollHostDevice memory frames state).newMulticast = true
  · have multicast := @awdlSendMulticast_conserves platform _ _ polled multicastNow
    rw [List.append_assoc] at multicast
    rw [if_pos new]
    split
    · rw [← List.append_assoc]
      exact awdlSendUnicast_conserves multicast unicastNow
    · exact multicast
  · rw [if_neg new]
    split
    · rw [← List.append_assoc]
      exact awdlSendUnicast_conserves polled unicastNow
    · exact polled

end Handlers

/-! ## Runs -/

/-- The events of the transmit side: the host device is readable, a timer of a
sender, or a change of the node by anything else. -/
inductive TxLabel
  | hostReady (memory : Nat → Nat → UInt8) (frames : List HostFrame)
      (multicastNow unicastNow : UInt64)
  | unicastTimer (now : UInt64)
  | multicastTimer (now : UInt64)
  | node (daemon : DaemonState)

/-- One event of the transmit side, with what happens to the frames. -/
def TxStep (platform : Platform) (state : TxState) (label : TxLabel) (events : List TxEvent)
    (next : TxState) : Prop :=
  match label with
  | .hostReady memory frames multicastNow unicastNow =>
      (next, events) = hostDeviceReady platform memory frames multicastNow unicastNow state
  | .unicastTimer now =>
      next = (awdlSendUnicast platform now state).state ∧
        events = (awdlSendUnicast platform now state).events
  | .multicastTimer now =>
      next = (awdlSendMulticast platform now state).state ∧
        events = (awdlSendMulticast platform now state).events
  | .node daemon => next = { state with toDaemonState := daemon } ∧ events = []

theorem TxStep.hostReady (platform : Platform) (memory : Nat → Nat → UInt8)
    (frames : List HostFrame) (multicastNow unicastNow : UInt64) (state : TxState) :
    TxStep platform state (.hostReady memory frames multicastNow unicastNow)
      (hostDeviceReady platform memory frames multicastNow unicastNow state).2
      (hostDeviceReady platform memory frames multicastNow unicastNow state).1 :=
  rfl

/-- What has happened to frames in a run, oldest first. -/
def txEvents (trace : List (TxLabel × List TxEvent)) : List TxEvent :=
  trace.reverse.flatMap (·.2)

@[simp] theorem txEvents_nil : txEvents [] = [] := rfl

@[simp] theorem txEvents_cons (label : TxLabel) (events : List TxEvent)
    (trace : List (TxLabel × List TxEvent)) :
    txEvents ((label, events) :: trace) = txEvents trace ++ events := by
  rw [txEvents, List.reverse_cons, List.flatMap_append, List.flatMap_singleton]
  rfl

/-- A daemon without frames to send. -/
def txInit (daemon : DaemonState) (memory : List HostBuf) (size : 0 < memory.length) : TxState where
  toDaemonState := daemon
  next := none
  txQueueMulticast := circularBufInit memory size
  allocated := 0

theorem txInit_conserved (daemon : DaemonState) (memory : List HostBuf)
    (size : 0 < memory.length) : TxConserved [] (txInit daemon memory size) where
  frames := rfl
  ordered := List.Pairwise.nil
  older := by
    intro packet member
    exact absurd member List.not_mem_nil
  multicast := (contents_circularBufInit memory size).symm
  unicast := rfl
  kept := by
    intro packet member
    exact absurd member List.not_mem_nil

theorem TxStep.conserves {state next : TxState} {label : TxLabel} {before events : List TxEvent}
    (conserved : TxConserved before state) (step : TxStep platform state label events next) :
    TxConserved (before ++ events) next := by
  cases label with
  | hostReady memory frames multicastNow unicastNow =>
      obtain ⟨rfl, rfl⟩ := Prod.mk.inj step
      exact hostDeviceReady_conserves conserved memory frames multicastNow unicastNow
  | unicastTimer now =>
      obtain ⟨rfl, rfl⟩ := step
      exact awdlSendUnicast_conserves conserved now
  | multicastTimer now =>
      obtain ⟨rfl, rfl⟩ := step
      exact awdlSendMulticast_conserves conserved now
  | node daemon =>
      obtain ⟨rfl, rfl⟩ := step
      rw [List.append_nil]
      exact conserved.congr rfl rfl rfl

theorem run_conserves {daemon : DaemonState} {memory : List HostBuf} {size : 0 < memory.length}
    {trace : List (TxLabel × List TxEvent)} {state : TxState}
    (run : Run (TxStep platform) (txInit daemon memory size) trace state) :
    TxConserved (txEvents trace) state := by
  refine run.trace_invariant (fun trace state => TxConserved (txEvents trace) state)
    (txInit_conserved daemon memory size) ?_
  intro trace state label events next conserved step
  rw [txEvents_cons]
  exact step.conserves conserved

/-- **Transmit conservation.** After every run the buffers that have been stored
are those of the received frames with a destination, each once; each is in
`next`, in the multicast queue, handed to `awdl_send_data`, sent back to the host
or dropped, and in one of these places only. Frames of either kind leave in
the order in which they have arrived, and no put has overwritten a frame. -/
theorem transmit_conserves {daemon : DaemonState} {memory : List HostBuf}
    {size : 0 < memory.length} {trace : List (TxLabel × List TxEvent)} {state : TxState}
    (run : Run (TxStep platform) (txInit daemon memory size) trace state) :
    (arrivals (txEvents trace)).map (·.buf.view) =
        (receivedFrames (txEvents trace)).filter (6 ≤ ·.length) ∧
      ((arrivals (txEvents trace)).map (·.serial)).Nodup ∧
      (arrivals (txEvents trace)).Perm
        (state.next.toList ++ state.txQueueMulticast.contents ++ handedOver (txEvents trace) ++
          loopedBack (txEvents trace) ++ dropped (txEvents trace)) ∧
      (∀ packet, .toQueue packet true ∉ txEvents trace) ∧
      (arrivals (txEvents trace)).filter (·.isMulticast) =
        (departures (txEvents trace)).filter (·.isMulticast) ++
          state.txQueueMulticast.contents ∧
      (arrivals (txEvents trace)).filter (!·.isMulticast) =
        (departures (txEvents trace)).filter (!·.isMulticast) ++ state.next.toList := by
  have conserved := run_conserves run
  generalize txEvents trace = events at conserved ⊢
  refine ⟨conserved.frames, ?_, ?_, conserved.kept, conserved.multicast, conserved.unicast⟩
  · rw [List.nodup_iff_pairwise_ne, List.pairwise_map]
    exact conserved.ordered.imp Nat.ne_of_lt
  · have kinds := List.filter_append_perm (fun packet : HostBuf => packet.isMulticast)
    have left := (kinds (departures events)).trans (departures_perm events)
    refine (kinds (arrivals events)).symm.trans ?_
    rw [conserved.multicast, conserved.unicast]
    generalize (departures events).filter (·.isMulticast) = multicast at left ⊢
    generalize (departures events).filter (!·.isMulticast) = unicast at left ⊢
    calc multicast ++ state.txQueueMulticast.contents ++ (unicast ++ state.next.toList)
        _ = multicast ++ (state.txQueueMulticast.contents ++ (unicast ++ state.next.toList)) :=
            List.append_assoc ..
        _ ~ multicast ++ (unicast ++ (state.txQueueMulticast.contents ++ state.next.toList)) :=
            (List.perm_append_comm_assoc ..).append_left _
        _ = multicast ++ unicast ++ (state.txQueueMulticast.contents ++ state.next.toList) :=
            (List.append_assoc ..).symm
        _ ~ state.next.toList ++ state.txQueueMulticast.contents ++ (multicast ++ unicast) :=
            List.perm_append_comm.trans (List.perm_append_comm.append_right _)
        _ ~ state.next.toList ++ state.txQueueMulticast.contents ++
              (handedOver events ++ loopedBack events ++ dropped events) := left.append_left _
        _ = _ := by simp only [List.append_assoc]

/-- A frame for all nodes and one for a node that is no peer. -/
def sampleHostFrames : List HostFrame :=
  [⟨[0x33, 0x33, 0, 0, 0, 1], by decide⟩, ⟨[2, 0, 0, 0, 0, 9], by decide⟩]

/-- The first event of a run brings in two frames; one is dropped and one waits. -/
theorem transmit_conserves_ready :
    let start := txInit sampleTx.toDaemonState (List.replicate 16 sampleMulticast) (by decide)
    let ready := hostDeviceReady samplePlatform (fun _ _ => 0) sampleHostFrames 0 0 start
    (receivedFrames ready.2).length = 2 ∧ (dropped ready.2).length = 1 ∧
      circularBufSize ready.1.txQueueMulticast = 1 ∧
      (arrivals ready.2).Perm
        (ready.1.next.toList ++ ready.1.txQueueMulticast.contents ++ handedOver ready.2 ++
          loopedBack ready.2 ++ dropped ready.2) := by
  intro start ready
  have run : Run (TxStep samplePlatform) start
      [(.hostReady (fun _ _ => 0) sampleHostFrames 0 0, ready.2)] ready.1 :=
    .cons .nil (TxStep.hostReady samplePlatform _ sampleHostFrames 0 0 start)
  have conserved := (transmit_conserves run).2.2.1
  rw [txEvents_cons, txEvents_nil, List.nil_append] at conserved
  exact ⟨by decide +kernel, by decide +kernel, by decide +kernel, conserved⟩

end Owl
