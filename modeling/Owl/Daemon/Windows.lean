import Owl.Daemon.Accounts

/-! # When data frames are handed over

In every run of the event loop, a multicast frame is handed over only in the slots for
multicast frames and away from their ends, and a unicast frame only for a peer in the
table that is on the channel of the node (`loop_sends_in_windows`).
-/

namespace Owl

open Transition

variable {platform : Platform} {wlanIsFile : Bool}

/-! ## Sync states -/

/-- A callback leaves the sync state in those on which the slot clock runs. -/
theorem LoopStep.syncReachable {state next : LoopState} {label : LoopLabel}
    {events : List LoopEvent} (reachable : SyncReachable platform.long state.awdlState.sync)
    (step : LoopStep platform wlanIsFile state label events next) :
    SyncReachable platform.long next.awdlState.sync := by
  refine step.keeps (fun state => SyncReachable platform.long state.awdlState.sync) ?_ ?_ reachable
  · intro before cause output after reachable step
    cases cause with
    | receive env buf =>
        obtain ⟨outcome, done, same, _⟩ := step
        obtain ⟨rx, received, rfl⟩ := Option.map_eq_some_iff.mp done
        have kept := awdlRx_syncReachable reachable received
        rw [same]
        dsimp only [countUnknown]
        split <;> exact kept
    | clean now =>
        obtain ⟨same, _⟩ := step
        rw [same]
        exact reachable
  · intro before after reachable sent
    rw [sent]
    exact reachable

/-! ## Windows -/

/-- A frame may be handed over at a time: a multicast frame in a slot for such frames and
not within its guard interval, a unicast frame for a peer that the schedule allows. -/
inductive InWindow (platform : Platform) (node : AwdlState) (now : UInt64) (packet : HostBuf) :
    Prop
  | multicast (kind : packet.isMulticast = true)
      (slot : awdlIsMulticastEaw platform.long node now = true)
      (clear : awdlCanSendIn platform.long node now awdlMulticastGuardTu = 0)
  | unicast {peer : AwdlPeer} (kind : packet.isMulticast = false)
      (foreign : packet.dst ≠ node.selfAddress)
      (known : (awdlPeerGet platform.hash node.peers.peers packet.dst).2 = some peer)
      (clear : awdlCanSendUnicastIn platform.long node peer now awdlUnicastGuardTu = 0)

/-- The windows do not depend on what sending changes. -/
theorem InWindow.of_transmits {before after : AwdlState} {now : UInt64} {packet : HostBuf}
    (sent : Transmits before after) (channel : after.channel = before.channel)
    (window : InWindow platform after now packet) : InWindow platform before now packet := by
  rw [sent] at window
  rw [channel] at window
  cases window with
  | multicast kind slot clear => exact .multicast kind slot clear
  | unicast kind foreign known clear => exact .unicast kind foreign known clear

/-- A hand-over is of the frame that it is called for. -/
theorem handOver_event {first packet : HostBuf} {frame : Option (List UInt8)} {state : TxState}
    (handed : .sendData packet frame ∈ [(handOver first state).2]) : packet = first := by
  have same := List.mem_singleton.mp handed
  unfold handOver at same
  split at same
  · cases same
    rfl
  · cases same
    rfl

/-- A multicast frame is handed over in a slot for such frames and not within its guard
interval. -/
theorem awdlSendMulticast_allowed {state : TxState} (now : UInt64) {packet : HostBuf}
    {frame : Option (List UInt8)}
    (handed : .sendData packet frame ∈ (awdlSendMulticast platform now state).events) :
    packet ∈ state.txQueueMulticast.contents ∧
      awdlIsMulticastEaw platform.long state.awdlState now = true ∧
      awdlCanSendIn platform.long state.awdlState now awdlMulticastGuardTu = 0 := by
  unfold awdlSendMulticast at handed
  split at handed
  · exact absurd handed List.not_mem_nil
  rename_i waiting
  rw [circularBufEmpty_iff] at waiting
  obtain ⟨first, rest, queued⟩ := List.exists_cons_of_ne_nil waiting
  obtain ⟨shorter, get, _⟩ := circularBufGet_of_cons queued
  dsimp only at handed
  split at handed
  · rename_i allowed
    obtain ⟨slot, clear⟩ := Bool.and_eq_true_iff.mp allowed
    rw [get] at handed
    obtain rfl := handOver_event handed
    rw [queued]
    exact ⟨List.mem_cons_self, slot, beq_iff_eq.mp clear⟩
  split at handed
  · exact absurd handed List.not_mem_nil
  · exact absurd handed List.not_mem_nil

/-- The slot and the place in it at which a multicast frame may be handed over. -/
theorem multicastWindow_place {node : AwdlState} (wf : SyncWf node.sync) {long : LongWidth}
    {now : UInt64} (slot : awdlIsMulticastEaw long node now = true)
    (clear : awdlCanSendIn long node now awdlMulticastGuardTu = 0) :
    ((awdlSlot long now node.sync).val = 0 ∨ (awdlSlot long now node.sync).val = 10) ∧
      16384 ≤ (awdlSyncNextAwUs long now node.sync).toNat ∧
      (awdlSyncNextAwUs long now node.sync).toNat ≤ 65536 - 16384 := by
  have bounds := awdlSyncNextAwUs_bounds wf long now
  rw [awdlCanSendIn_multicast wf] at clear
  dsimp only at clear
  unfold awdlIsMulticastEaw at slot
  simp only [Bool.or_eq_true, beq_iff_eq] at slot
  refine ⟨slot.imp (congrArg Fin.val) (congrArg Fin.val), ?_⟩
  split_ifs at clear <;> omega

theorem awdlSendMulticast_window {state : TxState}
    (kind : ∀ packet ∈ state.txQueueMulticast.contents, packet.isMulticast = true)
    (now : UInt64) {packet : HostBuf} {frame : Option (List UInt8)}
    (handed : .sendData packet frame ∈ (awdlSendMulticast platform now state).events) :
    InWindow platform state.awdlState now packet := by
  obtain ⟨queued, slot, clear⟩ := awdlSendMulticast_allowed now handed
  exact .multicast (kind packet queued) slot clear

theorem awdlSendUnicast_window {state : TxState}
    (kind : ∀ packet, state.next = some packet → packet.isMulticast = false)
    (now : UInt64) {packet : HostBuf} {frame : Option (List UInt8)}
    (handed : .sendData packet frame ∈ (awdlSendUnicast platform now state).events) :
    InWindow platform state.awdlState now packet := by
  unfold awdlSendUnicast at handed
  split at handed
  · exact absurd handed List.not_mem_nil
  rename_i first waits
  split at handed
  · cases List.mem_singleton.mp handed
  rename_i foreign
  split at handed
  · cases List.mem_singleton.mp handed
  rename_i peer known
  dsimp only at handed
  split at handed
  · rename_i clear
    obtain rfl := handOver_event handed
    refine .unicast (kind packet waits) ?_ known clear
    intro same
    exact foreign (compareEtherAddr_eq_zero_iff.mpr same)
  · exact absurd handed List.not_mem_nil

/-- The clock values that a callback reads. -/
def LoopLabel.reads : LoopLabel → UInt64 → Prop
  | .hostReady _ _ multicastNow unicastNow, now => now = multicastNow ∨ now = unicastNow
  | .txTimer clock, now => now = clock
  | .txMcastTimer clock, now => now = clock
  | _, _ => False

theorem hostDeviceReady_window {state : TxState} {before : List TxEvent}
    (conserved : TxConserved before state) (memory : Nat → Nat → UInt8) (frames : List HostFrame)
    (multicastNow unicastNow : UInt64) {packet : HostBuf} {frame : Option (List UInt8)}
    (handed : .sendData packet frame ∈
      (hostDeviceReady platform memory frames multicastNow unicastNow state).2) :
    InWindow platform state.awdlState multicastNow packet ∨
      InWindow platform state.awdlState unicastNow packet := by
  obtain ⟨polledConserved, same⟩ := pollHostDevice_conserves conserved memory frames
  have silent := pollHostDevice_silent memory frames state
  unfold hostDeviceReady at handed
  dsimp only at handed
  rw [← same]
  generalize pollHostDevice memory frames state = polled at handed polledConserved silent
  have multicast := @awdlSendMulticast_window platform polled.state
    (fun _ waits => polledConserved.queue_isMulticast waits) multicastNow packet frame
  by_cases newMulticast : polled.newMulticast = true
  · obtain ⟨sent, channel⟩ := @awdlSendMulticast_transmits platform multicastNow polled.state
    have sentConserved := @awdlSendMulticast_conserves platform _ _ polledConserved multicastNow
    rw [if_pos newMulticast] at handed
    have firsts : .sendData packet frame ∈ polled.events ++
        (awdlSendMulticast platform multicastNow polled.state).events →
          InWindow platform polled.state.awdlState multicastNow packet := by
      intro member
      rcases List.mem_append.mp member with taken | given
      · exact absurd (silent _ taken) id
      · exact multicast given
    split at handed
    · rcases List.mem_append.mp handed with earlier | last
      · exact Or.inl (firsts earlier)
      · refine Or.inr (InWindow.of_transmits sent channel ?_)
        exact awdlSendUnicast_window (fun _ waits => sentConserved.next_isUnicast waits) unicastNow
          last
    · exact Or.inl (firsts handed)
  · rw [if_neg newMulticast] at handed
    split at handed
    · rcases List.mem_append.mp handed with taken | last
      · exact absurd (silent _ taken) id
      · exact Or.inr (awdlSendUnicast_window (fun _ waits => polledConserved.next_isUnicast waits)
          unicastNow last)
    · exact absurd (silent _ handed) id

theorem LoopStep.window {state next : LoopState} {label : LoopLabel} {events : List LoopEvent}
    {before : List TxEvent} (conserved : TxConserved before state.toTxState)
    (step : LoopStep platform wlanIsFile state label events next) {packet : HostBuf}
    {frame : Option (List UInt8)} (handed : .tx (.sendData packet frame) ∈ events) :
    ∃ now, label.reads now ∧ InWindow platform state.awdlState now packet := by
  have moved : ∀ batch : List TxEvent, .tx (.sendData packet frame) ∈ batch.map LoopEvent.tx →
      .sendData packet frame ∈ batch := by
    intro batch member
    obtain ⟨event, listed, same⟩ := List.mem_map.mp member
    cases same
    exact listed
  have other : ∀ {α : Type} (kind : α → LoopEvent) (values : List α),
      (∀ value tx, kind value ≠ .tx tx) → .tx (.sendData packet frame) ∉ values.map kind := by
    intro α kind values different member
    obtain ⟨value, _, same⟩ := List.mem_map.mp member
    exact different value _ same
  cases step with
  | wlanReady _ =>
      rcases List.mem_append.mp handed with called | delivered
      · exact absurd called (other .peer _ fun _ _ => LoopEvent.noConfusion)
      · exact absurd delivered (other .deliver _ fun _ _ => LoopEvent.noConfusion)
  | hostReady memory frames multicastNow unicastNow =>
      rw [(@loopHostReady_eq platform memory frames multicastNow unicastNow state).2] at handed
      rcases hostDeviceReady_window conserved memory frames multicastNow unicastNow
        (moved _ handed) with window | window
      · exact ⟨multicastNow, Or.inl rfl, window⟩
      · exact ⟨unicastNow, Or.inr rfl, window⟩
  | chanTimer _ _ => exact absurd handed (other .setChannel _ fun _ _ => LoopEvent.noConfusion)
  | peerTimer _ => exact absurd handed (other .peer _ fun _ _ => LoopEvent.noConfusion)
  | psfTimer _ => cases List.mem_singleton.mp handed
  | mifTimer _ _ => exact absurd handed (other (.action .mif) _ fun _ _ => LoopEvent.noConfusion)
  | txTimer now _ =>
      exact ⟨now, rfl, awdlSendUnicast_window (fun _ waits => conserved.next_isUnicast waits) now
        (moved _ handed)⟩
  | txMcastTimer now _ =>
      exact ⟨now, rfl, awdlSendMulticast_window
        (fun _ waits => conserved.queue_isMulticast waits) now (moved _ handed)⟩

/-- **Data frames are sent in their windows.** Whenever a daemon hands over a frame of the
host, it has just read the clock, and then a multicast frame is in a slot for such
frames, at least sixteen time units from either end of it, and a unicast frame is for a
peer in the table that is on the channel of the node. -/
theorem loop_sends_in_windows {name : List UInt8} {election : AwdlElectionState}
    {hostname : List UInt8} {self : EtherAddr} {chan : AwdlChan} {start : UInt64}
    {filterRssi : Bool} {memory : List HostBuf} {size : memory.length = multicastQueueSize}
    {trace : List (LoopLabel × List LoopEvent)} {state next : LoopState}
    (run : Run (LoopStep platform wlanIsFile)
      (loopInit (mainInit name election hostname self chan start filterRssi) memory size) trace
        state)
    {label : LoopLabel} {events : List LoopEvent}
    (step : LoopStep platform wlanIsFile state label events next) {packet : HostBuf}
    {frame : Option (List UInt8)} (handed : .tx (.sendData packet frame) ∈ events) :
    ∃ now, label.reads now ∧
      (packet.isMulticast = true ∧
          ((awdlSlot platform.long now state.awdlState.sync).val = 0 ∨
            (awdlSlot platform.long now state.awdlState.sync).val = 10) ∧
          16384 ≤ (awdlSyncNextAwUs platform.long now state.awdlState.sync).toNat ∧
          (awdlSyncNextAwUs platform.long now state.awdlState.sync).toNat ≤ 65536 - 16384 ∨
        packet.isMulticast = false ∧ packet.dst ≠ state.awdlState.selfAddress ∧
          ∃ peer, (awdlPeerGet platform.hash state.awdlState.peers.peers packet.dst).2 =
              some peer ∧
            awdlSameChannelAsPeer platform.long state.awdlState now peer = true) := by
  have reachable : SyncReachable platform.long state.awdlState.sync :=
    run.invariant (fun state : LoopState => SyncReachable platform.long state.awdlState.sync)
      (.init start) fun _ _ _ _ reachable step => step.syncReachable reachable
  obtain ⟨now, read, window⟩ := step.window (loop_conserved run) handed
  refine ⟨now, read, ?_⟩
  cases window with
  | multicast kind slot clear =>
      exact Or.inl ⟨kind, multicastWindow_place reachable.wf slot clear⟩
  | @unicast peer kind foreign known clear =>
      refine Or.inr ⟨kind, foreign, peer, known, ?_⟩
      have bounds := awdlSyncNextAwUs_bounds reachable.wf platform.long now
      by_contra apart
      unfold awdlCanSendUnicastIn at clear
      dsimp only at clear
      rw [Bool.eq_false_iff.mpr apart, Bool.not_false, if_pos rfl] at clear
      omega

/-- Twenty milliseconds after the start a multicast frame is handed over. -/
theorem loop_sends_in_windows_ping : ∃ packet frame events next,
    LoopStep samplePlatform false sampleLoop
        (.hostReady (fun _ _ => 0) samplePing 20000 20000) events next ∧
      .tx (.sendData packet frame) ∈ events ∧ ∃ now, (now = 20000 ∨ now = 20000) ∧
        (packet.isMulticast = true ∧
            16384 ≤ (awdlSyncNextAwUs .bits64 now sampleLoop.awdlState.sync).toNat ∨
          packet.isMulticast = false) := by
  have step : LoopStep samplePlatform false sampleLoop
      (.hostReady (fun _ _ => 0) samplePing 20000 20000) _ _ := .hostReady _ _ _ _
  have sent : (handedOver (txPart (loopHostReady samplePlatform (fun _ _ => 0) samplePing 20000
      20000 sampleLoop).2)).length = 1 := by
    decide +kernel
  obtain ⟨packet, one⟩ := List.length_eq_one_iff.mp sent
  have member : packet ∈ handedOver (txPart (loopHostReady samplePlatform (fun _ _ => 0) samplePing
      20000 20000 sampleLoop).2) := by
    rw [one]
    exact List.mem_cons_self
  obtain ⟨event, listed, shown⟩ := List.mem_filterMap.mp member
  obtain ⟨whole, happened, same⟩ := List.mem_filterMap.mp listed
  cases event with
  | sendData other frame =>
      cases shown
      cases whole with
      | tx tx =>
          cases same
          obtain ⟨now, read, ⟨kind, _, early, _⟩ | ⟨kind, _⟩⟩ :=
            loop_sends_in_windows .nil step happened
          · exact ⟨_, _, _, _, step, happened, now, read, Or.inl ⟨kind, early⟩⟩
          · exact ⟨_, _, _, _, step, happened, now, read, Or.inr kind⟩
      | action _ _ => cases same
      | setChannel _ => cases same
      | deliver _ => cases same
      | peer _ => cases same
  | received _ => cases shown
  | toNext _ => cases shown
  | toQueue _ _ => cases shown
  | loopBack _ => cases shown
  | drop _ => cases shown

end Owl
