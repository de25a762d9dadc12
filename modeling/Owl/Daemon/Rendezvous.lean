import Owl.Daemon.Retries
import Owl.Daemon.Windows
import Owl.Rx.Records
import Owl.Tx.Advertise

/-! # Waiting unicast frames leave

A unicast frame waits until node and peer are on one channel. The node looks for the
peer's channel in the peer's sequence at the slot of its own clock, as the offset of a
peer is never set. So the frame leaves within 18 calls of the unicast timer if the two
sequences share a channel in some slot, and never otherwise (`waiting_unicast_leaves`).
-/

namespace Owl

open Transition

variable {platform : Platform} {wlanIsFile : Bool}

/-! ## Invariants of the node over the loop -/

/-- What holds of the node in every state of the loop. -/
structure NodeWf (platform : Platform) (Kept : AwdlPeer → Prop) (state : DaemonState) : Prop where
  daemon : DaemonWf platform state
  sync : SyncReachable platform.long state.awdlState.sync
  records : AllRecords Kept state.awdlState.peers.peers.toMap

theorem LoopStep.nodeWf {Kept : AwdlPeer → Prop} (rule : RecordKept Kept) {state next : LoopState}
    {label : LoopLabel} {events : List LoopEvent} (wf : NodeWf platform Kept state.toDaemonState)
    (step : LoopStep platform wlanIsFile state label events next) :
    NodeWf platform Kept next.toDaemonState := by
  refine ⟨step.daemonWf wf.daemon, step.syncReachable wf.sync, ?_⟩
  · refine (step.keeps (fun state => DaemonWf platform state ∧
      AllRecords Kept state.awdlState.peers.peers.toMap) ?_ ?_ ⟨wf.daemon, wf.records⟩).2
    · rintro before cause output after ⟨wf, all⟩ step
      exact ⟨wf.step step, rule.daemon wf all step⟩
    · rintro before after ⟨wf, all⟩ sent
      refine ⟨wf.of_transmits sent, ?_⟩
      rw [sent]
      exact all

theorem loop_nodeWf {Kept : AwdlPeer → Prop} (rule : RecordKept Kept) {name : List UInt8}
    {election : AwdlElectionState} {hostname : List UInt8} {self : EtherAddr} {chan : AwdlChan}
    {start : UInt64} {filterRssi : Bool} {memory : List HostBuf}
    {size : memory.length = multicastQueueSize}
    {trace : List (LoopLabel × List LoopEvent)} {state : LoopState}
    (run : Run (LoopStep platform wlanIsFile)
      (loopInit (mainInit name election hostname self chan start filterRssi) memory size) trace
        state) :
    NodeWf platform Kept state.toDaemonState := by
  refine run.invariant (fun state : LoopState => NodeWf platform Kept state.toDaemonState) ?_
    fun _ _ _ _ wf step => step.nodeWf rule wf
  refine ⟨mainInit_wf .., .init start, ?_⟩
  intro addr peer stored
  cases (toMap_hashmapNew addr).symm.trans stored

/-- The offset of a peer is never set. -/
theorem recordKept_syncOffset : RecordKept fun peer => peer.syncOffset = 0 where
  fresh _ _ _ := rfl
  touched _ _ kept := kept
  closed subtype peer kept := by
    unfold closedPeer
    split <;> exact kept
  tlv long list peer type val state tsft kept := by
    have rule : TlvKept fun peer => peer.syncOffset = 0 :=
      ⟨fun _ _ kept => kept, fun _ _ _ kept => kept, fun _ _ kept => kept, fun _ _ kept => kept,
        fun _ _ kept => kept, fun _ _ _ kept => kept⟩
    exact rule.tlv kept long list type val state tsft

/-! ## The schedule by places -/

/-- The result of the schedule for a unicast frame, by the slots that node and peer share and
the place in the current one. -/
theorem awdlCanSendUnicastIn_place {state : AwdlState} (wf : SyncWf state.sync) (long : LongWidth)
    {peer : AwdlPeer} (offset : peer.syncOffset = 0) (now : UInt64) :
    awdlCanSendUnicastIn long state peer now awdlUnicastGuardTu =
      let slot := awdlSlot long now state.sync
      let phase : ℕ := state.sync.elapsed now % 65536
      if sharesSlot state peer slot = false then ((65536 - phase : ℕ) : Int)
      else if 65536 < phase + 3072 then
        if sharesSlot state peer (nextSlot slot) = true then 0
        else -((phase + 3072 - 65536 : ℕ) : Int)
      else if phase < 3072 then
        if sharesSlot state peer (slot - 1) = true then 0 else ((3072 - phase : ℕ) : Int)
      else 0 := by
  have guard : ieee80211TuToUsec long (UInt64.ofInt awdlUnicastGuardTu) = 3072 := by
    cases long <;> rfl
  have left := toNat_awdlSyncNextAwUs wf long now
  have position := toNat_eaw_sub_nextAw wf long now
  have below : state.sync.elapsed now % 65536 < 65536 := Nat.mod_lt _ (by decide)
  have next : ∀ now, awdlSlot long (now + 65536) state.sync =
      nextSlot (awdlSlot long now state.sync) := by
    intro now
    refine Fin.ext ?_
    dsimp only [nextSlot]
    rw [awdlSlot_add wf, awdlSlot_now wf]
    simp only [UInt64.reduceToNat]
    omega
  have last : awdlSlot long (now - 65536) state.sync = awdlSlot long now state.sync - 1 := by
    have after : ∀ slot : Fin 16, nextSlot slot - 1 = slot := by decide
    have again := next (now - 65536)
    rw [UInt64.sub_add_cancel] at again
    rw [again, after]
  unfold awdlCanSendUnicastIn
  simp only [awdlSameChannelAsPeer_eq long state _ offset, guard, ieee80211TuToUsec_eaw, next, last,
    UInt64.lt_iff_toNat_lt, UInt64.toNat_sub 3072, position, left, UInt64.reduceToNat,
    Bool.not_eq_true']
  generalize state.sync.elapsed now % 65536 = phase at below
  split_ifs <;> omega

/-! ## A call -/

section Call

variable {state : TxState} {packet : HostBuf} (waiting : state.next = some packet)
  (foreign : packet.dst ≠ state.awdlState.selfAddress) {peer : AwdlPeer}
  (known : (awdlPeerGet platform.hash state.awdlState.peers.peers packet.dst).2 = some peer)
  (now : UInt64)

include waiting foreign known

/-- When the schedule allows it the frame leaves. -/
theorem awdlSendUnicast_sends
    (clear : awdlCanSendUnicastIn platform.long state.awdlState peer now awdlUnicastGuardTu = 0) :
    (∃ frame, (awdlSendUnicast platform now state).events = [.sendData packet frame]) ∧
      (awdlSendUnicast platform now state).state.next = none := by
  have event : ∃ frame, (handOver packet state).2 = .sendData packet frame := by
    unfold handOver
    split <;> exact ⟨_, rfl⟩
  obtain ⟨frame, shown⟩ := event
  unfold awdlSendUnicast
  rw [waiting]
  dsimp only
  rw [if_neg (mt compareEtherAddr_eq_zero_iff.mp foreign), known]
  dsimp only
  rw [if_pos clear]
  exact ⟨⟨frame, by dsimp only; rw [shown]⟩, rfl⟩

/-- Otherwise nothing happens but that the timer is armed. -/
theorem awdlSendUnicast_waits
    (blocked : awdlCanSendUnicastIn platform.long state.awdlState peer now awdlUnicastGuardTu ≠ 0) :
    (awdlSendUnicast platform now state).events = [] ∧
      (awdlSendUnicast platform now state).state = state ∧
      (awdlSendUnicast platform now state).timer = .rearm (retryDelay platform.long
        (awdlCanSendUnicastIn platform.long state.awdlState peer now awdlUnicastGuardTu)
          awdlUnicastGuardTu) := by
  unfold awdlSendUnicast
  rw [waiting]
  dsimp only
  rw [if_neg (mt compareEtherAddr_eq_zero_iff.mp foreign), known]
  dsimp only
  rw [if_neg blocked]
  exact ⟨rfl, rfl, rfl⟩

end Call

/-! ## Hops -/

/-- The slots that node and peer share, if there is one. -/
def sharedCourse (state : AwdlState) (peer : AwdlPeer)
    (meets : ∃ slot, sharesSlot state peer slot = true) : Cadence.Course (Fin 16) :=
  Cadence.Course.ofOpen nextSlot (sharesSlot state peer) 15 fun slot => by
    obtain ⟨target, shared⟩ := meets
    have steps : ∀ slot target : Fin 16, nextSlot^[(target - slot).val] slot = target := by decide
    refine ⟨(target - slot).val, Nat.le_of_lt_succ (target - slot).isLt, ?_⟩
    rw [steps]
    exact shared

theorem sharedCourse_dist {state : AwdlState} {peer : AwdlPeer}
    (meets : ∃ slot, sharesSlot state peer slot = true) (slot : Fin 16) :
    (sharedCourse state peer meets).dist slot = 0 ↔ sharesSlot state peer slot = true :=
  Cadence.Course.ofOpen_dist _ slot

section Hops

variable {state : TxState} {packet : HostBuf} (waiting : state.next = some packet)
  (foreign : packet.dst ≠ state.awdlState.selfAddress) {peer : AwdlPeer}
  (known : (awdlPeerGet platform.hash state.awdlState.peers.peers packet.dst).2 = some peer)
  (wf : SyncWf state.awdlState.sync) (offset : peer.syncOffset = 0)

include waiting foreign known wf offset

/-- A call that sends nothing leads to the next one by a hop. -/
theorem hop_of_blocked (meets : ∃ slot, sharesSlot state.awdlState peer slot = true)
    {late : UInt64} (punctual : late.toNat ≤ 59392) {now : UInt64}
    (blocked : awdlCanSendUnicastIn platform.long state.awdlState peer now awdlUnicastGuardTu ≠ 0) :
    Cadence.Hop (sharedCourse state.awdlState peer meets) 65536 3072 59392
      (slotPlace platform.long state.awdlState.sync now)
      (slotPlace platform.long state.awdlState.sync
        (now + ((awdlSendUnicast platform now state).timer.delay + late))) := by
  have place := @awdlCanSendUnicastIn_place state.awdlState wf platform.long peer offset now
  have closed := sharedCourse_dist meets
  have guard : (ieee80211TuToUsec platform.long (UInt64.ofInt awdlUnicastGuardTu)).toNat =
      3072 := by
    cases platform.long <;> rfl
  have phase : state.awdlState.sync.elapsed now % 65536 < 65536 := Nat.mod_lt _ (by decide)
  rw [(awdlSendUnicast_waits waiting foreign known now blocked).2.2]
  have total : ∀ delay : ℕ, delay ≤ 65536 → (TimerAction.rearm (delay : Int)).delay + late =
      UInt64.ofNat (delay + late.toNat) := by
    intro delay small
    refine UInt64.toNat_inj.mp ?_
    rw [UInt64.toNat_add, TimerAction.delay, toNat_ofInt_of_lt (by omega) (by omega),
      UInt64.toNat_ofNat']
    omega
  have value : ∀ count : ℕ, count < 2 ^ 64 → (UInt64.ofNat count).toNat = count :=
    fun count small => UInt64.toNat_ofNat_of_lt' small
  rw [place] at blocked ⊢
  dsimp only at blocked ⊢
  by_cases shared : sharesSlot state.awdlState peer
      (awdlSlot platform.long now state.awdlState.sync) = true
  · have here := (closed _).mpr shared
    rw [if_neg (by rw [shared]; exact Bool.noConfusion)] at blocked ⊢
    by_cases ends : 65536 < state.awdlState.sync.elapsed now % 65536 + 3072
    · -- the peer leaves the channel at the end of this slot
      rw [if_pos ends] at blocked ⊢
      split at blocked
      · exact absurd rfl blocked
      rename_i parts
      rw [if_neg parts, retryDelay, if_pos (by omega), guard,
        show (- -((state.awdlState.sync.elapsed now % 65536 + 3072 - 65536 : ℕ) : Int) +
          ((3072 : ℕ) : Int)) =
            ((state.awdlState.sync.elapsed now % 65536 + 3072 - 65536 + 3072 : ℕ) : Int) by omega,
        total _ (by omega),
        slotPlace_next wf platform.long now (by rw [value _ (by omega)]; omega)
          (by rw [value _ (by omega)]; omega)]
      exact .finish here ends fun back => parts ((closed _).mp back)
    · rw [if_neg ends] at blocked ⊢
      by_cases starts : state.awdlState.sync.elapsed now % 65536 < 3072
      · -- the peer has come to the channel at the start of this slot
        rw [if_pos starts] at blocked ⊢
        split at blocked
        · exact absurd rfl blocked
        rename_i apart
        rw [if_neg apart, retryDelay, if_neg (by omega), total _ (by omega),
          slotPlace_within wf platform.long now (by rw [value _ (by omega)]; omega),
          value _ (by omega), show state.awdlState.sync.elapsed now % 65536 +
            (3072 - state.awdlState.sync.elapsed now % 65536 + late.toNat) = 3072 + late.toNat by
              omega]
        exact .start here starts punctual
      · rw [if_neg starts] at blocked
        exact absurd rfl blocked
  · rw [if_pos (Bool.eq_false_iff.mpr shared), retryDelay, if_neg (by omega), total _ (by omega),
      slotPlace_next wf platform.long now (by rw [value _ (by omega)]; omega)
        (by rw [value _ (by omega)]; omega), value _ (by omega),
      show state.awdlState.sync.elapsed now % 65536 +
        (65536 - state.awdlState.sync.elapsed now % 65536 + late.toNat) - 65536 = late.toNat by
          omega]
    exact .other (mt (closed _).mp shared) punctual

/-- If node and peer share a slot the frame leaves within 18 calls. -/
theorem unicast_leaves (meets : ∃ slot, sharesSlot state.awdlState peer slot = true)
    {late : ℕ → UInt64} (punctual : ∀ index, (late index).toNat ≤ 59392) (now : UInt64) :
    ∃ count ≤ 18, ∃ after frame,
      (timerCalls (awdlSendUnicast platform) late now state count).2 =
          (after, [.sendData packet frame]) ∧ after.next = none := by
  obtain ⟨count, bound, clear, same⟩ := timerCalls_first
    (fun now blocked =>
      let waits := awdlSendUnicast_waits waiting foreign known now blocked
      ⟨waits.1, waits.2.1⟩)
    (fun now => Cadence.hopRank (sharedCourse state.awdlState peer meets) 65536 3072
      (slotPlace platform.long state.awdlState.sync now))
    (fun now index blocked => (hop_of_blocked waiting foreign known wf offset meets
      (punctual index) blocked).rank_lt (by decide))
  have most := bound.trans (Cadence.hopRank_le (sharedCourse state.awdlState peer meets) _ _ _)
  obtain ⟨⟨frame, sent⟩, free⟩ := awdlSendUnicast_sends waiting foreign known
    (timerCalls (awdlSendUnicast platform) late now state count).1 clear
  refine ⟨count + 1, Nat.succ_le_succ most, _, frame, ?_, free⟩
  rw [timerCalls, same]
  dsimp only
  rw [sent]
  rfl

/-- If they share none, no call changes anything. -/
theorem unicast_stays (apart : ∀ slot, sharesSlot state.awdlState peer slot = false)
    (late : ℕ → UInt64) (now : UInt64) (count : ℕ) :
    (timerCalls (awdlSendUnicast platform) late now state count).2 = (state, []) := by
  refine timerCalls_blocked (fun now blocked =>
    let waits := awdlSendUnicast_waits waiting foreign known now blocked
    ⟨waits.1, waits.2.1⟩) ?_
  intro index _ clear
  rw [awdlCanSendUnicastIn_place wf platform.long offset] at clear
  dsimp only at clear
  rw [if_pos (apart _)] at clear
  omega

end Hops

/-- **A waiting unicast frame leaves if and only if node and peer meet.** In every state
that a daemon reaches, a unicast frame that waits for a peer is handed over within 18
calls of its timer, each late by at most 58 time units, if the sequences of node and peer
have a channel in common in some slot; otherwise no number of calls hands it over or
changes anything. -/
theorem waiting_unicast_leaves {name : List UInt8} {election : AwdlElectionState}
    {hostname : List UInt8} {self : EtherAddr} {chan : AwdlChan} {start : UInt64}
    {filterRssi : Bool} {memory : List HostBuf} {size : memory.length = multicastQueueSize}
    {trace : List (LoopLabel × List LoopEvent)} {state : LoopState}
    (run : Run (LoopStep platform wlanIsFile)
      (loopInit (mainInit name election hostname self chan start filterRssi) memory size) trace
        state)
    {packet : HostBuf} (waiting : state.next = some packet) {peer : AwdlPeer}
    (known : state.awdlState.peers.peers.toMap packet.dst = some peer) {late : ℕ → UInt64}
    (punctual : ∀ index, (late index).toNat ≤ 59392) (now : UInt64) :
    let calls := timerCalls (awdlSendUnicast platform) late now state.toTxState
    ((∃ slot, sharesSlot state.awdlState peer slot = true) →
        ∃ count ≤ 18, handedOver (calls count).2.2 = [packet] ∧ (calls count).2.1.next = none) ∧
      ((∀ slot, sharesSlot state.awdlState peer slot = false) →
        ∀ count, (calls count).2 = (state.toTxState, [])) := by
  obtain ⟨wf, sync, records⟩ := loop_nodeWf recordKept_syncOffset run
  have offset : peer.syncOffset = 0 := records packet.dst peer known
  have foreign : packet.dst ≠ state.awdlState.selfAddress := by
    intro own
    have missing := wf.foreign
    rw [← own, known] at missing
    cases missing
  have found : (awdlPeerGet platform.hash state.awdlState.peers.peers packet.dst).2 =
      some peer := by
    rw [awdlPeerGet_eq wf.table.table]
    exact known
  refine ⟨fun meets => ?_, fun apart count => ?_⟩
  · obtain ⟨count, bound, after, frame, sent, free⟩ := unicast_leaves waiting foreign found sync.wf
      offset meets punctual now
    refine ⟨count, bound, ?_⟩
    rw [sent]
    exact ⟨rfl, free⟩
  · exact unicast_stays waiting foreign found sync.wf offset apart late now count

/-- A node that is on channel 6 in one slot only. -/
def sampleVisitor : AwdlState :=
  { sampleSender with
    channel.sequence := fun slot => if slot.val = 3 then chanOpclass6 else chanNull }

/-- A frame for the visitor. -/
def sampleLetter : List HostFrame :=
  [⟨[2, 0, 0, 0, 0, 2, 2, 0, 0, 0, 0, 1, 0x86, 0xdd, 7], by decide⟩]

/-- A frame for a node that has just been heard waits, and leaves within 18 calls. -/
theorem waiting_unicast_leaves_visitor : ∃ trace state packet,
    Run (LoopStep samplePlatform false) sampleLoop trace state ∧ state.next = some packet ∧
      ∃ count ≤ 18, handedOver (timerCalls (awdlSendUnicast samplePlatform) (fun _ => 1000) 9
        state.toTxState count).2.2 = [packet] := by
  have computed : ((awdlReceiveFrame samplePlatform (sampleEnv 7)
      (awdlInitFullActionFrame .bits64 ⟨5, 6⟩ sampleVisitor ieee80211InitState .mif).1
      sampleLoop.toDaemonState).map fun outcome =>
        let ready := (loopHostReady samplePlatform (fun _ _ => 0) sampleLetter 8 8
          { sampleLoop with toDaemonState := outcome.state }).1
        (ready.next.map (·.dst), (ready.awdlState.peers.peers.toMap ⟨2, 0, 0, 0, 0, 2⟩).map
          (sharesSlot ready.awdlState · 3))) =
      some (some ⟨2, 0, 0, 0, 0, 2⟩, some true) := by
    decide +kernel
  obtain ⟨outcome, done, after⟩ := Option.map_eq_some_iff.mp computed
  simp only [Prod.mk.injEq] at after
  obtain ⟨packet, waiting, dst⟩ := Option.map_eq_some_iff.mp after.1
  obtain ⟨peer, known, shared⟩ := Option.map_eq_some_iff.mp after.2
  rw [← dst] at known
  obtain ⟨trace, state, run, waiting, known, meets⟩ : ∃ trace state,
      Run (LoopStep samplePlatform false) sampleLoop trace state ∧ state.next = some packet ∧
        state.awdlState.peers.peers.toMap packet.dst = some peer ∧
        ∃ slot, sharesSlot state.awdlState peer slot = true :=
    ⟨_, _, (Run.nil.cons (.wlanReady done)).cons (.hostReady (fun _ _ => 0) sampleLetter 8 8),
      waiting, known, 3, shared⟩
  obtain ⟨count, bound, left, _⟩ := (waiting_unicast_leaves run waiting known
    (fun _ => show (1000 : UInt64).toNat ≤ 59392 by decide) 9).1 meets
  exact ⟨trace, state, packet, run, waiting, count, bound, left⟩

end Owl
