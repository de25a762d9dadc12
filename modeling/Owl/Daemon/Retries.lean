import Owl.Daemon.Loop
import Owl.Foundation.Cadence

/-! # Waiting multicast frames leave

A timer of a sender alone, called again and again after the delays with which it is
armed, each time a bit late (`timerCalls`). As long as no call of the multicast timer is
late by more than three time units, every frame of the queue is handed over within 22
calls after the one before it (`multicast_queue_drains`), although a retry that is meant
to lead behind the guard interval may fall short of it.
-/

namespace Owl

open Transition

variable {platform : Platform}

/-! ## Places in the channel sequence -/

/-- The next slot of the channel sequence. -/
def nextSlot (slot : Fin 16) : Fin 16 := ⟨(slot.val + 1) % 16, Nat.mod_lt _ (Nat.zero_lt_succ 15)⟩

/-- The slots for multicast frames on the grid of the channel sequence, with calls that are
late by at most three time units. -/
def multicastGrid : Cadence.Grid (Fin 16) where
  next := nextSlot
  dist slot :=
    if slot.val = 0 then 0 else if slot.val ≤ 10 then 10 - slot.val else 16 - slot.val
  gap := 9
  length := 65536
  guard := 16384
  late := 3072
  dist_next := by decide
  dist_le := by decide
  room := by decide
  wide := by decide
  slip := by decide

/-- The slot and the place in it at a time. -/
def slotPlace (long : LongWidth) (sync : AwdlSyncState) (now : UInt64) : Fin 16 × ℕ :=
  (awdlSlot long now sync, sync.elapsed now % 65536)

section Place

variable {sync : AwdlSyncState} (wf : SyncWf sync) (long : LongWidth) (now : UInt64)
  {delay : UInt64}

include wf

/-- A delay within the slot. -/
theorem slotPlace_within (within : sync.elapsed now % 65536 + delay.toNat < 65536) :
    slotPlace long sync (now + delay) =
      (awdlSlot long now sync, sync.elapsed now % 65536 + delay.toNat) := by
  refine Prod.ext (Fin.ext ?_) ?_
  · dsimp only [slotPlace]
    rw [awdlSlot_add wf, awdlSlot_now wf]
    omega
  · dsimp only [slotPlace]
    rw [sync.elapsed_add]
    omega

/-- A delay into the next slot. -/
theorem slotPlace_next (least : 65536 ≤ sync.elapsed now % 65536 + delay.toNat)
    (most : sync.elapsed now % 65536 + delay.toNat < 131072) :
    slotPlace long sync (now + delay) =
      (nextSlot (awdlSlot long now sync), sync.elapsed now % 65536 + delay.toNat - 65536) := by
  refine Prod.ext (Fin.ext ?_) ?_
  · dsimp only [slotPlace, nextSlot]
    rw [awdlSlot_add wf, awdlSlot_now wf]
    omega
  · dsimp only [slotPlace]
    rw [sync.elapsed_add]
    omega

end Place

/-! ## Calls one after the other -/

/-- The delay until a timer fires; a timer that is not armed is called at once. -/
def TimerAction.delay : TimerAction → UInt64
  | .rearm delay => UInt64.ofInt delay
  | .feed => 0

/-- The clock and the state at a call of a timer, and what has happened in the calls before
it; each call comes late after its delay. -/
def timerCalls (call : UInt64 → TxState → TxOutcome) (late : ℕ → UInt64) (now : UInt64)
    (state : TxState) : ℕ → UInt64 × TxState × List TxEvent
  | 0 => (now, state, [])
  | count + 1 =>
      let last := timerCalls call late now state count
      let sent := call last.1 last.2.1
      (last.1 + (sent.timer.delay + late count), sent.state, last.2.2 ++ sent.events)

section Calls

variable {call : UInt64 → TxState → TxOutcome} {late : ℕ → UInt64} {now : UInt64} {state : TxState}

/-- Calls can be counted from any of them. -/
theorem timerCalls_add (first second : ℕ) :
    let before := timerCalls call late now state first
    let later := timerCalls call (fun index => late (first + index)) before.1 before.2.1 second
    timerCalls call late now state (first + second) =
      (later.1, later.2.1, before.2.2 ++ later.2.2) := by
  induction second with
  | zero =>
      dsimp only [timerCalls]
      rw [List.append_nil]
      rfl
  | succ second ih =>
      dsimp only at ih ⊢
      rw [← Nat.add_assoc, timerCalls, ih]
      dsimp only [timerCalls]
      rw [List.append_assoc]

variable {Sendable : UInt64 → Prop} (waits : ∀ now, ¬Sendable now →
  (call now state).events = [] ∧ (call now state).state = state)

include waits

/-- As long as no call can send, nothing changes. -/
theorem timerCalls_blocked {count : ℕ}
    (blocked : ∀ index < count, ¬Sendable (timerCalls call late now state index).1) :
    (timerCalls call late now state count).2 = (state, []) := by
  induction count with
  | zero => rfl
  | succ count ih =>
      have same := ih fun index below => blocked index (Nat.lt_succ_of_lt below)
      obtain ⟨quiet, kept⟩ := waits _ (blocked count (Nat.lt_succ_self count))
      rw [timerCalls, same]
      dsimp only
      rw [quiet, kept]
      rfl

/-- When every call that cannot send lowers a rank of the time, one comes that can. -/
theorem timerCalls_first [DecidablePred Sendable] (rank : UInt64 → ℕ)
    (lower : ∀ now index, ¬Sendable now →
      rank (now + ((call now state).timer.delay + late index)) < rank now) :
    ∃ count ≤ rank now, Sendable (timerCalls call late now state count).1 ∧
      (timerCalls call late now state count).2 = (state, []) := by
  obtain ⟨count, bound, sendable, before⟩ := Cadence.exists_first rank Sendable
    (fun index => (timerCalls call late now state index).1) fun index blocked => by
      have same := timerCalls_blocked waits fun earlier (below : earlier < index) =>
        blocked earlier (Nat.le_of_lt below)
      rw [timerCalls, same]
      exact lower _ index (blocked index (Nat.le_refl index))
  exact ⟨count, bound, sendable, timerCalls_blocked waits before⟩

end Calls

/-! ## A call -/

section Call

variable {state : TxState} (wf : SyncWf state.awdlState.sync) (now : UInt64) {packet : HostBuf}
  {rest : List HostBuf} (queued : state.txQueueMulticast.contents = packet :: rest)

include queued

theorem not_circularBufEmpty : circularBufEmpty state.txQueueMulticast = false := by
  rw [Bool.eq_false_iff, Ne, circularBufEmpty_iff, queued]
  exact List.cons_ne_nil packet rest

include wf

/-- In a slot for multicast frames and away from its ends the first frame leaves. -/
theorem awdlSendMulticast_sends
    (begun : 16384 ≤ state.awdlState.sync.elapsed now % 65536)
    (clear : state.awdlState.sync.elapsed now % 65536 + 16384 ≤ 65536)
    (slot : multicastGrid.dist (awdlSlot platform.long now state.awdlState.sync) = 0) :
    (∃ frame, (awdlSendMulticast platform now state).events = [.sendData packet frame]) ∧
      (awdlSendMulticast platform now state).state.txQueueMulticast.contents = rest := by
  have left := toNat_awdlSyncNextAwUs wf platform.long now
  have allowed : awdlCanSendIn platform.long state.awdlState now awdlMulticastGuardTu = 0 := by
    rw [awdlCanSendIn_multicast wf]
    dsimp only
    split_ifs <;> omega
  have target : awdlIsMulticastEaw platform.long state.awdlState now = true := by
    unfold awdlIsMulticastEaw
    generalize awdlSlot platform.long now state.awdlState.sync = place at slot
    revert place
    decide
  obtain ⟨shorter, get, left⟩ := circularBufGet_of_cons queued
  have queue := (handOver_spec packet { state with txQueueMulticast := shorter }).2.2.1
  have event : ∃ frame, (handOver packet { state with txQueueMulticast := shorter }).2 =
      .sendData packet frame := by
    unfold handOver
    split
    · exact ⟨_, rfl⟩
    · exact ⟨_, rfl⟩
  unfold awdlSendMulticast
  rw [not_circularBufEmpty queued, if_neg Bool.false_ne_true]
  dsimp only
  rw [target, allowed, if_pos (by decide), get]
  dsimp only
  obtain ⟨frame, shown⟩ := event
  refine ⟨⟨frame, by rw [shown]⟩, ?_⟩
  rw [queue]
  exact left

/-- Otherwise nothing happens, and the timer leads to the next place. -/
theorem awdlSendMulticast_waits
    (blocked : ¬(16384 ≤ state.awdlState.sync.elapsed now % 65536 ∧
      state.awdlState.sync.elapsed now % 65536 + 16384 ≤ 65536 ∧
      multicastGrid.dist (awdlSlot platform.long now state.awdlState.sync) = 0)) :
    (awdlSendMulticast platform now state).events = [] ∧
      (awdlSendMulticast platform now state).state = state ∧
      (awdlSendMulticast platform now state).timer.delay.toNat =
        if state.awdlState.sync.elapsed now % 65536 < 16384 then
          16384 - state.awdlState.sync.elapsed now % 65536
        else if 65536 < state.awdlState.sync.elapsed now % 65536 + 16384 then
          state.awdlState.sync.elapsed now % 65536 - 32768
        else 65536 := by
  have left := toNat_awdlSyncNextAwUs wf platform.long now
  have can := @awdlCanSendIn_multicast state.awdlState wf platform.long now
  have retry := @retryDelay_multicast state.awdlState wf platform.long now
  have waiting := not_circularBufEmpty queued
  dsimp only at can retry
  have below : state.awdlState.sync.elapsed now % 65536 < 65536 := Nat.mod_lt _ (by decide)
  rw [left] at can retry
  generalize state.awdlState.sync.elapsed now % 65536 = phase at below left can retry blocked ⊢
  by_cases middle : 16384 ≤ phase ∧ phase + 16384 ≤ 65536
  · -- away from the ends of another slot the whole slot is waited for
    have other : awdlIsMulticastEaw platform.long state.awdlState now = false := by
      unfold awdlIsMulticastEaw
      have far : multicastGrid.dist (awdlSlot platform.long now state.awdlState.sync) ≠ 0 :=
        fun near => blocked ⟨middle.1, middle.2, near⟩
      generalize awdlSlot platform.long now state.awdlState.sync = place at far
      revert place
      decide
    have clear : awdlCanSendIn platform.long state.awdlState now awdlMulticastGuardTu = 0 := by
      rw [can]
      split_ifs <;> omega
    unfold awdlSendMulticast multicastTimer
    rw [waiting, if_neg Bool.false_ne_true]
    dsimp only
    rw [other, clear, Bool.false_and, if_neg Bool.false_ne_true, if_pos rfl,
      if_neg Bool.false_ne_true, ieee80211TuToUsec_eaw, if_neg (by omega), if_neg (by omega)]
    exact ⟨rfl, rfl, rfl⟩
  · have deferred : awdlCanSendIn platform.long state.awdlState now awdlMulticastGuardTu ≠ 0 := by
      rw [can]
      split_ifs <;> omega
    have value : (UInt64.ofInt (retryDelay platform.long
        (awdlCanSendIn platform.long state.awdlState now awdlMulticastGuardTu)
          awdlMulticastGuardTu)).toNat =
        if phase < 16384 then 16384 - phase
        else if 65536 < phase + 16384 then phase - 32768 else 65536 := by
      rw [retry]
      split_ifs <;> first | omega | (rw [toNat_ofInt_of_lt (by omega) (by omega)]; omega)
    unfold awdlSendMulticast multicastTimer
    rw [waiting, if_neg Bool.false_ne_true]
    dsimp only
    rw [beq_eq_false_iff_ne.mpr deferred, Bool.and_false, if_neg Bool.false_ne_true,
      if_neg deferred, if_neg Bool.false_ne_true]
    exact ⟨rfl, rfl, value⟩

end Call

/-! ## The queue -/

/-- The first frame of the multicast queue can be sent at a time. -/
def Sendable (platform : Platform) (sync : AwdlSyncState) (now : UInt64) : Prop :=
  16384 ≤ sync.elapsed now % 65536 ∧ sync.elapsed now % 65536 + 16384 ≤ 65536 ∧
    multicastGrid.dist (awdlSlot platform.long now sync) = 0

instance (sync : AwdlSyncState) : DecidablePred (Sendable platform sync) :=
  fun _ => inferInstanceAs (Decidable (_ ∧ _))

section Drain

variable {late : ℕ → UInt64} (punctual : ∀ index, (late index).toNat ≤ 3072)

include punctual

/-- A call that sends nothing leads to the next one by a retry. -/
theorem retry_of_blocked {state : TxState} (wf : SyncWf state.awdlState.sync) {packet : HostBuf}
    {rest : List HostBuf} (queued : state.txQueueMulticast.contents = packet :: rest)
    (now : UInt64) (blocked : ¬Sendable platform state.awdlState.sync now) (index : ℕ) :
    Cadence.Retry multicastGrid (slotPlace platform.long state.awdlState.sync now)
      (slotPlace platform.long state.awdlState.sync
        (now + ((awdlSendMulticast platform now state).timer.delay + late index))) := by
  obtain ⟨_, _, delay⟩ := @awdlSendMulticast_waits platform state wf now packet rest queued blocked
  have small := punctual index
  have phase : state.awdlState.sync.elapsed now % 65536 < 65536 := Nat.mod_lt _ (by decide)
  generalize (awdlSendMulticast platform now state).timer.delay = armed at delay ⊢
  have total : (armed + late index).toNat = armed.toNat + (late index).toNat := by
    rw [UInt64.toNat_add, Nat.mod_eq_of_lt]
    split_ifs at delay <;> omega
  split_ifs at delay with start finish
  · rw [slotPlace_within wf platform.long now (by omega), total,
      show state.awdlState.sync.elapsed now % 65536 + (armed.toNat + (late index).toNat) =
        16384 + (late index).toNat by omega]
    exact .start start small
  · rw [slotPlace_next wf platform.long now (by omega) (by omega), total,
      show state.awdlState.sync.elapsed now % 65536 + (armed.toNat + (late index).toNat) - 65536 =
        2 * (state.awdlState.sync.elapsed now % 65536 + 16384 - 65536) +
          (late index).toNat by omega]
    exact .finish phase finish small
  · rw [slotPlace_next wf platform.long now (by omega) (by omega), total,
      show state.awdlState.sync.elapsed now % 65536 + (armed.toNat + (late index).toNat) - 65536 =
        state.awdlState.sync.elapsed now % 65536 + (late index).toNat by omega]
    refine .slot (Nat.le_of_not_lt start) (Nat.le_of_not_lt finish) ?_ small
    intro near
    exact blocked ⟨Nat.le_of_not_lt start, Nat.le_of_not_lt finish, near⟩

/-- **The first frame leaves within 22 calls.** -/
theorem first_frame_leaves {state : TxState} (wf : SyncWf state.awdlState.sync)
    {packet : HostBuf} {rest : List HostBuf}
    (queued : state.txQueueMulticast.contents = packet :: rest) (now : UInt64) :
    ∃ count ≤ 22, ∃ after frame,
      (timerCalls (awdlSendMulticast platform) late now state count).2 =
          (after, [.sendData packet frame]) ∧
        after.txQueueMulticast.contents = rest ∧ after.awdlState.sync = state.awdlState.sync := by
  obtain ⟨count, bound, ⟨begun, clear, slot⟩, same⟩ := timerCalls_first
    (fun now blocked =>
      let waits := @awdlSendMulticast_waits platform state wf now packet rest queued blocked
      ⟨waits.1, waits.2.1⟩)
    (fun now => Cadence.rank multicastGrid (slotPlace platform.long state.awdlState.sync now))
    (fun now index blocked =>
      (retry_of_blocked punctual wf queued now blocked index).rank_lt)
  have most := bound.trans (Cadence.rank_le multicastGrid _)
  obtain ⟨⟨frame, sent⟩, left⟩ := @awdlSendMulticast_sends platform state wf
    (timerCalls (awdlSendMulticast platform) late now state count).1 packet rest queued begun
      clear slot
  have kept := (@awdlSendMulticast_transmits platform
    (timerCalls (awdlSendMulticast platform) late now state count).1 state).1
  refine ⟨count + 1, Nat.succ_le_succ most, _, frame, ?_, left, ?_⟩
  · rw [timerCalls, same]
    dsimp only
    rw [sent]
    rfl
  · rw [kept]

end Drain

/-- **The multicast queue drains.** However late each call of the multicast timer is, as long
as it is by at most three time units, all frames of the queue have been handed over in
their order after at most 22 calls for each of them. -/
theorem multicast_queue_drains {state : TxState}
    (reachable : SyncReachable platform.long state.awdlState.sync) {late : ℕ → UInt64}
    (punctual : ∀ index, (late index).toNat ≤ 3072) (now : UInt64) :
    ∃ count ≤ 22 * state.txQueueMulticast.contents.length,
      let after := timerCalls (awdlSendMulticast platform) late now state count
      after.2.1.txQueueMulticast.contents = [] ∧
        handedOver after.2.2 = state.txQueueMulticast.contents := by
  have wf := reachable.wf
  clear reachable
  generalize contents : state.txQueueMulticast.contents = queue
  induction queue generalizing state late now with
  | nil => exact ⟨0, Nat.zero_le _, contents, rfl⟩
  | cons packet rest ih =>
      obtain ⟨first, soon, after, frame, sent, left, sync⟩ :=
        @first_frame_leaves platform late punctual state wf packet rest contents now
      rw [← sync] at wf
      obtain ⟨second, later, empty, others⟩ :=
        @ih after (fun index => late (first + index)) (fun index => punctual (first + index))
          (timerCalls (awdlSendMulticast platform) late now state first).1 wf left
      refine ⟨first + second, ?_, ?_⟩
      · rw [List.length_cons]
        omega
      · dsimp only at empty others ⊢
        rw [timerCalls_add, sent]
        refine ⟨empty, ?_⟩
        rw [handedOver, List.filterMap_append, ← handedOver, ← handedOver, others]
        rfl

/-- A frame that waits since the start leaves within 22 calls that are three time units late
each. -/
theorem multicast_queue_drains_late : ∃ count ≤ 22,
    let after := timerCalls (awdlSendMulticast samplePlatform) (fun _ => 3072) 0 sampleTx count
    after.2.1.txQueueMulticast.contents = [] ∧ handedOver after.2.2 = [sampleMulticast] :=
  @multicast_queue_drains samplePlatform sampleTx (.init 0) (fun _ => 3072)
    (fun _ => Nat.le_refl 3072) 0

end Owl
