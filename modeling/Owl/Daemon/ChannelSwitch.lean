import Owl.Daemon.Core
import Owl.Rx.SyncState

/-! # Switching channels

`awdl_switch_channel` of `core.c` tunes the node to the channel of the current
slot and arms its timer for the start of the next one. At the deadlines of the
timer the slots come one after the other (`slot_clock`), for every sync state
that a daemon comes to (`daemon_syncReachable`).
-/

namespace Owl

open Transition

/-- What a call of `awdl_switch_channel` does: the slot it looks at, the channel
number that it sets, the state afterwards, and the delay in microseconds with
which the timer is armed. -/
structure SwitchOutcome where
  slot : Fin 16
  setChannel : Option UInt8
  state : AwdlState
  delay : UInt64

/-- `awdl_switch_channel`; `wlanIsFile` says that there is no channel to set. -/
def awdlSwitchChannel (long : LongWidth) (wlanIsFile : Bool) (now : UInt64) (state : AwdlState) :
    SwitchOutcome :=
  let chanNumOld := awdlChanNum state.channel.current state.channel.enc
  let slot := awdlSlot long now state.sync
  let chanNew := state.channel.sequence slot
  let chanNumNew := awdlChanNum chanNew state.channel.enc
  let switches := chanNumNew != 0 && chanNumNew != chanNumOld
  { slot := slot
    setChannel := if switches && !wlanIsFile then some chanNumNew else none
    state := if switches then { state with channel.current := chanNew } else state
    delay := awdlSyncNextAwUs long now state.sync }

/-- The clock and the state at a deadline of the timer, counted from the first call. -/
def switchDeadline (long : LongWidth) (wlanIsFile : Bool) (now : UInt64) (state : AwdlState) :
    Nat → UInt64 × AwdlState
  | 0 => (now, state)
  | count + 1 =>
      let last := switchDeadline long wlanIsFile now state count
      let call := awdlSwitchChannel long wlanIsFile last.1 last.2
      (last.1 + call.delay, call.state)

section Deadlines

variable (long : LongWidth) (wlanIsFile : Bool) (now : UInt64) (state : AwdlState)

@[simp] theorem awdlSwitchChannel_sync :
    (awdlSwitchChannel long wlanIsFile now state).state.sync = state.sync := by
  unfold awdlSwitchChannel
  dsimp only
  split <;> rfl

theorem switchDeadline_sync (count : Nat) :
    (switchDeadline long wlanIsFile now state count).2.sync = state.sync := by
  induction count with
  | zero => rfl
  | succ count ih => exact (awdlSwitchChannel_sync long wlanIsFile _ _).trans ih

variable {state}

/-- The slots at the deadlines of the timer come one after the other. -/
theorem slot_switchDeadline (wf : SyncWf state.sync) (count : Nat) :
    (awdlSwitchChannel long wlanIsFile (switchDeadline long wlanIsFile now state count).1
        (switchDeadline long wlanIsFile now state count).2).slot.val =
      ((awdlSlot long now state.sync).val + count) % 16 := by
  induction count with
  | zero =>
      change (awdlSlot long now state.sync).val = ((awdlSlot long now state.sync).val + 0) % 16
      rw [Nat.add_zero, Nat.mod_eq_of_lt (awdlSlot long now state.sync).isLt]
  | succ count ih =>
      -- The sync state is the same at all deadlines, so one step of the slot clock is enough.
      have unchanged := switchDeadline_sync long wlanIsFile now state count
      have again := switchDeadline_sync long wlanIsFile now state (count + 1)
      have next := awdlSyncCurrentEaw_next wf long
        (switchDeadline long wlanIsFile now state count).1
      dsimp only [awdlSwitchChannel, awdlSlot, awdlChanseqLength] at ih ⊢
      rw [unchanged] at ih
      rw [again]
      dsimp only [switchDeadline, awdlSwitchChannel]
      rw [unchanged, next]
      omega

end Deadlines

/-- A daemon stays in the sync states on which the slot clock runs. -/
theorem daemon_syncReachable {platform : Platform} {name : List UInt8}
    {election : AwdlElectionState} {hostname : List UInt8} {self : EtherAddr} {chan : AwdlChan}
    {now : UInt64} {trace : List (DaemonLabel × DaemonOutput)} {state : DaemonState}
    (run : Run (DaemonStep platform) (awdlInit name election hostname self chan now) trace state) :
    SyncReachable platform.long state.awdlState.sync := by
  refine run.invariant (fun state => SyncReachable platform.long state.awdlState.sync)
    (.init now) ?_
  intro state label output next reachable step
  cases label with
  | receive env buf =>
      obtain ⟨outcome, done, rfl, _⟩ := step
      obtain ⟨rx, received, rfl⟩ := Option.map_eq_some_iff.mp done
      have kept := awdlRx_syncReachable reachable received
      dsimp only [countUnknown]
      split
      · exact kept
      · exact kept
  | clean now =>
      obtain ⟨rfl, _⟩ := step
      exact reachable

/-- **The slot clock.** The time to the next extended window is between one
microsecond and its length, the extended window changes exactly when that time is
over and then by one, and so does the slot at the deadlines of the channel timer. -/
theorem slot_clock (long : LongWidth) {sync : AwdlSyncState} (reachable : SyncReachable long sync)
    (now : UInt64) :
    1 ≤ (awdlSyncNextAwUs long now sync).toNat ∧
      (awdlSyncNextAwUs long now sync).toNat ≤ 65536 ∧
      (∀ d, d < awdlSyncNextAwUs long now sync →
        awdlSyncCurrentEaw long (now + d) sync = awdlSyncCurrentEaw long now sync) ∧
      (awdlSyncCurrentEaw long (now + awdlSyncNextAwUs long now sync) sync).toNat =
        ((awdlSyncCurrentEaw long now sync).toNat + 1) % 16384 ∧
      ∀ state : AwdlState, state.sync = sync → ∀ wlanIsFile count,
        (awdlSwitchChannel long wlanIsFile (switchDeadline long wlanIsFile now state count).1
            (switchDeadline long wlanIsFile now state count).2).slot.val =
          ((awdlSlot long now sync).val + count) % 16 := by
  have wf := reachable.wf
  have bounds := awdlSyncNextAwUs_bounds wf long now
  refine ⟨bounds.1, bounds.2, fun d within => ?_, awdlSyncCurrentEaw_next wf long now, ?_⟩
  · exact awdlSyncCurrentEaw_within wf long now (UInt64.lt_iff_toNat_lt.mp within)
  · intro state same wlanIsFile count
    subst same
    exact slot_switchDeadline long wlanIsFile now wf count

/-- A sync master that has announced a window for the future: the base of the
clock lies ahead of the time, and the counter is about to wrap. -/
theorem slot_clock_future :
    (awdlSyncCurrentEaw .bits64
        (5 + awdlSyncNextAwUs .bits64 5 (awdlSyncUpdateLast .bits64 5 70 0xffff
          (awdlSyncStateInit 0)))
        (awdlSyncUpdateLast .bits64 5 70 0xffff (awdlSyncStateInit 0))).toNat =
      ((awdlSyncCurrentEaw .bits64 5
        (awdlSyncUpdateLast .bits64 5 70 0xffff (awdlSyncStateInit 0))).toNat + 1) % 16384 :=
  (slot_clock .bits64 (.updateLast 5 70 0xffff (.init 0)) 5).2.2.2.1

end Owl
