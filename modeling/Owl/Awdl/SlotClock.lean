import Mathlib.Tactic.Common
import Owl.Awdl.Channel
import Owl.Awdl.Sync

/-! # The slot clock

The counters of `sync.c` on a sync state that a node can reach. Window and
extended window are functions of the time since the last update. Their common
period of `2 ^ 30` microseconds divides the range of the clock and of both
widths of `unsigned long`, so it is enough to know that time up to the period
(`AwdlSyncState.elapsed`), and no wrap is seen.
-/

namespace Owl

variable {state : AwdlSyncState}

/-- The sync states that a node reaches; the statistics are counted in between. -/
inductive SyncReachable (long : LongWidth) : AwdlSyncState → Prop
  | init (now : UInt64) : SyncReachable long (awdlSyncStateInit now)
  | updateLast {state : AwdlSyncState} (now : UInt64) (timeToNextAw awCounter : UInt16) :
      SyncReachable long state →
        SyncReachable long (awdlSyncUpdateLast long now timeToNextAw awCounter state)
  | measured {state : AwdlSyncState} (measErr measTotal : UInt64) :
      SyncReachable long state →
        SyncReachable long { state with measErr := measErr, measTotal := measTotal }

/-- The invariant of a sync state: four windows of sixteen time units in an
extended window, and a counter at the start of one. -/
structure SyncWf (state : AwdlSyncState) : Prop where
  awPeriod : state.awPeriod = 16
  presenceMode : state.presenceMode = 4
  aligned : state.awCounter.toNat % 4 = 0

/-- The mask of `awdl_sync_update_last` rounds down to a multiple of four. -/
theorem toNat_and_fffc (awCounter : UInt16) :
    (awCounter &&& 0xfffc).toNat = awCounter.toNat / 4 * 4 := by
  have small : awCounter.toNat < 2 ^ 16 := awCounter.toNat_lt
  have mask : (0xfffc : UInt16).toNat = (2 ^ 14 - 1) <<< 2 := rfl
  have rounded : awCounter.toNat / 4 * 4 = (awCounter.toNat >>> 2) <<< 2 := by
    rw [Nat.shiftLeft_eq, Nat.shiftRight_eq_div_pow]
  rw [UInt16.toNat_and, mask, rounded]
  apply Nat.eq_of_testBit_eq
  intro index
  rw [Nat.testBit_and, Nat.testBit_shiftLeft, Nat.testBit_shiftLeft, Nat.testBit_shiftRight,
    Nat.testBit_two_pow_sub_one]
  by_cases high : index ≥ 2
  · rw [Nat.add_sub_cancel' high]
    by_cases inside : index - 2 < 14
    · simp only [high, inside, decide_true, Bool.and_true, Bool.true_and]
    · have beyond : 16 ≤ index := by omega
      have zero := Nat.testBit_lt_two_pow
        (Nat.lt_of_lt_of_le small (Nat.pow_le_pow_right (by decide) beyond))
      simp only [zero, Bool.false_and, Bool.and_false]
  · simp only [high, decide_false, Bool.false_and, Bool.and_false]

theorem SyncReachable.wf {long : LongWidth} (reachable : SyncReachable long state) :
    SyncWf state := by
  induction reachable with
  | init now => exact ⟨rfl, rfl, rfl⟩
  | updateLast now timeToNextAw awCounter _ ih =>
      refine ⟨ih.awPeriod, ih.presenceMode, ?_⟩
      change (awCounter &&& 0xfffc).toNat % 4 = 0
      rw [toNat_and_fffc, Nat.mul_mod_left]
  | measured measErr measTotal _ ih => exact ⟨ih.awPeriod, ih.presenceMode, ih.aligned⟩

/-! ## The counters as quotients -/

/-- The time since the last update, up to the period of the window counter. -/
def AwdlSyncState.elapsed (state : AwdlSyncState) (now : UInt64) : Nat :=
  (now - state.lastUpdate).toNat % 2 ^ 30

theorem AwdlSyncState.elapsed_add (state : AwdlSyncState) (now d : UInt64) :
    state.elapsed (now + d) = (state.elapsed now + d.toNat) % 2 ^ 30 := by
  simp only [elapsed, UInt64.toNat_sub, UInt64.toNat_add]
  omega

theorem SyncWf.eawPeriod (wf : SyncWf state) : state.eawPeriod = 64 := by
  rw [AwdlSyncState.eawPeriod, wf.presenceMode, wf.awPeriod]
  rfl

theorem toNat_ieee80211UsecToTu_mod (long : LongWidth) (usec : UInt64) :
    (ieee80211UsecToTu long usec).toNat % 2 ^ 20 = usec.toNat % 2 ^ 30 / 1024 := by
  cases long with
  | bits32 =>
      simp only [ieee80211UsecToTu, LongWidth.truncate, UInt64.toNat_div, UInt32.toNat_toUInt64,
        UInt64.toNat_toUInt32, UInt64.reduceToNat]
      omega
  | bits64 =>
      simp only [ieee80211UsecToTu, LongWidth.truncate, UInt64.toNat_div, UInt64.reduceToNat]
      omega

/-- A time of at most `2 ^ 21` units is converted exactly. -/
theorem toNat_ieee80211TuToUsec (long : LongWidth) {tu : UInt64} (small : tu.toNat ≤ 2 ^ 21) :
    (ieee80211TuToUsec long tu).toNat = 1024 * tu.toNat := by
  cases long with
  | bits32 =>
      simp only [ieee80211TuToUsec, LongWidth.truncate, UInt64.toNat_mul, UInt32.toNat_toUInt64,
        UInt64.toNat_toUInt32, UInt64.reduceToNat]
      omega
  | bits64 =>
      simp only [ieee80211TuToUsec, LongWidth.truncate, UInt64.toNat_mul, UInt64.reduceToNat]
      omega

section Counters

variable (wf : SyncWf state) (long : LongWidth) (now : UInt64)

include wf

theorem toNat_awdlSyncNextAwUs :
    (awdlSyncNextAwUs long now state).toNat = 65536 - state.elapsed now % 65536 := by
  have period : (ieee80211TuToUsec long 64).toNat = 65536 :=
    toNat_ieee80211TuToUsec long (by decide)
  simp only [awdlSyncNextAwUs, wf.eawPeriod, AwdlSyncState.elapsed]
  rw [UInt64.toNat_sub, UInt64.toNat_mod, period]
  omega

theorem toNat_awdlSyncNextAwTu :
    (awdlSyncNextAwTu long now state).toNat = 64 - state.elapsed now / 1024 % 64 := by
  have units := toNat_ieee80211UsecToTu_mod long (now - state.lastUpdate)
  simp only [awdlSyncNextAwTu, wf.eawPeriod, AwdlSyncState.elapsed, ← units]
  rw [UInt64.toNat_toUInt16, UInt64.toNat_sub, UInt64.toNat_mod]
  simp only [UInt64.reduceToNat]
  omega

/-- The part within an extended window and the correction for extended windows
add up to the number of windows that have passed. -/
theorem toNat_awdlSyncCurrentAw :
    (awdlSyncCurrentAw long now state).toNat =
      (state.awCounter.toNat + state.elapsed now / 16384) % 65536 := by
  have units := toNat_ieee80211UsecToTu_mod long (now - state.lastUpdate)
  have windows : state.elapsed now / 16384 =
      (ieee80211UsecToTu long (now - state.lastUpdate)).toNat % 2 ^ 20 / 16 := by
    rw [units, Nat.div_div_eq_div_mul]
    rfl
  have counter := state.awCounter.toNat_lt
  simp only [awdlSyncCurrentAw, wf.eawPeriod, wf.awPeriod, wf.presenceMode, windows]
  rw [UInt64.toNat_toUInt16, UInt64.toNat_add, UInt64.toNat_add, UInt64.toNat_mul,
    UInt64.toNat_div, UInt64.toNat_mod, UInt64.toNat_div]
  simp only [UInt64.reduceToNat, UInt16.toNat_toUInt64, UInt8.toNat_toUInt64,
    UInt16.reduceToNat, UInt8.reduceToNat]
  omega

theorem toNat_awdlSyncCurrentEaw :
    (awdlSyncCurrentEaw long now state).toNat =
      (state.awCounter.toNat / 4 + state.elapsed now / 65536) % 16384 := by
  have aligned := wf.aligned
  rw [awdlSyncCurrentEaw, UInt16.toNat_div, toNat_awdlSyncCurrentAw wf, wf.presenceMode]
  simp only [UInt8.toNat_toUInt16, UInt8.reduceToNat]
  omega

/-! ## Slots -/

/-- The time to the next extended window is positive and at most its length. -/
theorem awdlSyncNextAwUs_bounds :
    1 ≤ (awdlSyncNextAwUs long now state).toNat ∧
      (awdlSyncNextAwUs long now state).toNat ≤ 65536 := by
  rw [toNat_awdlSyncNextAwUs wf]
  omega

/-- The extended window does not change before the time to the next one is over. -/
theorem awdlSyncCurrentEaw_within {d : UInt64}
    (within : d.toNat < (awdlSyncNextAwUs long now state).toNat) :
    awdlSyncCurrentEaw long (now + d) state = awdlSyncCurrentEaw long now state := by
  rw [toNat_awdlSyncNextAwUs wf] at within
  apply UInt16.toNat_inj.mp
  rw [toNat_awdlSyncCurrentEaw wf, toNat_awdlSyncCurrentEaw wf, state.elapsed_add]
  omega

/-- The next extended window has come when the time to it is over. -/
theorem awdlSyncCurrentEaw_next :
    (awdlSyncCurrentEaw long (now + awdlSyncNextAwUs long now state) state).toNat =
      ((awdlSyncCurrentEaw long now state).toNat + 1) % 16384 := by
  rw [toNat_awdlSyncCurrentEaw wf, toNat_awdlSyncCurrentEaw wf, state.elapsed_add,
    toNat_awdlSyncNextAwUs wf, AwdlSyncState.elapsed]
  omega

end Counters

/-- The slot of the channel sequence at a time: the extended window modulo
`AWDL_CHANSEQ_LENGTH`. -/
def awdlSlot (long : LongWidth) (now : UInt64) (sync : AwdlSyncState) : Fin 16 :=
  ⟨(awdlSyncCurrentEaw long now sync).toNat % awdlChanseqLength, Nat.mod_lt _ (by decide)⟩

end Owl
