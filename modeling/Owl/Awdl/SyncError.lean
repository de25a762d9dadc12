import Mathlib.Data.Int.ModEq
import Owl.Awdl.SlotClock

/-! # The measured synchronisation error

Two nodes stand at positions on a cycle of `2 ^ 20` time units, the period of the
window counter. `awdl_sync_error_tu` is the difference of the two positions as
numbers (`awdlSyncErrorTu_eq`). Nothing brings that difference back to the shorter
way around the cycle, so it is the offset of the nodes only while the shorter way
does not lead over the wrap of the counter.
-/

namespace Owl

/-- The length of the cycle of the window counter in time units. -/
def cycleTu : Int := 2 ^ 20

/-- The position on the cycle from an extended window and the time to the next one. -/
def cyclePosition (eaw timeToNextAw : Nat) : Int := 64 * eaw + (64 - timeToNextAw)

/-- The position of a node by its own clock. -/
def ownPosition (long : LongWidth) (now : UInt64) (state : AwdlSyncState) : Int :=
  cyclePosition (awdlSyncCurrentEaw long now state).toNat (awdlSyncNextAwTu long now state).toNat

/-- The position a master announces. -/
def masterPosition (awCounter timeToNextAw : UInt16) : Int :=
  cyclePosition (awCounter.toNat / 4) timeToNextAw.toNat

/-- A measured offset is the representative of a difference of positions that lies
within half a cycle. -/
def IsOffset (measured difference : Int) : Prop :=
  measured ≡ difference [ZMOD cycleTu] ∧ -(cycleTu / 2) ≤ measured ∧ measured < cycleTu / 2

/-- The offset of two positions is determined. -/
theorem IsOffset.unique {first second difference : Int} (left : IsOffset first difference)
    (right : IsOffset second difference) : first = second := by
  obtain ⟨congruent, low, high⟩ := left
  obtain ⟨congruent', low', high'⟩ := right
  have same := (congruent.trans congruent'.symm).dvd
  unfold cycleTu at *
  omega

section Measured

variable {state : AwdlSyncState} (wf : SyncWf state) (long : LongWidth) (now : UInt64)

include wf

/-- The position of a node lies on the cycle. -/
theorem ownPosition_bounds :
    0 ≤ ownPosition long now state ∧ ownPosition long now state < cycleTu := by
  unfold ownPosition cyclePosition cycleTu
  rw [toNat_awdlSyncCurrentEaw wf, toNat_awdlSyncNextAwTu wf]
  omega

/-- **The measured error is the difference of the positions as numbers.** -/
theorem awdlSyncErrorTu_eq (timeToNextAw awCounter : UInt16) :
    awdlSyncErrorTu long now timeToNextAw awCounter state =
      masterPosition awCounter timeToNextAw - ownPosition long now state := by
  have mode : state.presenceMode.toNat = 4 := by rw [wf.presenceMode]; rfl
  have period : state.awPeriod.toNat = 16 := by rw [wf.awPeriod]; rfl
  unfold awdlSyncErrorTu masterPosition ownPosition cyclePosition
  rw [mode, period]
  omega

end Measured

section Announced

variable {timeToNextAw : UInt16} (announced : 1 ≤ timeToNextAw.toNat ∧ timeToNextAw.toNat ≤ 64)

include announced

/-- The position a master announces lies on the cycle. -/
theorem masterPosition_bounds (awCounter : UInt16) :
    0 ≤ masterPosition awCounter timeToNextAw ∧
      masterPosition awCounter timeToNextAw < cycleTu := by
  have counter := awCounter.toNat_lt
  unfold masterPosition cyclePosition cycleTu
  omega

/-- Where the measured error is not the offset, it is one cycle off. -/
theorem awdlSyncErrorTu_off_by_cycle {state : AwdlSyncState} (wf : SyncWf state)
    (long : LongWidth) (now : UInt64) (awCounter : UInt16) :
    ∃ turns, IsOffset (awdlSyncErrorTu long now timeToNextAw awCounter state + turns * cycleTu)
        (masterPosition awCounter timeToNextAw - ownPosition long now state) ∧
      -1 ≤ turns ∧ turns ≤ 1 := by
  have master := masterPosition_bounds announced awCounter
  have own := ownPosition_bounds wf long now
  rw [awdlSyncErrorTu_eq wf]
  generalize masterPosition awCounter timeToNextAw = there at *
  generalize ownPosition long now state = here at *
  have turned (turns : Int) : there - here + turns * cycleTu ≡ there - here [ZMOD cycleTu] :=
    Int.ModEq.symm (Int.modEq_iff_dvd.mpr ⟨turns, by ring⟩)
  unfold IsOffset
  rcases lt_or_ge (there - here) (-(cycleTu / 2)) with behind | least
  · refine ⟨1, ⟨turned 1, ?_⟩, by decide⟩
    unfold cycleTu at *
    omega
  · rcases lt_or_ge (there - here) (cycleTu / 2) with most | ahead
    · exact ⟨0, ⟨turned 0, by omega⟩, by decide⟩
    · refine ⟨-1, ⟨turned (-1), ?_⟩, by decide⟩
      unfold cycleTu at *
      omega

end Announced

/-- The measured error is the offset exactly if the positions of master and node are
less than half a cycle apart as numbers, with no wrap of the counter between them. -/
theorem awdlSyncErrorTu_isOffset_iff {state : AwdlSyncState} (long : LongWidth)
    (reachable : SyncReachable long state) (now : UInt64) (timeToNextAw awCounter : UInt16) :
    IsOffset (awdlSyncErrorTu long now timeToNextAw awCounter state)
        (masterPosition awCounter timeToNextAw - ownPosition long now state) ↔
      -(cycleTu / 2) ≤ masterPosition awCounter timeToNextAw - ownPosition long now state ∧
        masterPosition awCounter timeToNextAw - ownPosition long now state < cycleTu / 2 := by
  rw [awdlSyncErrorTu_eq reachable.wf]
  exact and_iff_right rfl

/-- A node at the first time unit of its cycle and a master three units ahead. -/
theorem awdlSyncErrorTu_isOffset_ahead :
    IsOffset (awdlSyncErrorTu .bits64 0 61 0 (awdlSyncStateInit 0))
      (masterPosition 0 61 - ownPosition .bits64 0 (awdlSyncStateInit 0)) :=
  (awdlSyncErrorTu_isOffset_iff .bits64 (.init 0) 0 61 0).mpr (by decide)

/-- A node in the last time unit before the counter wraps and a master in the first
one behind it: the positions are one unit apart, the measured error is a cycle less one. -/
theorem awdlSyncErrorTu_wrong_at_wrap :
    ∃ (state : AwdlSyncState) (now : UInt64), SyncReachable .bits64 state ∧
      masterPosition 0 64 = 0 ∧ ownPosition .bits64 now state = cycleTu - 1 ∧
      awdlSyncErrorTu .bits64 now 64 0 state = -1048575 ∧
      ¬IsOffset (awdlSyncErrorTu .bits64 now 64 0 state)
        (masterPosition 0 64 - ownPosition .bits64 now state) ∧
      IsOffset 1 (masterPosition 0 64 - ownPosition .bits64 now state) := by
  refine ⟨awdlSyncStateInit 0, 1073740800, .init 0, by decide, by decide +kernel, ?_⟩
  have measured : awdlSyncErrorTu .bits64 1073740800 64 0 (awdlSyncStateInit 0) = -1048575 := by
    decide +kernel
  have offset : IsOffset 1
      (masterPosition 0 64 - ownPosition .bits64 1073740800 (awdlSyncStateInit 0)) := by
    unfold IsOffset
    decide +kernel
  refine ⟨measured, ?_, offset⟩
  intro wrong
  have same := wrong.unique offset
  rw [measured] at same
  cases same

end Owl
