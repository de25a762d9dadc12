import Owl.Wire.EtherAddr

/-! # Election records

The record that a node keeps of its own part in the election and of each peer's
advertised part, with the comparisons of `election.c`.
-/

namespace Owl

/-- `AWDL_ELECTION_TREE_MAX_HEIGHT`. -/
def awdlElectionTreeMaxHeight : UInt32 := 10

/-- `struct awdl_election_state`. -/
structure AwdlElectionState where
  masterAddr : EtherAddr
  syncAddr : EtherAddr
  selfAddr : EtherAddr
  height : UInt32
  masterMetric : UInt32
  selfMetric : UInt32
  masterCounter : UInt32
  selfCounter : UInt32
  deriving DecidableEq, Repr, Inhabited

/-- `compare`. -/
def compareU32 (a b : UInt32) : Int :=
  if a < b then -1 else if a > b then 1 else 0

/-- `awdl_election_is_sync_master`. -/
def awdlElectionIsSyncMaster (state : AwdlElectionState) (addr : EtherAddr) : Bool :=
  compareEtherAddr state.syncAddr addr == 0

/-- `awdl_election_reset_metric`. -/
def awdlElectionResetMetric (state : AwdlElectionState) : AwdlElectionState :=
  { state with selfCounter := 0, selfMetric := 60 }

/-- `awdl_election_reset_self`. -/
def awdlElectionResetSelf (state : AwdlElectionState) : AwdlElectionState :=
  { state with
    height := 0
    masterAddr := state.selfAddr
    syncAddr := state.selfAddr
    masterMetric := state.selfMetric
    masterCounter := state.selfCounter }

/-- `awdl_election_state_init`, on memory with any previous content. -/
def awdlElectionStateInit (state : AwdlElectionState) (self : EtherAddr) : AwdlElectionState :=
  awdlElectionResetSelf (awdlElectionResetMetric
    { state with masterAddr := self, syncAddr := self, selfAddr := self })

/-- `awdl_election_compare_master`. -/
def awdlElectionCompareMaster (a b : AwdlElectionState) : Int :=
  if compareU32 a.masterCounter b.masterCounter = 0 then
    compareU32 a.masterMetric b.masterMetric
  else compareU32 a.masterCounter b.masterCounter

@[simp] theorem awdlElectionIsSyncMaster_iff {state : AwdlElectionState} {addr : EtherAddr} :
    awdlElectionIsSyncMaster state addr = true ↔ state.syncAddr = addr := by
  simp only [awdlElectionIsSyncMaster, beq_iff_eq, compareEtherAddr_eq_zero_iff]

theorem compareU32_neg_iff {a b : UInt32} : compareU32 a b < 0 ↔ a.toNat < b.toNat := by
  simp only [compareU32, UInt32.lt_iff_toNat_lt]
  split
  · exact iff_of_true (by decide) ‹_›
  · split
    · exact iff_of_false (by decide) ‹_›
    · exact iff_of_false (by decide) ‹_›

theorem compareU32_eq_zero_iff {a b : UInt32} : compareU32 a b = 0 ↔ a.toNat = b.toNat := by
  simp only [compareU32, UInt32.lt_iff_toNat_lt, gt_iff_lt]
  split
  · exact iff_of_false (by decide) (by omega)
  · split
    · exact iff_of_false (by decide) (by omega)
    · exact iff_of_true rfl (by omega)

end Owl
