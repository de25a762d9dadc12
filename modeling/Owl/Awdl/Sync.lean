import Mathlib.Data.Nat.Basic

/-! # The synchronisation state

The model of `sync.c`. Times are 64-bit microsecond counts that wrap. The
conversions between time units and microseconds go through `unsigned long`,
whose width depends on the platform.
-/

namespace Owl

/-- The width of `unsigned long`. -/
inductive LongWidth
  | bits32
  | bits64
  deriving DecidableEq, Repr

/-- A 64-bit value converted to `unsigned long`. -/
def LongWidth.truncate : LongWidth → UInt64 → UInt64
  | .bits32, value => value.toUInt32.toUInt64
  | .bits64, value => value

/-- `ieee80211_tu_to_usec`. -/
def ieee80211TuToUsec (long : LongWidth) (tu : UInt64) : UInt64 :=
  long.truncate (1024 * long.truncate tu)

/-- `ieee80211_usec_to_tu`. -/
def ieee80211UsecToTu (long : LongWidth) (usec : UInt64) : UInt64 :=
  long.truncate usec / 1024

/-- `struct awdl_sync_state`. -/
structure AwdlSyncState where
  awCounter : UInt16
  lastUpdate : UInt64
  awPeriod : UInt16
  presenceMode : UInt8
  measErr : UInt64
  measTotal : UInt64
  deriving DecidableEq, Repr

/-- `awdl_sync_state_init`. -/
def awdlSyncStateInit (now : UInt64) : AwdlSyncState where
  lastUpdate := now
  awCounter := 0
  awPeriod := 16
  presenceMode := 4
  measErr := 0
  measTotal := 0

/-- The length of an extended availability window in time units. -/
def AwdlSyncState.eawPeriod (state : AwdlSyncState) : UInt64 :=
  state.presenceMode.toUInt64 * state.awPeriod.toUInt64

/-- `awdl_sync_next_aw_tu`. -/
def awdlSyncNextAwTu (long : LongWidth) (now : UInt64) (state : AwdlSyncState) : UInt16 :=
  let timeSince := ieee80211UsecToTu long (now - state.lastUpdate)
  (state.eawPeriod - timeSince % state.eawPeriod).toUInt16

/-- `awdl_sync_next_aw_us`. -/
def awdlSyncNextAwUs (long : LongWidth) (now : UInt64) (state : AwdlSyncState) : UInt64 :=
  let eawPeriod := ieee80211TuToUsec long state.eawPeriod
  let timeSince := now - state.lastUpdate
  eawPeriod - timeSince % eawPeriod

/-- `awdl_sync_current_aw`. -/
def awdlSyncCurrentAw (long : LongWidth) (now : UInt64) (state : AwdlSyncState) : UInt16 :=
  let timeSince := ieee80211UsecToTu long (now - state.lastUpdate)
  (state.awCounter.toUInt64 + (timeSince % state.eawPeriod) / state.awPeriod.toUInt64 +
    state.presenceMode.toUInt64 * (timeSince / state.eawPeriod)).toUInt16

/-- `awdl_sync_current_eaw`. -/
def awdlSyncCurrentEaw (long : LongWidth) (now : UInt64) (state : AwdlSyncState) : UInt16 :=
  awdlSyncCurrentAw long now state / state.presenceMode.toUInt16

/-- `awdl_sync_error_tu`; the operands are promoted to `int`. -/
def awdlSyncErrorTu (long : LongWidth) (now : UInt64) (timeToNextAw awCounter : UInt16)
    (state : AwdlSyncState) : Int :=
  ((awCounter.toNat / state.presenceMode.toNat : Nat) -
      (awdlSyncCurrentEaw long now state).toNat : Int) *
    state.presenceMode.toNat * state.awPeriod.toNat -
  ((timeToNextAw.toNat : Int) - (awdlSyncNextAwTu long now state).toNat)

/-- `awdl_sync_update_last`. -/
def awdlSyncUpdateLast (long : LongWidth) (now : UInt64) (timeToNextAw awCounter : UInt16)
    (state : AwdlSyncState) : AwdlSyncState :=
  { state with
    lastUpdate := now - ieee80211TuToUsec long (state.eawPeriod - timeToNextAw.toUInt64)
    awCounter := awCounter &&& 0xfffc }

end Owl
