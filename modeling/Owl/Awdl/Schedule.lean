import Owl.Awdl.SlotClock
import Owl.Awdl.State

/-! # When frames may be sent

The model of `schedule.c`. A delay is a number of microseconds; it is negative
for a node that is at the end of its slot. A unicast frame may be sent exactly
when node and peer share a channel throughout the guard interval around the
present (`awdlCanSendUnicastIn_eq_zero_iff`).
-/

namespace Owl

/-- `awdl_same_channel_as_peer`. -/
def awdlSameChannelAsPeer (long : LongWidth) (state : AwdlState) (now : UInt64)
    (peer : AwdlPeer) : Bool :=
  let ownSlot := awdlSlot long now state.sync
  let peerSlot := awdlSlot long (now + peer.syncOffset) state.sync
  let ownChan := awdlChanNum (state.channel.sequence ownSlot) state.channel.enc
  let peerChan := awdlChanNum (peer.sequence peerSlot) state.channel.enc
  ownChan != 0 && ownChan == peerChan

/-- `awdl_is_multicast_eaw`. -/
def awdlIsMulticastEaw (long : LongWidth) (state : AwdlState) (now : UInt64) : Bool :=
  let slot := awdlSlot long now state.sync
  slot == 0 || slot == 10

/-- `AWDL_UNICAST_GUARD_TU`. -/
def awdlUnicastGuardTu : Int := 3

/-- `AWDL_MULTICAST_GUARD_TU`. -/
def awdlMulticastGuardTu : Int := 16

/-- `awdl_can_send_in`. -/
def awdlCanSendIn (long : LongWidth) (state : AwdlState) (now : UInt64) (guard : Int) : Int :=
  let nextAw := awdlSyncNextAwUs long now state.sync
  let guard := ieee80211TuToUsec long (UInt64.ofInt guard)
  let eaw := ieee80211TuToUsec long 64
  if nextAw < guard then -(guard - nextAw).toNat
  else if eaw - nextAw < guard then (guard - (eaw - nextAw)).toNat
  else 0

/-- `awdl_can_send_unicast_in`. -/
def awdlCanSendUnicastIn (long : LongWidth) (state : AwdlState) (peer : AwdlPeer) (now : UInt64)
    (guard : Int) : Int :=
  let nextAw := awdlSyncNextAwUs long now state.sync
  let guard := ieee80211TuToUsec long (UInt64.ofInt guard)
  let eaw := ieee80211TuToUsec long 64
  if !awdlSameChannelAsPeer long state now peer then nextAw.toNat
  else if nextAw < guard then
    if awdlSameChannelAsPeer long state (now + eaw) peer then 0
    else -(guard - nextAw).toNat
  else if eaw - nextAw < guard then
    if awdlSameChannelAsPeer long state (now - eaw) peer then 0
    else (guard - (eaw - nextAw)).toNat
  else 0

/-! ## Positions in a slot -/

theorem ieee80211TuToUsec_eaw (long : LongWidth) : ieee80211TuToUsec long 64 = 65536 := by
  cases long <;> rfl

section Position

variable {sync : AwdlSyncState} (wf : SyncWf sync) (long : LongWidth) (now : UInt64)

include wf

/-- The slot after a time, which may be the complement of a time before now. -/
theorem awdlSlot_add (d : UInt64) :
    (awdlSlot long (now + d) sync).val =
      (sync.awCounter.toNat / 4 + (sync.elapsed now + d.toNat) / 65536) % 16 := by
  dsimp only [awdlSlot, awdlChanseqLength]
  rw [toNat_awdlSyncCurrentEaw wf, sync.elapsed_add]
  omega

theorem awdlSlot_now :
    (awdlSlot long now sync).val =
      (sync.awCounter.toNat / 4 + sync.elapsed now / 65536) % 16 := by
  dsimp only [awdlSlot, awdlChanseqLength]
  rw [toNat_awdlSyncCurrentEaw wf]
  omega

/-- The position in the current slot. -/
theorem toNat_eaw_sub_nextAw :
    (65536 - awdlSyncNextAwUs long now sync).toNat = sync.elapsed now % 65536 := by
  rw [UInt64.toNat_sub, toNat_awdlSyncNextAwUs wf]
  simp only [UInt64.reduceToNat]
  omega

end Position

/-! ## The guard interval -/

/-- The instants from `g` before the present up to `g` after it, on a clock that wraps. -/
def InGuard (now g t : UInt64) : Prop := t - (now - g) < 2 * g

theorem inGuard_add {now g d : UInt64} (small : g.toNat ≤ 32768) :
    InGuard now g (now + d) ↔ d.toNat < g.toNat ∨ 2 ^ 64 ≤ d.toNat + g.toNat := by
  have below := d.toNat_lt
  unfold InGuard
  rw [UInt64.lt_iff_toNat_lt, UInt64.toNat_sub, UInt64.toNat_sub, UInt64.toNat_add,
    UInt64.toNat_mul]
  simp only [UInt64.reduceToNat]
  omega

/-- Node and peer share a channel in a slot. -/
def sharesSlot (state : AwdlState) (peer : AwdlPeer) (slot : Fin 16) : Bool :=
  awdlChanNum (state.channel.sequence slot) state.channel.enc != 0 &&
    awdlChanNum (state.channel.sequence slot) state.channel.enc ==
      awdlChanNum (peer.sequence slot) state.channel.enc

/-- A peer without an offset is in the slot of the node. -/
theorem awdlSameChannelAsPeer_eq (long : LongWidth) (state : AwdlState) (now : UInt64)
    {peer : AwdlPeer} (offset : peer.syncOffset = 0) :
    awdlSameChannelAsPeer long state now peer =
      sharesSlot state peer (awdlSlot long now state.sync) := by
  unfold awdlSameChannelAsPeer sharesSlot
  rw [offset, UInt64.add_zero]

section Guard

variable {sync : AwdlSyncState} (wf : SyncWf sync) (long : LongWidth) (now : UInt64) {g : UInt64}
  (small : g.toNat ≤ 32768)

include wf small

/-- An interval of half a slot to both sides reaches into one other slot at most:
the next one near the end of the slot, the last one near its start. -/
theorem awdlSlot_inGuard {t : UInt64} (inside : InGuard now g t) :
    awdlSlot long t sync = awdlSlot long now sync ∨
      awdlSyncNextAwUs long now sync < g ∧
        awdlSlot long t sync = awdlSlot long (now + 65536) sync ∨
      65536 - awdlSyncNextAwUs long now sync < g ∧
        awdlSlot long t sync = awdlSlot long (now - 65536) sync := by
  obtain ⟨d, rfl⟩ : ∃ d, t = now + d := ⟨t - now, by rw [UInt64.add_comm, UInt64.sub_add_cancel]⟩
  have before : now - 65536 = now + (0 - 65536) := by
    rw [UInt64.sub_eq_add_neg, UInt64.zero_sub]
  have position := toNat_eaw_sub_nextAw wf long now
  have left := toNat_awdlSyncNextAwUs wf long now
  have below := d.toNat_lt
  rw [inGuard_add small] at inside
  simp only [UInt64.lt_iff_toNat_lt, Fin.ext_iff, before, awdlSlot_add wf, awdlSlot_now wf,
    position, left, UInt64.reduceToNat, UInt64.reduceSub]
  rcases inside with later | earlier
  · by_cases ends : sync.elapsed now % 65536 + d.toNat < 65536
    · exact Or.inl (by omega)
    · exact Or.inr (Or.inl ⟨by omega, by omega⟩)
  · by_cases starts : 2 ^ 64 ≤ sync.elapsed now % 65536 + d.toNat
    · exact Or.inl (by omega)
    · exact Or.inr (Or.inr ⟨by omega, by omega⟩)

/-- No instant is near both ends of its slot. -/
theorem not_near_start_of_near_end (nearEnd : awdlSyncNextAwUs long now sync < g) :
    ¬65536 - awdlSyncNextAwUs long now sync < g := by
  rw [UInt64.lt_iff_toNat_lt, toNat_awdlSyncNextAwUs wf] at nearEnd
  rw [UInt64.lt_iff_toNat_lt, toNat_eaw_sub_nextAw wf]
  omega

omit wf in
/-- The present is in its guard interval. -/
theorem inGuard_now (positive : 0 < g.toNat) : InGuard now g now := by
  have inside := @inGuard_add now g 0 small
  rw [UInt64.add_zero] at inside
  exact inside.mpr (Or.inl positive)

/-- Near the end of a slot the guard interval has an instant of the next slot. -/
theorem exists_inGuard_next (near : awdlSyncNextAwUs long now sync < g) :
    ∃ t, InGuard now g t ∧ awdlSlot long t sync = awdlSlot long (now + 65536) sync := by
  refine ⟨now + awdlSyncNextAwUs long now sync, (inGuard_add small).mpr (Or.inl ?_), ?_⟩
  · exact UInt64.lt_iff_toNat_lt.mp near
  · simp only [Fin.ext_iff, awdlSlot_add wf, toNat_awdlSyncNextAwUs wf, UInt64.reduceToNat]
    omega

/-- Near the start of a slot the guard interval has an instant of the last slot. -/
theorem exists_inGuard_last (near : 65536 - awdlSyncNextAwUs long now sync < g) :
    ∃ t, InGuard now g t ∧ awdlSlot long t sync = awdlSlot long (now - 65536) sync := by
  have before : now - 65536 = now + (0 - 65536) := by
    rw [UInt64.sub_eq_add_neg, UInt64.zero_sub]
  have position := toNat_eaw_sub_nextAw wf long now
  rw [UInt64.lt_iff_toNat_lt, position] at near
  have back : (0 - (65536 - awdlSyncNextAwUs long now sync + 1)).toNat =
      2 ^ 64 - (sync.elapsed now % 65536 + 1) := by
    rw [UInt64.toNat_sub, UInt64.toNat_add, position]
    simp only [UInt64.reduceToNat]
    omega
  refine ⟨now + (0 - (65536 - awdlSyncNextAwUs long now sync + 1)), ?_, ?_⟩
  · rw [inGuard_add small, back]
    omega
  · simp only [Fin.ext_iff, before, awdlSlot_add wf, back, UInt64.reduceToNat,
      UInt64.reduceSub]
    omega

end Guard

theorem toNat_ofInt_of_lt {value : Int} (nonneg : 0 ≤ value) (small : value < 2 ^ 64) :
    (UInt64.ofInt value).toNat = value.toNat := by
  rw [UInt64.ofInt, UInt64.toNat_ofNat', Int.emod_eq_of_lt nonneg small]
  omega

/-- The length of a guard interval of one to thirty-two time units. -/
theorem ieee80211TuToUsec_guard (long : LongWidth) {guard : Int} (least : 1 ≤ guard)
    (most : guard ≤ 32) :
    ieee80211TuToUsec long (UInt64.ofInt guard) = UInt64.ofInt (1024 * guard) ∧
      0 < (UInt64.ofInt (1024 * guard)).toNat ∧
      (UInt64.ofInt (1024 * guard)).toNat ≤ 32768 := by
  have units : (UInt64.ofInt guard).toNat = guard.toNat :=
    toNat_ofInt_of_lt (by omega) (by omega)
  have usec : (UInt64.ofInt (1024 * guard)).toNat = (1024 * guard).toNat :=
    toNat_ofInt_of_lt (by omega) (by omega)
  refine ⟨UInt64.toNat_inj.mp ?_, by omega, by omega⟩
  rw [toNat_ieee80211TuToUsec long (by omega), units, usec]
  omega

/-- What is missing to a guard interval is a delay. -/
theorem toNat_sub_pos {left guard : UInt64} (short : left < guard) :
    0 < (guard - left).toNat := by
  have below := guard.toNat_lt
  rw [UInt64.lt_iff_toNat_lt] at short
  rw [UInt64.toNat_sub]
  omega

/-- The result of the schedule by the time that is left in the slot. -/
theorem awdlCanSendIn_eq {state : AwdlState} (wf : SyncWf state.sync) (long : LongWidth)
    (now : UInt64) {guard : Int} (least : 1 ≤ guard) (most : guard ≤ 32) :
    awdlCanSendIn long state now guard =
      let left : Int := (awdlSyncNextAwUs long now state.sync).toNat
      if left < 1024 * guard then left - 1024 * guard
      else if 65536 - left < 1024 * guard then 1024 * guard - (65536 - left)
      else 0 := by
  obtain ⟨length, _, _⟩ := ieee80211TuToUsec_guard long least most
  have bounds := awdlSyncNextAwUs_bounds wf long now
  have usec : (UInt64.ofInt (1024 * guard)).toNat = (1024 * guard).toNat :=
    toNat_ofInt_of_lt (by omega) (by omega)
  have eaw : (65536 - awdlSyncNextAwUs long now state.sync).toNat =
      65536 - (awdlSyncNextAwUs long now state.sync).toNat := by
    rw [UInt64.toNat_sub]
    simp only [UInt64.reduceToNat]
    omega
  unfold awdlCanSendIn
  simp only [length, ieee80211TuToUsec_eaw, UInt64.lt_iff_toNat_lt, UInt64.toNat_sub, usec, eaw]
  split_ifs <;> omega

/-- **The unicast send window.** A unicast frame may be sent now exactly when node
and peer share a channel at every instant of the guard interval. -/
theorem awdlCanSendUnicastIn_eq_zero_iff (long : LongWidth) {state : AwdlState}
    (reachable : SyncReachable long state.sync) {peer : AwdlPeer} (offset : peer.syncOffset = 0)
    (now : UInt64) {guard : Int} (least : 1 ≤ guard) (most : guard ≤ 32) :
    awdlCanSendUnicastIn long state peer now guard = 0 ↔
      ∀ t, InGuard now (UInt64.ofInt (1024 * guard)) t →
        awdlSameChannelAsPeer long state t peer = true := by
  have wf := reachable.wf
  obtain ⟨length, positive, small⟩ := ieee80211TuToUsec_guard long least most
  have bounds := awdlSyncNextAwUs_bounds wf long now
  unfold awdlCanSendUnicastIn
  simp only [awdlSameChannelAsPeer_eq long state _ offset, length, ieee80211TuToUsec_eaw]
  generalize UInt64.ofInt (1024 * guard) = g at positive small ⊢
  cases shared : sharesSlot state peer (awdlSlot long now state.sync) with
  | false =>
      rw [Bool.not_false, if_pos rfl]
      refine iff_of_false (by omega) fun all => ?_
      rw [all now (inGuard_now now small positive)] at shared
      cases shared
  | true =>
      rw [Bool.not_true, if_neg Bool.false_ne_true]
      by_cases nearEnd : awdlSyncNextAwUs long now state.sync < g
      · rw [if_pos nearEnd]
        cases next : sharesSlot state peer (awdlSlot long (now + 65536) state.sync) with
        | true =>
            rw [if_pos rfl]
            refine iff_of_true rfl fun t inside => ?_
            rcases awdlSlot_inGuard wf long now small inside with same | ⟨_, same⟩ | ⟨near, _⟩
            · rw [same]
              exact shared
            · rw [same]
              exact next
            · exact absurd near (not_near_start_of_near_end wf long now small nearEnd)
        | false =>
            rw [if_neg Bool.false_ne_true]
            refine iff_of_false (by have := toNat_sub_pos nearEnd; omega) fun all => ?_
            obtain ⟨t, inside, slot⟩ := exists_inGuard_next wf long now small nearEnd
            rw [← slot, all t inside] at next
            cases next
      · rw [if_neg nearEnd]
        by_cases nearStart : 65536 - awdlSyncNextAwUs long now state.sync < g
        · rw [if_pos nearStart]
          cases last : sharesSlot state peer (awdlSlot long (now - 65536) state.sync) with
          | true =>
              rw [if_pos rfl]
              refine iff_of_true rfl fun t inside => ?_
              rcases awdlSlot_inGuard wf long now small inside with same | ⟨near, _⟩ | ⟨_, same⟩
              · rw [same]
                exact shared
              · exact absurd near nearEnd
              · rw [same]
                exact last
          | false =>
              rw [if_neg Bool.false_ne_true]
              refine iff_of_false (by have := toNat_sub_pos nearStart; omega) fun all => ?_
              obtain ⟨t, inside, slot⟩ := exists_inGuard_last wf long now small nearStart
              rw [← slot, all t inside] at last
              cases last
        · rw [if_neg nearStart]
          refine iff_of_true rfl fun t inside => ?_
          rcases awdlSlot_inGuard wf long now small inside with same | ⟨near, _⟩ | ⟨near, _⟩
          · rw [same]
            exact shared
          · exact absurd near nearEnd
          · exact absurd near nearStart

/-- A node and a peer that stay on one channel share it beyond the end of a slot. -/
theorem awdlCanSendUnicastIn_eq_zero_iff_static :
    awdlCanSendUnicastIn .bits64
        (awdlInitState [] default [] ⟨2, 0, 0, 0, 0, 1⟩ chanOpclass6 0)
        { (default : AwdlPeer) with
          sequence := awdlChanseqInitStatic chanOpclass6
          syncOffset := 0 } 65000 3 = 0 ∧
      ∀ t, InGuard 65000 3072 t → awdlSameChannelAsPeer .bits64
        (awdlInitState [] default [] ⟨2, 0, 0, 0, 0, 1⟩ chanOpclass6 0) t
        { (default : AwdlPeer) with
          sequence := awdlChanseqInitStatic chanOpclass6
          syncOffset := 0 } = true :=
  ⟨by decide,
    (awdlCanSendUnicastIn_eq_zero_iff .bits64 (.init 0) rfl 65000 (show (1 : Int) ≤ 3 by decide)
      (by decide)).mp (by decide)⟩

end Owl
