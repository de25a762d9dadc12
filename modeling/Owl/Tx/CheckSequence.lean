import Owl.Tx.Headers
import Owl.Wire.CrcBitwise

/-! # The check sequence of an outgoing frame

The builders of `tx.c` hand the start of their buffer to `ieee80211_add_fcs`, and
the buffer starts with the radiotap header. The checksum of a frame with that header
in front is never the one of the 802.11 frame (`crc32_radiotap_append_ne`), so no
frame carries the check sequence a receiver expects.
-/

namespace Owl

/-- The `it_len` field of the radiotap header in front of a frame. -/
def radiotapItLen (frame : List UInt8) : Nat := Octets.ofLE ((frame.drop 2).take 2)

/-- The last four bytes are the checksum of what lies between them and the
radiotap header. -/
def HasCheckSequence (frame : List UInt8) : Prop :=
  frame.drop (frame.length - 4) =
    le32 (crc32 ((frame.take (frame.length - 4)).drop (radiotapItLen frame)))

instance (frame : List UInt8) : Decidable (HasCheckSequence frame) :=
  inferInstanceAs (Decidable (_ = _))

theorem le32_injective : Function.Injective le32 := by
  intro first second same
  rw [← ofLE_le32 first, same, ofLE_le32]

/-- The expected check sequence of a frame behind the radiotap header of `tx.c`. -/
theorem hasCheckSequence_iff (body : List UInt8) {check : List UInt8} (four : check.length = 4) :
    HasCheckSequence (ieee80211InitRadiotapHeader ++ body ++ check) ↔
      check = le32 (crc32 body) := by
  have itLen : radiotapItLen (ieee80211InitRadiotapHeader ++ body ++ check) =
      ieee80211InitRadiotapHeader.length := rfl
  unfold HasCheckSequence
  rw [itLen, List.length_append, four, Nat.add_sub_cancel, List.drop_left, List.take_left,
    List.drop_left]

theorem crc32_radiotap_append_ne (body : List UInt8) :
    crc32 (ieee80211InitRadiotapHeader ++ body) ≠ crc32 body := by
  rw [Ne, crc32_append_eq_iff]
  decide +kernel

/-- A frame closed by `ieee80211_add_fcs` from its radiotap header on fails the check. -/
theorem not_hasCheckSequence_withFcs {layer : Ieee80211State} (fcs : layer.fcs = true)
    (body : List UInt8) :
    ¬HasCheckSequence (withFcs layer (ieee80211InitRadiotapHeader ++ body)) := by
  have four : (le32 (crc32 (ieee80211InitRadiotapHeader ++ body))).length = 4 :=
    Octets.length_toLE 4 _
  rw [withFcs, if_pos fcs, ieee80211AddFcs, hasCheckSequence_iff body four]
  exact fun same => crc32_radiotap_append_ne body (le32_injective same)

/-- No frame of either kind ends with the checksum of its 802.11 frame. -/
theorem checkSequence_never_correct (long : LongWidth) (clock : TxClock) (type : AwdlActionType)
    (src dst : EtherAddr) (payload : List UInt8) (state : AwdlState) {layer : Ieee80211State}
    (fcs : layer.fcs = true) :
    ¬HasCheckSequence (awdlInitFullActionFrame long clock state layer type).1 ∧
      ¬HasCheckSequence (awdlInitFullDataFrame src dst payload state layer).1 := by
  constructor
  · dsimp only [awdlInitFullActionFrame, ieee80211InitAwdlActionHdr, ieee80211InitAwdlHdr,
      ieee80211StateNextSequenceNumber]
    rw [List.append_assoc, List.append_assoc]
    exact not_hasCheckSequence_withFcs fcs _
  · dsimp only [awdlInitFullDataFrame, ieee80211InitAwdlDataHdr, ieee80211InitAwdlHdr,
      ieee80211StateNextSequenceNumber, awdlInitData, awdlStateNextSequenceNumber]
    rw [List.append_assoc, List.append_assoc, List.append_assoc]
    exact not_hasCheckSequence_withFcs fcs _

theorem checkSequence_never_correct_fresh :
    ¬HasCheckSequence (awdlInitFullActionFrame .bits64 ⟨5, 6⟩ sampleState ⟨0, true⟩ .mif).1 ∧
      ¬HasCheckSequence (awdlInitFullDataFrame .broadcast .broadcast [1, 2, 3] sampleState
        ⟨0, true⟩).1 :=
  checkSequence_never_correct .bits64 ⟨5, 6⟩ .mif .broadcast .broadcast [1, 2, 3] sampleState rfl

/-- A data frame without payload: the check sequence differs from the expected one. -/
theorem checkSequence_wrong_empty_payload :
    ¬∀ (src dst : EtherAddr) (payload : List UInt8) (state : AwdlState) (layer : Ieee80211State),
      layer.fcs = true →
        HasCheckSequence (awdlInitFullDataFrame src dst payload state layer).1 := by
  intro correct
  have closed := correct .broadcast .broadcast [] sampleState ⟨0, true⟩ rfl
  revert closed
  decide +kernel

end Owl
