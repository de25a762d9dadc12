import Owl.Awdl.Schedule
import Owl.Rx.Isolation

/-! # Announced channels

A channel sequence TLV names the encoding of its entries. The handler keeps the
raw bytes of the entries and forgets the encoding; the scheduler reads them under
the encoding of the node. In the legacy encoding the channel number is the second
byte of an entry, in the encoding of the node it is the first
(`channelUsed_announced_iff`).
-/

namespace Owl

/-- The channel number of a peer that `awdl_same_channel_as_peer` uses in a slot. -/
def channelUsed (state : AwdlState) (peer : AwdlPeer) (slot : Fin 16) : UInt8 :=
  awdlChanNum (peer.sequence slot) state.channel.enc

theorem awdlSameChannelAsPeer_channelUsed (long : LongWidth) (state : AwdlState) (now : UInt64)
    (peer : AwdlPeer) :
    awdlSameChannelAsPeer long state now peer =
      (awdlChanNum (state.channel.sequence (awdlSlot long now state.sync)) state.channel.enc != 0 &&
        awdlChanNum (state.channel.sequence (awdlSlot long now state.sync)) state.channel.enc ==
          channelUsed state peer (awdlSlot long (now + peer.syncOffset) state.sync)) :=
  rfl

/-- The bytes of an entry of a channel sequence TLV. -/
def announcedBytes (val : Buf) (encoding : AwdlChanEncoding) (slot : Fin 16) : List UInt8 :=
  (val.view.drop (6 + slot.val * awdlChanEncodingLength encoding)).take
    (awdlChanEncodingLength encoding)

/-- An entry of a channel sequence TLV as a channel. -/
def announcedChan (val : Buf) (encoding : AwdlChanEncoding) (slot : Fin 16) : AwdlChan :=
  ⟨(announcedBytes val encoding slot).getD 0 0, (announcedBytes val encoding slot).getD 1 0⟩

/-- The encodings that the handler accepts have names. -/
theorem awdlChanEncodingSize_pos {byte : UInt8} (supported : ¬awdlChanEncodingSize byte < 1) :
    ∃ encoding : AwdlChanEncoding, byte = encoding.toByte ∧
      (awdlChanEncodingSize byte).toNat = awdlChanEncodingLength encoding := by
  unfold awdlChanEncodingSize AwdlChanEncoding.ofByte? at supported ⊢
  by_cases simple : byte = 0
  · exact ⟨.simple, simple, by rw [if_pos simple]; rfl⟩
  by_cases legacy : byte = 1
  · exact ⟨.legacy, legacy, by rw [if_neg simple, if_pos legacy]; rfl⟩
  by_cases opclass : byte = 3
  · exact ⟨.opclass, opclass, by rw [if_neg simple, if_neg legacy, if_pos opclass]; rfl⟩
  · rw [if_neg simple, if_neg legacy, if_neg opclass] at supported
    exact absurd (by decide) supported

/-- The loop of the handler cuts the value into entries. -/
theorem readEntries_eq_some {val : Buf} {size left offset : Nat} {entries : List (List UInt8)}
    (read : readEntries val size left offset = some entries) {i : Nat} (inside : i < left) :
    (entries.getD i []).length = size ∧
      entries.getD i [] = (val.view.drop (offset + i * size)).take size := by
  induction left generalizing offset entries i with
  | zero => exact absurd inside (Nat.not_lt_zero i)
  | succ left ih =>
      rw [readEntries] at read
      obtain ⟨entry, first, read⟩ := Option.bind_eq_some_iff.mp read
      obtain ⟨others, rest, read⟩ := Option.bind_eq_some_iff.mp read
      cases read
      cases i with
      | zero =>
          obtain ⟨fits, bytes⟩ := readBytes_eq_some first
          rw [List.getD_cons_zero, Nat.zero_mul, Nat.add_zero]
          refine ⟨?_, bytes⟩
          rw [bytes, List.length_take, List.length_drop]
          omega
      | succ i =>
          obtain ⟨length, bytes⟩ := ih rest (Nat.lt_of_succ_lt_succ inside)
          rw [List.getD_cons_succ]
          refine ⟨length, ?_⟩
          rw [bytes, Nat.succ_mul, Nat.add_assoc, Nat.add_comm size]

/-- The entries lie inside the value and their first bytes are kept. -/
structure KeepsEntries (val : Buf) (encoding : AwdlChanEncoding) (sequence : AwdlChanseq) : Prop
    where
  length : ∀ slot, (announcedBytes val encoding slot).length = awdlChanEncodingLength encoding
  first : ∀ slot, ∃ rest, (sequence slot).val0 = (announcedBytes val encoding slot).getD 0 rest

theorem readChannels_eq_some {val : Buf} {encoding : AwdlChanEncoding}
    {list sequence : AwdlChanseq}
    (read : readChannels val (awdlChanEncodingLength encoding) list = some sequence) :
    KeepsEntries val encoding sequence := by
  unfold readChannels at read
  obtain ⟨entries, cut, rfl⟩ := Option.map_eq_some_iff.mp read
  have entry (slot : Fin 16) := readEntries_eq_some cut slot.isLt
  refine ⟨fun slot => ?_, fun slot => ⟨(list slot).val0, ?_⟩⟩
  · obtain ⟨length, bytes⟩ := entry slot
    rw [announcedBytes, ← bytes]
    exact length
  · rw [announcedBytes, ← (entry slot).2]

/-- A handler that accepts a channel sequence keeps its entries. -/
theorem awdlHandleChanseqTlv_accepted {list : AwdlChanseq} {src next : AwdlPeer} {val : Buf}
    {state : AwdlState} (accepted : awdlHandleChanseqTlv list src val state = (.ok, next)) :
    ∃ encoding : AwdlChanEncoding, readU8 val 1 = some encoding.toByte ∧
      KeepsEntries val encoding next.sequence := by
  have fine : 0 ≤ ((.ok, next) : RxResult × AwdlPeer).1.code := Int.le_refl 0
  unfold awdlHandleChanseqTlv at accepted
  obtain ⟨count, _, accepted⟩ := checkedRead_accepted accepted fine
  obtain ⟨_, accepted⟩ := unexpectedValue_accepted accepted fine
  obtain ⟨duplicateCount, _, accepted⟩ := checkedRead_accepted accepted fine
  obtain ⟨_, accepted⟩ := unexpectedValue_accepted accepted fine
  obtain ⟨stepCount, _, accepted⟩ := checkedRead_accepted accepted fine
  obtain ⟨_, accepted⟩ := unexpectedValue_accepted accepted fine
  obtain ⟨fillChannel, _, accepted⟩ := checkedRead_accepted accepted fine
  obtain ⟨_, accepted⟩ := unexpectedValue_accepted accepted fine
  obtain ⟨byte, announced, accepted⟩ := checkedRead_accepted accepted fine
  obtain ⟨supported, accepted⟩ := unexpectedValue_accepted accepted fine
  obtain ⟨encoding, rfl, size⟩ := awdlChanEncodingSize_pos supported
  rw [size] at accepted
  obtain ⟨sequence, read, accepted⟩ := checkedRead_accepted accepted fine
  cases accepted
  exact ⟨encoding, announced, readChannels_eq_some read⟩

/-- The number under which the scheduler knows an entry is its first byte. -/
theorem channelUsed_eq {val : Buf} {encoding : AwdlChanEncoding} {peer : AwdlPeer}
    {state : AwdlState} (own : state.channel.enc = .opclass)
    (kept : KeepsEntries val encoding peer.sequence) (slot : Fin 16) :
    channelUsed state peer slot = (announcedChan val encoding slot).val0 := by
  obtain ⟨rest, first⟩ := kept.first slot
  have inside : 0 < (announcedBytes val encoding slot).length := by
    rw [kept.length slot]
    cases encoding <;> decide
  rw [channelUsed, own, awdlChanNum, first, announcedChan, List.getD_eq_getElem?_getD,
    List.getD_eq_getElem?_getD, List.getElem?_eq_getElem inside]
  rfl

/-- **When announced channels are the channels used.** After an accepted channel
sequence, the channel number of a slot is the announced one unless the legacy
encoding is announced and the two bytes of the entry differ. -/
theorem channelUsed_announced_iff (list : AwdlChanseq) (src next : AwdlPeer) (val : Buf)
    (state : AwdlState) (own : state.channel.enc = .opclass)
    (accepted : awdlHandleChanseqTlv list src val state = (.ok, next)) :
    ∃ encoding : AwdlChanEncoding, readU8 val 1 = some encoding.toByte ∧
      ∀ slot, channelUsed state next slot =
          awdlChanNum (announcedChan val encoding slot) encoding ↔
        (encoding = .legacy →
          (announcedChan val encoding slot).val0 = (announcedChan val encoding slot).val1) := by
  obtain ⟨encoding, announced, kept⟩ := awdlHandleChanseqTlv_accepted accepted
  refine ⟨encoding, announced, fun slot => ?_⟩
  rw [channelUsed_eq own kept slot]
  cases encoding with
  | simple => exact ⟨fun _ legacy => (by cases legacy), fun _ => rfl⟩
  | legacy => exact ⟨fun same _ => same, fun same => same rfl⟩
  | opclass => exact ⟨fun _ legacy => (by cases legacy), fun _ => rfl⟩

/-- A channel sequence in the legacy encoding: channel 149 with the flags 3 in every slot. -/
def sampleLegacyChanseq : List UInt8 :=
  [15, 1, 0, 3, 0xff, 0xff] ++ (List.replicate 16 [3, 149]).flatten

theorem channelUsed_announced_legacy :
    ∃ next, awdlHandleChanseqTlv (fun _ => chanNull) default (bufNewConst sampleLegacyChanseq)
        sampleState = (.ok, next) ∧
      ∃ encoding : AwdlChanEncoding,
        readU8 (bufNewConst sampleLegacyChanseq) 1 = some encoding.toByte ∧
        ∀ slot, channelUsed sampleState next slot =
            awdlChanNum (announcedChan (bufNewConst sampleLegacyChanseq) encoding slot) encoding ↔
          (encoding = .legacy →
            (announcedChan (bufNewConst sampleLegacyChanseq) encoding slot).val0 =
              (announcedChan (bufNewConst sampleLegacyChanseq) encoding slot).val1) :=
  ⟨_, rfl, channelUsed_announced_iff _ _ _ _ _ rfl rfl⟩

/-- The scheduler takes the flags for the channel. -/
theorem channelUsed_flags :
    sampleState.channel.enc = .opclass ∧
      ∃ next, awdlHandleChanseqTlv (fun _ => chanNull) default (bufNewConst sampleLegacyChanseq)
          sampleState = (.ok, next) ∧
        readU8 (bufNewConst sampleLegacyChanseq) 1 = some AwdlChanEncoding.legacy.toByte ∧
        awdlChanNum (announcedChan (bufNewConst sampleLegacyChanseq) .legacy 0) .legacy = 149 ∧
        channelUsed sampleState next 0 = 3 := by
  refine ⟨rfl, _, rfl, ?_, ?_, ?_⟩ <;> decide

end Owl
