import Owl.Rx.Isolation
import Owl.Tx.Frames

/-! # The headers of a sent frame

Fields that the builders of `tx.c` write are read back by the readers of
`wire.c`, and the radiotap and 802.11 headers of a sent frame are taken apart
again by `parseFrame` (`parseFrame_tx`).
-/

namespace Owl

variable {platform : Platform} {env : RxEnv}

/-! ## Fields -/

@[simp] theorem length_le16 (value : UInt16) : (le16 value).length = 2 := Octets.length_toLE _ _

@[simp] theorem length_be16 (value : UInt16) : (be16 value).length = 2 := Octets.length_toBE _ _

theorem ofLE_le16 (value : UInt16) : UInt16.ofNat (Octets.ofLE (le16 value)) = value := by
  have small : value.toNat < 256 ^ 2 := value.toNat_lt
  rw [le16, Octets.ofLE_toLE, Nat.mod_eq_of_lt small, UInt16.ofNat_toNat]

theorem ofBE_be16 (value : UInt16) : UInt16.ofNat (Octets.ofBE (be16 value)) = value := by
  have small : value.toNat < 256 ^ 2 := value.toNat_lt
  rw [be16, Octets.ofBE_toBE, Nat.mod_eq_of_lt small, UInt16.ofNat_toNat]

/-- Two bytes are the field that was read from them. -/
theorem le16_ofLE {octets : List UInt8} (length : octets.length = 2) :
    le16 (UInt16.ofNat (Octets.ofLE octets)) = octets := by
  have small : Octets.ofLE octets < 2 ^ 16 := by
    have bound := Octets.ofLE_lt octets
    rw [length] at bound
    exact bound
  rw [le16, UInt16.toNat_ofNat', Nat.mod_eq_of_lt small, ← length, Octets.toLE_ofLE]

theorem be16_ofBE {octets : List UInt8} (length : octets.length = 2) :
    be16 (UInt16.ofNat (Octets.ofBE octets)) = octets := by
  have small : Octets.ofBE octets < 2 ^ 16 := by
    have bound := Octets.ofBE_lt octets
    rw [length] at bound
    exact bound
  rw [be16, UInt16.toNat_ofNat', Nat.mod_eq_of_lt small, ← length, Octets.toBE_ofBE]

theorem ofLE_le32 (value : UInt32) : UInt32.ofNat (Octets.ofLE (le32 value)) = value := by
  have small : value.toNat < 256 ^ 4 := value.toNat_lt
  rw [le32, Octets.ofLE_toLE, Nat.mod_eq_of_lt small, UInt32.ofNat_toNat]

section Written

variable {buf : Buf} {front rest : List UInt8} {size offset : Nat}
  (viewed : buf.view = front ++ rest) (length : front.length = size)

include viewed length

/-- A field that has been written at an offset is read back there. -/
theorem readLe16_written {value : UInt16} (inside : offset + 2 ≤ size)
    (written : (front.drop offset).take 2 = le16 value) : readLe16 buf offset = some value := by
  rw [readLe16_front viewed length inside, written, ofLE_le16]

theorem readLe32_written {value : UInt32} (inside : offset + 4 ≤ size)
    (written : (front.drop offset).take 4 = le32 value) : readLe32 buf offset = some value := by
  rw [readLe32_front viewed length inside, written, ofLE_le32]

theorem readEtherAddr_written {addr : EtherAddr} (inside : offset + 6 ≤ size)
    (written : (front.drop offset).take EtherAddr.length = addr.octets) :
    readEtherAddr buf offset = some addr := by
  rw [readEtherAddr_front viewed length inside, written, EtherAddr.ofOctets_octets]

end Written

/-! ## The radiotap header -/

/-- What is assumed of the radiotap library: it iterates over the header that the
transmitter writes, whose only field is the rate. -/
structure AcceptsTxHeader (platform : Platform) : Prop where
  init : ∀ rest, 0 ≤ (platform.radiotap (ieee80211InitRadiotapHeader ++ rest)).init
  last : ∀ rest, (platform.radiotap (ieee80211InitRadiotapHeader ++ rest)).last = radiotapEnd
  rate : ∀ rest, ∀ arg ∈ (platform.radiotap (ieee80211InitRadiotapHeader ++ rest)).args,
    arg.isRadiotapNs = true → arg.index = 2

/-- Fields other than the flags and the signal strength are skipped. -/
theorem foldl_radiotapField {args : List RadiotapArg} (fields : Int8 × UInt8)
    (rate : ∀ arg ∈ args, arg.isRadiotapNs = true → arg.index = 2) :
    args.foldl radiotapField fields = fields := by
  induction args with
  | nil => rfl
  | cons arg args ih =>
      have skipped : radiotapField fields arg = fields := by
        unfold radiotapField
        split
        · rename_i own
          rw [rate arg List.mem_cons_self own]
          rfl
        · rfl
      rw [List.foldl_cons, skipped]
      exact ih fun other member => rate other (List.mem_cons_of_mem _ member)

theorem radiotapParse_tx (accepts : AcceptsTxHeader platform) (rest : List UInt8) (rssi : Int8)
    (flags : UInt8) :
    radiotapParse platform (bufNewConst (ieee80211InitRadiotapHeader ++ rest)) rssi flags =
      some (rssi, flags) := by
  unfold radiotapParse
  rw [view_bufNewConst]
  dsimp only
  rw [if_neg (Int.not_lt.mpr (accepts.init rest)), if_neg (not_not.mpr (accepts.last rest)),
    foldl_radiotapField _ (accepts.rate rest)]

/-- The iterator for single-byte fields accepts the header of a sent frame. -/
theorem samplePlatform_acceptsTxHeader : AcceptsTxHeader samplePlatform := by
  have walk : ∀ rest, samplePlatform.radiotap (ieee80211InitRadiotapHeader ++ rest) =
      ⟨0, [⟨true, 2, 24⟩], radiotapEnd⟩ := by
    intro rest
    have length : (ieee80211InitRadiotapHeader ++ rest).length = 9 + rest.length :=
      List.length_append
    have announced : radiotapLen (ieee80211InitRadiotapHeader ++ rest) = 9 := rfl
    have version : (ieee80211InitRadiotapHeader ++ rest).getD 0 0 = 0 := rfl
    have present : Octets.ofLE (((ieee80211InitRadiotapHeader ++ rest).drop 4).take 4) = 4 := rfl
    have data : (ieee80211InitRadiotapHeader ++ rest).drop 8 = 24 :: rest := rfl
    have rate : [1, 2, 5].filter (Nat.testBit 4) = [2] := by decide
    dsimp only [samplePlatform, singleByteRadiotap]
    rw [length, announced, version, present, data, rate, if_neg]
    · rfl
    · rintro (short | wrong | short)
      · omega
      · exact wrong rfl
      · omega
  refine ⟨fun rest => ?_, fun rest => ?_, fun rest arg member _ => ?_⟩
  · rw [walk]
  · rw [walk]
  · rw [walk] at member
    rw [List.mem_singleton.mp member]

/-! ## The 802.11 header -/

theorem length_ieee80211InitAwdlHdr (src dst : EtherAddr) (sender : Ieee80211State)
    (type : UInt16) : (ieee80211InitAwdlHdr src dst sender type).1.length = ieee80211HdrSize := rfl

theorem ofBytes_ieee80211InitAwdlHdr (src dst : EtherAddr) (sender : Ieee80211State)
    (type : UInt16) (rest : List UInt8) :
    Ieee80211Hdr.ofBytes ((ieee80211InitAwdlHdr src dst sender type).1 ++ rest) =
      ⟨type, dst, src⟩ := by
  have control : ((ieee80211InitAwdlHdr src dst sender type).1 ++ rest).take 2 = le16 type := rfl
  unfold Ieee80211Hdr.ofBytes
  rw [control, ofLE_le16]
  rfl

/-- **The headers of a sent frame are taken apart again.** -/
theorem parseFrame_tx (accepts : AcceptsTxHeader platform) (flags : env.flags = 0)
    {src dst : EtherAddr} {state : AwdlState} (foreign : src ≠ state.selfAddress)
    (sender : Ieee80211State) (type : UInt16) (body : List UInt8) :
    ∃ buf, buf.view = body ∧
      parseFrame platform env (bufNewConst (ieee80211InitRadiotapHeader ++
        ((ieee80211InitAwdlHdr src dst sender type).1 ++ body))) state =
          .ok ⟨buf, ⟨type, dst, src⟩, env.rssi⟩ := by
  generalize shown : (ieee80211InitAwdlHdr src dst sender type).1 ++ body = rest
  have enough : ieee80211HdrSize ≤ rest.length := by
    rw [← shown, List.length_append, length_ieee80211InitAwdlHdr]
    exact Nat.le_add_right _ _
  have length : Octets.ofLE (((ieee80211InitRadiotapHeader ++ rest).drop 2).take 2) = 9 := rfl
  have within : 9 ≤ (bufNewConst (ieee80211InitRadiotapHeader ++ rest)).view.length := by
    rw [view_bufNewConst, List.length_append]
    exact Nat.le_add_right 9 _
  obtain ⟨frame, strip, viewed⟩ := bufStrip_of_le within
  have inner : frame.view = rest := by
    rw [viewed, view_bufNewConst]
    rfl
  rw [← inner] at enough
  obtain ⟨buf, stripHdr, viewedHdr⟩ := bufStrip_of_le enough
  have read : readBytes frame 0 ieee80211HdrSize = some (rest.take ieee80211HdrSize) := by
    rw [← inner]
    exact @readBytes_of_le frame 0 ieee80211HdrSize (by rw [Nat.zero_add]; exact enough)
  have hdr : Ieee80211Hdr.ofBytes (rest.take ieee80211HdrSize) = ⟨type, dst, src⟩ := by
    rw [Ieee80211Hdr.ofBytes_take (Nat.le_refl _), ← shown, ofBytes_ieee80211InitAwdlHdr]
  refine ⟨buf, ?_, ?_⟩
  · rw [viewedHdr, inner, ← shown]
    exact List.drop_left' (length_ieee80211InitAwdlHdr src dst sender type)
  · unfold parseFrame
    rw [radiotapParse_tx accepts, flags]
    dsimp only
    rw [view_bufNewConst, length, strip]
    dsimp only [checkFcs]
    rw [if_neg (by decide), if_neg (by decide)]
    dsimp only
    rw [read]
    dsimp only
    rw [hdr, if_neg foreign, stripHdr]

end Owl
