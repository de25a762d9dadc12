import Owl.Rx.Data
import Owl.Wire.Crc32

/-! # The frames of `tx.c`

Every builder of the source writes a packed structure field by field and returns
its size; here it is the byte string of the structure. The clock values that the
builders read are arguments.
-/

namespace Owl

/-- `AWDL_BSSID`. -/
def awdlBssid : EtherAddr := ⟨0x00, 0x25, 0x00, 0xff, 0x94, 0x73⟩

/-- `ETH_P_IPV6`. -/
def ethPIpv6 : UInt16 := 0x86dd

/-- `AWDL_DATA_HEAD`. -/
def awdlDataHead : UInt16 := 0x0403

/-- `AWDL_DATA_PAD`. -/
def awdlDataPad : UInt16 := 0x0000

/-- `AWDL_DNS_SHORT_LOCAL`. -/
def awdlDnsShortLocal : UInt16 := 0xc00c

/-- A 16-bit field in little-endian order. -/
def le16 (value : UInt16) : List UInt8 := Octets.toLE 2 value.toNat

/-- A 16-bit field in big-endian order. -/
def be16 (value : UInt16) : List UInt8 := Octets.toBE 2 value.toNat

/-- A 32-bit field in little-endian order. -/
def le32 (value : UInt32) : List UInt8 := Octets.toLE 4 value.toNat

/-- A TLV: type, length in little-endian order, value. -/
def tlvBytes (type : AwdlTlv) (value : List UInt8) : List UInt8 :=
  type.toByte :: le16 (UInt16.ofNat value.length) ++ value

/-- `awdl_init_data`. -/
def awdlInitData (state : AwdlState) : List UInt8 × AwdlState :=
  let (seq, state) := awdlStateNextSequenceNumber state
  (le16 awdlDataHead ++ le16 seq ++ le16 awdlDataPad ++ be16 ethPIpv6, state)

/-- `awdl_init_action`. -/
def awdlInitAction (now : UInt64) (type : AwdlActionType) : List UInt8 :=
  let steadyTime := now.toUInt32
  ieee80211VendorSpecific :: awdlOui ++ [awdlType, awdlVersionCompat, type.toByte, 0] ++
    le32 steadyTime ++ le32 steadyTime

/-- `awdl_init_chanseq`. -/
def awdlInitChanseq (state : AwdlState) : List UInt8 :=
  let encLen := awdlChanEncodingLength state.channel.enc
  [UInt8.ofNat (awdlChanseqLength - 1), state.channel.enc.toByte, 0, 3] ++ le16 0xffff ++
    (List.ofFn fun i => (state.channel.sequence i).val.take encLen).flatten

/-- The remaining length of the availability window in the sync parameters. -/
def remainingAwLength (awPeriod txDownCounter : UInt16) (presenceMode : UInt8) : UInt16 :=
  let used : Int := awPeriod.toNat * presenceMode.toNat - txDownCounter.toNat
  if (awPeriod.toNat : Int) < used then 0 else UInt16.ofInt (awPeriod.toNat - used)

/-- `awdl_init_sync_params_tlv`. -/
def awdlInitSyncParamsTlv (long : LongWidth) (now : UInt64) (state : AwdlState) : List UInt8 :=
  let sync := state.sync
  let txDownCounter := awdlSyncNextAwTu long now sync
  let nextAwSeq := awdlSyncCurrentAw long now sync
  let ext := sync.presenceMode - 1
  tlvBytes .synchronizationParameters
    ([awdlChanNum state.channel.current state.channel.enc] ++ le16 txDownCounter ++
      [awdlChanNum state.channel.master state.channel.enc, 0] ++
      le16 sync.awPeriod ++ le16 state.psfInterval ++ le16 0x1800 ++ le16 sync.awPeriod ++
      le16 sync.awPeriod ++
      le16 (remainingAwLength sync.awPeriod txDownCounter sync.presenceMode) ++
      [ext, ext, ext, ext] ++ state.election.masterAddr.octets ++ [sync.presenceMode, 0] ++
      le16 nextAwSeq ++ le16 nextAwSeq ++ awdlInitChanseq state ++ [0, 0])

/-- `awdl_init_chanseq_tlv`. -/
def awdlInitChanseqTlv (state : AwdlState) : List UInt8 :=
  tlvBytes .chanSeq (awdlInitChanseq state ++ [0, 0, 0])

/-- `awdl_init_election_params_tlv`. -/
def awdlInitElectionParamsTlv (state : AwdlState) : List UInt8 :=
  tlvBytes .electionParameters
    ([0] ++ le16 0 ++ [state.election.height.toUInt8, 0] ++ state.election.masterAddr.octets ++
      le32 state.election.masterMetric ++ le32 state.election.selfMetric ++ [0, 0])

/-- `awdl_init_election_params_v2_tlv`. -/
def awdlInitElectionParamsV2Tlv (state : AwdlState) : List UInt8 :=
  tlvBytes .electionParametersV2
    (state.election.masterAddr.octets ++ state.election.syncAddr.octets ++
      le32 state.election.masterCounter ++ le32 state.election.height ++
      le32 state.election.masterMetric ++ le32 state.election.selfMetric ++ le32 0 ++ le32 0 ++
      le32 state.election.selfCounter)

/-- `awdl_init_service_params_tlv`. -/
def awdlInitServiceParamsTlv : List UInt8 :=
  tlvBytes .serviceParameters ([0, 0, 0] ++ le16 0 ++ le32 0)

/-- `awdl_init_ht_capabilities_tlv`. -/
def awdlInitHtCapabilitiesTlv : List UInt8 :=
  tlvBytes .enhancedDataRateCapabilities (le16 0 ++ le16 0x11ce ++ [0x1b, 0xff] ++ le16 0)

/-- The social channel bits for the number of the master channel. -/
def socialChannels (chan : AwdlChan) : UInt16 :=
  if awdlChanNum chan .opclass = 6 then 0x0001
  else if awdlChanNum chan .opclass = 44 then 0x0002
  else 0x0004

/-- `awdl_init_data_path_state_tlv`. -/
def awdlInitDataPathStateTlv (state : AwdlState) : List UInt8 :=
  tlvBytes .dataPathState
    (le16 0x8f24 ++ [88, 48, 0] ++ le16 (socialChannels state.channel.master) ++
      state.selfAddress.octets ++ le16 0x0000)

/-- `awdl_init_arpa_tlv`. -/
def awdlInitArpaTlv (state : AwdlState) : List UInt8 :=
  let len := strlen state.name
  tlvBytes .arpa ([3, UInt8.ofNat len] ++ state.name.take len ++ be16 awdlDnsShortLocal)

/-- `awdl_init_version_tlv`. -/
def awdlInitVersionTlv (state : AwdlState) : List UInt8 :=
  tlvBytes .version [state.version, state.devClass]

/-- `ieee80211_init_radiotap_header`: the rate of 12 Mbit/s as the only field. -/
def ieee80211InitRadiotapHeader : List UInt8 :=
  0 :: 0 :: le16 9 ++ le32 ((1 : UInt32) <<< 2) ++ [2 * 12]

/-- `ieee80211_init_awdl_hdr`. -/
def ieee80211InitAwdlHdr (src dst : EtherAddr) (state : Ieee80211State) (type : UInt16) :
    List UInt8 × Ieee80211State :=
  let (seq, state) := ieee80211StateNextSequenceNumber state
  (le16 type ++ le16 0 ++ dst.octets ++ src.octets ++ awdlBssid.octets ++
    le16 (UInt16.ofNat (seq.toNat <<< 4)), state)

/-- `ieee80211_init_awdl_action_hdr`. -/
def ieee80211InitAwdlActionHdr (src dst : EtherAddr) (state : Ieee80211State) :
    List UInt8 × Ieee80211State :=
  ieee80211InitAwdlHdr src dst state ieee80211Action

/-- `ieee80211_init_awdl_data_hdr`. -/
def ieee80211InitAwdlDataHdr (src dst : EtherAddr) (state : Ieee80211State) :
    List UInt8 × Ieee80211State :=
  ieee80211InitAwdlHdr src dst state ieee80211Data

/-- `llc_init_awdl_hdr`. -/
def llcInitAwdlHdr : List UInt8 :=
  [0xaa, 0xaa, 0x03] ++ awdlOui ++ be16 awdlLlcProtocolId

/-- `ieee80211_add_fcs`: the check sequence appended to a frame. -/
def ieee80211AddFcs (frame : List UInt8) : List UInt8 := le32 (crc32 frame)

/-- A frame with its check sequence when the 802.11 layer has to add one. -/
def withFcs (state : Ieee80211State) (frame : List UInt8) : List UInt8 :=
  if state.fcs then frame ++ ieee80211AddFcs frame else frame

/-- The clock values that the builders of an action frame read. -/
structure TxClock where
  action : UInt64
  sync : UInt64

/-- The TLVs of an action frame. -/
def actionTlvs (long : LongWidth) (now : UInt64) (state : AwdlState) (type : AwdlActionType) :
    List UInt8 :=
  awdlInitSyncParamsTlv long now state ++ awdlInitElectionParamsTlv state ++
    awdlInitChanseqTlv state ++ awdlInitElectionParamsV2Tlv state ++ awdlInitServiceParamsTlv ++
    (if type = .mif then awdlInitHtCapabilitiesTlv else []) ++
    (if type = .mif then awdlInitArpaTlv state else []) ++
    awdlInitDataPathStateTlv state ++ awdlInitVersionTlv state

/-- `awdl_init_full_action_frame`. -/
def awdlInitFullActionFrame (long : LongWidth) (clock : TxClock) (state : AwdlState)
    (ieee80211State : Ieee80211State) (type : AwdlActionType) : List UInt8 × Ieee80211State :=
  let (hdr, ieee80211State) :=
    ieee80211InitAwdlActionHdr state.selfAddress state.dst ieee80211State
  (withFcs ieee80211State (ieee80211InitRadiotapHeader ++ hdr ++ awdlInitAction clock.action type ++
    actionTlvs long clock.sync state type), ieee80211State)

/-- `awdl_init_full_data_frame`. -/
def awdlInitFullDataFrame (src dst : EtherAddr) (payload : List UInt8) (state : AwdlState)
    (ieee80211State : Ieee80211State) : List UInt8 × AwdlState × Ieee80211State :=
  let (hdr, ieee80211State) := ieee80211InitAwdlDataHdr src dst ieee80211State
  let (data, state) := awdlInitData state
  (withFcs ieee80211State (ieee80211InitRadiotapHeader ++ hdr ++ llcInitAwdlHdr ++ data ++ payload),
    state, ieee80211State)

end Owl
