import Owl.Awdl.Peers
import Owl.Awdl.Sync

/-! # The node state

The model of `state.c` and `version.c`: the complete state of a node and of its
802.11 layer, with the initial values and the sequence numbers.
-/

namespace Owl

/-- `awdl_version`. -/
def awdlVersion (major minor : Nat) : UInt8 :=
  UInt8.ofNat ((major <<< 4) &&& 0xf0) ||| UInt8.ofNat (minor &&& 0x0f)

/-- `AWDL_DEVCLASS_MACOS`. -/
def awdlDevclassMacos : UInt8 := 1

/-- `struct awdl_stats`. -/
structure AwdlStats where
  txAction : UInt64
  txData : UInt64
  txDataUnicast : UInt64
  txDataMulticast : UInt64
  rxAction : UInt64
  rxData : UInt64
  rxUnknown : UInt64
  deriving DecidableEq

/-- `awdl_stats_init`. -/
def awdlStatsInit : AwdlStats := ⟨0, 0, 0, 0, 0, 0, 0⟩

/-- `struct awdl_state`; `name` is the whole character array, and of a callback
only whether it is registered. -/
structure AwdlState where
  selfAddress : EtherAddr
  name : List UInt8
  version : UInt8
  devClass : UInt8
  sequenceNumber : UInt16
  psfInterval : UInt16
  dst : EtherAddr
  tlvCb : Bool
  peerCb : Bool
  peerRemoveCb : Bool
  filterRssi : Bool
  rssiThreshold : Int8
  rssiGrace : Int8
  election : AwdlElectionState
  sync : AwdlSyncState
  channel : AwdlChannelState
  peers : AwdlPeerState
  stats : AwdlStats

/-- `strlen` of a character array. -/
def strlen (array : List UInt8) : Nat := (array.takeWhile (· != 0)).length

/-- `strncpy`: exactly `length` bytes are written, zeros after the end of the string. -/
def strncpy (array string : List UInt8) (length : Nat) : List UInt8 :=
  overwrite array 0 ((string ++ List.replicate length 0).take length)

/-- `awdl_init_state`; `name` and `election` are what the memory held. -/
def awdlInitState (name : List UInt8) (election : AwdlElectionState) (hostname : List UInt8)
    (self : EtherAddr) (chan : AwdlChan) (now : UInt64) : AwdlState where
  selfAddress := self
  name := strncpy name hostname hostNameLengthMax
  version := awdlVersion 3 4
  devClass := awdlDevclassMacos
  sequenceNumber := 0
  psfInterval := 110
  dst := .broadcast
  tlvCb := false
  peerCb := false
  peerRemoveCb := false
  filterRssi := true
  rssiThreshold := -65
  rssiGrace := -5
  sync := awdlSyncStateInit now
  channel :=
    { enc := .opclass
      master := chan
      current := chanNull
      sequence := awdlChanseqInitStatic chan }
  election := awdlElectionStateInit election self
  peers := awdlPeerStateInit
  stats := awdlStatsInit

/-- `awdl_state_next_sequence_number`. -/
def awdlStateNextSequenceNumber (state : AwdlState) : UInt16 × AwdlState :=
  (state.sequenceNumber, { state with sequenceNumber := state.sequenceNumber + 1 })

/-- `struct ieee80211_state`. -/
structure Ieee80211State where
  sequenceNumber : UInt16
  fcs : Bool

/-- `ieee80211_init_state`. -/
def ieee80211InitState : Ieee80211State where
  sequenceNumber := 0
  fcs := false

/-- `ieee80211_state_next_sequence_number`. -/
def ieee80211StateNextSequenceNumber (state : Ieee80211State) : UInt16 × Ieee80211State :=
  (state.sequenceNumber,
    { state with sequenceNumber := (state.sequenceNumber + 1) &&& 0x0fff })

end Owl
