import Owl.Rx.Tlv

/-! # Action frames

`awdlRxAction` checks the action header and the signal strength, adds the sender
to the peer table, lets every TLV of the frame update the record of the sender,
and adds the sender again so that a record that has become complete turns valid.

The source works on the record through a pointer into the table. Here the record
is taken out after the first add and written back where the loop is left.
-/

namespace Owl

/-- One argument that the radiotap iterator reports: whether it belongs to the
radiotap namespace, its index, and the byte that `this_arg` points to. -/
structure RadiotapArg where
  isRadiotapNs : Bool
  index : Nat
  value : UInt8

/-- What the radiotap iterator does on a buffer: the result of its
initialisation, the arguments of the successful steps, and the result of the
step that ends the loop. -/
structure RadiotapWalk where
  init : Int
  args : List RadiotapArg
  last : Int

/-- What a program is compiled and linked with: the hash function of the peer
table, the width of `unsigned long`, and the radiotap library. -/
structure Platform where
  hash : EtherAddr → UInt64
  long : LongWidth
  radiotap : List UInt8 → RadiotapWalk

/-- What the surroundings decide in one call of `awdl_rx`: the clock, the
allocations for a new peer, and what the memory holds of the locals `rssi` and
`flags` of `awdl_rx`, of the local channel list of `awdl_handle_chanseq_tlv` (by
the length of the rest of the frame) and of each output buffer. -/
structure RxEnv where
  now : UInt64
  peer : PeerEnv
  rssi : Int8
  flags : UInt8
  list : Nat → AwdlChanseq
  out : Nat → Nat → UInt8

/-- `enum awdl_action_type`. -/
inductive AwdlActionType
  | psf
  | mif
  deriving DecidableEq, Repr

/-- The subtype byte of an action frame. -/
def AwdlActionType.toByte : AwdlActionType → UInt8
  | psf => 0
  | mif => 3

/-- `AWDL_OUI`. -/
def awdlOui : List UInt8 := [0x00, 0x17, 0xf2]

/-- `IEEE80211_VENDOR_SPECIFIC`. -/
def ieee80211VendorSpecific : UInt8 := 127

/-- `AWDL_TYPE`. -/
def awdlType : UInt8 := 8

/-- `AWDL_VERSION_COMPAT`. -/
def awdlVersionCompat : UInt8 := awdlVersion 1 0

/-- `sizeof(struct awdl_action)`. -/
def awdlActionSize : Nat := 16

/-- `awdl_parse_action_hdr`; `none` is a negative result. -/
def awdlParseActionHdr (frame : Buf) : Option AwdlActionType := do
  let af ← readBytes frame 0 awdlActionSize
  if af.getD 0 0 = ieee80211VendorSpecific ∧ (af.drop 1).take 3 = awdlOui ∧
      af.getD 4 0 = awdlType ∧ af.getD 5 0 = awdlVersionCompat then
    if af.getD 6 0 = AwdlActionType.psf.toByte then some .psf
    else if af.getD 6 0 = AwdlActionType.mif.toByte then some .mif
    else none
  else none

/-- What the TLV loop has come to: the rest of the frame, or `none` after a
handler that failed; the record of the sender; the node; the callbacks. -/
structure TlvWalk where
  rest : Option Buf
  peer : AwdlPeer
  state : AwdlState
  events : List Callback

/-- The loop of `awdl_rx_action`. Every round takes at least three bytes, so the
length of the frame bounds the rounds. -/
def tlvLoop (long : LongWidth) (list : Nat → AwdlChanseq) (tsft : UInt64) :
    (fuel : Nat) → Buf → AwdlPeer → AwdlState → List Callback → TlvWalk
  | 0, frame, peer, state, events => ⟨some frame, peer, state, events⟩
  | fuel + 1, frame, peer, state, events =>
      match readTlv frame 0 with
      | none => ⟨some frame, peer, state, events⟩
      | some (type, len, value) =>
          let handled :=
            awdlHandleTlv long (list frame.len) peer type (bufNewConst value) state tsft
          let state' := { state with sync := handled.sync }
          let events' :=
            if state.tlvCb then events ++ [.tlv handled.src type value] else events
          if handled.result.code < 0 then ⟨none, handled.src, state', events'⟩
          else
            tlvLoop long list tsft fuel ((bufStrip frame (len.toNat + 3)).getD frame)
              handled.src state' events'

/-- A write of the sender's record to the table of a node. -/
def storePeer (hash : EtherAddr → UInt64) (state : AwdlState) (src : EtherAddr)
    (peer : AwdlPeer) : AwdlState :=
  { state with peers.peers := hashmapStore hash state.peers.peers src peer }

/-- The end of `awdl_rx_action`, after the TLV loop. -/
def finishAction (platform : Platform) (env : RxEnv) (subtype : AwdlActionType) (tsft : UInt64)
    (src : EtherAddr) (walk : TlvWalk) : Option (RxResult × AwdlState × List Callback) :=
  match walk.rest with
  | none => some (.unexpectedFormat, storePeer platform.hash walk.state src walk.peer, walk.events)
  | some rest =>
      if rest.len > 0 then
        some (.unexpectedFormat, storePeer platform.hash walk.state src walk.peer, walk.events)
      else
        let peer := if subtype = .mif then { walk.peer with sentMif := true } else walk.peer
        let state := storePeer platform.hash walk.state src peer
        match awdlPeerAdd platform.hash env.peer state.peers.peers src tsft state.peerCb with
        | none => none
        | some (_, peers, added) =>
            some (.ok, { state with peers.peers := peers }, walk.events ++ added)

/-- The RSSI filter of `awdl_rx_action`. -/
def ignoresRssi (hash : EtherAddr → UInt64) (state : AwdlState) (src : EtherAddr) (rssi : Int8) :
    Bool :=
  let status := (awdlPeerGet hash state.peers.peers src).1
  state.filterRssi &&
    (status == .ok && decide (rssi.toInt < state.rssiThreshold.toInt + state.rssiGrace.toInt) ||
      status == .missing && decide (rssi.toInt < state.rssiThreshold.toInt))

/-- `awdl_rx_action`; `none` when a growing peer table has not returned. -/
def awdlRxAction (platform : Platform) (env : RxEnv) (frame : Buf) (rssi : Int8) (tsft : UInt64)
    (src _dst : EtherAddr) (state : AwdlState) :
    Option (RxResult × AwdlState × List Callback) :=
  match awdlParseActionHdr frame with
  | none => some (.ignore, state, [])
  | some subtype =>
      let frame := (bufStrip frame awdlActionSize).getD frame
      if ignoresRssi platform.hash state src rssi then some (.ignoreRssi, state, [])
      else
        let state := { state with stats.rxAction := state.stats.rxAction + 1 }
        match awdlPeerAdd platform.hash env.peer state.peers.peers src tsft state.peerCb with
        | none => none
        | some (status, peers, added) =>
            let state := { state with peers.peers := peers }
            if status.code < 0 then some (.ignore, state, added)
            else
              match (awdlPeerGet platform.hash peers src).2 with
              | none => some (.ignore, state, added)
              | some peer =>
                  finishAction platform env subtype tsft src
                    (tlvLoop platform.long env.list tsft frame.len frame peer state added)

/-- A frame with a valid header that is heard well enough, of a sender that has a
record, is walked through TLV by TLV. -/
theorem awdlRxAction_admitted {platform : Platform} {env : RxEnv} {frame tlvs : Buf} {rssi : Int8}
    {tsft : UInt64} {src : EtherAddr} {state : AwdlState} {subtype : AwdlActionType}
    {status : PeersStatus} {peers : AwdlPeers} {added : List Callback} {peer : AwdlPeer}
    (header : awdlParseActionHdr frame = some subtype)
    (strip : bufStrip frame awdlActionSize = some tlvs)
    (admitted : ignoresRssi platform.hash state src rssi = false)
    (add : awdlPeerAdd platform.hash env.peer state.peers.peers src tsft state.peerCb =
      some (status, peers, added))
    (success : ¬ status.code < 0) (found : (awdlPeerGet platform.hash peers src).2 = some peer)
    (dst : EtherAddr) :
    awdlRxAction platform env frame rssi tsft src dst state =
      finishAction platform env subtype tsft src
        (tlvLoop platform.long env.list tsft tlvs.len tlvs peer
          { state with peers.peers := peers, stats.rxAction := state.stats.rxAction + 1 }
          added) := by
  unfold awdlRxAction
  rw [header]
  dsimp only
  rw [admitted, strip, Option.getD_some, if_neg Bool.false_ne_true, add]
  dsimp only
  rw [if_neg success, found]

end Owl
