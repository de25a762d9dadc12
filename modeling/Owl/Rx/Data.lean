import Owl.Rx.Action

/-! # Data frames and `awdl_rx`

`awdlRxData` turns the body of a data frame into an Ethernet frame,
`awdlRxDataAmsdu` does so for every subframe of an aggregate, and `awdlRx` takes
a captured frame apart and dispatches on its type. The buffers stored through
the output cursor are a list that grows at its end.
-/

namespace Owl

/-- `struct llc_hdr`. -/
structure LlcHdr where
  dsap : UInt8
  ssap : UInt8
  control : UInt8
  oui : List UInt8
  pid : UInt16

/-- `sizeof(struct llc_hdr)`. -/
def llcHdrSize : Nat := 8

/-- `sizeof(struct awdl_data)`. -/
def awdlDataSize : Nat := 8

/-- `AWDL_LLC_PROTOCOL_ID`. -/
def awdlLlcProtocolId : UInt16 := 0x0800

/-- `ETHER_MAX_LEN`. -/
def etherMaxLen : Nat := 1518

/-- `llc_parse`. -/
def llcParse (frame : Buf) : Option LlcHdr := do
  let dsap ← readU8 frame 0
  let ssap ← readU8 frame 1
  let control ← readU8 frame 2
  let oui ← readBytesCopy frame 3 3
  let pid ← readBe16 frame 6
  return ⟨dsap, ssap, control, oui, pid⟩

/-- `awdl_valid_llc_header`. -/
def awdlValidLlcHeader (frame : Buf) : Bool :=
  match llcParse frame with
  | none => false
  | some llc =>
      llc.dsap == 0xaa && llc.ssap == 0xaa && llc.control == 0x03 && llc.pid == awdlLlcProtocolId

/-- The Ethernet frame that `awdl_rx_data` writes into a new buffer, with the
offsets summed up from the results of the writers. -/
def writeEthernet (buf : Buf) (dst src : EtherAddr) (etherType : UInt16) (payload : List UInt8) :
    Buf :=
  let first := writeEtherAddr buf 0 dst
  let second := writeEtherAddr first.2 first.1 src
  let third := writeBe16 second.2 (first.1 + second.1) etherType
  (writeBytes third.2 (first.1 + second.1 + third.1) payload).2

/-- `awdl_rx_data`. -/
def awdlRxData (platform : Platform) (env : RxEnv) (frame : Buf) (out : List Buf)
    (src dst : EtherAddr) (state : AwdlState) : RxResult × List Buf × AwdlState :=
  let state := { state with stats.rxData := state.stats.rxData + 1 }
  if (awdlPeerGet platform.hash state.peers.peers src).1 ≠ .ok then (.ignorePeer, out, state)
  else if !awdlValidLlcHeader frame then (.unexpectedFormat, out, state)
  else
    let frame := (bufStrip frame llcHdrSize).getD frame
    if frame.len < awdlDataSize then (.tooShort, out, state)
    else
      let etherType := (readBe16 frame 6).getD 0
      let frame := (bufStrip frame awdlDataSize).getD frame
      let buf := bufNewOwned (env.out out.length) etherMaxLen
      (.ok, out ++ [writeEthernet buf dst src etherType frame.view], state)

/-- The loop of `awdl_rx_data_amsdu`. Every round takes at least the fourteen
bytes of a subframe header, so the length of the frame bounds the rounds. -/
def amsduLoop (platform : Platform) (env : RxEnv) :
    (fuel : Nat) → Buf → List Buf → AwdlState → RxResult × List Buf × AwdlState
  | 0, _, out, state => (.ok, out, state)
  | fuel + 1, frame, out, state =>
      if frame.len = 0 then (.ok, out, state)
      else
        match readEtherAddr frame 0, readEtherAddr frame 6, readBe16 frame 12,
            bufStrip frame 14 with
        | some dstA, some srcA, some lenA, some body =>
            if lenA.toNat > body.len then (.tooShort, out, state)
            else
              let (err, out, state) :=
                awdlRxData platform env (bufNewConst (body.view.take lenA.toNat)) out srcA dstA
                  state
              if err.code < 0 then (err, out, state)
              else
                match bufStrip body lenA.toNat with
                | none => (.tooShort, out, state)
                | some behind =>
                    if behind.len > 0 then
                      match bufStrip behind ((4 - (14 + lenA.toNat) % 4) % 4 : Nat) with
                      | none => (.tooShort, out, state)
                      | some next => amsduLoop platform env fuel next out state
                    else amsduLoop platform env fuel behind out state
        | _, _, _, _ => (.tooShort, out, state)

/-- `awdl_rx_data_amsdu`. -/
def awdlRxDataAmsdu (platform : Platform) (env : RxEnv) (frame : Buf) (out : List Buf)
    (_src _dst : EtherAddr) (state : AwdlState) : RxResult × List Buf × AwdlState :=
  amsduLoop platform env frame.len frame out state

/-! ## Captured frames -/

/-- `-ENOENT`, with which the radiotap iterator reports the end of the header. -/
def radiotapEnd : Int := -2

/-- One step of the loop of `radiotap_parse` on the locals `rssi` and `flags`. -/
def radiotapField (fields : Int8 × UInt8) (arg : RadiotapArg) : Int8 × UInt8 :=
  if arg.isRadiotapNs then
    if arg.index = 1 then (fields.1, arg.value)
    else if arg.index = 5 then (arg.value.toInt8, fields.2)
    else fields
  else fields

/-- `radiotap_parse`: the locals `rssi` and `flags` afterwards, `none` for
`RX_UNEXPECTED_FORMAT`. -/
def radiotapParse (platform : Platform) (frame : Buf) (rssi : Int8) (flags : UInt8) :
    Option (Int8 × UInt8) :=
  let walk := platform.radiotap frame.view
  if walk.init < 0 then none
  else if walk.last ≠ radiotapEnd then none
  else some (walk.args.foldl radiotapField (rssi, flags))

/-- `check_fcs`: the frame without its check sequence, `none` for a negative result. -/
def checkFcs (frame : Buf) (radiotapFlags : UInt8) : Option Buf :=
  if radiotapFlags &&& 0x40 ≠ 0 then none
  else if radiotapFlags &&& 0x10 ≠ 0 then bufTake frame 4
  else some frame

/-- `sizeof(struct ieee80211_hdr)`. -/
def ieee80211HdrSize : Nat := 24

/-- What a call of `awdl_rx` leaves: its result, the buffers it has stored, the
state of the node and the calls of callbacks. -/
structure RxOutcome where
  result : RxResult
  out : List Buf
  state : AwdlState
  events : List Callback

/-- The fields of `struct ieee80211_hdr` that `awdl_rx` uses. -/
structure Ieee80211Hdr where
  frameControl : UInt16
  addr1 : EtherAddr
  addr2 : EtherAddr

/-- A header in memory. -/
def Ieee80211Hdr.ofBytes (bytes : List UInt8) : Ieee80211Hdr where
  frameControl := UInt16.ofNat (Octets.ofLE (bytes.take 2))
  addr1 := EtherAddr.ofOctets (bytes.drop 4)
  addr2 := EtherAddr.ofOctets (bytes.drop 10)

/-- The type and subtype bits of a frame control field. -/
def frameType (frameControl : UInt16) : UInt16 := frameControl &&& (0x000c ||| 0x00f0)

/-- `IEEE80211_FTYPE_MGMT | IEEE80211_STYPE_ACTION`. -/
def ieee80211Action : UInt16 := 0x0000 ||| 0x00d0

/-- `IEEE80211_FTYPE_DATA | IEEE80211_STYPE_DATA`. -/
def ieee80211Data : UInt16 := 0x0008 ||| 0x0000

/-- `IEEE80211_FTYPE_DATA | IEEE80211_STYPE_DATA | IEEE80211_STYPE_QOS_DATA`. -/
def ieee80211QosData : UInt16 := 0x0008 ||| 0x0000 ||| 0x0080

theorem frameType_ieee80211Action : frameType ieee80211Action = ieee80211Action := by decide

theorem frameType_ieee80211Data : frameType ieee80211Data = ieee80211Data := by decide

/-- `IEEE80211_QOS_CTL_A_MSDU_PRESENT`. -/
def qosAmsduPresent : UInt16 := 0x0080

/-- A frame whose header has been stripped, with what `awdl_rx` knows of it. -/
structure RxFrame where
  body : Buf
  hdr : Ieee80211Hdr
  rssi : Int8

/-- The first half of `awdl_rx`: radiotap header, check sequence, 802.11 header. -/
def parseFrame (platform : Platform) (env : RxEnv) (frame : Buf) (state : AwdlState) :
    Except RxResult RxFrame :=
  match radiotapParse platform frame env.rssi env.flags with
  | none => .error .unexpectedFormat
  | some (rssi, flags) =>
      match bufStrip frame (Octets.ofLE ((frame.view.drop 2).take 2)) with
      | none => .error .tooShort
      | some frame =>
          match checkFcs frame flags with
          | none => .error .ignoreFailedCrc
          | some frame =>
              match readBytes frame 0 ieee80211HdrSize with
              | none => .error .tooShort
              | some bytes =>
                  let hdr := Ieee80211Hdr.ofBytes bytes
                  if hdr.addr2 = state.selfAddress then .error .ignoreFromSelf
                  else
                    match bufStrip frame ieee80211HdrSize with
                    | none => .error .tooShort
                    | some body => .ok ⟨body, hdr, rssi⟩

/-- The second half of `awdl_rx`: processing based on frame type and subtype. -/
def dispatchFrame (platform : Platform) (env : RxEnv) (frame : RxFrame) (out : List Buf)
    (state : AwdlState) : Option RxOutcome :=
  let ofData (handled : RxResult × List Buf × AwdlState) : Option RxOutcome :=
    some ⟨handled.1, handled.2.1, handled.2.2, []⟩
  if frameType frame.hdr.frameControl = ieee80211Action then
    (awdlRxAction platform env frame.body frame.rssi env.now frame.hdr.addr2 frame.hdr.addr1
      state).map fun handled => ⟨handled.1, out, handled.2.1, handled.2.2⟩
  else if frameType frame.hdr.frameControl = ieee80211QosData then
    match readLe16 frame.body 0, bufStrip frame.body 2 with
    | some qosc, some body =>
        if qosc &&& qosAmsduPresent ≠ 0 then
          ofData (awdlRxDataAmsdu platform env body out frame.hdr.addr2 frame.hdr.addr1 state)
        else ofData (awdlRxData platform env body out frame.hdr.addr2 frame.hdr.addr1 state)
    | _, _ => some ⟨.tooShort, out, state, []⟩
  else if frameType frame.hdr.frameControl = ieee80211Data then
    ofData (awdlRxData platform env frame.body out frame.hdr.addr2 frame.hdr.addr1 state)
  else some ⟨.unexpectedType, out, state, []⟩

/-- `awdl_rx`; `none` when a growing peer table has not returned. -/
def awdlRx (platform : Platform) (env : RxEnv) (frame : Buf) (out : List Buf)
    (state : AwdlState) : Option RxOutcome :=
  match parseFrame platform env frame state with
  | .error result => some ⟨result, out, state, []⟩
  | .ok frame => dispatchFrame platform env frame out state

section Dispatched

variable (platform : Platform) (env : RxEnv) (rx : RxFrame) (out : List Buf) (state : AwdlState)

/-- The ways in which a frame is dispatched, with what leads to each of them. -/
inductive Dispatched : RxOutcome → Prop
  | action {handled : RxResult × AwdlState × List Callback}
      (type : frameType rx.hdr.frameControl = ieee80211Action)
      (done : awdlRxAction platform env rx.body rx.rssi env.now rx.hdr.addr2 rx.hdr.addr1 state =
        some handled) :
      Dispatched ⟨handled.1, out, handled.2.1, handled.2.2⟩
  | amsdu {qosc : UInt16} {body : Buf} (type : frameType rx.hdr.frameControl = ieee80211QosData)
      (read : readLe16 rx.body 0 = some qosc) (strip : bufStrip rx.body 2 = some body)
      (present : qosc &&& qosAmsduPresent ≠ 0) :
      Dispatched ⟨(amsduLoop platform env body.len body out state).1,
        (amsduLoop platform env body.len body out state).2.1,
        (amsduLoop platform env body.len body out state).2.2, []⟩
  | data {body : Buf}
      (source : frameType rx.hdr.frameControl = ieee80211Data ∧ body = rx.body ∨
        frameType rx.hdr.frameControl = ieee80211QosData ∧ bufStrip rx.body 2 = some body ∧
          ∀ qosc, readLe16 rx.body 0 = some qosc → qosc &&& qosAmsduPresent = 0) :
      Dispatched ⟨(awdlRxData platform env body out rx.hdr.addr2 rx.hdr.addr1 state).1,
        (awdlRxData platform env body out rx.hdr.addr2 rx.hdr.addr1 state).2.1,
        (awdlRxData platform env body out rx.hdr.addr2 rx.hdr.addr1 state).2.2, []⟩
  | refused {result : RxResult} (type : frameType rx.hdr.frameControl ≠ ieee80211Action)
      (reason : result = .tooShort ∨ result = .unexpectedType) :
      Dispatched ⟨result, out, state, []⟩

end Dispatched

/-- A frame is dispatched in one of these ways. -/
theorem dispatchFrame_dispatched {platform : Platform} {env : RxEnv} {rx : RxFrame}
    {out : List Buf} {state : AwdlState} {outcome : RxOutcome}
    (done : dispatchFrame platform env rx out state = some outcome) :
    Dispatched platform env rx out state outcome := by
  unfold dispatchFrame at done
  dsimp only at done
  split at done
  · rename_i type
    obtain ⟨handled, acted, rfl⟩ := Option.map_eq_some_iff.mp done
    exact .action type acted
  rename_i other
  split at done
  · rename_i type
    split at done
    · rename_i qosc body read strip
      split at done
      · rename_i present
        cases done
        exact .amsdu type read strip present
      · rename_i plain
        cases done
        refine .data (Or.inr ⟨type, strip, ?_⟩)
        intro found again
        rw [read] at again
        cases again
        exact not_not.mp plain
    · cases done
      exact .refused other (Or.inl rfl)
  split at done
  · rename_i type
    cases done
    exact .data (Or.inl ⟨type, rfl⟩)
  · cases done
    exact .refused other (Or.inr rfl)

theorem dispatchFrame_of_action {platform : Platform} {env : RxEnv} {rx : RxFrame}
    (type : frameType rx.hdr.frameControl = ieee80211Action) (out : List Buf)
    (state : AwdlState) :
    dispatchFrame platform env rx out state =
      (awdlRxAction platform env rx.body rx.rssi env.now rx.hdr.addr2 rx.hdr.addr1 state).map
        fun handled => ⟨handled.1, out, handled.2.1, handled.2.2⟩ :=
  if_pos type

section Dispatch

variable {platform : Platform} {env : RxEnv} {frame : Buf} {state : AwdlState} {rx : RxFrame}
  (parsed : parseFrame platform env frame state = .ok rx) (out : List Buf)

include parsed

theorem awdlRx_of_action (type : frameType rx.hdr.frameControl = ieee80211Action) :
    awdlRx platform env frame out state =
      (awdlRxAction platform env rx.body rx.rssi env.now rx.hdr.addr2 rx.hdr.addr1 state).map
        fun handled => ⟨handled.1, out, handled.2.1, handled.2.2⟩ := by
  unfold awdlRx
  rw [parsed]
  exact dispatchFrame_of_action type out state

theorem awdlRx_of_data (type : frameType rx.hdr.frameControl = ieee80211Data) :
    awdlRx platform env frame out state =
      some
        ⟨(awdlRxData platform env rx.body out rx.hdr.addr2 rx.hdr.addr1 state).1,
          (awdlRxData platform env rx.body out rx.hdr.addr2 rx.hdr.addr1 state).2.1,
          (awdlRxData platform env rx.body out rx.hdr.addr2 rx.hdr.addr1 state).2.2, []⟩ := by
  unfold awdlRx
  rw [parsed]
  dsimp only
  unfold dispatchFrame
  dsimp only
  rw [type, if_neg (by decide), if_neg (by decide), if_pos rfl]

end Dispatch

end Owl
