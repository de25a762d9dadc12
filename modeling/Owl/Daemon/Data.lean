import Owl.Daemon.Invariant
import Owl.Rx.Amsdu
import Owl.Tx.Headers

/-! # Data frames through the daemon

How many buffers a captured frame stores in the output array of
`awdl_receive_frame`, and the way of an Ethernet frame from `awdl_send_data` of
one node through `awdl_rx` of another.
-/

namespace Owl

variable {platform : Platform} {env : RxEnv}

/-! ## The output array -/

/-- **The output array is large enough exactly for aggregates that deliver no
more subframes than it has entries.** -/
theorem awdlReceiveFrame_stored_le_iff {bytes : List UInt8} {state : DaemonState}
    {outcome : ReceiveOutcome} (done : awdlReceiveFrame platform env bytes state = some outcome) :
    outcome.stored.length ≤ maxNumAmpdu ↔ ∀ rx body,
      parseFrame platform env (bufNewConst bytes) state.awdlState = .ok rx →
      amsduBody rx = some body →
      (deliveredSubframes platform.hash state.awdlState
        (amsduSubframes body.length body)).length ≤ maxNumAmpdu := by
  obtain ⟨received, handled, rfl⟩ := Option.map_eq_some_iff.mp done
  dsimp only
  unfold awdlRx at handled
  cases parsed : parseFrame platform env (bufNewConst bytes) state.awdlState with
  | error result =>
      rw [parsed] at handled
      cases handled
      exact iff_of_true (Nat.zero_le _) fun rx body impossible => by cases impossible
  | ok rx =>
      rw [parsed] at handled
      have stored := dispatchFrame_out handled
      cases aggregate : amsduBody rx with
      | some body =>
          rw [aggregate] at stored
          dsimp only at stored
          rw [stored]
          constructor
          · rintro fits _ _ ⟨⟩ same
            rw [aggregate] at same
            cases same
            exact fits
          · intro fits
            exact fits rx body rfl aggregate
      | none =>
          rw [aggregate] at stored
          refine iff_of_true (Nat.le_trans stored (by decide)) ?_
          rintro _ _ ⟨⟩ same
          rw [aggregate] at same
          cases same

/-- A subframe with an empty IPv6 payload, padded. -/
def sampleSubframe (src : EtherAddr) : List UInt8 :=
  EtherAddr.broadcast.octets ++ src.octets ++ be16 16 ++ llcInitAwdlHdr ++
    [0x03, 0x04, 0, 0, 0, 0] ++ be16 ethPIpv6 ++ [0, 0]

/-- An aggregate of subframes. -/
def sampleAmsdu (src : EtherAddr) (count : Nat) : List UInt8 :=
  sampleFrame ieee80211QosData src
    ([0x80, 0] ++ (List.replicate count (sampleSubframe src)).flatten)

/-- A node that has just been started, after an action frame of another one. -/
def sampleMeeting : Option ReceiveOutcome :=
  awdlReceiveFrame samplePlatform (sampleEnv 5)
    (sampleFrame ieee80211Action ⟨2, 0, 0, 0, 0, 2⟩ (sampleActionHdr .psf)) sampleDaemon

/-- An aggregate of seventeen subframes writes past the end of the array. -/
theorem awdlReceiveFrame_overruns : ∃ met outcome, sampleMeeting = some met ∧
    awdlReceiveFrame samplePlatform (sampleEnv 6) (sampleAmsdu ⟨2, 0, 0, 0, 0, 2⟩ 17) met.state =
      some outcome ∧ ¬outcome.stored.length ≤ maxNumAmpdu := by
  have stored : (sampleMeeting.bind fun met =>
      (awdlReceiveFrame samplePlatform (sampleEnv 6) (sampleAmsdu ⟨2, 0, 0, 0, 0, 2⟩ 17)
        met.state).map fun outcome => outcome.stored.length) = some 17 := by
    decide +kernel
  obtain ⟨met, meeting, received⟩ := Option.bind_eq_some_iff.mp stored
  obtain ⟨outcome, done, length⟩ := Option.map_eq_some_iff.mp received
  refine ⟨met, outcome, meeting, done, ?_⟩
  rw [length]
  decide

/-- An aggregate of two subframes meets the condition and fits. -/
theorem awdlReceiveFrame_stored_le_iff_two : ∃ met outcome, sampleMeeting = some met ∧
    awdlReceiveFrame samplePlatform (sampleEnv 6) (sampleAmsdu ⟨2, 0, 0, 0, 0, 2⟩ 2) met.state =
      some outcome ∧ outcome.stored.length ≤ maxNumAmpdu := by
  have evaluated : (sampleMeeting.bind fun met =>
      (awdlReceiveFrame samplePlatform (sampleEnv 6) (sampleAmsdu ⟨2, 0, 0, 0, 0, 2⟩ 2)
        met.state).map fun _ =>
          (parseFrame samplePlatform (sampleEnv 6)
            (bufNewConst (sampleAmsdu ⟨2, 0, 0, 0, 0, 2⟩ 2)) met.state.awdlState).toOption.map
              fun rx => (amsduBody rx).map fun body =>
                (deliveredSubframes samplePlatform.hash met.state.awdlState
                  (amsduSubframes body.length body)).length) = some (some (some 2)) := by
    decide +kernel
  obtain ⟨met, meeting, received⟩ := Option.bind_eq_some_iff.mp evaluated
  obtain ⟨outcome, done, delivered⟩ := Option.map_eq_some_iff.mp received
  refine ⟨met, outcome, meeting, done, (awdlReceiveFrame_stored_le_iff done).mpr ?_⟩
  intro rx body parsed aggregate
  rw [parsed] at delivered
  dsimp only [Except.toOption] at delivered
  rw [Option.map_some, aggregate, Option.map_some, Option.some.injEq, Option.some.injEq]
    at delivered
  rw [delivered]
  decide

/-! ## The data tunnel -/

/-- An Ethernet frame. -/
def etherFrame (dst src : EtherAddr) (type : UInt16) (payload : List UInt8) : List UInt8 :=
  dst.octets ++ src.octets ++ be16 type ++ payload

/-- The results of the writers that `awdl_rx_data` calls. -/
def writeEthernetResults (buf : Buf) (dst src : EtherAddr) (etherType : UInt16)
    (payload : List UInt8) : List Int :=
  let first := writeEtherAddr buf 0 dst
  let second := writeEtherAddr first.2 first.1 src
  let third := writeBe16 second.2 (first.1 + second.1) etherType
  let fourth := writeBytes third.2 (first.1 + second.1 + third.1) payload
  [first.1, second.1, third.1, fourth.1]

/-- `awdl_rx_data` writes the header of an Ethernet frame and then the payload behind it. -/
theorem writeEthernet_header {buf : Buf} (dst src : EtherAddr) (type : UInt16)
    (fits : 14 ≤ buf.len) :
    ∃ header : Buf, header.len = buf.len ∧
      header.StartsWith (dst.octets ++ src.octets ++ be16 type) ∧
      ∀ payload,
        writeEthernet buf dst src type payload = (writeBytes header 14 payload).2 ∧
        writeEthernetResults buf dst src type payload =
          [6, 6, 2, (writeBytes header 14 payload).1] := by
  obtain ⟨one, wroteDst, lenOne, frontOne⟩ := @writeBytes_behind buf [] dst.octets rfl
    (by rw [List.length_nil, EtherAddr.length_octets]; omega)
  obtain ⟨two, wroteSrc, lenTwo, frontTwo⟩ := @writeBytes_behind one dst.octets src.octets
    frontOne (by rw [EtherAddr.length_octets, EtherAddr.length_octets]; omega)
  obtain ⟨three, wroteType, lenThree, frontThree⟩ := @writeBytes_behind two
    (dst.octets ++ src.octets) (be16 type) frontTwo
    (by rw [List.length_append, EtherAddr.length_octets, EtherAddr.length_octets, length_be16]
        omega)
  have putDst : writeEtherAddr buf 0 dst = (6, one) := wroteDst
  have putSrc : writeEtherAddr one 6 src = (6, two) := wroteSrc
  have putType : writeBe16 two (6 + 6) type = (2, three) := wroteType
  refine ⟨three, by rw [lenThree, lenTwo, lenOne], frontThree, fun payload => ?_⟩
  unfold writeEthernet writeEthernetResults
  simp only [putDst, putSrc, putType]
  exact ⟨rfl, rfl⟩

theorem length_etherHeader (dst src : EtherAddr) (type : UInt16) :
    (dst.octets ++ src.octets ++ be16 type).length = 14 := by
  rw [List.length_append, List.length_append, EtherAddr.length_octets, EtherAddr.length_octets,
    length_be16]

/-- What `awdl_rx_data` writes is an Ethernet frame, if it fits into the buffer. -/
theorem writeEthernet_of_fits {buf : Buf} {dst src : EtherAddr} {type : UInt16}
    {payload : List UInt8} (fits : 14 + payload.length ≤ buf.len) :
    (writeEthernet buf dst src type payload).StartsWith (etherFrame dst src type payload) ∧
      writeEthernetResults buf dst src type payload = [6, 6, 2, (payload.length : Int)] := by
  obtain ⟨header, length, front, writes⟩ := writeEthernet_header dst src type
    (Nat.le_trans (Nat.le_add_right 14 _) fits)
  obtain ⟨whole, wrote, _, frame⟩ := @writeBytes_behind header
    (dst.octets ++ src.octets ++ be16 type) payload front
    (by rw [length_etherHeader, length]; exact fits)
  have put : writeBytes header 14 payload = (_, whole) := wrote
  rw [(writes payload).1, (writes payload).2, put]
  exact ⟨frame, rfl⟩

theorem awdlValidLlcHeader_tx {buf : Buf} {rest : List UInt8}
    (viewed : buf.view = llcInitAwdlHdr ++ rest) : awdlValidLlcHeader buf = true := by
  have dsap : readU8 buf 0 = some 0xaa := readU8_front viewed rfl (by decide)
  have ssap : readU8 buf 1 = some 0xaa := readU8_front viewed rfl (by decide)
  have control : readU8 buf 2 = some 0x03 := readU8_front viewed rfl (by decide)
  have oui : readBytesCopy buf 3 3 = some awdlOui := readBytes_front viewed (by decide)
  have pid : readBe16 buf 6 = some awdlLlcProtocolId := readBe16_front viewed rfl (by decide)
  have parsed : llcParse buf = some ⟨0xaa, 0xaa, 0x03, awdlOui, awdlLlcProtocolId⟩ := by
    unfold llcParse
    rw [dsap, ssap, control, oui, pid]
    rfl
  unfold awdlValidLlcHeader
  rw [parsed]
  decide

/-- The body of the frame that carries a payload. -/
def tunnelBody (sequenceNumber : UInt16) (payload : List UInt8) : List UInt8 :=
  llcInitAwdlHdr ++ (le16 awdlDataHead ++ le16 sequenceNumber ++ le16 awdlDataPad ++
    be16 ethPIpv6 ++ payload)

/-- The frame that `awdl_send_data` builds from what the host has sent. -/
theorem awdlSendData_sent {buf : Buf} (enough : 14 ≤ buf.view.length) (sender : DaemonState) :
    ∃ next trailer, awdlSendData buf sender =
        some (ieee80211InitRadiotapHeader ++
          ((ieee80211InitAwdlHdr (EtherAddr.ofOctets (buf.view.drop 6))
              (EtherAddr.ofOctets buf.view) sender.ieee80211State ieee80211Data).1 ++
            (tunnelBody sender.awdlState.sequenceNumber (buf.view.drop 14) ++ trailer)), next) ∧
      (sender.ieee80211State.fcs = false → trailer = []) := by
  have readType : readBe16 buf 12 = some _ := readBe16_of_le enough
  have readDst : readEtherAddr buf 0 = some (EtherAddr.ofOctets buf.view) :=
    @readEtherAddr_of_le buf 0 (Nat.le_trans (by decide) enough)
  have readSrc : readEtherAddr buf 6 = some (EtherAddr.ofOctets (buf.view.drop 6)) :=
    @readEtherAddr_of_le buf 6 (Nat.le_trans (by decide) enough)
  obtain ⟨inner, strip, innerView⟩ := bufStrip_of_le enough
  unfold awdlSendData
  rw [readType, readDst, readSrc, show (14 : Int) = (14 : Nat) from rfl, strip]
  dsimp only [Option.getD_some]
  rw [innerView]
  dsimp only [awdlInitFullDataFrame, ieee80211InitAwdlDataHdr, ieee80211InitAwdlHdr, withFcs,
    ieee80211StateNextSequenceNumber]
  cases sender.ieee80211State.fcs with
  | false =>
      refine ⟨_, [], congrArg some (Prod.ext ?_ rfl), fun _ => rfl⟩
      simp only [Bool.false_eq_true, ↓reduceIte, List.append_assoc, List.append_nil]
      rfl
  | true =>
      refine ⟨_, ieee80211AddFcs _, congrArg some (Prod.ext ?_ rfl), fun plain => (by cases plain)⟩
      simp only [↓reduceIte, List.append_assoc]
      rfl

/-- The frame that `awdl_send_data` builds from an Ethernet frame. -/
theorem awdlSendData_etherFrame (dst src : EtherAddr) (type : UInt16) (payload : List UInt8)
    {sender : DaemonState} (fcs : sender.ieee80211State.fcs = false) :
    ∃ next, awdlSendData (bufNewConst (etherFrame dst src type payload)) sender =
      some (ieee80211InitRadiotapHeader ++
        ((ieee80211InitAwdlHdr src dst sender.ieee80211State ieee80211Data).1 ++
          tunnelBody sender.awdlState.sequenceNumber payload), next) := by
  have viewed : (bufNewConst (etherFrame dst src type payload)).view =
      dst.octets ++ src.octets ++ be16 type ++ payload := view_bufNewConst _
  have enough : 14 ≤ (bufNewConst (etherFrame dst src type payload)).view.length := by
    rw [viewed, List.length_append, length_etherHeader]
    exact Nat.le_add_right 14 _
  obtain ⟨next, trailer, sent, plain⟩ := awdlSendData_sent enough sender
  rw [plain fcs, List.append_nil, viewed] at sent
  exact ⟨next, sent⟩

/-- **The data tunnel.** A node that knows the source of an IPv6 Ethernet frame
delivers it as it was handed to another node. -/
theorem awdlSendData_roundTrip (accepts : AcceptsTxHeader platform) (flags : env.flags = 0)
    (dst src : EtherAddr) {payload : List UInt8} (short : payload.length ≤ 1504)
    {sender : DaemonState} (fcs : sender.ieee80211State.fcs = false) {receiver : AwdlState}
    (foreign : receiver.selfAddress ≠ src) (known : Knows platform.hash receiver src)
    (out : List Buf) :
    ∃ frame next outcome buf,
      awdlSendData (bufNewConst (etherFrame dst src ethPIpv6 payload)) sender =
        some (frame, next) ∧
      awdlRx platform env (bufNewConst frame) out receiver = some outcome ∧
      outcome.result = .ok ∧ outcome.out = out ++ [buf] ∧
      buf.view.take (14 + payload.length) = etherFrame dst src ethPIpv6 payload := by
  obtain ⟨next, sent⟩ := awdlSendData_etherFrame dst src ethPIpv6 payload fcs
  obtain ⟨body, viewed, parsed⟩ := @parseFrame_tx platform env accepts flags src dst receiver
    foreign.symm sender.ieee80211State ieee80211Data
    (tunnelBody sender.awdlState.sequenceNumber payload)
  have valid : awdlValidLlcHeader body = true := awdlValidLlcHeader_tx viewed
  have enough : llcHdrSize + awdlDataSize ≤ body.view.length := by
    rw [viewed]
    exact Nat.le_add_left 16 payload.length
  have stored := @awdlRxData_stores platform env out src dst receiver body known valid enough
  have type : UInt16.ofNat (Octets.ofBE ((body.view.drop 14).take 2)) = ethPIpv6 := by
    rw [viewed]
    exact ofBE_be16 ethPIpv6
  have carried : body.view.drop 16 = payload := by
    rw [viewed]
    rfl
  rw [type, carried] at stored
  have received := awdlRx_of_data parsed out frameType_ieee80211Data
  dsimp only at received
  rw [stored] at received
  have fits : 14 + payload.length ≤ (bufNewOwned (env.out out.length) etherMaxLen).len := by
    rw [bufNewOwned, len_bufNewConst, List.length_map, List.length_range, etherMaxLen]
    omega
  have delivered := (@writeEthernet_of_fits _ dst src ethPIpv6 payload fits).1
  have length : (etherFrame dst src ethPIpv6 payload).length = 14 + payload.length := by
    simp only [etherFrame, List.length_append, EtherAddr.length_octets, length_be16]
  unfold Buf.StartsWith at delivered
  rw [length] at delivered
  exact ⟨_, next, _, _, sent, received, rfl, rfl, delivered⟩

/-- A frame that one node sends is delivered by another one that has met it. -/
theorem awdlSendData_roundTrip_meeting : ∃ met frame next outcome buf,
    sampleMeeting = some met ∧
      awdlSendData (bufNewConst (etherFrame .broadcast ⟨2, 0, 0, 0, 0, 2⟩ ethPIpv6 [1, 2, 3]))
        ⟨sampleState, ieee80211InitState⟩ = some (frame, next) ∧
      awdlRx samplePlatform (sampleEnv 6) (bufNewConst frame) [] met.state.awdlState =
        some outcome ∧
      outcome.result = .ok ∧ outcome.out = [buf] ∧
      buf.view.take 17 = etherFrame .broadcast ⟨2, 0, 0, 0, 0, 2⟩ ethPIpv6 [1, 2, 3] := by
  have evaluated : (sampleMeeting.map fun met =>
      decide (met.state.awdlState.selfAddress ≠ ⟨2, 0, 0, 0, 0, 2⟩) &&
        decide (Knows samplePlatform.hash met.state.awdlState ⟨2, 0, 0, 0, 0, 2⟩)) = some true := by
    decide +kernel
  obtain ⟨met, meeting, facts⟩ := Option.map_eq_some_iff.mp evaluated
  rw [Bool.and_eq_true, decide_eq_true_iff, decide_eq_true_iff] at facts
  obtain ⟨frame, next, outcome, buf, sent, received, result, delivered, same⟩ :=
    @awdlSendData_roundTrip samplePlatform (sampleEnv 6) samplePlatform_acceptsTxHeader rfl
      .broadcast ⟨2, 0, 0, 0, 0, 2⟩ [1, 2, 3] (by decide) ⟨sampleState, ieee80211InitState⟩ rfl
      met.state.awdlState facts.1 facts.2 []
  exact ⟨met, frame, next, outcome, buf, meeting, sent, received, result, delivered, same⟩

/-! ## Exact delivery -/

@[simp] theorem len_writeBytes (buf : Buf) (offset : Int) (bytes : List UInt8) :
    (writeBytes buf offset bytes).2.len = buf.len := by
  unfold writeBytes
  split <;> rfl

/-- The writers do not change the length of the buffer. -/
theorem len_writeEthernet (buf : Buf) (dst src : EtherAddr) (type : UInt16)
    (payload : List UInt8) : (writeEthernet buf dst src type payload).len = buf.len := by
  simp only [writeEthernet, writeEtherAddr, writeBe16, len_writeBytes]

/-- **When a data frame is delivered exactly.** The buffer that is passed to the
host has the length for which it was allocated, so it is the Ethernet frame only
for the one payload that fills it. A shorter one is followed by what the memory
held, and a longer one is not written at all. -/
theorem awdlRxData_exact_iff {frame : Buf} {out stored : List Buf} {src dst : EtherAddr}
    {state next : AwdlState}
    (accepted : awdlRxData platform env frame out src dst state = (.ok, stored, next)) :
    (∃ buf, stored = out ++ [buf] ∧ buf.len = 14 + (frame.view.drop 16).length ∧
        buf.view = etherFrame dst src (UInt16.ofNat (Octets.ofBE ((frame.view.drop 14).take 2)))
          (frame.view.drop 16) ∧
        outOfBounds ∉ writeEthernetResults (bufNewOwned (env.out out.length) etherMaxLen) dst src
          (UInt16.ofNat (Octets.ofBE ((frame.view.drop 14).take 2))) (frame.view.drop 16)) ↔
      frame.view.length = 1520 := by
  obtain ⟨known, valid, enough⟩ := awdlRxData_accepted (congrArg Prod.fst accepted)
  rw [awdlRxData_stores known valid enough] at accepted
  cases accepted
  have allocated : (bufNewOwned (env.out out.length) etherMaxLen).len = 1518 := by
    rw [bufNewOwned, len_bufNewConst, List.length_map, List.length_range, etherMaxLen]
  have length := len_writeEthernet (bufNewOwned (env.out out.length) etherMaxLen) dst src
    (UInt16.ofNat (Octets.ofBE ((frame.view.drop 14).take 2))) (frame.view.drop 16)
  rw [allocated] at length
  have long : 16 ≤ frame.view.length := enough
  constructor
  · rintro ⟨buf, appended, exactly, _, _⟩
    rw [← List.singleton_inj.mp (List.append_cancel_left appended), length,
      List.length_drop] at exactly
    omega
  · intro full
    have payload : (frame.view.drop 16).length = 1504 := by
      rw [List.length_drop]
      omega
    obtain ⟨front, results⟩ := @writeEthernet_of_fits
      (bufNewOwned (env.out out.length) etherMaxLen) dst src
      (UInt16.ofNat (Octets.ofBE ((frame.view.drop 14).take 2))) (frame.view.drop 16)
      (by rw [payload, allocated])
    refine ⟨_, rfl, ?_, ?_, ?_⟩
    · rw [length, payload]
    · unfold Buf.StartsWith at front
      have whole : (etherFrame dst src (UInt16.ofNat (Octets.ofBE ((frame.view.drop 14).take 2)))
          (frame.view.drop 16)).length = 1518 := by
        simp only [etherFrame, List.length_append, EtherAddr.length_octets, length_be16, payload]
      rw [whole, ← length, ← Buf.length_view, List.take_length] at front
      exact front
    · rw [results, payload]
      decide

/-- Three bytes from a node that has been met are delivered as a frame of full length. -/
theorem awdlRxData_padded : ∃ met stored next, sampleMeeting = some met ∧
    awdlRxData samplePlatform (sampleEnv 6) (bufNewConst (tunnelBody 0 [1, 2, 3])) []
      ⟨2, 0, 0, 0, 0, 2⟩ .broadcast met.state.awdlState = (.ok, stored, next) ∧
    ¬∃ buf, stored = [buf] ∧ buf.len = 14 + 3 := by
  have evaluated : (sampleMeeting.map fun met =>
      let received := awdlRxData samplePlatform (sampleEnv 6)
        (bufNewConst (tunnelBody 0 [1, 2, 3])) [] ⟨2, 0, 0, 0, 0, 2⟩ .broadcast met.state.awdlState
      (received.1, received.2.1.map Buf.len)) = some (.ok, [1518]) := by
    decide +kernel
  obtain ⟨met, meeting, received⟩ := Option.map_eq_some_iff.mp evaluated
  obtain ⟨accepted, lengths⟩ := Prod.mk.inj received
  refine ⟨met, _, _, meeting, Prod.ext accepted rfl, ?_⟩
  rintro ⟨buf, stored, exactly⟩
  rw [stored, List.map_singleton, exactly] at lengths
  cases lengths

/-- A payload that fills the buffer is delivered exactly. -/
theorem awdlRxData_exact_iff_full : ∃ met stored next, sampleMeeting = some met ∧
    awdlRxData samplePlatform (sampleEnv 6)
      (bufNewConst (tunnelBody 0 (List.replicate 1504 7))) [] ⟨2, 0, 0, 0, 0, 2⟩ .broadcast
      met.state.awdlState = (.ok, stored, next) ∧
    ∃ buf, stored = [buf] ∧ buf.len = 14 + 1504 := by
  have evaluated : (sampleMeeting.map fun met =>
      (awdlRxData samplePlatform (sampleEnv 6)
        (bufNewConst (tunnelBody 0 (List.replicate 1504 7))) [] ⟨2, 0, 0, 0, 0, 2⟩ .broadcast
        met.state.awdlState).1) = some .ok := by
    decide +kernel
  obtain ⟨met, meeting, accepted⟩ := Option.map_eq_some_iff.mp evaluated
  have received : awdlRxData samplePlatform (sampleEnv 6)
      (bufNewConst (tunnelBody 0 (List.replicate 1504 7))) [] ⟨2, 0, 0, 0, 0, 2⟩ .broadcast
      met.state.awdlState = (.ok, _, _) := Prod.ext accepted rfl
  have length : (bufNewConst (tunnelBody 0 (List.replicate 1504 7))).view.length = 1520 := by
    rw [Buf.length_view]
    decide +kernel
  obtain ⟨buf, stored, exactly, _, _⟩ := (awdlRxData_exact_iff received).mpr length
  rw [List.length_drop, length] at exactly
  exact ⟨met, _, _, meeting, received, buf, stored, exactly⟩

end Owl
