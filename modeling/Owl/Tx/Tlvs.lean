import Owl.Rx.TlvWalk

/-! # The TLVs of a sent action frame

Every TLV that the transmitter writes is accepted by the receiver, and the record
of the sender changes in a way that depends on the sender only. The loop over
the TLVs is followed one TLV at a time (`Takes.step`).
-/

namespace Owl

variable {long : LongWidth} {receiver sender : AwdlState} {peer next : AwdlPeer}

/-! ## The loop -/

@[simp] theorem length_tlvBytes (type : AwdlTlv) (value : List UInt8) :
    (tlvBytes type value).length = value.length + 3 := by
  simp only [tlvBytes, List.length_append, List.length_cons, length_le16]
  omega

/-- A TLV is read back. -/
theorem readTlv_tlvBytes {frame : Buf} {type : AwdlTlv} {value rest : List UInt8}
    (viewed : frame.view = tlvBytes type value ++ rest) (short : value.length < 2 ^ 16) :
    readTlv frame 0 = some (type.toByte, UInt16.ofNat value.length, value) :=
  @readTlv_front frame ⟨type.toByte, value, short⟩ rest viewed

/-- One round of the loop on a TLV whose handler does not fail. -/
theorem tlvLoop_tlvBytes {list : Nat → AwdlChanseq} {tsft : UInt64} {fuel : Nat} {frame : Buf}
    {state : AwdlState} {events : List Callback} {type : AwdlTlv} {value rest : List UInt8}
    {handled : TlvOutcome} (viewed : frame.view = tlvBytes type value ++ rest)
    (short : value.length < 2 ^ 16)
    (done : awdlHandleTlv long (list frame.len) peer type.toByte (bufNewConst value) state tsft =
      handled) (success : 0 ≤ handled.result.code) :
    ∃ behind events', behind.view = rest ∧
      tlvLoop long list tsft (fuel + 1) frame peer state events =
        tlvLoop long list tsft fuel behind handled.src { state with sync := handled.sync }
          events' := by
  have within : value.length + 3 ≤ frame.view.length := by
    rw [viewed, List.length_append, length_tlvBytes]
    exact Nat.le_add_right _ _
  obtain ⟨behind, strip, viewedBehind⟩ := bufStrip_of_le within
  have length :
      ((UInt16.ofNat value.length).toNat : Int) + 3 = ((value.length + 3 : Nat) : Int) := by
    rw [UInt16.toNat_ofNat', Nat.mod_eq_of_lt short]
    rfl
  refine ⟨behind, if state.tlvCb then events ++ [.tlv handled.src type.toByte value] else events,
    ?_, ?_⟩
  · rw [viewedBehind, viewed]
    exact List.drop_left' (length_tlvBytes type value)
  · rw [tlvLoop, readTlv_tlvBytes viewed short]
    dsimp only
    rw [done, if_neg (Int.not_lt.mpr success), length, strip, Option.getD_some]

/-- A handler went well, left a record of the sender, and a node that still has
four windows in a period. -/
structure Accepted (handled : TlvOutcome) (next : AwdlPeer) : Prop where
  success : 0 ≤ handled.result.code
  src : handled.src = next
  presence : handled.sync.presenceMode = 4

/-- A byte string is one TLV that a receiver with four windows in a period
accepts, with what it does to the record of the sender. -/
def Takes (long : LongWidth) (receiver : AwdlState) (bytes : List UInt8)
    (peer next : AwdlPeer) : Prop :=
  ∃ type value, bytes = tlvBytes type value ∧ value.length < 2 ^ 16 ∧
    ∀ list tsft sync, sync.presenceMode = 4 →
      Accepted (awdlHandleTlv long list peer type.toByte (bufNewConst value)
        { receiver with sync := sync } tsft) next

/-- A TLV is taken when its handler updates the record of the sender from its
value alone. -/
theorem Takes.of_handler {bytes : List UInt8} (type : AwdlTlv) (value : List UInt8)
    (handler : AwdlPeer → Buf → RxResult × AwdlPeer) {result : RxResult}
    (shape : bytes = tlvBytes type value)
    (short : value.length < 2 ^ 16)
    (dispatched : ∀ list state tsft, awdlHandleTlv long list peer type.toByte (bufNewConst value)
      state tsft = ⟨(handler peer (bufNewConst value)).1, (handler peer (bufNewConst value)).2,
        state.sync⟩)
    (handled : ∀ val : Buf, val.view = value ++ [] → handler peer val = (result, next))
    (success : 0 ≤ result.code) : Takes long receiver bytes peer next := by
  have viewed : (bufNewConst value).view = value ++ [] := by
    rw [view_bufNewConst, List.append_nil]
  refine ⟨type, value, shape, short, fun list tsft sync presence => ?_⟩
  rw [dispatched, handled _ viewed]
  exact ⟨success, rfl, presence⟩

/-- The walk of a loop that has come to a rest of the frame and a record. -/
def LoopAt (long : LongWidth) (receiver : AwdlState) (list : Nat → AwdlChanseq) (tsft : UInt64)
    (walk : TlvWalk) (bytes : List UInt8) (peer : AwdlPeer) : Prop :=
  ∃ fuel frame sync events, bytes.length ≤ fuel ∧ frame.view = bytes ∧ sync.presenceMode = 4 ∧
    walk = tlvLoop long list tsft fuel frame peer { receiver with sync := sync } events

/-- One round of the loop. -/
theorem Takes.step {bytes rest : List UInt8} (takes : Takes long receiver bytes peer next)
    {list : Nat → AwdlChanseq} {tsft : UInt64} {walk : TlvWalk}
    (reached : LoopAt long receiver list tsft walk (bytes ++ rest) peer) :
    LoopAt long receiver list tsft walk rest next := by
  obtain ⟨type, value, rfl, short, accepted⟩ := takes
  obtain ⟨fuel, frame, sync, events, enough, viewed, presence, rfl⟩ := reached
  rw [List.length_append, length_tlvBytes] at enough
  obtain ⟨fuel, rfl⟩ : ∃ less, fuel = less + 1 := ⟨fuel - 1, by omega⟩
  obtain ⟨success, rfl, kept⟩ := accepted (list frame.len) tsft sync presence
  obtain ⟨behind, events', viewedBehind, round⟩ := tlvLoop_tlvBytes viewed short rfl success
  exact ⟨fuel, behind, _, events', by omega, viewedBehind, kept, round⟩

/-- The end of the loop. -/
theorem LoopAt.finish {list : Nat → AwdlChanseq} {tsft : UInt64} {walk : TlvWalk}
    (reached : LoopAt long receiver list tsft walk [] peer) :
    ∃ rest, walk.rest = some rest ∧ rest.len = 0 ∧ walk.peer = peer := by
  obtain ⟨fuel, frame, sync, events, _, viewed, _, rfl⟩ := reached
  have empty : frame.len = 0 := by
    rw [← frame.length_view, viewed, List.length_nil]
  have ended : tlvLoop long list tsft fuel frame peer { receiver with sync := sync } events =
      ⟨some frame, peer, { receiver with sync := sync }, events⟩ := by
    cases fuel with
    | zero => rfl
    | succ fuel =>
        have nothing : readTlv frame 0 = none := by
          unfold readTlv readU8
          rw [show (0 : Int) = (0 : Nat) from rfl, readBytes_eq, if_neg (by rw [viewed]; decide)]
          rfl
        rw [tlvLoop, nothing]
  rw [ended]
  exact ⟨frame, rfl, empty, rfl⟩

/-! ## Channel sequences -/

/-- Entries of one size are read back. -/
theorem readEntries_flatten {val : Buf} {size : Nat} {entries : List (List UInt8)}
    (sized : ∀ entry ∈ entries, entry.length = size) {front rest : List UInt8}
    (viewed : val.view = front ++ entries.flatten ++ rest) :
    readEntries val size entries.length front.length = some entries := by
  induction entries generalizing front with
  | nil => rfl
  | cons entry entries ih =>
      have width : entry.length = size := sized entry List.mem_cons_self
      have first : readBytesCopy val front.length size = some entry := by
        have shown : val.view = (front ++ entry) ++ (entries.flatten ++ rest) := by
          simp only [viewed, List.flatten_cons, List.append_assoc]
        have inside : front.length + size ≤ (front ++ entry).length := by
          rw [List.length_append, width]
        refine (readBytes_front shown inside).trans (congrArg some ?_)
        rw [List.drop_left, ← width, List.take_length]
      have others : readEntries val size entries.length (front.length + size) = some entries := by
        have sized' : ∀ other ∈ entries, other.length = size :=
          fun other member => sized other (List.mem_cons_of_mem _ member)
        have read := @ih sized' (front ++ entry)
          (by simp only [viewed, List.flatten_cons, List.append_assoc])
        rwa [List.length_append, width] at read
      rw [List.length_cons, readEntries, first]
      dsimp only [Option.bind_eq_bind, Option.bind_some]
      rw [others]
      rfl

/-- The entries of a channel sequence. -/
def chanseqEntries (sequence : AwdlChanseq) : List (List UInt8) :=
  List.ofFn fun i => (sequence i).val

theorem awdlInitChanseq_opclass (enc : sender.channel.enc = .opclass) :
    awdlInitChanseq sender =
      [15, 3, 0, 3, 0xff, 0xff] ++ (chanseqEntries sender.channel.sequence).flatten := by
  unfold awdlInitChanseq
  rw [enc]
  rfl

theorem length_awdlInitChanseq (sender : AwdlState) :
    (awdlInitChanseq sender).length = 6 + 16 * awdlChanEncodingLength sender.channel.enc := by
  unfold awdlInitChanseq
  cases sender.channel.enc <;> rfl

/-- A channel sequence is read back byte for byte. -/
theorem readChannels_awdlInitChanseq {val : Buf} {pad : List UInt8}
    (viewed : val.view = [15, 3, 0, 3, 0xff, 0xff] ++
      (chanseqEntries sender.channel.sequence).flatten ++ pad) (list : AwdlChanseq) :
    readChannels val 2 list = some sender.channel.sequence := by
  have sized : ∀ entry ∈ chanseqEntries sender.channel.sequence, entry.length = 2 := by
    intro entry member
    obtain ⟨i, rfl⟩ := List.mem_ofFn.mp member
    rfl
  have entries : readEntries val 2 awdlChanseqLength 6 =
      some (chanseqEntries sender.channel.sequence) := by
    have read := readEntries_flatten sized viewed
    rw [chanseqEntries, List.length_ofFn] at read
    exact read
  unfold readChannels
  rw [entries, Option.map_some]
  refine congrArg some (funext fun i => ?_)
  have entry : (chanseqEntries sender.channel.sequence).getD i.val [] =
      (sender.channel.sequence i).val := by
    rw [chanseqEntries, List.getD_eq_getElem?_getD, List.getElem?_ofFn, dif_pos i.isLt]
    rfl
  rw [entry]
  rfl

theorem awdlHandleChanseqTlv_tx {val : Buf} {pad : List UInt8}
    (viewed : val.view = [15, 3, 0, 3, 0xff, 0xff] ++
      (chanseqEntries sender.channel.sequence).flatten ++ pad)
    (presence : receiver.sync.presenceMode = 4) (list : AwdlChanseq) (peer : AwdlPeer) :
    awdlHandleChanseqTlv list peer val receiver =
      (.ok, { peer with sequence := sender.channel.sequence }) := by
  have front := viewed.trans (List.append_assoc ..)
  have count : readU8 val 0 = some 15 := readU8_front front rfl (by decide)
  have encoding : readU8 val 1 = some 3 := readU8_front front rfl (by decide)
  have duplicateCount : readU8 val 2 = some 0 := readU8_front front rfl (by decide)
  have stepCount : readU8 val 3 = some 3 := readU8_front front rfl (by decide)
  have fillChannel : readLe16 val 4 = some 0xffff := readLe16_front front rfl (by decide)
  have size : awdlChanEncodingSize 3 = 2 := rfl
  unfold awdlHandleChanseqTlv
  rw [count, encoding, duplicateCount, stepCount, fillChannel]
  dsimp only [checkedRead]
  rw [presence, size, if_neg (by decide), if_neg (by decide), if_neg (by decide),
    if_neg (by decide), if_neg (by decide)]
  dsimp only [Int.toNat]
  rw [readChannels_awdlInitChanseq viewed]

theorem takes_awdlInitChanseqTlv (enc : sender.channel.enc = .opclass) (peer : AwdlPeer) :
    Takes long receiver (awdlInitChanseqTlv sender) peer
      { peer with sequence := sender.channel.sequence } := by
  have short : (awdlInitChanseq sender ++ [0, 0, 0]).length < 2 ^ 16 := by
    rw [List.length_append, length_awdlInitChanseq, enc]
    decide
  refine ⟨.chanSeq, _, rfl, short, fun list tsft sync presence => ?_⟩
  have viewed := view_bufNewConst (awdlInitChanseq sender ++ [0, 0, 0])
  rw [awdlInitChanseq_opclass enc] at viewed ⊢
  have handled := @awdlHandleChanseqTlv_tx { receiver with sync := sync } sender _ _ viewed presence
    list peer
  change Accepted ⟨(awdlHandleChanseqTlv ..).1, (awdlHandleChanseqTlv ..).2, sync⟩ _
  rw [handled]
  exact ⟨(by decide : 0 ≤ RxResult.ok.code), rfl, presence⟩

/-! ## Synchronisation parameters -/

/-- The sync parameters are ignored or measured; neither changes the presence mode. -/
theorem awdlHandleSyncParamsTlv_tx {val : Buf} (enough : 31 ≤ val.view.length) (src : AwdlPeer)
    (state : AwdlState) (now : UInt64) :
    0 ≤ (awdlHandleSyncParamsTlv long src val state now).1.code ∧
      (awdlHandleSyncParamsTlv long src val state now).2.presenceMode =
        state.sync.presenceMode := by
  unfold awdlHandleSyncParamsTlv
  split
  · exact ⟨(by decide : 0 ≤ RxResult.ignore.code), rfl⟩
  · have first : readLe16 val 1 = some _ := @readLe16_of_le val 1 (by omega)
    have second : readLe16 val 29 = some _ := @readLe16_of_le val 29 (by omega)
    rw [first, second]
    dsimp only [awdlSyncUpdateLast]
    refine ⟨(by decide : 0 ≤ RxResult.ok.code), ?_⟩
    split <;> rfl

theorem takes_syncParams {value : List UInt8} (length : value.length = 73) (peer : AwdlPeer) :
    Takes long receiver (tlvBytes .synchronizationParameters value) peer peer := by
  have enough : 31 ≤ (bufNewConst value).view.length := by
    rw [view_bufNewConst]
    omega
  refine ⟨.synchronizationParameters, value, rfl, by omega, fun list tsft sync presence => ?_⟩
  obtain ⟨success, kept⟩ := awdlHandleSyncParamsTlv_tx enough peer
    { receiver with sync := sync } tsft
  exact ⟨success, rfl, kept.trans presence⟩

theorem takes_awdlInitSyncParamsTlv (enc : sender.channel.enc = .opclass) (width : LongWidth)
    (now : UInt64) (peer : AwdlPeer) :
    Takes long receiver (awdlInitSyncParamsTlv width now sender) peer peer := by
  unfold awdlInitSyncParamsTlv
  apply takes_syncParams
  simp only [List.length_append, length_awdlInitChanseq, enc, awdlChanEncodingLength, length_le16,
    EtherAddr.length_octets, List.length_cons, List.length_nil]

/-! ## Election parameters -/

/-- The record after the election parameters of the first version. -/
def electionPeer (sender : AwdlState) (peer : AwdlPeer) : AwdlPeer :=
  if peer.supportsV2 then peer
  else
    { peer with
      election :=
        { peer.election with
          height := sender.election.height.toUInt8.toUInt32
          masterAddr := sender.election.masterAddr
          masterMetric := sender.election.masterMetric
          selfMetric := sender.election.selfMetric } }

/-- The record after the election parameters of the second version. -/
def electionV2Peer (sender : AwdlState) (peer : AwdlPeer) : AwdlPeer :=
  { peer with
    election := { sender.election with selfAddr := peer.election.selfAddr }
    supportsV2 := true }

/-- The value of the election parameters of the first version. -/
def electionValue (sender : AwdlState) : List UInt8 :=
  [0] ++ le16 0 ++ [sender.election.height.toUInt8, 0] ++ sender.election.masterAddr.octets ++
    le32 sender.election.masterMetric ++ le32 sender.election.selfMetric ++ [0, 0]

/-- The value of the election parameters of the second version. -/
def electionV2Value (sender : AwdlState) : List UInt8 :=
  sender.election.masterAddr.octets ++ sender.election.syncAddr.octets ++
    le32 sender.election.masterCounter ++ le32 sender.election.height ++
    le32 sender.election.masterMetric ++ le32 sender.election.selfMetric ++ le32 0 ++ le32 0 ++
    le32 sender.election.selfCounter

theorem awdlHandleElectionParamsTlv_tx {val : Buf} (viewed : val.view = electionValue sender ++ [])
    (peer : AwdlPeer) :
    awdlHandleElectionParamsTlv peer val = (.ok, electionPeer sender peer) := by
  have length : (electionValue sender).length = 21 := rfl
  have height : readU8 val 3 = some sender.election.height.toUInt8 :=
    readU8_front viewed length (by decide)
  have masterAddr : readEtherAddr val 5 = some sender.election.masterAddr :=
    readEtherAddr_written viewed length (by decide) rfl
  have masterMetric : readLe32 val 11 = some sender.election.masterMetric :=
    readLe32_written viewed length (by decide) rfl
  have selfMetric : readLe32 val 15 = some sender.election.selfMetric :=
    readLe32_written viewed length (by decide) rfl
  unfold awdlHandleElectionParamsTlv electionPeer
  split
  · rfl
  · rw [height, masterAddr, masterMetric, selfMetric]
    rfl

theorem awdlHandleElectionParamsV2Tlv_tx {val : Buf}
    (viewed : val.view = electionV2Value sender ++ []) (peer : AwdlPeer) :
    awdlHandleElectionParamsV2Tlv peer val = (.ok, electionV2Peer sender peer) := by
  have length : (electionV2Value sender).length = 40 := rfl
  have masterAddr : readEtherAddr val 0 = some sender.election.masterAddr :=
    readEtherAddr_written viewed length (by decide) rfl
  have syncAddr : readEtherAddr val 6 = some sender.election.syncAddr :=
    readEtherAddr_written viewed length (by decide) rfl
  have masterCounter : readLe32 val 12 = some sender.election.masterCounter :=
    readLe32_written viewed length (by decide) rfl
  have height : readLe32 val 16 = some sender.election.height :=
    readLe32_written viewed length (by decide) rfl
  have masterMetric : readLe32 val 20 = some sender.election.masterMetric :=
    readLe32_written viewed length (by decide) rfl
  have selfMetric : readLe32 val 24 = some sender.election.selfMetric :=
    readLe32_written viewed length (by decide) rfl
  have selfCounter : readLe32 val 36 = some sender.election.selfCounter :=
    readLe32_written viewed length (by decide) rfl
  unfold awdlHandleElectionParamsV2Tlv
  rw [masterAddr, syncAddr, masterCounter, height, masterMetric, selfMetric, selfCounter]
  rfl

theorem takes_awdlInitElectionParamsTlv (sender : AwdlState) (peer : AwdlPeer) :
    Takes long receiver (awdlInitElectionParamsTlv sender) peer (electionPeer sender peer) := by
  have length : (electionValue sender).length = 21 := rfl
  exact Takes.of_handler .electionParameters (electionValue sender) awdlHandleElectionParamsTlv rfl
    (by omega) (fun _ _ _ => rfl)
    (fun _ viewed => awdlHandleElectionParamsTlv_tx viewed peer) (by decide)

theorem takes_awdlInitElectionParamsV2Tlv (sender : AwdlState) (peer : AwdlPeer) :
    Takes long receiver (awdlInitElectionParamsV2Tlv sender) peer
      (electionV2Peer sender peer) := by
  have length : (electionV2Value sender).length = 40 := rfl
  exact Takes.of_handler .electionParametersV2 (electionV2Value sender)
    awdlHandleElectionParamsV2Tlv rfl (by omega) (fun _ _ _ => rfl)
    (fun _ viewed => awdlHandleElectionParamsV2Tlv_tx viewed peer) (by decide)

/-! ## The other TLVs -/

/-- The characters of a string in an array. -/
def cString (array : List UInt8) : List UInt8 := array.takeWhile (· != 0)

theorem take_strlen (array : List UInt8) : array.take (strlen array) = cString array :=
  (List.prefix_iff_eq_take.mp (List.takeWhile_prefix _)).symm

theorem awdlHandleArpaTlv_tx {val : Buf} (short : strlen sender.name ≤ hostNameLengthMax)
    (viewed : val.view = ([3, UInt8.ofNat (strlen sender.name)] ++ cString sender.name) ++
      be16 awdlDnsShortLocal) (peer : AwdlPeer) :
    awdlHandleArpaTlv peer val =
      (.ok, { peer with name := overwrite peer.name 0 (cString sender.name ++ [0]) }) := by
  have announced : readU8 val 1 = some (UInt8.ofNat (strlen sender.name)) :=
    readU8_front viewed rfl (by simp only [List.length_append, List.length_cons]; omega)
  have length : (UInt8.ofNat (strlen sender.name)).toNat = strlen sender.name := by
    rw [UInt8.toNat_ofNat', Nat.mod_eq_of_lt (Nat.lt_of_le_of_lt short (by decide))]
  have bytes : readBytesCopy val 2 (strlen sender.name) = some (cString sender.name) :=
    (readBytes_front viewed (by
      simp only [List.length_append, List.length_cons, List.length_nil, strlen, cString]
      omega)).trans (congrArg some List.take_length)
  unfold awdlHandleArpaTlv readIntString
  rw [announced]
  dsimp only [Option.bind_eq_bind, Option.bind_some]
  rw [length, if_neg (Nat.not_lt.mpr short), show (1 : Int) + 1 = 2 from rfl, bytes]
  rfl

theorem takes_awdlInitArpaTlv (short : strlen sender.name ≤ hostNameLengthMax) (peer : AwdlPeer) :
    Takes long receiver (awdlInitArpaTlv sender) peer
      { peer with name := overwrite peer.name 0 (cString sender.name ++ [0]) } := by
  have shape : awdlInitArpaTlv sender = tlvBytes .arpa
      ([3, UInt8.ofNat (strlen sender.name)] ++ cString sender.name ++ be16 awdlDnsShortLocal) := by
    rw [← take_strlen]
    rfl
  refine Takes.of_handler .arpa _ awdlHandleArpaTlv shape ?_ (fun _ _ _ => rfl)
    (fun val viewed => ?_) (show 0 ≤ RxResult.ok.code by decide)
  · simp only [List.length_append, List.length_cons, List.length_nil, length_be16]
    have bound : (cString sender.name).length ≤ 64 := short
    omega
  · rw [List.append_nil] at viewed
    exact awdlHandleArpaTlv_tx short viewed peer

theorem takes_awdlInitDataPathStateTlv (sender : AwdlState) (peer : AwdlPeer) :
    Takes long receiver (awdlInitDataPathStateTlv sender) peer
      { peer with countryCode := overwrite peer.countryCode 0 [88, 48, 0] } := by
  have length : (le16 0x8f24 ++ [88, 48, 0] ++ le16 (socialChannels sender.channel.master) ++
    sender.selfAddress.octets ++ le16 0x0000).length = 15 := rfl
  refine Takes.of_handler .dataPathState _ awdlHandleDataPathStateTlv rfl (by omega)
    (fun _ _ _ => rfl) (fun val viewed => ?_) (show 0 ≤ RxResult.ok.code by decide)
  have flags : readLe16 val 0 = some 0x8f24 :=
    readLe16_written viewed length (by decide) rfl
  have country : readBytesCopy val 2 3 = some [88, 48, 0] :=
    readBytes_front viewed (by rw [length]; decide)
  have social : readLe16 val 5 = some _ := readLe16_front viewed length (by decide)
  have awdl : readEtherAddr val 7 = some _ := readEtherAddr_front viewed length (by decide)
  have countrySet : ((0x8f24 : UInt16) &&& 0x0100 != 0) = true := by decide
  have socialSet : ((0x8f24 : UInt16) &&& 0x0200 != 0) = true := by decide
  have bssidUnset : ((0x8f24 : UInt16) &&& 0x0001 != 0) = false := by decide
  have infraUnset : ((0x8f24 : UInt16) &&& 0x0002 != 0) = false := by decide
  have awdlSet : ((0x8f24 : UInt16) &&& 0x0004 != 0) = true := by decide
  unfold awdlHandleDataPathStateTlv
  rw [flags]
  simp only [checkedRead, dataPathField, countrySet, socialSet, bssidUnset, infraUnset, awdlSet,
    Bool.false_eq_true, ↓reduceIte, country, Int.reduceAdd, social, awdl]

theorem takes_awdlInitVersionTlv (sender : AwdlState) (peer : AwdlPeer) :
    Takes long receiver (awdlInitVersionTlv sender) peer
      { peer with version := sender.version, devclass := sender.devClass } := by
  have length : [sender.version, sender.devClass].length = 2 := rfl
  refine Takes.of_handler .version [sender.version, sender.devClass] awdlHandleVersionTlv rfl
    (by omega) (fun _ _ _ => rfl) (fun val viewed => ?_)
    (show 0 ≤ RxResult.ok.code by decide)
  have version : readU8 val 0 = some sender.version :=
    readU8_front viewed length (by decide)
  have devclass : readU8 val 1 = some sender.devClass :=
    readU8_front viewed length (by decide)
  unfold awdlHandleVersionTlv
  rw [version, devclass]
  rfl

/-- The receiver ignores the TLVs that it has no handler for. -/
theorem takes_awdlInitServiceParamsTlv (peer : AwdlPeer) :
    Takes long receiver awdlInitServiceParamsTlv peer peer :=
  Takes.of_handler .serviceParameters _ (fun src _ => (.ignore, src)) rfl (by decide)
    (fun _ _ _ => rfl) (fun _ _ => rfl) (show 0 ≤ RxResult.ignore.code by decide)

theorem takes_awdlInitHtCapabilitiesTlv (peer : AwdlPeer) :
    Takes long receiver awdlInitHtCapabilitiesTlv peer peer :=
  Takes.of_handler .enhancedDataRateCapabilities _ (fun src _ => (.ignore, src)) rfl (by decide)
    (fun _ _ _ => rfl) (fun _ _ => rfl) (show 0 ≤ RxResult.ignore.code by decide)

end Owl
