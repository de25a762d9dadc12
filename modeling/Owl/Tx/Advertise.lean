import Owl.Tx.Tlvs

/-! # What an action frame tells

A node that receives the action frame of another one has the election record,
the channel sequence, the version and, for a master indication frame, the name
of the sender in its peer table afterwards (`awdlRx_awdlInitFullActionFrame`).
-/

namespace Owl

variable {platform : Platform} {env : RxEnv} {sender receiver : AwdlState}

/-- A sender whose action frames are well-formed: it uses operating classes, its
election record carries its own address, and its name is a terminated string. -/
structure Advertises (sender : AwdlState) : Prop where
  enc : sender.channel.enc = .opclass
  own : sender.election.selfAddr = sender.selfAddress
  name : strlen sender.name ≤ hostNameLengthMax

/-- The record of a sender after the TLVs of its frame. -/
def advertisedPeer (sender : AwdlState) (type : AwdlActionType) (peer : AwdlPeer) : AwdlPeer :=
  { peer with
    election := { sender.election with selfAddr := peer.election.selfAddr }
    sequence := sender.channel.sequence
    supportsV2 := true
    name :=
      if type = .mif then overwrite peer.name 0 (cString sender.name ++ [0]) else peer.name
    countryCode := overwrite peer.countryCode 0 [88, 48, 0]
    version := sender.version
    devclass := sender.devClass }

/-- The second version of the election parameters covers the first one. -/
theorem electionV2Peer_electionPeer (sender : AwdlState) (sequence : AwdlChanseq)
    (peer : AwdlPeer) :
    electionV2Peer sender { electionPeer sender peer with sequence := sequence } =
      electionV2Peer sender { peer with sequence := sequence } := by
  unfold electionV2Peer electionPeer
  split <;> rfl

/-- **The loop takes all TLVs of a sent action frame.** -/
theorem LoopAt.actionTlvs {long width : LongWidth} {list : Nat → AwdlChanseq} {tsft now : UInt64}
    {walk : TlvWalk} {type : AwdlActionType} {peer : AwdlPeer} (advertises : Advertises sender)
    (reached : LoopAt long receiver list tsft walk (actionTlvs width now sender type) peer) :
    LoopAt long receiver list tsft walk [] (advertisedPeer sender type peer) := by
  unfold Owl.actionTlvs at reached
  simp only [List.append_assoc] at reached
  have reached := (takes_awdlInitSyncParamsTlv advertises.enc width now peer).step reached
  have reached := (takes_awdlInitElectionParamsTlv sender peer).step reached
  have reached := (takes_awdlInitChanseqTlv advertises.enc _).step reached
  have reached := (takes_awdlInitElectionParamsV2Tlv sender _).step reached
  have reached := (takes_awdlInitServiceParamsTlv _).step reached
  rw [electionV2Peer_electionPeer] at reached
  cases type with
  | psf =>
      simp only [reduceCtorEq, ↓reduceIte, List.nil_append] at reached
      have reached := (takes_awdlInitDataPathStateTlv sender _).step reached
      rw [← List.append_nil (awdlInitVersionTlv sender)] at reached
      exact (takes_awdlInitVersionTlv sender _).step reached
  | mif =>
      simp only [↓reduceIte] at reached
      have reached := (takes_awdlInitHtCapabilitiesTlv _).step reached
      have reached := (takes_awdlInitArpaTlv advertises.name _).step reached
      have reached := (takes_awdlInitDataPathStateTlv sender _).step reached
      rw [← List.append_nil (awdlInitVersionTlv sender)] at reached
      exact (takes_awdlInitVersionTlv sender _).step reached

/-! ## The frame -/

theorem awdlInitFullActionFrame_bytes {layer : Ieee80211State} (fcs : layer.fcs = false)
    (width : LongWidth) (clock : TxClock) (type : AwdlActionType) :
    (awdlInitFullActionFrame width clock sender layer type).1 =
      ieee80211InitRadiotapHeader ++
        ((ieee80211InitAwdlHdr sender.selfAddress sender.dst layer ieee80211Action).1 ++
          (awdlInitAction clock.action type ++ actionTlvs width clock.sync sender type)) := by
  dsimp only [awdlInitFullActionFrame, ieee80211InitAwdlActionHdr, ieee80211InitAwdlHdr, withFcs,
    ieee80211StateNextSequenceNumber]
  rw [fcs]
  simp only [Bool.false_eq_true, ↓reduceIte, List.append_assoc]

theorem awdlParseActionHdr_tx {frame : Buf} {now : UInt64} {type : AwdlActionType}
    {rest : List UInt8} (viewed : frame.view = awdlInitAction now type ++ rest) :
    awdlParseActionHdr frame = some type := by
  have length : (awdlInitAction now type).length = 16 := rfl
  have read : readBytes frame 0 awdlActionSize = some (awdlInitAction now type) :=
    readBytes_front viewed (by rw [length]; decide)
  have head : (awdlInitAction now type).getD 0 0 = ieee80211VendorSpecific ∧
      ((awdlInitAction now type).drop 1).take 3 = awdlOui ∧
      (awdlInitAction now type).getD 4 0 = awdlType ∧
      (awdlInitAction now type).getD 5 0 = awdlVersionCompat := ⟨rfl, rfl, rfl, rfl⟩
  have subtype : (awdlInitAction now type).getD 6 0 = type.toByte := rfl
  unfold awdlParseActionHdr
  rw [read]
  dsimp only [Option.bind_eq_bind, Option.bind_some]
  rw [if_pos head, subtype]
  cases type with
  | psf => rfl
  | mif => rfl

/-- A sender that the receiver knows or has memory for gets a record. -/
theorem awdlPeerAdd_room {src : EtherAddr}
    (wf : AwdlPeersWf platform.hash receiver.peers.peers)
    (room : receiver.peers.peers.toMap src = none → ∃ peers events,
      awdlPeerAdd platform.hash env.peer receiver.peers.peers src env.now receiver.peerCb =
        some (.ok, peers, events)) :
    ∃ status peers added start,
      awdlPeerAdd platform.hash env.peer receiver.peers.peers src env.now receiver.peerCb =
        some (status, peers, added) ∧ ¬status.code < 0 ∧
      Starts receiver.peers.peers.toMap env.peer.memory src env.now receiver.peerCb start added ∧
      peers.toMap = Function.update receiver.peers.peers.toMap src (some start) := by
  cases stored : receiver.peers.peers.toMap src with
  | some peer =>
      obtain ⟨peers, added, _, updated⟩ := awdlPeerAdd_known wf.table env.peer stored env.now
        receiver.peerCb
      exact ⟨_, peers, _, _, added, by decide, Or.inl ⟨peer, stored, rfl, rfl⟩, updated⟩
  | none =>
      obtain ⟨peers, events, added⟩ := room stored
      obtain ⟨_, quiet, ⟨_, inserted⟩ | ⟨failed, _⟩⟩ := awdlPeerAdd_new wf.table stored added
      · exact ⟨_, peers, events, _, added, by decide, Or.inr ⟨stored, rfl, quiet⟩, inserted⟩
      · cases failed

/-- **A sent action frame is parsed to its end** and leaves the record that it
describes in the table of the receiver. -/
theorem awdlRxAction_tx {frame : Buf} {width : LongWidth} {clock : TxClock} {dst : EtherAddr}
    {type : AwdlActionType} (advertises : Advertises sender)
    (wf : AwdlPeersWf platform.hash receiver.peers.peers)
    (presence : receiver.sync.presenceMode = 4)
    (admitted : ignoresRssi platform.hash receiver sender.selfAddress env.rssi = false)
    (room : receiver.peers.peers.toMap sender.selfAddress = none → ∃ peers events,
      awdlPeerAdd platform.hash env.peer receiver.peers.peers sender.selfAddress env.now
        receiver.peerCb = some (.ok, peers, events))
    (viewed : frame.view = awdlInitAction clock.action type ++
      actionTlvs width clock.sync sender type) :
    ∃ start added next events,
      Starts receiver.peers.peers.toMap env.peer.memory sender.selfAddress env.now
        receiver.peerCb start added ∧
      awdlRxAction platform env frame env.rssi env.now sender.selfAddress dst receiver =
        some (.ok, next, events) ∧
      next.peers.peers.toMap = Function.update receiver.peers.peers.toMap sender.selfAddress
        (some (touchedPeer (closedPeer type (advertisedPeer sender type start)) env.now)) := by
  have within : awdlActionSize ≤ frame.view.length := by
    rw [viewed, List.length_append]
    exact Nat.le_add_right 16 _
  obtain ⟨tlvs, strip, viewedTlvs⟩ := bufStrip_of_le within
  have tlvs_eq : tlvs.view = actionTlvs width clock.sync sender type := by
    rw [viewedTlvs, viewed]
    rfl
  obtain ⟨status, peers, added, start, add, success, starts, inserted⟩ := awdlPeerAdd_room wf room
  have keyed := wf.add add
  have present : peers.toMap sender.selfAddress = some start := by
    rw [inserted, Function.update_self]
  have found : (awdlPeerGet platform.hash peers sender.selfAddress).2 = some start := by
    rw [awdlPeerGet_eq keyed.table, present]
  let met : AwdlState :=
    { receiver with
      peers.peers := peers
      stats.rxAction := receiver.stats.rxAction + 1 }
  generalize walked :
    tlvLoop platform.long env.list env.now tlvs.len tlvs start met added = walk
  have reached : LoopAt platform.long met env.list env.now walk
      (actionTlvs width clock.sync sender type) start :=
    ⟨tlvs.len, tlvs, receiver.sync, added, by rw [← tlvs_eq, tlvs.length_view], tlvs_eq, presence,
      walked.symm⟩
  obtain ⟨rest, ended, empty, last⟩ := (reached.actionTlvs advertises).finish
  have keeps := tlvLoop_keeps platform.long env.list env.now tlvs.len tlvs start met added
  rw [walked] at keeps
  have walkPeers : walk.state.peers = met.peers := by rw [keeps.node]
  obtain ⟨final, done, _, stored⟩ := @finishAction_complete platform env type env.now
    sender.selfAddress receiver start walk rest wf (by rw [walkPeers]; exact keyed.table)
    (by rw [walkPeers]; exact inserted) (keeps.sender.keyedBy (starts.keyedBy wf)) ended
    (by rw [empty]; decide)
  rw [last] at stored
  have received := awdlRxAction_admitted (awdlParseActionHdr_tx viewed) strip admitted add success
    found dst
  rw [walked] at received
  exact ⟨start, added, _, _, starts, received.trans done, stored⟩

/-! ## What is learned -/

/-- A terminated string that is copied over an array is its string. -/
theorem cString_overwrite (array string : List UInt8) :
    cString (overwrite array 0 (cString string ++ [0])) = cString string := by
  have characters : ∀ char ∈ cString string, (char != 0) = true :=
    List.all_eq_true.mp List.all_takeWhile
  unfold overwrite
  rw [List.take_zero, List.nil_append, List.append_assoc, cString,
    List.takeWhile_append_of_pos characters]
  exact List.append_nil _

/-- What the record of a sender says after its frame, given the record before: all
of the election, the channel sequence and the version; after a master indication
frame also the name, and it is valid; after a periodic synchronization frame the
name and whether there was a master indication frame are as before. -/
structure Learned (sender : AwdlState) (type : AwdlActionType) (before : Option AwdlPeer)
    (peer : AwdlPeer) : Prop where
  election : peer.election = sender.election
  sequence : peer.sequence = sender.channel.sequence
  version : peer.version = sender.version
  devclass : peer.devclass = sender.devClass
  supportsV2 : peer.supportsV2 = true
  mif : type = .mif → cString peer.name = cString sender.name ∧ peer.sentMif = true ∧
    (sender.version ≠ 0 → sender.devClass ≠ 0 → peer.isValid = true)
  psf : type = .psf →
    match before with
    | some known => peer.name = known.name ∧ peer.sentMif = known.sentMif
    | none => cString peer.name = [] ∧ peer.sentMif = false

theorem learned_of_starts (advertises : Advertises sender) {type : AwdlActionType}
    (wf : AwdlPeersWf platform.hash receiver.peers.peers) {start : AwdlPeer} {added : List Callback}
    (starts : Starts receiver.peers.peers.toMap env.peer.memory sender.selfAddress env.now
      receiver.peerCb start added) :
    Learned sender type (receiver.peers.peers.toMap sender.selfAddress)
      (touchedPeer (closedPeer type (advertisedPeer sender type start)) env.now) := by
  have own : start.election.selfAddr = sender.election.selfAddr := by
    rw [(starts.keyedBy wf).selfAddr_eq, advertises.own]
  have election : ({ sender.election with selfAddr := start.election.selfAddr } :
      AwdlElectionState) = sender.election := by
    rw [own]
  cases type with
  | mif =>
      refine ⟨election, rfl, rfl, rfl, rfl, fun _ => ⟨cString_overwrite _ _, rfl, ?_⟩, nofun⟩
      intro version devClass
      have complete : awdlPeerIsValid (closedPeer .mif (advertisedPeer sender .mif start)) =
          true := by
        change (true && (sender.devClass != 0) && (sender.version != 0)) = true
        rw [bne_iff_ne.mpr devClass, bne_iff_ne.mpr version]
        rfl
      unfold touchedPeer
      rw [complete, Bool.or_true]
  | psf =>
      refine ⟨election, rfl, rfl, rfl, rfl, nofun, fun _ => ?_⟩
      rcases starts with ⟨known, stored, rfl, _⟩ | ⟨missing, rfl, _⟩
      · rw [stored]
        exact ⟨rfl, rfl⟩
      · rw [missing]
        exact ⟨rfl, rfl⟩

/-- **The action frame round trip.** -/
theorem awdlRx_awdlInitFullActionFrame (accepts : AcceptsTxHeader platform)
    (flags : env.flags = 0) (advertises : Advertises sender) {layer : Ieee80211State}
    (fcs : layer.fcs = false) (width : LongWidth) (clock : TxClock) (type : AwdlActionType)
    (wf : AwdlPeersWf platform.hash receiver.peers.peers)
    (foreign : receiver.selfAddress ≠ sender.selfAddress)
    (presence : receiver.sync.presenceMode = 4)
    (admitted : ignoresRssi platform.hash receiver sender.selfAddress env.rssi = false)
    (room : receiver.peers.peers.toMap sender.selfAddress = none → ∃ peers events,
      awdlPeerAdd platform.hash env.peer receiver.peers.peers sender.selfAddress env.now
        receiver.peerCb = some (.ok, peers, events)) (out : List Buf) :
    ∃ outcome peer,
      awdlRx platform env
        (bufNewConst (awdlInitFullActionFrame width clock sender layer type).1) out receiver =
          some outcome ∧
      outcome.result = .ok ∧
      outcome.state.peers.peers.toMap sender.selfAddress = some peer ∧
      Learned sender type (receiver.peers.peers.toMap sender.selfAddress) peer := by
  obtain ⟨body, viewed, parsed⟩ := @parseFrame_tx platform env accepts flags sender.selfAddress
    sender.dst receiver foreign.symm layer ieee80211Action
    (awdlInitAction clock.action type ++ actionTlvs width clock.sync sender type)
  rw [← awdlInitFullActionFrame_bytes fcs] at parsed
  obtain ⟨start, added, next, events, starts, handled, stored⟩ :=
    @awdlRxAction_tx platform env sender receiver body width clock sender.dst type advertises wf
      presence admitted room viewed
  have received := awdlRx_of_action parsed out frameType_ieee80211Action
  dsimp only at received
  rw [handled, Option.map_some] at received
  refine ⟨_, _, received, rfl, ?_, learned_of_starts advertises wf starts⟩
  dsimp only
  rw [stored, Function.update_self]

theorem awdlInitState_advertises (name : List UInt8) (memory election : AwdlElectionState)
    (hostname : List UInt8) (self : EtherAddr) (chan : AwdlChan) (now : UInt64)
    (sequence : AwdlChanseq) (own : election.selfAddr = self)
    (terminated : strlen (strncpy name hostname hostNameLengthMax) ≤ hostNameLengthMax) :
    Advertises
      { awdlInitState name memory hostname self chan now with
        election := election
        channel.sequence := sequence } :=
  ⟨rfl, own, terminated⟩

/-- Another node with the name `ow` that is three hops from its master. -/
def sampleSender : AwdlState :=
  { awdlInitState (List.replicate 65 0) default [111, 119] ⟨2, 0, 0, 0, 0, 2⟩ chanOpclass6 0 with
    election := ⟨⟨2, 0, 0, 0, 0, 9⟩, ⟨2, 0, 0, 0, 0, 7⟩, ⟨2, 0, 0, 0, 0, 2⟩, 3, 500, 60, 12, 4⟩
    channel.sequence := awdlChanseqInitStatic chanOpclass6 }

/-- A new node learns the name of another one from its master indication frame. -/
theorem awdlRx_awdlInitFullActionFrame_mif : ∃ outcome peer,
    awdlRx samplePlatform (sampleEnv 7) (bufNewConst
      (awdlInitFullActionFrame .bits64 ⟨5, 6⟩ sampleSender ieee80211InitState .mif).1) []
      sampleState = some outcome ∧
      outcome.result = .ok ∧
      outcome.state.peers.peers.toMap ⟨2, 0, 0, 0, 0, 2⟩ = some peer ∧
      peer.election = sampleSender.election ∧ cString peer.name = [111, 119] ∧
      peer.isValid = true := by
  have added : (awdlPeerAdd samplePlatform.hash (sampleEnv 7).peer sampleState.peers.peers
      ⟨2, 0, 0, 0, 0, 2⟩ 7 sampleState.peerCb).map Prod.fst = some .ok := by
    decide +kernel
  obtain ⟨⟨_, peers, events⟩, add, rfl⟩ := Option.map_eq_some_iff.mp added
  have advertises : Advertises sampleSender :=
    awdlInitState_advertises _ _ _ _ _ _ _ _ rfl (by decide)
  obtain ⟨outcome, peer, received, result, stored, learned⟩ :=
    @awdlRx_awdlInitFullActionFrame samplePlatform (sampleEnv 7) sampleSender sampleState
      samplePlatform_acceptsTxHeader rfl advertises ieee80211InitState rfl .bits64 ⟨5, 6⟩ .mif
      awdlPeersInit_wf (by decide) rfl (by decide +kernel) (fun _ => ⟨peers, events, add⟩) []
  obtain ⟨name, _, valid⟩ := learned.mif rfl
  exact ⟨outcome, peer, received, result, stored, learned.election,
    name.trans (by decide), valid (by decide) (by decide)⟩

end Owl
