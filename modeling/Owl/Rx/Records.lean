import Owl.Daemon.Invariant
import Owl.Rx.ElectionHistory

/-! # Records of peers over runs

What happens to the record of a peer: it is created, touched, changed by a TLV, marked
after a master indication frame, and removed. A property of records that all this keeps
holds of every record that a daemon ever has (`RecordKept.daemon`), also of those that a
rejected TLV has left half written.
-/

namespace Owl

variable {platform : Platform} {env : RxEnv} {Kept : AwdlPeer → Prop}

/-- A property of records that nothing that happens to them ends. -/
structure RecordKept (Kept : AwdlPeer → Prop) : Prop where
  fresh : ∀ memory addr now, Kept (freshPeer memory addr now)
  touched : ∀ peer now, Kept peer → Kept (touchedPeer peer now)
  closed : ∀ subtype peer, Kept peer → Kept (closedPeer subtype peer)
  tlv : ∀ long list peer type val state tsft, Kept peer →
    Kept (awdlHandleTlv long list peer type val state tsft).src

/-- All records of a table have a property. -/
def AllRecords (Kept : AwdlPeer → Prop) (map : EtherAddr → Option AwdlPeer) : Prop :=
  ∀ addr peer, map addr = some peer → Kept peer

theorem AllRecords.update {map : EtherAddr → Option AwdlPeer} (all : AllRecords Kept map)
    {src : EtherAddr} {peer : AwdlPeer} (kept : Kept peer) :
    AllRecords Kept (Function.update map src (some peer)) := by
  intro addr found stored
  by_cases same : addr = src
  · subst same
    rw [Function.update_self] at stored
    cases stored
    exact kept
  · rw [Function.update_of_ne same] at stored
    exact all addr found stored

namespace RecordKept

variable (rule : RecordKept Kept)

include rule

theorem starts {map : EtherAddr → Option AwdlPeer} {memory start : AwdlPeer} {src : EtherAddr}
    {tsft : UInt64} {cb : Bool} {added : List Callback} (all : AllRecords Kept map)
    (starts : Starts map memory src tsft cb start added) : Kept start := by
  rcases starts with ⟨peer, stored, rfl, _⟩ | ⟨_, rfl, _⟩
  · exact rule.touched peer tsft (all src peer stored)
  · exact rule.fresh memory src tsft

/-- The TLVs of a frame, up to its end or to one that is rejected. -/
theorem tlvLoop (long : LongWidth) (list : Nat → AwdlChanseq) (tsft : UInt64) (fuel : Nat)
    (frame : Buf) (peer : AwdlPeer) (state : AwdlState) (events : List Callback)
    (kept : Kept peer) : Kept (Owl.tlvLoop long list tsft fuel frame peer state events).peer := by
  induction fuel generalizing frame peer state events with
  | zero => exact kept
  | succ fuel ih =>
      unfold Owl.tlvLoop
      split
      · exact kept
      rename_i type len value _
      have handled := rule.tlv long (list frame.len) peer type (bufNewConst value) state tsft kept
      dsimp only
      split
      · exact handled
      · exact ih _ _ _ _ handled

/-- The end of an action frame. -/
theorem finishAction {subtype : AwdlActionType} {tsft : UInt64} {src : EtherAddr}
    {state middle next : AwdlState} {start : AwdlPeer} {added events : List Callback}
    {walk : TlvWalk} {result : RxResult} (wf : AwdlPeersWf platform.hash state.peers.peers)
    (starts : Starts state.peers.peers.toMap env.peer.memory src tsft state.peerCb start added)
    (table : middle.peers.peers.Wf platform.hash)
    (inserted : middle.peers.peers.toMap =
      Function.update state.peers.peers.toMap src (some start))
    (keeps : walk.Keeps start middle added) (kept : Kept walk.peer)
    (all : AllRecords Kept state.peers.peers.toMap)
    (done : Owl.finishAction platform env subtype tsft src walk = some (result, next, events)) :
    AllRecords Kept next.peers.peers.toMap := by
  have own : walk.peer.KeyedBy src := keeps.sender.keyedBy (starts.keyedBy wf)
  have walkPeers : walk.state.peers = middle.peers := by rw [keeps.node]
  rw [← walkPeers] at table inserted
  have left : ∀ result events, some (RxResult.unexpectedFormat,
      storePeer platform.hash walk.state src walk.peer, walk.events) =
        some (result, next, events) → AllRecords Kept next.peers.peers.toMap := by
    rintro result events ⟨⟩
    rw [(storePeer_spec wf table inserted own).2]
    exact all.update kept
  unfold Owl.finishAction at done
  split at done
  · exact left _ _ done
  · split at done
    · exact left _ _ done
    · rename_i rest ended empty
      obtain ⟨peers, returned, _, touched⟩ := @finishAction_complete platform env subtype tsft src
        state start walk rest wf table inserted own ended empty
      rw [Owl.finishAction, ended] at returned
      dsimp only at returned
      rw [if_neg empty] at returned
      cases returned.symm.trans done
      dsimp only
      rw [touched]
      exact all.update (rule.touched _ tsft (rule.closed subtype _ kept))

theorem rxAction {frame : Buf} {rssi : Int8} {tsft : UInt64} {src dst : EtherAddr}
    {state next : AwdlState} {result : RxResult} {events : List Callback}
    (wf : AwdlPeersWf platform.hash state.peers.peers)
    (all : AllRecords Kept state.peers.peers.toMap)
    (done : awdlRxAction platform env frame rssi tsft src dst state =
      some (result, next, events)) : AllRecords Kept next.peers.peers.toMap := by
  unfold awdlRxAction at done
  split at done
  · cases done
    exact all
  dsimp only at done
  split at done
  · cases done
    exact all
  split at done
  · cases done
  rename_i status peers added add
  have keyed := wf.add add
  rcases awdlPeerAdd_starts wf.table add with ⟨start, success, starts, inserted⟩ |
    ⟨failure, _, _, _, part⟩
  · have present : peers.toMap src = some start := by rw [inserted, Function.update_self]
    rw [if_neg success, awdlPeerGet_eq keyed.table, present] at done
    refine rule.finishAction wf starts ?_ ?_ (tlvLoop_keeps ..) ?_ all done
    · exact keyed.table
    · exact inserted
    · exact rule.tlvLoop _ _ _ _ _ _ _ _ (rule.starts all starts)
  · rw [if_pos failure] at done
    cases done
    exact fun addr peer stored => all addr peer (part addr peer stored)

/-- **Every event of a daemon keeps the property of all records.** -/
theorem daemon {state next : DaemonState} {label : DaemonLabel} {output : DaemonOutput}
    (wf : DaemonWf platform state) (all : AllRecords Kept state.awdlState.peers.peers.toMap)
    (step : DaemonStep platform state label output next) :
    AllRecords Kept next.awdlState.peers.peers.toMap := by
  cases label with
  | receive env buf =>
      obtain ⟨outcome, done, rfl, _⟩ := step
      obtain ⟨rx, received, rfl⟩ := Option.map_eq_some_iff.mp done
      have kept : AllRecords Kept rx.state.peers.peers.toMap := by
        unfold awdlRx at received
        split at received
        · cases received
          exact all
        rename_i frame _
        by_cases type : frameType frame.hdr.frameControl = ieee80211Action
        · rw [dispatchFrame_of_action type] at received
          obtain ⟨⟨result, next, events⟩, handled, rfl⟩ := Option.map_eq_some_iff.mp received
          exact rule.rxAction wf.table all handled
        · obtain ⟨counted, _⟩ := dispatchFrame_other type received
          rw [counted]
          exact all
      dsimp only [countUnknown]
      split <;> exact kept
  | clean now =>
      obtain ⟨rfl, _⟩ := step
      obtain ⟨peers, _, survivors, after⟩ := awdlCleanPeers_effect now wf.table
      rw [after]
      dsimp only
      rw [survivors]
      exact fun addr peer kept => all addr peer (survivors_eq_some kept)

end RecordKept

/-! ## What TLVs write -/

/-- What holds of a record whatever is written to the fields that TLVs are about. -/
structure TlvKept (Kept : AwdlPeer → Prop) : Prop where
  sequence : ∀ peer sequence, Kept peer → Kept { peer with sequence := sequence }
  election : ∀ peer election v2, Kept peer →
    Kept { peer with election := election, supportsV2 := v2 }
  name : ∀ peer name, Kept peer → Kept { peer with name := name }
  countryCode : ∀ peer code, Kept peer → Kept { peer with countryCode := code }
  infraAddr : ∀ peer addr, Kept peer → Kept { peer with infraAddr := addr }
  version : ∀ peer version devclass, Kept peer →
    Kept { peer with version := version, devclass := devclass }

namespace TlvKept

variable (rule : TlvKept Kept) {src : AwdlPeer} (kept : Kept src)

include rule kept

/-- A handler of election parameters writes them field by field. -/
theorem electionParams (val : Buf) : Kept (awdlHandleElectionParamsTlv src val).2 := by
  rw [awdlHandleElectionParamsTlv]
  split
  · exact kept
  apply checkedRead_keeps _ kept
  intro height
  apply checkedRead_keeps _ (rule.election src _ src.supportsV2 kept)
  intro masterAddr
  apply checkedRead_keeps _ (rule.election src _ src.supportsV2 kept)
  intro masterMetric
  exact checkedRead_keeps _ (rule.election src _ src.supportsV2 kept)
    fun selfMetric => rule.election src _ src.supportsV2 kept

theorem electionParamsV2 (val : Buf) : Kept (awdlHandleElectionParamsV2Tlv src val).2 := by
  apply checkedRead_keeps _ kept
  intro height
  apply checkedRead_keeps _ (rule.election src _ src.supportsV2 kept)
  intro masterAddr
  apply checkedRead_keeps _ (rule.election src _ src.supportsV2 kept)
  intro syncAddr
  apply checkedRead_keeps _ (rule.election src _ src.supportsV2 kept)
  intro masterCounter
  apply checkedRead_keeps _ (rule.election src _ src.supportsV2 kept)
  intro masterMetric
  apply checkedRead_keeps _ (rule.election src _ src.supportsV2 kept)
  intro selfMetric
  exact checkedRead_keeps _ (rule.election src _ src.supportsV2 kept)
    fun selfCounter => rule.election src _ true kept

/-- **A property of the other fields outlives every TLV.** -/
theorem tlv (long : LongWidth) (list : AwdlChanseq) (type : UInt8) (val : Buf) (state : AwdlState)
    (tsft : UInt64) : Kept (awdlHandleTlv long list src type val state tsft).src := by
  rw [awdlHandleTlv]
  split_ifs
  · exact kept
  · exact awdlHandleChanseqTlv_keeps list val state kept fun _ => rule.sequence src _ kept
  · exact rule.electionParams kept val
  · exact rule.electionParamsV2 kept val
  · exact checkedRead_keeps _ kept fun _ => rule.name src _ kept
  · exact awdlHandleDataPathStateTlv_keeps val kept rule.countryCode rule.infraAddr
  · apply checkedRead_keeps _ kept
    intro version
    exact checkedRead_keeps _ kept fun _ => rule.version src _ _ kept
  · exact kept

end TlvKept

end Owl
