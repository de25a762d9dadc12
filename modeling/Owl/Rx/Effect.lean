import Owl.Awdl.PeerMap
import Owl.Rx.Data

/-! # What a received frame does

The effect of `awdl_rx` on a node, stated on the map that its peer table denotes.
A frame leaves the node alone, or it is an action frame that changes the record
of its sender (`awdlRx_effect`). All that is proved about runs of the daemon
rests on this case analysis and not on the code of the handlers.
-/

namespace Owl

variable {platform : Platform} {env : RxEnv}

/-- The node is as before up to its peer table, its sync state and its counters. -/
def SameNode (before after : AwdlState) : Prop :=
  after = { before with
    peers.peers := after.peers.peers
    sync := after.sync
    stats := after.stats }

theorem SameNode.refl (state : AwdlState) : SameNode state state := rfl

theorem SameNode.trans {first second third : AwdlState} (one : SameNode first second)
    (two : SameNode second third) : SameNode first third := by
  have carried := congrArg (fun state : AwdlState => { state with
    peers.peers := third.peers.peers
    sync := third.sync
    stats := third.stats }) one
  exact Eq.trans two carried

theorem SameNode.election_eq {before after : AwdlState} (same : SameNode before after) :
    after.election = before.election := by
  rw [same]

theorem SameNode.selfAddress_eq {before after : AwdlState} (same : SameNode before after) :
    after.selfAddress = before.selfAddress := by
  rw [same]

theorem SameNode.peerCb_eq {before after : AwdlState} (same : SameNode before after) :
    after.peerCb = before.peerCb := by
  rw [same]

/-! ## The TLV loop -/

/-- The callbacks of the TLV loop. -/
def Callback.IsTlv : Callback → Prop
  | .tlv _ _ _ => True
  | _ => False

/-- What the TLV loop keeps: the identity of the sender, the node but for its
sync state, and the sync state if the sender is not the sync master. -/
structure TlvWalk.Keeps (walk : TlvWalk) (peer : AwdlPeer) (state : AwdlState)
    (events : List Callback) : Prop where
  sender : SameSender peer walk.peer
  node : walk.state = { state with sync := walk.state.sync }
  sync : state.election.syncAddr ≠ peer.addr → walk.state.sync = state.sync
  events : ∃ tlvs, walk.events = events ++ tlvs ∧ ∀ event ∈ tlvs, event.IsTlv

theorem TlvWalk.Keeps.refl (rest : Option Buf) (peer : AwdlPeer) (state : AwdlState)
    (events : List Callback) : TlvWalk.Keeps ⟨rest, peer, state, events⟩ peer state events where
  sender := SameSender.refl peer
  node := rfl
  sync := fun _ => rfl
  events := ⟨[], (List.append_nil events).symm,
    fun _ member => absurd member List.not_mem_nil⟩

/-- A walk that goes on from a round that kept all this. -/
theorem TlvWalk.Keeps.trans {walk : TlvWalk} {middle : TlvWalk} {peer : AwdlPeer}
    {state : AwdlState} {events : List Callback} (first : middle.Keeps peer state events)
    (second : walk.Keeps middle.peer middle.state middle.events) :
    walk.Keeps peer state events where
  sender := first.sender.trans second.sender
  node := by
    have carried := congrArg (fun between : AwdlState => { between with sync := walk.state.sync })
      first.node
    exact second.node.trans carried
  sync := by
    intro foreign
    have unchanged : middle.state.election = state.election := by
      rw [first.node]
    rw [second.sync (by rw [unchanged, first.sender.addr]; exact foreign), first.sync foreign]
  events := by
    obtain ⟨early, one, earlyTlv⟩ := first.events
    obtain ⟨late, two, lateTlv⟩ := second.events
    refine ⟨early ++ late, ?_, ?_⟩
    · rw [two, one, List.append_assoc]
    · intro event member
      rcases List.mem_append.mp member with before | after
      · exact earlyTlv event before
      · exact lateTlv event after

/-- One round of the loop, whatever the handler returns. -/
theorem tlvRound_keeps (long : LongWidth) (list : AwdlChanseq) (tsft : UInt64) (rest : Option Buf)
    (peer : AwdlPeer) (state : AwdlState) (events : List Callback) (type : UInt8)
    (value : List UInt8) (handled : TlvOutcome)
    (done : awdlHandleTlv long list peer type (bufNewConst value) state tsft = handled) :
    TlvWalk.Keeps ⟨rest, handled.src, { state with sync := handled.sync },
      if state.tlvCb then events ++ [.tlv handled.src type value] else events⟩
      peer state events := by
  subst done
  refine ⟨awdlHandleTlv_sameSender .., rfl, fun foreign => awdlHandleTlv_sync _ _ _ _ _ _ _ foreign,
    ?_⟩
  dsimp only
  split
  · refine ⟨_, rfl, fun event member => ?_⟩
    rw [List.mem_singleton.mp member]
    trivial
  · exact ⟨[], (List.append_nil events).symm, fun _ member => absurd member List.not_mem_nil⟩

/-- **The loop keeps what each of its rounds keeps.** -/
theorem tlvLoop_keeps (long : LongWidth) (list : Nat → AwdlChanseq) (tsft : UInt64) (fuel : Nat)
    (frame : Buf) (peer : AwdlPeer) (state : AwdlState) (events : List Callback) :
    (tlvLoop long list tsft fuel frame peer state events).Keeps peer state events := by
  induction fuel generalizing frame peer state events with
  | zero => exact TlvWalk.Keeps.refl ..
  | succ fuel ih =>
      unfold tlvLoop
      split
      · exact TlvWalk.Keeps.refl ..
      · rename_i type len value _
        have round := fun rest => tlvRound_keeps long (list frame.len) tsft rest peer state events
          type value _ rfl
        dsimp only
        split
        · exact round none
        · exact (round none).trans (ih ..)

/-! ## Action frames -/

/-- The record with which the TLV loop starts and the events of the first add: a
known sender is refreshed, a new one gets a fresh record. -/
def Starts (map : EtherAddr → Option AwdlPeer) (memory : AwdlPeer) (src : EtherAddr)
    (tsft : UInt64) (cb : Bool) (start : AwdlPeer) (added : List Callback) : Prop :=
  (∃ peer, map src = some peer ∧ start = touchedPeer peer tsft ∧ added = addEvents cb peer tsft) ∨
    (map src = none ∧ start = freshPeer memory src tsft ∧ added = [])

/-- The record of a sender whose frame of a subtype has been parsed to its end. -/
def closedPeer (subtype : AwdlActionType) (peer : AwdlPeer) : AwdlPeer :=
  if subtype = .mif then { peer with sentMif := true } else peer

theorem closedPeer_keyedBy (subtype : AwdlActionType) {peer : AwdlPeer} {addr : EtherAddr}
    (own : peer.KeyedBy addr) : (closedPeer subtype peer).KeyedBy addr := by
  unfold closedPeer
  split
  · exact ⟨own.addr_eq, own.selfAddr_eq⟩
  · exact own

@[simp] theorem closedPeer_isValid (subtype : AwdlActionType) (peer : AwdlPeer) :
    (closedPeer subtype peer).isValid = peer.isValid := by
  unfold closedPeer
  split <;> rfl

/-- What the TLVs of a frame do: `peer` is the record after them and `events` are
the calls of callbacks up to there. -/
structure Updates (env : RxEnv) (tsft : UInt64) (src : EtherAddr) (state next : AwdlState)
    (peer : AwdlPeer) (events : List Callback) : Prop where
  events : ∃ start added tlvs, SameSender start peer ∧ events = added ++ tlvs ∧
    (∀ event ∈ tlvs, event.IsTlv) ∧
    Starts state.peers.peers.toMap env.peer.memory src tsft state.peerCb start added
  sync : state.election.syncAddr ≠ src → next.sync = state.sync

/-- The effect of an action frame with body `frame` from `src`. -/
inductive ActionEffect (env : RxEnv) (frame : Buf) (tsft : UInt64) (src : EtherAddr)
    (state next : AwdlState) : RxResult → List Callback → Prop
  /-- Not an AWDL frame, or too weak. -/
  | refused {result : RxResult} (positive : 0 < result.code) (same : next.peers = state.peers)
      (sync : next.sync = state.sync) : ActionEffect env frame tsft src state next result []
  /-- There was no memory for a new sender. -/
  | exhausted (missing : state.peers.peers.toMap src = none)
      (failed : ∃ length, env.peer.calloc length = false) (sync : next.sync = state.sync)
      (part : ∀ query found, next.peers.peers.toMap query = some found →
        state.peers.peers.toMap query = some found) :
      ActionEffect env frame tsft src state next .ignore []
  /-- The frame was left before its end. -/
  | aborted {peer : AwdlPeer} {events : List Callback}
      (updates : Updates env tsft src state next peer events)
      (stored : next.peers.peers.toMap =
        Function.update state.peers.peers.toMap src (some peer)) :
      ActionEffect env frame tsft src state next .unexpectedFormat events
  /-- The frame was parsed to its end. -/
  | completed {subtype : AwdlActionType} {peer : AwdlPeer} {events : List Callback}
      (parsed : awdlParseActionHdr frame = some subtype)
      (updates : Updates env tsft src state next peer events)
      (stored : next.peers.peers.toMap = Function.update state.peers.peers.toMap src
        (some (touchedPeer (closedPeer subtype peer) tsft))) :
      ActionEffect env frame tsft src state next .ok
        (events ++ addEvents state.peerCb (closedPeer subtype peer) tsft)

theorem Starts.keyedBy {peers : AwdlPeers} {hash : EtherAddr → UInt64}
    (wf : AwdlPeersWf hash peers) {memory start : AwdlPeer} {src : EtherAddr} {tsft : UInt64}
    {cb : Bool} {added : List Callback}
    (starts : Starts peers.toMap memory src tsft cb start added) :
    start.KeyedBy src := by
  rcases starts with ⟨peer, stored, rfl, _⟩ | ⟨_, rfl, _⟩
  · have own := wf.keyed src peer stored
    exact ⟨own.addr_eq, own.selfAddr_eq⟩
  · exact ⟨rfl, rfl⟩

theorem SameSender.keyedBy {before after : AwdlPeer} {addr : EtherAddr}
    (same : SameSender before after) (own : before.KeyedBy addr) : after.KeyedBy addr :=
  ⟨same.addr.trans own.addr_eq, same.selfAddr.trans own.selfAddr_eq⟩

/-- A record written to the table of a node that has one for the sender. -/
theorem storePeer_spec {hash : EtherAddr → UInt64} {state middle : AwdlState} {src : EtherAddr}
    {start : AwdlPeer} (wf : AwdlPeersWf hash state.peers.peers)
    (table : middle.peers.peers.Wf hash)
    (inserted : middle.peers.peers.toMap =
      Function.update state.peers.peers.toMap src (some start))
    {peer : AwdlPeer} (own : peer.KeyedBy src) :
    AwdlPeersWf hash (storePeer hash middle src peer).peers.peers ∧
      (storePeer hash middle src peer).peers.peers.toMap =
        Function.update state.peers.peers.toMap src (some peer) := by
  have present : middle.peers.peers.toMap src = some start := by
    rw [inserted, Function.update_self]
  obtain ⟨storedWf, written⟩ := hashmapStore_of_some table present peer
  rw [inserted, Function.update_idem] at written
  exact ⟨wf.update storedWf own written, written⟩

/-- The end of an action frame that has been parsed to its end. -/
theorem finishAction_complete {subtype : AwdlActionType} {tsft : UInt64} {src : EtherAddr}
    {state : AwdlState} {start : AwdlPeer} {walk : TlvWalk} {rest : Buf}
    (wf : AwdlPeersWf platform.hash state.peers.peers)
    (table : walk.state.peers.peers.Wf platform.hash)
    (inserted : walk.state.peers.peers.toMap =
      Function.update state.peers.peers.toMap src (some start))
    (own : walk.peer.KeyedBy src) (ended : walk.rest = some rest) (empty : ¬rest.len > 0) :
    ∃ peers, finishAction platform env subtype tsft src walk =
        some (.ok,
          { storePeer platform.hash walk.state src (closedPeer subtype walk.peer) with
            peers.peers := peers },
          walk.events ++ addEvents walk.state.peerCb (closedPeer subtype walk.peer) tsft) ∧
      AwdlPeersWf platform.hash peers ∧
      peers.toMap = Function.update state.peers.peers.toMap src
        (some (touchedPeer (closedPeer subtype walk.peer) tsft)) := by
  have closed := closedPeer_keyedBy subtype own
  obtain ⟨storedWf, written⟩ := storePeer_spec wf table inserted closed
  have present : (storePeer platform.hash walk.state src
      (closedPeer subtype walk.peer)).peers.peers.toMap src =
        some (closedPeer subtype walk.peer) := by
    rw [written, Function.update_self]
  obtain ⟨peers, again, _, touched⟩ := awdlPeerAdd_known storedWf.table env.peer present
    tsft walk.state.peerCb
  have keyed := storedWf.add again
  rw [written, Function.update_idem] at touched
  refine ⟨peers, ?_, keyed, touched⟩
  unfold finishAction
  rw [ended]
  dsimp only
  rw [if_neg empty]
  dsimp only [closedPeer, storePeer] at again ⊢
  rw [again]

/-- The end of an action frame, from the table after the first add. -/
theorem finishAction_effect {subtype : AwdlActionType} {tsft : UInt64} {src : EtherAddr}
    {frame : Buf} {state middle next : AwdlState} {start : AwdlPeer} {added events : List Callback}
    {walk : TlvWalk} {result : RxResult} (wf : AwdlPeersWf platform.hash state.peers.peers)
    (parsed : awdlParseActionHdr frame = some subtype)
    (starts : Starts state.peers.peers.toMap env.peer.memory src tsft state.peerCb start added)
    (same : SameNode state middle) (sync : middle.sync = state.sync)
    (table : middle.peers.peers.Wf platform.hash)
    (inserted : middle.peers.peers.toMap =
      Function.update state.peers.peers.toMap src (some start))
    (keeps : walk.Keeps start middle added)
    (done : finishAction platform env subtype tsft src walk = some (result, next, events)) :
    AwdlPeersWf platform.hash next.peers.peers ∧ SameNode state next ∧
      ActionEffect env frame tsft src state next result events := by
  have own : walk.peer.KeyedBy src := keeps.sender.keyedBy (starts.keyedBy wf)
  have walkPeers : walk.state.peers = middle.peers := by rw [keeps.node]
  have walkNode : SameNode state walk.state := by
    apply same.trans
    unfold SameNode
    rw [keeps.node]
  rw [← walkPeers] at table inserted
  have updates : ∀ after : AwdlState, after.sync = walk.state.sync →
      Updates env tsft src state after walk.peer walk.events := by
    intro after afterSync
    obtain ⟨tlvs, appended, all⟩ := keeps.events
    refine ⟨⟨start, added, tlvs, keeps.sender, appended, all, starts⟩, fun foreign => ?_⟩
    have stranger : middle.election.syncAddr ≠ start.addr := by
      rw [same.election_eq, (starts.keyedBy wf).addr_eq]
      exact foreign
    rw [afterSync, keeps.sync stranger, sync]
  have left : ∀ result events, some (RxResult.unexpectedFormat,
      storePeer platform.hash walk.state src walk.peer, walk.events) =
        some (result, next, events) →
      AwdlPeersWf platform.hash next.peers.peers ∧ SameNode state next ∧
        ActionEffect env frame tsft src state next result events := by
    rintro result events ⟨⟩
    obtain ⟨storedWf, written⟩ := storePeer_spec wf table inserted own
    exact ⟨storedWf, walkNode.trans rfl, .aborted (updates _ rfl) written⟩
  unfold finishAction at done
  split at done
  · exact left _ _ done
  · split at done
    · exact left _ _ done
    · rename_i rest ended empty
      obtain ⟨peers, returned, keyed, touched⟩ := @finishAction_complete platform env subtype
        tsft src state start walk rest wf table inserted own ended empty
      rw [finishAction, ended] at returned
      dsimp only at returned
      rw [if_neg empty] at returned
      cases returned.symm.trans done
      rw [walkNode.peerCb_eq]
      exact ⟨keyed, walkNode.trans rfl, .completed parsed (updates _ rfl) touched⟩

/-- The first add of an action frame: the sender has a record, or there was no memory. -/
theorem awdlPeerAdd_starts {hash : EtherAddr → UInt64} {peers next : AwdlPeers}
    (wf : peers.Wf hash) {src : EtherAddr} {tsft : UInt64} {cb : Bool} {status : PeersStatus}
    {added : List Callback}
    (done : awdlPeerAdd hash env.peer peers src tsft cb = some (status, next, added)) :
    (∃ start, ¬status.code < 0 ∧ Starts peers.toMap env.peer.memory src tsft cb start added ∧
        next.toMap = Function.update peers.toMap src (some start)) ∨
      (status.code < 0 ∧ added = [] ∧ peers.toMap src = none ∧
        (∃ length, env.peer.calloc length = false) ∧
        ∀ query found, next.toMap query = some found → peers.toMap query = some found) := by
  obtain ⟨_, ⟨peer, stored, rfl, rfl, updated⟩ | ⟨missing, rfl, rfl, updated⟩ |
    ⟨missing, rfl, rfl, failed, part⟩⟩ := awdlPeerAdd_cases wf done
  · exact Or.inl ⟨_, by decide, Or.inl ⟨peer, stored, rfl, rfl⟩, updated⟩
  · exact Or.inl ⟨_, by decide, Or.inr ⟨missing, rfl, rfl⟩, updated⟩
  · exact Or.inr ⟨by decide, rfl, missing, failed, part⟩

/-- **What an action frame does.** -/
theorem awdlRxAction_effect {frame : Buf} {rssi : Int8} {tsft : UInt64} {src dst : EtherAddr}
    {state next : AwdlState} {result : RxResult} {events : List Callback}
    (wf : AwdlPeersWf platform.hash state.peers.peers)
    (done : awdlRxAction platform env frame rssi tsft src dst state =
      some (result, next, events)) :
    AwdlPeersWf platform.hash next.peers.peers ∧ SameNode state next ∧
      ActionEffect env frame tsft src state next result events := by
  unfold awdlRxAction at done
  split at done
  · cases done
    exact ⟨wf, rfl, .refused (by decide) rfl rfl⟩
  · rename_i subtype parsed
    dsimp only at done
    split at done
    · cases done
      exact ⟨wf, rfl, .refused (by decide) rfl rfl⟩
    · split at done
      · cases done
      · rename_i status peers added add
        have keyed := wf.add add
        rcases awdlPeerAdd_starts wf.table add with ⟨start, success, starts, inserted⟩ |
          ⟨failure, rfl, missing, failed, part⟩
        · have present : peers.toMap src = some start := by rw [inserted, Function.update_self]
          rw [if_neg success, awdlPeerGet_eq keyed.table, present] at done
          refine finishAction_effect wf parsed starts ?_ ?_ ?_ ?_ (tlvLoop_keeps ..) done
          · rfl
          · rfl
          · exact keyed.table
          · exact inserted
        · rw [if_pos failure] at done
          cases done
          exact ⟨keyed, rfl, .exhausted missing failed rfl part⟩

/-! ## Data frames -/

/-- Data frames change nothing but the counters. -/
theorem awdlRxData_state (frame : Buf) (out : List Buf) (src dst : EtherAddr)
    (state : AwdlState) :
    (awdlRxData platform env frame out src dst state).2.2 =
      { state with stats.rxData := state.stats.rxData + 1 } := by
  unfold awdlRxData
  dsimp only
  split_ifs <;> rfl

/-- What holds of a walk that stops and is kept from the state behind a subframe to the
state before it, holds of every walk. -/
theorem amsduLoop_induct (Motive : AwdlState → RxResult × List Buf × AwdlState → Prop)
    (stops : ∀ result out state, result = .ok ∨ result = .tooShort →
      Motive state (result, out, state))
    (rejected : ∀ frame out src dst state,
      Motive state (awdlRxData platform env frame out src dst state))
    (passed : ∀ frame out src dst state result,
      Motive (awdlRxData platform env frame out src dst state).2.2 result → Motive state result)
    (fuel : Nat) (frame : Buf) (out : List Buf) (state : AwdlState) :
    Motive state (amsduLoop platform env fuel frame out state) := by
  induction fuel generalizing frame out state with
  | zero => exact stops _ out state (Or.inl rfl)
  | succ fuel ih =>
      unfold amsduLoop
      split
      · exact stops _ out state (Or.inl rfl)
      split
      · rename_i dstA srcA lenA body _ _ _ _
        have handled := rejected (bufNewConst (body.view.take lenA.toNat)) out srcA dstA state
        have later := passed (bufNewConst (body.view.take lenA.toNat)) out srcA dstA state
        generalize awdlRxData platform env (bufNewConst (body.view.take lenA.toNat)) out srcA dstA
          state = data at handled later ⊢
        obtain ⟨err, out', state'⟩ := data
        split
        · exact stops _ out state (Or.inr rfl)
        dsimp only at later ⊢
        split
        · exact handled
        apply later
        split
        · exact stops _ out' state' (Or.inr rfl)
        split
        · split
          · exact stops _ out' state' (Or.inr rfl)
          · exact ih _ out' state'
        · exact ih _ out' state'
      · exact stops _ out state (Or.inr rfl)

theorem amsduLoop_state (fuel : Nat) (frame : Buf) (out : List Buf) (state : AwdlState) :
    (amsduLoop platform env fuel frame out state).2.2 =
      { state with stats := (amsduLoop platform env fuel frame out state).2.2.stats } := by
  refine amsduLoop_induct
    (fun state result => result.2.2 = { state with stats := result.2.2.stats }) ?_ ?_ ?_ fuel frame
    out state
  · intro result out state _
    rfl
  · intro frame out src dst state
    rw [awdlRxData_state]
  · intro frame out src dst state result kept
    rw [awdlRxData_state] at kept
    exact kept

/-! ## Captured frames -/

/-- The effect of a captured frame: none but counting unless it is an action frame. -/
inductive RxEffect (platform : Platform) (env : RxEnv) (frame : Buf) (state next : AwdlState)
    (result : RxResult) (events : List Callback) : Prop
  | untouched
      (other : result = .ok → ∃ rx, parseFrame platform env frame state = .ok rx ∧
        frameType rx.hdr.frameControl ≠ ieee80211Action)
      (counted : next = { state with stats := next.stats }) (quiet : events = [])
  | action {rx : RxFrame} (parsed : parseFrame platform env frame state = .ok rx)
      (type : frameType rx.hdr.frameControl = ieee80211Action)
      (effect : ActionEffect env rx.body env.now rx.hdr.addr2 state next result events)

/-- Counting the frame once more does not matter. -/
theorem RxEffect.stats {frame : Buf} {state next : AwdlState} {result : RxResult}
    {events : List Callback} (effect : RxEffect platform env frame state next result events)
    (stats : AwdlStats) :
    RxEffect platform env frame state { next with stats := stats } result events := by
  cases effect with
  | untouched other counted quiet =>
      refine .untouched other ?_ quiet
      rw [counted]
  | action parsed type effect =>
      refine .action parsed type ?_
      cases effect with
      | refused positive same sync => exact .refused positive same sync
      | exhausted missing failed sync part => exact .exhausted missing failed sync part
      | aborted updates stored => exact .aborted ⟨updates.events, updates.sync⟩ stored
      | completed parsed updates stored =>
          exact .completed parsed ⟨updates.events, updates.sync⟩ stored

/-- A frame that is not an action frame is only counted. -/
theorem dispatchFrame_other {rx : RxFrame} {out : List Buf} {state : AwdlState}
    {outcome : RxOutcome} (other : frameType rx.hdr.frameControl ≠ ieee80211Action)
    (done : dispatchFrame platform env rx out state = some outcome) :
    outcome.state = { state with stats := outcome.state.stats } ∧ outcome.events = [] := by
  cases dispatchFrame_dispatched done with
  | action type acted => exact absurd type other
  | amsdu type read strip present => exact ⟨amsduLoop_state .., rfl⟩
  | data source => exact ⟨by rw [awdlRxData_state], rfl⟩
  | refused type reason => exact ⟨rfl, rfl⟩

/-- A frame that is not dispatched is not accepted. -/
theorem parseFrame_error {frame : Buf} {state : AwdlState} {result : RxResult}
    (failed : parseFrame platform env frame state = .error result) : result ≠ .ok := by
  unfold parseFrame at failed
  split at failed
  · cases failed
    decide
  split at failed
  · cases failed
    decide
  split at failed
  · cases failed
    decide
  split at failed
  · cases failed
    decide
  dsimp only at failed
  split at failed
  · cases failed
    decide
  split at failed
  · cases failed
    decide
  · cases failed

/-- **What a captured frame does.** -/
theorem awdlRx_effect {frame : Buf} {out : List Buf} {state : AwdlState} {outcome : RxOutcome}
    (wf : AwdlPeersWf platform.hash state.peers.peers)
    (done : awdlRx platform env frame out state = some outcome) :
    AwdlPeersWf platform.hash outcome.state.peers.peers ∧ SameNode state outcome.state ∧
      RxEffect platform env frame state outcome.state outcome.result outcome.events := by
  unfold awdlRx at done
  split at done
  · rename_i result failed
    cases done
    exact ⟨wf, rfl, .untouched (fun ok => absurd ok (parseFrame_error failed)) rfl rfl⟩
  · rename_i rx parsed
    by_cases type : frameType rx.hdr.frameControl = ieee80211Action
    · rw [dispatchFrame_of_action type] at done
      obtain ⟨⟨result, next, events⟩, handled, rfl⟩ := Option.map_eq_some_iff.mp done
      obtain ⟨keyed, same, effect⟩ := awdlRxAction_effect wf handled
      exact ⟨keyed, same, .action parsed type effect⟩
    · obtain ⟨counted, quiet⟩ := dispatchFrame_other type done
      have peers : outcome.state.peers = state.peers := by rw [counted]
      refine ⟨by rw [peers]; exact wf, ?_, .untouched (fun _ => ⟨rx, parsed, type⟩) counted quiet⟩
      unfold SameNode
      rw [counted]

end Owl
