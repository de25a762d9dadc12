import Owl.Foundation.Delimited
import Owl.Rx.Effect
import Owl.Tx.Headers

/-! # The grammar of an action frame

The payload of an action frame is a sequence of TLVs, which show where they end.
The loop of `awdl_rx_action` hands exactly the TLVs of the longest complete front
part of the payload to `awdl_handle_tlv`, up to the first one that is rejected
(`awdlRxAction_tlvs`).
-/

namespace Owl

open Delimited

/-- A TLV of any type, with a value whose length fits into its field. -/
structure Tlv where
  type : UInt8
  value : List UInt8
  short : value.length < 2 ^ 16

/-- The encoding of a TLV. -/
def Tlv.bytes (tlv : Tlv) : List UInt8 :=
  tlv.type :: le16 (UInt16.ofNat tlv.value.length) ++ tlv.value

theorem Tlv.length_bytes (tlv : Tlv) : tlv.bytes.length = tlv.value.length + 3 := by
  simp only [bytes, List.length_append, List.length_cons, length_le16]
  omega

theorem Tlv.toNat_length (tlv : Tlv) :
    (UInt16.ofNat tlv.value.length).toNat = tlv.value.length := by
  rw [UInt16.toNat_ofNat', Nat.mod_eq_of_lt tlv.short]

/-- A TLV is read off the front of a window. -/
theorem readTlv_front {frame : Buf} {tlv : Tlv} {rest : List UInt8}
    (viewed : frame.view = tlv.bytes ++ rest) :
    readTlv frame 0 = some (tlv.type, UInt16.ofNat tlv.value.length, tlv.value) := by
  have inside : 3 + tlv.value.length ≤ tlv.bytes.length := by
    rw [tlv.length_bytes, Nat.add_comm]
  have readType : readU8 frame 0 = some tlv.type :=
    readU8_front viewed rfl (Nat.le_trans (Nat.le_add_right 1 (2 + tlv.value.length)) (by omega))
  have readLen : readLe16 frame 1 = some (UInt16.ofNat tlv.value.length) :=
    readLe16_written viewed rfl (Nat.le_trans (Nat.le_add_right 3 _) inside) rfl
  have readValue : readBytes frame 3 tlv.value.length = some tlv.value :=
    (readBytes_front viewed inside).trans (congrArg some List.take_length)
  unfold readTlv
  rw [readType, Int.zero_add, readLen, Int.zero_add]
  dsimp only [Option.bind_eq_bind, Option.bind_some]
  rw [tlv.toNat_length, readValue]
  rfl

theorem exists_three {bytes : List UInt8} (enough : 3 ≤ bytes.length) :
    ∃ first second third rest, bytes = first :: second :: third :: rest := by
  match bytes with
  | first :: second :: third :: rest => exact ⟨first, second, third, rest, rfl⟩
  | [] => exact absurd enough (by decide)
  | [_] => exact absurd enough (by simp only [List.length_singleton]; decide)
  | [_, _] => exact absurd enough (by simp only [List.length_cons, List.length_nil]; decide)

theorem readTlv_empty {frame : Buf} (empty : frame.len = 0) : readTlv frame 0 = none := by
  have missing : readU8 frame 0 = none := (readU8_eq_none_iff frame 0).mpr (by omega)
  rw [readTlv, missing]
  rfl

/-- What can be read as a TLV is one. -/
theorem readTlv_eq_some {frame : Buf} {type : UInt8} {len : UInt16} {value : List UInt8}
    (read : readTlv frame 0 = some (type, len, value)) :
    ∃ tlv rest, frame.view = Tlv.bytes tlv ++ rest ∧ tlv.type = type ∧ tlv.value = value ∧
      UInt16.ofNat tlv.value.length = len := by
  unfold readTlv at read
  obtain ⟨type', readType, read⟩ := Option.bind_eq_some_iff.mp read
  obtain ⟨len', readLen, read⟩ := Option.bind_eq_some_iff.mp read
  obtain ⟨value', readValue, read⟩ := Option.bind_eq_some_iff.mp read
  cases read
  obtain ⟨one, typeBytes, rfl⟩ := Option.map_eq_some_iff.mp readType
  obtain ⟨two, lenBytes, rfl⟩ := Option.map_eq_some_iff.mp readLen
  obtain ⟨_, rfl⟩ := readBytes_zero_eq_some typeBytes
  obtain ⟨_, rfl⟩ := @readBytes_eq_some frame 1 2 two lenBytes
  obtain ⟨inside, rfl⟩ := @readBytes_eq_some frame 3 _ value readValue
  generalize frame.view = bytes at inside ⊢
  obtain ⟨first, second, third, rest, rfl⟩ := exists_three (Nat.le_of_add_right_le inside)
  have field : le16 (UInt16.ofNat (Octets.ofLE [second, third])) = [second, third] :=
    le16_ofLE rfl
  simp only [List.length_cons, List.drop_succ_cons, List.drop_zero, List.take_succ_cons,
    List.take_zero, List.getD_cons_zero] at inside ⊢
  generalize UInt16.ofNat (Octets.ofLE [second, third]) = len at field inside ⊢
  have length : (rest.take len.toNat).length = len.toNat := by
    rw [List.length_take]
    omega
  refine ⟨⟨first, rest.take len.toNat, ?_⟩, rest.drop len.toNat, ?_, rfl, rfl, ?_⟩
  · rw [length]
    exact len.toNat_lt
  · unfold Tlv.bytes
    dsimp only
    rw [length, UInt16.ofNat_toNat, field, List.append_assoc, List.take_append_drop]
    rfl
  · rw [length, UInt16.ofNat_toNat]

/-- TLVs show where they end. -/
theorem selfDelimiting_tlv : SelfDelimiting Tlv.bytes where
  nonempty tlv := by
    unfold Tlv.bytes
    exact List.cons_ne_nil _ _
  cancel := by
    intro first second rest rest' same
    have one := @readTlv_front (bufNewConst (first.bytes ++ rest)) first rest (view_bufNewConst _)
    have two := @readTlv_front (bufNewConst (first.bytes ++ rest)) second rest'
      ((view_bufNewConst _).trans same)
    rw [one, Option.some.injEq, Prod.mk.injEq, Prod.mk.injEq] at two
    obtain ⟨type, _, value⟩ := two
    have equal : first = second := by
      cases first
      cases second
      cases type
      cases value
      rfl
    subst equal
    exact ⟨rfl, List.append_cancel_left same⟩

/-- There is no TLV at the front of a window from which none can be read. -/
theorem readTlv_eq_none {frame : Buf} (without : ¬Begins Tlv.bytes frame.view) :
    readTlv frame 0 = none := by
  cases read : readTlv frame 0 with
  | none => rfl
  | some found =>
      obtain ⟨tlv, rest, viewed, _⟩ := readTlv_eq_some read
      exact absurd ⟨tlv, rest, viewed⟩ without

/-- The strip behind a TLV that was read never fails. -/
theorem bufStrip_readTlv {frame : Buf} {type : UInt8} {len : UInt16} {value : List UInt8}
    (read : readTlv frame 0 = some (type, len, value)) :
    ∃ behind, bufStrip frame (len.toNat + 3) = some behind ∧ behind.len < frame.len := by
  obtain ⟨tlv, rest, viewed, _, _, length⟩ := readTlv_eq_some read
  have within : tlv.value.length + 3 ≤ frame.view.length := by
    rw [viewed, List.length_append, tlv.length_bytes]
    exact Nat.le_add_right _ _
  obtain ⟨behind, strip, viewedBehind⟩ := bufStrip_of_le within
  rw [← length, tlv.toNat_length]
  refine ⟨behind, strip, ?_⟩
  rw [← behind.length_view, ← frame.length_view, viewedBehind, List.length_drop]
  omega

/-! ## The loop -/

/-- The calls of `awdl_handle_tlv` on a list of TLVs with their results, and what
they leave. -/
structure TlvCalls where
  calls : List (Tlv × RxResult)
  peer : AwdlPeer
  state : AwdlState
  events : List Callback

/-- `awdl_handle_tlv` on one TLV after the other up to the first one that it
rejects; `tail` bytes follow them in the frame. -/
def handleTlvs (long : LongWidth) (list : Nat → AwdlChanseq) (tsft : UInt64) (tail : Nat) :
    List Tlv → AwdlPeer → AwdlState → List Callback → TlvCalls
  | [], peer, state, events => ⟨[], peer, state, events⟩
  | tlv :: tlvs, peer, state, events =>
      let left := ((tlv :: tlvs).flatMap Tlv.bytes).length + tail
      let handled :=
        awdlHandleTlv long (list left) peer tlv.type (bufNewConst tlv.value) state tsft
      let state' := { state with sync := handled.sync }
      let events' :=
        if state.tlvCb then events ++ [.tlv handled.src tlv.type tlv.value] else events
      if handled.result.code < 0 then ⟨[(tlv, handled.result)], handled.src, state', events'⟩
      else
        let later := handleTlvs long list tsft tail tlvs handled.src state' events'
        { later with calls := (tlv, handled.result) :: later.calls }

/-- No call has rejected its TLV. -/
def TlvCalls.Accepts (walk : TlvCalls) : Prop := ∀ call ∈ walk.calls, 0 ≤ call.2.code

instance (walk : TlvCalls) : Decidable walk.Accepts :=
  inferInstanceAs (Decidable (∀ call ∈ walk.calls, 0 ≤ call.2.code))

theorem accepts_cons {tlv : Tlv} {result : RxResult} (accepted : 0 ≤ result.code)
    (later : TlvCalls) :
    ({ later with calls := (tlv, result) :: later.calls } : TlvCalls).Accepts ↔ later.Accepts := by
  unfold TlvCalls.Accepts
  rw [List.forall_mem_cons]
  exact and_iff_right accepted

theorem not_accepts {tlv : Tlv} {result : RxResult} (rejected : result.code < 0)
    {peer : AwdlPeer} {state : AwdlState} {events : List Callback} :
    ¬(⟨[(tlv, result)], peer, state, events⟩ : TlvCalls).Accepts :=
  fun accepts => Int.not_le.mpr rejected (accepts (tlv, result) List.mem_cons_self)

section Walk

variable {long : LongWidth} {list : Nat → AwdlChanseq} {tsft : UInt64}

/-- **The loop makes the calls of the TLVs at the front of the frame.** -/
theorem tlvLoop_split {fuel : Nat} {frame : Buf} {tlvs : List Tlv} {tail : List UInt8}
    (split : Split Tlv.bytes frame.view tlvs tail) (enough : frame.len ≤ fuel) (peer : AwdlPeer)
    (state : AwdlState) (events : List Callback) :
    ∃ rest : Buf, rest.view = tail ∧
      tlvLoop long list tsft fuel frame peer state events =
        let walk := handleTlvs long list tsft tail.length tlvs peer state events
        ⟨if walk.Accepts then some rest else none, walk.peer, walk.state, walk.events⟩ := by
  induction tlvs generalizing fuel frame peer state events with
  | nil =>
      have without : ¬Begins Tlv.bytes frame.view := by
        rw [split.whole]
        exact split.complete
      refine ⟨frame, split.whole, ?_⟩
      cases fuel with
      | zero => rfl
      | succ fuel =>
          rw [tlvLoop, readTlv_eq_none without]
          rfl
  | cons tlv tlvs ih =>
      have whole := split.whole
      rw [List.flatMap_cons, List.append_assoc] at whole
      have left : frame.len = ((tlv :: tlvs).flatMap Tlv.bytes).length + tail.length := by
        rw [← frame.length_view, split.whole, List.length_append]
      have within : tlv.value.length + 3 ≤ frame.view.length := by
        rw [whole, List.length_append, tlv.length_bytes]
        exact Nat.le_add_right _ _
      obtain ⟨behind, strip, viewed⟩ := bufStrip_of_le within
      rw [whole, ← tlv.length_bytes, List.drop_left] at viewed
      have shorter : behind.len + (tlv.value.length + 3) = frame.len := by
        rw [← behind.length_view, ← frame.length_view, viewed, whole]
        simp only [List.length_append, tlv.length_bytes]
        omega
      cases fuel with
      | zero => omega
      | succ fuel =>
          rw [tlvLoop, readTlv_front whole]
          dsimp only [handleTlvs]
          rw [← left]
          generalize awdlHandleTlv long (list frame.len) peer tlv.type (bufNewConst tlv.value)
            state tsft = handled
          by_cases rejected : handled.result.code < 0
          · rw [if_pos rejected, if_pos rejected]
            refine ⟨bufNewConst tail, view_bufNewConst tail, ?_⟩
            rw [if_neg (not_accepts rejected)]
          · obtain ⟨rest, ended, loop⟩ := @ih fuel behind ⟨viewed, split.complete⟩ (by omega)
              handled.src { state with sync := handled.sync }
              (if state.tlvCb then events ++ [.tlv handled.src tlv.type tlv.value] else events)
            have stripped : bufStrip frame (tlv.value.length + 3) = some behind := strip
            refine ⟨rest, ended, ?_⟩
            rw [if_neg rejected, if_neg rejected, tlv.toNat_length, stripped, Option.getD_some,
              loop]
            simp only [accepts_cons (Int.not_lt.mp rejected)]

/-- More rounds do not matter. -/
theorem tlvLoop_fuel {fuel more : Nat} {frame : Buf} (enough : frame.len ≤ fuel)
    (larger : frame.len ≤ more) (peer : AwdlPeer) (state : AwdlState) (events : List Callback) :
    tlvLoop long list tsft more frame peer state events =
      tlvLoop long list tsft fuel frame peer state events := by
  induction fuel generalizing more frame peer state events with
  | zero =>
      cases more with
      | zero => rfl
      | succ more => rw [tlvLoop, tlvLoop, readTlv_empty (Nat.le_zero.mp enough)]
  | succ fuel ih =>
      cases more with
      | zero => rw [tlvLoop, tlvLoop, readTlv_empty (Nat.le_zero.mp larger)]
      | succ more =>
          rw [tlvLoop, tlvLoop]
          cases read : readTlv frame 0 with
          | none => rfl
          | some found =>
              obtain ⟨type, len, value⟩ := found
              obtain ⟨behind, strip, shorter⟩ := bufStrip_readTlv read
              dsimp only
              rw [strip, Option.getD_some]
              split
              · rfl
              · exact ih (by omega) (by omega) ..

/-- The calls are made in order, and all but the last one have accepted their TLV. -/
theorem handleTlvs_calls (tail : Nat) (tlvs : List Tlv) (peer : AwdlPeer) (state : AwdlState)
    (events : List Callback) :
    ((handleTlvs long list tsft tail tlvs peer state events).calls.map Prod.fst) <+: tlvs ∧
      (∀ call ∈ (handleTlvs long list tsft tail tlvs peer state events).calls.dropLast,
        0 ≤ call.2.code) ∧
      ((handleTlvs long list tsft tail tlvs peer state events).Accepts →
        (handleTlvs long list tsft tail tlvs peer state events).calls.map Prod.fst = tlvs) := by
  induction tlvs generalizing peer state events with
  | nil => exact ⟨List.prefix_refl [], fun _ member => absurd member List.not_mem_nil, fun _ => rfl⟩
  | cons tlv tlvs ih =>
      dsimp only [handleTlvs]
      split
      · rename_i rejected
        refine ⟨List.prefix_cons_iff.mpr (Or.inr ⟨[], rfl, List.nil_prefix⟩),
          fun _ member => absurd member List.not_mem_nil, fun accepts => ?_⟩
        exact absurd accepts (not_accepts rejected)
      · rename_i fine
        have accepted := Int.not_lt.mp fine
        generalize awdlHandleTlv long (list _) peer tlv.type (bufNewConst tlv.value) state tsft =
          handled at accepted ⊢
        obtain ⟨inOrder, onlyLast, all⟩ := ih handled.src { state with sync := handled.sync }
          (if state.tlvCb then events ++ [.tlv handled.src tlv.type tlv.value] else events)
        generalize handleTlvs long list tsft tail tlvs handled.src
          { state with sync := handled.sync } _ = later at inOrder onlyLast all ⊢
        refine ⟨List.prefix_cons_iff.mpr (Or.inr ⟨_, rfl, inOrder⟩), ?_, fun accepts => ?_⟩
        · cases calls : later.calls with
          | nil => exact fun _ member => absurd member List.not_mem_nil
          | cons next calls' =>
              rw [calls] at onlyLast
              rw [List.dropLast_cons_cons, List.forall_mem_cons]
              exact ⟨accepted, onlyLast⟩
        · rw [List.map_cons, all ((accepts_cons accepted later).mp accepts)]

end Walk

/-! ## Action frames -/

/-- A payload is walked through: `tlvs` are the TLVs at its front and `tail` what
is left, and the calls are made in order up to the first TLV that is rejected. -/
structure WalksTlvs (payload : List UInt8) (tlvs : List Tlv) (tail : List UInt8)
    (walk : TlvCalls) : Prop where
  whole : payload = tlvs.flatMap Tlv.bytes ++ tail
  longest : ∀ others rest, payload = others.flatMap Tlv.bytes ++ rest → others <+: tlvs
  concatenation : ∀ others, payload = others.flatMap Tlv.bytes → tlvs = others ∧ tail = []
  inOrder : walk.calls.map Prod.fst <+: tlvs
  onlyLast : ∀ call ∈ walk.calls.dropLast, 0 ≤ call.2.code
  all : walk.Accepts → walk.calls.map Prod.fst = tlvs

theorem walksTlvs_of_split {payload tail : List UInt8} {tlvs : List Tlv}
    (split : Split Tlv.bytes payload tlvs tail) (long : LongWidth) (list : Nat → AwdlChanseq)
    (tsft : UInt64) (peer : AwdlPeer) (state : AwdlState) (events : List Callback) :
    WalksTlvs payload tlvs tail
      (handleTlvs long list tsft tail.length tlvs peer state events) := by
  obtain ⟨inOrder, onlyLast, all⟩ := @handleTlvs_calls long list tsft tail.length tlvs peer state
    events
  exact ⟨split.whole, fun _ _ front => split.prefix_of_eq selfDelimiting_tlv front,
    fun _ whole => split.eq_of_flatMap selfDelimiting_tlv whole, inOrder, onlyLast, all⟩

variable {platform : Platform} {env : RxEnv}

/-- An action header is whole. -/
theorem awdlActionSize_le {frame : Buf} {subtype : AwdlActionType}
    (header : awdlParseActionHdr frame = some subtype) : awdlActionSize ≤ frame.view.length := by
  obtain ⟨af, read, _⟩ := Option.bind_eq_some_iff.mp header
  exact (readBytes_zero_eq_some read).1

/-- The end of an action frame that is left before its end. -/
theorem finishAction_left {walk : TlvWalk} (left : ∀ rest, walk.rest = some rest → rest.len > 0)
    (subtype : AwdlActionType) (tsft : UInt64) (src : EtherAddr) :
    finishAction platform env subtype tsft src walk =
      some (.unexpectedFormat, storePeer platform.hash walk.state src walk.peer, walk.events) := by
  unfold finishAction
  cases ended : walk.rest with
  | none => rfl
  | some rest =>
      dsimp only
      rw [if_pos (left rest ended)]

/-- The mark of a master indication frame in the record that is stored at last. -/
theorem sentMif_closedPeer (subtype : AwdlActionType) (peer : AwdlPeer) (tsft : UInt64) :
    (touchedPeer (closedPeer subtype peer) tsft).sentMif = true ↔
      subtype = .mif ∨ peer.sentMif = true := by
  unfold touchedPeer closedPeer
  dsimp only
  split
  · rename_i mif
    exact iff_of_true rfl (Or.inl mif)
  · rename_i psf
    exact (or_iff_right psf).symm

/-- The end of an action frame after a walk that has accepted all TLVs or not. -/
theorem finishAction_walk {subtype : AwdlActionType} {tsft : UInt64} {src : EtherAddr}
    {start : AwdlState} {peer : AwdlPeer} {added : List Callback} {walk : TlvWalk} {rest : Buf}
    {accepts : Prop} [Decidable accepts] (wf : AwdlPeersWf platform.hash start.peers.peers)
    (stored : start.peers.peers.toMap src = some peer) (keeps : walk.Keeps peer start added)
    (ended : walk.rest = if accepts then some rest else none) :
    ∃ result next events record,
      finishAction platform env subtype tsft src walk = some (result, next, events) ∧
      (result = .ok ↔ accepts ∧ rest.view = []) ∧
      (awdlPeerGet platform.hash next.peers.peers src).2 = some record ∧
      (record.sentMif = true ↔ (result = .ok ∧ subtype = .mif) ∨ peer.sentMif = true) := by
  have own := keeps.sender.keyedBy (wf.keyed src peer stored)
  have peersKept : walk.state.peers.peers = start.peers.peers := by rw [keeps.node]
  have table : walk.state.peers.peers.Wf platform.hash := by
    rw [peersKept]
    exact wf.table
  have inserted : walk.state.peers.peers.toMap =
      Function.update start.peers.peers.toMap src (some peer) := by
    rw [peersKept, ← stored, Function.update_eq_self]
  by_cases complete : accepts ∧ rest.view = []
  · have empty : ¬rest.len > 0 := by
      rw [← rest.length_view, complete.2]
      decide
    obtain ⟨after, finished, afterWf, updated⟩ := @finishAction_complete platform env subtype tsft
      src start peer walk rest wf table inserted own (ended.trans (if_pos complete.1)) empty
    refine ⟨_, _, _, touchedPeer (closedPeer subtype walk.peer) tsft, finished,
      iff_of_true rfl complete, ?_, ?_⟩
    · rw [awdlPeerGet_eq afterWf.table, updated, Function.update_self]
    · rw [sentMif_closedPeer, keeps.sender.sentMif, eq_self, true_and]
  · have left : ∀ other, walk.rest = some other → other.len > 0 := by
      intro other found
      rw [ended] at found
      split at found
      · rename_i all
        cases found
        rw [← rest.length_view]
        exact List.length_pos_iff.mpr fun empty => complete ⟨all, empty⟩
      · cases found
    obtain ⟨afterWf, updated⟩ := @storePeer_spec platform.hash start walk.state src peer wf
      table inserted walk.peer own
    refine ⟨_, _, _, walk.peer, finishAction_left left subtype tsft src,
      iff_of_false (by decide) complete, ?_, ?_⟩
    · rw [awdlPeerGet_eq afterWf.table, updated, Function.update_self]
    · rw [keeps.sender.sentMif]
      exact (or_iff_right fun ok => absurd ok.1 (by decide)).symm

/-- **The TLV walk accepts exactly the TLV grammar.** The payload of an action
frame that has passed the filter and has a record of its sender is split into
TLVs; the loop ends, no strip of it fails, its calls are those of the TLVs, and
the frame is accepted exactly if no TLV is rejected and nothing is left. -/
theorem awdlRxAction_tlvs (frame : Buf) (rssi : Int8) (tsft : UInt64) (src dst : EtherAddr)
    (state : AwdlState) (subtype : AwdlActionType) (status : PeersStatus) (peers : AwdlPeers)
    (added : List Callback) (peer : AwdlPeer)
    (wf : AwdlPeersWf platform.hash state.peers.peers)
    (header : awdlParseActionHdr frame = some subtype)
    (admitted : ignoresRssi platform.hash state src rssi = false)
    (add : awdlPeerAdd platform.hash env.peer state.peers.peers src tsft state.peerCb =
      some (status, peers, added))
    (success : ¬status.code < 0)
    (found : (awdlPeerGet platform.hash peers src).2 = some peer) :
    let start : AwdlState :=
      { state with peers.peers := peers, stats.rxAction := state.stats.rxAction + 1 }
    ∃ payload tlvs tail result next events record,
      bufStrip frame awdlActionSize = some payload ∧
      (∀ (behind : Buf) type len value, readTlv behind 0 = some (type, len, value) →
        bufStrip behind (len.toNat + 3) ≠ none) ∧
      (∀ fuel, payload.len ≤ fuel →
        tlvLoop platform.long env.list tsft fuel payload peer start added =
          tlvLoop platform.long env.list tsft payload.len payload peer start added) ∧
      let walk := handleTlvs platform.long env.list tsft tail.length tlvs peer start added
      let loop := tlvLoop platform.long env.list tsft payload.len payload peer start added
      WalksTlvs payload.view tlvs tail walk ∧
      (loop.peer = walk.peer ∧ loop.state = walk.state ∧ loop.events = walk.events) ∧
      awdlRxAction platform env frame rssi tsft src dst state = some (result, next, events) ∧
      (result = .ok ↔ walk.Accepts ∧ tail = []) ∧
      (awdlPeerGet platform.hash next.peers.peers src).2 = some record ∧
      (record.sentMif = true ↔ (result = .ok ∧ subtype = .mif) ∨ peer.sentMif = true) := by
  intro start
  obtain ⟨payload, strip, _⟩ := bufStrip_of_le (awdlActionSize_le header)
  obtain ⟨tlvs, tail, split⟩ := exists_split selfDelimiting_tlv payload.view
  obtain ⟨rest, ended, loop⟩ := @tlvLoop_split platform.long env.list tsft payload.len payload
    tlvs tail split (Nat.le_refl _) peer start added
  have keyed := wf.add add
  have stored : peers.toMap src = some peer := by
    rw [awdlPeerGet_eq keyed.table] at found
    exact found
  obtain ⟨result, next, events, record, finished, ok, get, mif⟩ :=
    @finishAction_walk platform env subtype tsft src start peer added _ rest
      (handleTlvs platform.long env.list tsft tail.length tlvs peer start added).Accepts _ keyed
      stored (tlvLoop_keeps platform.long env.list tsft payload.len payload peer start added)
      (congrArg TlvWalk.rest loop)
  rw [ended] at ok
  refine ⟨payload, tlvs, tail, result, next, events, record, strip, ?_, ?_,
    walksTlvs_of_split split platform.long env.list tsft peer start added, ?_, ?_, ok, get, mif⟩
  · intro behind type len value read failed
    obtain ⟨_, stripped, _⟩ := bufStrip_readTlv read
    cases failed.symm.trans stripped
  · exact fun fuel enough => tlvLoop_fuel (Nat.le_refl _) enough peer start added
  · rw [loop]
    exact ⟨rfl, rfl, rfl⟩
  · rw [← finished]
    exact awdlRxAction_admitted header strip admitted add success found dst

/-- A MIF with a version TLV and one byte behind it. -/
def sampleActionBody : Buf := bufNewConst (sampleActionHdr .mif ++ [21, 2, 0, 0x34, 1, 99])

theorem awdlRxAction_tlvs_version : ∃ payload tlvs tail walk result next events,
    bufStrip sampleActionBody awdlActionSize = some payload ∧
      WalksTlvs payload.view tlvs tail walk ∧
      awdlRxAction samplePlatform (sampleEnv 5) sampleActionBody (-40) 5 ⟨2, 0, 0, 0, 0, 2⟩
        .broadcast sampleState = some (result, next, events) ∧
      (result = .ok ↔ walk.Accepts ∧ tail = []) := by
  have evaluated : ((awdlPeerAdd samplePlatform.hash (sampleEnv 5).peer sampleState.peers.peers
      ⟨2, 0, 0, 0, 0, 2⟩ 5 sampleState.peerCb).map fun added =>
        (decide (added.1.code < 0),
          (awdlPeerGet samplePlatform.hash added.2.1 ⟨2, 0, 0, 0, 0, 2⟩).2.isSome)) =
      some (false, true) := by
    decide +kernel
  obtain ⟨⟨status, peers, added⟩, add, looked⟩ := Option.map_eq_some_iff.mp evaluated
  obtain ⟨success, present⟩ := Prod.mk.inj looked
  obtain ⟨peer, found⟩ := Option.isSome_iff_exists.mp present
  obtain ⟨payload, tlvs, tail, result, next, events, _, strip, _, _, walks, _, action, ok, _⟩ :=
    @awdlRxAction_tlvs samplePlatform (sampleEnv 5) sampleActionBody (-40) 5 ⟨2, 0, 0, 0, 0, 2⟩
      .broadcast sampleState .mif status peers added peer awdlPeersInit_wf
      (by decide) (by decide +kernel) add (of_decide_eq_false success) found
  exact ⟨payload, tlvs, tail, _, result, next, events, strip, walks, action, ok⟩

end Owl
