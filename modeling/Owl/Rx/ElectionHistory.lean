import Owl.Foundation.Run
import Owl.Rx.Rejection

/-! # The election parameters of a peer over its lifetime

The handlers of both election TLVs write into one record and are coupled by the
flag that version 2 has been seen. Whatever was handled for a peer since its
record is new, its election parameters are those of the last TLV of version 2,
or without one those of the last TLV of version 1 over the initial parameters
(`electionV2_precedence`).
-/

namespace Owl

/-- What happens to the record of a peer that stays in the table. -/
inductive RecordLabel
  | tlv (type : UInt8) (val : Buf)
  | added
  | sentMif

/-- A TLV that is not rejected by a node in some state, an update by
`awdl_peer_add`, and the mark of a master indication frame. -/
inductive RecordStep : AwdlPeer → RecordLabel → Unit → AwdlPeer → Prop
  | tlv {src : AwdlPeer} {type : UInt8} {val : Buf} (long : LongWidth) (list : AwdlChanseq)
      (state : AwdlState) (tsft : UInt64) :
      0 ≤ (awdlHandleTlv long list src type val state tsft).result.code →
        RecordStep src (.tlv type val) () (awdlHandleTlv long list src type val state tsft).src
  | added {src : AwdlPeer} (now : UInt64) (cb : Bool) :
      RecordStep src .added () (turnValid cb { src with lastUpdate := now }).1
  | sentMif {src : AwdlPeer} : RecordStep src .sentMif () { src with sentMif := true }

/-- The election parameters that a TLV of version 1 announces over given ones. -/
def decodeElection (base : AwdlElectionState) (val : Buf) : Option AwdlElectionState := do
  let height ← readU8 val 3
  let masterAddr ← readEtherAddr val 5
  let masterMetric ← readLe32 val 11
  let selfMetric ← readLe32 val 15
  return { base with
    height := height.toUInt32
    masterAddr := masterAddr
    masterMetric := masterMetric
    selfMetric := selfMetric }

/-- The election parameters that a TLV of version 2 announces for a peer. -/
def decodeElectionV2 (addr : EtherAddr) (val : Buf) : Option AwdlElectionState := do
  let height ← readLe32 val 16
  let masterAddr ← readEtherAddr val 0
  let syncAddr ← readEtherAddr val 6
  let masterCounter ← readLe32 val 12
  let masterMetric ← readLe32 val 20
  let selfMetric ← readLe32 val 24
  let selfCounter ← readLe32 val 36
  return {
    masterAddr := masterAddr
    syncAddr := syncAddr
    selfAddr := addr
    height := height
    masterMetric := masterMetric
    selfMetric := selfMetric
    masterCounter := masterCounter
    selfCounter := selfCounter }

/-- The value of a TLV of the given type. -/
def tlvValue (type : UInt8) : RecordLabel × Unit → Option Buf
  | (.tlv other val, _) => if other = type then some val else none
  | _ => none

/-- The last TLV of a type in a history; the latest event is its first. -/
def lastTlv (type : UInt8) (history : List (RecordLabel × Unit)) : Option Buf :=
  history.findSome? (tlvValue type)

section LastTlv

variable {type other : UInt8} {val : Buf} {history : List (RecordLabel × Unit)}

theorem lastTlv_same : lastTlv type ((.tlv type val, ()) :: history) = some val := by
  unfold lastTlv
  rw [List.findSome?_cons, tlvValue, if_pos rfl]

theorem lastTlv_other (differ : other ≠ type) :
    lastTlv type ((.tlv other val, ()) :: history) = lastTlv type history := by
  unfold lastTlv
  rw [List.findSome?_cons, tlvValue, if_neg differ]

end LastTlv

/-! ## One TLV -/

/-- What the handler of version 1 accepts and writes. -/
theorem awdlHandleElectionParamsTlv_accepted {src : AwdlPeer} {val : Buf}
    (v1 : src.supportsV2 = false)
    (accepted : 0 ≤ (awdlHandleElectionParamsTlv src val).1.code) :
    (awdlHandleElectionParamsTlv src val).2.supportsV2 = false ∧
      decodeElection src.election val =
        some (awdlHandleElectionParamsTlv src val).2.election := by
  generalize handled : awdlHandleElectionParamsTlv src val = outcome at accepted ⊢
  unfold awdlHandleElectionParamsTlv at handled
  rw [if_neg (Bool.eq_false_iff.mp v1)] at handled
  obtain ⟨height, readHeight, handled⟩ := checkedRead_accepted handled accepted
  obtain ⟨masterAddr, readMaster, handled⟩ := checkedRead_accepted handled accepted
  obtain ⟨masterMetric, readMetric, handled⟩ := checkedRead_accepted handled accepted
  obtain ⟨selfMetric, readSelf, handled⟩ := checkedRead_accepted handled accepted
  subst handled
  refine ⟨v1, ?_⟩
  unfold decodeElection
  rw [readHeight, readMaster, readMetric, readSelf]
  rfl

/-- What the handler of version 2 accepts and writes. -/
theorem awdlHandleElectionParamsV2Tlv_accepted {src : AwdlPeer} {val : Buf}
    (accepted : 0 ≤ (awdlHandleElectionParamsV2Tlv src val).1.code) :
    (awdlHandleElectionParamsV2Tlv src val).2.supportsV2 = true ∧
      decodeElectionV2 src.election.selfAddr val =
        some (awdlHandleElectionParamsV2Tlv src val).2.election := by
  have whole := le_of_awdlHandleElectionParamsV2Tlv_accepted accepted
  obtain ⟨height, readHeight⟩ : ∃ value, readLe32 val 16 = some value :=
    exists_read (readLe32_eq_none_iff val 16) (by omega)
  obtain ⟨masterAddr, readMaster⟩ : ∃ value, readEtherAddr val 0 = some value :=
    exists_read (readEtherAddr_eq_none_iff val 0) (by omega)
  obtain ⟨syncAddr, readSync⟩ : ∃ value, readEtherAddr val 6 = some value :=
    exists_read (readEtherAddr_eq_none_iff val 6) (by omega)
  obtain ⟨masterCounter, readCounter⟩ : ∃ value, readLe32 val 12 = some value :=
    exists_read (readLe32_eq_none_iff val 12) (by omega)
  obtain ⟨masterMetric, readMetric⟩ : ∃ value, readLe32 val 20 = some value :=
    exists_read (readLe32_eq_none_iff val 20) (by omega)
  obtain ⟨selfMetric, readSelf⟩ : ∃ value, readLe32 val 24 = some value :=
    exists_read (readLe32_eq_none_iff val 24) (by omega)
  obtain ⟨selfCounter, readOwn⟩ : ∃ value, readLe32 val 36 = some value :=
    exists_read (readLe32_eq_none_iff val 36) whole
  unfold awdlHandleElectionParamsV2Tlv decodeElectionV2
  rw [readHeight, readMaster, readSync, readCounter, readMetric, readSelf, readOwn]
  exact ⟨rfl, rfl⟩

/-- Two records with the same election parameters, under the same version. -/
structure SameElection (before after : AwdlPeer) : Prop where
  election : after.election = before.election
  supportsV2 : after.supportsV2 = before.supportsV2

/-- The other TLVs leave the election parameters and the flag alone. -/
theorem awdlHandleTlv_sameElection (long : LongWidth) (list : AwdlChanseq) (src : AwdlPeer)
    {type : UInt8} (val : Buf) (state : AwdlState) (tsft : UInt64)
    (v1 : type ≠ AwdlTlv.electionParameters.toByte)
    (v2 : type ≠ AwdlTlv.electionParametersV2.toByte) :
    SameElection src (awdlHandleTlv long list src type val state tsft).src := by
  have same : SameElection src src := ⟨rfl, rfl⟩
  rw [awdlHandleTlv]
  split_ifs
  · exact same
  · exact awdlHandleChanseqTlv_keeps list val state same fun _ => ⟨rfl, rfl⟩
  · exact checkedRead_keeps _ same fun _ => ⟨rfl, rfl⟩
  · exact awdlHandleDataPathStateTlv_keeps val same (fun _ _ kept => ⟨kept.1, kept.2⟩)
      (fun _ _ kept => ⟨kept.1, kept.2⟩)
  · apply checkedRead_keeps _ same
    intro version
    exact checkedRead_keeps _ same fun _ => ⟨rfl, rfl⟩
  · exact same

/-! ## Every history -/

/-- Parameters of version 1 replace those of an earlier TLV of version 1. -/
theorem decodeElection_again {base before : AwdlElectionState} {first second : Buf}
    (decoded : decodeElection base first = some before) :
    decodeElection before second = decodeElection base second := by
  unfold decodeElection at decoded
  obtain ⟨height, _, decoded⟩ := Option.bind_eq_some_iff.mp decoded
  obtain ⟨masterAddr, _, decoded⟩ := Option.bind_eq_some_iff.mp decoded
  obtain ⟨masterMetric, _, decoded⟩ := Option.bind_eq_some_iff.mp decoded
  obtain ⟨selfMetric, _, decoded⟩ := Option.bind_eq_some_iff.mp decoded
  cases decoded
  rfl

/-- The election parameters of a record are determined by its history. -/
structure ElectionOf (initial : AwdlElectionState) (history : List (RecordLabel × Unit))
    (peer : AwdlPeer) : Prop where
  selfAddr : peer.election.selfAddr = initial.selfAddr
  version : peer.supportsV2 = (lastTlv AwdlTlv.electionParametersV2.toByte history).isSome
  v2 : ∀ val, lastTlv AwdlTlv.electionParametersV2.toByte history = some val →
    decodeElectionV2 initial.selfAddr val = some peer.election
  v1 : lastTlv AwdlTlv.electionParametersV2.toByte history = none →
    ∀ val, lastTlv AwdlTlv.electionParameters.toByte history = some val →
      decodeElection initial val = some peer.election
  unheard : lastTlv AwdlTlv.electionParametersV2.toByte history = none →
    lastTlv AwdlTlv.electionParameters.toByte history = none → peer.election = initial

section Step

variable {initial : AwdlElectionState} {history : List (RecordLabel × Unit)}
  {peer next : AwdlPeer} (known : ElectionOf initial history peer)

include known

/-- A step that leaves the parameters alone and is no election TLV. -/
theorem ElectionOf.other {label : RecordLabel} (same : SameElection peer next)
    (v1 : tlvValue AwdlTlv.electionParameters.toByte (label, ()) = none)
    (v2 : tlvValue AwdlTlv.electionParametersV2.toByte (label, ()) = none) :
    ElectionOf initial ((label, ()) :: history) next := by
  have last1 : lastTlv AwdlTlv.electionParameters.toByte ((label, ()) :: history) =
      lastTlv AwdlTlv.electionParameters.toByte history := by
    rw [lastTlv, List.findSome?_cons, v1]
    rfl
  have last2 : lastTlv AwdlTlv.electionParametersV2.toByte ((label, ()) :: history) =
      lastTlv AwdlTlv.electionParametersV2.toByte history := by
    rw [lastTlv, List.findSome?_cons, v2]
    rfl
  constructor
  · rw [same.election]
    exact known.selfAddr
  · rw [same.supportsV2, last2]
    exact known.version
  · rw [same.election, last2]
    exact known.v2
  · rw [same.election, last1, last2]
    exact known.v1
  · rw [same.election, last1, last2]
    exact known.unheard

theorem ElectionOf.tlvV2 {val : Buf}
    (accepted : 0 ≤ (awdlHandleElectionParamsV2Tlv peer val).1.code) :
    ElectionOf initial ((.tlv AwdlTlv.electionParametersV2.toByte val, ()) :: history)
      (awdlHandleElectionParamsV2Tlv peer val).2 := by
  obtain ⟨version, decoded⟩ := awdlHandleElectionParamsV2Tlv_accepted accepted
  rw [known.selfAddr] at decoded
  constructor
  · rw [(awdlHandleElectionParamsV2Tlv_sameSender peer val).selfAddr]
    exact known.selfAddr
  · rw [lastTlv_same, version]
    rfl
  · intro other last
    rw [lastTlv_same] at last
    cases last
    exact decoded
  · intro absent
    rw [lastTlv_same] at absent
    cases absent
  · intro absent
    rw [lastTlv_same] at absent
    cases absent

theorem ElectionOf.tlvV1 {val : Buf}
    (accepted : 0 ≤ (awdlHandleElectionParamsTlv peer val).1.code) :
    ElectionOf initial ((.tlv AwdlTlv.electionParameters.toByte val, ()) :: history)
      (awdlHandleElectionParamsTlv peer val).2 := by
  have last : lastTlv AwdlTlv.electionParametersV2.toByte
      ((.tlv AwdlTlv.electionParameters.toByte val, ()) :: history) =
        lastTlv AwdlTlv.electionParametersV2.toByte history := lastTlv_other (by decide)
  have version := known.version
  cases v2 : peer.supportsV2 with
  | true =>
      -- version 2 was seen, and the handler does nothing
      have ignored : awdlHandleElectionParamsTlv peer val = (.ok, peer) := by
        rw [awdlHandleElectionParamsTlv, if_pos v2]
      have seen : lastTlv AwdlTlv.electionParametersV2.toByte history ≠ none := by
        intro absent
        rw [v2, absent] at version
        cases version
      rw [ignored]
      constructor
      · exact known.selfAddr
      · rw [last]
        exact version
      · rw [last]
        exact known.v2
      · rw [last]
        exact fun absent => absurd absent seen
      · rw [last]
        exact fun absent => absurd absent seen
  | false =>
      obtain ⟨still, decoded⟩ := awdlHandleElectionParamsTlv_accepted v2 accepted
      have unseen : lastTlv AwdlTlv.electionParametersV2.toByte history = none := by
        rw [v2] at version
        exact Option.isNone_iff_eq_none.mp (Option.isSome_eq_false_iff.mp version.symm)
      constructor
      · rw [(awdlHandleElectionParamsTlv_sameSender peer val).selfAddr]
        exact known.selfAddr
      · rw [last, still, unseen]
        rfl
      · rw [last, unseen]
        intro other found
        cases found
      · intro _ other found
        rw [lastTlv_same] at found
        cases found
        rw [← decoded]
        cases earlier : lastTlv AwdlTlv.electionParameters.toByte history with
        | none => rw [known.unheard unseen earlier]
        | some first => exact (decodeElection_again (known.v1 unseen first earlier)).symm
      · intro _ absent
        rw [lastTlv_same] at absent
        cases absent

end Step

theorem electionOf_step {initial : AwdlElectionState} {history : List (RecordLabel × Unit)}
    {peer next : AwdlPeer} {label : RecordLabel} {output : Unit}
    (known : ElectionOf initial history peer) (step : RecordStep peer label output next) :
    ElectionOf initial ((label, output) :: history) next := by
  cases step with
  | @tlv type val long list state tsft accepted =>
      by_cases v2 : type = AwdlTlv.electionParametersV2.toByte
      · subst v2
        exact known.tlvV2 accepted
      by_cases v1 : type = AwdlTlv.electionParameters.toByte
      · subst v1
        exact known.tlvV1 accepted
      · exact known.other (awdlHandleTlv_sameElection long list peer val state tsft v1 v2)
          (if_neg v1) (if_neg v2)
  | added now cb =>
      refine known.other ?_ rfl rfl
      rw [turnValid_fst]
      exact ⟨rfl, rfl⟩
  | sentMif => exact known.other ⟨rfl, rfl⟩ rfl rfl

/-- The TLVs of a frame without a rejected one continue the history of the sender. -/
theorem tlvLoop_run {long : LongWidth} {list : Nat → AwdlChanseq} {tsft : UInt64} {fuel : Nat}
    {frame : Buf} {start peer : AwdlPeer} {state : AwdlState} {events : List Callback}
    {history : List (RecordLabel × Unit)}
    (run : Transition.Run RecordStep start history peer)
    (accepted : (tlvLoop long list tsft fuel frame peer state events).rest ≠ none) :
    ∃ later, Transition.Run RecordStep start (later ++ history)
      (tlvLoop long list tsft fuel frame peer state events).peer := by
  induction fuel generalizing frame peer state events history with
  | zero => exact ⟨[], run⟩
  | succ fuel ih =>
      rw [tlvLoop] at accepted ⊢
      cases read : readTlv frame 0 with
      | none => exact ⟨[], run⟩
      | some tlv =>
          obtain ⟨type, len, value⟩ := tlv
          rw [read] at accepted
          dsimp only at accepted ⊢
          split at accepted
          · exact absurd rfl accepted
          · rename_i fine
            rw [if_neg fine]
            obtain ⟨later, longer⟩ := ih (run.cons (.tlv long (list frame.len) state tsft
              (Int.not_lt.mp fine))) accepted
            refine ⟨later ++ [(.tlv type (bufNewConst value), ())], ?_⟩
            rw [List.append_assoc]
            exact longer

/-- **Version 2 takes precedence in any order.** -/
theorem electionV2_precedence (memory : AwdlPeer) (addr : EtherAddr)
    (history : List (RecordLabel × Unit)) (peer : AwdlPeer)
    (run : Transition.Run RecordStep (awdlPeerNew memory addr) history peer) :
    peer.election.selfAddr = addr ∧
    (∀ val, lastTlv AwdlTlv.electionParametersV2.toByte history = some val →
      decodeElectionV2 addr val = some peer.election) ∧
    (lastTlv AwdlTlv.electionParametersV2.toByte history = none →
      (∀ val, lastTlv AwdlTlv.electionParameters.toByte history = some val →
        decodeElection (awdlElectionStateInit memory.election addr) val = some peer.election) ∧
      (lastTlv AwdlTlv.electionParameters.toByte history = none →
        peer.election = awdlElectionStateInit memory.election addr)) := by
  have known : ElectionOf (awdlElectionStateInit memory.election addr) history peer := by
    refine run.trace_invariant (ElectionOf (awdlElectionStateInit memory.election addr)) ?_ ?_
    · exact ⟨rfl, rfl, fun _ found => (by cases found), fun _ _ found => (by cases found),
        fun _ _ => rfl⟩
    · intro trace state label output next before step
      exact electionOf_step before step
  exact ⟨known.selfAddr, known.v2, fun absent => ⟨known.v1 absent, known.unheard absent⟩⟩

/-- Election parameters of version 1. -/
def sampleElection : Buf := bufNewConst (List.replicate 21 9)

/-- Election parameters of version 2. -/
def sampleElectionV2 : Buf := bufNewConst (List.replicate 40 7)

/-- A late TLV of version 1 is ignored. -/
theorem electionV2_precedence_late :
    ∃ peer, Transition.Run RecordStep (awdlPeerNew default ⟨2, 0, 0, 0, 0, 1⟩)
        [(.tlv AwdlTlv.electionParameters.toByte sampleElection, ()),
          (.tlv AwdlTlv.electionParametersV2.toByte sampleElectionV2, ())] peer ∧
      decodeElectionV2 ⟨2, 0, 0, 0, 0, 1⟩ sampleElectionV2 = some peer.election := by
  obtain ⟨peer, run⟩ : ∃ peer, Transition.Run RecordStep (awdlPeerNew default ⟨2, 0, 0, 0, 0, 1⟩)
      [(.tlv AwdlTlv.electionParameters.toByte sampleElection, ()),
        (.tlv AwdlTlv.electionParametersV2.toByte sampleElectionV2, ())] peer :=
    ⟨_, .cons (.cons .nil (.tlv .bits64 (fun _ => chanNull) sampleState 0 (by decide)))
      (.tlv .bits64 (fun _ => chanNull) sampleState 0 (by decide))⟩
  exact ⟨peer, run, (electionV2_precedence _ _ _ _ run).2.1 _ rfl⟩

end Owl
