import Owl.Daemon.Invariant
import Owl.Foundation.Alternation

/-! # The neighbour list of the kernel

The daemon registers `awdl_neighbor_add` and `awdl_neighbor_remove` as callbacks,
so every call of a callback is a change of the kernel's neighbour list. Every
event of a run reports exactly the changes of validity that it makes
(`step_reports`), so the list mirrors the valid peers.
-/

namespace Owl

open Transition Alternation

variable {platform : Platform} {env : RxEnv}

/-- `rfc4291_addr`. -/
def rfc4291Addr (eth : EtherAddr) : List UInt8 :=
  [0xfe, 0x80, 0, 0, 0, 0, 0, 0, eth.octet0 ^^^ 0x02, eth.octet1, eth.octet2, 0xff, 0xfe,
    eth.octet3, eth.octet4, eth.octet5]

theorem rfc4291Addr_injective : Function.Injective rfc4291Addr := by
  rintro ⟨⟩ ⟨⟩ same
  simp only [rfc4291Addr, List.cons.injEq, UInt8.xor_left_inj, true_and, and_true] at same
  simp only [EtherAddr.mk.injEq]
  exact same

/-- What a callback does to the neighbour entry of the addresses at hand: `true`
adds it and `false` removes it. -/
def neighborCall (here : EtherAddr → Bool) : Callback → Option Bool
  | .peerAdd peer => if here peer.addr then some true else none
  | .peerRemove peer => if here peer.addr then some false else none
  | .tlv _ _ _ => none

/-- The calls for the addresses at hand. -/
def callsAt (here : EtherAddr → Bool) (events : List Callback) : List Bool :=
  events.filterMap (neighborCall here)

@[simp] theorem callsAt_nil (here : EtherAddr → Bool) : callsAt here [] = [] := rfl

@[simp] theorem callsAt_append (here : EtherAddr → Bool) (first second : List Callback) :
    callsAt here (first ++ second) = callsAt here first ++ callsAt here second :=
  List.filterMap_append

/-- Whether a map has a valid peer for an address. -/
def validAt (map : EtherAddr → Option AwdlPeer) (addr : EtherAddr) : Bool :=
  (map addr).any (·.isValid)

theorem validAt_update (map : EtherAddr → Option AwdlPeer) (src : EtherAddr) (peer : AwdlPeer)
    (addr : EtherAddr) : validAt (Function.update map src (some peer)) addr =
      if addr = src then peer.isValid else validAt map addr := by
  unfold validAt
  split
  · rename_i same
    rw [same, Function.update_self]
    rfl
  · rename_i other
    rw [Function.update_of_ne other]

/-! ## Calls of a received frame -/

theorem callsAt_of_tlv (here : EtherAddr → Bool) {events : List Callback}
    (all : ∀ event ∈ events, event.IsTlv) : callsAt here events = [] := by
  rw [callsAt, List.filterMap_eq_nil_iff]
  intro event member
  cases event with
  | tlv _ _ _ => rfl
  | peerAdd peer => exact (all _ member).elim
  | peerRemove peer => exact (all _ member).elim

/-- Adding a known peer reports the change of its validity, which only rises. -/
theorem callsAt_addEvents {peer : AwdlPeer} {src : EtherAddr} (own : peer.addr = src)
    (now : UInt64) (addr : EtherAddr) :
    callsAt (· == addr) (addEvents true peer now) =
      if addr = src then change peer.isValid (touchedPeer peer now).isValid else [] := by
  subst own
  have complete : awdlPeerIsValid { peer with lastUpdate := now } = awdlPeerIsValid peer := rfl
  unfold addEvents turnValid touchedPeer
  rw [complete]
  cases peer.isValid with
  | true =>
      simp only [Bool.not_true, Bool.false_and, Bool.false_eq_true, ↓reduceIte, callsAt_nil,
        Bool.true_or, change_self, ite_self]
  | false =>
      cases awdlPeerIsValid peer with
      | false =>
          simp only [Bool.not_false, Bool.true_and, Bool.false_eq_true, ↓reduceIte, callsAt_nil,
            Bool.or_self, change_self, ite_self]
      | true =>
          simp only [Bool.not_false, Bool.and_self, ↓reduceIte, Bool.or_true, callsAt,
            List.filterMap_cons, neighborCall, beq_iff_eq, List.filterMap_nil]
          by_cases same : addr = peer.addr
          · rw [if_pos same.symm, if_pos same]
            rfl
          · rw [if_neg (Ne.symm same), if_neg same]

/-- What the events before the end of a frame report: the validity that the
sender has risen to so far. -/
theorem Updates.reports {hash : EtherAddr → UInt64} {tsft : UInt64} {src : EtherAddr}
    {state next : AwdlState} {peer : AwdlPeer} {events : List Callback}
    (wf : AwdlPeersWf hash state.peers.peers) (cb : state.peerCb = true)
    (updates : Updates env tsft src state next peer events) :
    peer.KeyedBy src ∧ validAt state.peers.peers.toMap src ≤ peer.isValid ∧
      ∀ addr, callsAt (· == addr) events =
        if addr = src then change (validAt state.peers.peers.toMap src) peer.isValid else [] := by
  obtain ⟨start, added, tlvs, same, rfl, all, starts⟩ := updates.events
  refine ⟨same.keyedBy (starts.keyedBy wf), ?_, fun addr => ?_⟩
  · rw [same.isValid]
    rcases starts with ⟨known, stored, rfl, _⟩ | ⟨missing, _, _⟩
    · rw [validAt, stored]
      exact Bool.left_le_or _ _
    · rw [validAt, missing]
      exact Bool.false_le _
  · rw [callsAt_append, callsAt_of_tlv _ all, List.append_nil, same.isValid]
    rcases starts with ⟨known, stored, rfl, rfl⟩ | ⟨missing, rfl, rfl⟩
    · rw [cb, callsAt_addEvents (wf.keyed src known stored).addr_eq, validAt, stored]
      rfl
    · rw [validAt, missing]
      exact (ite_self []).symm

/-- The end of a frame makes its sender valid or leaves its validity alone. -/
theorem isValid_le_closed (subtype : AwdlActionType) (peer : AwdlPeer) (tsft : UInt64) :
    peer.isValid ≤ (touchedPeer (closedPeer subtype peer) tsft).isValid := by
  rw [← closedPeer_isValid subtype peer]
  exact Bool.left_le_or _ _

/-- An action frame reports the changes of validity that it makes. -/
theorem ActionEffect.reports {hash : EtherAddr → UInt64} {frame : Buf} {tsft : UInt64}
    {src : EtherAddr} {state next : AwdlState} {result : RxResult} {events : List Callback}
    (wf : AwdlPeersWf hash state.peers.peers) (cb : state.peerCb = true)
    (allocates : ∀ length, env.peer.calloc length = true)
    (effect : ActionEffect env frame tsft src state next result events) (addr : EtherAddr) :
    callsAt (· == addr) events =
      change (validAt state.peers.peers.toMap addr) (validAt next.peers.peers.toMap addr) := by
  cases effect with
  | refused _ same _ => rw [same, change_self, callsAt_nil]
  | exhausted _ failed _ _ =>
      obtain ⟨length, refusal⟩ := failed
      rw [allocates length] at refusal
      cases refusal
  | aborted updates stored =>
      obtain ⟨_, _, calls⟩ := updates.reports wf cb
      rw [calls, stored, validAt_update]
      split
      · rename_i same
        rw [same]
      · rw [change_self]
  | @completed subtype peer events _ updates stored =>
      obtain ⟨own, rise, calls⟩ := updates.reports wf cb
      have closed := closedPeer_keyedBy subtype own
      rw [callsAt_append, calls, cb, callsAt_addEvents closed.addr_eq, stored, validAt_update]
      split
      · rename_i same
        rw [same, closedPeer_isValid, change_trans rise (isValid_le_closed subtype peer tsft)]
      · rw [change_self, List.append_nil]

/-- **A received frame reports the changes of validity that it makes.** -/
theorem RxEffect.reports {hash : EtherAddr → UInt64} {frame : Buf} {state next : AwdlState}
    {result : RxResult} {events : List Callback} (wf : AwdlPeersWf hash state.peers.peers)
    (cb : state.peerCb = true) (allocates : ∀ length, env.peer.calloc length = true)
    (effect : RxEffect platform env frame state next result events) (addr : EtherAddr) :
    callsAt (· == addr) events =
      change (validAt state.peers.peers.toMap addr) (validAt next.peers.peers.toMap addr) := by
  cases effect with
  | untouched _ counted quiet => rw [counted, quiet, change_self, callsAt_nil]
  | action _ _ effect => exact effect.reports wf cb allocates addr

/-! ## Calls of a clean-up -/

/-- The records that a sweep by age drops and reports. -/
def droppedValid (before : UInt64) (entry : EtherAddr × AwdlPeer) : Bool :=
  decide (entry.2.lastUpdate < before) && entry.2.isValid

theorem foldl_removeBefore (before : UInt64) (pairs : List (EtherAddr × AwdlPeer))
    (events : List Callback) :
    pairs.foldl (fun events entry => (removeBefore before true events entry.1 entry.2).1) events =
      events ++ (pairs.filter (droppedValid before)).map fun entry => .peerRemove entry.2 := by
  induction pairs generalizing events with
  | nil => exact (List.append_nil events).symm
  | cons entry rest ih =>
      rw [List.foldl_cons, ih, List.filter_cons]
      unfold removeBefore droppedValid
      by_cases old : entry.2.lastUpdate < before
      · cases entry.2.isValid with
        | true =>
            simp only [old, decide_true, Bool.and_self, ↓reduceIte, List.map_cons,
              List.append_assoc, List.singleton_append]
        | false =>
            simp only [old, Bool.false_and, Bool.and_false, Bool.false_eq_true, ↓reduceIte]
      · simp only [old, decide_false, Bool.false_and, Bool.false_eq_true, ↓reduceIte]

/-- The sweep by age reports the valid records that it drops, in order. -/
theorem awdlPeersRemove_events {hash : EtherAddr → UInt64} {peers : AwdlPeers}
    (wf : peers.Wf hash) (before : UInt64) :
    (awdlPeersRemove peers before true).2 =
      ((Slots.entries peers.data).filter (droppedValid before)).map fun entry =>
        .peerRemove entry.2 := by
  have walked := (hashmapIterate_eq (removeBefore before true) wf ([] : List Callback)).1
  rw [Slots.sweep_fst, foldl_removeBefore, List.nil_append] at walked
  exact walked

/-- The calls for an address are those for the dropped records of that key. -/
theorem callsAt_dropped (before : UInt64) (addr : EtherAddr)
    (pairs : List (EtherAddr × AwdlPeer)) (keyed : ∀ entry ∈ pairs, entry.2.addr = entry.1) :
    callsAt (· == addr)
        ((pairs.filter (droppedValid before)).map fun entry => .peerRemove entry.2) =
      ((pairs.filter fun entry => entry.1 = addr).filter (droppedValid before)).map
        fun _ => false := by
  induction pairs with
  | nil => rfl
  | cons entry rest ih =>
      have own := keyed entry List.mem_cons_self
      have later := ih fun other member => keyed other (List.mem_cons_of_mem _ member)
      unfold callsAt at later ⊢
      by_cases dropped : droppedValid before entry = true
      · by_cases same : entry.1 = addr
        · simp only [dropped, same, own, List.filter_cons, ↓reduceIte, decide_true, List.map_cons,
            List.filterMap_cons, neighborCall, BEq.rfl, later]
        · simp only [dropped, same, own, List.filter_cons, ↓reduceIte, decide_false,
            Bool.false_eq_true, List.map_cons, List.filterMap_cons, neighborCall, beq_iff_eq, later]
      · by_cases same : entry.1 = addr
        · simp only [dropped, same, List.filter_cons, Bool.false_eq_true, ↓reduceIte, decide_true,
            later]
        · simp only [dropped, same, List.filter_cons, Bool.false_eq_true, ↓reduceIte, decide_false,
            later]

/-- **A clean-up reports the changes of validity that it makes.** -/
theorem awdlCleanPeers_reports {hash : EtherAddr → UInt64} {state : DaemonState}
    (wf : AwdlPeersWf hash state.awdlState.peers.peers)
    (cb : state.awdlState.peerRemoveCb = true) (now : UInt64) (addr : EtherAddr) :
    callsAt (· == addr) (awdlCleanPeers now state).2 =
      change (validAt state.awdlState.peers.peers.toMap addr)
        (validAt (survivors now state.awdlState) addr) := by
  have keyed : ∀ entry ∈ Slots.entries state.awdlState.peers.peers.data,
      entry.2.addr = entry.1 := by
    intro entry member
    exact (wf.keyed entry.1 entry.2
      ((Slots.toMap_eq_some_iff wf.table.distinct).mpr member)).addr_eq
  unfold awdlCleanPeers
  dsimp only
  rw [cb, awdlPeersRemove_events wf.table, callsAt_dropped _ _ _ keyed,
    wf.table.distinct.filter_key]
  unfold validAt survivors HashmapMap.toMap Slots.toMap
  cases (Slots.entries state.awdlState.peers.peers.data).find? fun entry => entry.1 = addr with
  | none => rfl
  | some entry =>
      by_cases old : entry.2.lastUpdate < now - state.awdlState.peers.timeout
      · cases valid : entry.2.isValid with
        | true =>
            simp only [Option.toList_some, List.filter_cons, droppedValid, old, valid, decide_true,
              Bool.and_self, ↓reduceIte, List.filter_nil, List.map_cons, List.map_nil,
              Option.map_some, Option.any_some, Option.filter_some, Bool.not_true,
              Bool.false_eq_true, Option.any_none]
            rfl
        | false =>
            simp only [Option.toList_some, List.filter_cons, droppedValid, old, valid, decide_true,
              Bool.and_false, Bool.false_eq_true, ↓reduceIte, List.filter_nil, List.map_nil,
              Option.map_some, Option.any_some, Option.filter_some, Bool.not_true,
              Option.any_none, change_self]
      · simp only [Option.toList_some, List.filter_cons, droppedValid, old, decide_false,
          Bool.false_and, Bool.false_eq_true, ↓reduceIte, List.filter_nil, List.map_nil,
          Option.map_some, Option.any_some, Option.filter_some, Bool.not_false, change_self]

/-! ## Runs -/

/-- An event in which every allocation for the peer table succeeds. -/
def DaemonLabel.Allocates : DaemonLabel → Prop
  | .receive env _ => ∀ length, env.peer.calloc length = true
  | .clean _ => True

/-- An event of a daemon in which no allocation fails. -/
def AllocatingStep (platform : Platform) (state : DaemonState) (label : DaemonLabel)
    (output : DaemonOutput) (next : DaemonState) : Prop :=
  DaemonStep platform state label output next ∧ label.Allocates

theorem step_after {state next : DaemonState} {label : DaemonLabel} {output : DaemonOutput}
    (step : DaemonStep platform state label output next) : output.after = next.awdlState := by
  cases label with
  | receive env buf =>
      obtain ⟨outcome, _, rfl, rfl⟩ := step
      rfl
  | clean now =>
      obtain ⟨rfl, rfl⟩ := step
      rfl

/-- **Every event reports the changes of validity that it makes.** -/
theorem step_reports {state next : DaemonState} {label : DaemonLabel} {output : DaemonOutput}
    (wf : DaemonWf platform state) (step : AllocatingStep platform state label output next)
    (addr : EtherAddr) :
    callsAt (· == addr) output.events = change (validAt state.awdlState.peers.peers.toMap addr)
      (validAt next.awdlState.peers.peers.toMap addr) := by
  obtain ⟨step, allocates⟩ := step
  cases label with
  | receive env buf =>
      obtain ⟨outcome, done, rfl, rfl⟩ := step
      obtain ⟨_, _, effect⟩ := awdlReceiveFrame_effect wf.table done
      exact effect.reports wf.table wf.peerCb allocates addr
  | clean now =>
      obtain ⟨rfl, rfl⟩ := step
      obtain ⟨peers, _, kept, after⟩ := awdlCleanPeers_effect now wf.table
      rw [after]
      dsimp only
      rw [kept]
      exact awdlCleanPeers_reports wf.table wf.peerRemoveCb now addr

theorem awdlPeerIsValid_of_addEvents {cb : Bool} {peer added : AwdlPeer} {now : UInt64}
    (member : .peerAdd added ∈ addEvents cb peer now) : awdlPeerIsValid added = true := by
  unfold addEvents turnValid at member
  split at member
  · rename_i turned
    dsimp only at member
    split at member
    · rw [List.mem_singleton, Callback.peerAdd.injEq] at member
      subst member
      exact (Bool.and_eq_true_iff.mp turned).2
    · exact absurd member List.not_mem_nil
  · exact absurd member List.not_mem_nil

theorem Updates.complete {tsft : UInt64} {src : EtherAddr} {state next : AwdlState}
    {peer added : AwdlPeer} {events : List Callback}
    (updates : Updates env tsft src state next peer events)
    (member : .peerAdd added ∈ events) : awdlPeerIsValid added = true := by
  obtain ⟨start, first, tlvs, _, rfl, all, starts⟩ := updates.events
  rcases List.mem_append.mp member with early | late
  · rcases starts with ⟨known, _, _, rfl⟩ | ⟨_, _, rfl⟩
    · exact awdlPeerIsValid_of_addEvents early
    · exact absurd early List.not_mem_nil
  · exact (all _ late).elim

/-- Only complete records are reported as added. -/
theorem step_adds_complete {state next : DaemonState} {label : DaemonLabel}
    {output : DaemonOutput} (wf : DaemonWf platform state)
    (step : DaemonStep platform state label output next) {added : AwdlPeer}
    (member : .peerAdd added ∈ output.events) : awdlPeerIsValid added = true := by
  cases label with
  | receive env buf =>
      obtain ⟨outcome, done, rfl, rfl⟩ := step
      obtain ⟨_, _, effect⟩ := awdlReceiveFrame_effect wf.table done
      dsimp only at member
      cases effect with
      | untouched _ _ quiet =>
          rw [quiet] at member
          exact absurd member List.not_mem_nil
      | action _ _ effect =>
          generalize outcome.events = events at member effect
          generalize outcome.result = result at effect
          cases effect with
          | refused _ _ _ => exact absurd member List.not_mem_nil
          | exhausted _ _ _ _ => exact absurd member List.not_mem_nil
          | aborted updates _ => exact updates.complete member
          | completed _ updates _ =>
              rcases List.mem_append.mp member with early | late
              · exact updates.complete early
              · exact awdlPeerIsValid_of_addEvents late
  | clean now =>
      obtain ⟨rfl, rfl⟩ := step
      dsimp only [awdlCleanPeers] at member
      rw [wf.peerRemoveCb, awdlPeersRemove_events wf.table.table] at member
      obtain ⟨entry, _, clash⟩ := List.mem_map.mp member
      cases clash

/-- A MIF of an address that was parsed to its end without error. -/
def AcceptedMif (addr : EtherAddr) : DaemonLabel × DaemonOutput → Prop
  | (.receive _ buf, output) => output.result = some .ok ∧
      frameType (frameHdr buf).frameControl = ieee80211Action ∧
      (frameHdr buf).addr2 = addr ∧ actionSubtype buf = AwdlActionType.mif.toByte
  | (.clean _, _) => False

/-- A MIF of an address was accepted since the address has been in the table. -/
def MifSince (addr : EtherAddr) : List (DaemonLabel × DaemonOutput) → Prop
  | [] => False
  | entry :: earlier => (entry.2.after.peers.peers.toMap addr).isSome ∧
      (AcceptedMif addr entry ∨ MifSince addr earlier)

/-- The record of a sender marks a MIF only if its old record did. -/
theorem Updates.sentMif {tsft : UInt64} {src : EtherAddr} {state next : AwdlState}
    {peer : AwdlPeer} {events : List Callback}
    (updates : Updates env tsft src state next peer events) (marked : peer.sentMif = true) :
    ∃ known, state.peers.peers.toMap src = some known ∧ known.sentMif = true := by
  obtain ⟨start, added, tlvs, same, _, _, starts⟩ := updates.events
  rw [same.sentMif] at marked
  rcases starts with ⟨known, stored, rfl, _⟩ | ⟨_, rfl, _⟩
  · exact ⟨known, stored, marked⟩
  · cases marked

theorem RxEffect.sentMif {buf : List UInt8} {state next : AwdlState} {result : RxResult}
    {events : List Callback}
    (effect : RxEffect platform env (bufNewConst buf) state next result events)
    {addr : EtherAddr} {peer : AwdlPeer} (stored : next.peers.peers.toMap addr = some peer)
    (marked : peer.sentMif = true) :
    (result = .ok ∧ frameType (frameHdr buf).frameControl = ieee80211Action ∧
        (frameHdr buf).addr2 = addr ∧ actionSubtype buf = AwdlActionType.mif.toByte) ∨
      ∃ known, state.peers.peers.toMap addr = some known ∧ known.sentMif = true := by
  cases effect with
  | untouched _ counted _ =>
      rw [counted] at stored
      exact Or.inr ⟨peer, stored, marked⟩
  | action parsed type effect =>
      rw [(parseFrame_ok parsed).1] at type effect
      cases effect with
      | refused _ same _ =>
          rw [same] at stored
          exact Or.inr ⟨peer, stored, marked⟩
      | exhausted _ _ _ part => exact Or.inr ⟨peer, part _ _ stored, marked⟩
      | aborted updates written =>
          rw [written] at stored
          by_cases sender : addr = (frameHdr buf).addr2
          · rw [sender, Function.update_self] at stored
            cases stored
            exact Or.inr (sender ▸ updates.sentMif marked)
          · rw [Function.update_of_ne sender] at stored
            exact Or.inr ⟨peer, stored, marked⟩
      | @completed subtype record events action updates written =>
          rw [written] at stored
          by_cases sender : addr = (frameHdr buf).addr2
          · rw [sender, Function.update_self] at stored
            cases stored
            cases subtype with
            | mif =>
                exact Or.inl ⟨rfl, type, sender.symm, awdlParseActionHdr_subtype parsed action⟩
            | psf => exact Or.inr (sender ▸ updates.sentMif marked)
          · rw [Function.update_of_ne sender] at stored
            exact Or.inr ⟨peer, stored, marked⟩

/-- Where a mark in the table comes from: it was there before, or this event is a MIF. -/
theorem step_sentMif {state next : DaemonState} {label : DaemonLabel} {output : DaemonOutput}
    (wf : DaemonWf platform state) (step : DaemonStep platform state label output next)
    {addr : EtherAddr} {peer : AwdlPeer}
    (stored : next.awdlState.peers.peers.toMap addr = some peer) (marked : peer.sentMif = true) :
    AcceptedMif addr (label, output) ∨
      ∃ known, state.awdlState.peers.peers.toMap addr = some known ∧ known.sentMif = true := by
  cases label with
  | receive env buf =>
      obtain ⟨outcome, done, rfl, rfl⟩ := step
      obtain ⟨_, _, effect⟩ := awdlReceiveFrame_effect wf.table done
      refine (effect.sentMif stored marked).imp_left ?_
      rintro ⟨accepted, rest⟩
      exact ⟨congrArg some accepted, rest⟩
  | clean now =>
      obtain ⟨rfl, rfl⟩ := step
      obtain ⟨peers, _, kept, after⟩ := awdlCleanPeers_effect now wf.table
      rw [after] at stored
      dsimp only at stored
      rw [kept] at stored
      exact Or.inr ⟨peer, survivors_eq_some stored, marked⟩

/-- An action frame that is accepted leaves its sender valid if the record is complete. -/
theorem RxEffect.accepted {buf : List UInt8} {state next : AwdlState} {result : RxResult}
    {events : List Callback}
    (effect : RxEffect platform env (bufNewConst buf) state next result events)
    (accepted : result = .ok)
    (action : frameType (frameHdr buf).frameControl = ieee80211Action) :
    ∃ peer, next.peers.peers.toMap (frameHdr buf).addr2 = some peer ∧
      (awdlPeerIsValid peer = true → peer.isValid = true) := by
  subst accepted
  cases effect with
  | untouched other _ _ =>
      obtain ⟨rx, parsed, type⟩ := other rfl
      rw [(parseFrame_ok parsed).1] at type
      exact absurd action type
  | action parsed _ effect =>
      rw [(parseFrame_ok parsed).1] at effect
      cases effect with
      | refused positive _ _ => exact absurd positive (by decide)
      | @completed subtype peer events _ _ stored =>
          refine ⟨_, by rw [stored, Function.update_self], fun complete => ?_⟩
          exact Bool.or_eq_true_iff.mpr (Or.inr complete)

/-- The calls of callbacks of a run, in order. -/
def traceEvents (trace : List (DaemonLabel × DaemonOutput)) : List Callback :=
  trace.reverse.flatMap fun entry => entry.2.events

theorem traceEvents_cons (entry : DaemonLabel × DaemonOutput)
    (trace : List (DaemonLabel × DaemonOutput)) :
    traceEvents (entry :: trace) = traceEvents trace ++ entry.2.events := by
  simp only [traceEvents, List.reverse_cons, List.flatMap_append, List.flatMap_cons,
    List.flatMap_nil, List.append_nil]

/-- What the calls and the marks of a run say about the table. -/
structure Mirrors (trace : List (DaemonLabel × DaemonOutput)) (state : AwdlState) : Prop where
  calls : ∀ addr, Alternating (callsAt (· == addr) (traceEvents trace)) ∧
    (Outstanding (callsAt (· == addr) (traceEvents trace)) ↔
      validAt state.peers.peers.toMap addr = true)
  complete : ∀ peer, .peerAdd peer ∈ traceEvents trace → awdlPeerIsValid peer = true
  marks : ∀ addr peer, state.peers.peers.toMap addr = some peer → peer.sentMif = true →
    MifSince addr trace
  accepted : ∀ env buf output, (DaemonLabel.receive env buf, output) ∈ trace →
    output.result = some .ok → frameType (frameHdr buf).frameControl = ieee80211Action →
    ∃ peer, output.after.peers.peers.toMap (frameHdr buf).addr2 = some peer ∧
      (awdlPeerIsValid peer = true → peer.isValid = true)

theorem Mirrors.step {trace : List (DaemonLabel × DaemonOutput)} {state next : DaemonState}
    {label : DaemonLabel} {output : DaemonOutput} (wf : DaemonWf platform state)
    (mirrors : Mirrors trace state.awdlState)
    (step : AllocatingStep platform state label output next) :
    Mirrors ((label, output) :: trace) next.awdlState where
  calls := by
    intro addr
    obtain ⟨alternating, outstanding⟩ := mirrors.calls addr
    rw [traceEvents_cons, callsAt_append, step_reports wf step addr]
    exact append_change alternating outstanding _
  complete := by
    intro peer member
    rw [traceEvents_cons] at member
    rcases List.mem_append.mp member with before | now
    · exact mirrors.complete peer before
    · exact step_adds_complete wf step.1 now
  marks := by
    intro addr peer stored marked
    have after : output.after = next.awdlState := step_after step.1
    refine ⟨?_, (step_sentMif wf step.1 stored marked).imp_right ?_⟩
    · rw [after, stored]
      rfl
    · rintro ⟨known, present, old⟩
      exact mirrors.marks addr known present old
  accepted := by
    intro env buf output' member result action
    rcases List.mem_cons.mp member with same | before
    · cases same
      obtain ⟨outcome, done, rfl, rfl⟩ := step.1
      obtain ⟨_, _, effect⟩ := awdlReceiveFrame_effect wf.table done
      exact effect.accepted (Option.some.inj result) action
    · exact mirrors.accepted env buf output' before result action

theorem awdlPeerIsValid_iff {peer : AwdlPeer} : awdlPeerIsValid peer = true ↔
    peer.sentMif = true ∧ peer.devclass ≠ 0 ∧ peer.version ≠ 0 := by
  simp only [awdlPeerIsValid, Bool.and_eq_true, bne_iff_ne, ne_eq, and_assoc]

theorem validAt_iff {map : EtherAddr → Option AwdlPeer} {addr : EtherAddr} :
    validAt map addr = true ↔ ∃ peer, map addr = some peer ∧ peer.isValid = true := by
  unfold validAt
  rw [Option.any_eq_true]

/-- The calls for an IPv6 address are those for the one address that it is made of. -/
theorem callsAt_rfc4291 (addr : EtherAddr) (events : List Callback) :
    callsAt (fun other => rfc4291Addr other == rfc4291Addr addr) events =
      callsAt (· == addr) events := by
  have same : (fun other => rfc4291Addr other == rfc4291Addr addr) = (· == addr) := by
    funext other
    rw [Bool.eq_iff_iff, beq_iff_eq, beq_iff_eq, rfc4291Addr_injective.eq_iff]
  rw [same]

theorem callsAt_of_none {here : EtherAddr → Bool} (none : ∀ addr, here addr = false)
    (events : List Callback) : callsAt here events = [] := by
  rw [callsAt, List.filterMap_eq_nil_iff]
  intro event _
  cases event with
  | tlv _ _ _ => rfl
  | peerAdd peer => simp only [neighborCall, none, Bool.false_eq_true, ↓reduceIte]
  | peerRemove peer => simp only [neighborCall, none, Bool.false_eq_true, ↓reduceIte]

/-- **The neighbour list mirrors the valid peers.** In every run in which no
allocation fails, the calls for an address alternate and are outstanding exactly
while the table has a valid peer for it, and likewise for IPv6 addresses; only
complete records are added; a record is marked only by a MIF since it was
created; and an accepted action frame leaves a complete sender valid. -/
theorem neighbors_mirror_valid_peers (platform : Platform) {name : List UInt8}
    {election : AwdlElectionState} {hostname : List UInt8} {self : EtherAddr} {chan : AwdlChan}
    {now : UInt64} {trace : List (DaemonLabel × DaemonOutput)} {state : DaemonState}
    (run : Run (AllocatingStep platform) (awdlInit name election hostname self chan now) trace
      state) :
    (∀ addr, Alternating (callsAt (· == addr) (traceEvents trace)) ∧
      (Outstanding (callsAt (· == addr) (traceEvents trace)) ↔
        ∃ peer, state.awdlState.peers.peers.toMap addr = some peer ∧ peer.isValid = true)) ∧
    (∀ in6, Alternating (callsAt (fun addr => rfc4291Addr addr == in6) (traceEvents trace)) ∧
      (Outstanding (callsAt (fun addr => rfc4291Addr addr == in6) (traceEvents trace)) ↔
        ∃ addr peer, rfc4291Addr addr = in6 ∧
          state.awdlState.peers.peers.toMap addr = some peer ∧ peer.isValid = true)) ∧
    (∀ peer, .peerAdd peer ∈ traceEvents trace →
      peer.sentMif = true ∧ peer.devclass ≠ 0 ∧ peer.version ≠ 0) ∧
    (∀ addr peer, state.awdlState.peers.peers.toMap addr = some peer → peer.sentMif = true →
      MifSince addr trace) ∧
    ∀ env buf output, (DaemonLabel.receive env buf, output) ∈ trace →
      output.result = some .ok → frameType (frameHdr buf).frameControl = ieee80211Action →
      ∃ peer, output.after.peers.peers.toMap (frameHdr buf).addr2 = some peer ∧
        (peer.sentMif = true ∧ peer.devclass ≠ 0 ∧ peer.version ≠ 0 → peer.isValid = true) := by
  have invariant : DaemonWf platform state ∧ Mirrors trace state.awdlState := by
    refine run.trace_invariant (fun trace state => DaemonWf platform state ∧
      Mirrors trace state.awdlState) ⟨awdlInit_wf .., ?_⟩ ?_
    · refine ⟨fun addr => ⟨alternating_nil, ?_⟩, ?_, ?_, ?_⟩
      · apply iff_of_false not_outstanding_nil
        rw [validAt_iff]
        rintro ⟨peer, stored, _⟩
        cases (toMap_hashmapNew addr).symm.trans stored
      · intro peer member
        exact absurd member List.not_mem_nil
      · intro addr peer stored
        cases (toMap_hashmapNew addr).symm.trans stored
      · intro env buf output member
        exact absurd member List.not_mem_nil
    · rintro trace state label output next ⟨wf, mirrors⟩ step
      exact ⟨wf.step step.1, mirrors.step wf step⟩
  obtain ⟨_, calls, complete, marks, accepted⟩ := invariant
  simp only [validAt_iff] at calls
  simp only [awdlPeerIsValid_iff] at complete accepted
  refine ⟨calls, fun in6 => ?_, complete, marks, accepted⟩
  by_cases range : ∃ addr, rfc4291Addr addr = in6
  · obtain ⟨addr, rfl⟩ := range
    rw [callsAt_rfc4291]
    refine ⟨(calls addr).1, (calls addr).2.trans ⟨?_, ?_⟩⟩
    · rintro ⟨peer, stored, valid⟩
      exact ⟨addr, peer, rfl, stored, valid⟩
    · rintro ⟨other, peer, same, stored, valid⟩
      rw [rfc4291Addr_injective same] at stored
      exact ⟨peer, stored, valid⟩
  · have nowhere : ∀ addr, (rfc4291Addr addr == in6) = false := by
      intro addr
      rw [beq_eq_false_iff_ne]
      exact fun same => range ⟨addr, same⟩
    rw [callsAt_of_none nowhere]
    refine ⟨alternating_nil, iff_of_false not_outstanding_nil ?_⟩
    rintro ⟨addr, peer, same, _⟩
    exact range ⟨addr, same⟩

/-- A peer that sends a MIF and is silent after it is added and removed. -/
theorem neighbors_mirror_valid_peers_sample : ∃ trace state,
    Run (AllocatingStep samplePlatform) sampleDaemon trace state ∧
      callsAt (· == ⟨2, 0, 0, 0, 0, 2⟩) (traceEvents trace) = [true, false] ∧
      ¬∃ peer, state.awdlState.peers.peers.toMap ⟨2, 0, 0, 0, 0, 2⟩ = some peer ∧
        peer.isValid = true := by
  have computed : ((awdlReceiveFrame samplePlatform (sampleEnv 3000000)
      (sampleMif ⟨2, 0, 0, 0, 0, 2⟩ 0) sampleDaemon).map fun outcome =>
        (callsAt (· == ⟨2, 0, 0, 0, 0, 2⟩) outcome.events,
          callsAt (· == ⟨2, 0, 0, 0, 0, 2⟩) (awdlCleanPeers 5000001 outcome.state).2)) =
      some ([true], [false]) := by
    decide +kernel
  obtain ⟨outcome, done, calls⟩ := Option.map_eq_some_iff.mp computed
  simp only [Prod.mk.injEq] at calls
  have run : Run (AllocatingStep samplePlatform) sampleDaemon _
      (awdlCleanPeers 5000001 outcome.state).1 :=
    (Run.nil.cons ⟨.receive done, fun _ => rfl⟩).cons ⟨.clean _ 5000001 _, trivial⟩
  refine ⟨_, _, run, ?_, ?_⟩
  · rw [traceEvents_cons, traceEvents_cons, callsAt_append, callsAt_append, calls.1, calls.2]
    rfl
  · rw [← ((neighbors_mirror_valid_peers samplePlatform run).1 _).2, traceEvents_cons,
      traceEvents_cons, callsAt_append, callsAt_append, calls.1, calls.2]
    exact Nat.zero_ne_one

end Owl
