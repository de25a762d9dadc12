import Owl.Daemon.Parts
import Owl.Tx.Headers

/-! # Numbers and counters of the daemon

In every run of the event loop the frames that are handed to the network device carry
the 802.11 sequence numbers 0, 1, 2 and so on, modulo 4096, whatever callbacks have
built them, and the data frames among them carry AWDL sequence numbers in the same way,
modulo 65536 (`loop_sequence_numbers`). The counters of the daemon count exactly what
has been sent (`loop_counters`).
-/

namespace Owl

open Transition

variable {platform : Platform} {wlanIsFile : Bool}

/-! ## Sequence numbers in frames -/

/-- The 802.11 sequence number of a frame that is handed to the network device: the upper
twelve bits of the sequence control field behind the radiotap header. -/
def sequenceNumberOf (frame : List UInt8) : Nat := Octets.ofLE ((frame.drop 31).take 2) / 16

/-- The AWDL sequence number of a data frame that is handed to the network device. -/
def dataSequenceNumberOf (frame : List UInt8) : Nat := Octets.ofLE ((frame.drop 43).take 2)

/-- A field behind a number of bytes. -/
theorem field_eq {frame front rest : List UInt8} {value : UInt16} {offset : Nat}
    (shown : frame = front ++ (le16 value ++ rest)) (length : front.length = offset) :
    Octets.ofLE ((frame.drop offset).take 2) = value.toNat := by
  have small : value.toNat < 256 ^ 2 := value.toNat_lt
  rw [shown, List.drop_left' length, List.take_left' (length_le16 value), le16,
    Octets.ofLE_toLE, Nat.mod_eq_of_lt small]

/-- The check sequence is behind all headers. -/
theorem withFcs_eq (layer : Ieee80211State) (frame : List UInt8) :
    ∃ rest, withFcs layer frame = frame ++ rest := by
  unfold withFcs
  split
  · exact ⟨_, rfl⟩
  · exact ⟨[], (List.append_nil frame).symm⟩

section Frames

variable {layer : Ieee80211State} {count : Nat}
  (numbered : layer.sequenceNumber = UInt16.ofNat (count % 4096))

include numbered

theorem toNat_sequenceControl :
    (UInt16.ofNat (layer.sequenceNumber.toNat <<< 4)).toNat / 16 = count % 4096 := by
  rw [numbered, UInt16.toNat_ofNat', UInt16.toNat_ofNat', Nat.shiftLeft_eq]
  omega

/-- The layer counts modulo 4096. -/
theorem nextSequenceNumber_eq :
    (ieee80211StateNextSequenceNumber layer).2.sequenceNumber =
      UInt16.ofNat ((count + 1) % 4096) := by
  have mask : ∀ value : UInt16, (value &&& 0x0fff).toNat = value.toNat % 4096 := by
    intro value
    rw [UInt16.toNat_and]
    exact Nat.and_two_pow_sub_one_eq_mod value.toNat 12
  apply UInt16.toNat_inj.mp
  dsimp only [ieee80211StateNextSequenceNumber]
  rw [mask, UInt16.toNat_add, numbered, UInt16.toNat_ofNat', UInt16.toNat_ofNat',
    UInt16.toNat_one]
  omega

/-- The sequence number in the header of any frame. -/
theorem sequenceNumberOf_hdr (src dst : EtherAddr) (type : UInt16) (rest : List UInt8) :
    sequenceNumberOf (ieee80211InitRadiotapHeader ++
      ((ieee80211InitAwdlHdr src dst layer type).1 ++ rest)) = count % 4096 := by
  have shown : ieee80211InitRadiotapHeader ++
      ((ieee80211InitAwdlHdr src dst layer type).1 ++ rest) =
        (ieee80211InitRadiotapHeader ++ (le16 type ++ le16 0 ++ dst.octets ++ src.octets ++
          awdlBssid.octets)) ++ (le16 (UInt16.ofNat (layer.sequenceNumber.toNat <<< 4)) ++
            rest) := by
    dsimp only [ieee80211InitAwdlHdr, ieee80211StateNextSequenceNumber]
    simp only [List.append_assoc]
  calc sequenceNumberOf _
      _ = (UInt16.ofNat (layer.sequenceNumber.toNat <<< 4)).toNat / 16 :=
          congrArg (· / 16) (field_eq shown rfl)
      _ = count % 4096 := toNat_sequenceControl numbered

theorem sequenceNumberOf_action (long : LongWidth) (clock : TxClock) (state : AwdlState)
    (type : AwdlActionType) :
    sequenceNumberOf (awdlInitFullActionFrame long clock state layer type).1 = count % 4096 := by
  dsimp only [awdlInitFullActionFrame, ieee80211InitAwdlActionHdr]
  obtain ⟨rest, shown⟩ := withFcs_eq (ieee80211InitAwdlHdr state.selfAddress state.dst layer
    ieee80211Action).2 (ieee80211InitRadiotapHeader ++ (ieee80211InitAwdlHdr state.selfAddress
      state.dst layer ieee80211Action).1 ++ awdlInitAction clock.action type ++
        actionTlvs long clock.sync state type)
  rw [shown]
  simp only [List.append_assoc]
  exact sequenceNumberOf_hdr numbered _ _ _ _

theorem sequenceNumberOf_data (src dst : EtherAddr) (payload : List UInt8) (state : AwdlState) :
    sequenceNumberOf (awdlInitFullDataFrame src dst payload state layer).1 = count % 4096 := by
  dsimp only [awdlInitFullDataFrame, ieee80211InitAwdlDataHdr]
  obtain ⟨rest, shown⟩ := withFcs_eq (ieee80211InitAwdlHdr src dst layer ieee80211Data).2
    (ieee80211InitRadiotapHeader ++ (ieee80211InitAwdlHdr src dst layer ieee80211Data).1 ++
      llcInitAwdlHdr ++ (awdlInitData state).1 ++ payload)
  rw [shown]
  simp only [List.append_assoc]
  exact sequenceNumberOf_hdr numbered _ _ _ _

omit numbered in
theorem dataSequenceNumberOf_data (src dst : EtherAddr) (payload : List UInt8)
    (state : AwdlState) :
    dataSequenceNumberOf (awdlInitFullDataFrame src dst payload state layer).1 =
      state.sequenceNumber.toNat := by
  dsimp only [awdlInitFullDataFrame, ieee80211InitAwdlDataHdr]
  obtain ⟨rest, shown⟩ := withFcs_eq (ieee80211InitAwdlHdr src dst layer ieee80211Data).2
    (ieee80211InitRadiotapHeader ++ (ieee80211InitAwdlHdr src dst layer ieee80211Data).1 ++
      llcInitAwdlHdr ++ (awdlInitData state).1 ++ payload)
  have fields : withFcs (ieee80211InitAwdlHdr src dst layer ieee80211Data).2
      (ieee80211InitRadiotapHeader ++ (ieee80211InitAwdlHdr src dst layer ieee80211Data).1 ++
        llcInitAwdlHdr ++ (awdlInitData state).1 ++ payload) =
      (ieee80211InitRadiotapHeader ++ (ieee80211InitAwdlHdr src dst layer ieee80211Data).1 ++
        llcInitAwdlHdr ++ le16 awdlDataHead) ++ (le16 state.sequenceNumber ++
          (le16 awdlDataPad ++ be16 ethPIpv6 ++ payload ++ rest)) := by
    rw [shown]
    dsimp only [awdlInitData, awdlStateNextSequenceNumber]
    simp only [List.append_assoc]
  exact field_eq fields rfl

end Frames

/-! ## The accounts -/

/-- The data frames that have been handed to the network device. -/
def dataFrames (events : List LoopEvent) : List (List UInt8) :=
  events.filterMap fun
    | .tx (.sendData _ frame) => frame
    | _ => none

/-- The action frames that have been handed to the network device. -/
def actionFrames (events : List LoopEvent) : List (List UInt8) :=
  events.filterMap fun
    | .action _ frame => some frame
    | _ => none

/-- All frames that have been handed to the network device, in their order. -/
def injected (events : List LoopEvent) : List (List UInt8) :=
  events.filterMap fun
    | .tx (.sendData _ frame) => frame
    | .action _ frame => some frame
    | _ => none

section Append

variable (first second : List LoopEvent)

@[simp] theorem dataFrames_append :
    dataFrames (first ++ second) = dataFrames first ++ dataFrames second :=
  List.filterMap_append

@[simp] theorem actionFrames_append :
    actionFrames (first ++ second) = actionFrames first ++ actionFrames second :=
  List.filterMap_append

@[simp] theorem injected_append :
    injected (first ++ second) = injected first ++ injected second :=
  List.filterMap_append

@[simp] theorem handedOver_append (first second : List TxEvent) :
    handedOver (first ++ second) = handedOver first ++ handedOver second :=
  List.filterMap_append

end Append

/-- Nothing is handed over with silent events. -/
theorem silent_nothing {batch : List LoopEvent} (silent : ∀ event ∈ batch, event.Silent) :
    injected batch = [] ∧ dataFrames batch = [] ∧ actionFrames batch = [] ∧
      handedOver (txPart batch) = [] := by
  induction batch with
  | nil => exact ⟨rfl, rfl, rfl, rfl⟩
  | cons event rest ih =>
      have later := ih fun other member => silent other (List.mem_cons_of_mem event member)
      have first := silent event List.mem_cons_self
      cases event with
      | tx event =>
          cases event with
          | sendData packet frame => exact absurd first id
          | received _ => exact later
          | toNext _ => exact later
          | toQueue _ _ => exact later
          | loopBack _ => exact later
          | drop _ => exact later
      | action type frame => exact absurd first id
      | setChannel _ => exact later
      | deliver _ => exact later
      | peer _ => exact later

/-- Frames that carry the numbers from zero on, modulo a modulus. -/
def Numbered (number : List UInt8 → Nat) (modulus : Nat) (frames : List (List UInt8)) : Prop :=
  frames.map number = (List.range frames.length).map (· % modulus)

theorem Numbered.snoc {number : List UInt8 → Nat} {modulus : Nat} {frames : List (List UInt8)}
    (numbered : Numbered number modulus frames) {frame : List UInt8}
    (next : number frame = frames.length % modulus) :
    Numbered number modulus (frames ++ [frame]) := by
  unfold Numbered
  rw [List.map_append, List.length_append, List.length_singleton, List.range_succ,
    List.map_append, List.map_singleton, List.map_singleton, next, numbered]

/-- Numbers and counters agree with what has happened. -/
structure Accounted (events : List LoopEvent) (state : DaemonState) : Prop where
  layer : state.ieee80211State.sequenceNumber = UInt16.ofNat ((injected events).length % 4096)
  numbers : Numbered sequenceNumberOf 4096 (injected events)
  awdl : state.awdlState.sequenceNumber = UInt16.ofNat (dataFrames events).length
  dataNumbers : Numbered dataSequenceNumberOf 65536 (dataFrames events)
  txAction : state.awdlState.stats.txAction = UInt64.ofNat (actionFrames events).length
  txData : state.awdlState.stats.txData = UInt64.ofNat (dataFrames events).length
  txDataUnicast : state.awdlState.stats.txDataUnicast =
    UInt64.ofNat ((handedOver (txPart events)).countP (!·.isMulticast))
  txDataMulticast : state.awdlState.stats.txDataMulticast =
    UInt64.ofNat ((handedOver (txPart events)).countP (·.isMulticast))
  built : (dataFrames events).length =
    (handedOver (txPart events)).countP (14 ≤ ·.buf.view.length)

section Accounted

variable {events : List LoopEvent} {state next : DaemonState} (accounted : Accounted events state)

include accounted

/-- Nothing is handed over. -/
theorem Accounted.silent {batch : List LoopEvent} (silent : ∀ event ∈ batch, event.Silent)
    (same : SameAccounts state next) : Accounted (events ++ batch) next := by
  obtain ⟨all, data, action, handed⟩ := silent_nothing silent
  constructor
  · rw [congrArg Ieee80211State.sequenceNumber same.layer, injected_append, all, List.append_nil]
    exact accounted.layer
  · rw [injected_append, all, List.append_nil]
    exact accounted.numbers
  · rw [same.awdl, dataFrames_append, data, List.append_nil]
    exact accounted.awdl
  · rw [dataFrames_append, data, List.append_nil]
    exact accounted.dataNumbers
  · rw [same.txAction, actionFrames_append, action, List.append_nil]
    exact accounted.txAction
  · rw [same.txData, dataFrames_append, data, List.append_nil]
    exact accounted.txData
  · rw [same.txDataUnicast, txPart_append, handedOver_append, handed, List.append_nil]
    exact accounted.txDataUnicast
  · rw [same.txDataMulticast, txPart_append, handedOver_append, handed, List.append_nil]
    exact accounted.txDataMulticast
  · rw [dataFrames_append, data, List.append_nil, txPart_append, handedOver_append, handed,
      List.append_nil]
    exact accounted.built

/-- An action frame takes the next number of the layer. -/
theorem Accounted.sendAction (long : LongWidth) (clock : TxClock) (type : AwdlActionType) :
    Accounted (events ++ [.action type (awdlSendAction long clock type state).1])
      (awdlSendAction long clock type state).2 := by
  have count := accounted.layer
  have number := sequenceNumberOf_action count long clock state.awdlState type
  generalize sent : awdlSendAction long clock type state = outcome
  have frame : outcome.1 =
      (awdlInitFullActionFrame long clock state.awdlState state.ieee80211State type).1 := by
    rw [← sent]
    rfl
  have all : injected [.action type outcome.1] = [outcome.1] := rfl
  have data : dataFrames [.action type outcome.1] = [] := rfl
  have action : actionFrames [.action type outcome.1] = [outcome.1] := rfl
  have none : txPart [.action type outcome.1] = [] := rfl
  constructor
  · rw [injected_append, all, List.length_append, List.length_singleton, ← sent]
    exact nextSequenceNumber_eq count
  · rw [injected_append, all]
    exact accounted.numbers.snoc (by rw [frame, number])
  · rw [dataFrames_append, data, List.append_nil, ← sent]
    exact accounted.awdl
  · rw [dataFrames_append, data, List.append_nil]
    exact accounted.dataNumbers
  · rw [actionFrames_append, action, List.length_append, List.length_singleton, UInt64.ofNat_add,
      ← accounted.txAction, ← sent]
    rfl
  · rw [dataFrames_append, data, List.append_nil, ← sent]
    exact accounted.txData
  · rw [txPart_append, none, List.append_nil, ← sent]
    exact accounted.txDataUnicast
  · rw [txPart_append, none, List.append_nil, ← sent]
    exact accounted.txDataMulticast
  · rw [dataFrames_append, data, List.append_nil, txPart_append, none, List.append_nil]
    exact accounted.built

end Accounted

/-- What `awdl_send_data` does to the daemon. -/
theorem awdlSendData_eq {buf : Buf} {state next : DaemonState} {frame : List UInt8}
    (done : awdlSendData buf state = some (frame, next)) :
    (∃ src dst payload, frame =
        (awdlInitFullDataFrame src dst payload state.awdlState state.ieee80211State).1) ∧
      next =
        { awdlState :=
            { state.awdlState with
              sequenceNumber := state.awdlState.sequenceNumber + 1
              stats.txData := state.awdlState.stats.txData + 1 }
          ieee80211State := (ieee80211StateNextSequenceNumber state.ieee80211State).2 } := by
  unfold awdlSendData at done
  simp only [Option.bind_eq_bind, Option.bind_eq_some_iff] at done
  obtain ⟨_, _, dst, _, src, _, sent⟩ := done
  cases sent
  exact ⟨⟨src, dst, _, rfl⟩, rfl⟩

/-- No frame is built for a buffer without an Ethernet header. -/
theorem awdlSendData_eq_none_iff {buf : Buf} {state : DaemonState} :
    awdlSendData buf state = none ↔ ¬14 ≤ buf.view.length := by
  constructor
  · intro failed enough
    obtain ⟨_, _, sent, _⟩ := awdlSendData_sent enough state
    cases failed.symm.trans sent
  · intro short
    have unread : readBe16 buf 12 = none := by
      refine (@readBe16_eq_none_iff buf 12).mpr ?_
      rw [← buf.length_view]
      omega
    unfold awdlSendData
    rw [unread]
    rfl

/-- The counter of the senders is the only one that changes. -/
theorem countHandOver_same (packet : HostBuf) (state : DaemonState) :
    (countHandOver packet state).ieee80211State = state.ieee80211State ∧
      (countHandOver packet state).awdlState.sequenceNumber = state.awdlState.sequenceNumber ∧
      (countHandOver packet state).awdlState.stats.txAction = state.awdlState.stats.txAction ∧
      (countHandOver packet state).awdlState.stats.txData = state.awdlState.stats.txData := by
  unfold countHandOver
  split <;> exact ⟨rfl, rfl, rfl, rfl⟩

section HandOver

variable {events : List LoopEvent} {state : DaemonState} (accounted : Accounted events state)
  (packet : HostBuf)

include accounted

/-- The counters of the senders. -/
theorem Accounted.counted (frame : Option (List UInt8)) {after : DaemonState}
    (sameUnicast : after.awdlState.stats.txDataUnicast = state.awdlState.stats.txDataUnicast)
    (sameMulticast :
      after.awdlState.stats.txDataMulticast = state.awdlState.stats.txDataMulticast) :
    (countHandOver packet after).awdlState.stats.txDataUnicast = UInt64.ofNat
        ((handedOver (txPart (events ++ [.tx (.sendData packet frame)]))).countP
          (!·.isMulticast)) ∧
      (countHandOver packet after).awdlState.stats.txDataMulticast = UInt64.ofNat
        ((handedOver (txPart (events ++ [.tx (.sendData packet frame)]))).countP
          (·.isMulticast)) := by
  have one : handedOver [.sendData packet frame] = [packet] := rfl
  have alone : txPart [LoopEvent.tx (.sendData packet frame)] = [.sendData packet frame] := rfl
  rw [txPart_append, alone, handedOver_append, one, List.countP_append, List.countP_append,
    List.countP_singleton, List.countP_singleton, UInt64.ofNat_add, UInt64.ofNat_add,
    ← accounted.txDataUnicast, ← accounted.txDataMulticast, ← sameUnicast, ← sameMulticast]
  unfold countHandOver
  cases packet.isMulticast with
  | true => exact ⟨(UInt64.add_zero _).symm, rfl⟩
  | false => exact ⟨rfl, (UInt64.add_zero _).symm⟩

/-- A data frame is built for a frame with an Ethernet header. -/
theorem Accounted.builtOne {frame : Option (List UInt8)}
    (length : (dataFrames [.tx (.sendData packet frame)]).length =
      if 14 ≤ packet.buf.view.length then 1 else 0) :
    (dataFrames (events ++ [.tx (.sendData packet frame)])).length =
      (handedOver (txPart (events ++ [.tx (.sendData packet frame)]))).countP
        (14 ≤ ·.buf.view.length) := by
  have one : handedOver [.sendData packet frame] = [packet] := rfl
  have alone : txPart [LoopEvent.tx (.sendData packet frame)] = [.sendData packet frame] := rfl
  rw [dataFrames_append, List.length_append, length, accounted.built, txPart_append, alone,
    handedOver_append, one, List.countP_append, List.countP_singleton]
  simp only [decide_eq_true_eq]

/-- A frame of the host for which no frame is built takes no number. -/
theorem Accounted.refused (failed : awdlSendData packet.buf state = none) :
    Accounted (events ++ [.tx (.sendData packet none)]) (countHandOver packet state) := by
  have short : ¬14 ≤ packet.buf.view.length := awdlSendData_eq_none_iff.mp failed
  have all : injected [.tx (.sendData packet none)] = [] := rfl
  have data : dataFrames [.tx (.sendData packet none)] = [] := rfl
  have action : actionFrames [.tx (.sendData packet none)] = [] := rfl
  obtain ⟨layer, awdl, txAction, txData⟩ := countHandOver_same packet state
  obtain ⟨unicast, multicast⟩ := accounted.counted packet none rfl rfl
  refine ⟨?_, ?_, ?_, ?_, ?_, ?_, unicast, multicast,
    accounted.builtOne packet (by rw [if_neg short]; rfl)⟩
  · rw [layer, injected_append, all, List.append_nil]
    exact accounted.layer
  · rw [injected_append, all, List.append_nil]
    exact accounted.numbers
  · rw [awdl, dataFrames_append, data, List.append_nil]
    exact accounted.awdl
  · rw [dataFrames_append, data, List.append_nil]
    exact accounted.dataNumbers
  · rw [txAction, actionFrames_append, action, List.append_nil]
    exact accounted.txAction
  · rw [txData, dataFrames_append, data, List.append_nil]
    exact accounted.txData

/-- A data frame takes the next numbers of the layer and of the daemon. -/
theorem Accounted.data {frame : List UInt8} {after : DaemonState}
    (sent : awdlSendData packet.buf state = some (frame, after)) :
    Accounted (events ++ [.tx (.sendData packet (some frame))]) (countHandOver packet after) := by
  obtain ⟨⟨src, dst, payload, shown⟩, changed⟩ := awdlSendData_eq sent
  have enough : 14 ≤ packet.buf.view.length := by
    by_contra short
    cases sent.symm.trans (awdlSendData_eq_none_iff.mpr short)
  have all : injected [.tx (.sendData packet (some frame))] = [frame] := rfl
  have data : dataFrames [.tx (.sendData packet (some frame))] = [frame] := rfl
  have action : actionFrames [.tx (.sendData packet (some frame))] = [] := rfl
  obtain ⟨layer, awdl, txAction, txData⟩ := countHandOver_same packet after
  obtain ⟨unicast, multicast⟩ := @Accounted.counted _ _ accounted packet (some frame) after
    (by rw [changed]) (by rw [changed])
  refine ⟨?_, ?_, ?_, ?_, ?_, ?_, unicast, multicast,
    accounted.builtOne packet (by rw [if_pos enough]; rfl)⟩
  · rw [layer, injected_append, all, List.length_append, List.length_singleton, changed]
    exact nextSequenceNumber_eq accounted.layer
  · rw [injected_append, all]
    refine accounted.numbers.snoc ?_
    rw [shown]
    exact sequenceNumberOf_data accounted.layer src dst payload _
  · rw [awdl, dataFrames_append, data, List.length_append, List.length_singleton,
      UInt16.ofNat_add, ← accounted.awdl, changed]
    rfl
  · rw [dataFrames_append, data]
    refine accounted.dataNumbers.snoc ?_
    rw [shown, dataSequenceNumberOf_data, accounted.awdl]
    exact UInt16.toNat_ofNat'
  · rw [txAction, actionFrames_append, action, List.append_nil, changed]
    exact accounted.txAction
  · rw [txData, dataFrames_append, data, List.length_append, List.length_singleton,
      UInt64.ofNat_add, ← accounted.txData, changed]
    rfl

end HandOver

/-- **Every part keeps the accounts.** -/
theorem Accounted.part {events batch : List LoopEvent} {state next : DaemonState}
    (accounted : Accounted events state) (part : Part state batch next) :
    Accounted (events ++ batch) next := by
  cases part with
  | silent quiet same => exact accounted.silent quiet same
  | action long clock type => exact accounted.sendAction long clock type
  | refused failed => exact accounted.refused _ failed
  | data sent => exact accounted.data _ sent

theorem Accounted.parts {events : List LoopEvent} {start state : DaemonState}
    (initially : Accounted [] start) (parts : Parts start events state) :
    Accounted events state := by
  induction parts with
  | nil => exact initially
  | snoc _ part ih => exact ih.part part

/-- A data frame is built for a frame of the host if and only if it has an Ethernet
header. -/
theorem Part.built {batch : List LoopEvent} {state next : DaemonState}
    (part : Part state batch next) {packet : HostBuf} {frame : Option (List UInt8)}
    (handed : .tx (.sendData packet frame) ∈ batch) :
    frame.isSome = true ↔ 14 ≤ packet.buf.view.length := by
  cases part with
  | silent quiet _ => exact (quiet _ handed).elim
  | action long clock type => cases List.mem_singleton.mp handed
  | refused failed =>
      cases List.mem_singleton.mp handed
      exact iff_of_false Bool.false_ne_true (awdlSendData_eq_none_iff.mp failed)
  | data sent =>
      cases List.mem_singleton.mp handed
      refine iff_of_true rfl ?_
      by_contra short
      cases sent.symm.trans (awdlSendData_eq_none_iff.mpr short)

theorem Parts.built {events : List LoopEvent} {start state : DaemonState}
    (parts : Parts start events state) {packet : HostBuf} {frame : Option (List UInt8)}
    (handed : .tx (.sendData packet frame) ∈ events) :
    frame.isSome = true ↔ 14 ≤ packet.buf.view.length := by
  induction parts with
  | nil => cases handed
  | snoc _ part ih =>
      rcases List.mem_append.mp handed with before | now
      · exact ih before
      · exact part.built now

/-! ## Runs -/

section Runs

variable {name : List UInt8} {election : AwdlElectionState} {hostname : List UInt8}
  {self : EtherAddr} {chan : AwdlChan} {now : UInt64} {filterRssi : Bool} {memory : List HostBuf}
  {size : memory.length = multicastQueueSize} {trace : List (LoopLabel × List LoopEvent)}
  {state : LoopState}

theorem loop_accounted (run : Run (LoopStep platform wlanIsFile)
      (loopInit (mainInit name election hostname self chan now filterRssi) memory size) trace
        state) :
    Accounted (loopEvents trace) state.toDaemonState := by
  have initially : Accounted [] (mainInit name election hostname self chan now filterRssi) :=
    ⟨rfl, rfl, rfl, rfl, rfl, rfl, rfl, rfl, rfl⟩
  exact initially.parts (loop_parts run)

/-- **Sequence numbers.** In every run of the daemon the frames that it hands to the
network device carry consecutive 802.11 sequence numbers from zero on, modulo 4096, in
whatever order action and data frames are sent, and the data frames carry consecutive
AWDL sequence numbers, modulo 65536. -/
theorem loop_sequence_numbers (run : Run (LoopStep platform wlanIsFile)
      (loopInit (mainInit name election hostname self chan now filterRssi) memory size) trace
        state) :
    (injected (loopEvents trace)).map sequenceNumberOf =
        (List.range (injected (loopEvents trace)).length).map (· % 4096) ∧
      (dataFrames (loopEvents trace)).map dataSequenceNumberOf =
        (List.range (dataFrames (loopEvents trace)).length).map (· % 65536) :=
  ⟨(loop_accounted run).numbers, (loop_accounted run).dataNumbers⟩

/-- **Counters.** In every run of the daemon the counters of `awdl_print_stats` for sent
frames are the numbers of action frames and of data frames that have been handed to the
network device, and of unicast and of multicast frames of the host that have been handed
over, modulo `2 ^ 64`. Of the latter exactly those with a whole Ethernet header become data
frames. -/
theorem loop_counters (run : Run (LoopStep platform wlanIsFile)
      (loopInit (mainInit name election hostname self chan now filterRssi) memory size) trace
        state) :
    state.awdlState.stats.txAction =
        UInt64.ofNat (actionFrames (loopEvents trace)).length ∧
      state.awdlState.stats.txData = UInt64.ofNat (dataFrames (loopEvents trace)).length ∧
      state.awdlState.stats.txDataUnicast =
        UInt64.ofNat ((handedOver (txPart (loopEvents trace))).countP (!·.isMulticast)) ∧
      state.awdlState.stats.txDataMulticast =
        UInt64.ofNat ((handedOver (txPart (loopEvents trace))).countP (·.isMulticast)) ∧
      (dataFrames (loopEvents trace)).length =
        (handedOver (txPart (loopEvents trace))).countP (14 ≤ ·.buf.view.length) ∧
      ∀ packet frame, .tx (.sendData packet frame) ∈ loopEvents trace →
        (frame.isSome = true ↔ 14 ≤ packet.buf.view.length) := by
  obtain ⟨_, _, _, _, action, data, unicast, multicast, built⟩ := loop_accounted run
  exact ⟨action, data, unicast, multicast, built, fun _ _ handed => (loop_parts run).built handed⟩

end Runs

/-- A multicast frame with an Ethernet header. -/
def samplePing : List HostFrame :=
  [⟨[0x33, 0x33, 0, 0, 0, 1, 2, 0, 0, 0, 0, 1, 0x86, 0xdd, 7], by decide⟩]

/-- What the daemon hands over in three callbacks: an action frame, a data frame and
again an action frame. -/
theorem sampleLoop_run : ∃ trace state,
    Run (LoopStep samplePlatform false) sampleLoop trace state ∧
      (injected (loopEvents trace)).length = 3 ∧ (dataFrames (loopEvents trace)).length = 1 ∧
      (actionFrames (loopEvents trace)).length = 2 := by
  have psf : ∀ state : LoopState, LoopStep samplePlatform false state (.psfTimer ⟨5, 6⟩) _ _ :=
    fun _ => .psfTimer rfl
  have run := ((Run.nil.cons (psf sampleLoop)).cons
    (.hostReady (fun _ _ => 0) samplePing 20000 20000)).cons (psf _)
  exact ⟨_, _, run, by decide +kernel, by decide +kernel, by decide +kernel⟩

theorem loop_sequence_numbers_three : ∃ trace state,
    Run (LoopStep samplePlatform false) sampleLoop trace state ∧
      (injected (loopEvents trace)).map sequenceNumberOf = [0, 1, 2] ∧
      (dataFrames (loopEvents trace)).map dataSequenceNumberOf = [0] := by
  obtain ⟨trace, state, run, all, data, _⟩ := sampleLoop_run
  obtain ⟨numbers, dataNumbers⟩ := loop_sequence_numbers run
  rw [all] at numbers
  rw [data] at dataNumbers
  exact ⟨trace, state, run, numbers, dataNumbers⟩

theorem loop_counters_three : ∃ trace state,
    Run (LoopStep samplePlatform false) sampleLoop trace state ∧
      state.awdlState.stats.txAction = 2 ∧ state.awdlState.stats.txData = 1 := by
  obtain ⟨trace, state, run, _, data, action⟩ := sampleLoop_run
  obtain ⟨txAction, txData, _⟩ := loop_counters run
  rw [action] at txAction
  rw [data] at txData
  exact ⟨trace, state, run, txAction, txData⟩

end Owl
