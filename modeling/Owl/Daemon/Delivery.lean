import Owl.Daemon.Accounts
import Owl.Tx.Advertise

/-! # The tunnel over runs

In every run of the event loop the data frames that are handed to the network device
carry, in this order, the frames of the host that have been handed over
(`loop_tunnels`). Who captures one of them delivers what it carries or nothing
(`awdlReceiveFrame_captured`).
-/

namespace Owl

open Transition

variable {platform : Platform} {wlanIsFile : Bool} {env : RxEnv}

/-! ## What frames carry -/

/-- The 802.11 header of a frame that is handed to the network device, behind the
radiotap header for injection. -/
def sentHdr (sent : List UInt8) : Ieee80211Hdr := Ieee80211Hdr.ofBytes (sent.drop 9)

/-- The Ethernet frame in a data frame that is handed to the network device. -/
def carried (sent : List UInt8) : Option (List UInt8) :=
  if frameType (sentHdr sent).frameControl = ieee80211Data then
    some (etherFrame (sentHdr sent).addr1 (sentHdr sent).addr2
      (UInt16.ofNat (Octets.ofBE ((sent.drop 47).take 2))) (sent.drop 49))
  else none

/-- What becomes of a frame of the host in the tunnel: its type says IPv6. -/
def throughTunnel (frame : List UInt8) : List UInt8 :=
  frame.take 12 ++ be16 ethPIpv6 ++ frame.drop 14

section ThroughTunnel

variable {frame : List UInt8} (enough : 14 ≤ frame.length)

include enough

theorem etherFrame_throughTunnel :
    etherFrame (EtherAddr.ofOctets frame) (EtherAddr.ofOctets (frame.drop 6)) ethPIpv6
      (frame.drop 14) = throughTunnel frame := by
  have dst : (EtherAddr.ofOctets frame).octets = frame.take 6 :=
    EtherAddr.octets_ofOctets (Nat.le_trans (by decide) enough)
  have src : (EtherAddr.ofOctets (frame.drop 6)).octets = (frame.drop 6).take 6 := by
    refine EtherAddr.octets_ofOctets ?_
    rw [List.length_drop]
    exact Nat.le_trans (by decide) (Nat.sub_le_sub_right enough 6)
  unfold etherFrame throughTunnel
  rw [dst, src, ← List.take_add]

theorem length_throughTunnel : (throughTunnel frame).length = frame.length := by
  unfold throughTunnel
  rw [List.length_append, List.length_append, List.length_take, List.length_drop, length_be16]
  omega

/-- The destination is kept. -/
theorem take_throughTunnel {length : Nat} (within : length ≤ 12) :
    (throughTunnel frame).take length = frame.take length := by
  unfold throughTunnel
  rw [List.append_assoc, List.take_append_of_le_length, List.take_take, Nat.min_eq_left within]
  rw [List.length_take]
  omega

end ThroughTunnel

/-- The header of a frame without check sequence. -/
theorem sentHdr_sent (src dst : EtherAddr) (sender : Ieee80211State) (type : UInt16)
    (rest : List UInt8) :
    sentHdr (ieee80211InitRadiotapHeader ++
      ((ieee80211InitAwdlHdr src dst sender type).1 ++ rest)) = ⟨type, dst, src⟩ :=
  ofBytes_ieee80211InitAwdlHdr src dst sender type rest

theorem frameType_sent (src dst : EtherAddr) (sender : Ieee80211State) {type : UInt16}
    (bare : frameType type = type) (rest : List UInt8) :
    frameType (sentHdr (ieee80211InitRadiotapHeader ++
      ((ieee80211InitAwdlHdr src dst sender type).1 ++ rest))).frameControl = type := by
  rw [sentHdr_sent]
  exact bare

/-- What `awdl_send_data` builds carries the frame of the host. -/
theorem carried_awdlSendData {buf : Buf} {state next : DaemonState} {frame : List UInt8}
    (plain : state.ieee80211State.fcs = false)
    (sent : awdlSendData buf state = some (frame, next)) :
    14 ≤ buf.view.length ∧ frameType (sentHdr frame).frameControl = ieee80211Data ∧
      carried frame = some (throughTunnel buf.view) := by
  have enough : 14 ≤ buf.view.length := by
    by_contra short
    cases sent.symm.trans (awdlSendData_eq_none_iff.mpr short)
  obtain ⟨_, trailer, built, none⟩ := awdlSendData_sent enough state
  cases sent.symm.trans built
  rw [none plain, List.append_nil]
  have type := frameType_sent (EtherAddr.ofOctets (buf.view.drop 6))
    (EtherAddr.ofOctets buf.view) state.ieee80211State frameType_ieee80211Data
    (tunnelBody state.awdlState.sequenceNumber (buf.view.drop 14))
  refine ⟨enough, type, ?_⟩
  unfold carried
  rw [if_pos type, sentHdr_sent, ← etherFrame_throughTunnel enough]
  exact congrArg some (congrArg (etherFrame _ _ · (buf.view.drop 14)) (ofBE_be16 ethPIpv6))

/-- An action frame carries nothing. -/
theorem carried_awdlSendAction (long : LongWidth) (clock : TxClock) (type : AwdlActionType)
    {state : DaemonState} (plain : state.ieee80211State.fcs = false) :
    frameType (sentHdr (awdlSendAction long clock type state).1).frameControl = ieee80211Action ∧
      carried (awdlSendAction long clock type state).1 = none := by
  have built : (awdlSendAction long clock type state).1 = _ :=
    awdlInitFullActionFrame_bytes plain long clock type
  have action := frameType_sent state.awdlState.selfAddress state.awdlState.dst
    state.ieee80211State frameType_ieee80211Action (awdlInitAction clock.action type ++
      actionTlvs long clock.sync state.awdlState type)
  rw [built]
  refine ⟨action, if_neg ?_⟩
  intro data
  exact absurd (action.symm.trans data) (by decide)

/-! ## The sender -/

/-- What has happened agrees with what the frames carry. -/
structure Tunnels (events : List LoopEvent) (state : DaemonState) : Prop where
  plain : state.ieee80211State.fcs = false
  fits : ∀ frame ∈ receivedFrames (txPart events), frame.length ≤ etherMaxLen
  types : ∀ frame ∈ injected events,
    frameType (sentHdr frame).frameControl = ieee80211Action ∨
      frameType (sentHdr frame).frameControl = ieee80211Data
  carries : (injected events).filterMap carried =
    (((handedOver (txPart events)).map (·.buf.view)).filter (14 ≤ ·.length)).map throughTunnel

section Tunnels

variable {events batch : List LoopEvent} {state next : DaemonState}

/-- A batch of events of which each keeps the agreement. -/
theorem Tunnels.append (tunnels : Tunnels events state) (plain : next.ieee80211State.fcs = false)
    (fits : ∀ frame ∈ receivedFrames (txPart batch), frame.length ≤ etherMaxLen)
    (types : ∀ frame ∈ injected batch,
      frameType (sentHdr frame).frameControl = ieee80211Action ∨
        frameType (sentHdr frame).frameControl = ieee80211Data)
    (carries : (injected batch).filterMap carried =
      (((handedOver (txPart batch)).map (·.buf.view)).filter (14 ≤ ·.length)).map
        throughTunnel) : Tunnels (events ++ batch) next where
  plain := plain
  fits := by
    intro frame member
    rw [txPart_append, receivedFrames_append] at member
    rcases List.mem_append.mp member with earlier | later
    · exact tunnels.fits frame earlier
    · exact fits frame later
  types := by
    intro frame member
    rw [injected_append] at member
    rcases List.mem_append.mp member with earlier | later
    · exact tunnels.types frame earlier
    · exact types frame later
  carries := by
    rw [injected_append, List.filterMap_append, tunnels.carries, carries, txPart_append,
      handedOver_append, List.map_append, List.filter_append, List.map_append]

theorem silent_fits (silent : ∀ event ∈ batch, event.Silent) :
    ∀ frame ∈ receivedFrames (txPart batch), frame.length ≤ etherMaxLen := by
  intro frame member
  obtain ⟨tx, listed, shown⟩ := List.mem_filterMap.mp member
  obtain ⟨event, happened, same⟩ := List.mem_filterMap.mp listed
  have quiet := silent event happened
  cases event <;> cases same
  cases tx <;> cases shown
  exact quiet

/-- **Every part keeps the agreement.** -/
theorem Tunnels.part (tunnels : Tunnels events state) (part : Part state batch next) :
    Tunnels (events ++ batch) next := by
  cases part with
  | silent quiet same =>
      obtain ⟨none, _, _, nothing⟩ := silent_nothing quiet
      refine tunnels.append ?_ (silent_fits quiet) ?_ ?_
      · rw [same.layer]
        exact tunnels.plain
      · rw [none]
        exact List.forall_mem_nil _
      · rw [none, nothing]
        rfl
  | action long clock type =>
      obtain ⟨action, nothing⟩ := carried_awdlSendAction long clock type tunnels.plain
      refine tunnels.append tunnels.plain (List.forall_mem_nil _) ?_ ?_
      · intro frame member
        rw [List.mem_singleton.mp member]
        exact Or.inl action
      · exact List.filterMap_cons_none nothing
  | @refused packet failed =>
      have short : ¬14 ≤ packet.buf.view.length := awdlSendData_eq_none_iff.mp failed
      refine tunnels.append ?_ (List.forall_mem_nil _) (List.forall_mem_nil _) ?_
      · rw [(countHandOver_same packet state).1]
        exact tunnels.plain
      · have none : [packet.buf.view].filter (14 ≤ ·.length) = [] := by
          rw [List.filter_cons_of_neg (by simpa using short), List.filter_nil]
        exact (congrArg (List.map throughTunnel) none).symm
  | @data packet frame after sent =>
      obtain ⟨enough, type, inner⟩ := carried_awdlSendData tunnels.plain sent
      refine tunnels.append ?_ (List.forall_mem_nil _) ?_ ?_
      · rw [(countHandOver_same packet after).1, (awdlSendData_eq sent).2]
        exact tunnels.plain
      · intro other member
        rw [List.mem_singleton.mp member]
        exact Or.inr type
      · have one : [packet.buf.view].filter (14 ≤ ·.length) = [packet.buf.view] := by
          rw [List.filter_cons_of_pos (by simpa using enough), List.filter_nil]
        calc [frame].filterMap carried
            _ = [throughTunnel packet.buf.view] := List.filterMap_cons_some inner
            _ = ([packet.buf.view].filter (14 ≤ ·.length)).map throughTunnel :=
                (congrArg (List.map throughTunnel) one).symm

theorem Tunnels.parts {start : DaemonState} (initially : Tunnels [] start)
    (parts : Parts start events state) : Tunnels events state := by
  induction parts with
  | nil => exact initially
  | snoc _ part ih => exact ih.part part

end Tunnels

section Runs

variable {daemon : DaemonState} {memory : List HostBuf}
  {size : memory.length = multicastQueueSize} {trace : List (LoopLabel × List LoopEvent)}
  {state : LoopState}

/-- **The data frames of a run carry what has been handed over.** -/
theorem loop_tunnels (plain : daemon.ieee80211State.fcs = false)
    (run : Run (LoopStep platform wlanIsFile) (loopInit daemon memory size) trace state) :
    Tunnels (loopEvents trace) state.toDaemonState := by
  have initially : Tunnels [] daemon :=
    ⟨plain, List.forall_mem_nil _, List.forall_mem_nil _, rfl⟩
  exact initially.parts (loop_parts run)

end Runs

/-! ## Kinds of frames -/

/-- The kind of an Ethernet frame: whether its destination is a group address. -/
def isGroup (frame : List UInt8) : Bool := (EtherAddr.ofOctets frame).octet0 &&& 0x01 != 0

theorem isGroup_view (packet : HostBuf) : isGroup packet.buf.view = packet.isMulticast := by
  obtain ⟨bytes, read, dst⟩ := Option.map_eq_some_iff.mp packet.readable
  obtain ⟨_, rfl⟩ := readBytes_zero_eq_some read
  rw [EtherAddr.ofOctets_take] at dst
  unfold isGroup HostBuf.isMulticast
  rw [dst]

theorem isGroup_take (frame : List UInt8) {length : Nat} (enough : 6 ≤ length) :
    isGroup (frame.take length) = isGroup frame := by
  unfold isGroup
  rw [← EtherAddr.ofOctets_take, List.take_take, EtherAddr.length, Nat.min_eq_left enough]
  exact congrArg (fun addr : EtherAddr => addr.octet0 &&& 0x01 != 0)
    (EtherAddr.ofOctets_take frame)

theorem handedOver_departures (events : List TxEvent) :
    List.Sublist (handedOver events) (departures events) := by
  induction events with
  | nil => exact .refl []
  | cons event rest ih =>
      cases event with
      | received _ => exact ih
      | toNext _ => exact ih
      | toQueue _ _ => exact ih
      | sendData packet _ => exact ih.cons_cons packet
      | loopBack packet => exact ih.cons packet
      | drop packet => exact ih.cons packet

/-- Frames of one kind that have been handed over came from the host in this order. -/
theorem handedOver_sublist {events : List TxEvent} {state : TxState}
    (conserved : TxConserved events state) (group : Bool) :
    List.Sublist (((handedOver events).map (·.buf.view)).filter (isGroup · == group))
      ((receivedFrames events).filter (isGroup · == group)) := by
  have arrived : List.Sublist ((departures events).filter (·.isMulticast == group))
      ((arrivals events).filter (·.isMulticast == group)) := by
    cases group with
    | true =>
        simp only [beq_true]
        rw [conserved.multicast]
        exact List.sublist_append_left _ _
    | false =>
        simp only [beq_false]
        rw [conserved.unicast]
        exact List.sublist_append_left _ _
  have moved : ∀ packets : List HostBuf,
      (packets.map (·.buf.view)).filter (isGroup · == group) =
        (packets.filter (·.isMulticast == group)).map (·.buf.view) := by
    intro packets
    rw [List.filter_map]
    congr 1
    exact List.filter_congr fun packet _ => congrArg (· == group) (isGroup_view packet)
  have handed : List.Sublist (((handedOver events).map (·.buf.view)).filter (isGroup · == group))
      (((arrivals events).map (·.buf.view)).filter (isGroup · == group)) := by
    rw [moved, moved]
    exact (((handedOver_departures events).filter _).trans arrived).map _
  rw [conserved.frames] at handed
  exact handed.trans (List.filter_sublist.filter _)

/-- What a sent frame carries fits into the buffers for frames. -/
theorem Tunnels.carried_length {events : List LoopEvent} {state : LoopState}
    (tunnels : Tunnels events state.toDaemonState)
    (conserved : TxConserved (txPart events) state.toTxState) {sent inner : List UInt8}
    (member : sent ∈ injected events) (shown : carried sent = some inner) :
    inner.length ≤ etherMaxLen := by
  have inside : inner ∈ (injected events).filterMap carried :=
    List.mem_filterMap.mpr ⟨sent, member, shown⟩
  rw [tunnels.carries] at inside
  obtain ⟨frame, handed, rfl⟩ := List.mem_map.mp inside
  obtain ⟨handed, enough⟩ := List.mem_filter.mp handed
  rw [length_throughTunnel (of_decide_eq_true enough)]
  refine tunnels.fits frame (List.mem_of_mem_filter
    ((handedOver_sublist conserved (isGroup frame)).subset ?_))
  exact List.mem_filter.mpr ⟨handed, beq_self_eq_true (isGroup frame)⟩

/-! ## The receiver -/

/-- What a radio captures of a frame that another one has been handed: a radiotap header
of its own in place of the one for injection, the frame, and a check sequence if the
header says so. -/
def Captured (platform : Platform) (env : RxEnv) (sent bytes : List UInt8) : Prop :=
  ∃ header trailer, bytes = header ++ (sent.drop 9 ++ trailer) ∧
    radiotapLen bytes = header.length ∧
    ∀ rssi flags, radiotapParse platform (bufNewConst bytes) env.rssi env.flags =
      some (rssi, flags) → trailer.length = if flags &&& 0x10 = 0 then 0 else 4

section Captured

variable {sent bytes : List UInt8} (captured : Captured platform env sent bytes)

include captured

/-- A captured frame is taken apart into the header and the body that have been sent. -/
theorem Captured.parsed {state : AwdlState} {rx : RxFrame}
    (parsed : parseFrame platform env (bufNewConst bytes) state = .ok rx) :
    rx.hdr = sentHdr sent ∧ rx.body.view = sent.drop 33 := by
  obtain ⟨header, trailer, shown, length, checks⟩ := captured
  unfold parseFrame at parsed
  split at parsed
  · cases parsed
  rename_i rssi flags fields
  have checks := checks rssi flags fields
  split at parsed
  · cases parsed
  rename_i stripped strip
  have inner : stripped.view = sent.drop 9 ++ trailer := by
    rw [(bufStrip_eq_some strip).2, view_bufNewConst]
    exact (congrArg (List.drop · bytes) length).trans (by rw [shown, List.drop_left])
  split at parsed
  · cases parsed
  rename_i checked check
  have frame : checked.view = sent.drop 9 := by
    unfold checkFcs at check
    split at check
    · cases check
    split at check
    · rename_i announced
      rw [if_neg announced] at checks
      rw [(bufTake_eq_some check).2, inner, List.length_append, checks, Nat.add_sub_cancel,
        List.take_left]
    · rename_i plain
      rw [if_pos (not_not.mp plain)] at checks
      cases check
      rw [inner, List.length_eq_zero_iff.mp checks, List.append_nil]
  split at parsed
  · cases parsed
  rename_i hdr read
  obtain ⟨_, rfl⟩ := readBytes_zero_eq_some read
  dsimp only at parsed
  split at parsed
  · cases parsed
  split at parsed
  · cases parsed
  rename_i body stripHdr
  cases parsed
  constructor
  · rw [Ieee80211Hdr.ofBytes_take (Nat.le_refl _), frame]
    rfl
  · rw [(bufStrip_eq_some stripHdr).2, frame, List.drop_drop]
    rfl

/-- **What a daemon delivers for a captured frame.** It is what the frame carries, or
nothing. -/
theorem awdlReceiveFrame_captured {state : DaemonState} {outcome : ReceiveOutcome}
    (type : frameType (sentHdr sent).frameControl = ieee80211Action ∨
      frameType (sentHdr sent).frameControl = ieee80211Data)
    (fits : ∀ inner, carried sent = some inner → inner.length ≤ etherMaxLen)
    (done : awdlReceiveFrame platform env bytes state = some outcome) :
    outcome.sent = [] ∨ ∃ inner delivered, carried sent = some inner ∧
      outcome.sent = [delivered] ∧ inner <+: delivered := by
  obtain ⟨rx, received, rfl⟩ := Option.map_eq_some_iff.mp done
  dsimp only
  cases parsed : parseFrame platform env (bufNewConst bytes) state.awdlState with
  | error result =>
      unfold awdlRx at received
      rw [parsed] at received
      cases received
      exact Or.inl (ite_self _)
  | ok frame =>
      obtain ⟨hdr, body⟩ := captured.parsed parsed
      rcases type with action | data
      · rw [awdlRx_of_action parsed [] (hdr ▸ action)] at received
        obtain ⟨handled, _, rfl⟩ := Option.map_eq_some_iff.mp received
        exact Or.inl (ite_self _)
      · rw [awdlRx_of_data parsed [] (hdr ▸ data)] at received
        cases received
        dsimp only
        split
        · rename_i accepted
          obtain ⟨known, valid, enough⟩ := awdlRxData_accepted accepted
          rw [awdlRxData_stores known valid enough]
          have inner : carried sent = some (etherFrame frame.hdr.addr1 frame.hdr.addr2
              (UInt16.ofNat (Octets.ofBE ((frame.body.view.drop 14).take 2)))
              (frame.body.view.drop 16)) := by
            unfold carried
            rw [if_pos data, hdr, body, List.drop_drop, List.drop_drop]
          have room := fits _ inner
          have size : (bufNewOwned (env.out ([] : List Buf).length) etherMaxLen).len =
              etherMaxLen := by
            rw [bufNewOwned, len_bufNewConst, List.length_map, List.length_range]
          have start := (@writeEthernet_of_fits _ frame.hdr.addr1 frame.hdr.addr2
            (UInt16.ofNat (Octets.ofBE ((frame.body.view.drop 14).take 2)))
            (frame.body.view.drop 16) (by
              rw [size]
              refine Nat.le_trans (Nat.le_of_eq ?_) room
              unfold etherFrame
              rw [List.length_append, length_etherHeader])).1
          refine Or.inr ⟨_, _, inner, rfl, ?_⟩
          exact List.prefix_iff_eq_take.mpr start.symm
        · exact Or.inl rfl

end Captured

end Owl
