import Owl.Daemon.Data

/-! # The protocol of a tunnelled frame

`awdl_send_data` reads the type of a frame of the host and does not use it: the
data header that `awdl_init_data` fills in always says IPv6. A frame thus changes
its protocol in the tunnel exactly if it is sent and is not an IPv6 frame
(`awdlSendData_keepsType_iff`).
-/

namespace Owl

variable {platform : Platform} {env : RxEnv}

/-- Every node that accepts what is sent for a frame of the host delivers one
frame, and that has the same type. -/
def KeepsType (buf : Buf) (sender : DaemonState) : Prop :=
  ∀ frame next, awdlSendData buf sender = some (frame, next) →
    ∀ (platform : Platform) (env : RxEnv) (out : List Buf) (receiver : AwdlState)
      (outcome : RxOutcome),
      awdlRx platform env (bufNewConst frame) out receiver = some outcome →
        outcome.result = .ok →
          ∃ delivered, outcome.out = out ++ [delivered] ∧
            readBe16 delivered 12 = readBe16 buf 12

theorem Buf.StartsWith.left {buf : Buf} {front rest : List UInt8}
    (starts : buf.StartsWith (front ++ rest)) : buf.StartsWith front := by
  unfold Buf.StartsWith at starts ⊢
  have shorter := congrArg (List.take front.length) starts
  rw [List.take_take, List.length_append, Nat.min_eq_left (Nat.le_add_right _ _),
    List.take_left] at shorter
  exact shorter

/-- The type of a delivered frame does not depend on whether the payload fits. -/
theorem readBe16_writeEthernet {buf : Buf} (dst src : EtherAddr) (type : UInt16)
    (payload : List UInt8) (fits : 14 ≤ buf.len) :
    readBe16 (writeEthernet buf dst src type payload) 12 = some type := by
  obtain ⟨header, _, front, writes⟩ := writeEthernet_header dst src type fits
  have kept : (writeEthernet buf dst src type payload).StartsWith
      (dst.octets ++ src.octets ++ be16 type) := by
    rw [(writes payload).1]
    by_cases room : 14 + payload.length ≤ header.len
    · obtain ⟨whole, wrote, _, frame⟩ := @writeBytes_behind header
        (dst.octets ++ src.octets ++ be16 type) payload front
        (by rw [length_etherHeader]; exact room)
      have put : writeBytes header 14 payload = (_, whole) := wrote
      rw [put]
      exact frame.left
    · have refused : writeBytes header 14 payload = (outOfBounds, header) :=
        dif_pos (Or.inr (by omega))
      rw [refused]
      exact front
  have viewed := (List.take_append_drop 14 (writeEthernet buf dst src type payload).view).symm
  have start : (writeEthernet buf dst src type payload).view.take 14 =
      dst.octets ++ src.octets ++ be16 type := kept
  rw [start] at viewed
  exact (readBe16_front viewed (length_etherHeader dst src type) (by decide)).trans
    (congrArg some (ofBE_be16 type))

/-- A check sequence is cut off at the end. -/
theorem checkFcs_prefix {frame checked : Buf} {flags : UInt8}
    (done : checkFcs frame flags = some checked) : checked.view <+: frame.view := by
  unfold checkFcs at done
  split at done
  · cases done
  split at done
  · rw [(@bufTake_eq_some frame checked 4 done).2]
    exact List.take_prefix _ _
  · cases done
    exact List.prefix_refl _

/-- Whoever takes a sent frame apart finds its header and the front of its body. -/
theorem parseFrame_sent {src dst : EtherAddr} {sender : Ieee80211State} {type : UInt16}
    {body : List UInt8} {state : AwdlState} {rx : RxFrame}
    (parsed : parseFrame platform env (bufNewConst (ieee80211InitRadiotapHeader ++
      ((ieee80211InitAwdlHdr src dst sender type).1 ++ body))) state = .ok rx) :
    rx.hdr = ⟨type, dst, src⟩ ∧ rx.body.view <+: body := by
  have within : 9 ≤ (bufNewConst (ieee80211InitRadiotapHeader ++
      ((ieee80211InitAwdlHdr src dst sender type).1 ++ body))).view.length := by
    rw [view_bufNewConst, List.length_append]
    exact Nat.le_add_right 9 _
  obtain ⟨inner, strip, viewed⟩ := bufStrip_of_le within
  have length : Octets.ofLE (((ieee80211InitRadiotapHeader ++
      ((ieee80211InitAwdlHdr src dst sender type).1 ++ body)).drop 2).take 2) = 9 := rfl
  have innerView : inner.view = (ieee80211InitAwdlHdr src dst sender type).1 ++ body := by
    rw [viewed, view_bufNewConst]
    rfl
  unfold parseFrame at parsed
  rw [view_bufNewConst, length] at parsed
  split at parsed
  · cases parsed
  rw [strip] at parsed
  dsimp only at parsed
  split at parsed
  · cases parsed
  rename_i checked done
  have front := checkFcs_prefix done
  rw [innerView] at front
  split at parsed
  · cases parsed
  rename_i bytes read
  split at parsed
  · cases parsed
  split at parsed
  · cases parsed
  rename_i stripped stripHdr
  cases parsed
  obtain ⟨enough, rfl⟩ := readBytes_zero_eq_some read
  have size := length_ieee80211InitAwdlHdr src dst sender type
  obtain ⟨rest, shown⟩ := List.prefix_of_prefix_length_le (List.prefix_append _ body) front
    (size.trans_le enough)
  rw [← shown, List.prefix_append_right_inj] at front
  constructor
  · rw [Ieee80211Hdr.ofBytes_take (Nat.le_refl _), ← shown, ofBytes_ieee80211InitAwdlHdr]
  · rw [(bufStrip_eq_some stripHdr).2, ← shown, List.drop_left' size]
    exact front

/-- What is accepted of a sent frame is delivered as an IPv6 frame. -/
theorem awdlRx_sent {src dst : EtherAddr} {sender : Ieee80211State} {sequenceNumber : UInt16}
    {payload trailer : List UInt8} {out : List Buf} {state : AwdlState} {outcome : RxOutcome}
    (received : awdlRx platform env (bufNewConst (ieee80211InitRadiotapHeader ++
      ((ieee80211InitAwdlHdr src dst sender ieee80211Data).1 ++
        (tunnelBody sequenceNumber payload ++ trailer)))) out state = some outcome)
    (accepted : outcome.result = .ok) :
    ∃ delivered, outcome.out = out ++ [delivered] ∧
      readBe16 delivered 12 = some ethPIpv6 := by
  cases parsed : parseFrame platform env (bufNewConst (ieee80211InitRadiotapHeader ++
      ((ieee80211InitAwdlHdr src dst sender ieee80211Data).1 ++
        (tunnelBody sequenceNumber payload ++ trailer)))) state with
  | error result =>
      unfold awdlRx at received
      rw [parsed] at received
      cases received
      exact absurd accepted (parseFrame_error parsed)
  | ok rx =>
      obtain ⟨hdr, front⟩ := parseFrame_sent parsed
      have data : frameType rx.hdr.frameControl = ieee80211Data := by
        rw [hdr]
        exact frameType_ieee80211Data
      rw [awdlRx_of_data parsed out data] at received
      cases received
      obtain ⟨known, valid, enough⟩ := awdlRxData_accepted accepted
      rw [awdlRxData_stores known valid enough]
      refine ⟨_, rfl, ?_⟩
      have type : (rx.body.view.drop 14).take 2 = be16 ethPIpv6 := by
        obtain ⟨rest, shown⟩ := front
        have body : rx.body.view.take 16 =
            (tunnelBody sequenceNumber payload ++ trailer).take 16 := by
          rw [← shown]
          exact (List.take_append_of_le_length enough).symm
        have bytes := congrArg (List.drop 14) body
        rw [List.drop_take] at bytes
        exact bytes
      rw [type, ofBE_be16]
      refine readBe16_writeEthernet _ _ _ _ ?_
      rw [bufNewOwned, len_bufNewConst, List.length_map, List.length_range, etherMaxLen]
      decide

/-- A node that has met an address, and is another one. -/
def acquaintance (addr : EtherAddr) : AwdlState :=
  { sampleState with
    selfAddress := if addr = .broadcast then ⟨2, 0, 0, 0, 0, 1⟩ else .broadcast
    peers.peers := awdlPeersSingle samplePlatform.hash (freshPeer default addr 0) }

theorem knows_acquaintance (addr : EtherAddr) :
    Knows samplePlatform.hash (acquaintance addr) addr := by
  have wf : AwdlPeersWf samplePlatform.hash (acquaintance addr).peers.peers :=
    awdlPeersSingle_wf _ rfl
  have stored : (acquaintance addr).peers.peers.toMap addr = some (freshPeer default addr 0) := by
    refine (congrFun (awdlPeersSingle_spec _).2 _).trans ?_
    exact Function.update_self ..
  unfold Knows
  rw [awdlPeerGet_eq wf.table, stored]
  rfl

theorem selfAddress_acquaintance (addr : EtherAddr) :
    addr ≠ (acquaintance addr).selfAddress := by
  unfold acquaintance
  dsimp only
  split
  · rename_i broadcast
    rw [broadcast]
    decide
  · assumption

/-- A frame that is sent is accepted somewhere. -/
theorem awdlRx_sent_accepted (src dst : EtherAddr) (sender : Ieee80211State)
    (sequenceNumber : UInt16) (payload trailer : List UInt8) :
    ∃ outcome, awdlRx samplePlatform (sampleEnv 0) (bufNewConst (ieee80211InitRadiotapHeader ++
        ((ieee80211InitAwdlHdr src dst sender ieee80211Data).1 ++
          (tunnelBody sequenceNumber payload ++ trailer)))) [] (acquaintance src) =
            some outcome ∧ outcome.result = .ok := by
  obtain ⟨body, viewed, parsed⟩ := @parseFrame_tx samplePlatform (sampleEnv 0)
    samplePlatform_acceptsTxHeader rfl src dst (acquaintance src) (selfAddress_acquaintance src)
    sender ieee80211Data (tunnelBody sequenceNumber payload ++ trailer)
  have valid : awdlValidLlcHeader body = true :=
    awdlValidLlcHeader_tx (viewed.trans (List.append_assoc ..))
  have enough : llcHdrSize + awdlDataSize ≤ body.view.length := by
    rw [viewed, List.length_append]
    exact Nat.le_trans (Nat.le_add_left 16 payload.length) (Nat.le_add_right _ _)
  refine ⟨_, awdlRx_of_data parsed [] frameType_ieee80211Data, ?_⟩
  exact congrArg Prod.fst (awdlRxData_stores (knows_acquaintance src) valid enough)

/-- A frame of another protocol arrives as an IPv6 frame. -/
theorem not_keepsType {buf : Buf} (enough : 14 ≤ buf.view.length)
    (other : readBe16 buf 12 ≠ some ethPIpv6) (sender : DaemonState) : ¬KeepsType buf sender := by
  intro keeps
  obtain ⟨next, trailer, sent, _⟩ := awdlSendData_sent enough sender
  obtain ⟨outcome, received, accepted⟩ := awdlRx_sent_accepted
    (EtherAddr.ofOctets (buf.view.drop 6)) (EtherAddr.ofOctets buf.view) sender.ieee80211State
    sender.awdlState.sequenceNumber (buf.view.drop 14) trailer
  obtain ⟨delivered, out, same⟩ := keeps _ _ sent _ _ _ _ _ received accepted
  obtain ⟨again, out', type⟩ := awdlRx_sent received accepted
  rw [out] at out'
  cases out'
  exact other (same.symm.trans type)

/-- **When a frame keeps its protocol in the tunnel.** -/
theorem awdlSendData_keepsType_iff (buf : Buf) (sender : DaemonState) :
    KeepsType buf sender ↔ buf.view.length < 14 ∨ readBe16 buf 12 = some ethPIpv6 := by
  constructor
  · intro keeps
    by_contra neither
    obtain ⟨enough, other⟩ := not_or.mp neither
    exact not_keepsType (Nat.le_of_not_lt enough) other sender keeps
  · rintro (short | ipv6) frame next sent platform env out receiver outcome received accepted
    · have missing : readBe16 buf 12 = none := by
        rw [Buf.length_view] at short
        exact (readBe16_eq_none_iff buf 12).mpr short
      rw [awdlSendData, missing] at sent
      cases sent
    · have enough : 14 ≤ buf.view.length := by
        by_contra short
        rw [Buf.length_view] at short
        cases ipv6.symm.trans ((readBe16_eq_none_iff buf 12).mpr (Nat.lt_of_not_le short))
      obtain ⟨next', trailer, built, _⟩ := awdlSendData_sent enough sender
      cases sent.symm.trans built
      rw [ipv6]
      exact awdlRx_sent received accepted

/-- An IPv4 frame arrives as an IPv6 frame. -/
theorem awdlSendData_ipv4 :
    ¬KeepsType (bufNewConst (etherFrame .broadcast ⟨2, 0, 0, 0, 0, 2⟩ 0x0800 [1, 2, 3]))
      ⟨sampleState, ieee80211InitState⟩ :=
  not_keepsType (by decide) (by decide) _

end Owl
