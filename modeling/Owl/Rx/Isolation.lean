import Owl.Rx.Effect

/-! # Isolation of received frames

A frame can change the record of its transmitter and, if that is the sync master,
the sync state of the node, and nothing else (`awdlRx_isolated`).
-/

namespace Owl

variable {platform : Platform} {env : RxEnv}

/-- The length that a captured frame gives for its radiotap header. -/
def radiotapLen (bytes : List UInt8) : Nat := Octets.ofLE ((bytes.drop 2).take 2)

/-- The 802.11 header of a captured frame. -/
def frameHdr (bytes : List UInt8) : Ieee80211Hdr :=
  Ieee80211Hdr.ofBytes (bytes.drop (radiotapLen bytes))

/-- The header lies in the first bytes of a frame. -/
theorem Ieee80211Hdr.ofBytes_take {bytes : List UInt8} {length : Nat}
    (enough : ieee80211HdrSize ≤ length) : ofBytes (bytes.take length) = ofBytes bytes := by
  have inside : ∀ index, index < 24 → (bytes.take length)[index]? = bytes[index]? := by
    intro index below
    exact List.getElem?_take_of_lt (Nat.lt_of_lt_of_le below enough)
  unfold ofBytes EtherAddr.ofOctets
  simp only [List.take_take, List.getD_eq_getElem?_getD, List.getElem?_drop, Nat.reduceAdd,
    Nat.reduceLT, inside]
  congr 4
  exact Nat.min_eq_left (Nat.le_trans (by decide) enough)

/-- The check sequence is taken from the end of a frame. -/
theorem checkFcs_view {frame checked : Buf} {flags : UInt8}
    (done : checkFcs frame flags = some checked) :
    ∃ length, checked.view = frame.view.take length ∧ checked.view.length = length := by
  unfold checkFcs at done
  split at done
  · cases done
  split at done
  · obtain ⟨_, viewed⟩ := bufTake_eq_some done
    refine ⟨_, viewed, ?_⟩
    rw [viewed, List.length_take]
    omega
  · cases done
    exact ⟨_, (List.take_length).symm, rfl⟩

/-- A frame that is dispatched has the header and the body that its bytes show,
and is not from the node itself. -/
theorem parseFrame_ok {bytes : List UInt8} {state : AwdlState} {rx : RxFrame}
    (parsed : parseFrame platform env (bufNewConst bytes) state = .ok rx) :
    rx.hdr = frameHdr bytes ∧ rx.hdr.addr2 ≠ state.selfAddress ∧
      ∃ length, rx.body.view =
        ((bytes.drop (radiotapLen bytes)).take length).drop ieee80211HdrSize := by
  unfold parseFrame at parsed
  split at parsed
  · cases parsed
  split at parsed
  · cases parsed
  · rename_i stripped strip
    obtain ⟨_, stripView⟩ := bufStrip_eq_some strip
    rw [view_bufNewConst] at stripView
    split at parsed
    · cases parsed
    · rename_i checked check
      obtain ⟨length, checkView, same⟩ := checkFcs_view check
      split at parsed
      · cases parsed
      · rename_i header read
        obtain ⟨enough, rfl⟩ := readBytes_zero_eq_some read
        dsimp only at parsed
        split at parsed
        · cases parsed
        · rename_i foreign
          split at parsed
          · cases parsed
          · rename_i body bodyStrip
            cases parsed
            refine ⟨?_, foreign, length, ?_⟩
            · rw [Ieee80211Hdr.ofBytes_take (Nat.le_refl _), checkView,
                Ieee80211Hdr.ofBytes_take (by omega), stripView]
              rfl
            · rw [(bufStrip_eq_some bodyStrip).2, checkView, stripView]
              rfl

/-- The subtype byte of the action header of a captured frame. -/
def actionSubtype (bytes : List UInt8) : UInt8 :=
  bytes.getD (radiotapLen bytes + ieee80211HdrSize + 6) 0

/-- The subtype that the node parses is the one that the bytes show. -/
theorem awdlParseActionHdr_subtype {bytes : List UInt8} {state : AwdlState} {rx : RxFrame}
    {subtype : AwdlActionType}
    (parsed : parseFrame platform env (bufNewConst bytes) state = .ok rx)
    (action : awdlParseActionHdr rx.body = some subtype) :
    actionSubtype bytes = subtype.toByte := by
  obtain ⟨_, _, length, viewed⟩ := parseFrame_ok parsed
  unfold awdlParseActionHdr at action
  obtain ⟨af, read, checked⟩ := Option.bind_eq_some_iff.mp action
  obtain ⟨enough, rfl⟩ := readBytes_zero_eq_some read
  have shown : (rx.body.view.take awdlActionSize).getD 6 0 = actionSubtype bytes := by
    rw [viewed, List.length_drop, List.length_take, awdlActionSize, ieee80211HdrSize] at enough
    unfold actionSubtype
    rw [List.getD_eq_getElem?_getD, List.getElem?_take_of_lt (by decide), viewed,
      List.getElem?_drop, List.getElem?_take_of_lt (by rw [ieee80211HdrSize]; omega),
      List.getElem?_drop, Nat.add_assoc, List.getD_eq_getElem?_getD]
  rw [shown] at checked
  split at checked
  · split at checked
    · rename_i psf
      cases checked
      exact psf
    · split at checked
      · rename_i mif
        cases checked
        exact mif
      · cases checked
  · cases checked

/-- With enough memory an action frame sets the record of its sender at most. -/
theorem ActionEffect.sender_only {frame : Buf} {tsft : UInt64} {src : EtherAddr}
    {state next : AwdlState} {result : RxResult} {events : List Callback}
    (allocates : ∀ length, env.peer.calloc length = true)
    (effect : ActionEffect env frame tsft src state next result events) :
    (next.peers.peers.toMap = state.peers.peers.toMap ∨ ∃ peer,
        next.peers.peers.toMap = Function.update state.peers.peers.toMap src (some peer)) ∧
      (state.election.syncAddr ≠ src → next.sync = state.sync) := by
  cases effect with
  | refused _ same sync => exact ⟨Or.inl (by rw [same]), fun _ => sync⟩
  | exhausted _ failed _ _ =>
      obtain ⟨length, refusal⟩ := failed
      rw [allocates length] at refusal
      cases refusal
  | aborted updates stored => exact ⟨Or.inr ⟨_, stored⟩, updates.sync⟩
  | completed _ updates stored => exact ⟨Or.inr ⟨_, stored⟩, updates.sync⟩

/-- An action frame is not a data frame. -/
theorem not_data_of_action {frameControl : UInt16}
    (type : frameType frameControl = ieee80211Action) : frameControl &&& 0x000c ≠ 0x0008 := by
  intro data
  have masked : frameType frameControl &&& 0x000c = frameControl &&& 0x000c := by
    unfold frameType
    rw [UInt16.and_assoc]
    rfl
  rw [type, data] at masked
  exact absurd masked (by decide)

/-- **Isolation.** Of the node itself a frame changes only the sync state and the
counters; it removes no peer, touches no peer but its transmitter, and changes
the sync state only if the transmitter is the sync master. A data frame leaves
the peer table alone. -/
theorem awdlRx_isolated {bytes : List UInt8} {out : List Buf} {state : AwdlState}
    {outcome : RxOutcome} (wf : AwdlPeersWf platform.hash state.peers.peers)
    (allocates : ∀ length, env.peer.calloc length = true)
    (done : awdlRx platform env (bufNewConst bytes) out state = some outcome) :
    SameNode state outcome.state ∧
      (∀ addr, (state.peers.peers.toMap addr).isSome →
        (outcome.state.peers.peers.toMap addr).isSome) ∧
      (∀ addr, addr ≠ (frameHdr bytes).addr2 →
        outcome.state.peers.peers.toMap addr = state.peers.peers.toMap addr) ∧
      (outcome.state.sync ≠ state.sync →
        (frameHdr bytes).addr2 = state.election.syncAddr ∧
          (frameHdr bytes).addr2 ≠ state.selfAddress) ∧
      ((frameHdr bytes).frameControl &&& 0x000c = 0x0008 →
        outcome.state.peers = state.peers) := by
  obtain ⟨_, same, effect⟩ := awdlRx_effect wf done
  refine ⟨same, ?_⟩
  cases effect with
  | untouched _ counted _ =>
      have peers : outcome.state.peers = state.peers := by rw [counted]
      have sync : outcome.state.sync = state.sync := by rw [counted]
      rw [peers]
      exact ⟨fun _ present => present, fun _ _ => rfl, fun changed => absurd sync changed,
        fun _ => rfl⟩
  | action parsed type effect =>
      obtain ⟨hdr, foreign, _⟩ := parseFrame_ok parsed
      rw [hdr] at type effect foreign
      obtain ⟨table, sync⟩ := effect.sender_only allocates
      refine ⟨?_, ?_, ?_, fun data => absurd data (not_data_of_action type)⟩
      · intro addr present
        rcases table with same | ⟨peer, updated⟩
        · rw [same]
          exact present
        · rw [updated]
          by_cases sender : addr = (frameHdr bytes).addr2
          · rw [sender, Function.update_self]
            rfl
          · rw [Function.update_of_ne sender]
            exact present
      · intro addr other
        rcases table with same | ⟨peer, updated⟩
        · rw [same]
        · rw [updated, Function.update_of_ne other]
      · intro changed
        refine ⟨?_, foreign⟩
        by_contra stranger
        exact changed (sync (Ne.symm stranger))

/-! ## A captured frame -/

/-- A radiotap iterator for headers whose fields all are single bytes: flags,
rate and signal strength. -/
def singleByteRadiotap (bytes : List UInt8) : RadiotapWalk :=
  if bytes.length < 8 ∨ bytes.getD 0 0 ≠ 0 ∨ bytes.length < radiotapLen bytes then ⟨-22, [], 0⟩
  else
    let present := Octets.ofLE ((bytes.drop 4).take 4)
    ⟨0, List.zipWith (RadiotapArg.mk true) ([1, 2, 5].filter present.testBit) (bytes.drop 8),
      radiotapEnd⟩

def samplePlatform : Platform := ⟨fun _ => 0, .bits64, singleByteRadiotap⟩

/-- Surroundings with enough memory, at a time. -/
def sampleEnv (now : UInt64) : RxEnv where
  now := now
  peer := ⟨fun _ => true, 1, default⟩
  rssi := 0
  flags := 0
  list := fun _ => awdlChanseqInitStatic chanNull
  out := fun _ _ => 0

/-- A frame of a type from an address, captured at -40 dBm. -/
def sampleFrame (type : UInt16) (src : EtherAddr) (body : List UInt8) : List UInt8 :=
  [0, 0, 9, 0, 0x20, 0, 0, 0, 0xd8] ++ Octets.toLE 2 type.toNat ++ [0, 0] ++
    EtherAddr.broadcast.octets ++ src.octets ++ [0x00, 0x25, 0x00, 0xff, 0x94, 0x73, 0, 0] ++ body

/-- The action header of a subtype. -/
def sampleActionHdr (subtype : AwdlActionType) : List UInt8 :=
  ieee80211VendorSpecific :: awdlOui ++ [awdlType, awdlVersionCompat, subtype.toByte, 0] ++
    List.replicate 8 0

/-- A node that has just been initialised. -/
def sampleState : AwdlState :=
  awdlInitState (List.replicate 65 0) default [111, 119, 108] ⟨2, 0, 0, 0, 0, 1⟩ chanOpclass6 0

/-- An action frame of an unknown node is isolated, and the node is known afterwards. -/
theorem awdlRx_isolated_action : ∃ outcome, awdlRx samplePlatform (sampleEnv 5)
    (bufNewConst (sampleFrame ieee80211Action ⟨2, 0, 0, 0, 0, 2⟩ (sampleActionHdr .psf))) []
    sampleState = some outcome ∧ SameNode sampleState outcome.state ∧
      (outcome.state.peers.peers.toMap ⟨2, 0, 0, 0, 0, 2⟩).isSome := by
  have returned : ((awdlRx samplePlatform (sampleEnv 5) (bufNewConst (sampleFrame ieee80211Action
      ⟨2, 0, 0, 0, 0, 2⟩ (sampleActionHdr .psf))) [] sampleState).map fun outcome =>
        (outcome.state.peers.peers.toMap ⟨2, 0, 0, 0, 0, 2⟩).isSome) = some true := by
    decide +kernel
  obtain ⟨outcome, done, known⟩ := Option.map_eq_some_iff.mp returned
  exact ⟨outcome, done, (awdlRx_isolated awdlPeersInit_wf (fun _ => rfl) done).1, known⟩

end Owl
