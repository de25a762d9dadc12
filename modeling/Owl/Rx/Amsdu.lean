import Owl.Rx.Data

/-! # Aggregates

The subframes of an A-MSDU as a list, read off its bytes, and the number of
Ethernet frames that `awdl_rx_data_amsdu` delivers from them
(`amsduLoop_out`).
-/

namespace Owl

variable {platform : Platform} {env : RxEnv}

/-- A subframe of an aggregate. -/
structure AmsduSubframe where
  dst : EtherAddr
  src : EtherAddr
  body : List UInt8

/-- The complete subframes at the front of a byte string: a header of fourteen
bytes, as many bytes as it says, and padding to a multiple of four. -/
def amsduSubframes : (fuel : Nat) → List UInt8 → List AmsduSubframe
  | 0, _ => []
  | fuel + 1, bytes =>
      let len := Octets.ofBE ((bytes.drop 12).take 2)
      let pad := (4 - (14 + len) % 4) % 4
      if bytes.length < 14 + len then []
      else
        ⟨EtherAddr.ofOctets bytes, EtherAddr.ofOctets (bytes.drop 6), (bytes.drop 14).take len⟩ ::
          if bytes.length < 14 + len + pad then []
          else amsduSubframes fuel (bytes.drop (14 + len + pad))

/-- A data frame body that `awdl_rx_data` can convert. -/
def WellFormedBody (body : List UInt8) : Prop :=
  awdlValidLlcHeader (bufNewConst body) = true ∧ llcHdrSize + awdlDataSize ≤ body.length

instance (body : List UInt8) : Decidable (WellFormedBody body) :=
  inferInstanceAs (Decidable (_ ∧ _))

/-- The node knows an address as a peer. -/
def Knows (hash : EtherAddr → UInt64) (state : AwdlState) (addr : EtherAddr) : Prop :=
  (awdlPeerGet hash state.peers.peers addr).1 = .ok

instance (hash : EtherAddr → UInt64) (state : AwdlState) (addr : EtherAddr) :
    Decidable (Knows hash state addr) :=
  inferInstanceAs (Decidable (_ = _))

/-- The subframes that are delivered: those of known peers, up to the first of a
known peer that is not well-formed. -/
def deliveredSubframes (hash : EtherAddr → UInt64) (state : AwdlState)
    (subframes : List AmsduSubframe) : List AmsduSubframe :=
  (subframes.takeWhile fun sub => ¬Knows hash state sub.src ∨ WellFormedBody sub.body).filter
    fun sub => Knows hash state sub.src

/-! ## One data frame -/

variable {out : List Buf} {src dst : EtherAddr} {state : AwdlState}

theorem awdlRxData_unknown {frame : Buf} (unknown : ¬Knows platform.hash state src) :
    awdlRxData platform env frame out src dst state =
      (.ignorePeer, out, { state with stats.rxData := state.stats.rxData + 1 }) := by
  unfold awdlRxData
  exact if_pos unknown

/-- A header that has been parsed is not longer than its frame. -/
theorem llcParse_length {frame : Buf} {llc : LlcHdr} (parsed : llcParse frame = some llc) :
    llcHdrSize ≤ frame.view.length := by
  unfold llcParse at parsed
  simp only [Option.bind_eq_bind, Option.bind_eq_some_iff] at parsed
  obtain ⟨_, _, _, _, _, _, _, _, _, read, _⟩ := parsed
  by_contra short
  have outside : ¬6 + 2 ≤ frame.view.length := short
  unfold readBe16 at read
  rw [show (6 : Int) = (6 : Nat) from rfl, readBytes_eq, if_neg outside] at read
  cases read

theorem awdlValidLlcHeader_length {frame : Buf} (valid : awdlValidLlcHeader frame = true) :
    llcHdrSize ≤ frame.view.length := by
  unfold awdlValidLlcHeader at valid
  split at valid
  · cases valid
  · rename_i llc parsed
    exact llcParse_length parsed

/-- A well-formed frame of a known peer stores one buffer. -/
theorem awdlRxData_stores {frame : Buf} (known : Knows platform.hash state src)
    (valid : awdlValidLlcHeader frame = true)
    (enough : llcHdrSize + awdlDataSize ≤ frame.view.length) :
    awdlRxData platform env frame out src dst state =
      (.ok, out ++ [writeEthernet (bufNewOwned (env.out out.length) etherMaxLen) dst src
          (UInt16.ofNat (Octets.ofBE ((frame.view.drop 14).take 2))) (frame.view.drop 16)],
        { state with stats.rxData := state.stats.rxData + 1 }) := by
  obtain ⟨inner, strip, viewed⟩ := bufStrip_of_le (awdlValidLlcHeader_length valid)
  have length : inner.view.length = frame.view.length - llcHdrSize := by
    rw [viewed, List.length_drop]
  have within : awdlDataSize ≤ inner.view.length := by omega
  obtain ⟨payload, stripInner, viewedInner⟩ := bufStrip_of_le within
  have type : readBe16 inner 6 = some _ := readBe16_of_le within
  have fits : ¬inner.len < awdlDataSize := by
    rw [← inner.length_view]
    omega
  unfold awdlRxData
  dsimp only
  refine (if_neg (not_not.mpr known)).trans ?_
  simp only [valid, Bool.not_true, Bool.false_eq_true, ↓reduceIte, strip, Option.getD_some,
    fits, type, stripInner, viewedInner, viewed, List.drop_drop]
  rfl

/-- A malformed frame of a known peer is an error. -/
theorem awdlRxData_malformed {frame : Buf} (known : Knows platform.hash state src)
    (malformed : awdlValidLlcHeader frame = true → frame.view.length < llcHdrSize + awdlDataSize) :
    (awdlRxData platform env frame out src dst state).1.code < 0 ∧
      (awdlRxData platform env frame out src dst state).2.1 = out := by
  have looked : ¬(awdlPeerGet platform.hash state.peers.peers src).1 ≠ .ok := not_not.mpr known
  unfold awdlRxData
  dsimp only
  rw [if_neg looked]
  cases valid : awdlValidLlcHeader frame with
  | false =>
      simp only [Bool.not_false, ↓reduceIte]
      exact ⟨by decide, trivial⟩
  | true =>
      obtain ⟨inner, strip, viewed⟩ := bufStrip_of_le (awdlValidLlcHeader_length valid)
      have short : inner.len < awdlDataSize := by
        have bound := malformed valid
        have enough := awdlValidLlcHeader_length valid
        rw [← inner.length_view, viewed, List.length_drop]
        omega
      simp only [Bool.not_true, Bool.false_eq_true, ↓reduceIte, strip, Option.getD_some, short]
      exact ⟨by decide, trivial⟩

/-- A frame that is accepted is a well-formed one of a known peer. -/
theorem awdlRxData_accepted {frame : Buf}
    (accepted : (awdlRxData platform env frame out src dst state).1 = .ok) :
    Knows platform.hash state src ∧ awdlValidLlcHeader frame = true ∧
      llcHdrSize + awdlDataSize ≤ frame.view.length := by
  have known : Knows platform.hash state src := by
    by_contra unknown
    rw [awdlRxData_unknown unknown] at accepted
    cases accepted
  by_contra malformed
  obtain ⟨failed, _⟩ := @awdlRxData_malformed platform env out src dst state frame known
    fun valid => Nat.lt_of_not_le fun enough => malformed ⟨known, valid, enough⟩
  rw [accepted] at failed
  exact absurd failed (by decide)

theorem length_awdlRxData_le (frame : Buf) :
    (awdlRxData platform env frame out src dst state).2.1.length ≤ out.length + 1 := by
  unfold awdlRxData
  dsimp only
  split_ifs
  · exact Nat.le_succ _
  · exact Nat.le_succ _
  · exact Nat.le_succ _
  · rw [List.length_append, List.length_singleton]

/-! ## The loop -/

/-- The header of a subframe, as the loop reads it. -/
theorem amsdu_header {frame : Buf} (enough : 14 ≤ frame.view.length) :
    ∃ len body, readEtherAddr frame 0 = some (EtherAddr.ofOctets frame.view) ∧
      readEtherAddr frame 6 = some (EtherAddr.ofOctets (frame.view.drop 6)) ∧
      readBe16 frame 12 = some len ∧ bufStrip frame 14 = some body ∧
      len.toNat = Octets.ofBE ((frame.view.drop 12).take 2) ∧
      body.view = frame.view.drop 14 := by
  obtain ⟨body, strip, viewed⟩ := bufStrip_of_le enough
  have first : 0 + EtherAddr.length ≤ frame.view.length := Nat.le_trans (by decide) enough
  have second : 6 + EtherAddr.length ≤ frame.view.length := Nat.le_trans (by decide) enough
  refine ⟨_, body, readEtherAddr_of_le first, readEtherAddr_of_le second,
    readBe16_of_le enough, strip, ?_, viewed⟩
  have bound := Octets.ofBE_lt ((frame.view.drop 12).take 2)
  rw [UInt16.toNat_ofNat']
  refine Nat.mod_eq_of_lt (Nat.lt_of_lt_of_le bound ?_)
  calc 256 ^ ((frame.view.drop 12).take 2).length ≤ 256 ^ 2 :=
        Nat.pow_le_pow_right (by decide) (List.length_take_le 2 _)
    _ = 2 ^ 16 := by decide

theorem amsduSubframes_short {fuel : Nat} {bytes : List UInt8} (short : bytes.length < 14) :
    amsduSubframes fuel bytes = [] := by
  cases fuel with
  | zero => rfl
  | succ fuel =>
      unfold amsduSubframes
      exact if_pos (Nat.lt_of_lt_of_le short (Nat.le_add_right _ _))

/-- A complete subframe at the front, and the subframes behind it. -/
theorem amsduSubframes_cons {fuel len : Nat} {bytes : List UInt8}
    (announced : len = Octets.ofBE ((bytes.drop 12).take 2)) (complete : 14 + len ≤ bytes.length) :
    amsduSubframes (fuel + 1) bytes =
      ⟨EtherAddr.ofOctets bytes, EtherAddr.ofOctets (bytes.drop 6), (bytes.drop 14).take len⟩ ::
        if (bytes.drop 14).length < len + (4 - (14 + len) % 4) % 4 then []
        else amsduSubframes fuel ((bytes.drop 14).drop (len + (4 - (14 + len) % 4) % 4)) := by
  have pad : (bytes.length < 14 + len + (4 - (14 + len) % 4) % 4) =
      ((bytes.drop 14).length < len + (4 - (14 + len) % 4) % 4) := by
    rw [List.length_drop, eq_iff_iff]
    omega
  rw [amsduSubframes, ← announced, if_neg (Nat.not_lt.mpr complete), List.drop_drop,
    ← Nat.add_assoc]
  simp only [pad]

theorem amsduLoop_short {fuel : Nat} {frame : Buf} (short : frame.view.length < 14) :
    (amsduLoop platform env fuel frame out state).2.1 = out := by
  cases fuel with
  | zero => rfl
  | succ fuel =>
      unfold amsduLoop
      split
      · rfl
      split
      · rename_i strip
        rw [show (14 : Int) = (14 : Nat) from rfl, bufStrip_of_lt short] at strip
        cases strip
      · rfl

section Delivered

variable {hash : EtherAddr → UInt64} {body : List UInt8} {rest : List AmsduSubframe}

theorem deliveredSubframes_unknown (unknown : ¬Knows hash state src) :
    deliveredSubframes hash state (⟨dst, src, body⟩ :: rest) =
      deliveredSubframes hash state rest := by
  unfold deliveredSubframes
  rw [List.takeWhile_cons_of_pos (by simp only [unknown, not_false_eq_true, true_or, decide_true]),
    List.filter_cons_of_neg (by simp only [unknown, decide_false, Bool.false_eq_true,
      not_false_eq_true])]

theorem deliveredSubframes_wellFormed (known : Knows hash state src)
    (wellFormed : WellFormedBody body) :
    deliveredSubframes hash state (⟨dst, src, body⟩ :: rest) =
      ⟨dst, src, body⟩ :: deliveredSubframes hash state rest := by
  unfold deliveredSubframes
  rw [List.takeWhile_cons_of_pos (by simp only [wellFormed, or_true, decide_true]),
    List.filter_cons_of_pos (by simp only [known, decide_true])]

theorem deliveredSubframes_malformed (known : Knows hash state src)
    (malformed : ¬WellFormedBody body) :
    deliveredSubframes hash state (⟨dst, src, body⟩ :: rest) = [] := by
  unfold deliveredSubframes
  rw [List.takeWhile_cons_of_neg (by simp only [known, malformed, not_true_eq_false, or_self,
    decide_false, Bool.false_eq_true, not_false_eq_true]), List.filter_nil]

end Delivered

/-- The rounds behind a subframe, whatever it has done itself. -/
theorem amsduLoop_behind {fuel count pad : Nat} {body : Buf}
    (within : count ≤ body.view.length)
    (ih : ∀ frame : Buf, (amsduLoop platform env fuel frame out state).2.1.length = out.length +
      (deliveredSubframes platform.hash state (amsduSubframes fuel frame.view)).length) :
    (match bufStrip body count with
      | none => (RxResult.tooShort, out, state)
      | some behind =>
          if behind.len > 0 then
            match bufStrip behind pad with
            | none => (RxResult.tooShort, out, state)
            | some next => amsduLoop platform env fuel next out state
          else amsduLoop platform env fuel behind out state).2.1.length = out.length +
      (deliveredSubframes platform.hash state
        (if body.view.length < count + pad then []
          else amsduSubframes fuel (body.view.drop (count + pad)))).length := by
  obtain ⟨behind, strip, viewed⟩ := bufStrip_of_le within
  have length : behind.view.length = body.view.length - count := by
    rw [viewed, List.length_drop]
  rw [strip]
  dsimp only
  rw [← behind.length_view]
  by_cases more : behind.view.length > 0
  · rw [if_pos more]
    by_cases short : behind.view.length < pad
    · rw [bufStrip_of_lt short, if_pos (by omega)]
      rfl
    · obtain ⟨next, stripPad, viewedPad⟩ := bufStrip_of_le (Nat.le_of_not_lt short)
      rw [stripPad, if_neg (by omega)]
      dsimp only
      rw [ih, viewedPad, viewed, List.drop_drop]
  · rw [if_neg more, amsduLoop_short (by omega)]
    split
    · rfl
    · rw [amsduSubframes_short (by rw [List.length_drop]; omega)]
      rfl

/-- **The loop stores one buffer for every subframe that is delivered.** -/
theorem amsduLoop_out (fuel : Nat) (frame : Buf) (out : List Buf) (state : AwdlState) :
    (amsduLoop platform env fuel frame out state).2.1.length = out.length +
      (deliveredSubframes platform.hash state (amsduSubframes fuel frame.view)).length := by
  induction fuel generalizing frame out state with
  | zero => rfl
  | succ fuel ih =>
      by_cases short : frame.view.length < 14
      · rw [amsduLoop_short short, amsduSubframes_short short]
        rfl
      obtain ⟨len, body, dst, src, readLen, strip, lenEq, viewed⟩ :=
        amsdu_header (Nat.le_of_not_lt short)
      have nonempty : frame.len ≠ 0 := by
        rw [← frame.length_view]
        omega
      have bodyLen : body.view.length = frame.view.length - 14 := by
        rw [viewed, List.length_drop]
      unfold amsduLoop
      rw [if_neg nonempty, dst, src, readLen, strip]
      dsimp only
      rw [← body.length_view]
      by_cases cut : len.toNat > body.view.length
      · have incomplete : frame.view.length <
            14 + Octets.ofBE ((frame.view.drop 12).take 2) := by omega
        unfold amsduSubframes
        rw [if_pos cut, if_pos incomplete]
        rfl
      rw [if_neg cut, amsduSubframes_cons lenEq (by omega), ← viewed]
      have behind (out : List Buf) (state : AwdlState) :=
        @amsduLoop_behind platform env out state fuel len.toNat
          ((4 - (14 + len.toNat) % 4) % 4) body (Nat.le_of_not_lt cut)
          fun frame => ih frame out state
      by_cases known : Knows platform.hash state (EtherAddr.ofOctets (frame.view.drop 6))
      · by_cases wellFormed : WellFormedBody (body.view.take len.toNat)
        · have enough := wellFormed.2
          rw [← view_bufNewConst (body.view.take len.toNat)] at enough
          rw [awdlRxData_stores known wellFormed.1 enough,
            deliveredSubframes_wellFormed known wellFormed, List.length_cons]
          dsimp only
          rw [if_neg (by decide)]
          refine (behind _ _).trans ?_
          rw [List.length_append, List.length_singleton, Nat.add_assoc, Nat.add_comm 1]
          rfl
        · obtain ⟨failed, same⟩ := @awdlRxData_malformed platform env out _
            (EtherAddr.ofOctets frame.view) _ (bufNewConst (body.view.take len.toNat)) known
            fun valid => by
              rw [view_bufNewConst]
              exact Nat.lt_of_not_le fun enough => wellFormed ⟨valid, enough⟩
          rw [deliveredSubframes_malformed known wellFormed, List.length_nil, Nat.add_zero]
          generalize awdlRxData platform env (bufNewConst (body.view.take len.toNat)) out
            (EtherAddr.ofOctets (frame.view.drop 6)) (EtherAddr.ofOctets frame.view) state =
              handled at failed same ⊢
          obtain ⟨err, out', state'⟩ := handled
          dsimp only at failed same ⊢
          rw [if_pos failed, same]
      · rw [awdlRxData_unknown known, deliveredSubframes_unknown known]
        dsimp only
        rw [if_neg (by decide)]
        exact behind _ _

/-! ## Dispatch -/

/-- The subframes that a dispatched frame carries, if it is an aggregate. -/
def amsduBody (rx : RxFrame) : Option (List UInt8) :=
  if frameType rx.hdr.frameControl = ieee80211QosData ∧ 2 ≤ rx.body.view.length ∧
      UInt16.ofNat (Octets.ofLE (rx.body.view.take 2)) &&& qosAmsduPresent ≠ 0 then
    some (rx.body.view.drop 2)
  else none

theorem readLe16_zero_eq_some {buf : Buf} {value : UInt16} (read : readLe16 buf 0 = some value) :
    2 ≤ buf.view.length ∧ value = UInt16.ofNat (Octets.ofLE (buf.view.take 2)) := by
  obtain ⟨bytes, found, rfl⟩ := Option.map_eq_some_iff.mp read
  obtain ⟨enough, rfl⟩ := readBytes_zero_eq_some found
  exact ⟨enough, rfl⟩

/-- An aggregate goes through the loop over its subframes. -/
theorem dispatchFrame_amsdu {rx : RxFrame} {body : List UInt8}
    (aggregate : amsduBody rx = some body) (out : List Buf) (state : AwdlState) :
    ∃ inner : Buf, inner.view = body ∧ dispatchFrame platform env rx out state =
      some ⟨(amsduLoop platform env inner.len inner out state).1,
        (amsduLoop platform env inner.len inner out state).2.1,
        (amsduLoop platform env inner.len inner out state).2.2, []⟩ := by
  unfold amsduBody at aggregate
  split at aggregate
  · rename_i qos
    obtain ⟨type, enough, present⟩ := qos
    cases aggregate
    have read : readLe16 rx.body 0 = some _ := @readLe16_of_le rx.body 0 enough
    obtain ⟨inner, strip, viewed⟩ := bufStrip_of_le enough
    refine ⟨inner, viewed, ?_⟩
    unfold dispatchFrame
    dsimp only
    rw [type, if_neg (by decide), if_pos rfl, read, show (2 : Int) = (2 : Nat) from rfl, strip,
      List.drop_zero]
    exact if_pos present
  · cases aggregate

/-- A frame that is no aggregate stores nothing, or its body goes through `awdl_rx_data`. -/
theorem dispatchFrame_single {rx : RxFrame} {outcome : RxOutcome} (single : amsduBody rx = none)
    (done : dispatchFrame platform env rx out state = some outcome) :
    outcome.out = out ∨ ∃ body,
      ⟨(awdlRxData platform env body out rx.hdr.addr2 rx.hdr.addr1 state).1,
        (awdlRxData platform env body out rx.hdr.addr2 rx.hdr.addr1 state).2.1,
        (awdlRxData platform env body out rx.hdr.addr2 rx.hdr.addr1 state).2.2, []⟩ = outcome := by
  cases dispatchFrame_dispatched done with
  | action type acted => exact Or.inl rfl
  | amsdu type read strip present =>
      obtain ⟨enough, rfl⟩ := readLe16_zero_eq_some read
      rw [amsduBody, if_pos ⟨type, enough, present⟩] at single
      cases single
  | data source => exact Or.inr ⟨_, rfl⟩
  | refused type reason => exact Or.inl rfl

/-- **The buffers that a frame stores**: one for every subframe of an aggregate
that is delivered, and at most one otherwise. -/
theorem dispatchFrame_out {rx : RxFrame} {outcome : RxOutcome}
    (done : dispatchFrame platform env rx [] state = some outcome) :
    match amsduBody rx with
    | some body => outcome.out.length =
        (deliveredSubframes platform.hash state (amsduSubframes body.length body)).length
    | none => outcome.out.length ≤ 1 := by
  cases aggregate : amsduBody rx with
  | some body =>
      obtain ⟨inner, rfl, dispatched⟩ :=
        @dispatchFrame_amsdu platform env rx body aggregate [] state
      cases dispatched.symm.trans done
      dsimp only
      rw [amsduLoop_out, List.length_nil, Nat.zero_add, inner.length_view]
  | none =>
      rcases dispatchFrame_single aggregate done with same | ⟨body, rfl⟩
      · rw [same]
        exact Nat.zero_le 1
      · exact length_awdlRxData_le body

end Owl
