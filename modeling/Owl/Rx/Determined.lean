import Owl.Rx.Isolation

/-! # What uninitialised locals decide

`awdl_rx` declares `rssi` and `flags` without a value, and `radiotap_parse` sets
them only from fields that the radiotap header has. Two calls that find different
contents in them can thus end differently (`awdlRx_undetermined`). They do not
exactly if the header has the flags, and has the signal strength wherever the
RSSI filter looks at it (`awdlRx_determined_iff`).
-/

namespace Owl

variable {platform : Platform} {env : RxEnv} {state : AwdlState} {out : List Buf}

/-! ## The fields of the radiotap header -/

/-- The value of the last field with an index, if the iterator reports one. -/
def radiotapValue (args : List RadiotapArg) (index : Nat) : Option UInt8 :=
  (args.filterMap fun arg =>
    if arg.isRadiotapNs && arg.index == index then some arg.value else none).getLast?

theorem radiotapValue_append (args : List RadiotapArg) (arg : RadiotapArg) (index : Nat) :
    radiotapValue (args ++ [arg]) index =
      if arg.isRadiotapNs && arg.index == index then some arg.value
      else radiotapValue args index := by
  unfold radiotapValue
  rw [List.filterMap_append, List.filterMap_cons, List.filterMap_nil]
  split
  · rename_i other
    split at other
    · cases other
    · rename_i different
      rw [List.append_nil, if_neg different]
  · rename_i value found
    split at found
    · rename_i same
      cases found
      rw [List.getLast?_concat, if_pos same]
    · cases found

/-- The locals keep their contents where no field sets them. -/
theorem foldl_radiotapField_eq (args : List RadiotapArg) (rssi : Int8) (flags : UInt8) :
    args.foldl radiotapField (rssi, flags) =
      (((radiotapValue args 5).map UInt8.toInt8).getD rssi,
        (radiotapValue args 1).getD flags) := by
  induction args using List.reverseRecOn with
  | nil => rfl
  | append_singleton args arg ih =>
      rw [List.foldl_concat, ih, radiotapValue_append, radiotapValue_append, radiotapField]
      cases arg.isRadiotapNs with
      | false => rfl
      | true =>
          simp only [↓reduceIte, Bool.true_and, beq_iff_eq]
          by_cases one : arg.index = 1
          · simp only [one, ↓reduceIte, Nat.reduceEqDiff, Option.getD_some]
          · by_cases five : arg.index = 5
            · simp only [five, ↓reduceIte, Nat.reduceEqDiff, Option.map_some, Option.getD_some]
            · simp only [one, five, ↓reduceIte]

/-! ## Behind the radiotap header -/

/-- `awdl_rx` behind the radiotap header, up to the dispatch. -/
def parseMpdu (frame : Buf) (rssi : Int8) (flags : UInt8) (state : AwdlState) :
    Except RxResult RxFrame :=
  match checkFcs frame flags with
  | none => .error .ignoreFailedCrc
  | some mpdu =>
      match readBytes mpdu 0 ieee80211HdrSize with
      | none => .error .tooShort
      | some bytes =>
          if (Ieee80211Hdr.ofBytes bytes).addr2 = state.selfAddress then .error .ignoreFromSelf
          else
            match bufStrip mpdu ieee80211HdrSize with
            | none => .error .tooShort
            | some body => .ok ⟨body, .ofBytes bytes, rssi⟩

/-- `awdl_rx` behind the radiotap header. -/
def rxMpdu (platform : Platform) (env : RxEnv) (frame : Buf) (rssi : Int8) (flags : UInt8)
    (out : List Buf) (state : AwdlState) : Option RxOutcome :=
  match parseMpdu frame rssi flags state with
  | .error result => some ⟨result, out, state, []⟩
  | .ok rx => dispatchFrame platform env rx out state

section Locals

variable (rssi : Int8) (flags : UInt8)

theorem amsduLoop_locals (fuel : Nat) (frame : Buf) (out : List Buf) (state : AwdlState) :
    amsduLoop platform { env with rssi := rssi, flags := flags } fuel frame out state =
      amsduLoop platform env fuel frame out state := by
  have data : ∀ frame out src dst state,
      awdlRxData platform { env with rssi := rssi, flags := flags } frame out src dst state =
        awdlRxData platform env frame out src dst state := fun _ _ _ _ _ => rfl
  induction fuel generalizing frame out state with
  | zero => rfl
  | succ fuel ih => simp only [amsduLoop, data, ih]

/-- The locals are not read again once the frame has been parsed. -/
theorem dispatchFrame_locals (rx : RxFrame) :
    dispatchFrame platform { env with rssi := rssi, flags := flags } rx out state =
      dispatchFrame platform env rx out state := by
  unfold dispatchFrame awdlRxDataAmsdu
  simp only [amsduLoop_locals]
  rfl

end Locals

/-- A frame with a radiotap header that is accepted and fits is handled with the
locals that its fields leave. -/
theorem awdlRx_locals {frame inner : Buf} (init : 0 ≤ (platform.radiotap frame.view).init)
    (last : (platform.radiotap frame.view).last = radiotapEnd)
    (strip : bufStrip frame (radiotapLen frame.view) = some inner) (rssi : Int8)
    (flags : UInt8) :
    awdlRx platform { env with rssi := rssi, flags := flags } frame out state =
      rxMpdu platform env inner
        (((radiotapValue (platform.radiotap frame.view).args 5).map UInt8.toInt8).getD rssi)
        ((radiotapValue (platform.radiotap frame.view).args 1).getD flags) out state := by
  unfold awdlRx rxMpdu
  have parsed : parseFrame platform { env with rssi := rssi, flags := flags } frame state =
      parseMpdu inner
        (((radiotapValue (platform.radiotap frame.view).args 5).map UInt8.toInt8).getD rssi)
        ((radiotapValue (platform.radiotap frame.view).args 1).getD flags) state := by
    unfold parseFrame radiotapParse
    dsimp only
    rw [if_neg (Int.not_lt.mpr init), if_neg (not_not.mpr last), foldl_radiotapField_eq]
    dsimp only
    rw [show Octets.ofLE ((frame.view.drop 2).take 2) = radiotapLen frame.view from rfl, strip]
    rfl
  rw [parsed]
  generalize parseMpdu inner _ _ state = result
  cases result with
  | error result => rfl
  | ok rx => exact dispatchFrame_locals rssi flags rx

/-! ## Where results come from -/

/-- Only the RSSI filter yields `RX_IGNORE_RSSI`, and no action frame fails the check sequence. -/
theorem awdlRxAction_result {frame : Buf} {rssi : Int8} {tsft : UInt64} {src dst : EtherAddr}
    {next : AwdlState} {result : RxResult} {events : List Callback}
    (done : awdlRxAction platform env frame rssi tsft src dst state =
      some (result, next, events)) :
    result ≠ .ignoreFailedCrc ∧
      (result = .ignoreRssi → ignoresRssi platform.hash state src rssi = true) := by
  unfold awdlRxAction at done
  split at done
  · cases done
    exact ⟨nofun, nofun⟩
  dsimp only at done
  split at done
  · rename_i ignored
    cases done
    exact ⟨nofun, fun _ => ignored⟩
  split at done
  · cases done
  split at done
  · cases done
    exact ⟨nofun, nofun⟩
  split at done
  · cases done
    exact ⟨nofun, nofun⟩
  unfold finishAction at done
  split at done
  · cases done
    exact ⟨nofun, nofun⟩
  split at done
  · cases done
    exact ⟨nofun, nofun⟩
  dsimp only at done
  split at done
  · cases done
  · cases done
    exact ⟨nofun, nofun⟩

theorem awdlRxData_result (frame : Buf) (out : List Buf) (src dst : EtherAddr)
    (state : AwdlState) :
    (awdlRxData platform env frame out src dst state).1 ≠ .ignoreFailedCrc := by
  unfold awdlRxData
  dsimp only
  split_ifs <;> nofun

theorem amsduLoop_result (fuel : Nat) (frame : Buf) (out : List Buf) (state : AwdlState) :
    (amsduLoop platform env fuel frame out state).1 ≠ .ignoreFailedCrc := by
  refine amsduLoop_induct (fun _ result => result.1 ≠ .ignoreFailedCrc) ?_ ?_ ?_ fuel frame out
    state
  · rintro result out state (rfl | rfl) failed
    · cases failed
    · cases failed
  · exact awdlRxData_result
  · intro frame out src dst state result kept
    exact kept

/-- No frame fails the check sequence once it has passed it. -/
theorem dispatchFrame_result {rx : RxFrame} {outcome : RxOutcome}
    (done : dispatchFrame platform env rx out state = some outcome) :
    outcome.result ≠ .ignoreFailedCrc := by
  cases dispatchFrame_dispatched done with
  | action type acted => exact (awdlRxAction_result acted).1
  | amsdu type read strip present => exact amsduLoop_result _ _ _ _
  | data source => exact awdlRxData_result _ _ _ _ _
  | refused type reason =>
      intro failed
      rcases reason with rfl | rfl
      · cases failed
      · cases failed

/-! ## The RSSI filter -/

/-- The signal strength below which the filter ignores a sender. -/
def rssiBound (hash : EtherAddr → UInt64) (state : AwdlState) (src : EtherAddr) : Int :=
  if (awdlPeerGet hash state.peers.peers src).1 = .ok then
    state.rssiThreshold.toInt + state.rssiGrace.toInt
  else state.rssiThreshold.toInt

theorem ignoresRssi_eq (hash : EtherAddr → UInt64) (state : AwdlState) (src : EtherAddr)
    (rssi : Int8) :
    ignoresRssi hash state src rssi =
      (state.filterRssi && decide (rssi.toInt < rssiBound hash state src)) := by
  unfold ignoresRssi rssiBound
  have found : (awdlPeerGet hash state.peers.peers src).1 = .ok ∨
      (awdlPeerGet hash state.peers.peers src).1 = .missing := by
    unfold awdlPeerGet
    split
    · exact Or.inl rfl
    · exact Or.inr rfl
  rcases found with known | missing
  · have other : (PeersStatus.ok == PeersStatus.missing) = false := rfl
    dsimp only
    rw [known, if_pos rfl, beq_self_eq_true, other, Bool.true_and, Bool.false_and, Bool.or_false]
  · have other : (PeersStatus.missing == PeersStatus.ok) = false := rfl
    dsimp only
    rw [missing, if_neg nofun, beq_self_eq_true, other, Bool.true_and, Bool.false_and,
      Bool.false_or]

/-- A frame, without its check sequence, that reaches the RSSI filter of a node
whose bound lies in the range of the signal strength: an AWDL action frame of
another node. -/
def FilterDecides (platform : Platform) (state : AwdlState) (mpdu : Buf) : Prop :=
  ∃ bytes body subtype, readBytes mpdu 0 ieee80211HdrSize = some bytes ∧
    (Ieee80211Hdr.ofBytes bytes).addr2 ≠ state.selfAddress ∧
    frameType (Ieee80211Hdr.ofBytes bytes).frameControl = ieee80211Action ∧
    bufStrip mpdu ieee80211HdrSize = some body ∧ awdlParseActionHdr body = some subtype ∧
    state.filterRssi = true ∧
    -128 < rssiBound platform.hash state (Ieee80211Hdr.ofBytes bytes).addr2 ∧
    rssiBound platform.hash state (Ieee80211Hdr.ofBytes bytes).addr2 ≤ 127

/-- A filter whose bound is out of range treats all frames alike. -/
theorem ignoresRssi_const {hash : EtherAddr → UInt64} {src : EtherAddr}
    (outside : ¬(state.filterRssi = true ∧ -128 < rssiBound hash state src ∧
      rssiBound hash state src ≤ 127)) (first second : Int8) :
    ignoresRssi hash state src first = ignoresRssi hash state src second := by
  have low := first.le_toInt
  have high := first.toInt_lt
  have alsoLow := second.le_toInt
  have alsoHigh := second.toInt_lt
  rw [ignoresRssi_eq, ignoresRssi_eq]
  cases filters : state.filterRssi with
  | false => rfl
  | true =>
      have outside : ¬(-128 < rssiBound hash state src ∧ rssiBound hash state src ≤ 127) :=
        fun inside => outside ⟨filters, inside⟩
      rw [Bool.true_and, Bool.true_and, decide_eq_decide]
      omega

/-! ## Two calls -/

/-- A frame that fails the check is ignored. -/
theorem rxMpdu_failed {inner : Buf} {flags : UInt8} (failed : checkFcs inner flags = none)
    (rssi : Int8) :
    rxMpdu platform env inner rssi flags out state =
      some ⟨.ignoreFailedCrc, out, state, []⟩ := by
  unfold rxMpdu parseMpdu
  rw [failed]

/-- A frame with a radiotap header that the iterator does not accept is refused. -/
theorem awdlRx_unaccepted {frame : Buf}
    (unaccepted : ¬(0 ≤ (platform.radiotap frame.view).init ∧
      (platform.radiotap frame.view).last = radiotapEnd)) :
    awdlRx platform env frame out state = some ⟨.unexpectedFormat, out, state, []⟩ := by
  have refused : radiotapParse platform frame env.rssi env.flags = none := by
    unfold radiotapParse
    dsimp only
    split
    · rfl
    split
    · rfl
    · rename_i init last
      exact absurd ⟨Int.not_lt.mp init, not_not.mp last⟩ unaccepted
  unfold awdlRx parseFrame
  rw [refused]

/-- A frame that is shorter than its radiotap header is refused. -/
theorem awdlRx_truncated {frame : Buf} (init : 0 ≤ (platform.radiotap frame.view).init)
    (last : (platform.radiotap frame.view).last = radiotapEnd)
    (strip : bufStrip frame (radiotapLen frame.view) = none) :
    awdlRx platform env frame out state = some ⟨.tooShort, out, state, []⟩ := by
  have accepted : radiotapParse platform frame env.rssi env.flags =
      some ((platform.radiotap frame.view).args.foldl radiotapField (env.rssi, env.flags)) := by
    unfold radiotapParse
    dsimp only
    rw [if_neg (Int.not_lt.mpr init), if_neg (not_not.mpr last)]
  unfold radiotapLen at strip
  unfold awdlRx parseFrame
  rw [accepted]
  dsimp only
  rw [strip]

section Signal

variable {inner mpdu : Buf} {flags : UInt8} (checked : checkFcs inner flags = some mpdu)

include checked

/-- Behind the check sequence a frame fails for a reason that has nothing to do
with the locals, or it is dispatched with the signal strength. -/
theorem parseMpdu_cases (state : AwdlState) :
    (∃ result, result ≠ .ignoreFailedCrc ∧
        ∀ rssi, parseMpdu inner rssi flags state = .error result) ∨
      ∃ bytes body, readBytes mpdu 0 ieee80211HdrSize = some bytes ∧
        (Ieee80211Hdr.ofBytes bytes).addr2 ≠ state.selfAddress ∧
        bufStrip mpdu ieee80211HdrSize = some body ∧
        ∀ rssi, parseMpdu inner rssi flags state = .ok ⟨body, .ofBytes bytes, rssi⟩ := by
  unfold parseMpdu
  rw [checked]
  dsimp only
  cases readBytes mpdu 0 ieee80211HdrSize with
  | none => exact Or.inl ⟨.tooShort, nofun, fun _ => rfl⟩
  | some bytes =>
      by_cases own : (Ieee80211Hdr.ofBytes bytes).addr2 = state.selfAddress
      · exact Or.inl ⟨.ignoreFromSelf, nofun, fun _ => if_pos own⟩
      · cases bufStrip mpdu ieee80211HdrSize with
        | none => exact Or.inl ⟨.tooShort, nofun, fun _ => if_neg own⟩
        | some body => exact Or.inr ⟨bytes, body, rfl, own, rfl, fun _ => if_neg own⟩

/-- A frame that passes the check is not ignored as damaged. -/
theorem rxMpdu_passed {rssi : Int8} {outcome : RxOutcome}
    (done : rxMpdu platform env inner rssi flags out state = some outcome) :
    outcome.result ≠ .ignoreFailedCrc := by
  unfold rxMpdu at done
  rcases parseMpdu_cases checked state with ⟨result, other, failed⟩ | ⟨_, _, _, _, _, parsed⟩
  · rw [failed] at done
    cases done
    exact other
  · rw [parsed] at done
    exact dispatchFrame_result done

/-- Two frames that differ in the signal strength only end alike if the filter
cannot tell them apart. -/
theorem rxMpdu_const (undecided : ¬FilterDecides platform state mpdu) (first second : Int8) :
    rxMpdu platform env inner first flags out state =
      rxMpdu platform env inner second flags out state := by
  unfold rxMpdu
  rcases parseMpdu_cases checked state with ⟨result, _, failed⟩ |
    ⟨bytes, body, read, foreign, strip, parsed⟩
  · rw [failed, failed]
  rw [parsed, parsed]
  dsimp only
  unfold dispatchFrame
  dsimp only
  by_cases type : frameType (Ieee80211Hdr.ofBytes bytes).frameControl = ieee80211Action
  · rw [if_pos type, if_pos type]
    unfold awdlRxAction
    cases header : awdlParseActionHdr body with
    | none => rfl
    | some subtype =>
        have alike := ignoresRssi_const (fun inside => undecided
          ⟨bytes, body, subtype, read, foreign, type, strip, header, inside⟩) first second
        dsimp only
        rw [alike]
  · rw [if_neg type, if_neg type]

/-- The filter tells the weakest from the strongest signal. -/
theorem rxMpdu_decided (decided : FilterDecides platform state mpdu) :
    rxMpdu platform env inner (-128) flags out state ≠
      rxMpdu platform env inner 127 flags out state := by
  obtain ⟨bytes, body, subtype, read, foreign, type, strip, header, filters, above, below⟩ :=
    decided
  have weak : ignoresRssi platform.hash state (Ieee80211Hdr.ofBytes bytes).addr2 (-128) = true := by
    rw [ignoresRssi_eq, filters, Bool.true_and, decide_eq_true_iff]
    exact above
  have strong : ignoresRssi platform.hash state (Ieee80211Hdr.ofBytes bytes).addr2 127 = false := by
    rw [ignoresRssi_eq, filters, Bool.true_and, decide_eq_false_iff_not]
    exact not_lt.mpr below
  have parsed : ∀ rssi, parseMpdu inner rssi flags state = .ok ⟨body, .ofBytes bytes, rssi⟩ := by
    intro rssi
    unfold parseMpdu
    rw [checked]
    dsimp only
    rw [read]
    dsimp only
    rw [if_neg foreign, strip]
  have handled : ∀ rssi, rxMpdu platform env inner rssi flags out state =
      (awdlRxAction platform env body rssi env.now (Ieee80211Hdr.ofBytes bytes).addr2
        (Ieee80211Hdr.ofBytes bytes).addr1 state).map
          fun handled => ⟨handled.1, out, handled.2.1, handled.2.2⟩ := by
    intro rssi
    unfold rxMpdu
    rw [parsed]
    exact if_pos type
  have ignored : awdlRxAction platform env body (-128) env.now (Ieee80211Hdr.ofBytes bytes).addr2
      (Ieee80211Hdr.ofBytes bytes).addr1 state = some (.ignoreRssi, state, []) := by
    unfold awdlRxAction
    rw [header]
    dsimp only
    rw [weak, if_pos rfl]
  rw [handled, handled, ignored, Option.map_some]
  intro same
  obtain ⟨⟨result, next, events⟩, done, outcome⟩ := Option.map_eq_some_iff.mp same.symm
  cases outcome
  have admitted := (awdlRxAction_result done).2 rfl
  rw [strong] at admitted
  cases admitted

end Signal

/-- **When a received frame is determined by its inputs.** The header has to
report the flags, unless the frame is refused for its radiotap header, and the
signal strength, unless the frame fails the check or the RSSI filter cannot tell
signal strengths apart. -/
theorem awdlRx_determined_iff (platform : Platform) (env : RxEnv) (frame : Buf) (out : List Buf)
    (state : AwdlState) :
    (∀ rssi flags rssi' flags',
      awdlRx platform { env with rssi := rssi, flags := flags } frame out state =
        awdlRx platform { env with rssi := rssi', flags := flags' } frame out state) ↔
      ∀ inner, 0 ≤ (platform.radiotap frame.view).init →
        (platform.radiotap frame.view).last = radiotapEnd →
        bufStrip frame (radiotapLen frame.view) = some inner →
        ∃ flags, radiotapValue (platform.radiotap frame.view).args 1 = some flags ∧
          ∀ mpdu, checkFcs inner flags = some mpdu → FilterDecides platform state mpdu →
            ∃ rssi, radiotapValue (platform.radiotap frame.view).args 5 = some rssi := by
  constructor
  · intro determined inner init last strip
    simp only [awdlRx_locals init last strip] at determined
    cases present : radiotapValue (platform.radiotap frame.view).args 1 with
    | none =>
        rw [present] at determined
        have same := determined 0 0x40 0 0
        have passed := rxMpdu_passed (rfl : checkFcs inner 0 = some inner) same.symm
        exact absurd rfl passed
    | some flags =>
        refine ⟨flags, rfl, ?_⟩
        intro mpdu checked decided
        rw [present] at determined
        cases signal : radiotapValue (platform.radiotap frame.view).args 5 with
        | none =>
            rw [signal] at determined
            exact absurd (determined (-128) 0 127 0) (rxMpdu_decided checked decided)
        | some rssi => exact ⟨rssi, rfl⟩
  · intro defined rssi flags rssi' flags'
    by_cases accepted : 0 ≤ (platform.radiotap frame.view).init ∧
        (platform.radiotap frame.view).last = radiotapEnd
    · obtain ⟨init, last⟩ := accepted
      cases strip : bufStrip frame (radiotapLen frame.view) with
      | none => rw [awdlRx_truncated init last strip, awdlRx_truncated init last strip]
      | some inner =>
          obtain ⟨value, present, signal⟩ := defined inner init last strip
          rw [awdlRx_locals init last strip, awdlRx_locals init last strip, present]
          cases checked : checkFcs inner value with
          | none =>
              rw [Option.getD_some, Option.getD_some, rxMpdu_failed checked,
                rxMpdu_failed checked]
          | some mpdu =>
              by_cases decided : FilterDecides platform state mpdu
              · obtain ⟨reported, found⟩ := signal mpdu checked decided
                rw [found]
                rfl
              · exact rxMpdu_const checked decided _ _
    · rw [awdlRx_unaccepted accepted, awdlRx_unaccepted accepted]

/-- A frame whose radiotap header has the signal strength but no flags is handled
or ignored as damaged, as the memory has it. -/
theorem awdlRx_undetermined :
    ¬∀ rssi flags rssi' flags',
      awdlRx samplePlatform { sampleEnv 5 with rssi := rssi, flags := flags }
          (bufNewConst (sampleFrame ieee80211Action ⟨2, 0, 0, 0, 0, 2⟩ (sampleActionHdr .psf))) []
          sampleState =
        awdlRx samplePlatform { sampleEnv 5 with rssi := rssi', flags := flags' }
          (bufNewConst (sampleFrame ieee80211Action ⟨2, 0, 0, 0, 0, 2⟩ (sampleActionHdr .psf))) []
          sampleState := by
  intro determined
  have handled : (awdlRx samplePlatform { sampleEnv 5 with rssi := 0, flags := 0 }
      (bufNewConst (sampleFrame ieee80211Action ⟨2, 0, 0, 0, 0, 2⟩ (sampleActionHdr .psf))) []
      sampleState).map (·.result) = some .ok := by
    decide +kernel
  have ignored : (awdlRx samplePlatform { sampleEnv 5 with rssi := 0, flags := 0x40 }
      (bufNewConst (sampleFrame ieee80211Action ⟨2, 0, 0, 0, 0, 2⟩ (sampleActionHdr .psf))) []
      sampleState).map (·.result) = some .ignoreFailedCrc := by
    decide +kernel
  rw [determined 0 0 0 0x40, ignored] at handled
  cases handled

end Owl
