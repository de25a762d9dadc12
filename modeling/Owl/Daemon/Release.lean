import Owl.Daemon.Data
import Owl.Rx.AmsduGrammar

/-! # What becomes of converted frames

`awdl_rx` stores a new buffer for every frame it converts. `awdl_receive_frame` sends
the buffers to the host and frees them if the result is `RX_OK`, and forgets them
otherwise. A single data frame stores its buffer as its last act
(`dispatchFrame_stores_last`); an aggregate may still fail behind a subframe that has
been converted, and then the buffers are lost.
-/

namespace Owl

variable {platform : Platform} {env : RxEnv}

/-- The buffers that `awdl_receive_frame` takes over again: it sends each of them to
the host and frees it. -/
def ReceiveOutcome.released (outcome : ReceiveOutcome) : List Buf :=
  if outcome.result = .ok then outcome.stored else []

/-- Every buffer that has been stored is released, once and in order. A buffer that is
stored behind the end of the output array is not there to be released. -/
def ReceiveOutcome.Conserves (outcome : ReceiveOutcome) : Prop :=
  outcome.stored.length ≤ maxNumAmpdu ∧ outcome.released = outcome.stored

theorem ReceiveOutcome.conserves_iff (outcome : ReceiveOutcome) :
    outcome.Conserves ↔
      outcome.result = .ok ∧ outcome.stored.length ≤ maxNumAmpdu ∨ outcome.stored = [] := by
  unfold Conserves released
  by_cases ok : outcome.result = .ok
  · rw [if_pos ok, and_iff_left rfl, and_iff_right ok, or_iff_left_of_imp]
    intro nothing
    rw [nothing]
    exact Nat.zero_le _
  · rw [if_neg ok, or_iff_right fun both => ok both.1]
    constructor
    · rintro ⟨_, nothing⟩
      exact nothing.symm
    · intro nothing
      rw [nothing]
      exact ⟨Nat.zero_le _, rfl⟩

/-- The buffers that are released are those sent to the host. -/
theorem awdlReceiveFrame_sent {bytes : List UInt8} {state : DaemonState}
    {outcome : ReceiveOutcome} (done : awdlReceiveFrame platform env bytes state = some outcome) :
    outcome.sent = outcome.released.map Buf.view := by
  obtain ⟨received, -, rfl⟩ := Option.map_eq_some_iff.mp done
  unfold ReceiveOutcome.released
  dsimp only
  split <;> rfl

/-! ## Single frames -/

/-- `awdl_rx_data` stores a buffer only if it succeeds. -/
theorem awdlRxData_stores_last (frame : Buf) (out : List Buf) (src dst : EtherAddr)
    (state : AwdlState) :
    (awdlRxData platform env frame out src dst state).1 = .ok ∨
      (awdlRxData platform env frame out src dst state).2.1 = out := by
  unfold awdlRxData
  dsimp only
  split_ifs
  · exact Or.inr rfl
  · exact Or.inr rfl
  · exact Or.inr rfl
  · exact Or.inl rfl

/-- A frame that is no aggregate stores a buffer only if it succeeds. -/
theorem dispatchFrame_stores_last {rx : RxFrame} {out : List Buf} {state : AwdlState}
    {outcome : RxOutcome} (single : amsduBody rx = none)
    (done : dispatchFrame platform env rx out state = some outcome) :
    outcome.result = .ok ∨ outcome.out = out := by
  rcases dispatchFrame_single single done with same | ⟨body, rfl⟩
  · exact Or.inr same
  · exact awdlRxData_stores_last ..

/-! ## Aggregates -/

/-- A subframe is rejected if it comes from a known peer and is malformed. -/
theorem AmsduSubframe.accepted_iff_wellFormed (sub : AmsduSubframe) (state : AwdlState) :
    sub.Accepted platform env state ↔
      ¬Knows platform.hash state sub.src ∨ WellFormedBody sub.body := by
  unfold Accepted rxData
  by_cases known : Knows platform.hash state sub.src
  · rw [or_iff_right (not_not.mpr known)]
    by_cases wellFormed : WellFormedBody sub.body
    · have enough := wellFormed.2
      rw [← view_bufNewConst sub.body] at enough
      rw [awdlRxData_stores known wellFormed.1 enough]
      exact iff_of_true (show (0 : Int) ≤ RxResult.code .ok by decide) wellFormed
    · have failed := (@awdlRxData_malformed platform env [] _ sub.dst _ (bufNewConst sub.body) known
        fun valid => by
          rw [view_bufNewConst]
          exact Nat.lt_of_not_le fun enough => wellFormed ⟨valid, enough⟩).1
      exact iff_of_false (Int.not_le.mpr failed) wellFormed
  · rw [awdlRxData_unknown known]
    exact iff_of_true (show (0 : Int) ≤ RxResult.code .ignorePeer by decide) (Or.inl known)

/-- The body of an aggregate is cut nowhere, and no subframe of a known peer in it is
malformed. -/
def WellFormedAmsdu (hash : EtherAddr → UInt64) (state : AwdlState) (body : List UInt8) : Prop :=
  ∃ subs, AmsduString subs body ∧ ∀ sub ∈ subs, ¬Knows hash state sub.src ∨ WellFormedBody sub.body

theorem amsduLoop_ok_iff (frame : Buf) (out : List Buf) (state : AwdlState) :
    (amsduLoop platform env frame.len frame out state).1 = .ok ↔
      WellFormedAmsdu platform.hash state frame.view := by
  unfold WellFormedAmsdu
  simp only [← @AmsduSubframe.accepted_iff_wellFormed platform env]
  constructor
  · exact exists_amsduString (Nat.le_refl _)
  · rintro ⟨subs, aggregate, all⟩
    exact (amsduLoop_amsduString aggregate rfl (Nat.le_refl _) all).1

/-- The converted frames are released exactly if the captured frame is no aggregate, or
an aggregate without a defect that delivers no more subframes than the output array has
entries, or one whose first defect comes before any subframe that is delivered. -/
theorem awdlReceiveFrame_conserves_iff {bytes : List UInt8} {state : DaemonState}
    {outcome : ReceiveOutcome} (done : awdlReceiveFrame platform env bytes state = some outcome) :
    outcome.Conserves ↔ ∀ rx body,
      parseFrame platform env (bufNewConst bytes) state.awdlState = .ok rx →
      amsduBody rx = some body →
      WellFormedAmsdu platform.hash state.awdlState body ∧
          (deliveredSubframes platform.hash state.awdlState
            (amsduSubframes body.length body)).length ≤ maxNumAmpdu ∨
        deliveredSubframes platform.hash state.awdlState
          (amsduSubframes body.length body) = [] := by
  rw [outcome.conserves_iff]
  obtain ⟨received, handled, rfl⟩ := Option.map_eq_some_iff.mp done
  dsimp only
  unfold awdlRx at handled
  cases parsed : parseFrame platform env (bufNewConst bytes) state.awdlState with
  | error result =>
      rw [parsed] at handled
      cases handled
      exact iff_of_true (Or.inr rfl) fun rx body impossible => by cases impossible
  | ok rx =>
      rw [parsed] at handled
      dsimp only at handled
      cases aggregate : amsduBody rx with
      | none =>
          have single := dispatchFrame_out handled
          rw [aggregate] at single
          have fits : received.out.length ≤ maxNumAmpdu := Nat.le_trans single (by decide)
          refine iff_of_true ((dispatchFrame_stores_last aggregate handled).imp_left
            fun ok => ⟨ok, fits⟩) ?_
          rintro _ _ ⟨⟩ same
          rw [aggregate] at same
          cases same
      | some body =>
          have stored := dispatchFrame_out handled
          rw [aggregate] at stored
          obtain ⟨inner, viewed, dispatched⟩ :=
            @dispatchFrame_amsdu platform env rx body aggregate [] state.awdlState
          cases dispatched.symm.trans handled
          rw [amsduLoop_ok_iff, viewed, ← List.length_eq_zero_iff, stored,
            List.length_eq_zero_iff]
          constructor
          · rintro condition _ _ ⟨⟩ same
            rw [aggregate] at same
            cases same
            exact condition
          · intro condition
            exact condition rx body rfl aggregate

/-- An aggregate of two subframes stores two buffers and both are released. -/
theorem awdlReceiveFrame_conserves_iff_two : ∃ met outcome, sampleMeeting = some met ∧
    awdlReceiveFrame samplePlatform (sampleEnv 6) (sampleAmsdu ⟨2, 0, 0, 0, 0, 2⟩ 2) met.state =
      some outcome ∧ outcome.stored.length = 2 ∧ outcome.Conserves := by
  have evaluated : (sampleMeeting.bind fun met =>
      (awdlReceiveFrame samplePlatform (sampleEnv 6) (sampleAmsdu ⟨2, 0, 0, 0, 0, 2⟩ 2)
        met.state).bind fun outcome =>
          (parseFrame samplePlatform (sampleEnv 6)
              (bufNewConst (sampleAmsdu ⟨2, 0, 0, 0, 0, 2⟩ 2)) met.state.awdlState).toOption.bind
            fun rx => (amsduBody rx).map fun body => (outcome.stored.length,
              (amsduLoop samplePlatform (sampleEnv 6) (bufNewConst body).len (bufNewConst body) []
                met.state.awdlState).1,
              (deliveredSubframes samplePlatform.hash met.state.awdlState
                (amsduSubframes body.length body)).length)) = some (2, .ok, 2) := by
    decide +kernel
  obtain ⟨met, meeting, evaluated⟩ := Option.bind_eq_some_iff.mp evaluated
  obtain ⟨outcome, done, evaluated⟩ := Option.bind_eq_some_iff.mp evaluated
  obtain ⟨rx, parsed, evaluated⟩ := Option.bind_eq_some_iff.mp evaluated
  obtain ⟨body, aggregate, found⟩ := Option.map_eq_some_iff.mp evaluated
  simp only [Prod.mk.injEq] at found
  obtain ⟨stored, accepted, two⟩ := found
  refine ⟨met, outcome, meeting, done, stored, (awdlReceiveFrame_conserves_iff done).mpr ?_⟩
  intro other otherBody otherParsed otherAggregate
  rw [otherParsed, Except.toOption] at parsed
  cases parsed
  cases aggregate.symm.trans otherAggregate
  refine Or.inl ⟨?_, by rw [two]; decide⟩
  have wellFormed := (amsduLoop_ok_iff _ _ _).mp accepted
  rw [view_bufNewConst] at wellFormed
  exact wellFormed

/-- Behind a subframe that has been converted, an aggregate is cut: the buffer is lost. -/
theorem awdlReceiveFrame_loses_buffer : ∃ met outcome, sampleMeeting = some met ∧
    awdlReceiveFrame samplePlatform (sampleEnv 6) (sampleAmsdu ⟨2, 0, 0, 0, 0, 2⟩ 1 ++ [1])
      met.state = some outcome ∧ outcome.stored.length = 1 ∧ outcome.released = [] ∧
      ¬outcome.Conserves := by
  have evaluated : (sampleMeeting.bind fun met =>
      (awdlReceiveFrame samplePlatform (sampleEnv 6) (sampleAmsdu ⟨2, 0, 0, 0, 0, 2⟩ 1 ++ [1])
        met.state).map fun outcome => (outcome.stored.length, outcome.released.length)) =
          some (1, 0) := by
    decide +kernel
  obtain ⟨met, meeting, received⟩ := Option.bind_eq_some_iff.mp evaluated
  obtain ⟨outcome, done, lengths⟩ := Option.map_eq_some_iff.mp received
  obtain ⟨stored, released⟩ := Prod.mk.inj lengths
  refine ⟨met, outcome, meeting, done, stored, List.length_eq_zero_iff.mp released, ?_⟩
  intro conserved
  rw [conserved.2, stored] at released
  cases released

end Owl
