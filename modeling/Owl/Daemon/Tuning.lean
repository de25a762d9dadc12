import Owl.Daemon.Accounts

/-! # The channel of the radio

Only the channel timer tunes the radio. In every run of the event loop the radio is on
the channel that the daemon takes for its current one, it is tuned to channels of the
daemon's sequence only and never to the one it is on, and no master indication frame is
sent before it has been tuned (`loop_tunes`).
-/

namespace Owl

open Transition

variable {platform : Platform}

/-- The channels to which the radio has been tuned. -/
def channelsSet (events : List LoopEvent) : List UInt8 :=
  events.filterMap fun
    | .setChannel number => some number
    | _ => none

@[simp] theorem channelsSet_append (first second : List LoopEvent) :
    channelsSet (first ++ second) = channelsSet first ++ channelsSet second :=
  List.filterMap_append

/-- The number of the channel that a node takes for its current one. -/
def currentChannel (state : AwdlState) : UInt8 :=
  awdlChanNum state.channel.current state.channel.enc

/-- What the radio has been told agrees with the state of the node. -/
structure Tuned (enc : AwdlChanEncoding) (sequence : AwdlChanseq) (events : List LoopEvent)
    (state : AwdlState) : Prop where
  encoding : state.channel.enc = enc
  slots : state.channel.sequence = sequence
  radio : (channelsSet events).getLastD 0 = currentChannel state
  changes : (0 :: channelsSet events).IsChain (· ≠ ·)
  listed : ∀ number ∈ channelsSet events, number ≠ 0 ∧
    ∃ slot, number = awdlChanNum (sequence slot) enc
  mif : ∀ before frame after, events = before ++ .action .mif frame :: after →
    channelsSet before ≠ []

section Steps

variable {enc : AwdlChanEncoding} {sequence : AwdlChanseq} {events batch : List LoopEvent}
  {state next : AwdlState} (tuned : Tuned enc sequence events state)

include tuned

/-- Master indication frames that are sent once the radio has been tuned. -/
theorem Tuned.mif_append (mif : ∀ frame, .action .mif frame ∈ batch → channelsSet events ≠ [])
    (before : List LoopEvent) (frame : List UInt8) (after : List LoopEvent)
    (split : events ++ batch = before ++ .action .mif frame :: after) :
    channelsSet before ≠ [] := by
  rcases List.append_eq_append_iff.mp split with ⟨middle, shown, rest⟩ | ⟨middle, shown, rest⟩
  · -- the frame is one of the new ones
    have member : LoopEvent.action .mif frame ∈ batch := by
      rw [rest]
      exact List.mem_append_right _ List.mem_cons_self
    rw [shown, channelsSet_append]
    exact List.append_ne_nil_of_left_ne_nil (mif frame member) _
  · cases middle with
    | nil =>
        have member : LoopEvent.action .mif frame ∈ batch := by
          rw [List.nil_append] at rest
          rw [← rest]
          exact List.mem_cons_self
        rw [List.append_nil] at shown
        rw [← shown]
        exact mif frame member
    | cons event middle =>
        obtain ⟨rfl, _⟩ := List.cons_eq_cons.mp rest
        exact tuned.mif before frame middle shown

/-- Callbacks that do not tune the radio. -/
theorem Tuned.same (channel : next.channel = state.channel) (untuned : channelsSet batch = [])
    (mif : ∀ frame, .action .mif frame ∈ batch → channelsSet events ≠ []) :
    Tuned enc sequence (events ++ batch) next where
  encoding := by rw [channel, tuned.encoding]
  slots := by rw [channel, tuned.slots]
  radio := by
    rw [channelsSet_append, untuned, List.append_nil, tuned.radio, currentChannel, currentChannel,
      channel]
  changes := by
    rw [channelsSet_append, untuned, List.append_nil]
    exact tuned.changes
  listed := by
    rw [channelsSet_append, untuned, List.append_nil]
    exact tuned.listed
  mif := tuned.mif_append mif

/-- **The channel timer tunes the radio to the channel of the slot.** -/
theorem Tuned.switch (long : LongWidth) (now : UInt64) :
    Tuned enc sequence
      (events ++ (awdlSwitchChannel long false now state).setChannel.toList.map .setChannel)
      (awdlSwitchChannel long false now state).state := by
  let chanNew := state.channel.sequence (awdlSlot long now state.sync)
  have current : currentChannel state =
      awdlChanNum state.channel.current state.channel.enc := rfl
  by_cases switches : awdlChanNum chanNew state.channel.enc ≠ 0 ∧
      awdlChanNum chanNew state.channel.enc ≠ currentChannel state
  · have decided : (awdlChanNum chanNew state.channel.enc != 0 &&
        awdlChanNum chanNew state.channel.enc !=
          awdlChanNum state.channel.current state.channel.enc) = true :=
      Bool.and_eq_true_iff.mpr ⟨bne_iff_ne.mpr switches.1, bne_iff_ne.mpr switches.2⟩
    have outcome : (awdlSwitchChannel long false now state).setChannel =
          some (awdlChanNum chanNew state.channel.enc) ∧
        (awdlSwitchChannel long false now state).state =
          { state with channel.current := chanNew } := by
      unfold awdlSwitchChannel
      dsimp only
      rw [decided]
      exact ⟨rfl, rfl⟩
    rw [outcome.1, outcome.2]
    have one : channelsSet [.setChannel (awdlChanNum chanNew state.channel.enc)] =
        [awdlChanNum chanNew state.channel.enc] := rfl
    have appended : channelsSet (events ++
        (some (awdlChanNum chanNew state.channel.enc)).toList.map .setChannel) =
          channelsSet events ++ [awdlChanNum chanNew state.channel.enc] :=
      channelsSet_append events _
    refine ⟨tuned.encoding, tuned.slots, ?_, ?_, ?_, ?_⟩
    · rw [appended, List.getLastD_concat]
      rfl
    · rw [appended, ← List.cons_append, List.isChain_append]
      refine ⟨tuned.changes, List.isChain_singleton _, ?_⟩
      intro last member first head
      rw [List.getLast?_cons, ← List.getLastD_eq_getLast?, tuned.radio] at member
      obtain rfl := Option.some.inj member
      obtain rfl := Option.some.inj head
      exact switches.2.symm
    · rw [appended]
      intro number member
      rcases List.mem_append.mp member with before | new
      · exact tuned.listed number before
      · obtain rfl := List.mem_singleton.mp new
        refine ⟨switches.1, awdlSlot long now state.sync, ?_⟩
        rw [← tuned.encoding, ← tuned.slots]
    · refine tuned.mif_append ?_
      intro frame member
      obtain ⟨_, _, other⟩ := List.mem_map.mp member
      cases other
  · have decided : (awdlChanNum chanNew state.channel.enc != 0 &&
        awdlChanNum chanNew state.channel.enc !=
          awdlChanNum state.channel.current state.channel.enc) = false := by
      rw [Bool.eq_false_iff, Ne, Bool.and_eq_true_iff, bne_iff_ne, bne_iff_ne]
      exact switches
    have outcome : (awdlSwitchChannel long false now state).setChannel = none ∧
        (awdlSwitchChannel long false now state).state = state := by
      unfold awdlSwitchChannel
      dsimp only
      rw [decided]
      exact ⟨rfl, rfl⟩
    rw [outcome.1, outcome.2]
    refine tuned.same rfl rfl ?_
    intro frame member
    exact absurd member List.not_mem_nil

end Steps

/-- Events that neither tune the radio nor send a master indication frame. -/
def LoopEvent.Quiet : LoopEvent → Prop
  | .setChannel _ => False
  | .action .mif _ => False
  | _ => True

theorem Tuned.quiet {enc : AwdlChanEncoding} {sequence : AwdlChanseq}
    {events batch : List LoopEvent} {state next : AwdlState}
    (tuned : Tuned enc sequence events state) (quiet : ∀ event ∈ batch, event.Quiet)
    (channel : next.channel = state.channel) : Tuned enc sequence (events ++ batch) next := by
  refine tuned.same channel ?_ ?_
  · rw [channelsSet, List.filterMap_eq_nil_iff]
    intro event member
    cases event with
    | setChannel number => exact absurd (quiet _ member) id
    | tx _ => rfl
    | action _ _ => rfl
    | deliver _ => rfl
    | peer _ => rfl
  · intro frame member
    exact absurd (quiet _ member) id

/-- Events of one harmless kind. -/
theorem quiet_map {α : Type} (kind : α → LoopEvent) (quiet : ∀ value, (kind value).Quiet)
    (values : List α) : ∀ event ∈ values.map kind, event.Quiet := by
  intro event member
  obtain ⟨value, _, rfl⟩ := List.mem_map.mp member
  exact quiet value

/-- **Every callback leaves the radio where the node takes it to be.** -/
theorem LoopStep.tuned {enc : AwdlChanEncoding} {sequence : AwdlChanseq}
    {events batch : List LoopEvent} {state next : LoopState} {label : LoopLabel}
    (tuned : Tuned enc sequence events state.awdlState)
    (step : LoopStep platform false state label batch next) :
    Tuned enc sequence (events ++ batch) next.awdlState := by
  cases step with
  | @wlanReady env buf outcome done =>
      obtain ⟨kept, _⟩ := awdlReceiveFrame_receives done
      refine tuned.quiet ?_ (by rw [kept])
      intro event member
      rcases List.mem_append.mp member with called | delivered
      · exact quiet_map .peer (fun _ => trivial) _ event called
      · exact quiet_map .deliver (fun _ => trivial) _ event delivered
  | hostReady memory frames multicastNow unicastNow =>
      obtain ⟨same, shown⟩ :=
        @loopHostReady_eq platform memory frames multicastNow unicastNow state
      rw [shown, same]
      exact tuned.quiet (quiet_map .tx (fun _ => trivial) _)
        (hostDeviceReady_transmits memory frames multicastNow unicastNow state.toTxState).2
  | @chanTimer now switched _ done =>
      rw [done]
      exact tuned.switch platform.long now
  | @peerTimer now cleaned done =>
      refine tuned.quiet (quiet_map .peer (fun _ => trivial) _) ?_
      rw [done]
      rfl
  | @psfTimer clock sent done =>
      refine tuned.quiet ?_ ?_
      · intro event member
        rw [List.mem_singleton.mp member]
        trivial
      · rw [done]
        rfl
  | @mifTimer now clock sent _ done =>
      by_cases sends : awdlChanNum state.awdlState.channel.current state.awdlState.channel.enc > 0
      · -- the radio has been tuned, as the node has a channel
        have spec : sent.state.awdlState.channel = state.awdlState.channel := by
          rw [done]
          unfold awdlSendMif
          dsimp only
          rw [if_pos sends]
          rfl
        refine tuned.same spec ?_ ?_
        · cases sent.frame with
          | none => rfl
          | some frame => rfl
        · intro frame _ untuned
          have radio := tuned.radio
          rw [untuned] at radio
          rw [← currentChannel, ← radio] at sends
          exact absurd sends (by decide)
      · have nothing : sent = ⟨none, state.toDaemonState, sent.delay⟩ := by
          rw [done]
          unfold awdlSendMif
          dsimp only
          rw [if_neg sends]
        rw [nothing]
        exact tuned.quiet (List.forall_mem_nil _) rfl
  | txTimer now _ =>
      exact tuned.quiet (quiet_map .tx (fun _ => trivial) _)
        (awdlSendUnicast_transmits now state.toTxState).2
  | txMcastTimer now _ =>
      exact tuned.quiet (quiet_map .tx (fun _ => trivial) _)
        (awdlSendMulticast_transmits now state.toTxState).2

/-- A slot with a channel tunes the node to it. -/
theorem awdlSwitchChannel_tunes {long : LongWidth} {wlanIsFile : Bool} {now : UInt64}
    {state : AwdlState}
    (present : awdlChanNum (state.channel.sequence (awdlSlot long now state.sync))
      state.channel.enc ≠ 0) :
    currentChannel (awdlSwitchChannel long wlanIsFile now state).state =
      awdlChanNum (state.channel.sequence (awdlSlot long now state.sync)) state.channel.enc := by
  unfold awdlSwitchChannel
  dsimp only
  split
  · rfl
  · rename_i stays
    rw [Bool.not_eq_true, Bool.and_eq_false_iff, bne_eq_false_iff_eq, bne_eq_false_iff_eq]
      at stays
    exact (stays.resolve_left present).symm

theorem loop_tuned {daemon : DaemonState} {memory : List HostBuf}
    {size : memory.length = multicastQueueSize} {trace : List (LoopLabel × List LoopEvent)}
    {state : LoopState} (untuned : currentChannel daemon.awdlState = 0)
    (run : Run (LoopStep platform false) (loopInit daemon memory size) trace state) :
    Tuned daemon.awdlState.channel.enc daemon.awdlState.channel.sequence (loopEvents trace)
      state.awdlState := by
  refine run.trace_invariant (fun trace (state : LoopState) =>
    Tuned daemon.awdlState.channel.enc daemon.awdlState.channel.sequence (loopEvents trace)
      state.awdlState) ?_ ?_
  · refine ⟨rfl, rfl, untuned.symm, List.isChain_singleton 0, List.forall_mem_nil _, ?_⟩
    intro before frame after split
    have length := congrArg List.length split
    rw [List.length_append, List.length_cons] at length
    exact absurd length (by rw [loopEvents_nil, List.length_nil]; omega)
  · intro trace state label events next tuned step
    rw [loopEvents_cons]
    exact step.tuned tuned

/-- **The radio and the node agree.** In every run of a daemon that starts without a
channel, the last channel set is the current one of the node; every channel set is a
channel of its sequence and another one than the radio was on; every master indication
frame is sent after the radio has been tuned; and after the channel timer the radio is
on the channel of the slot, if the slot has one. -/
theorem loop_tunes {daemon : DaemonState} {memory : List HostBuf}
    {size : memory.length = multicastQueueSize} {trace : List (LoopLabel × List LoopEvent)}
    {state : LoopState} (untuned : currentChannel daemon.awdlState = 0)
    (run : Run (LoopStep platform false) (loopInit daemon memory size) trace state) :
    (channelsSet (loopEvents trace)).getLastD 0 = currentChannel state.awdlState ∧
      (0 :: channelsSet (loopEvents trace)).IsChain (· ≠ ·) ∧
      (∀ number ∈ channelsSet (loopEvents trace), number ≠ 0 ∧ ∃ slot, number =
        awdlChanNum (daemon.awdlState.channel.sequence slot) daemon.awdlState.channel.enc) ∧
      (∀ before frame after, loopEvents trace = before ++ .action .mif frame :: after →
        channelsSet before ≠ []) ∧
      ∀ now events next, LoopStep platform false state (.chanTimer now) events next →
        let number := awdlChanNum (daemon.awdlState.channel.sequence
          (awdlSlot platform.long now state.awdlState.sync)) daemon.awdlState.channel.enc
        number ≠ 0 → (channelsSet (loopEvents trace ++ events)).getLastD 0 = number := by
  have tuned := loop_tuned untuned run
  refine ⟨tuned.radio, tuned.changes, tuned.listed, tuned.mif, ?_⟩
  intro now events next step number present
  rw [(step.tuned tuned).radio]
  cases step with
  | @chanTimer _ switched _ done =>
      have listed : awdlChanNum (state.awdlState.channel.sequence
          (awdlSlot platform.long now state.awdlState.sync)) state.awdlState.channel.enc =
            number := by
        rw [tuned.slots, tuned.encoding]
      rw [done]
      dsimp only
      rw [awdlSwitchChannel_tunes (by rw [listed]; exact present)]
      exact listed

/-- The first call of the channel timer tunes the radio. -/
theorem loop_tunes_first : ∃ trace state,
    Run (LoopStep samplePlatform false) sampleLoop trace state ∧
      currentChannel state.awdlState = 6 ∧
      (channelsSet (loopEvents trace)).getLastD 0 = 6 := by
  have switch : LoopStep samplePlatform false sampleLoop (.chanTimer 0) _ _ :=
    .chanTimer rfl rfl
  have run := Run.nil.cons switch
  obtain ⟨radio, _⟩ := loop_tunes (by decide) run
  refine ⟨_, _, run, ?_, radio.trans ?_⟩
  · decide +kernel
  · decide +kernel

end Owl
