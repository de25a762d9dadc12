import Owl.Awdl.SlotClock
import Owl.Rx.Effect

/-! # Reachable sync states

Whatever a frame contains, it changes the sync state of a node by
`awdl_sync_update_last` and by counting, so the state stays one of those on which
the slot clock runs (`awdlRx_syncReachable`).
-/

namespace Owl

variable {platform : Platform} {env : RxEnv} {long : LongWidth} {state : AwdlState}

theorem awdlHandleSyncParamsTlv_reachable (reachable : SyncReachable long state.sync)
    (src : AwdlPeer) (val : Buf) (now : UInt64) :
    SyncReachable long (awdlHandleSyncParamsTlv long src val state now).2 := by
  unfold awdlHandleSyncParamsTlv
  split
  · exact reachable
  split
  · exact reachable
  split
  · exact reachable
  dsimp only
  split
  · exact .updateLast _ _ _ (reachable.measured _ _)
  · exact .updateLast _ _ _ (reachable.measured state.sync.measErr _)

theorem awdlHandleTlv_reachable (reachable : SyncReachable long state.sync) (list : AwdlChanseq)
    (src : AwdlPeer) (type : UInt8) (val : Buf) (tsft : UInt64) :
    SyncReachable long (awdlHandleTlv long list src type val state tsft).sync := by
  rw [awdlHandleTlv]
  split_ifs
  · exact awdlHandleSyncParamsTlv_reachable reachable src val tsft
  all_goals exact reachable

theorem tlvLoop_reachable (list : Nat → AwdlChanseq) (tsft : UInt64) (fuel : Nat) (frame : Buf)
    (peer : AwdlPeer) (events : List Callback) (reachable : SyncReachable long state.sync) :
    SyncReachable long (tlvLoop long list tsft fuel frame peer state events).state.sync := by
  induction fuel generalizing frame peer state events with
  | zero => exact reachable
  | succ fuel ih =>
      unfold tlvLoop
      split
      · exact reachable
      rename_i type len value _
      have handled := awdlHandleTlv_reachable reachable (list frame.len) peer type
        (bufNewConst value) tsft
      dsimp only
      split
      · exact handled
      · exact ih _ _ _ handled

/-- Behind the TLV loop the sync state is left alone. -/
theorem finishAction_sync {subtype : AwdlActionType} {tsft : UInt64} {src : EtherAddr}
    {walk : TlvWalk} {result : RxResult} {next : AwdlState} {events : List Callback}
    (done : finishAction platform env subtype tsft src walk = some (result, next, events)) :
    next.sync = walk.state.sync := by
  unfold finishAction at done
  split at done
  · cases done
    rfl
  split at done
  · cases done
    rfl
  dsimp only at done
  split at done
  · cases done
  · cases done
    rfl

theorem awdlRxAction_reachable {frame : Buf} {rssi : Int8} {tsft : UInt64} {src dst : EtherAddr}
    {next : AwdlState} {result : RxResult} {events : List Callback}
    (reachable : SyncReachable platform.long state.sync)
    (done : awdlRxAction platform env frame rssi tsft src dst state =
      some (result, next, events)) : SyncReachable platform.long next.sync := by
  unfold awdlRxAction at done
  split at done
  · cases done
    exact reachable
  dsimp only at done
  split at done
  · cases done
    exact reachable
  split at done
  · cases done
  split at done
  · cases done
    exact reachable
  split at done
  · cases done
    exact reachable
  · rw [finishAction_sync done]
    exact tlvLoop_reachable env.list tsft _ _ _ _ reachable

/-- **A received frame keeps the sync state reachable.** -/
theorem awdlRx_syncReachable {frame : Buf} {out : List Buf} {outcome : RxOutcome}
    (reachable : SyncReachable platform.long state.sync)
    (done : awdlRx platform env frame out state = some outcome) :
    SyncReachable platform.long outcome.state.sync := by
  unfold awdlRx at done
  split at done
  · cases done
    exact reachable
  · rename_i rx _
    by_cases type : frameType rx.hdr.frameControl = ieee80211Action
    · rw [dispatchFrame_of_action type] at done
      obtain ⟨⟨result, next, events⟩, handled, rfl⟩ := Option.map_eq_some_iff.mp done
      exact awdlRxAction_reachable reachable handled
    · obtain ⟨counted, _⟩ := dispatchFrame_other type done
      rw [counted]
      exact reachable

end Owl
