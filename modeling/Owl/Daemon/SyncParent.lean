import Owl.Daemon.Neighbors

/-! # The sync master of the node

A received frame makes no peer invalid and removes none, and a clean-up is
followed by an election on what it leaves. So the node follows itself or a valid
peer of its table after every event (`sync_parent_live`).
-/

namespace Owl

open Transition

variable {platform : Platform} {env : RxEnv}

/-- The sync master of an election record is its own node or a valid peer. -/
def SyncParent (election : AwdlElectionState) (map : EtherAddr → Option AwdlPeer) : Prop :=
  election.syncAddr = election.selfAddr ∨ validAt map election.syncAddr = true

/-- An action frame makes no peer invalid. -/
theorem ActionEffect.validAt_le {hash : EtherAddr → UInt64} {frame : Buf} {tsft : UInt64}
    {src : EtherAddr} {state next : AwdlState} {result : RxResult} {events : List Callback}
    (wf : AwdlPeersWf hash state.peers.peers) (cb : state.peerCb = true)
    (allocates : ∀ length, env.peer.calloc length = true)
    (effect : ActionEffect env frame tsft src state next result events) (addr : EtherAddr) :
    validAt state.peers.peers.toMap addr ≤ validAt next.peers.peers.toMap addr := by
  cases effect with
  | refused _ same _ => rw [same]
  | exhausted _ failed _ _ =>
      obtain ⟨length, refusal⟩ := failed
      rw [allocates length] at refusal
      cases refusal
  | aborted updates stored =>
      obtain ⟨_, rise, _⟩ := updates.reports wf cb
      rw [stored, validAt_update]
      split
      · rename_i same
        rw [same]
        exact rise
      · exact le_refl _
  | @completed subtype peer events _ updates stored =>
      obtain ⟨_, rise, _⟩ := updates.reports wf cb
      rw [stored, validAt_update]
      split
      · rename_i same
        rw [same]
        exact le_trans rise (isValid_le_closed subtype peer tsft)
      · exact le_refl _

/-- A received frame makes no peer invalid. -/
theorem RxEffect.validAt_le {hash : EtherAddr → UInt64} {frame : Buf} {state next : AwdlState}
    {result : RxResult} {events : List Callback} (wf : AwdlPeersWf hash state.peers.peers)
    (cb : state.peerCb = true) (allocates : ∀ length, env.peer.calloc length = true)
    (effect : RxEffect platform env frame state next result events) (addr : EtherAddr) :
    validAt state.peers.peers.toMap addr ≤ validAt next.peers.peers.toMap addr := by
  cases effect with
  | untouched _ counted _ => rw [counted]
  | action _ _ effect => exact effect.validAt_le wf cb allocates addr

/-- An election follows the node itself or a valid peer. -/
theorem awdlElectionRun_syncParent {hash : EtherAddr → UInt64} {peers : AwdlPeers}
    (wf : AwdlPeersWf hash peers) (state : AwdlElectionState) :
    SyncParent (awdlElectionRun state peers) peers.toMap := by
  rcases awdlElectionRun_cases wf.table state with ⟨alone, _⟩ | ⟨addr, peer, wins, adopted⟩
  · rw [alone]
    exact Or.inl rfl
  · rw [adopted]
    refine Or.inr ?_
    have parent : (adoptMaster (awdlElectionResetSelf state) peer.election).syncAddr = addr :=
      (wf.keyed addr peer wins.stored).selfAddr_eq
    rw [parent, validAt, wins.stored]
    exact wins.eligible.1

/-- Every event without failed allocations keeps the sync master. -/
theorem AllocatingStep.syncParent {state next : DaemonState} {label : DaemonLabel}
    {output : DaemonOutput} (wf : DaemonWf platform state)
    (parent : SyncParent state.awdlState.election state.awdlState.peers.peers.toMap)
    (step : AllocatingStep platform state label output next) :
    SyncParent next.awdlState.election next.awdlState.peers.peers.toMap := by
  obtain ⟨step, allocates⟩ := step
  cases label with
  | receive env buf =>
      obtain ⟨outcome, done, rfl, _⟩ := step
      obtain ⟨_, same, effect⟩ := awdlReceiveFrame_effect wf.table done
      rw [same.election_eq]
      refine parent.imp_right ?_
      exact Bool.le_iff_imp.mp (effect.validAt_le wf.table wf.peerCb allocates _)
  | clean now =>
      obtain ⟨rfl, _⟩ := step
      obtain ⟨peers, keyed, _, after⟩ := awdlCleanPeers_effect now wf.table
      rw [after]
      exact awdlElectionRun_syncParent keyed state.awdlState.election

/-- **The sync parent is always a live peer.** In every run without failed
allocations no peer has the address of the node, every record carries the address
under which it is stored, and the node follows itself or a valid peer of the table. -/
theorem sync_parent_live (platform : Platform) {name : List UInt8} {election : AwdlElectionState}
    {hostname : List UInt8} {self : EtherAddr} {chan : AwdlChan} {now : UInt64}
    {trace : List (DaemonLabel × DaemonOutput)} {state : DaemonState}
    (run : Run (AllocatingStep platform) (awdlInit name election hostname self chan now) trace
      state) :
    (∀ addr peer, state.awdlState.peers.peers.toMap addr = some peer →
      peer.addr = addr ∧ peer.election.selfAddr = addr ∧ addr ≠ state.awdlState.selfAddress) ∧
    (state.awdlState.election.syncAddr = state.awdlState.selfAddress ∨
      ∃ peer, state.awdlState.peers.peers.toMap state.awdlState.election.syncAddr = some peer ∧
        peer.isValid = true) := by
  have invariant : DaemonWf platform state ∧
      SyncParent state.awdlState.election state.awdlState.peers.peers.toMap := by
    refine run.invariant (fun state => DaemonWf platform state ∧
      SyncParent state.awdlState.election state.awdlState.peers.peers.toMap)
      ⟨awdlInit_wf .., Or.inl rfl⟩ ?_
    rintro state label output next ⟨wf, parent⟩ step
    exact ⟨wf.step step.1, step.syncParent wf parent⟩
  obtain ⟨wf, parent⟩ := invariant
  refine ⟨?_, ?_⟩
  · intro addr peer stored
    have own := wf.table.keyed addr peer stored
    refine ⟨own.addr_eq, own.selfAddr_eq, ?_⟩
    rintro rfl
    cases wf.foreign.symm.trans stored
  · rw [← wf.own]
    refine parent.imp_right ?_
    intro valid
    exact (Option.any_eq_true _ _).mp valid

/-- A daemon that has heard a better node and cleaned up follows it. -/
theorem sync_parent_live_sample : ∃ trace state,
    Run (AllocatingStep samplePlatform) sampleDaemon trace state ∧
      ∃ peer, state.awdlState.peers.peers.toMap ⟨2, 0, 0, 0, 0, 2⟩ = some peer ∧
        peer.isValid = true := by
  have computed : ((awdlReceiveFrame samplePlatform (sampleEnv 3000000)
      (sampleMif ⟨2, 0, 0, 0, 0, 2⟩ 0) sampleDaemon).map fun outcome =>
        let after := (awdlCleanPeers 3000001 outcome.state).1.awdlState
        (after.election.syncAddr, after.selfAddress)) =
      some (⟨2, 0, 0, 0, 0, 2⟩, ⟨2, 0, 0, 0, 0, 1⟩) := by
    decide +kernel
  obtain ⟨outcome, done, after⟩ := Option.map_eq_some_iff.mp computed
  simp only [Prod.mk.injEq] at after
  have run : Run (AllocatingStep samplePlatform) sampleDaemon _
      (awdlCleanPeers 3000001 outcome.state).1 :=
    (Run.nil.cons ⟨.receive done, fun _ => rfl⟩).cons ⟨.clean _ 3000001 _, trivial⟩
  have parent := (sync_parent_live samplePlatform run).2
  rw [after.1, after.2] at parent
  exact ⟨_, _, run, parent.resolve_left (by decide)⟩

end Owl
