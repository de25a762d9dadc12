import Owl.Daemon.Retries
import Owl.Daemon.Stabilise
import Owl.Daemon.Windows
import Owl.Tx.SyncLag

/-! # A network comes into step

Once the election has stabilised, every daemon follows one neighbour for good
(`network_sync_tree`). From then on the place of the leader in the channel sequence spreads
along this tree, one hop further with every round. A daemon lags behind the leader by less
than a time unit and the delay of a frame for each hop (`network_synchronises`), so the
guard interval for multicast frames covers the greatest height that the election admits,
and all daemons are in one slot whenever a multicast frame is handed over
(`network_shares_multicast_slots`).
-/

namespace Owl

open Transition

variable {Node : Type} {platform : Node → Platform} {graph : SimpleGraph Node}
  {identity : Node → AwdlElectionState}

/-! ## The tree -/

variable (graph identity) in
/-- A record that is settled: near enough to the leader at the right height, and below the
parent. -/
def Attached (leader node : Node) (record : AwdlElectionState) : Prop :=
  Drawn graph identity leader 22 node record ∧
    (node ≠ leader → ∃ parent, Parent graph identity leader node parent ∧
      record.syncAddr = (identity parent).selfAddr)

variable (platform graph identity) in
/-- A network with the tree of parents below its leader. -/
def Tree (leader : Node) (net : Node → DaemonState) : Prop :=
  Acquainted platform graph identity net ∧ At graph identity (Attached graph identity leader) net

section Tree

variable [DecidableEq Node] {net after : Node → DaemonState} {label : RadioLabel Node}
  {output : Option RxResult} {trace : List (RadioLabel Node × Option RxResult)} {leader : Node}
  (leads : Leads identity leader) (distinct : Function.Injective fun i => (identity i).selfAddr)
  (connected : graph.Connected)
  (near : ∀ i, graph.dist leader i ≤ awdlElectionTreeMaxHeight.toNat)

include leads distinct connected near

omit [DecidableEq Node] in
/-- An election among acquainted daemons with settled records. -/
theorem Acquainted.attach (acquainted : Acquainted platform graph identity net) {i : Node}
    {record : AwdlElectionState} (own : Identified identity i record)
    (table : Surrounded graph identity (Drawn graph identity leader 22) i
      (net i).awdlState.peers.peers) :
    Attached graph identity leader i
      (awdlElectionRun record (net i).awdlState.peers.peers) := by
  refine ⟨(acquainted.elect leads distinct connected near own table).mono (by decide), ?_⟩
  exact Drawn.elect_parent leads distinct connected near (acquainted.1 i).table.table own table
    fun j edge => acquainted.2 i j edge

/-- Once all records are at the right height, one more round makes the tree. -/
theorem DrawnAfter.tree (drawn : DrawnAfter platform graph identity leader 23 net)
    (run : Run (SteadyStep platform graph) net trace after) (round : IsRound graph trace) :
    Tree platform graph identity leader after := by
  obtain ⟨acquainted, drawn⟩ := drawn
  refine ⟨acquainted.1.acquainted distinct run round, ?_⟩
  exact At.round SteadyStep.radio distinct
    (fun _ (acquainted : Acquainted platform graph identity _) => acquainted.1)
    (fun _ _ _ _ acquainted step => acquainted.step distinct step)
    (fun _ _ attached => attached.1)
    (fun net i record acquainted own table =>
      acquainted.attach leads distinct connected near own table) drawn acquainted run round

theorem Tree.step (tree : Tree platform graph identity leader net)
    (step : SteadyStep platform graph net label output after) :
    Tree platform graph identity leader after := by
  obtain ⟨acquainted, attached⟩ := tree
  refine ⟨acquainted.step distinct step, ?_⟩
  exact attached.step SteadyStep.radio
    (fun _ (acquainted : Acquainted platform graph identity _) => acquainted.1)
    (fun _ _ _ _ acquainted step => acquainted.step distinct step) (fun _ _ attached => attached)
    (fun net i record acquainted own table =>
      acquainted.attach leads distinct connected near own
        (table.mono fun _ _ attached => attached.1)) acquainted step

theorem tree_after {start middle : Node → DaemonState}
    (stations : Stations platform graph identity start)
    (rounds : Rounds (SteadyStep platform graph) (IsRound graph) start 24 middle) :
    Tree platform graph identity leader middle := by
  cases rounds with
  | succ before run round =>
      have drawn : DrawnAfter platform graph identity leader 23 _ :=
        before.climb (DrawnAfter platform graph identity leader) stations
          fun _ _ _ _ drawn run round => drawn.round leads distinct connected near run round
      exact drawn.tree leads distinct connected near run round

end Tree

/-- **The sync tree is final.** In a network as in `network_stabilises`, after 24 rounds from
any records every daemon but the leader follows, of the neighbours that are one hop closer
to the leader, the one with the greatest address, and no step changes this any more. -/
theorem network_sync_tree [DecidableEq Node] {start middle net : Node → DaemonState}
    {trace : List (RadioLabel Node × Option RxResult)} (inRange : InRange platform graph start)
    {leader : Node} (leads : Leads (fun i => (start i).awdlState.election) leader)
    (connected : graph.Connected)
    (near : ∀ i, graph.dist leader i ≤ awdlElectionTreeMaxHeight.toNat)
    (rounds : Rounds (SteadyStep platform graph) (IsRound graph) start 24 middle)
    (run : Run (SteadyStep platform graph) middle trace net) {i : Node} (other : i ≠ leader) :
    (net i).awdlState.election.syncAddr = (middle i).awdlState.election.syncAddr ∧
      ∃ parent, graph.Adj i parent ∧ graph.dist leader parent + 1 = graph.dist leader i ∧
        (net i).awdlState.election.syncAddr = (net parent).awdlState.selfAddress ∧
        ∀ closer, graph.Adj i closer → graph.dist leader closer + 1 = graph.dist leader i →
          (net closer).awdlState.selfAddress.toNat ≤
            (net parent).awdlState.selfAddress.toNat := by
  have distinct := inRange.distinct_election
  have before := tree_after leads distinct connected near inRange.stations rounds
  have after := run.invariant (Tree platform graph _ leader) before
    fun _ _ _ _ tree step => tree.step leads distinct connected near step
  obtain ⟨first, isFirst, sync⟩ := (before.2 i).1.2 other
  obtain ⟨parent, isParent, follows⟩ := (after.2 i).1.2 other
  have same : (start first).awdlState.election.selfAddr.toNat =
      (start parent).awdlState.election.selfAddr.toNat :=
    le_antisymm (isParent.greatest first isFirst.edge isFirst.closer)
      (isFirst.greatest parent isParent.edge isParent.closer)
  have stations := after.1.1
  refine ⟨?_, parent, isParent.edge, isParent.closer, ?_, ?_⟩
  · rw [follows, sync]
    exact (EtherAddr.toNat_injective same).symm
  · rw [follows, (stations parent).selfAddress]
  · intro closer edge close
    rw [(stations closer).selfAddress, (stations parent).selfAddress]
    exact isParent.greatest closer edge close

/-- On a path of three daemons the far end follows the one between for good. -/
theorem network_sync_tree_path : ∃ net,
    Rounds (SteadyStep (fun _ => samplePlatform) pathOfThree) (IsRound pathOfThree) stalePath 24
        net ∧
      (net (some false)).awdlState.election.syncAddr = (net none).awdlState.selfAddress := by
  obtain ⟨net, rounds, _⟩ := stalePath_ready.rounds stalePath_inRange.distinct_election
    (fun _ => samplePlatform_acceptsTxHeader) 24
  obtain ⟨_, parent, edge, _, follows, _⟩ := network_sync_tree stalePath_inRange stalePath_leads
    pathOfThree_connected pathOfThree_near rounds .nil (show some false ≠ some true by decide)
  cases parent with
  | none => exact ⟨net, rounds, follows⟩
  | some _ => exact absurd rfl edge

/-! ## Clocks -/

variable (platform graph) in
/-- A step of a network whose daemons have clocks that are ahead of a common time by fixed
offsets. A captured frame is read at most `delay` microseconds after its sync parameters
were written. -/
inductive ClockedStep [DecidableEq Node] (offset : Node → UInt64) (delay : ℕ)
    (net : Node → DaemonState) :
    RadioLabel Node → Option RxResult → (Node → DaemonState) → Prop
  | hear {i j : Node} {type : AwdlActionType} {env : RxEnv} {bytes : List UInt8}
      {clock : TxClock} {outcome : ReceiveOutcome} (edge : graph.Adj i j)
      (carries : Carries (platform i) env bytes (net i).awdlState
        ⟨(net j).awdlState, (platform j).long, clock, type⟩)
      (done : awdlReceiveFrame (platform i) env bytes (net i) = some outcome)
      {written late : UInt64} (prompt : late.toNat ≤ delay)
      (writes : clock.sync = written + offset j) (reads : env.now = written + late + offset i) :
      ClockedStep offset delay net (.hear i j type) (some outcome.result)
        (Function.update net i outcome.state)
  | clean {i : Node} (now : UInt64) :
      ClockedStep offset delay net (.clean i) none
        (Function.update net i (awdlCleanPeers now (net i)).1)
  | work {i : Node} {next : DaemonState} (other : Background (net i).awdlState next.awdlState) :
      ClockedStep offset delay net (.work i) none (Function.update net i next)

variable (platform graph) in
/-- A step with clocks with which no daemon loses a peer. -/
def SteadyClockedStep [DecidableEq Node] (offset : Node → UInt64) (delay : ℕ)
    (net : Node → DaemonState) (label : RadioLabel Node) (output : Option RxResult)
    (after : Node → DaemonState) : Prop :=
  ClockedStep platform graph offset delay net label output after ∧
    ∀ i addr, ((net i).awdlState.peers.peers.toMap addr).isSome →
      ((after i).awdlState.peers.peers.toMap addr).isSome

/-- The slot clock of a daemon. -/
def slotClock (platform : Node → Platform) (offset : Node → UInt64) (net : Node → DaemonState)
    (i : Node) : ClockNode :=
  ⟨(platform i).long, (net i).awdlState.sync, offset i⟩

section Clocks

variable [DecidableEq Node] {offset : Node → UInt64} {delay : ℕ} {net after : Node → DaemonState}
  {label : RadioLabel Node} {output : Option RxResult} {i j : Node}

theorem SteadyClockedStep.steady (net : Node → DaemonState) (label : RadioLabel Node)
    (output : Option RxResult) (after : Node → DaemonState)
    (step : SteadyClockedStep platform graph offset delay net label output after) :
    SteadyStep platform graph net label output after := by
  obtain ⟨step, known⟩ := step
  refine ⟨?_, known⟩
  cases step with
  | hear edge carries done _ _ _ => exact .hear edge carries done
  | clean now => exact .clean now
  | work other => exact .work other

omit [DecidableEq Node] in
/-- A captured frame changes the sync state if it is accepted and the sender is the sync
master, and then the node takes over the phase of the master. -/
theorem Station.hear_sync {env : RxEnv} {bytes : List UInt8} {clock : TxClock}
    {type : AwdlActionType} {outcome : ReceiveOutcome}
    (receiver : Station platform graph identity i (net i).awdlState)
    (sender : Station platform graph identity j (net j).awdlState)
    (carries : Carries (platform i) env bytes (net i).awdlState
      ⟨(net j).awdlState, (platform j).long, clock, type⟩)
    (done : awdlReceiveFrame (platform i) env bytes (net i) = some outcome) :
    outcome.state.awdlState.sync = (net i).awdlState.sync ∧
        (outcome.result = .ok →
          (net i).awdlState.election.syncAddr ≠ (identity j).selfAddr) ∨
      (net i).awdlState.election.syncAddr = (identity j).selfAddr ∧
        ∃ before, SyncReachable (platform i).long before ∧ outcome.state.awdlState.sync =
          awdlSyncUpdateLast (platform i).long env.now
            (awdlSyncNextAwTu (platform j).long clock.sync (net j).awdlState.sync)
            (awdlSyncCurrentAw (platform j).long clock.sync (net j).awdlState.sync) before := by
  obtain ⟨rx, received, rfl⟩ := Option.map_eq_some_iff.mp done
  have counted : (countUnknown rx.result rx.state).sync = rx.state.sync := by
    unfold countUnknown
    split <;> rfl
  dsimp only
  rw [counted]
  unfold awdlRx at received
  split at received
  · rename_i result failed
    cases received
    exact Or.inl ⟨rfl, fun ok => absurd ok (parseFrame_error failed)⟩
  rename_i parsed opened
  obtain ⟨src, action, viewed⟩ := carries parsed opened
  rw [dispatchFrame_of_action action] at received
  obtain ⟨⟨result, next, events⟩, handled, rfl⟩ := Option.map_eq_some_iff.mp received
  dsimp only
  rw [src] at handled
  rw [← sender.selfAddress]
  by_cases follows : (net i).awdlState.election.syncAddr = (net j).awdlState.selfAddress
  · rcases awdlRxAction_heard sender.advertises receiver.table receiver.sync.wf.presenceMode
      viewed handled with ⟨failed, kept, _⟩ | ⟨rfl, _⟩
    · exact Or.inl ⟨kept, fun ok => absurd ok failed⟩
    · obtain ⟨measErr, measTotal, synced⟩ :=
        awdlRxAction_follows sender.advertises receiver.table viewed follows handled
      exact Or.inr ⟨follows, _, receiver.sync.measured measErr measTotal, synced⟩
  · obtain ⟨_, _, effect⟩ := awdlRxAction_effect receiver.table handled
    refine Or.inl ⟨?_, fun _ => follows⟩
    cases effect with
    | refused _ _ sync => exact sync
    | exhausted _ _ sync _ => exact sync
    | aborted updates _ => exact updates.sync follows
    | completed _ updates _ => exact updates.sync follows

/-- **What a step does to the slot clock of a daemon.** It is left alone, or set to that of
the sync master with a small lag. -/
theorem ClockedStep.lags (stations : Stations platform graph identity net)
    (step : ClockedStep platform graph offset delay net label output after) (i : Node) :
    (after i).awdlState.sync = (net i).awdlState.sync ∧
        (∀ j type, (label, output) = (.hear i j type, some .ok) →
          (net i).awdlState.election.syncAddr ≠ (identity j).selfAddr) ∨
      ∃ j, graph.Adj i j ∧ (net i).awdlState.election.syncAddr = (identity j).selfAddr ∧
        ∃ lag, lag ≤ 1023 + delay ∧
          Lags (slotClock platform offset after i) (slotClock platform offset net j) lag := by
  cases step with
  | @hear k j type env bytes clock outcome edge carries done written late prompt writes reads =>
      by_cases same : i = k
      · subst same
        rcases (stations i).hear_sync (stations j) carries done with
          ⟨kept, deaf⟩ | ⟨follows, before, reachable, synced⟩
        · left
          rw [Function.update_self]
          refine ⟨kept, ?_⟩
          rintro _ _ heard
          simp only [Prod.mk.injEq, RadioLabel.hear.injEq, Option.some.injEq, true_and] at heard
          obtain ⟨⟨rfl, _⟩, ok⟩ := heard
          exact deaf ok
        · right
          rw [reads, writes] at synced
          obtain ⟨lost, small, lags⟩ := @Lags.follow (slotClock platform offset net j)
            (slotClock platform offset (Function.update net i outcome.state) i) before written late
            (stations j).sync.wf reachable.wf (by
              dsimp only [slotClock]
              rw [Function.update_self]
              exact synced)
          exact ⟨j, edge, follows, _, by omega, lags⟩
      · left
        rw [Function.update_of_ne same]
        refine ⟨rfl, ?_⟩
        rintro _ _ heard
        simp only [Prod.mk.injEq, RadioLabel.hear.injEq] at heard
        exact absurd heard.1.1.symm same
  | @clean k now =>
      left
      refine ⟨?_, fun _ _ heard => by cases heard⟩
      by_cases same : i = k
      · subst same
        rw [Function.update_self]
        rfl
      · rw [Function.update_of_ne same]
  | @work k next other =>
      left
      refine ⟨?_, fun _ _ heard => by cases heard⟩
      by_cases same : i = k
      · subst same
        rw [Function.update_self]
        exact other.sync
      · rw [Function.update_of_ne same]

end Clocks

/-! ## Lags along the tree -/

variable (platform graph) in
/-- A daemon lags behind a clock by at most so much for each hop to the leader. -/
def InStep (offset : Node → UInt64) (delay : ℕ) (leader : Node) (reference : ClockNode) (i : Node)
    (net : Node → DaemonState) : Prop :=
  ∃ lag, lag ≤ (1023 + delay) * graph.dist leader i ∧
    Lags (slotClock platform offset net i) reference lag

section InStep

variable {offset : Node → UInt64} {delay : ℕ} {net after : Node → DaemonState} {leader i j : Node}
  (distinct : Function.Injective fun i => (identity i).selfAddr)

include distinct

/-- The leader is its own sync master. -/
theorem Tree.leader_syncAddr (tree : Tree platform graph identity leader net) :
    (net leader).awdlState.election.syncAddr = (identity leader).selfAddr := by
  obtain ⟨traced, settled⟩ := (tree.2 leader).1.1
  have ground : graph.dist leader leader + 12 ≤ 22 := by
    rw [SimpleGraph.dist_self]
    decide
  obtain ⟨below, height⟩ := settled ground
  rw [SimpleGraph.dist_self] at height
  obtain ⟨origin, rooted⟩ := traced.rooted (by decide)
  obtain rfl : origin = leader := distinct (rooted.masterAddr.symm.trans below)
  rcases rooted.parent with ⟨_, _, sync⟩ | ⟨_, _, _, _, length⟩
  · exact sync
  · omega

/-- The sync master of a daemon is one hop closer to the leader. -/
theorem Tree.closer (tree : Tree platform graph identity leader net) (edge : graph.Adj i j)
    (follows : (net i).awdlState.election.syncAddr = (identity j).selfAddr) :
    graph.dist leader j + 1 = graph.dist leader i := by
  by_cases other : i = leader
  · subst other
    exact absurd (distinct ((tree.leader_syncAddr distinct).symm.trans follows)) edge.ne
  · obtain ⟨parent, isParent, sync⟩ := (tree.2 i).1.2 other
    obtain rfl : parent = j := distinct (sync.symm.trans follows)
    exact isParent.closer

variable [DecidableEq Node] {label : RadioLabel Node} {output : Option RxResult}

/-- The leader keeps its sync state. -/
theorem Tree.leader_sync (tree : Tree platform graph identity leader net)
    (step : ClockedStep platform graph offset delay net label output after) :
    (after leader).awdlState.sync = (net leader).awdlState.sync := by
  rcases step.lags tree.1.1 leader with ⟨kept, _⟩ | ⟨j, edge, follows, _⟩
  · exact kept
  · have closer := tree.closer distinct edge follows
    rw [SimpleGraph.dist_self] at closer
    omega

/-- A step keeps a daemon in step or, if its sync master is in step, brings it there. -/
theorem InStep.step {reference : ClockNode} (tree : Tree platform graph identity leader net)
    (above : ∀ j, graph.dist leader j < graph.dist leader i →
      InStep platform graph offset delay leader reference j net)
    (before : (∀ j type, (label, output) = (.hear i j type, some .ok) →
        (net i).awdlState.election.syncAddr ≠ (identity j).selfAddr) →
      InStep platform graph offset delay leader reference i net)
    (step : ClockedStep platform graph offset delay net label output after) :
    InStep platform graph offset delay leader reference i after := by
  rcases step.lags tree.1.1 i with ⟨kept, deaf⟩ | ⟨j, edge, follows, lag, small, lags⟩
  · obtain ⟨lag, small, lags⟩ := before deaf
    refine ⟨lag, small, ?_⟩
    unfold slotClock at lags ⊢
    rw [kept]
    exact lags
  · have closer := tree.closer distinct edge follows
    obtain ⟨more, bound, behind⟩ := above j (by omega)
    refine ⟨lag + more, ?_, lags.trans behind⟩
    calc lag + more ≤ (1023 + delay) + (1023 + delay) * graph.dist leader j :=
          Nat.add_le_add small bound
      _ = (1023 + delay) * graph.dist leader i := by rw [← closer]; ring

end InStep

/-- **The clock of the leader reaches every daemon**, one hop further with every round. -/
theorem Tree.inStep [DecidableEq Node] {offset : Node → UInt64} {delay count : ℕ}
    {start middle net : Node → DaemonState} {trace : List (RadioLabel Node × Option RxResult)}
    {leader : Node} (leads : Leads identity leader)
    (distinct : Function.Injective fun i => (identity i).selfAddr) (connected : graph.Connected)
    (near : ∀ i, graph.dist leader i ≤ awdlElectionTreeMaxHeight.toNat)
    (tree : Tree platform graph identity leader start)
    (rounds : Rounds (SteadyClockedStep platform graph offset delay) (IsRound graph) start count
      middle)
    (far : ∀ i, graph.dist leader i ≤ count)
    (run : Run (SteadyClockedStep platform graph offset delay) middle trace net) :
    Tree platform graph identity leader net ∧ ∀ i,
      InStep platform graph offset delay leader (slotClock platform offset net leader) i net := by
  let Kept := fun net : Node → DaemonState => Tree platform graph identity leader net ∧
    slotClock platform offset net leader = slotClock platform offset start leader
  have kept : ∀ net label output after, Kept net →
      SteadyClockedStep platform graph offset delay net label output after → Kept after := by
    rintro net label output after ⟨tree, same⟩ step
    refine ⟨tree.step leads distinct connected near (step.steady), ?_⟩
    rw [← same, slotClock, slotClock, tree.leader_sync distinct step.1]
  have parents : ∀ i, graph.dist leader i ≠ 0 →
      ∃ parent, Parent graph identity leader i parent := by
    intro i far
    obtain ⟨parent, isParent, _⟩ := (tree.2 i).1.2 fun same =>
      far (by rw [same, SimpleGraph.dist_self])
    exact ⟨parent, isParent⟩
  have reached := rounds.spread
    (fun entry i => ∃ parent, Parent graph identity leader i parent ∧
      entry = (.hear i parent .mif, some .ok)) Kept
    (InStep platform graph offset delay leader (slotClock platform offset start leader))
    (graph.dist leader) ⟨tree, rfl⟩ kept ?_ ?_ ?_ ?_
  · have ended := run.invariant (fun net => Kept net ∧ ∀ i, InStep platform graph offset delay
      leader (slotClock platform offset start leader) i net)
      ⟨reached.1, fun i => reached.2 i (far i)⟩ ?_
    · obtain ⟨⟨tree, same⟩, all⟩ := ended
      rw [same]
      exact ⟨tree, all⟩
    · rintro net label output after ⟨valid, all⟩ step
      exact ⟨kept net label output after valid step, fun i =>
        InStep.step distinct valid.1 (fun j _ => all j) (fun _ => all i) step.1⟩
  · rintro net i ⟨_, same⟩ ground
    obtain rfl : leader = i := connected.dist_eq_zero_iff.mp ground
    refine ⟨0, Nat.zero_le _, ?_⟩
    rw [same]
    exact .refl _
  · rintro net label output after i ⟨tree, _⟩ above inStep step
    exact InStep.step distinct tree above (fun _ => inStep) step.1
  · rintro net label output after i ⟨tree, _⟩ above step ⟨parent, isParent, heard⟩
    refine InStep.step distinct tree above (fun deaf => ?_) step.1
    have other : i ≠ leader := by
      rintro rfl
      have closer := isParent.closer
      rw [SimpleGraph.dist_self] at closer
      omega
    obtain ⟨found, isFound, follows⟩ := (tree.2 i).1.2 other
    have same : (identity found).selfAddr.toNat = (identity parent).selfAddr.toNat :=
      le_antisymm (isParent.greatest found isFound.edge isFound.closer)
        (isFound.greatest parent isParent.edge isParent.closer)
    exact absurd (follows.trans (EtherAddr.toNat_injective same)) (deaf parent .mif heard)
  · rintro trace ⟨later, earlier, rfl, _, heard⟩ i far
    obtain ⟨parent, isParent⟩ := parents i far
    exact ⟨_, List.mem_append_left _ (heard i parent isParent.edge), parent, isParent, rfl⟩

/-- Ready daemons can take any number of rounds, whatever their clocks read. -/
theorem Ready.clockedRounds [DecidableEq Node] [Fintype Node] [DecidableRel graph.Adj]
    {net : Node → DaemonState} (ready : Ready platform graph identity net)
    (distinct : Function.Injective fun i => (identity i).selfAddr)
    (accepts : ∀ i, AcceptsTxHeader (platform i)) (offset : Node → UInt64) (delay count : ℕ) :
    ∃ after, Rounds (SteadyClockedStep platform graph offset delay) (IsRound graph) net count
      after := by
  have cleans : ∀ net i, Ready platform graph identity net →
      ∃ after, SteadyClockedStep platform graph offset delay net (.clean i) none after ∧
        Ready platform graph identity after := by
    intro net i ready
    obtain ⟨after, ⟨step, steady⟩, later⟩ := ready.clean i
    cases step with
    | clean now => exact ⟨_, ⟨.clean now, steady⟩, later⟩
  have hears : ∀ net i j, Ready platform graph identity net → graph.Adj i j →
      ∃ after, SteadyClockedStep platform graph offset delay net (.hear i j .mif) (some .ok)
          after ∧
        Ready platform graph identity after := by
    intro net i j ready edge
    obtain ⟨bytes, outcome, carries, done, ok, steady, filterRssi⟩ :=
      ready.hears distinct (accepts i) edge ⟨0, 0 + offset j⟩ (0 + 0 + offset i)
    have step : SteadyClockedStep platform graph offset delay net (.hear i j .mif)
        (some outcome.result) _ :=
      ⟨.hear edge carries done (show (0 : UInt64).toNat ≤ delay from Nat.zero_le delay) rfl rfl,
        steady⟩
    have later := ready.step (step.steady _ _ _ _) filterRssi
    rw [ok] at step
    exact ⟨_, step, later⟩
  exact (Ready.rounds_of cleans hears ready count).imp fun _ reached => reached.1

/-- The clock of the daemon at one end of a path is ahead. -/
def pathOffset (i : Option Bool) : UInt64 := if i = some true then 77 else 0

section Synchronised

variable [DecidableEq Node] {offset : Node → UInt64} {delay : ℕ}
  {start middle net : Node → DaemonState}
  {trace : List (RadioLabel Node × Option RxResult)}

/-- The network after 34 rounds: 24 for the tree, and one for each height. -/
theorem inStep_after (inRange : InRange platform graph start) {leader : Node}
    (leads : Leads (fun i => (start i).awdlState.election) leader) (connected : graph.Connected)
    (near : ∀ i, graph.dist leader i ≤ awdlElectionTreeMaxHeight.toNat)
    (rounds : Rounds (SteadyClockedStep platform graph offset delay) (IsRound graph) start 34
      middle)
    (run : Run (SteadyClockedStep platform graph offset delay) middle trace net) :
    Tree platform graph (fun i => (start i).awdlState.election) leader net ∧ ∀ i,
      InStep platform graph offset delay leader (slotClock platform offset net leader) i net := by
  have distinct := inRange.distinct_election
  obtain ⟨settled, first, second⟩ := @Rounds.split _ _ _ _ _ _ _ 24 10 rounds
  have tree := tree_after leads distinct connected near inRange.stations
    (first.mono SteadyClockedStep.steady fun _ round => round)
  exact tree.inStep leads distinct connected near second near run

/-- **The network comes into step.** In a network as in `network_stabilises`, whose daemons
have clocks of the same rate, after 34 rounds from any records and sync states and in every
state after that, every daemon counts the windows of the leader, and the time to the next
one, as the leader did some time ago: less than a time unit and the delay of a frame for
each hop. -/
theorem network_synchronises (inRange : InRange platform graph start) {leader : Node}
    (leads : Leads (fun i => (start i).awdlState.election) leader) (connected : graph.Connected)
    (near : ∀ i, graph.dist leader i ≤ awdlElectionTreeMaxHeight.toNat)
    (rounds : Rounds (SteadyClockedStep platform graph offset delay) (IsRound graph) start 34
      middle)
    (run : Run (SteadyClockedStep platform graph offset delay) middle trace net) (i : Node) :
    ∃ lag, lag ≤ (1023 + delay) * graph.dist leader i ∧ ∀ time,
      awdlSyncCurrentAw (platform i).long (time + offset i) (net i).awdlState.sync =
          awdlSyncCurrentAw (platform leader).long (time - UInt64.ofNat lag + offset leader)
            (net leader).awdlState.sync ∧
        awdlSyncNextAwUs (platform i).long (time + offset i) (net i).awdlState.sync =
          awdlSyncNextAwUs (platform leader).long (time - UInt64.ofNat lag + offset leader)
            (net leader).awdlState.sync := by
  obtain ⟨⟨⟨stations, _⟩, _⟩, all⟩ := inStep_after inRange leads connected near rounds run
  obtain ⟨lag, small, lags⟩ := all i
  refine ⟨lag, small, fun time => ⟨?_, ?_⟩⟩
  · exact lags.aw (stations i).sync.wf (stations leader).sync.wf time
  · exact lags.nextAwUs (stations i).sync.wf (stations leader).sync.wf time

/-- A clock that is 77 microseconds ahead of another one two hops away comes to agree with it
up to two time units. -/
theorem network_synchronises_path : ∃ net lag,
    Rounds (SteadyClockedStep (fun _ => samplePlatform) pathOfThree pathOffset 0)
        (IsRound pathOfThree) stalePath 34 net ∧
      lag ≤ 2046 ∧
      awdlSyncCurrentAw .bits64 (5000000 + 0) (net (some false)).awdlState.sync =
        awdlSyncCurrentAw .bits64 (5000000 - UInt64.ofNat lag + 77)
          (net (some true)).awdlState.sync := by
  obtain ⟨net, rounds⟩ := stalePath_ready.clockedRounds stalePath_inRange.distinct_election
    (fun _ => samplePlatform_acceptsTxHeader) pathOffset 0 34
  obtain ⟨lag, small, agree⟩ := network_synchronises stalePath_inRange stalePath_leads
    pathOfThree_connected pathOfThree_near rounds .nil (some false)
  rw [pathOfThree_dist.2] at small
  exact ⟨net, lag, rounds, small, (agree 5000000).1⟩

/-- **Multicast frames find the network in one slot.** If moreover no frame takes longer than
615 microseconds, then whenever a daemon hands over a multicast frame, every daemon of the
network is in the same slot of the channel sequence, one of those for multicast frames. -/
theorem network_shares_multicast_slots (inRange : InRange platform graph start) {leader : Node}
    (leads : Leads (fun i => (start i).awdlState.election) leader) (connected : graph.Connected)
    (near : ∀ i, graph.dist leader i ≤ awdlElectionTreeMaxHeight.toNat) (fast : delay ≤ 615)
    (rounds : Rounds (SteadyClockedStep platform graph offset delay) (IsRound graph) start 34
      middle)
    (run : Run (SteadyClockedStep platform graph offset delay) middle trace net) {i : Node}
    {state : TxState} (daemon : state.toDaemonState = net i) {time : UInt64} {packet : HostBuf}
    {frame : Option (List UInt8)}
    (handed : .sendData packet frame ∈
      (awdlSendMulticast (platform i) (time + offset i) state).events) :
    (awdlSlot (platform i).long (time + offset i) (net i).awdlState.sync).val ∈ [0, 10] ∧ ∀ j,
      awdlSlot (platform j).long (time + offset j) (net j).awdlState.sync =
        awdlSlot (platform i).long (time + offset i) (net i).awdlState.sync := by
  obtain ⟨⟨⟨stations, _⟩, _⟩, all⟩ := inStep_after inRange leads connected near rounds run
  obtain ⟨_, slot, clear⟩ := awdlSendMulticast_allowed _ handed
  rw [daemon] at slot clear
  obtain ⟨slots, early, late⟩ := multicastWindow_place (stations i).sync.wf slot clear
  refine ⟨?_, fun j => ?_⟩
  · simpa only [List.mem_cons, List.not_mem_nil, or_false] using slots
  have small : ∀ k, (1023 + delay) * graph.dist leader k < 16384 := by
    intro k
    have height : graph.dist leader k ≤ 10 := near k
    calc (1023 + delay) * graph.dist leader k ≤ 1638 * 10 :=
          Nat.mul_le_mul (by omega) height
      _ < 16384 := by decide
  obtain ⟨lag, bound, lags⟩ := all i
  obtain ⟨more, otherBound, otherLags⟩ := all j
  exact @Lags.awdlSlot_eq (slotClock platform offset net i) (slotClock platform offset net j) _ lag
    (stations i).sync.wf lags time more (stations j).sync.wf (bound.trans_lt (small i)) otherLags
    (otherBound.trans_lt (small j)) early late

/-- In the middle of the first slot the leader of three daemons hands over a multicast frame. -/
theorem network_shares_multicast_slots_path : ∃ net time,
    Rounds (SteadyClockedStep (fun _ => samplePlatform) pathOfThree pathOffset 0)
        (IsRound pathOfThree) stalePath 34 net ∧
      (awdlSlot .bits64 (time + 77) (net (some true)).awdlState.sync).val ∈ [0, 10] ∧
      awdlSlot .bits64 (time + 0) (net (some false)).awdlState.sync =
        awdlSlot .bits64 (time + 77) (net (some true)).awdlState.sync := by
  obtain ⟨net, rounds⟩ := stalePath_ready.clockedRounds stalePath_inRange.distinct_election
    (fun _ => samplePlatform_acceptsTxHeader) pathOffset 0 34
  have wf : SyncWf (net (some true)).awdlState.sync := by
    obtain ⟨⟨⟨stations, _⟩, _⟩, _⟩ := inStep_after stalePath_inRange stalePath_leads
      pathOfThree_connected pathOfThree_near rounds .nil
    exact (stations (some true)).sync.wf
  obtain ⟨time, middle⟩ : ∃ time, (net (some true)).awdlState.sync.place (time + 77) = 32768 := by
    refine ⟨UInt64.ofNat (2 ^ 30 + 32768 - (net (some true)).awdlState.sync.place 77), ?_⟩
    have bound : (net (some true)).awdlState.sync.place 77 < 2 ^ 30 := Nat.mod_lt _ (by decide)
    rw [UInt64.add_comm, AwdlSyncState.place_add, UInt64.toNat_ofNat']
    omega
  let state : TxState := { sampleTx with toDaemonState := net (some true) }
  have slot := @awdlSlot_place (net (some true)).awdlState.sync wf samplePlatform.long (time + 77)
  have left := @awdlSyncNextAwUs_place (net (some true)).awdlState.sync wf samplePlatform.long
    (time + 77)
  rw [middle] at slot left
  rw [toNat_awdlSyncNextAwUs wf] at left
  obtain ⟨⟨frame, sent⟩, _⟩ := @awdlSendMulticast_sends samplePlatform state wf (time + 77)
    sampleMulticast [] rfl (by change _ ≤ (net (some true)).awdlState.sync.elapsed _ % _; omega)
    (by change (net (some true)).awdlState.sync.elapsed _ % _ + _ ≤ _; omega) (by
      change multicastGrid.dist
        (awdlSlot samplePlatform.long _ (net (some true)).awdlState.sync) = 0
      rw [show awdlSlot samplePlatform.long (time + 77) (net (some true)).awdlState.sync = 0 from
        Fin.ext slot]
      decide)
  obtain ⟨slots, shared⟩ := network_shares_multicast_slots stalePath_inRange stalePath_leads
    pathOfThree_connected pathOfThree_near (Nat.zero_le 615) rounds .nil
    (show state.toDaemonState = net (some true) from rfl) (by
      change TxEvent.sendData sampleMulticast frame ∈
        (awdlSendMulticast samplePlatform (time + 77) state).events
      rw [sent]
      exact List.mem_singleton_self _)
  exact ⟨net, time, rounds, slots, shared (some false)⟩

end Synchronised

end Owl
