import Owl.Daemon.Rounds

/-! # The election stabilises

Daemons that hear each other, that lose no peer and one of which has a better counter
and metric than the others. Whatever their records say at first, after 23 rounds all
of them are below that node at the height that their distance says, and stay there
(`network_stabilises`).
-/

namespace Owl

open Transition

variable {Node : Type} {platform : Node → Platform} {graph : SimpleGraph Node}

/-! ## Steady steps -/

section Steady

variable [DecidableEq Node]

/-- A daemon has a valid record of a neighbour. -/
def Recorded (identity : Node → AwdlElectionState) (net : Node → DaemonState) (i j : Node) : Prop :=
  ∃ peer, (net i).awdlState.peers.peers.toMap (identity j).selfAddr = some peer ∧
    peer.isValid = true

variable {identity : Node → AwdlElectionState} {net after : Node → DaemonState}
  {label : RadioLabel Node} {output : Option RxResult}
  {trace : List (RadioLabel Node × Option RxResult)} {i j : Node}

/-- A master indication frame makes a neighbour known, and it stays so. -/
theorem Recorded.step (distinct : Function.Injective fun i => (identity i).selfAddr)
    (stations : Stations platform graph identity net)
    (before : (label, output) ≠ (.hear i j .mif, some .ok) → Recorded identity net i j)
    (step : SteadyStep platform graph net label output after) : Recorded identity after i j := by
  obtain ⟨k, state, rfl, _, change⟩ := step.1.change stations
  have steady := step.2 i (identity j).selfAddr
  unfold Recorded
  by_cases same : i = k
  · subst same
    rw [Function.update_self] at steady ⊢
    have submap : (∀ addr peer, state.awdlState.peers.peers.toMap addr = some peer →
        (net i).awdlState.peers.peers.toMap addr = some peer) → Recorded identity net i j →
          ∃ peer, state.awdlState.peers.peers.toMap (identity j).selfAddr = some peer ∧
            peer.isValid = true := by
      rintro part ⟨peer, stored, valid⟩
      rw [stored] at steady
      obtain ⟨kept, found⟩ := Option.isSome_iff_exists.mp (steady rfl)
      cases stored.symm.trans (part _ _ found)
      exact ⟨peer, found, valid⟩
    cases change with
    | elected part _ => exact submap part (before nofun)
    | lost part _ _ unheard =>
        refine submap part (before ?_)
        rintro ⟨_, _⟩
        exact unheard rfl
    | @heard k type _ copy _ _ _ valid stored =>
        rw [stored]
        by_cases sender : j = k
        · subst sender
          refine ⟨copy, Function.update_self .., valid ?_⟩
          by_cases frame : type = .mif
          · exact Or.inl frame
          · right
            refine before ?_
            rintro ⟨_, _⟩
            exact frame rfl
        · rw [Function.update_of_ne (fun addr => sender (distinct addr))]
          refine before ?_
          rintro ⟨_, _⟩
          exact sender rfl
  · rw [Function.update_of_ne same]
    refine before ?_
    rintro ⟨_, _⟩
    cases change with
    | lost _ _ _ unheard => exact unheard rfl
    | heard _ _ _ _ _ => exact same rfl

variable (platform graph identity) in
/-- A network in which everybody has a valid record of every neighbour. -/
def Acquainted (net : Node → DaemonState) : Prop :=
  Stations platform graph identity net ∧ ∀ i j, graph.Adj i j → Recorded identity net i j

theorem Acquainted.step (distinct : Function.Injective fun i => (identity i).selfAddr)
    (acquainted : Acquainted platform graph identity net)
    (step : SteadyStep platform graph net label output after) :
    Acquainted platform graph identity after :=
  ⟨acquainted.1.step step.1, fun i j edge =>
    Recorded.step distinct acquainted.1 (fun _ => acquainted.2 i j edge) step⟩

/-! ## Rounds -/

/-- After a round everybody knows its neighbours. -/
theorem Stations.acquainted (distinct : Function.Injective fun i => (identity i).selfAddr)
    (stations : Stations platform graph identity net)
    (run : Run (SteadyStep platform graph) net trace after) (round : IsRound graph trace) :
    Acquainted platform graph identity after := by
  have kept : ∀ net label output after, Stations platform graph identity net →
      SteadyStep platform graph net label output after →
        Stations platform graph identity after :=
    fun _ _ _ _ stations step => stations.step step.1
  obtain ⟨later, earlier, rfl, _, heard⟩ := round
  refine ⟨run.invariant _ stations kept, fun i j edge => ?_⟩
  refine run.established (fun entry (edge : graph.Dart) =>
    entry = (.hear edge.fst edge.snd .mif, some .ok)) _
    (fun (edge : graph.Dart) net => Recorded identity net edge.fst edge.snd) stations kept ?_ ?_ ?_
    ⟨(i, j), edge⟩
  · exact fun _ _ _ _ _ stations known step => Recorded.step distinct stations (fun _ => known) step
  · exact fun _ _ _ _ _ stations step covered =>
      Recorded.step distinct stations (fun other => absurd covered other) step
  · exact fun edge => ⟨_, List.mem_append_left _ (heard _ _ edge.adj), rfl⟩

variable (platform graph identity) in
/-- The levels of a network with a leader: at first nothing is known, then its records
are drawn to the leader. -/
def DrawnAfter (leader : Node) : ℕ → (Node → DaemonState) → Prop
  | 0, net => Stations platform graph identity net
  | level + 1, net => Acquainted platform graph identity net ∧
      At graph identity (Drawn graph identity leader level) net

variable {leader : Node} {level : ℕ} (leads : Leads identity leader)
  (distinct : Function.Injective fun i => (identity i).selfAddr) (connected : graph.Connected)
  (near : ∀ i, graph.dist leader i ≤ awdlElectionTreeMaxHeight.toNat)

include leads distinct connected near

omit [DecidableEq Node] in
/-- An election among acquainted daemons. -/
theorem Acquainted.elect (acquainted : Acquainted platform graph identity net)
    {record : AwdlElectionState} (own : Identified identity i record)
    (table : Surrounded graph identity (Drawn graph identity leader level) i
      (net i).awdlState.peers.peers) :
    Drawn graph identity leader (level + 1) i
      (awdlElectionRun record (net i).awdlState.peers.peers) :=
  Drawn.elect leads distinct connected near (acquainted.1 i).table.table own table
    fun j edge => acquainted.2 i j edge

theorem DrawnAfter.round (drawn : DrawnAfter platform graph identity leader level net)
    (run : Run (SteadyStep platform graph) net trace after) (round : IsRound graph trace) :
    DrawnAfter platform graph identity leader (level + 1) after := by
  cases level with
  | zero =>
      have stations : Stations platform graph identity net := drawn
      refine ⟨stations.acquainted distinct run round, ?_⟩
      refine At.round SteadyStep.radio distinct (fun _ stations => stations)
        (fun _ _ _ _ stations step => stations.step step.1) (fun _ _ _ => trivial) ?_
        stations.at stations run round
      exact fun net i record stations _ _ => drawn_zero (stations i).table.table record i
  | succ level =>
      obtain ⟨acquainted, drawn⟩ := drawn
      refine ⟨acquainted.1.acquainted distinct run round, ?_⟩
      exact At.round SteadyStep.radio distinct
        (fun _ (acquainted : Acquainted platform graph identity _) => acquainted.1)
        (fun _ _ _ _ acquainted step => acquainted.step distinct step)
        (fun _ _ drawn => drawn.mono (Nat.le_succ level))
        (fun net i record acquainted own table =>
          acquainted.elect leads distinct connected near own table) drawn acquainted run round

theorem DrawnAfter.run (drawn : DrawnAfter platform graph identity leader (level + 1) net)
    (run : Run (SteadyStep platform graph) net trace after) :
    DrawnAfter platform graph identity leader (level + 1) after := by
  refine run.invariant _ drawn ?_
  rintro net label output after ⟨acquainted, drawn⟩ step
  refine ⟨acquainted.step distinct step, ?_⟩
  exact drawn.step SteadyStep.radio
    (fun _ (acquainted : Acquainted platform graph identity _) => acquainted.1)
    (fun _ _ _ _ acquainted step => acquainted.step distinct step) (fun _ _ drawn => drawn)
    (fun net i record acquainted own table =>
      (acquainted.elect leads distinct connected near own table).mono (Nat.le_succ level))
    acquainted step

end Steady

/-- **The election stabilises.** In a connected network in which one node has a greater
pair of counter and metric than the others and none is further from it than the limit,
after 23 rounds from any records and in every state after that all daemons have this
node as their master, their height is the distance from it, and the sync master of
every other node is a neighbour one hop closer. -/
theorem network_stabilises [DecidableEq Node] {start middle net : Node → DaemonState}
    {trace : List (RadioLabel Node × Option RxResult)} (inRange : InRange platform graph start)
    {leader : Node} (leads : Leads (fun i => (start i).awdlState.election) leader)
    (connected : graph.Connected)
    (near : ∀ i, graph.dist leader i ≤ awdlElectionTreeMaxHeight.toNat)
    (rounds : Rounds (SteadyStep platform graph) (IsRound graph) start 23 middle)
    (run : Run (SteadyStep platform graph) middle trace net) (i : Node) :
    (net i).awdlState.election.masterAddr = (net leader).awdlState.selfAddress ∧
      (net i).awdlState.election.height.toNat = graph.dist leader i ∧
      (i ≠ leader → ∃ parent, graph.Adj i parent ∧
        graph.dist leader parent + 1 = graph.dist leader i ∧
        (net i).awdlState.election.syncAddr = (net parent).awdlState.selfAddress) := by
  have distinct := inRange.distinct_election
  have climbed : DrawnAfter platform graph _ leader (22 + 1) middle :=
    rounds.climb (DrawnAfter platform graph _ leader) inRange.stations
      fun _ _ _ _ drawn run round => drawn.round leads distinct connected near run round
  obtain ⟨⟨stations, _⟩, drawn⟩ := climbed.run leads distinct connected near run
  have bound : graph.dist leader i + 12 ≤ 22 := Nat.add_le_add_right (near i) 12
  obtain ⟨below, height⟩ := (drawn i).1.2 bound
  refine ⟨?_, height, ?_⟩
  · rw [(stations leader).selfAddress]
    exact below
  · intro other
    obtain ⟨origin, rooted⟩ := (drawn i).1.1.rooted (by decide)
    obtain rfl : origin = leader := distinct (rooted.masterAddr.symm.trans below)
    rcases rooted.parent with ⟨_, same, _⟩ | ⟨parent, edge, sync, walk, length⟩
    · exact absurd same.symm other
    · refine ⟨parent, edge, ?_, ?_⟩
      · have far := SimpleGraph.dist_le walk
        have step := connected.dist_triangle (u := origin) (v := parent) (w := i)
        rw [SimpleGraph.dist_eq_one_iff_adj.mpr edge.symm] at step
        omega
      · rw [(stations parent).selfAddress]
        exact sync

theorem stalePath_leads :
    Leads (fun i => (stalePath i).awdlState.election) (some true) := by
  intro i other
  cases i with
  | none => decide
  | some side =>
      cases side with
      | true => exact absurd rfl other
      | false => decide

/-- Three daemons that have followed a master that is gone follow the one with a counter,
one of them over two hops. -/
theorem network_stabilises_path : ∃ net,
    Rounds (SteadyStep (fun _ => samplePlatform) pathOfThree) (IsRound pathOfThree) stalePath 23
        net ∧
      (net (some false)).awdlState.election.masterAddr =
        (net (some true)).awdlState.selfAddress ∧
      (net (some false)).awdlState.election.height.toNat = 2 ∧
      ∃ parent, pathOfThree.Adj (some false) parent ∧
        (net (some false)).awdlState.election.syncAddr = (net parent).awdlState.selfAddress := by
  obtain ⟨net, rounds, _⟩ := stalePath_ready.rounds stalePath_inRange.distinct_election
    (fun _ => samplePlatform_acceptsTxHeader) 23
  obtain ⟨master, height, below⟩ := network_stabilises stalePath_inRange stalePath_leads
    pathOfThree_connected pathOfThree_near rounds .nil (some false)
  obtain ⟨parent, edge, _, sync⟩ := below (by decide)
  exact ⟨net, rounds, master, height.trans pathOfThree_dist.2, parent, edge, sync⟩

end Owl
