import Owl.Daemon.Radio
import Owl.Foundation.Stair

/-! # Rounds of the election

Daemons in range of each other start with any records: what they know of the election
may stem from nodes that are no longer there. In a round every daemon cleans its table,
and after that hears every neighbour. A round lifts all records from one level to the
next if an election does (`At.round`), so master data that belongs to no node is gone
after twelve rounds (`stale_masters_die_out`).
-/

namespace Owl

open Transition

variable {Node : Type} {platform : Node → Platform} {graph : SimpleGraph Node}

/-! ## A round -/

/-- A run that counts as a round: every daemon has cleaned its table, and after that
every daemon has accepted a master indication frame of every neighbour. -/
def IsRound (graph : SimpleGraph Node) (trace : List (RadioLabel Node × Option RxResult)) : Prop :=
  ∃ later earlier, trace = later ++ earlier ∧ (∀ i, (.clean i, none) ∈ earlier) ∧
    ∀ i j, graph.Adj i j → (.hear i j .mif, some .ok) ∈ later

section Levels

variable {identity : Node → AwdlElectionState}

variable (graph identity) in
/-- The records that the daemons have, their own and those of neighbours, are at a level. -/
def At (Level : Node → AwdlElectionState → Prop) (net : Node → DaemonState) : Prop :=
  ∀ i, Level i (net i).awdlState.election ∧
    Surrounded graph identity Level i (net i).awdlState.peers.peers

section Round

variable [DecidableEq Node]
  {Step : (Node → DaemonState) → RadioLabel Node → Option RxResult → (Node → DaemonState) → Prop}
  (radio : ∀ net label output after, Step net label output after →
    RadioStep platform graph net label output after)
  (distinct : Function.Injective fun i => (identity i).selfAddr)
  {Invariant : (Node → DaemonState) → Prop}
  (stations : ∀ net, Invariant net → Stations platform graph identity net)
  (kept : ∀ net label output after, Invariant net → Step net label output after →
    Invariant after)
  {Lower Upper : Node → AwdlElectionState → Prop} (weaker : ∀ i record, Upper i record →
    Lower i record)
  (climbs : ∀ (net : Node → DaemonState) i record, Invariant net → Identified identity i record →
    Surrounded graph identity Lower i (net i).awdlState.peers.peers →
      Upper i (awdlElectionRun record (net i).awdlState.peers.peers))

include radio stations in
/-- No step brings a record below the level into a table. -/
theorem surrounded_step {net after : Node → DaemonState} {label : RadioLabel Node}
    {output : Option RxResult} (invariant : Invariant net) (lower : At graph identity Lower net)
    (step : Step net label output after) (i : Node) :
    Surrounded graph identity Lower i (after i).awdlState.peers.peers := by
  have all := stations net invariant
  obtain ⟨k, state, rfl, _, change⟩ := (radio net label output after step).change all
  by_cases same : i = k
  · subst same
    rw [Function.update_self]
    cases change with
    | elected part _ => exact (lower i).2.submap part
    | lost part _ _ _ => exact (lower i).2.submap part
    | @heard j _ _ peer edge _ record _ stored =>
        refine (lower i).2.update edge ?_ ?_ stored
        · rw [record, (all j).own.selfAddr]
        · rw [record]
          exact (lower j).1
  · rw [Function.update_of_ne same]
    exact (lower i).2

include radio stations kept climbs in
/-- A step leaves the record of a node alone, or lifts it by an election. -/
theorem own_step {net after : Node → DaemonState} {label : RadioLabel Node}
    {output : Option RxResult} (invariant : Invariant net) (lower : At graph identity Lower net)
    (step : Step net label output after) (i : Node) :
    label ≠ .clean i ∧ (after i).awdlState.election = (net i).awdlState.election ∨
      Upper i (after i).awdlState.election := by
  have all := stations net invariant
  have table := surrounded_step radio stations invariant lower step i
  have valid := kept net label output after invariant step
  obtain ⟨k, state, rfl, _, change⟩ := (radio net label output after step).change all
  by_cases same : i = k
  · subst same
    rw [Function.update_self] at table ⊢
    cases change with
    | elected _ election =>
        right
        rw [election]
        have elected := climbs _ i _ valid (all i).own
        rw [Function.update_self] at elected
        exact elected table
    | lost _ election idle _ => exact Or.inl ⟨idle i, election⟩
    | heard _ election _ _ _ => exact Or.inl ⟨nofun, election⟩
  · rw [Function.update_of_ne same]
    refine Or.inl ⟨?_, rfl⟩
    rintro rfl
    cases change with
    | elected _ _ => exact same rfl
    | lost _ _ idle _ => exact idle i rfl

include radio stations kept climbs weaker in
/-- Every step keeps the level. -/
theorem At.step {net after : Node → DaemonState} {label : RadioLabel Node}
    {output : Option RxResult} (lower : At graph identity Lower net) (invariant : Invariant net)
    (step : Step net label output after) : At graph identity Lower after := by
  intro i
  refine ⟨?_, surrounded_step radio stations invariant lower step i⟩
  rcases own_step radio stations kept climbs invariant lower step i with ⟨_, same⟩ | lifted
  · rw [same]
    exact (lower i).1
  · exact weaker i _ lifted

include radio stations distinct in
/-- Once the nodes are at the level, a frame brings the record of its sender there, and
no step takes it away. -/
theorem copy_step {net after : Node → DaemonState} {label : RadioLabel Node}
    {output : Option RxResult} (invariant : Invariant net)
    (upper : ∀ i, Upper i (net i).awdlState.election) (step : Step net label output after)
    (i j : Node)
    (before : (label, output) ≠ (.hear i j .mif, some .ok) → ∀ peer,
      (net i).awdlState.peers.peers.toMap (identity j).selfAddr = some peer →
        Upper j peer.election)
    (peer : AwdlPeer)
    (present : (after i).awdlState.peers.peers.toMap (identity j).selfAddr = some peer) :
    Upper j peer.election := by
  have all := stations net invariant
  obtain ⟨k, state, rfl, _, change⟩ := (radio net label output after step).change all
  by_cases same : i = k
  · subst same
    rw [Function.update_self] at present
    cases change with
    | elected part _ => exact before nofun peer (part _ _ present)
    | lost part _ _ unheard =>
        refine before ?_ peer (part _ _ present)
        rintro ⟨_, _⟩
        exact unheard rfl
    | @heard k type _ copy edge _ record _ stored =>
        rw [stored] at present
        by_cases sender : j = k
        · subst sender
          rw [Function.update_self] at present
          cases present
          rw [record]
          exact upper j
        · rw [Function.update_of_ne (fun addr => sender (distinct addr))] at present
          refine before ?_ peer present
          rintro ⟨_, _⟩
          exact sender rfl
  · rw [Function.update_of_ne same] at present
    refine before ?_ peer present
    rintro ⟨_, _⟩
    cases change with
    | lost _ _ _ unheard => exact unheard rfl
    | heard _ _ _ _ _ => exact same rfl

include radio distinct stations kept climbs weaker in
/-- **A round leads one level up.** -/
theorem At.round {net after : Node → DaemonState}
    {trace : List (RadioLabel Node × Option RxResult)} (lower : At graph identity Lower net)
    (invariant : Invariant net) (run : Run Step net trace after) (round : IsRound graph trace) :
    At graph identity Upper after := by
  obtain ⟨later, earlier, rfl, cleaned, heard⟩ := round
  obtain ⟨middle, first, second⟩ := run.split
  have keeps : ∀ net label output after, Invariant net ∧ At graph identity Lower net →
      Step net label output after → Invariant after ∧ At graph identity Lower after := by
    rintro net label output after ⟨invariant, lower⟩ step
    exact ⟨kept net label output after invariant step,
      lower.step radio stations kept weaker climbs invariant step⟩
  have reached := first.invariant (fun net => Invariant net ∧ At graph identity Lower net)
    ⟨invariant, lower⟩ keeps
  -- the elections of the first half lift the nodes
  have lifted : ∀ i, Upper i (middle i).awdlState.election := by
    refine first.established (fun entry i => entry = (.clean i, none))
      (fun net => Invariant net ∧ At graph identity Lower net)
      (fun i net => Upper i (net i).awdlState.election) ⟨invariant, lower⟩ keeps ?_ ?_ ?_
    · rintro net label output after i ⟨invariant, lower⟩ upper step
      rcases own_step radio stations kept climbs invariant lower step i with ⟨_, same⟩ | lifted
      · rw [same]
        exact upper
      · exact lifted
    · rintro net label output after i ⟨invariant, lower⟩ step ⟨_, _⟩
      rcases own_step radio stations kept climbs invariant lower step i with ⟨idle, _⟩ | lifted
      · exact absurd rfl idle
      · exact lifted
    · exact fun i => ⟨_, cleaned i, rfl⟩
  have above : ∀ net label output after, (Invariant net ∧ At graph identity Lower net) ∧
      (∀ i, Upper i (net i).awdlState.election) → Step net label output after →
        (Invariant after ∧ At graph identity Lower after) ∧
          ∀ i, Upper i (after i).awdlState.election := by
    rintro net label output after ⟨reached, upper⟩ step
    refine ⟨keeps net label output after reached step, fun i => ?_⟩
    rcases own_step radio stations kept climbs reached.1 reached.2 step i with ⟨_, same⟩ | lifted
    · rw [same]
      exact upper i
    · exact lifted
  have ended := second.invariant _ ⟨reached, lifted⟩ above
  -- the frames of the second half lift the tables
  have copied : ∀ (edge : graph.Dart) (peer : AwdlPeer),
      (after edge.fst).awdlState.peers.peers.toMap (identity edge.snd).selfAddr = some peer →
        Upper edge.snd peer.election := by
    refine second.established
      (fun entry (edge : graph.Dart) => entry = (.hear edge.fst edge.snd .mif, some .ok)) _
      (fun (edge : graph.Dart) net => ∀ peer, (net edge.fst).awdlState.peers.peers.toMap
        (identity edge.snd).selfAddr = some peer → Upper edge.snd peer.election)
      ⟨reached, lifted⟩ above ?_ ?_ ?_
    · rintro net label output after edge ⟨⟨invariant, _⟩, upper⟩ before step
      exact copy_step radio distinct stations invariant upper step _ _ fun _ => before
    · rintro net label output after edge ⟨⟨invariant, _⟩, upper⟩ step covered
      exact copy_step radio distinct stations invariant upper step _ _
        fun other => absurd covered other
    · exact fun edge => ⟨_, heard _ _ edge.adj, rfl⟩
  intro i
  refine ⟨ended.2 i, ?_⟩
  intro addr peer stored
  obtain ⟨j, edge, key, self, _⟩ := (ended.1.2 i).2 addr peer stored
  refine ⟨j, edge, key, self, copied ⟨(i, j), edge⟩ peer ?_⟩
  rw [← key]
  exact stored

end Round

end Levels

/-! ## Stale masters -/

variable (platform graph) in
/-- Daemons in range of each other, with distinct addresses and any records of the
election, that know neighbours only. -/
structure InRange (net : Node → DaemonState) : Prop where
  distinct : Function.Injective fun i => (net i).awdlState.selfAddress
  table : ∀ i, AwdlPeersWf (platform i).hash (net i).awdlState.peers.peers
  advertises : ∀ i, Advertises (net i).awdlState
  sync : ∀ i, SyncReachable (platform i).long (net i).awdlState.sync
  version : ∀ i, (net i).awdlState.version ≠ 0
  devClass : ∀ i, (net i).awdlState.devClass ≠ 0
  neighbours : ∀ i addr peer, (net i).awdlState.peers.peers.toMap addr = some peer →
    ∃ j, graph.Adj i j ∧ addr = (net j).awdlState.selfAddress

section InRange

variable {start : Node → DaemonState} (inRange : InRange platform graph start)

include inRange

theorem InRange.stations :
    Stations platform graph (fun i => (start i).awdlState.election) start := by
  intro i
  refine ⟨inRange.table i, inRange.advertises i, inRange.sync i, inRange.version i,
    inRange.devClass i, ⟨rfl, rfl, rfl⟩, ?_⟩
  intro addr peer stored
  obtain ⟨j, edge, key⟩ := inRange.neighbours i addr peer stored
  have own := (inRange.advertises j).own
  refine ⟨j, edge, key.trans own.symm, ?_, trivial⟩
  rw [((inRange.table i).keyed addr peer stored).selfAddr_eq, key]
  exact own.symm

theorem InRange.distinct_election :
    Function.Injective fun i => (start i).awdlState.election.selfAddr := by
  simp only [fun i => (inRange.advertises i).own]
  exact inRange.distinct

end InRange

/-- Any records of neighbours. -/
theorem Stations.at {identity : Node → AwdlElectionState} {net : Node → DaemonState}
    (stations : Stations platform graph identity net) :
    At graph identity (fun _ _ => True) net :=
  fun i => ⟨trivial, (stations i).neighbours⟩

/-- The levels of a network: at first nothing is known, then its records are traced. -/
def TracedAfter (platform : Node → Platform) (graph : SimpleGraph Node)
    (identity : Node → AwdlElectionState) : ℕ → (Node → DaemonState) → Prop
  | 0, net => Stations platform graph identity net
  | level + 1, net => Stations platform graph identity net ∧
      At graph identity (Traced graph identity level) net

theorem TracedAfter.stations {identity : Node → AwdlElectionState} {net : Node → DaemonState}
    {level : ℕ} (traced : TracedAfter platform graph identity level net) :
    Stations platform graph identity net := by
  cases level with
  | zero => exact traced
  | succ level => exact traced.1

section Rounds

variable [DecidableEq Node] {identity : Node → AwdlElectionState} {net after : Node → DaemonState}
  {trace : List (RadioLabel Node × Option RxResult)}

theorem Stations.run (stations : Stations platform graph identity net)
    (run : Run (RadioStep platform graph) net trace after) :
    Stations platform graph identity after :=
  run.invariant _ stations fun _ _ _ _ stations step => stations.step step

theorem TracedAfter.round (distinct : Function.Injective fun i => (identity i).selfAddr)
    {level : ℕ} (traced : TracedAfter platform graph identity level net)
    (run : Run (RadioStep platform graph) net trace after) (round : IsRound graph trace) :
    TracedAfter platform graph identity (level + 1) after := by
  have stations := traced.stations
  refine ⟨stations.run run, ?_⟩
  cases level with
  | zero =>
      refine At.round (fun _ _ _ _ step => step) distinct (fun _ stations => stations)
        (fun _ _ _ _ stations step => stations.step step) (fun _ _ _ => trivial) ?_
        stations.at stations run round
      exact fun net i record stations _ _ => traced_zero (stations i).table.table record i
  | succ level =>
      refine At.round (fun _ _ _ _ step => step) distinct (fun _ stations => stations)
        (fun _ _ _ _ stations step => stations.step step)
        (fun _ _ traced => traced.mono (Nat.le_succ level)) ?_ traced.2 stations run round
      exact fun net i record stations own table => Traced.elect (stations i).table.table own table

theorem TracedAfter.run {level : ℕ} (traced : TracedAfter platform graph identity (level + 1) net)
    (run : Run (RadioStep platform graph) net trace after) :
    TracedAfter platform graph identity (level + 1) after := by
  refine run.invariant _ traced ?_
  rintro net label output after ⟨stations, traced⟩ step
  refine ⟨stations.step step, ?_⟩
  exact traced.step (fun _ _ _ _ step => step) (fun _ stations => stations)
    (fun _ _ _ _ stations step => stations.step step) (fun _ _ traced => traced)
    (fun net i record stations own table =>
      (Traced.elect (stations i).table.table own table).mono (Nat.le_succ level))
    stations step

end Rounds

variable (platform graph) in
/-- Daemons that know their neighbours and do not mind the signal strength. -/
structure Ready (identity : Node → AwdlElectionState) (net : Node → DaemonState) : Prop where
  stations : Stations platform graph identity net
  filterRssi : ∀ i, (net i).awdlState.filterRssi = false
  known : ∀ i j, graph.Adj i j →
    ((net i).awdlState.peers.peers.toMap (identity j).selfAddr).isSome

section Ready

variable [DecidableEq Node] {identity : Node → AwdlElectionState} {net after : Node → DaemonState}
  {i j : Node}

/-- A step that leaves the filter alone leaves the daemons ready. -/
theorem Ready.step (ready : Ready platform graph identity net) {label : RadioLabel Node}
    {output : Option RxResult} {state : DaemonState}
    (step : SteadyStep platform graph net label output (Function.update net i state))
    (filterRssi : state.awdlState.filterRssi = (net i).awdlState.filterRssi) :
    Ready platform graph identity (Function.update net i state) where
  stations := ready.stations.step step.1
  filterRssi := by
    intro other
    by_cases same : other = i
    · rw [same, Function.update_self, filterRssi]
      exact ready.filterRssi i
    · rw [Function.update_of_ne same]
      exact ready.filterRssi other
  known := fun receiver sender edge => step.2 receiver _ (ready.known receiver sender edge)

/-- A daemon can clean its table early enough that no peer has timed out. -/
theorem Ready.clean (ready : Ready platform graph identity net) (i : Node) :
    ∃ after, SteadyStep platform graph net (.clean i) none after ∧
      Ready platform graph identity after := by
  have steady : SteadyStep platform graph net (.clean i) none (Function.update net i
      (awdlCleanPeers (net i).awdlState.peers.timeout (net i)).1) := by
    refine ⟨.clean _, ?_⟩
    intro other addr stored
    by_cases same : other = i
    · subst same
      obtain ⟨peers, _, kept, cleaned⟩ := awdlCleanPeers_effect
        (net other).awdlState.peers.timeout (ready.stations other).table
      rw [Function.update_self, cleaned]
      dsimp only
      rw [kept]
      obtain ⟨peer, present⟩ := Option.isSome_iff_exists.mp stored
      unfold survivors
      rw [present, UInt64.sub_self, Option.filter_some, if_pos]
      · rfl
      · simp only [UInt64.not_lt_zero, decide_false, Bool.not_false]
    · rw [Function.update_of_ne same]
      exact stored
  exact ⟨_, steady, ready.step steady rfl⟩

/-- A daemon can capture a frame of a neighbour, whatever the clocks of the two read. -/
theorem Ready.hears (ready : Ready platform graph identity net)
    (distinct : Function.Injective fun i => (identity i).selfAddr)
    (accepts : AcceptsTxHeader (platform i)) (edge : graph.Adj i j) (clock : TxClock)
    (now : UInt64) :
    ∃ bytes outcome,
      Carries (platform i) (sampleEnv now) bytes (net i).awdlState
        ⟨(net j).awdlState, (platform j).long, clock, .mif⟩ ∧
      awdlReceiveFrame (platform i) (sampleEnv now) bytes (net i) = some outcome ∧
      outcome.result = .ok ∧
      (∀ other addr, ((net other).awdlState.peers.peers.toMap addr).isSome →
        ((Function.update net i outcome.state other).awdlState.peers.peers.toMap addr).isSome) ∧
      outcome.state.awdlState.filterRssi = (net i).awdlState.filterRssi := by
  have receiver := ready.stations i
  have sender := ready.stations j
  have foreign : (net i).awdlState.selfAddress ≠ (net j).awdlState.selfAddress := by
    rw [receiver.selfAddress, sender.selfAddress]
    exact fun same => edge.ne (distinct same)
  have admitted : ignoresRssi (platform i).hash (net i).awdlState
      (net j).awdlState.selfAddress (sampleEnv now).rssi = false := by
    unfold ignoresRssi
    rw [ready.filterRssi i]
    rfl
  have known := ready.known i j edge
  rw [← sender.selfAddress] at known
  obtain ⟨rx, _, received, result, _, _⟩ := awdlRx_awdlInitFullActionFrame accepts rfl
    sender.advertises (show ieee80211InitState.fcs = false from rfl) (platform j).long clock .mif
    receiver.table foreign receiver.sync.wf.presenceMode admitted
    (fun missing => by rw [missing] at known; cases known) []
  obtain ⟨outcome, done, ok⟩ : ∃ outcome,
      awdlReceiveFrame (platform i) (sampleEnv now) (awdlInitFullActionFrame (platform j).long
        clock (net j).awdlState ieee80211InitState .mif).1 (net i) = some outcome ∧
          outcome.result = .ok :=
    ⟨_, congrArg (Option.map _) received, result⟩
  have carries : Carries (platform i) (sampleEnv now) _ (net i).awdlState
      ⟨(net j).awdlState, (platform j).long, clock, .mif⟩ :=
    carries_awdlInitFullActionFrame accepts rfl (show ieee80211InitState.fcs = false from rfl) _
  obtain ⟨_, change⟩ := receiver.hear sender edge carries done
  have same := (awdlReceiveFrame_effect receiver.table done).2.1
  refine ⟨_, outcome, carries, done, ok, ?_, by rw [same]⟩
  intro other addr stored
  by_cases node : other = i
  · subst node
    rw [Function.update_self]
    cases change with
    | lost _ _ _ unheard => exact absurd (congrArg some ok) unheard
    | heard _ _ _ _ learned =>
        rw [learned]
        by_cases key : addr = (identity j).selfAddr
        · rw [key, Function.update_self]
          rfl
        · rw [Function.update_of_ne key]
          exact stored
  · rw [Function.update_of_ne node]
    exact stored

/-- A daemon can hear a neighbour. -/
theorem Ready.hear (ready : Ready platform graph identity net)
    (distinct : Function.Injective fun i => (identity i).selfAddr)
    (accepts : AcceptsTxHeader (platform i)) (edge : graph.Adj i j) :
    ∃ after, SteadyStep platform graph net (.hear i j .mif) (some .ok) after ∧
      Ready platform graph identity after := by
  obtain ⟨bytes, outcome, carries, done, ok, steady, filterRssi⟩ :=
    ready.hears distinct accepts edge ⟨0, 0⟩ 0
  have step : SteadyStep platform graph net (.hear i j .mif) (some outcome.result) _ :=
    ⟨.hear edge carries done, steady⟩
  rw [ok] at step
  exact ⟨_, step, ready.step step filterRssi⟩

omit [DecidableEq Node] in
/-- Ready daemons can take any number of rounds, if they can clean their tables and hear
their neighbours. -/
theorem Ready.rounds_of [Fintype Node] [DecidableRel graph.Adj]
    {Step : (Node → DaemonState) → RadioLabel Node → Option RxResult → (Node → DaemonState) → Prop}
    (cleans : ∀ net i, Ready platform graph identity net →
      ∃ after, Step net (.clean i) none after ∧ Ready platform graph identity after)
    (hears : ∀ net i j, Ready platform graph identity net → graph.Adj i j →
      ∃ after, Step net (.hear i j .mif) (some .ok) after ∧ Ready platform graph identity after)
    (ready : Ready platform graph identity net) (count : ℕ) :
    ∃ after, Rounds Step (IsRound graph) net count after ∧
      Ready platform graph identity after := by
  induction count with
  | zero => exact ⟨net, .zero, ready⟩
  | succ count ih =>
      obtain ⟨middle, before, ready⟩ := ih
      let cleanLabels : List (RadioLabel Node × Option RxResult) :=
        Finset.univ.toList.map fun i => (.clean i, none)
      let hearLabels : List (RadioLabel Node × Option RxResult) :=
        (Finset.univ : Finset graph.Dart).toList.map fun edge =>
          (.hear edge.fst edge.snd .mif, some .ok)
      have enabled : ∀ entry ∈ hearLabels ++ cleanLabels, ∀ net,
          Ready platform graph identity net →
            ∃ after, Step net entry.1 entry.2 after ∧ Ready platform graph identity after := by
        intro entry member net ready
        rcases List.mem_append.mp member with heard | cleaned
        · obtain ⟨edge, _, rfl⟩ := List.mem_map.mp heard
          exact hears net _ _ ready edge.adj
        · obtain ⟨i, _, rfl⟩ := List.mem_map.mp cleaned
          exact cleans net i ready
      obtain ⟨after, run, ready⟩ := Run.exists_of_enabled _ enabled ready
      refine ⟨after, .succ before run ⟨hearLabels, cleanLabels, rfl, ?_, ?_⟩, ready⟩
      · exact fun i => List.mem_map.mpr ⟨i, Finset.mem_toList.mpr (Finset.mem_univ i), rfl⟩
      · exact fun i j edge => List.mem_map.mpr
          ⟨⟨(i, j), edge⟩, Finset.mem_toList.mpr (Finset.mem_univ _), rfl⟩

/-- **Ready daemons can take any number of rounds.** -/
theorem Ready.rounds [Fintype Node] [DecidableRel graph.Adj]
    (ready : Ready platform graph identity net)
    (distinct : Function.Injective fun i => (identity i).selfAddr)
    (accepts : ∀ i, AcceptsTxHeader (platform i)) (count : ℕ) :
    ∃ after, Rounds (SteadyStep platform graph) (IsRound graph) net count after ∧
      Ready platform graph identity after :=
  Ready.rounds_of (fun _ i ready => ready.clean i)
    (fun _ _ _ ready edge => ready.hear distinct (accepts _) edge) ready count

end Ready

/-- The addresses of three daemons on a path. -/
def pathAddress : Option Bool → EtherAddr
  | some true => ⟨2, 0, 0, 0, 0, 3⟩
  | none => ⟨2, 0, 0, 0, 0, 2⟩
  | some false => ⟨2, 0, 0, 0, 0, 1⟩

/-- A record below a master that is gone; the daemon at one end has a counter. -/
def staleRecord (i : Option Bool) : AwdlElectionState :=
  { masterAddr := ⟨2, 0, 0, 0, 0, 9⟩
    syncAddr := ⟨2, 0, 0, 0, 0, 9⟩
    selfAddr := pathAddress i
    height := 1
    masterMetric := 900
    selfMetric := 60
    masterCounter := 90
    selfCounter := if i = some true then 5 else 0 }

/-- What the neighbours know of a daemon. -/
def stalePeer (i : Option Bool) : AwdlPeer :=
  { freshPeer default (pathAddress i) 0 with election := staleRecord i }

/-- Three daemons that know their neighbours and follow a master that is gone. -/
def stalePath (i : Option Bool) : DaemonState where
  awdlState :=
    { awdlInitState (List.replicate 65 0) default [111, 119, 108] (pathAddress i) chanOpclass6
        0 with
      filterRssi := false
      election := staleRecord i
      peers.peers := pathTable stalePeer i }
  ieee80211State := ieee80211InitState

theorem stalePath_table (i : Option Bool) :
    AwdlPeersWf samplePlatform.hash (stalePath i).awdlState.peers.peers ∧
      ∀ addr peer, (stalePath i).awdlState.peers.peers.toMap addr = some peer ↔
        ∃ j, pathOfThree.Adj i j ∧ addr = (stalePeer j).addr ∧ peer = stalePeer j :=
  pathTable_spec (fun _ => rfl) (by decide) (by decide +kernel) i

theorem stalePath_inRange : InRange (fun _ => samplePlatform) pathOfThree stalePath where
  distinct := by decide
  table := fun i => (stalePath_table i).1
  advertises := by
    intro i
    cases i with
    | none => exact ⟨rfl, rfl, by decide⟩
    | some side => cases side <;> exact ⟨rfl, rfl, by decide⟩
  sync := fun _ => .init 0
  version := by decide
  devClass := by decide
  neighbours := by
    intro i addr peer stored
    obtain ⟨j, edge, key, _⟩ := ((stalePath_table i).2 addr peer).mp stored
    exact ⟨j, edge, key⟩

theorem stalePath_ready : Ready (fun _ => samplePlatform) pathOfThree
    (fun i => (stalePath i).awdlState.election) stalePath where
  stations := stalePath_inRange.stations
  filterRssi := fun _ => rfl
  known := by
    intro i j edge
    have stored := ((stalePath_table i).2 _ _).mpr ⟨j, edge, rfl, rfl⟩
    exact Option.isSome_iff_exists.mpr ⟨_, stored⟩

end Owl
