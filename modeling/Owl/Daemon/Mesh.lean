import Owl.Daemon.Delivery
import Owl.Foundation.Link
import Mathlib.Logic.Function.Basic

/-! # A mesh of daemons

Daemons with their hosts around a common medium. What one of them hands to its network
device is under way to every other one, which captures it or loses it, in the order in
which it has been sent. In every interleaving the host of a daemon is delivered what the
host of another one has sent, without duplicates and, for unicast and for multicast frames
each, in the same order (`mesh_delivers_in_order`).
-/

namespace Owl

open Transition Link

variable {Node : Type} {platform : Node → Platform} {wlanIsFile : Node → Bool}

/-- Daemons, and the frames that are under way from one to another, oldest first. -/
structure Mesh (Node : Type) where
  daemon : Node → LoopState
  air : Node → Node → List (List UInt8)

/-- A callback of a daemon, a frame of one daemon that another one captures, or one that
it does not capture. -/
inductive MeshLabel (Node : Type)
  | acts (i : Node) (label : LoopLabel)
  | captures (i j : Node) (env : RxEnv) (bytes : List UInt8)
  | loses (i j : Node)

section Steps

variable [DecidableEq Node]

/-- The mesh after a callback of a daemon: what it hands to its network device is under
way to all daemons. -/
def Mesh.acted (net : Mesh Node) (i : Node) (events : List LoopEvent) (next : LoopState) :
    Mesh Node where
  daemon := Function.update net.daemon i next
  air := Function.update net.air i fun j => net.air i j ++ injected events

/-- The mesh after a frame has reached the end of its way. -/
def Mesh.left (net : Mesh Node) (i j : Node) (rest : List (List UInt8)) : Mesh Node :=
  { net with air := Function.update net.air i (Function.update (net.air i) j rest) }

variable (platform wlanIsFile) in
/-- A step of a mesh. -/
inductive MeshStep (net : Mesh Node) : MeshLabel Node → List LoopEvent → Mesh Node → Prop
  | acts {i : Node} {label : LoopLabel} {events : List LoopEvent} {next : LoopState}
      (step : LoopStep (platform i) (wlanIsFile i) (net.daemon i) label events next) :
      MeshStep net (.acts i label) events (net.acted i events next)
  | captures {i j : Node} {env : RxEnv} {sent bytes : List UInt8} {rest : List (List UInt8)}
      {events : List LoopEvent} {next : LoopState} (first : net.air i j = sent :: rest)
      (captured : Captured (platform j) env sent bytes)
      (step : LoopStep (platform j) (wlanIsFile j) (net.daemon j) (.wlanReady env bytes) events
        next) :
      MeshStep net (.captures i j env bytes) events
        { net.left i j rest with daemon := Function.update net.daemon j next }
  | loses {i j : Node} {sent : List UInt8} {rest : List (List UInt8)}
      (first : net.air i j = sent :: rest) :
      MeshStep net (.loses i j) [] (net.left i j rest)

/-- The callbacks of a daemon. -/
def daemonTrace (i : Node) (trace : List (MeshLabel Node × List LoopEvent)) :
    List (LoopLabel × List LoopEvent) :=
  trace.filterMap fun step =>
    match step.1 with
    | .acts k label => if k = i then some (label, step.2) else none
    | .captures _ k env bytes => if k = i then some (.wlanReady env bytes, step.2) else none
    | .loses _ _ => none

/-- The frames that are delivered to the host. -/
def delivered (events : List LoopEvent) : List (List UInt8) :=
  events.filterMap fun
    | .deliver frame => some frame
    | _ => none

/-- The frames that the host of `j` is delivered for what `i` has sent, oldest first. -/
def deliveries (i j : Node) (trace : List (MeshLabel Node × List LoopEvent)) :
    List (List UInt8) :=
  trace.reverse.flatMap fun step =>
    match step.1 with
    | .captures k l _ _ => if k = i ∧ l = j then delivered step.2 else []
    | _ => []

/-- The frames that the host of a daemon has sent, oldest first. -/
def hostFrames (i : Node) (trace : List (MeshLabel Node × List LoopEvent)) : List (List UInt8) :=
  receivedFrames (txPart (loopEvents (daemonTrace i trace)))

section Traces

variable {i : Node} {trace : List (MeshLabel Node × List LoopEvent)}

theorem daemonTrace_acts (k : Node) (label : LoopLabel) (events : List LoopEvent) :
    daemonTrace i ((.acts k label, events) :: trace) =
      if k = i then (label, events) :: daemonTrace i trace else daemonTrace i trace := by
  unfold daemonTrace
  rw [List.filterMap_cons]
  by_cases same : k = i
  · simp only [same, ↓reduceIte]
  · simp only [same, ↓reduceIte]

theorem daemonTrace_captures (k l : Node) (env : RxEnv) (bytes : List UInt8)
    (events : List LoopEvent) :
    daemonTrace i ((.captures k l env bytes, events) :: trace) =
      if l = i then (.wlanReady env bytes, events) :: daemonTrace i trace
      else daemonTrace i trace := by
  unfold daemonTrace
  rw [List.filterMap_cons]
  by_cases same : l = i
  · simp only [same, ↓reduceIte]
  · simp only [same, ↓reduceIte]

theorem deliveries_cons (j : Node) (label : MeshLabel Node) (events : List LoopEvent) :
    deliveries i j ((label, events) :: trace) = deliveries i j trace ++
      match label with
      | .captures k l _ _ => if k = i ∧ l = j then delivered events else []
      | _ => [] := by
  unfold deliveries
  rw [List.reverse_cons, List.flatMap_append, List.flatMap_singleton]

end Traces

theorem delivered_append (first second : List LoopEvent) :
    delivered (first ++ second) = delivered first ++ delivered second :=
  List.filterMap_append

/-- What a captured frame delivers to the host. -/
theorem delivered_wlanReady {platform : Platform} {wlanIsFile : Bool} {state next : LoopState}
    {env : RxEnv} {bytes : List UInt8} {events : List LoopEvent}
    (step : LoopStep platform wlanIsFile state (.wlanReady env bytes) events next) :
    injected events = [] ∧ ∃ outcome,
      awdlReceiveFrame platform env bytes state.toDaemonState = some outcome ∧
        delivered events = outcome.sent := by
  cases step with
  | @wlanReady _ _ outcome done =>
      have calls : ∀ callbacks : List Callback,
          injected (callbacks.map .peer) = [] ∧ delivered (callbacks.map .peer) = [] := by
        intro callbacks
        induction callbacks with
        | nil => exact ⟨rfl, rfl⟩
        | cons _ _ ih => exact ih
      have frames : ∀ frames : List (List UInt8),
          injected (frames.map .deliver) = [] ∧ delivered (frames.map .deliver) = frames := by
        intro frames
        induction frames with
        | nil => exact ⟨rfl, rfl⟩
        | cons frame _ ih => exact ⟨ih.1, congrArg (frame :: ·) ih.2⟩
      refine ⟨?_, outcome, done, ?_⟩
      · rw [injected_append, (calls _).1, (frames _).1]
        rfl
      · rw [delivered_append, (calls _).2, (frames _).2, List.nil_append]

/-! ## Runs -/

section Runs

variable {start net : Mesh Node} {trace : List (MeshLabel Node × List LoopEvent)}

/-- In a run of the mesh every daemon makes a run of its loop. -/
theorem mesh_daemon (run : Run (MeshStep platform wlanIsFile) start trace net) (i : Node) :
    Run (LoopStep (platform i) (wlanIsFile i)) (start.daemon i) (daemonTrace i trace)
      (net.daemon i) := by
  induction run with
  | nil => exact .nil
  | @cons trace net next label events _ step ih =>
      cases step with
      | @acts k label _ after step =>
          rw [daemonTrace_acts]
          dsimp only [Mesh.acted]
          by_cases same : k = i
          · subst same
            rw [if_pos rfl, Function.update_self]
            exact ih.cons step
          · rw [if_neg same, Function.update_of_ne (Ne.symm same)]
            exact ih
      | @captures k l env _ bytes _ _ after _ _ step =>
          dsimp only
          rw [daemonTrace_captures]
          by_cases same : l = i
          · subst same
            rw [if_pos rfl, Function.update_self]
            exact ih.cons step
          · rw [if_neg same, Function.update_of_ne (Ne.symm same)]
            exact ih
      | loses _ => exact ih

/-- A frame leaves the air between two daemons only. -/
theorem air_left (net : Mesh Node) (k l : Node) (rest : List (List UInt8)) (i j : Node) :
    (net.left k l rest).air i j = if k = i ∧ l = j then rest else net.air i j := by
  unfold Mesh.left
  dsimp only
  by_cases sender : k = i
  · subst sender
    rw [Function.update_self]
    by_cases receiver : l = j
    · subst receiver
      rw [Function.update_self, if_pos ⟨rfl, rfl⟩]
    · rw [Function.update_of_ne (Ne.symm receiver), if_neg fun both => receiver both.2]
  · rw [Function.update_of_ne (Ne.symm sender), if_neg fun both => sender both.1]

/-- A captured frame starts with what it carries when it is delivered. -/
def Delivers (delivered sent : List UInt8) : Prop :=
  ∃ inner, carried sent = some inner ∧ inner <+: delivered

variable {daemon : Node → DaemonState} {memory : Node → List HostBuf}
  {size : ∀ i, (memory i).length = multicastQueueSize}

/-- Daemons that have just been started, with nothing under way. -/
def meshInit (daemon : Node → DaemonState) (memory : Node → List HostBuf)
    (size : ∀ i, (memory i).length = multicastQueueSize) : Mesh Node where
  daemon i := loopInit (daemon i) (memory i) (size i)
  air _ _ := []

/-- **What one daemon delivers for another one has been sent by it, in this order.** -/
theorem mesh_conveyed (plain : ∀ i, (daemon i).ieee80211State.fcs = false)
    (run : Run (MeshStep platform wlanIsFile) (meshInit daemon memory size) trace net)
    (i j : Node) :
    Conveyed Delivers (injected (loopEvents (daemonTrace i trace))) (net.air i j)
      (deliveries i j trace) := by
  induction run with
  | nil => exact .nil
  | @cons trace net next label events before step ih =>
      cases step with
      | @acts k label _ after step =>
          rw [daemonTrace_acts, deliveries_cons, List.append_nil]
          dsimp only [Mesh.acted]
          by_cases same : k = i
          · subst same
            rw [if_pos rfl, loopEvents_cons, injected_append, Function.update_self]
            exact ih.put (injected events)
          · rw [if_neg same, Function.update_of_ne (Ne.symm same)]
            exact ih
      | @captures k l env sent bytes rest _ after first captured step =>
          obtain ⟨quiet, outcome, done, shown⟩ := delivered_wlanReady step
          have same : injected (loopEvents (daemonTrace i
              ((.captures k l env bytes, events) :: trace))) =
                injected (loopEvents (daemonTrace i trace)) := by
            rw [daemonTrace_captures]
            split
            · rw [loopEvents_cons, injected_append, quiet, List.append_nil]
            · rfl
          rw [same, deliveries_cons]
          dsimp only
          rw [air_left]
          by_cases here : k = i ∧ l = j
          · rw [if_pos here, if_pos here, shown]
            obtain ⟨rfl, rfl⟩ := here
            rw [first] at ih
            refine ih.leave ?_
            -- the frame has been sent, so it has the form of a sent frame
            have sender : Run (LoopStep (platform k) (wlanIsFile k))
                (loopInit (daemon k) (memory k) (size k)) (daemonTrace k trace) (net.daemon k) :=
              mesh_daemon before k
            have tunnels := loop_tunnels (plain k) sender
            have member : sent ∈ injected (loopEvents (daemonTrace k trace)) := by
              obtain ⟨gone, split, _⟩ := ih
              rw [split]
              exact List.mem_append_right gone List.mem_cons_self
            rcases awdlReceiveFrame_captured captured (tunnels.types sent member)
              (fun inner => tunnels.carried_length (loop_conserved sender) member)
              done with nothing | ⟨inner, frame, carries, one, start⟩
            · rw [nothing]
              exact .nil
            · rw [one]
              exact .cons ⟨inner, carries, start⟩ .nil
          · rw [if_neg here, if_neg here, List.append_nil]
            exact ih
      | @loses k l sent rest first =>
          rw [deliveries_cons, List.append_nil, air_left]
          by_cases here : k = i ∧ l = j
          · rw [if_pos here]
            obtain ⟨rfl, rfl⟩ := here
            rw [first] at ih
            exact ih.lose
          · rw [if_neg here]
            exact ih

/-- What starts with a tunnelled frame is of its kind. -/
theorem isGroup_of_startsWith {frame delivered : List UInt8} (enough : 14 ≤ frame.length)
    (start : throughTunnel frame <+: delivered) : isGroup delivered = isGroup frame := by
  obtain ⟨rest, rfl⟩ := start
  have long : 6 ≤ (throughTunnel frame).length := by
    rw [length_throughTunnel enough]
    exact Nat.le_trans (by decide) enough
  rw [← isGroup_take _ (Nat.le_refl 6), List.take_append_of_le_length long,
    take_throughTunnel enough (by decide), isGroup_take _ (Nat.le_refl 6)]

/-- **In-order delivery.** In every run of daemons around a common medium that loses
frames but does not reorder or duplicate them, the host of a daemon is delivered, for
what another daemon has sent, frames of the host of that one: with its addresses and its
payload, marked as IPv6 and each at most once, and those for a group address and those for
a single one in the order in which the other host has sent them. -/
theorem mesh_delivers_in_order (plain : ∀ i, (daemon i).ieee80211State.fcs = false)
    (run : Run (MeshStep platform wlanIsFile) (meshInit daemon memory size) trace net)
    (i j : Node) (group : Bool) :
    ((deliveries i j trace).filter (isGroup · == group)).SublistForall₂
      (fun delivered frame => 14 ≤ frame.length ∧ throughTunnel frame <+: delivered)
      ((hostFrames i trace).filter (isGroup · == group)) := by
  have sender : Run (LoopStep (platform i) (wlanIsFile i))
      (loopInit (daemon i) (memory i) (size i)) (daemonTrace i trace) (net.daemon i) :=
    mesh_daemon run i
  -- by the data frames, then by what they carry, then by the frames of the host
  have matched := (mesh_conveyed plain run i j).sublistForall₂
  have opened := sublistForall₂_filterMap matched fun _ _ opens => opens
  rw [(loop_tunnels (plain i) sender).carries, List.sublistForall₂_map_right_iff] at opened
  have whole := sublistForall₂_and opened fun frame member =>
    of_decide_eq_true (List.mem_filter.mp member).2
  have sorted := sublistForall₂_filter whole fun delivered frame opens =>
    congrArg (· == group) (isGroup_of_startsWith opens.1 opens.2)
  exact sublistForall₂_sublist sorted ((List.filter_sublist.filter _).trans
    (handedOver_sublist (loop_conserved sender) group))

end Runs

/-- A frame may be captured as it has been sent. -/
theorem captured_self {platform : Platform} {env : RxEnv} (accepts : AcceptsTxHeader platform)
    (flags : env.flags = 0) {sent : List UInt8}
    (front : sent.take 9 = ieee80211InitRadiotapHeader) : Captured platform env sent sent := by
  have whole : sent = ieee80211InitRadiotapHeader ++ sent.drop 9 := by
    rw [← front, List.take_append_drop]
  refine ⟨ieee80211InitRadiotapHeader, [], by rw [List.append_nil]; exact whole, ?_, ?_⟩
  · rw [whole]
    rfl
  · intro rssi found parsed
    rw [whole, radiotapParse_tx accepts] at parsed
    cases parsed
    rw [flags]
    rfl

/-- What comes of it when the oldest frame on its way is captured so. -/
def sampleCapture (net : Mesh Node) (i j : Node) (env : RxEnv) :
    Option (List LoopEvent × Mesh Node) :=
  match net.air i j with
  | [] => none
  | sent :: rest =>
      if sent.take 9 = ieee80211InitRadiotapHeader then
        (awdlReceiveFrame samplePlatform env sent (net.daemon j).toDaemonState).map fun outcome =>
          (outcome.events.map .peer ++ outcome.sent.map .deliver,
            { net.left i j rest with
              daemon := Function.update net.daemon j
                { net.daemon j with toDaemonState := outcome.state } })
      else none

theorem sampleCapture_step {net next : Mesh Node} {i j : Node} {env : RxEnv}
    {events : List LoopEvent} (flags : env.flags = 0)
    (done : sampleCapture net i j env = some (events, next)) :
    ∃ bytes, MeshStep (fun _ => samplePlatform) (fun _ => false) net
      (.captures i j env bytes) events next := by
  unfold sampleCapture at done
  split at done
  · cases done
  rename_i sent rest first
  split at done
  · rename_i front
    obtain ⟨outcome, received, same⟩ := Option.map_eq_some_iff.mp done
    cases same
    exact ⟨sent, .captures first (captured_self samplePlatform_acceptsTxHeader flags front)
      (.wlanReady received)⟩
  · cases done

end Steps

/-- Two daemons that have just been started. -/
def pairMesh : Mesh Bool :=
  meshInit
    (fun i => awdlInit (List.replicate 65 0) default [111, 119, 108]
      ⟨2, 0, 0, 0, 0, if i then 2 else 1⟩ chanOpclass6 0)
    (fun _ => List.replicate 16 sampleMulticast) (fun _ => rfl)

/-- One of them sends a synchronization frame. -/
def pairSent : List LoopEvent × Mesh Bool :=
  let sent := awdlSendAction .bits64 ⟨5, 6⟩ .psf (pairMesh.daemon false).toDaemonState
  ([.action .psf sent.1], pairMesh.acted false [.action .psf sent.1]
    { pairMesh.daemon false with toDaemonState := sent.2 })

/-- Its host sends a multicast frame. -/
def pairPing (net : Mesh Bool) : List LoopEvent × Mesh Bool :=
  let sent := loopHostReady samplePlatform (fun _ _ => 0) samplePing 20000 20000 (net.daemon false)
  (sent.2, net.acted false sent.2 sent.1)

theorem pairPing_step (net : Mesh Bool) :
    MeshStep (fun _ => samplePlatform) (fun _ => false) net
      (.acts false (.hostReady (fun _ _ => 0) samplePing 20000 20000)) (pairPing net).1
      (pairPing net).2 :=
  .acts (.hostReady (fun _ _ => 0) samplePing 20000 20000)

/-- A multicast frame reaches the host of the other daemon once the daemons have met. -/
theorem mesh_delivers_in_order_ping : ∃ trace net,
    Run (MeshStep (fun _ => samplePlatform) fun _ => false) pairMesh trace net ∧
      ((deliveries false true trace).filter (isGroup · == true)).length = 1 ∧
      ((deliveries false true trace).filter (isGroup · == true)).SublistForall₂
        (fun delivered frame => 14 ≤ frame.length ∧ throughTunnel frame <+: delivered)
        ((hostFrames false trace).filter (isGroup · == true)) := by
  have evaluated : ((sampleCapture pairSent.2 false true (sampleEnv 7)).bind fun met =>
      (sampleCapture (pairPing met.2).2 false true (sampleEnv 20001)).map fun last =>
        ((delivered met.1 ++ delivered last.1).filter (isGroup · == true)).length) = some 1 := by
    decide +kernel
  obtain ⟨⟨events, met⟩, meeting, rest⟩ := Option.bind_eq_some_iff.mp evaluated
  obtain ⟨⟨last, net⟩, captured, length⟩ := Option.map_eq_some_iff.mp rest
  obtain ⟨_, first⟩ := sampleCapture_step rfl meeting
  obtain ⟨_, second⟩ := sampleCapture_step rfl captured
  have psf : MeshStep (fun _ => samplePlatform) (fun _ => false) pairMesh
      (.acts false (.psfTimer ⟨5, 6⟩)) pairSent.1 pairSent.2 := .acts (.psfTimer rfl)
  have run := (((Run.nil.cons psf).cons first).cons (pairPing_step met)).cons second
  refine ⟨_, net, run, ?_, mesh_delivers_in_order (fun _ => rfl) run false true true⟩
  rw [← length]
  exact congrArg (fun frames : List (List UInt8) => (frames.filter (isGroup · == true)).length)
    (by simp only [deliveries_cons, and_self, ↓reduceIte, List.append_nil]; rfl)

end Owl
