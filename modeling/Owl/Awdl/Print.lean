import Owl.Awdl.PeerMap
import Owl.Awdl.State
import Owl.Foundation.BoundedText

/-! # Printing the peer table

The printers of `election.c` and `peers.c`. Each of them appends with a cursor that
may pass the end of its buffer, and hands on what is left of the buffer, which may be
negative. Every printer leaves the truncation of its whole text
(`awdlElectionTreePrint_eq`, `awdlPeerPrint_eq`, `awdlPeersPrint_eq`).

`BoundedText.Memory.print` is `snprintf` with the text of its conversions, and
`Cursor.append` is `cur += snprintf(cur, cur < end ? end - cur : 0, ..)`. Positions and
sizes are unbounded numbers: the source computes them as `int`, which is exact as long
as the whole text is shorter than `2 ^ 31` bytes.
-/

namespace Owl

open BoundedText

/-! ## Conversions -/

/-- The bytes of a string literal. -/
def ascii (literal : String) : List UInt8 := literal.toUTF8.data.toList

/-- The digits of a number in a base. -/
def digits (base value : Nat) : List UInt8 :=
  (Nat.toDigits base value).map fun digit => UInt8.ofNat digit.toNat

/-- The conversion `%u`. -/
def printU32 (value : UInt32) : List UInt8 := digits 10 value.toNat

/-- `ether_ntoa`: the octets in hexadecimal without leading zeros. -/
def etherNtoa (addr : EtherAddr) : List UInt8 :=
  (ascii ":").intercalate (addr.octets.map fun octet => digits 16 octet.toNat)

/-- The conversion `%s` of a character array. -/
def printArray (array : List UInt8) : List UInt8 := array.take (strlen array)

/-! ## The printers -/

/-- The loop of `awdl_election_tree_print`: one dash for every intermediate hop. -/
def printDashes (stop : Int) : (count : Nat) → Cursor → Cursor
  | 0, here => here
  | count + 1, here => printDashes stop count (here.append stop (ascii "-"))

/-- `awdl_election_tree_print`: the memory afterwards and the number returned. -/
def awdlElectionTreePrint (state : AwdlElectionState) (memory : Memory) (str : Nat) (len : Int) :
    Memory × Nat :=
  let stop : Int := str + len
  let here : Cursor := ⟨memory, str⟩
  let here := here.append stop (etherNtoa state.selfAddr)
  let here :=
    if state.height > 0 then here.append stop (ascii " -> " ++ etherNtoa state.syncAddr)
    else here
  let here :=
    if state.height > 1 then
      let here := here.append stop (ascii " ")
      let here := printDashes stop (state.height.toNat - 1) here
      here.append stop (ascii "> " ++ etherNtoa state.masterAddr)
    else here
  let here := here.append stop
    (ascii " (met " ++ printU32 state.masterMetric ++ ascii ", ctr " ++
      printU32 state.masterCounter ++ ascii ")")
  (here.memory, here.cur - str)

/-- `awdl_peer_print`. -/
def awdlPeerPrint (peer : AwdlPeer) (memory : Memory) (str : Nat) (len : Int) : Memory × Nat :=
  let stop : Int := str + len
  let here : Cursor := ⟨memory, str⟩
  let here :=
    if strlen peer.name ≠ 0 then here.append stop (printArray peer.name ++ ascii ": ")
    else here.append stop (ascii "<UNNAMED>: ")
  let (memory, count) :=
    awdlElectionTreePrint peer.election here.memory here.cur (stop - here.cur)
  (memory, here.cur + count - str)

/-- A round of the loop of `awdl_peers_print`. -/
def printPeer (stop : Int) (here : Cursor) (peer : AwdlPeer) : Cursor :=
  let (memory, count) := awdlPeerPrint peer here.memory here.cur (stop - here.cur)
  Cursor.append ⟨memory, here.cur + count⟩ stop (ascii "\n")

/-- `awdl_peers_print`. -/
def awdlPeersPrint (peers : AwdlPeers) (memory : Memory) (str : Nat) (len : Int) :
    Memory × Nat :=
  let stop : Int := str + len
  let here := (hashmapIterate (fun here _ peer => (printPeer stop here peer, false)) peers
    (⟨memory, str⟩ : Cursor)).1
  (here.memory, here.cur - str)

/-! ## The texts -/

/-- The path from a node to its master: the parent, and a dash for every hop behind it. -/
def electionTreeText (state : AwdlElectionState) : List UInt8 :=
  etherNtoa state.selfAddr ++
    (if state.height > 0 then ascii " -> " ++ etherNtoa state.syncAddr else []) ++
    (if state.height > 1 then
      ascii " " ++ (List.replicate (state.height.toNat - 1) (ascii "-")).flatten ++
        ascii "> " ++ etherNtoa state.masterAddr
    else []) ++
    (ascii " (met " ++ printU32 state.masterMetric ++ ascii ", ctr " ++
      printU32 state.masterCounter ++ ascii ")")

/-- A peer by its name and its path. -/
def peerText (peer : AwdlPeer) : List UInt8 :=
  (if strlen peer.name ≠ 0 then printArray peer.name ++ ascii ": "
    else ascii "<UNNAMED>: ") ++ electionTreeText peer.election

/-- One line for every peer, in the order of an iteration. -/
def peersText (peers : AwdlPeers) : List UInt8 :=
  (Slots.entries peers.data).flatMap fun entry => peerText entry.2 ++ ascii "\n"

/-! ## Every printer appends its text -/

theorem printDashes_append (stop : Int) (count : Nat) (here : Cursor) (front : List UInt8) :
    printDashes stop count (here.append stop front) =
      here.append stop (front ++ (List.replicate count (ascii "-")).flatten) := by
  induction count generalizing front with
  | zero => rw [printDashes, List.replicate_zero, List.flatten_nil, List.append_nil]
  | succ count ih =>
      rw [printDashes, append_append, ih, List.append_assoc, List.replicate_succ,
        List.flatten_cons]

/-- **The path of a node is printed as one text.** -/
theorem awdlElectionTreePrint_eq (state : AwdlElectionState) (memory : Memory) (str : Nat)
    (len : Int) :
    awdlElectionTreePrint state memory str len =
      ((Cursor.append ⟨memory, str⟩ (str + len) (electionTreeText state)).memory,
        (electionTreeText state).length) := by
  have printed : awdlElectionTreePrint state memory str len =
      let here := Cursor.append ⟨memory, str⟩ (str + len) (electionTreeText state)
      (here.memory, here.cur - str) := by
    unfold awdlElectionTreePrint electionTreeText
    dsimp only
    by_cases parent : state.height > 0
    · by_cases hops : state.height > 1
      · rw [if_pos parent, if_pos hops, if_pos parent, if_pos hops, append_append, append_append,
          printDashes_append, append_append, append_append]
        simp only [List.append_assoc]
      · rw [if_pos parent, if_neg hops, if_pos parent, if_neg hops, append_append, append_append]
        simp only [List.append_assoc, List.nil_append]
    · have short : ¬state.height > 1 := by
        intro hops
        exact parent (UInt32.lt_trans (by decide) hops)
      rw [if_neg parent, if_neg short, if_neg parent, if_neg short, append_append]
      simp only [List.append_assoc, List.nil_append]
  rw [printed]
  exact Prod.ext rfl (Nat.add_sub_cancel_left ..)

example : electionTreeText
    { masterAddr := ⟨0xa, 0, 0, 0, 0, 3⟩, syncAddr := ⟨2, 0, 0, 0, 0, 0xff⟩, selfAddr := default,
      height := 3, masterMetric := 60, selfMetric := 0, masterCounter := 405, selfCounter := 0 } =
    ascii "0:0:0:0:0:0 -> 2:0:0:0:0:ff --> a:0:0:0:0:3 (met 60, ctr 405)" := by
  decide +kernel

/-- **A peer is printed as one text.** -/
theorem awdlPeerPrint_eq (peer : AwdlPeer) (memory : Memory) (str : Nat) (len : Int) :
    awdlPeerPrint peer memory str len =
      ((Cursor.append ⟨memory, str⟩ (str + len) (peerText peer)).memory,
        (peerText peer).length) := by
  have named (here : Cursor) (stop : Int) :
      (if strlen peer.name ≠ 0 then here.append stop (printArray peer.name ++ ascii ": ")
        else here.append stop (ascii "<UNNAMED>: ")) =
      here.append stop (if strlen peer.name ≠ 0 then printArray peer.name ++ ascii ": "
        else ascii "<UNNAMED>: ") := by
    split <;> rfl
  have rest (cur : Nat) : (cur : Int) + (str + len - cur) = str + len := by omega
  have printed (front : List UInt8) := append_append ⟨memory, str⟩ (str + len) front
    (electionTreeText peer.election)
  unfold awdlPeerPrint peerText
  dsimp only
  rw [named, awdlElectionTreePrint_eq, rest]
  refine Prod.ext (congrArg Cursor.memory (printed _)) ?_
  rw [List.length_append]
  exact (congrArg (· - str) (Nat.add_assoc ..)).trans (Nat.add_sub_cancel_left ..)

/-- A round of the loop appends a line. -/
theorem printPeer_eq (stop : Int) (here : Cursor) (peer : AwdlPeer) :
    printPeer stop here peer = here.append stop (peerText peer ++ ascii "\n") := by
  have rest : (here.cur : Int) + (stop - here.cur) = stop := by omega
  unfold printPeer
  rw [awdlPeerPrint_eq, rest]
  exact append_append here stop (peerText peer) (ascii "\n")

/-- The loop appends a line for every peer. -/
theorem foldl_printPeer (stop : Int) (here : Cursor) (front : List UInt8)
    (entries : List (EtherAddr × AwdlPeer)) :
    entries.foldl (fun here entry => printPeer stop here entry.2) (here.append stop front) =
      here.append stop
        (front ++ entries.flatMap fun entry => peerText entry.2 ++ ascii "\n") := by
  induction entries generalizing front with
  | nil => rw [List.foldl_nil, List.flatMap_nil, List.append_nil]
  | cons entry rest ih =>
      rw [List.foldl_cons, printPeer_eq, append_append, ih, List.append_assoc, List.flatMap_cons]

/-- **A table with a peer is printed as one text.** -/
theorem awdlPeersPrint_eq {peers : AwdlPeers} (some : Slots.entries peers.data ≠ [])
    (memory : Memory) (str : Nat) (len : Int) :
    awdlPeersPrint peers memory str len =
      ((Cursor.append ⟨memory, str⟩ (str + len) (peersText peers)).memory,
        (peersText peers).length) := by
  obtain ⟨remaining, walked⟩ := hashmapIterate_sweep
    (fun here _ peer => (printPeer (str + len) here peer, false)) peers (⟨memory, str⟩ : Cursor)
  unfold awdlPeersPrint peersText
  dsimp only
  rw [walked]
  dsimp only
  rw [Slots.sweep_fst]
  cases stored : Slots.entries peers.data with
  | nil => exact absurd stored some
  | cons first rest =>
      rw [List.foldl_cons, printPeer_eq, foldl_printPeer, List.flatMap_cons]
      exact Prod.ext rfl (Nat.add_sub_cancel_left ..)

/-- **Bounded printing is truncation of the full text**: the number returned is the length
of the whole text, the buffer holds as much of it as fits and a zero, and no byte outside
the buffer is written. -/
theorem awdlPeersPrint_truncates {peers : AwdlPeers} (some : Slots.entries peers.data ≠ [])
    (memory : Memory) (str : Nat) {len : Int} (room : 1 ≤ len) :
    ∃ after, awdlPeersPrint peers memory str len = (after, (peersText peers).length) ∧
      after.read str (min (len.toNat - 1) (peersText peers).length + 1) =
        (peersText peers).take (len.toNat - 1) ++ [0] ∧
      ∀ i, i < str ∨ str + len.toNat ≤ i → after i = memory i := by
  have size : (if (str : Int) < str + len then (str + len - str : Int).toNat else 0) =
      len.toNat := by
    rw [if_pos (by omega), add_sub_cancel_left]
  have written : ((peersText peers).take (len.toNat - 1) ++ [0]).length =
      min (len.toNat - 1) (peersText peers).length + 1 := by
    rw [List.length_append, List.length_take, List.length_singleton]
  refine ⟨_, awdlPeersPrint_eq some memory str len, ?_, fun i outside => ?_⟩
  · dsimp only [Cursor.append]
    rw [size, Memory.print, if_neg (by omega), ← written]
    exact read_write ..
  · dsimp only [Cursor.append]
    rw [size, Memory.print, if_neg (by omega)]
    apply write_outside
    omega

/-- A peer with a name, three hops below its master. -/
def sampleDistant : AwdlPeer :=
  { freshPeer default ⟨1, 0, 0, 0, 0, 0⟩ 0 with
    name := ascii "pi" ++ [0]
    election :=
      { awdlElectionStateInit default ⟨1, 0, 0, 0, 0, 0⟩ with
        height := 3
        syncAddr := ⟨2, 0, 0, 0, 0, 0⟩
        masterAddr := ⟨3, 0, 0, 0, 0, 0⟩ } }

/-- A table with that peer behind one that has no name yet. -/
def samplePeers : AwdlPeers :=
  awdlPeersOf (fun _ => 0) [sampleDistant, freshPeer default default 0]

/-- The second line does not fit into eighty bytes. -/
theorem awdlPeersPrint_truncates_second :
    ∃ after, awdlPeersPrint samplePeers (fun _ => 255) 0 80 = (after, 102) ∧
      after.read 0 80 = ascii
        "<UNNAMED>: 0:0:0:0:0:0 (met 60, ctr 0)\npi: 1:0:0:0:0:0 -> 2:0:0:0:0:0 --> 3:0:0" ++
          [0] ∧
      after 80 = 255 := by
  have text : peersText samplePeers = ascii "<UNNAMED>: 0:0:0:0:0:0 (met 60, ctr 0)\n" ++
      ascii "pi: 1:0:0:0:0:0 -> 2:0:0:0:0:0 --> 3:0:0:0:0:0 (met 60, ctr 0)\n" := by
    decide +kernel
  have two : Slots.entries samplePeers.data ≠ [] := by
    decide +kernel
  obtain ⟨after, printed, held, outside⟩ :=
    awdlPeersPrint_truncates two (fun _ => 255) 0 (by decide : (1 : Int) ≤ 80)
  rw [text] at printed held
  exact ⟨after, printed, held, outside 80 (by decide)⟩

end Owl
