import Mathlib.Data.Fintype.Pi
import Owl.Awdl.Channel
import Owl.Awdl.ElectionState
import Owl.Hashmap.Basic
import Owl.Wire.Buf

/-! # The peer table

The model of `peers.c`. Records are stored in the table by value, and a write
through a record pointer is a write to the table entry of its address
(`hashmapStore`). The callbacks of the source get a record and do not touch the
table; each call is reported as an event with the record it was given.
-/

namespace Owl

/-- `HOST_NAME_LENGTH_MAX`. -/
def hostNameLengthMax : Nat := 64

/-- `struct awdl_peer`; `name` and `countryCode` are the whole character arrays. -/
structure AwdlPeer where
  addr : EtherAddr
  lastUpdate : UInt64
  election : AwdlElectionState
  sequence : AwdlChanseq
  syncOffset : UInt64
  name : List UInt8
  countryCode : List UInt8
  infraAddr : EtherAddr
  version : UInt8
  devclass : UInt8
  supportsV2 : Bool
  sentMif : Bool
  isValid : Bool
  deriving DecidableEq, Inhabited

/-- The calls of callbacks that a node has registered. -/
inductive Callback
  | peerAdd (peer : AwdlPeer)
  | peerRemove (peer : AwdlPeer)
  | tlv (peer : AwdlPeer) (type : UInt8) (value : List UInt8)
  deriving DecidableEq

/-- `enum peers_status`. -/
inductive PeersStatus
  | update
  | ok
  | missing
  | internal
  deriving DecidableEq, Repr

/-- The number of a status. -/
def PeersStatus.code : PeersStatus → Int
  | update => 1
  | ok => 0
  | missing => -1
  | internal => -2

/-- `awdl_peers_t`. -/
abbrev AwdlPeers : Type := HashmapMap EtherAddr AwdlPeer

/-- `struct awdl_peer_state`. -/
structure AwdlPeerState where
  peers : AwdlPeers
  timeout : UInt64
  cleanInterval : UInt64

/-- What the surroundings decide when a peer is added: which allocations
succeed, how far a growing table is followed, and the memory that `malloc`
returns for a new record. -/
structure PeerEnv where
  calloc : Nat → Bool
  fuel : Nat
  memory : AwdlPeer

/-- `awdl_peers_init`. -/
def awdlPeersInit : AwdlPeers := hashmapNew

/-- `awdl_peer_state_init`. -/
def awdlPeerStateInit : AwdlPeerState where
  peers := awdlPeersInit
  timeout := 2000000
  cleanInterval := 1000000

/-- `awdl_peers_length`. -/
def awdlPeersLength (peers : AwdlPeers) : Nat := hashmapLength peers

/-- `awdl_peer_is_valid`. -/
def awdlPeerIsValid (peer : AwdlPeer) : Bool :=
  peer.sentMif && peer.devclass != 0 && peer.version != 0

/-- `awdl_peer_new`; the fields it does not set keep what the memory held. -/
def awdlPeerNew (memory : AwdlPeer) (addr : EtherAddr) : AwdlPeer :=
  { memory with
    addr := addr
    lastUpdate := 0
    election := awdlElectionStateInit memory.election addr
    sequence := awdlChanseqInitStatic chanNull
    syncOffset := 0
    devclass := 0
    version := 0
    supportsV2 := false
    sentMif := false
    name := overwrite memory.name 0 [0]
    countryCode := overwrite memory.countryCode 0 [78, 65, 0]
    isValid := false }

/-- The end of `awdl_peer_add`: a record that has become valid is marked and reported. -/
def turnValid (cb : Bool) (peer : AwdlPeer) : AwdlPeer × List Callback :=
  if !peer.isValid && awdlPeerIsValid peer then
    ({ peer with isValid := true },
      if cb then [.peerAdd { peer with isValid := true }] else [])
  else (peer, [])

section Operations

variable (hash : EtherAddr → UInt64)

/-- `awdl_peer_add`; `none` when a growing table has not returned. -/
def awdlPeerAdd (env : PeerEnv) (peers : AwdlPeers) (addr : EtherAddr) (now : UInt64)
    (cb : Bool) : Option (PeersStatus × AwdlPeers × List Callback) :=
  match (hashmapGet hash peers addr false).2.1 with
  | some found =>
      let updated := turnValid cb { found with lastUpdate := now }
      some (.update, hashmapStore hash peers addr updated.1, updated.2)
  | none =>
      let peer := { awdlPeerNew env.memory addr with lastUpdate := now }
      match hashmapPut hash env.calloc env.fuel peers peer.addr peer with
      | none => none
      | some (status, peers') =>
          if status ≠ .ok then some (.internal, peers', [])
          else
            let updated := turnValid cb peer
            some (.ok, hashmapStore hash peers' peer.addr updated.1, updated.2)

/-- `awdl_peer_remove`. -/
def awdlPeerRemove (peers : AwdlPeers) (addr : EtherAddr) (cb : Bool) :
    PeersStatus × AwdlPeers × List Callback :=
  match hashmapGet hash peers addr true with
  | (_, none, _) => (.missing, peers, [])
  | (_, some peer, peers') => (.ok, peers', if peer.isValid && cb then [.peerRemove peer] else [])

/-- `awdl_peer_get`: the status and the record found. -/
def awdlPeerGet (peers : AwdlPeers) (addr : EtherAddr) : PeersStatus × Option AwdlPeer :=
  match (hashmapGet hash peers addr false).2.1 with
  | some peer => (.ok, some peer)
  | none => (.missing, none)

end Operations

/-- The body of the loop of `awdl_peers_remove`. -/
def removeBefore (before : UInt64) (cb : Bool) (events : List Callback) (_ : EtherAddr)
    (peer : AwdlPeer) : List Callback × Bool :=
  if peer.lastUpdate < before then
    (if peer.isValid && cb then events ++ [.peerRemove peer] else events, true)
  else (events, false)

/-- `awdl_peers_remove`. -/
def awdlPeersRemove (peers : AwdlPeers) (before : UInt64) (cb : Bool) :
    AwdlPeers × List Callback :=
  let swept := hashmapIterate (removeBefore before cb) peers []
  (swept.2, swept.1)

end Owl
