import Owl.Awdl.Channel
import Owl.Awdl.Election
import Owl.Awdl.ElectionAgreement
import Owl.Awdl.ElectionGreatest
import Owl.Awdl.ElectionRounds
import Owl.Awdl.ElectionState
import Owl.Awdl.PeerGrowth
import Owl.Awdl.PeerMap
import Owl.Awdl.Peers
import Owl.Awdl.Print
import Owl.Awdl.Schedule
import Owl.Awdl.SlotClock
import Owl.Awdl.State
import Owl.Awdl.Sync
import Owl.Awdl.SyncError
import Owl.Daemon.Accounts
import Owl.Daemon.ChannelSwitch
import Owl.Daemon.CircularBuffer
import Owl.Daemon.CleanPeers
import Owl.Daemon.Conservation
import Owl.Daemon.Core
import Owl.Daemon.Data
import Owl.Daemon.Delivery
import Owl.Daemon.Hearing
import Owl.Daemon.Invariant
import Owl.Daemon.Loop
import Owl.Daemon.Mesh
import Owl.Daemon.Neighbors
import Owl.Daemon.Network
import Owl.Daemon.Parts
import Owl.Daemon.Radio
import Owl.Daemon.Release
import Owl.Daemon.Rendezvous
import Owl.Daemon.Retries
import Owl.Daemon.RingQueue
import Owl.Daemon.Rounds
import Owl.Daemon.Stabilise
import Owl.Daemon.SyncParent
import Owl.Daemon.Synchrony
import Owl.Daemon.Timing
import Owl.Daemon.Transmit
import Owl.Daemon.Tuning
import Owl.Daemon.Tunnel
import Owl.Daemon.Windows
import Owl.Foundation.Alternation
import Owl.Foundation.BoundedText
import Owl.Foundation.Cadence
import Owl.Foundation.Delimited
import Owl.Foundation.HopCount
import Owl.Foundation.Link
import Owl.Foundation.Octets
import Owl.Foundation.Ring
import Owl.Foundation.Run
import Owl.Foundation.ShiftRegister
import Owl.Foundation.Slots
import Owl.Foundation.Stair
import Owl.Hashmap.Basic
import Owl.Hashmap.Contract
import Owl.Hashmap.Growth
import Owl.Hashmap.Refinement
import Owl.Rx.Action
import Owl.Rx.Amsdu
import Owl.Rx.AmsduGrammar
import Owl.Rx.ChannelSequence
import Owl.Rx.Data
import Owl.Rx.Determined
import Owl.Rx.Effect
import Owl.Rx.ElectionHistory
import Owl.Rx.Isolation
import Owl.Rx.Records
import Owl.Rx.Rejection
import Owl.Rx.SyncState
import Owl.Rx.Tlv
import Owl.Rx.TlvWalk
import Owl.Tx.Advertise
import Owl.Tx.CheckSequence
import Owl.Tx.Frames
import Owl.Tx.Headers
import Owl.Tx.HostName
import Owl.Tx.SyncAccuracy
import Owl.Tx.SyncLag
import Owl.Tx.Tlvs
import Owl.Wire.Buf
import Owl.Wire.Crc32
import Owl.Wire.CrcBitwise
import Owl.Wire.EtherAddr
import Owl.Wire.Window
