import Owl.Foundation.Octets

/-! # Channels and channel sequences

The model of `channel.c`. A channel is two raw bytes; which of them is the
channel number depends on the encoding under which they are read.
-/

namespace Owl

/-- `AWDL_CHANSEQ_LENGTH`. -/
def awdlChanseqLength : Nat := 16

/-- `enum awdl_chan_encoding`. -/
inductive AwdlChanEncoding
  | simple
  | legacy
  | opclass
  deriving DecidableEq, Repr

namespace AwdlChanEncoding

/-- The value of an encoding on the wire. -/
def toByte : AwdlChanEncoding → UInt8
  | simple => 0
  | legacy => 1
  | opclass => 3

/-- The encoding that a received byte stands for. -/
def ofByte? (encoding : UInt8) : Option AwdlChanEncoding :=
  if encoding = 0 then some simple
  else if encoding = 1 then some legacy
  else if encoding = 3 then some opclass
  else none

end AwdlChanEncoding

/-- `struct awdl_chan`: the bytes of its union. -/
structure AwdlChan where
  val0 : UInt8
  val1 : UInt8
  deriving DecidableEq, Repr, Inhabited

/-- The bytes of a channel in memory order. -/
def AwdlChan.val (chan : AwdlChan) : List UInt8 := [chan.val0, chan.val1]

/-- `struct awdl_chan[AWDL_CHANSEQ_LENGTH]`. -/
abbrev AwdlChanseq : Type := Fin 16 → AwdlChan

/-- `CHAN_NULL`. -/
def chanNull : AwdlChan := ⟨0, 0x00⟩

/-- `CHAN_OPCLASS_6`. -/
def chanOpclass6 : AwdlChan := ⟨6, 0x51⟩

/-- `awdl_chanseq_init_static`. -/
def awdlChanseqInitStatic (chan : AwdlChan) : AwdlChanseq := fun _ => chan

/-- `awdl_chan_num`. -/
def awdlChanNum (chan : AwdlChan) : AwdlChanEncoding → UInt8
  | .simple => chan.val0
  | .legacy => chan.val1
  | .opclass => chan.val0

/-- `awdl_chan_encoding_size`, on a byte that need not be an encoding. -/
def awdlChanEncodingSize (encoding : UInt8) : Int :=
  match AwdlChanEncoding.ofByte? encoding with
  | some .simple => 1
  | some .legacy => 2
  | some .opclass => 2
  | none => -1

/-- `awdl_chan_encoding_length`, the transmitter's copy of it. -/
def awdlChanEncodingLength : AwdlChanEncoding → Nat
  | .simple => 1
  | .legacy => 2
  | .opclass => 2

/-- `struct awdl_channel_state`. -/
structure AwdlChannelState where
  enc : AwdlChanEncoding
  sequence : AwdlChanseq
  master : AwdlChan
  current : AwdlChan

end Owl
