import Owl.Awdl.State

/-! # The TLV handlers of `rx.c`

A handler reads its value with checked readers and writes what it has read into
the record of the sender at once, so a read that fails leaves the writes before
it in place. The checked readers `READ_U8` and so on are `checkedRead`: a failed
read ends the handler at `wire_error`.
-/

namespace Owl

/-- `enum RX_RESULT`. -/
inductive RxResult
  | ignorePeer
  | ignoreRssi
  | ignoreFailedCrc
  | ignoreNopromisc
  | ignoreFromSelf
  | ignore
  | ok
  | unexpectedFormat
  | unexpectedType
  | unexpectedValue
  | tooShort
  deriving DecidableEq, Repr

/-- The number of a result; the last two share one. -/
def RxResult.code : RxResult → Int
  | ignorePeer => 6
  | ignoreRssi => 5
  | ignoreFailedCrc => 4
  | ignoreNopromisc => 3
  | ignoreFromSelf => 2
  | ignore => 1
  | ok => 0
  | unexpectedFormat => -1
  | unexpectedType => -2
  | unexpectedValue => -3
  | tooShort => -3

/-- `CHECKED_READ` in a handler: go on with the value, or stop at `wire_error`
with what has been written to the record so far. -/
def checkedRead {α : Type} (read : Option α) (src : AwdlPeer)
    (next : α → RxResult × AwdlPeer) : RxResult × AwdlPeer :=
  match read with
  | some value => next value
  | none => (.tooShort, src)

/-- `AWDL_SYNC_THRESHOLD`. -/
def awdlSyncThreshold : Int := 3

/-- `awdl_handle_sync_params_tlv`: the result and the sync state of the node. -/
def awdlHandleSyncParamsTlv (long : LongWidth) (src : AwdlPeer) (val : Buf) (state : AwdlState)
    (now : UInt64) : RxResult × AwdlSyncState :=
  if !awdlElectionIsSyncMaster state.election src.addr then (.ignore, state.sync)
  else
    match readLe16 val 1 with
    | none => (.tooShort, state.sync)
    | some timeToNextAwMaster =>
        match readLe16 val 29 with
        | none => (.tooShort, state.sync)
        | some awCounterMaster =>
            let sync := { state.sync with measTotal := state.sync.measTotal + 1 }
            let syncErrTu := awdlSyncErrorTu long now timeToNextAwMaster awCounterMaster sync
            let sync :=
              if syncErrTu > awdlSyncThreshold ∨ syncErrTu < -awdlSyncThreshold then
                { sync with measErr := sync.measErr + 1 }
              else sync
            (.ok, awdlSyncUpdateLast long now timeToNextAwMaster awCounterMaster sync)

/-- The loop of `awdl_handle_chanseq_tlv` that copies the entries of the channel list. -/
def readEntries (val : Buf) (size : Nat) : (left offset : Nat) → Option (List (List UInt8))
  | 0, _ => some []
  | left + 1, offset => do
      let entry ← readBytesCopy val offset size
      let rest ← readEntries val size left (offset + size)
      return entry :: rest

/-- The local channel array of `awdl_handle_chanseq_tlv` after the loop. The bytes
of `list` that an entry does not cover keep what the stack held. -/
def readChannels (val : Buf) (size : Nat) (list : AwdlChanseq) : Option AwdlChanseq :=
  (readEntries val size awdlChanseqLength 6).map fun entries i =>
    { val0 := (entries.getD i.val []).getD 0 (list i).val0
      val1 := (entries.getD i.val []).getD 1 (list i).val1 }

/-- `awdl_handle_chanseq_tlv`; `list` is what the stack held in its local array. -/
def awdlHandleChanseqTlv (list : AwdlChanseq) (src : AwdlPeer) (val : Buf) (state : AwdlState) :
    RxResult × AwdlPeer :=
  checkedRead (readU8 val 0) src fun count =>
  if count.toNat + 1 ≠ awdlChanseqLength then (.unexpectedValue, src) else
  checkedRead (readU8 val 2) src fun duplicateCount =>
  if duplicateCount > 0 then (.unexpectedValue, src) else
  checkedRead (readU8 val 3) src fun stepCount =>
  if stepCount.toNat + 1 ≠ state.sync.presenceMode.toNat then (.unexpectedValue, src) else
  checkedRead (readLe16 val 4) src fun fillChannel =>
  if fillChannel ≠ 0xffff then (.unexpectedValue, src) else
  checkedRead (readU8 val 1) src fun encoding =>
  let size := awdlChanEncodingSize encoding
  if size < 1 then (.unexpectedValue, src) else
  checkedRead (readChannels val size.toNat list) src fun sequence =>
  (.ok, { src with sequence := sequence })

/-- `awdl_handle_election_params_tlv`. -/
def awdlHandleElectionParamsTlv (src : AwdlPeer) (val : Buf) : RxResult × AwdlPeer :=
  if src.supportsV2 then (.ok, src) else
  checkedRead (readU8 val 3) src fun distanceToMaster =>
  let src := { src with election.height := distanceToMaster.toUInt32 }
  checkedRead (readEtherAddr val 5) src fun masterAddr =>
  let src := { src with election.masterAddr := masterAddr }
  checkedRead (readLe32 val 11) src fun masterMetric =>
  let src := { src with election.masterMetric := masterMetric }
  checkedRead (readLe32 val 15) src fun selfMetric =>
  (.ok, { src with election.selfMetric := selfMetric })

/-- `awdl_handle_election_params_v2_tlv`. -/
def awdlHandleElectionParamsV2Tlv (src : AwdlPeer) (val : Buf) : RxResult × AwdlPeer :=
  checkedRead (readLe32 val 16) src fun height =>
  let src := { src with election.height := height }
  checkedRead (readEtherAddr val 0) src fun masterAddr =>
  let src := { src with election.masterAddr := masterAddr }
  checkedRead (readEtherAddr val 6) src fun syncAddr =>
  let src := { src with election.syncAddr := syncAddr }
  checkedRead (readLe32 val 12) src fun masterCounter =>
  let src := { src with election.masterCounter := masterCounter }
  checkedRead (readLe32 val 20) src fun masterMetric =>
  let src := { src with election.masterMetric := masterMetric }
  checkedRead (readLe32 val 24) src fun selfMetric =>
  let src := { src with election.selfMetric := selfMetric }
  checkedRead (readLe32 val 36) src fun selfCounter =>
  (.ok, { src with election.selfCounter := selfCounter, supportsV2 := true })

/-- `awdl_handle_arpa_tlv`. -/
def awdlHandleArpaTlv (src : AwdlPeer) (val : Buf) : RxResult × AwdlPeer :=
  checkedRead (readIntString val 1 src.name hostNameLengthMax) src fun name =>
  (.ok, { src with name := name })

/-- One optional field of the data path state: when the flag is set it is read,
used, and the offset moves behind it. -/
def dataPathField {α : Type} (present : Bool) (read : Int → Option α) (size : Int)
    (write : AwdlPeer → α → AwdlPeer) (src : AwdlPeer) (offset : Int)
    (next : AwdlPeer → Int → RxResult × AwdlPeer) : RxResult × AwdlPeer :=
  if present then
    checkedRead (read offset) src fun value => next (write src value) (offset + size)
  else next src offset

/-- `awdl_handle_data_path_state_tlv`. -/
def awdlHandleDataPathStateTlv (src : AwdlPeer) (val : Buf) : RxResult × AwdlPeer :=
  checkedRead (readLe16 val 0) src fun flags =>
  dataPathField (flags &&& 0x0100 != 0) (readBytesCopy val · 3) 3
    (fun src code => { src with countryCode := overwrite src.countryCode 0 code }) src 2
    fun src offset =>
  dataPathField (flags &&& 0x0200 != 0) (readLe16 val) 2 (fun src _ => src) src offset
    fun src offset =>
  dataPathField (flags &&& 0x0001 != 0) (readEtherAddr val) 6 (fun src _ => src) src offset
    fun src offset =>
  dataPathField (flags &&& 0x0001 != 0) (readLe16 val) 2 (fun src _ => src) src offset
    fun src offset =>
  dataPathField (flags &&& 0x0002 != 0) (readEtherAddr val) 6
    (fun src addr => { src with infraAddr := addr }) src offset
    fun src offset =>
  dataPathField (flags &&& 0x0004 != 0) (readEtherAddr val) 6 (fun src _ => src) src offset
    fun src _ => (.ok, src)

/-- `awdl_handle_version_tlv`. -/
def awdlHandleVersionTlv (src : AwdlPeer) (val : Buf) : RxResult × AwdlPeer :=
  checkedRead (readU8 val 0) src fun version =>
  checkedRead (readU8 val 1) src fun devclass =>
  (.ok, { src with version := version, devclass := devclass })

/-- The values of `enum awdl_tlvs` that have a handler or are sent. -/
inductive AwdlTlv
  | synchronizationParameters
  | electionParameters
  | serviceParameters
  | enhancedDataRateCapabilities
  | dataPathState
  | arpa
  | chanSeq
  | version
  | electionParametersV2
  deriving DecidableEq, Repr

/-- The type byte of a TLV. -/
def AwdlTlv.toByte : AwdlTlv → UInt8
  | synchronizationParameters => 4
  | electionParameters => 5
  | serviceParameters => 6
  | enhancedDataRateCapabilities => 7
  | dataPathState => 12
  | arpa => 16
  | chanSeq => 18
  | version => 21
  | electionParametersV2 => 24

/-- What a TLV changes: the result of its handler, the record of the sender and
the sync state of the node. -/
structure TlvOutcome where
  result : RxResult
  src : AwdlPeer
  sync : AwdlSyncState

/-- `awdl_handle_tlv`. -/
def awdlHandleTlv (long : LongWidth) (list : AwdlChanseq) (src : AwdlPeer) (type : UInt8)
    (val : Buf) (state : AwdlState) (tsft : UInt64) : TlvOutcome :=
  let onPeer (handled : RxResult × AwdlPeer) : TlvOutcome := ⟨handled.1, handled.2, state.sync⟩
  if type = AwdlTlv.synchronizationParameters.toByte then
    let handled := awdlHandleSyncParamsTlv long src val state tsft
    ⟨handled.1, src, handled.2⟩
  else if type = AwdlTlv.chanSeq.toByte then onPeer (awdlHandleChanseqTlv list src val state)
  else if type = AwdlTlv.electionParameters.toByte then
    onPeer (awdlHandleElectionParamsTlv src val)
  else if type = AwdlTlv.electionParametersV2.toByte then
    onPeer (awdlHandleElectionParamsV2Tlv src val)
  else if type = AwdlTlv.arpa.toByte then onPeer (awdlHandleArpaTlv src val)
  else if type = AwdlTlv.dataPathState.toByte then onPeer (awdlHandleDataPathStateTlv src val)
  else if type = AwdlTlv.version.toByte then onPeer (awdlHandleVersionTlv src val)
  else onPeer (.ignore, src)

/-! ## What no TLV changes -/

/-- Two records that agree in what no TLV changes. -/
structure SameSender (before after : AwdlPeer) : Prop where
  addr : after.addr = before.addr
  lastUpdate : after.lastUpdate = before.lastUpdate
  selfAddr : after.election.selfAddr = before.election.selfAddr
  sentMif : after.sentMif = before.sentMif
  isValid : after.isValid = before.isValid

theorem SameSender.refl (peer : AwdlPeer) : SameSender peer peer := ⟨rfl, rfl, rfl, rfl, rfl⟩

theorem SameSender.trans {first second third : AwdlPeer} (one : SameSender first second)
    (two : SameSender second third) : SameSender first third :=
  ⟨two.addr.trans one.addr, two.lastUpdate.trans one.lastUpdate,
    two.selfAddr.trans one.selfAddr, two.sentMif.trans one.sentMif, two.isValid.trans one.isValid⟩

section Rules

variable {α : Type} {Kept : AwdlPeer → Prop} {src : AwdlPeer}

/-- A checked read keeps what holds before it and after the rest of the handler. -/
theorem checkedRead_keeps (read : Option α) {next : α → RxResult × AwdlPeer} (now : Kept src)
    (later : ∀ value, Kept (next value).2) : Kept (checkedRead read src next).2 := by
  cases read with
  | none => exact now
  | some value => exact later value

/-- A handler that accepts its value has made every checked read. -/
theorem checkedRead_accepted {read : Option α} {next : α → RxResult × AwdlPeer}
    {outcome : RxResult × AwdlPeer} (handled : checkedRead read src next = outcome)
    (accepted : 0 ≤ outcome.1.code) :
    ∃ value, read = some value ∧ next value = outcome := by
  cases read with
  | none =>
      cases handled
      exact absurd (show (0 : Int) ≤ -3 from accepted) (by decide)
  | some value => exact ⟨value, rfl, handled⟩

/-- A handler that accepts its value has passed every check. -/
theorem unexpectedValue_accepted {failed : Prop} [Decidable failed]
    {rest outcome : RxResult × AwdlPeer}
    (handled : (if failed then (.unexpectedValue, src) else rest) = outcome)
    (accepted : 0 ≤ outcome.1.code) : ¬failed ∧ rest = outcome := by
  by_cases wrong : failed
  · rw [if_pos wrong] at handled
    cases handled
    exact absurd (show (0 : Int) ≤ -3 from accepted) (by decide)
  · rw [if_neg wrong] at handled
    exact ⟨wrong, handled⟩

theorem dataPathField_keeps (present : Bool) (read : Int → Option α) (size : Int)
    {write : AwdlPeer → α → AwdlPeer} {offset : Int}
    {next : AwdlPeer → Int → RxResult × AwdlPeer} (now : Kept src)
    (written : ∀ value, Kept (write src value))
    (later : ∀ peer offset, Kept peer → Kept (next peer offset).2) :
    Kept (dataPathField present read size write src offset next).2 := by
  cases present with
  | false => exact later src offset now
  | true =>
      exact checkedRead_keeps (read offset) now fun value => later _ _ (written value)

end Rules

/-- The handler of a channel sequence writes nothing but the sequence. -/
theorem awdlHandleChanseqTlv_keeps {Kept : AwdlPeer → Prop} (list : AwdlChanseq) {src : AwdlPeer}
    (val : Buf) (state : AwdlState) (now : Kept src)
    (written : ∀ sequence, Kept { src with sequence := sequence }) :
    Kept (awdlHandleChanseqTlv list src val state).2 := by
  apply checkedRead_keeps _ now
  intro count
  split
  · exact now
  apply checkedRead_keeps _ now
  intro duplicateCount
  split
  · exact now
  apply checkedRead_keeps _ now
  intro stepCount
  split
  · exact now
  apply checkedRead_keeps _ now
  intro fillChannel
  split
  · exact now
  apply checkedRead_keeps _ now
  intro encoding
  dsimp only
  split
  · exact now
  exact checkedRead_keeps _ now written

/-- The handler of a data path state writes the country code and the
infrastructure address. -/
theorem awdlHandleDataPathStateTlv_keeps {Kept : AwdlPeer → Prop} {src : AwdlPeer} (val : Buf)
    (now : Kept src) (country : ∀ peer code, Kept peer → Kept { peer with countryCode := code })
    (infra : ∀ peer addr, Kept peer → Kept { peer with infraAddr := addr }) :
    Kept (awdlHandleDataPathStateTlv src val).2 := by
  apply checkedRead_keeps _ now
  intro flags
  refine dataPathField_keeps _ _ _ now (fun _ => country _ _ now) fun peer offset same => ?_
  apply dataPathField_keeps _ _ _ same (fun _ => same)
  intro peer offset same
  apply dataPathField_keeps _ _ _ same (fun _ => same)
  intro peer offset same
  apply dataPathField_keeps _ _ _ same (fun _ => same)
  intro peer offset same
  refine dataPathField_keeps _ _ _ same (fun _ => infra _ _ same) fun peer offset same => ?_
  exact dataPathField_keeps _ _ _ same (fun _ => same) fun peer offset same => same

theorem awdlHandleElectionParamsTlv_sameSender (src : AwdlPeer) (val : Buf) :
    SameSender src (awdlHandleElectionParamsTlv src val).2 := by
  rw [awdlHandleElectionParamsTlv]
  split
  · exact SameSender.refl src
  apply checkedRead_keeps _ (SameSender.refl src)
  intro height
  apply checkedRead_keeps _ ⟨rfl, rfl, rfl, rfl, rfl⟩
  intro masterAddr
  apply checkedRead_keeps _ ⟨rfl, rfl, rfl, rfl, rfl⟩
  intro masterMetric
  exact checkedRead_keeps _ ⟨rfl, rfl, rfl, rfl, rfl⟩ fun selfMetric => ⟨rfl, rfl, rfl, rfl, rfl⟩

theorem awdlHandleElectionParamsV2Tlv_sameSender (src : AwdlPeer) (val : Buf) :
    SameSender src (awdlHandleElectionParamsV2Tlv src val).2 := by
  apply checkedRead_keeps _ (SameSender.refl src)
  intro height
  apply checkedRead_keeps _ ⟨rfl, rfl, rfl, rfl, rfl⟩
  intro masterAddr
  apply checkedRead_keeps _ ⟨rfl, rfl, rfl, rfl, rfl⟩
  intro syncAddr
  apply checkedRead_keeps _ ⟨rfl, rfl, rfl, rfl, rfl⟩
  intro masterCounter
  apply checkedRead_keeps _ ⟨rfl, rfl, rfl, rfl, rfl⟩
  intro masterMetric
  apply checkedRead_keeps _ ⟨rfl, rfl, rfl, rfl, rfl⟩
  intro selfMetric
  exact checkedRead_keeps _ ⟨rfl, rfl, rfl, rfl, rfl⟩ fun selfCounter => ⟨rfl, rfl, rfl, rfl, rfl⟩

/-- **No TLV touches the identity, the age or the validity of its sender.** -/
theorem awdlHandleTlv_sameSender (long : LongWidth) (list : AwdlChanseq) (src : AwdlPeer)
    (type : UInt8) (val : Buf) (state : AwdlState) (tsft : UInt64) :
    SameSender src (awdlHandleTlv long list src type val state tsft).src := by
  rw [awdlHandleTlv]
  split_ifs
  · exact SameSender.refl src
  · exact awdlHandleChanseqTlv_keeps list val state (SameSender.refl src)
      fun sequence => ⟨rfl, rfl, rfl, rfl, rfl⟩
  · exact awdlHandleElectionParamsTlv_sameSender src val
  · exact awdlHandleElectionParamsV2Tlv_sameSender src val
  · exact checkedRead_keeps _ (SameSender.refl src) fun name => ⟨rfl, rfl, rfl, rfl, rfl⟩
  · exact awdlHandleDataPathStateTlv_keeps val (SameSender.refl src)
      (fun peer code same => same.trans ⟨rfl, rfl, rfl, rfl, rfl⟩)
      (fun peer addr same => same.trans ⟨rfl, rfl, rfl, rfl, rfl⟩)
  · apply checkedRead_keeps _ (SameSender.refl src)
    intro version
    exact checkedRead_keeps _ (SameSender.refl src) fun devclass => ⟨rfl, rfl, rfl, rfl, rfl⟩
  · exact SameSender.refl src

/-- Only the sync master changes the sync state. -/
theorem awdlHandleTlv_sync (long : LongWidth) (list : AwdlChanseq) (src : AwdlPeer)
    (type : UInt8) (val : Buf) (state : AwdlState) (tsft : UInt64)
    (other : state.election.syncAddr ≠ src.addr) :
    (awdlHandleTlv long list src type val state tsft).sync = state.sync := by
  have foreign : awdlElectionIsSyncMaster state.election src.addr = false := by
    rw [← Bool.not_eq_true, awdlElectionIsSyncMaster_iff]
    exact other
  rw [awdlHandleTlv]
  split_ifs
  · simp only [awdlHandleSyncParamsTlv, foreign, Bool.not_false, ↓reduceIte]
  all_goals rfl

end Owl
