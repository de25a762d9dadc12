import Owl.Awdl.SlotClock
import Owl.Rx.Isolation
import Owl.Tx.Tlvs

/-! # How well a node follows its sync master

The sync parameters carry the time to the next extended window in whole time
units and the current window. A node that takes them over at once runs behind
its master by the fraction of a time unit that is lost (`awdlSyncUpdateLast_aw`),
and a chain of such nodes by the sum of the fractions (`sync_accuracy`).
-/

namespace Owl

variable {longM longS : LongWidth} {master state : AwdlSyncState}

theorem AwdlSyncState.elapsed_sub (state : AwdlSyncState) (now : UInt64) {back : Nat}
    (small : back < 2 ^ 30) :
    state.elapsed (now - UInt64.ofNat back) = (state.elapsed now + 2 ^ 30 - back) % 2 ^ 30 := by
  simp only [elapsed, UInt64.toNat_sub, UInt64.toNat_ofNat']
  omega

/-! ## One update -/

/-- The time that a master's clock is ahead of what it announces. -/
def syncLag (master : AwdlSyncState) (now : UInt64) : Nat := master.elapsed now % 1024

theorem syncLag_lt (master : AwdlSyncState) (now : UInt64) : syncLag master now < 1024 :=
  Nat.mod_lt _ (by decide)

/-- The update sets the clock back to the start of the extended window of the master. -/
theorem elapsed_awdlSyncUpdateLast (wf : SyncWf state) (now : UInt64) {timeToNextAw : UInt16}
    (positive : 0 < timeToNextAw.toNat) (within : timeToNextAw.toNat ≤ 64) (awCounter : UInt16) :
    (awdlSyncUpdateLast longS now timeToNextAw awCounter state).elapsed now =
      1024 * (64 - timeToNextAw.toNat) := by
  have passed : ((64 : UInt64) - timeToNextAw.toUInt64).toNat = 64 - timeToNextAw.toNat := by
    rw [UInt64.toNat_sub, UInt16.toNat_toUInt64]
    simp only [UInt64.reduceToNat]
    omega
  have length := toNat_ieee80211TuToUsec longS (show ((64 : UInt64) -
    timeToNextAw.toUInt64).toNat ≤ 2 ^ 21 by omega)
  rw [passed] at length
  simp only [AwdlSyncState.elapsed, awdlSyncUpdateLast, wf.eawPeriod, UInt64.toNat_sub, length]
  omega

/-- Whole periods of the clock do not change the window. -/
theorem windows_mod_period (counter time : Nat) :
    (counter + time % 2 ^ 30 / 16384) % 65536 = (counter + time / 16384) % 65536 := by
  omega

/-- The windows that are counted from the start of the extended window are those
that are counted from the last update, the fraction of a time unit apart. -/
theorem windows_from_extended {counter : Nat} (aligned : counter % 4 = 0) (elapsed d : Nat) :
    ((counter + elapsed / 16384) % 65536 / 4 * 4 +
        (1024 * (elapsed / 1024 % 64) + d) % 2 ^ 30 / 16384) % 65536 =
      (counter + ((elapsed + d) % 2 ^ 30 + 2 ^ 30 - elapsed % 1024) % 2 ^ 30 / 16384) %
        65536 := by
  have rounded : (counter + elapsed / 16384) % 65536 / 4 * 4 =
      (counter + 4 * (elapsed / 65536)) % 65536 := by
    omega
  have phase : elapsed = 65536 * (elapsed / 65536) + 1024 * (elapsed / 1024 % 64) +
      elapsed % 1024 := by
    omega
  have behind : ((elapsed + d) % 2 ^ 30 + 2 ^ 30 - elapsed % 1024) % 2 ^ 30 =
      (65536 * (elapsed / 65536) + 1024 * (elapsed / 1024 % 64) + d) % 2 ^ 30 := by
    omega
  rw [rounded, behind, windows_mod_period, windows_mod_period]
  omega

/-- **A node that takes over the announced phase counts as its master does**, with
the lag of the announcement. -/
theorem awdlSyncUpdateLast_aw (masterWf : SyncWf master) (reachable : SyncReachable longS state)
    (tm ts d : UInt64) :
    awdlSyncCurrentAw longS (ts + d)
        (awdlSyncUpdateLast longS ts (awdlSyncNextAwTu longM tm master)
          (awdlSyncCurrentAw longM tm master) state) =
      awdlSyncCurrentAw longM (tm + d - UInt64.ofNat (syncLag master tm)) master := by
  have lag := syncLag_lt master tm
  have down := toNat_awdlSyncNextAwTu masterWf longM tm
  have units : 64 - (64 - master.elapsed tm / 1024 % 64) = master.elapsed tm / 1024 % 64 := by
    omega
  have wf := (reachable.updateLast ts (awdlSyncNextAwTu longM tm master)
    (awdlSyncCurrentAw longM tm master)).wf
  have start := @elapsed_awdlSyncUpdateLast longS state reachable.wf ts
    (awdlSyncNextAwTu longM tm master) (by omega) (by omega) (awdlSyncCurrentAw longM tm master)
  have counter : (awdlSyncUpdateLast longS ts (awdlSyncNextAwTu longM tm master)
      (awdlSyncCurrentAw longM tm master) state).awCounter.toNat =
        (awdlSyncCurrentAw longM tm master).toNat / 4 * 4 := toNat_and_fffc _
  have passed : syncLag master tm = master.elapsed tm % 1024 := rfl
  apply UInt16.toNat_inj.mp
  rw [toNat_awdlSyncCurrentAw wf, toNat_awdlSyncCurrentAw masterWf, AwdlSyncState.elapsed_add,
    start, counter, toNat_awdlSyncCurrentAw masterWf, down,
    AwdlSyncState.elapsed_sub _ _ (by omega), AwdlSyncState.elapsed_add, passed, units]
  exact windows_from_extended masterWf.aligned (master.elapsed tm) d.toNat

/-! ## The sync parameters on their way -/

/-- The first fields of the sync parameters, up to the current window. -/
def syncParamsFront (long : LongWidth) (now : UInt64) (sender : AwdlState) : List UInt8 :=
  [awdlChanNum sender.channel.current sender.channel.enc] ++
    le16 (awdlSyncNextAwTu long now sender.sync) ++
    [awdlChanNum sender.channel.master sender.channel.enc, 0] ++ le16 sender.sync.awPeriod ++
    le16 sender.psfInterval ++ le16 0x1800 ++ le16 sender.sync.awPeriod ++
    le16 sender.sync.awPeriod ++
    le16 (remainingAwLength sender.sync.awPeriod (awdlSyncNextAwTu long now sender.sync)
      sender.sync.presenceMode) ++
    [sender.sync.presenceMode - 1, sender.sync.presenceMode - 1, sender.sync.presenceMode - 1,
      sender.sync.presenceMode - 1] ++
    sender.election.masterAddr.octets ++ [sender.sync.presenceMode, 0] ++
    le16 (awdlSyncCurrentAw long now sender.sync)

/-- The fields behind them. -/
def syncParamsRest (long : LongWidth) (now : UInt64) (sender : AwdlState) : List UInt8 :=
  le16 (awdlSyncCurrentAw long now sender.sync) ++ awdlInitChanseq sender ++ [0, 0]

theorem length_syncParamsFront (long : LongWidth) (now : UInt64) (sender : AwdlState) :
    (syncParamsFront long now sender).length = 31 := by
  simp only [syncParamsFront, List.length_append, length_le16, EtherAddr.length_octets,
    List.length_cons, List.length_nil]

/-- The sync parameters are read back. -/
theorem readTlv_awdlInitSyncParamsTlv (long : LongWidth) (now : UInt64) (sender : AwdlState) :
    ∃ len, readTlv (bufNewConst (awdlInitSyncParamsTlv long now sender)) 0 =
      some (AwdlTlv.synchronizationParameters.toByte, len,
        syncParamsFront long now sender ++ syncParamsRest long now sender) := by
  have shape : awdlInitSyncParamsTlv long now sender =
      tlvBytes .synchronizationParameters
        (syncParamsFront long now sender ++ syncParamsRest long now sender) := by
    simp only [awdlInitSyncParamsTlv, syncParamsFront, syncParamsRest, List.append_assoc]
  have front := length_syncParamsFront long now sender
  have short : (syncParamsFront long now sender ++ syncParamsRest long now sender).length <
      2 ^ 16 := by
    have entry : awdlChanEncodingLength sender.channel.enc ≤ 2 := by
      cases sender.channel.enc <;> decide
    simp only [syncParamsRest, List.length_append, front, length_le16,
      length_awdlInitChanseq, List.length_cons, List.length_nil]
    omega
  have viewed : (bufNewConst (awdlInitSyncParamsTlv long now sender)).view =
      tlvBytes .synchronizationParameters
        (syncParamsFront long now sender ++ syncParamsRest long now sender) ++ [] := by
    rw [view_bufNewConst, shape, List.append_nil]
  exact ⟨_, readTlv_tlvBytes viewed short⟩

/-- What a node does with the sync parameters of its master. -/
theorem awdlHandleSyncParamsTlv_sent {sender receiver : AwdlState} {src : AwdlPeer}
    (tm ts : UInt64) (isMaster : awdlElectionIsSyncMaster receiver.election src.addr = true) :
    ∃ measErr measTotal,
      awdlHandleSyncParamsTlv longS src
          (bufNewConst (syncParamsFront longM tm sender ++ syncParamsRest longM tm sender))
          receiver ts =
        (.ok, awdlSyncUpdateLast longS ts (awdlSyncNextAwTu longM tm sender.sync)
          (awdlSyncCurrentAw longM tm sender.sync)
          { receiver.sync with measErr := measErr, measTotal := measTotal }) := by
  have viewed := view_bufNewConst
    (syncParamsFront longM tm sender ++ syncParamsRest longM tm sender)
  have down : readLe16 _ 1 = some (awdlSyncNextAwTu longM tm sender.sync) :=
    readLe16_written viewed (length_syncParamsFront ..) (by decide) rfl
  have window : readLe16 _ 29 = some (awdlSyncCurrentAw longM tm sender.sync) :=
    readLe16_written viewed (length_syncParamsFront ..) (by decide) rfl
  unfold awdlHandleSyncParamsTlv
  rw [isMaster, Bool.not_true, if_neg Bool.false_ne_true, down, window]
  dsimp only
  split
  · exact ⟨_, _, rfl⟩
  · exact ⟨_, _, rfl⟩

/-- **The sync parameters of a master are taken over**, from any reachable state. -/
theorem syncParams_follow {sender receiver : AwdlState} {src : AwdlPeer}
    (sent : SyncReachable longM sender.sync) (received : SyncReachable longS receiver.sync)
    (isMaster : awdlElectionIsSyncMaster receiver.election src.addr = true) (tm ts : UInt64) :
    ∃ type len value synced,
      readTlv (bufNewConst (awdlInitSyncParamsTlv longM tm sender)) 0 = some (type, len, value) ∧
      awdlHandleSyncParamsTlv longS src (bufNewConst value) receiver ts = (.ok, synced) ∧
      SyncReachable longS synced ∧
      ∀ d, awdlSyncCurrentAw longS (ts + d) synced =
        awdlSyncCurrentAw longM (tm + d - UInt64.ofNat (syncLag sender.sync tm)) sender.sync := by
  obtain ⟨len, read⟩ := readTlv_awdlInitSyncParamsTlv longM tm sender
  obtain ⟨measErr, measTotal, handled⟩ := @awdlHandleSyncParamsTlv_sent longM longS sender receiver
    src tm ts isMaster
  have measured := received.measured measErr measTotal
  exact ⟨_, len, _, _, read, handled, measured.updateLast ts _ _,
    awdlSyncUpdateLast_aw sent.wf measured tm ts⟩

/-! ## Chains -/

/-- A node with its clock, which is ahead of a common time by a fixed offset. -/
structure ClockNode where
  long : LongWidth
  sync : AwdlSyncState
  offset : UInt64

/-- The window that a node counts at a common time. -/
def ClockNode.aw (node : ClockNode) (time : UInt64) : UInt16 :=
  awdlSyncCurrentAw node.long (time + node.offset) node.sync

/-- Nodes that are synchronised one after the other, each to the one before it. -/
inductive SyncChain (first : ClockNode) : Nat → ClockNode → Prop
  | start : SyncChain first 0 first
  | follow {count : Nat} {master : ClockNode} {sender receiver : AwdlState} {src : AwdlPeer}
      {type : UInt8} {len : UInt16} {value : List UInt8} {node : ClockNode} (time : UInt64)
      (chain : SyncChain first count master) (announces : sender.sync = master.sync)
      (reachable : SyncReachable node.long receiver.sync)
      (isMaster : awdlElectionIsSyncMaster receiver.election src.addr = true)
      (sent : readTlv (bufNewConst
        (awdlInitSyncParamsTlv master.long (time + master.offset) sender)) 0 =
          some (type, len, value))
      (handled : awdlHandleSyncParamsTlv node.long src (bufNewConst value) receiver
        (time + node.offset) = (.ok, node.sync)) : SyncChain first (count + 1) node

/-- The last node of a chain is in step with the first one, with the lags added up. -/
theorem SyncChain.lags {first last : ClockNode} {count : Nat} (chain : SyncChain first count last)
    (reachable : SyncReachable first.long first.sync) :
    SyncReachable last.long last.sync ∧
      ∃ delta, delta ≤ 1023 * count ∧
        ∀ time, last.aw time = first.aw (time - UInt64.ofNat delta) := by
  induction chain with
  | start =>
      refine ⟨reachable, 0, Nat.le_refl 0, ?_⟩
      intro time
      exact congrArg first.aw (UInt64.sub_zero time).symm
  | @follow count master sender receiver src type len value node time chain announces received
      isMaster sent handled ih =>
      obtain ⟨masterReachable, delta, small, behind⟩ := ih
      rw [← announces] at masterReachable
      obtain ⟨_, _, _, synced, read, taken, next, follows⟩ := syncParams_follow masterReachable
        received isMaster (time + master.offset) (time + node.offset)
      cases read.symm.trans sent
      cases taken.symm.trans handled
      have lag := syncLag_lt sender.sync (time + master.offset)
      refine ⟨next, delta + syncLag sender.sync (time + master.offset), by omega, ?_⟩
      intro later
      have own : time + node.offset + (later - time) = later + node.offset := by grind
      have masters : time + master.offset + (later - time) -
          UInt64.ofNat (syncLag sender.sync (time + master.offset)) =
            later - UInt64.ofNat (syncLag sender.sync (time + master.offset)) + master.offset := by
        grind
      have both : later - UInt64.ofNat (syncLag sender.sync (time + master.offset)) -
          UInt64.ofNat delta =
            later - UInt64.ofNat (delta + syncLag sender.sync (time + master.offset)) := by
        rw [UInt64.ofNat_add]
        grind
      have step := follows (later - time)
      rw [own, masters, announces] at step
      rw [announces] at both
      rw [announces, ← both, ← behind]
      exact step

/-- **Synchronisation accuracy.** A node that handles the sync parameters of its
master without delay counts the windows of the master with a fixed lag of less
than a time unit, and the last node of a chain those of the first with a lag that
is added up from one such lag for every node. -/
theorem sync_accuracy :
    (∀ (longM longS : LongWidth) (sender receiver : AwdlState) (src : AwdlPeer) (tm ts : UInt64),
      SyncReachable longM sender.sync → SyncReachable longS receiver.sync →
      awdlElectionIsSyncMaster receiver.election src.addr = true →
      ∃ type len value synced,
        readTlv (bufNewConst (awdlInitSyncParamsTlv longM tm sender)) 0 = some (type, len, value) ∧
        awdlHandleSyncParamsTlv longS src (bufNewConst value) receiver ts = (.ok, synced) ∧
        ∃ delta, delta < 1024 ∧ ∀ d, awdlSyncCurrentAw longS (ts + d) synced =
          awdlSyncCurrentAw longM (tm + d - UInt64.ofNat delta) sender.sync) ∧
    ∀ (first last : ClockNode) (count : Nat), SyncReachable first.long first.sync →
      SyncChain first count last →
      ∃ delta, delta ≤ 1023 * count ∧
        ∀ time, last.aw time = first.aw (time - UInt64.ofNat delta) := by
  refine ⟨?_, ?_⟩
  · intro longM longS sender receiver src tm ts sent received isMaster
    obtain ⟨type, len, value, synced, read, handled, _, follows⟩ :=
      syncParams_follow sent received isMaster tm ts
    exact ⟨type, len, value, synced, read, handled, _, syncLag_lt sender.sync tm, follows⟩
  · intro first last count reachable chain
    exact (chain.lags reachable).2

/-- A node that follows another one. -/
def sampleFollower : AwdlState := { sampleState with election.syncAddr := ⟨2, 0, 0, 0, 0, 9⟩ }

/-- Within a millisecond in which the windows of a new node wrap around, a second node
follows it, and a third one the second. -/
theorem sync_accuracy_wrap : ∃ last, SyncChain ⟨.bits64, sampleState.sync, 0⟩ 2 last ∧
    ClockNode.aw ⟨.bits64, sampleState.sync, 0⟩ 1073741324 = 65535 ∧
    ClockNode.aw ⟨.bits64, sampleState.sync, 0⟩ 1073742324 = 0 ∧
    ∃ delta, delta ≤ 2046 ∧
      ∀ time, last.aw time =
        ClockNode.aw ⟨.bits64, sampleState.sync, 0⟩ (time - UInt64.ofNat delta) := by
  have first : SyncReachable .bits64 sampleState.sync := .init 0
  have fresh : ∀ long, SyncReachable long sampleFollower.sync := fun _ => .init 0
  have isMaster : awdlElectionIsSyncMaster sampleFollower.election
      (freshPeer default ⟨2, 0, 0, 0, 0, 9⟩ 0).addr = true := by
    decide
  obtain ⟨_, _, _, second, read, handled, _⟩ :=
    sync_accuracy.1 .bits64 .bits32 sampleState sampleFollower
      (freshPeer default ⟨2, 0, 0, 0, 0, 9⟩ 0) (1073741324 + 0) (1073741324 + 77) first
      (fresh .bits32) isMaster
  have one : SyncChain ⟨.bits64, sampleState.sync, 0⟩ 1 ⟨.bits32, second, 77⟩ :=
    .follow 1073741324 .start rfl (fresh .bits32) isMaster read handled
  obtain ⟨_, _, _, third, read, handled, _⟩ :=
    sync_accuracy.1 .bits32 .bits64 { sampleState with sync := second } sampleFollower
      (freshPeer default ⟨2, 0, 0, 0, 0, 9⟩ 0) (1073742324 + 77) (1073742324 + 5000)
      (one.lags first).1 (fresh .bits64) isMaster
  have two : SyncChain ⟨.bits64, sampleState.sync, 0⟩ 2 ⟨.bits64, third, 5000⟩ :=
    .follow 1073742324 one rfl (fresh .bits64) isMaster read handled
  exact ⟨_, two, by decide, by decide, sync_accuracy.2 _ _ 2 first two⟩

end Owl
