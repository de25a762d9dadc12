import Owl.Awdl.Schedule
import Owl.Rx.SyncState
import Owl.Tx.Advertise
import Owl.Tx.SyncAccuracy

/-! # Slot clocks that lag

A slot clock is at a place of a period of `2 ^ 30` microseconds, and the window, the slot
and the time to the next extended window depend on this place alone. A clock lags behind
another one if it is always where the other one was some time ago. A node that accepts
an action frame of its sync master takes over the place of the master at the time when
the sync parameters were written, rounded down to a time unit, so it lags behind by less
than a time unit and the time that the frame took (`Lags.follow`).
-/

namespace Owl

/-! ## Places -/

/-- The place of a slot clock in its period. -/
def AwdlSyncState.place (sync : AwdlSyncState) (now : UInt64) : ℕ :=
  (16384 * sync.awCounter.toNat + sync.elapsed now) % 2 ^ 30

theorem AwdlSyncState.place_add (sync : AwdlSyncState) (now d : UInt64) :
    sync.place (now + d) = (sync.place now + d.toNat) % 2 ^ 30 := by
  unfold place
  rw [elapsed_add]
  omega

section Place

variable {sync : AwdlSyncState} (wf : SyncWf sync) (long : LongWidth) (now : UInt64)

include wf

theorem awdlSyncCurrentAw_place :
    (awdlSyncCurrentAw long now sync).toNat = sync.place now / 16384 := by
  rw [toNat_awdlSyncCurrentAw wf, AwdlSyncState.place]
  omega

theorem awdlSyncNextAwUs_place :
    (awdlSyncNextAwUs long now sync).toNat = 65536 - sync.place now % 65536 := by
  have aligned := wf.aligned
  rw [toNat_awdlSyncNextAwUs wf, AwdlSyncState.place]
  omega

theorem awdlSlot_place : (awdlSlot long now sync).val = sync.place now / 65536 % 16 := by
  have aligned := wf.aligned
  rw [awdlSlot_now wf, AwdlSyncState.place]
  omega

end Place

/-- **The place that a node takes over** is that of its master, rounded down to a time
unit. -/
theorem place_awdlSyncUpdateLast {longM longS : LongWidth} {master state : AwdlSyncState}
    (masterWf : SyncWf master) (wf : SyncWf state) (tm ts : UInt64) :
    (awdlSyncUpdateLast longS ts (awdlSyncNextAwTu longM tm master)
        (awdlSyncCurrentAw longM tm master) state).place ts =
      master.place tm / 1024 * 1024 := by
  have aligned := masterWf.aligned
  have down := toNat_awdlSyncNextAwTu masterWf longM tm
  have start := @elapsed_awdlSyncUpdateLast longS state wf ts (awdlSyncNextAwTu longM tm master)
    (by omega) (by omega) (awdlSyncCurrentAw longM tm master)
  have counter : (awdlSyncUpdateLast longS ts (awdlSyncNextAwTu longM tm master)
      (awdlSyncCurrentAw longM tm master) state).awCounter.toNat =
        (awdlSyncCurrentAw longM tm master).toNat / 4 * 4 := toNat_and_fffc _
  unfold AwdlSyncState.place
  rw [counter, start, toNat_awdlSyncCurrentAw masterWf, down]
  omega

/-! ## Lags -/

/-- The place of a node's slot clock at a common time. -/
def ClockNode.place (node : ClockNode) (time : UInt64) : ℕ := node.sync.place (time + node.offset)

/-- The slot clock of a node is always where that of another one was some time ago. -/
def Lags (node reference : ClockNode) (lag : ℕ) : Prop :=
  ∀ time, node.place time = reference.place (time - UInt64.ofNat lag)

theorem Lags.refl (node : ClockNode) : Lags node node 0 := by
  intro time
  exact congrArg node.place (UInt64.sub_zero time).symm

theorem Lags.trans {node middle reference : ClockNode} {lag more : ℕ}
    (first : Lags node middle lag) (second : Lags middle reference more) :
    Lags node reference (lag + more) := by
  intro time
  have both : time - UInt64.ofNat lag - UInt64.ofNat more = time - UInt64.ofNat (lag + more) := by
    rw [UInt64.ofNat_add]
    grind
  rw [first time, second, both]

/-- The places of a clock that lags, on the circle. -/
theorem Lags.place {node reference : ClockNode} {lag : ℕ} (lags : Lags node reference lag)
    (time : UInt64) : (node.place time + lag) % 2 ^ 30 = reference.place time := by
  have later := reference.sync.place_add (time - UInt64.ofNat lag + reference.offset)
    (UInt64.ofNat lag)
  have same : time - UInt64.ofNat lag + reference.offset + UInt64.ofNat lag =
      time + reference.offset := by
    grind
  rw [same, UInt64.toNat_ofNat'] at later
  rw [lags time, ClockNode.place, ClockNode.place, later]
  omega

/-- A node whose clock is set to the place that another one had shortly before lags
behind it. -/
theorem Lags.of_place {node reference : ClockNode} {written late : UInt64} {lost : ℕ}
    (lost_le : lost ≤ reference.place written)
    (set : node.place (written + late) = reference.place written - lost) :
    Lags node reference (lost + late.toNat) := by
  intro time
  have own := node.sync.place_add (written + late + node.offset) (time - (written + late))
  have other := reference.sync.place_add (written + reference.offset)
    (time - UInt64.ofNat (lost + late.toNat) - written)
  have ownTime : written + late + node.offset + (time - (written + late)) =
      time + node.offset := by
    grind
  have otherTime : written + reference.offset +
      (time - UInt64.ofNat (lost + late.toNat) - written) =
        time - UInt64.ofNat (lost + late.toNat) + reference.offset := by
    grind
  rw [ownTime] at own
  rw [otherTime] at other
  unfold ClockNode.place at set lost_le ⊢
  rw [own, other, set]
  clear own other set ownTime otherTime
  simp only [UInt64.toNat_sub, UInt64.toNat_add, UInt64.toNat_ofNat']
  have bounds := And.intro written.toNat_lt (And.intro late.toNat_lt time.toNat_lt)
  omega

/-- **A node that takes over the announced phase** lags behind its master by less than a
time unit more than the announcement took. -/
theorem Lags.follow {master node : ClockNode} {before : AwdlSyncState} {written late : UInt64}
    (masterWf : SyncWf master.sync) (wf : SyncWf before)
    (synced : node.sync = awdlSyncUpdateLast node.long (written + late + node.offset)
      (awdlSyncNextAwTu master.long (written + master.offset) master.sync)
      (awdlSyncCurrentAw master.long (written + master.offset) master.sync) before) :
    ∃ lost, lost < 1024 ∧ Lags node master (lost + late.toNat) := by
  refine ⟨master.place written % 1024, Nat.mod_lt _ (by decide), .of_place (Nat.mod_le _ _) ?_⟩
  have place := @place_awdlSyncUpdateLast master.long node.long master.sync before masterWf wf
    (written + master.offset) (written + late + node.offset)
  rw [← synced] at place
  unfold ClockNode.place
  rw [place]
  omega

section Schedule

variable {node other reference : ClockNode} {lag : ℕ} (wf : SyncWf node.sync)
  (referenceWf : SyncWf reference.sync) (lags : Lags node reference lag) (time : UInt64)

include wf referenceWf lags

/-- A node counts the windows of the reference. -/
theorem Lags.aw : node.aw time = reference.aw (time - UInt64.ofNat lag) := by
  apply UInt16.toNat_inj.mp
  unfold ClockNode.aw
  rw [awdlSyncCurrentAw_place wf, awdlSyncCurrentAw_place referenceWf]
  exact congrArg (· / 16384) (lags time)

/-- The time to the next extended window is that of the reference. -/
theorem Lags.nextAwUs : awdlSyncNextAwUs node.long (time + node.offset) node.sync =
    awdlSyncNextAwUs reference.long (time - UInt64.ofNat lag + reference.offset)
      reference.sync := by
  apply UInt64.toNat_inj.mp
  rw [awdlSyncNextAwUs_place wf, awdlSyncNextAwUs_place referenceWf]
  exact congrArg (65536 - · % 65536) (lags time)

omit referenceWf in
/-- **Nodes with small lags are in one slot** while one of them is sixteen time units away
from the ends of its slot. -/
theorem Lags.awdlSlot_eq {more : ℕ} (otherWf : SyncWf other.sync) (small : lag < 16384)
    (otherLags : Lags other reference more) (otherSmall : more < 16384)
    (early : 16384 ≤ (awdlSyncNextAwUs node.long (time + node.offset) node.sync).toNat)
    (late : (awdlSyncNextAwUs node.long (time + node.offset) node.sync).toNat ≤ 65536 - 16384) :
    awdlSlot other.long (time + other.offset) other.sync =
      awdlSlot node.long (time + node.offset) node.sync := by
  have first := lags.place time
  have second := otherLags.place time
  rw [awdlSyncNextAwUs_place wf] at early late
  refine Fin.ext ?_
  rw [awdlSlot_place wf, awdlSlot_place otherWf]
  unfold ClockNode.place AwdlSyncState.place at *
  omega

end Schedule

/-! ## The sync state after a frame -/

section Frame

variable {platform : Platform} {env : RxEnv} {long width : LongWidth} {sender receiver : AwdlState}

/-- TLVs none of which is for synchronisation. -/
inductive NoSync : List UInt8 → Prop
  | nil : NoSync []
  | cons {type : AwdlTlv} {value rest : List UInt8} (short : value.length < 2 ^ 16)
      (other : type.toByte ≠ AwdlTlv.synchronizationParameters.toByte) (behind : NoSync rest) :
      NoSync (tlvBytes type value ++ rest)

theorem Takes.noSync {bytes rest : List UInt8} {peer next : AwdlPeer}
    (takes : Takes long receiver bytes peer next)
    (other : bytes.head? ≠ some AwdlTlv.synchronizationParameters.toByte) (behind : NoSync rest) :
    NoSync (bytes ++ rest) := by
  obtain ⟨type, value, rfl, short, _⟩ := takes
  exact .cons short (fun same => other (congrArg some same)) behind

/-- The loop leaves the sync state alone if there is nothing for synchronisation. -/
theorem NoSync.tlvLoop {bytes : List UInt8} (noSync : NoSync bytes) (list : Nat → AwdlChanseq)
    (tsft : UInt64) (fuel : Nat) {frame : Buf} (viewed : frame.view = bytes) (peer : AwdlPeer)
    (state : AwdlState) (events : List Callback) :
    (tlvLoop long list tsft fuel frame peer state events).state.sync = state.sync := by
  induction noSync generalizing fuel frame peer state events with
  | nil =>
      have nothing : readTlv frame 0 = none := by
        unfold readTlv readU8
        rw [show (0 : Int) = (0 : Nat) from rfl, readBytes_eq, if_neg (by rw [viewed]; decide)]
        rfl
      cases fuel with
      | zero => rfl
      | succ fuel => rw [Owl.tlvLoop, nothing]
  | @cons type value rest short other behind ih =>
      cases fuel with
      | zero => rfl
      | succ fuel =>
          have kept : (awdlHandleTlv long (list frame.len) peer type.toByte (bufNewConst value)
              state tsft).sync = state.sync := by
            rw [awdlHandleTlv, if_neg other]
            split_ifs <;> rfl
          by_cases success : 0 ≤ (awdlHandleTlv long (list frame.len) peer type.toByte
              (bufNewConst value) state tsft).result.code
          · obtain ⟨after, events', viewedAfter, round⟩ :=
              @tlvLoop_tlvBytes long peer list tsft fuel frame state events type value rest _
                viewed short rfl success
            rw [round, ih fuel viewedAfter]
            exact kept
          · rw [Owl.tlvLoop, readTlv_tlvBytes viewed short]
            dsimp only
            rw [if_pos (Int.not_le.mp success)]
            exact kept

/-- Behind the sync parameters of an action frame there are no others. -/
theorem actionTlvs_noSync (advertises : Advertises sender) (now : UInt64) (type : AwdlActionType) :
    ∃ rest, actionTlvs width now sender type = awdlInitSyncParamsTlv width now sender ++ rest ∧
      NoSync rest := by
  have differs : ∀ {first : UInt8} {rest : List UInt8},
      first ≠ AwdlTlv.synchronizationParameters.toByte →
        (first :: rest).head? ≠ some AwdlTlv.synchronizationParameters.toByte :=
    fun other same => other (Option.some.inj same)
  have version : NoSync (awdlInitVersionTlv sender) := by
    rw [← List.append_nil (awdlInitVersionTlv sender)]
    exact (@takes_awdlInitVersionTlv width sender sender default).noSync
      (differs (by decide)) .nil
  have state := (@takes_awdlInitDataPathStateTlv width sender sender default).noSync
    (differs (by decide)) version
  have front : ∀ {rest : List UInt8}, NoSync rest →
      NoSync (awdlInitElectionParamsTlv sender ++ (awdlInitChanseqTlv sender ++
        (awdlInitElectionParamsV2Tlv sender ++ (awdlInitServiceParamsTlv ++ rest)))) := by
    intro rest behind
    have service := (@takes_awdlInitServiceParamsTlv width sender default).noSync
      (differs (by decide)) behind
    have second := (@takes_awdlInitElectionParamsV2Tlv width sender sender default).noSync
      (differs (by decide)) service
    have chanseq := (@takes_awdlInitChanseqTlv width sender sender advertises.enc default).noSync
      (differs (by decide)) second
    exact (@takes_awdlInitElectionParamsTlv width sender sender default).noSync
      (differs (by decide)) chanseq
  unfold Owl.actionTlvs
  simp only [List.append_assoc]
  refine ⟨_, rfl, front ?_⟩
  cases type with
  | psf =>
      simp only [reduceCtorEq, ↓reduceIte, List.nil_append]
      exact state
  | mif =>
      simp only [↓reduceIte]
      have arpa := (@takes_awdlInitArpaTlv width sender sender advertises.name default).noSync
        (differs (by decide)) state
      exact (@takes_awdlInitHtCapabilitiesTlv width sender default).noSync
        (differs (by decide)) arpa

/-- What the loop makes of the sync parameters of the sync master, which come first. -/
theorem tlvLoop_actionTlvs_sync (advertises : Advertises sender) {now tsft : UInt64}
    {type : AwdlActionType} {frame : Buf} (viewed : frame.view = actionTlvs width now sender type)
    (list : Nat → AwdlChanseq) {peer : AwdlPeer}
    (isMaster : awdlElectionIsSyncMaster receiver.election peer.addr = true)
    (events : List Callback) :
    ∃ measErr measTotal,
      (tlvLoop long list tsft frame.len frame peer receiver events).state.sync =
        awdlSyncUpdateLast long tsft (awdlSyncNextAwTu width now sender.sync)
          (awdlSyncCurrentAw width now sender.sync)
          { receiver.sync with measErr := measErr, measTotal := measTotal } := by
  obtain ⟨rest, parts, noSync⟩ := @actionTlvs_noSync width sender advertises now type
  have shape : awdlInitSyncParamsTlv width now sender =
      tlvBytes .synchronizationParameters
        (syncParamsFront width now sender ++ syncParamsRest width now sender) := by
    simp only [awdlInitSyncParamsTlv, syncParamsFront, syncParamsRest, List.append_assoc]
  have short : (syncParamsFront width now sender ++ syncParamsRest width now sender).length <
      2 ^ 16 := by
    simp only [syncParamsRest, List.length_append, length_syncParamsFront, length_le16,
      length_awdlInitChanseq, advertises.enc, awdlChanEncodingLength, List.length_cons,
      List.length_nil]
    omega
  rw [parts, shape] at viewed
  obtain ⟨fuel, length⟩ : ∃ fuel, frame.len = fuel + 1 := by
    refine Nat.exists_eq_succ_of_ne_zero ?_
    rw [← frame.length_view, viewed, List.length_append, length_tlvBytes]
    omega
  obtain ⟨measErr, measTotal, handled⟩ := @awdlHandleSyncParamsTlv_sent width long sender receiver
    peer now tsft isMaster
  have taken : awdlHandleTlv long (list frame.len) peer AwdlTlv.synchronizationParameters.toByte
      (bufNewConst (syncParamsFront width now sender ++ syncParamsRest width now sender)) receiver
      tsft = ⟨.ok, peer, awdlSyncUpdateLast long tsft (awdlSyncNextAwTu width now sender.sync)
        (awdlSyncCurrentAw width now sender.sync)
        { receiver.sync with measErr := measErr, measTotal := measTotal }⟩ := by
    rw [awdlHandleTlv, if_pos rfl, handled]
  obtain ⟨behind, events', viewedBehind, round⟩ := @tlvLoop_tlvBytes long peer list tsft fuel frame
    receiver events _ _ _ _ viewed short taken
    (show 0 ≤ RxResult.ok.code by decide)
  refine ⟨measErr, measTotal, ?_⟩
  rw [length, round, noSync.tlvLoop list tsft fuel viewedBehind]

/-- **An accepted action frame of the sync master is followed.** -/
theorem awdlRxAction_follows {frame : Buf} {rssi : Int8} {tsft : UInt64} {dst : EtherAddr}
    {clock : TxClock} {type : AwdlActionType} {next : AwdlState} {events : List Callback}
    (advertises : Advertises sender) (wf : AwdlPeersWf platform.hash receiver.peers.peers)
    (viewed : frame.view = awdlInitAction clock.action type ++
      actionTlvs width clock.sync sender type)
    (follows : receiver.election.syncAddr = sender.selfAddress)
    (done : awdlRxAction platform env frame rssi tsft sender.selfAddress dst receiver =
      some (.ok, next, events)) :
    ∃ measErr measTotal, next.sync =
      awdlSyncUpdateLast platform.long tsft (awdlSyncNextAwTu width clock.sync sender.sync)
        (awdlSyncCurrentAw width clock.sync sender.sync)
        { receiver.sync with measErr := measErr, measTotal := measTotal } := by
  have within : awdlActionSize ≤ frame.view.length := by
    rw [viewed, List.length_append]
    exact Nat.le_add_right 16 _
  obtain ⟨tlvs, strip, viewedTlvs⟩ := bufStrip_of_le within
  have tlvs_eq : tlvs.view = actionTlvs width clock.sync sender type := by
    rw [viewedTlvs, viewed]
    rfl
  unfold awdlRxAction at done
  rw [awdlParseActionHdr_tx viewed] at done
  dsimp only at done
  rw [strip, Option.getD_some] at done
  split at done
  · cases done
  split at done
  · cases done
  rename_i status peers added add
  split at done
  · cases done
  rename_i success
  have keyed := wf.add add
  split at done
  · cases done
  rename_i peer found
  have own : peer.addr = sender.selfAddress := by
    rw [awdlPeerGet_eq keyed.table] at found
    exact (keyed.keyed _ _ found).addr_eq
  rw [finishAction_sync done]
  refine tlvLoop_actionTlvs_sync advertises tlvs_eq env.list ?_ added
  rw [own]
  exact awdlElectionIsSyncMaster_iff.mpr follows

end Frame

end Owl
